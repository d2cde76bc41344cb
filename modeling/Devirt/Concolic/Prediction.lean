import Devirt.Concolic.Store

/-! A store that may hold left-overs of earlier runs. Where a run has recorded or
written a cell, the store holds the run's values; what the expressions there say
about other runs is lost or falsified by some records only. -/
namespace Devirt.Concolic
variable {C V E I : Type}

/-- The seen cells hold the values of the observed run. -/
def Shadows (seen : Set C) (s : Store C V E) (observed : C → V) : Prop :=
  ∀ c ∈ seen, s.conc c = observed c

/-- The seen cells stand for the other run, and the two runs share all other cells. -/
structure Predicts (denote : E → I → V) (seen : Set C) (s : Store C V E) (observed other : C → V)
    (input : I) : Prop where
  represented : ∀ c ∈ seen, s.value denote input c = other c
  shared : ∀ c ∉ seen, other c = observed c

/-- A record disturbs when it costs a cell of this run its expression, or makes the
left-over expression of a cell count as one of this run. -/
def Disturbs (seen : Set C) (s : Store C V E) (cells : List C) (v : C → V) : Prop :=
  ∃ c ∈ cells, s.sym c ≠ none ∧ (c ∈ seen ↔ ¬ s.Matches cells v)

variable {denote : E → I → V} {seen : Set C} {s s' : Store C V E} {observed other observed' other' : C → V}
  {input : I} {cells : List C} {v : C → V} {writes : Set C}

namespace Shadows

theorem execute (shadows : Shadows seen s observed) (frame : ∀ c ∉ writes, s'.conc c = s.conc c)
    (observedFrame : ∀ c ∉ writes, observed' c = observed c)
    (written : ∀ c ∈ writes, s'.conc c = observed' c) : Shadows (seen ∪ writes) s' observed' := by
  intro c covered
  by_cases new : c ∈ writes
  · exact written c new
  · rw [frame c new, observedFrame c new]
    exact shadows c (covered.resolve_right new)

variable [DecidableEq C] [DecidableEq V]

theorem resync (shadows : Shadows seen s observed) (shown : ∀ c ∈ cells, v c = observed c) :
    Shadows (seen ∪ {c | c ∈ cells}) (s.resync cells v) observed := by
  intro c covered
  rw [Store.resync_conc]
  split
  · exact shown c ‹_›
  · exact shadows c (covered.resolve_right ‹_›)

theorem resyncEach (shadows : Shadows seen s observed) (shown : ∀ c ∈ cells, v c = observed c) :
    Shadows (seen ∪ {c | c ∈ cells}) (s.resyncEach cells v) observed := by
  intro c covered
  rw [Store.resyncEach_conc]
  split
  · exact shown c ‹_›
  · exact shadows c (covered.resolve_right ‹_›)

end Shadows

namespace Predicts

theorem execute (predicts : Predicts denote seen s observed other input)
    (frame : ∀ c ∉ writes, s'.conc c = s.conc c ∧ s'.sym c = s.sym c)
    (observedFrame : ∀ c ∉ writes, observed' c = observed c)
    (otherFrame : ∀ c ∉ writes, other' c = other c)
    (written : ∀ c ∈ writes, s'.value denote input c = other' c) :
    Predicts denote (seen ∪ writes) s' observed' other' input := by
  constructor
  · intro c covered
    by_cases new : c ∈ writes
    · exact written c new
    · have same : s'.value denote input c = s.value denote input c := by
        simp only [Store.value, (frame c new).1, (frame c new).2]
      rw [same, otherFrame c new]
      exact predicts.represented c (covered.resolve_right new)
  · intro c outside
    have kept : c ∉ writes := fun new => outside (Or.inr new)
    rw [otherFrame c kept, observedFrame c kept]
    exact predicts.shared c fun old => outside (Or.inl old)

/-- The cells that two runs start out with differently take their place in the relation
when the store is set up to stand for both. -/
theorem seed (predicts : Predicts denote seen s observed observed input)
    (frame : ∀ c ∉ writes, s'.conc c = s.conc c ∧ s'.sym c = s.sym c)
    (alike : ∀ c ∉ writes, other c = observed c)
    (placed : ∀ c ∈ writes, s'.value denote input c = other c) :
    Predicts denote (seen ∪ writes) s' observed other input := by
  have before : Predicts denote seen s observed observed input := ⟨predicts.represented, fun _ _ => rfl⟩
  exact before.execute frame (fun _ _ => rfl) alike placed

/-- A seen cell without expression holds the same value in both runs. -/
theorem constant (predicts : Predicts denote seen s observed other input)
    (shadows : Shadows seen s observed) {c : C} (member : c ∈ seen) (none : s.sym c = none) :
    other c = observed c := by
  rw [← predicts.represented c member, Store.value_of_none none]
  exact shadows c member

variable [DecidableEq C] [DecidableEq V]

theorem resync (predicts : Predicts denote seen s observed other input)
    (shadows : Shadows seen s observed) (shown : ∀ c ∈ cells, v c = observed c)
    (calm : ¬ Disturbs seen s cells v) :
    Predicts denote (seen ∪ {c | c ∈ cells}) (s.resync cells v) observed other input := by
  refine ⟨?_, fun c outside => predicts.shared c fun old => outside (Or.inl old)⟩
  by_cases equal : s.Matches cells v
  · -- Nothing changes, so a cell that counts as seen from now on must not hold a left-over.
    rw [Store.resync_of_matches equal]
    intro c covered
    by_cases old : c ∈ seen
    · exact predicts.represented c old
    · have member : c ∈ cells := covered.resolve_left old
      have plain : s.sym c = none := by
        by_contra held
        exact calm ⟨c, member, held, iff_of_false old (not_not_intro equal)⟩
      rw [Store.value_of_none plain, equal c member, shown c member]
      exact (predicts.shared c old).symm
  · -- Every expression of the group is lost, so no seen cell may have one.
    intro c covered
    by_cases member : c ∈ cells
    · rw [Store.value_of_none (Store.resync_sym_of_not_matches equal member),
        Store.resync_conc_mem member, shown c member]
      by_cases old : c ∈ seen
      · have plain : s.sym c = none := by
          by_contra held
          exact calm ⟨c, member, held, iff_of_true old equal⟩
        exact (predicts.constant shadows old plain).symm
      · exact (predicts.shared c old).symm
    · have frame := Store.resync_frame (s := s) (v := v) member
      simp only [Store.value, frame.1, frame.2]
      exact predicts.represented c (covered.resolve_right member)

/-- Cells compared one by one, apart from those that are about to be overwritten. -/
theorem resyncEach (predicts : Predicts denote seen s observed other input)
    (shadows : Shadows seen s observed) (shown : ∀ c ∈ cells, v c = observed c) {skipped : Set C}
    (alike : ∀ c ∈ skipped, other c = observed c)
    (calm : ∀ c ∈ cells, c ∉ skipped → c ∉ seen → s.conc c = v c → s.sym c = none) :
    Predicts denote ((seen ∪ {c | c ∈ cells}) \ skipped) (s.resyncEach cells v) observed other input := by
  constructor
  · rintro c ⟨covered, kept⟩
    simp only [Store.value, Store.resyncEach_sym, Store.resyncEach_conc]
    by_cases member : c ∈ cells
    · simp only [member, true_and, if_true, ne_eq]
      by_cases old : c ∈ seen
      · have equal : s.conc c = v c := (shadows c old).trans (shown c member).symm
        rw [if_neg (not_not_intro equal), ← equal]
        exact predicts.represented c old
      · have plain : (if ¬ s.conc c = v c then none else s.sym c) = none := by
          split
          · rfl
          · exact calm c member kept old (not_not.mp ‹_›)
        rw [plain, predicts.shared c old]
        exact shown c member
    · simp only [member, false_and, if_false]
      exact predicts.represented c (covered.resolve_right member)
  · intro c outside
    by_cases skip : c ∈ skipped
    · exact alike c skip
    · exact predicts.shared c fun old => outside ⟨Or.inl old, skip⟩

end Predicts

/-- The seen cells hold the values of the observed run, and no other cell was ever touched. -/
structure Knows (blank : V) (seen : Set C) (s : Store C V E) (observed : C → V) : Prop where
  shadows : Shadows seen s observed
  plain : ∀ c ∉ seen, s.sym c = none
  untouched : ∀ c ∉ seen, s.conc c = blank

/-- A record is whole when nothing but blanks is new in it, or everything is. -/
def Whole (blank : V) (seen : Set C) (cells : List C) (v : C → V) : Prop :=
  (∀ c ∈ cells, c ∈ seen ∨ v c = blank) ∨ ∀ c ∈ cells, c ∉ seen

namespace Knows
variable {blank : V}

theorem execute (knows : Knows blank seen s observed)
    (frame : ∀ c ∉ writes, s'.conc c = s.conc c ∧ s'.sym c = s.sym c)
    (observedFrame : ∀ c ∉ writes, observed' c = observed c) (written : ∀ c ∈ writes, s'.conc c = observed' c) :
    Knows blank (seen ∪ writes) s' observed' := by
  constructor
  · exact knows.shadows.execute (fun c outside => (frame c outside).1) observedFrame written
  · intro c outside
    rw [(frame c fun new => outside (Or.inr new)).2]
    exact knows.plain c fun old => outside (Or.inl old)
  · intro c outside
    rw [(frame c fun new => outside (Or.inr new)).1]
    exact knows.untouched c fun old => outside (Or.inl old)

variable [DecidableEq C] [DecidableEq V]

theorem resync (knows : Knows blank seen s observed) (shown : ∀ c ∈ cells, v c = observed c) :
    Knows blank (seen ∪ {c | c ∈ cells}) (s.resync cells v) observed := by
  constructor
  · exact knows.shadows.resync shown
  · intro c outside
    rw [(Store.resync_frame fun new => outside (Or.inr new)).2]
    exact knows.plain c fun old => outside (Or.inl old)
  · intro c outside
    rw [(Store.resync_frame fun new => outside (Or.inr new)).1]
    exact knows.untouched c fun old => outside (Or.inl old)

theorem resyncEach (knows : Knows blank seen s observed) (shown : ∀ c ∈ cells, v c = observed c) :
    Knows blank (seen ∪ {c | c ∈ cells}) (s.resyncEach cells v) observed := by
  constructor
  · exact knows.shadows.resyncEach shown
  · intro c outside
    have other : c ∉ cells := fun new => outside (Or.inr new)
    rw [Store.resyncEach_sym, if_neg fun changed => other changed.1]
    exact knows.plain c fun old => outside (Or.inl old)
  · intro c outside
    have other : c ∉ cells := fun new => outside (Or.inr new)
    rw [Store.resyncEach_conc, if_neg other]
    exact knows.untouched c fun old => outside (Or.inl old)

omit [DecidableEq C] [DecidableEq V] in
/-- A whole record finds the store as it says, or no expression to disturb. -/
theorem calm (knows : Knows blank seen s observed) (shown : ∀ c ∈ cells, v c = observed c)
    (whole : Whole blank seen cells v) : ¬ Disturbs seen s cells v := by
  rintro ⟨c, member, held, disturbed⟩
  have known : c ∈ seen := by
    by_contra unseen
    exact held (knows.plain c unseen)
  have equal : s.Matches cells v := by
    rcases whole with old | new
    · intro d inside
      by_cases present : d ∈ seen
      · exact (knows.shadows d present).trans (shown d inside).symm
      · exact (knows.untouched d present).trans ((old d inside).resolve_left present).symm
    · exact absurd known (new c member)
  exact disturbed.mp known equal

end Knows
end Devirt.Concolic
