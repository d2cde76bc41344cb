import Devirt.Concolic.Store

/-! A store that observed one run stands for another run of the same path. Cells
that were seen are represented for both inputs; a cell that was never seen still
has its initial content, which both runs share. -/
namespace Devirt.Concolic
variable {C V E I : Type}

/-- `seen` cells stand for the observed run on `current` and for the other run on
`input`. No other cell was ever touched. -/
structure Tracks (denote : E → I → V) (blank : V) (seen : Set C) (s : Store C V E)
    (observed other : C → V) (current input : I) : Prop where
  replayed : ∀ c ∈ seen, s.value denote current c = observed c
  predicted : ∀ c ∈ seen, s.value denote input c = other c
  plain : ∀ c ∉ seen, s.sym c = none
  untouched : ∀ c ∉ seen, s.conc c = blank
  same : ∀ c ∉ seen, other c = observed c
  consistent : s.Consistent denote current

/-- A record mixes cells when it covers an expression and, in a cell that was
never seen, a value that is not blank. -/
def Mixes (blank : V) (seen : Set C) (s : Store C V E) (cells : List C) (v : C → V) : Prop :=
  (∃ c ∈ cells, s.sym c ≠ none) ∧ ∃ c ∈ cells, c ∉ seen ∧ v c ≠ blank

namespace Tracks
variable {denote : E → I → V} {blank : V} {seen : Set C} {s : Store C V E}
  {observed other : C → V} {current input : I} {cells : List C} {v : C → V}

theorem conc (tracks : Tracks denote blank seen s observed other current input) {c : C}
    (member : c ∈ seen) :
    s.conc c = observed c :=
  (tracks.consistent c).symm.trans (tracks.replayed c member)

/-- A seen cell without expression holds the same value in both runs. -/
theorem constant (tracks : Tracks denote blank seen s observed other current input) {c : C}
    (member : c ∈ seen) (none : s.sym c = none) : other c = observed c := by
  rw [← tracks.predicted c member, ← tracks.replayed c member, Store.value_of_none none,
    Store.value_of_none none]

/-- Cells that turn out to hold what was observed count as seen. -/
theorem observe (tracks : Tracks denote blank seen s observed other current input)
    (holds : ∀ c ∈ cells, s.conc c = observed c) :
    Tracks denote blank (seen ∪ {c | c ∈ cells}) s observed other current input := by
  have value : ∀ input c, c ∈ cells → c ∉ seen → s.value denote input c = observed c :=
    fun input c member unseen => (Store.value_of_none (tracks.plain c unseen)).trans (holds c member)
  refine ⟨?_, ?_, ?_, ?_, ?_, tracks.consistent⟩
  · intro c covered
    by_cases old : c ∈ seen
    · exact tracks.replayed c old
    · exact value current c (covered.resolve_left old) old
  · intro c covered
    by_cases old : c ∈ seen
    · exact tracks.predicted c old
    · exact (value input c (covered.resolve_left old) old).trans (tracks.same c old).symm
  · exact fun c outside => tracks.plain c fun old => outside (Or.inl old)
  · exact fun c outside => tracks.untouched c fun old => outside (Or.inl old)
  · exact fun c outside => tracks.same c fun old => outside (Or.inl old)

variable [DecidableEq C] [DecidableEq V]

omit [DecidableEq V] in
/-- Cells without expressions hold the same values in both runs, so the values of one
of them may be stored there. -/
theorem overwrite (tracks : Tracks denote blank seen s observed other current input)
    (plain : ∀ c ∈ cells, s.sym c = none) (shown : ∀ c ∈ cells, v c = observed c) :
    Tracks denote blank (seen ∪ {c | c ∈ cells}) (s.overwrite cells v) observed other current input := by
  have shared : ∀ c ∈ cells, observed c = other c := by
    intro c covered
    by_cases old : c ∈ seen
    · exact (tracks.constant old (plain c covered)).symm
    · exact (tracks.same c old).symm
  have value : ∀ input c, (s.overwrite cells v).value denote input c =
      if c ∈ cells then observed c else s.value denote input c := by
    intro input c
    split
    · rename_i covered
      simp only [Store.value, Store.overwrite, if_pos covered, shown c covered]
    · rename_i outside
      simp only [Store.value, Store.overwrite, if_neg outside]
  constructor
  · intro c covered
    rw [value]
    split
    · rfl
    · exact tracks.replayed c (covered.resolve_right ‹_›)
  · intro c covered
    rw [value]
    split
    · exact shared c ‹_›
    · exact tracks.predicted c (covered.resolve_right ‹_›)
  · intro c outside
    rw [(Store.overwrite_frame fun member => outside (Or.inr member)).2]
    exact tracks.plain c fun old => outside (Or.inl old)
  · intro c outside
    rw [(Store.overwrite_frame fun member => outside (Or.inr member)).1]
    exact tracks.untouched c fun old => outside (Or.inl old)
  · exact fun c outside => tracks.same c fun old => outside (Or.inl old)
  · exact tracks.consistent.overwrite

/-- Records of the observed run keep the relation unless they mix. -/
theorem resync (tracks : Tracks denote blank seen s observed other current input)
    (shown : ∀ c ∈ cells, v c = observed c) (harmless : ¬ Mixes blank seen s cells v) :
    Tracks denote blank (seen ∪ {c | c ∈ cells}) (s.resync cells v) observed other current input := by
  by_cases equal : s.Matches cells v
  · rw [Store.resync_of_matches equal]
    exact tracks.observe fun c member => (equal c member).trans (shown c member)
  · -- Some cell differs. It was never seen, so no covered cell may hold an expression.
    obtain ⟨d, member, different⟩ : ∃ d ∈ cells, s.conc d ≠ v d := by
      simpa [Store.Matches] using equal
    have unseen : d ∉ seen := fun old => different ((tracks.conc old).trans (shown d member).symm)
    have plain : ∀ c ∈ cells, s.sym c = none := by
      intro c covered
      by_contra held
      refine harmless ⟨⟨c, covered, held⟩, d, member, unseen, fun empty => different ?_⟩
      rw [tracks.untouched d unseen, empty]
    rw [Store.resync, if_neg equal]
    exact tracks.overwrite plain shown

omit [DecidableEq C] [DecidableEq V] in
/-- A single cell never mixes: with an expression it has been seen. -/
theorem single_harmless (tracks : Tracks denote blank seen s observed other current input) (c : C) :
    ¬ Mixes blank seen s [c] v := by
  rintro ⟨⟨d, first, held⟩, e, second, unseen, _⟩
  rw [List.mem_singleton.mp first] at held
  rw [List.mem_singleton.mp second] at unseen
  exact held (tracks.plain c unseen)

theorem resyncEach (tracks : Tracks denote blank seen s observed other current input)
    (shown : ∀ c ∈ cells, v c = observed c) :
    Tracks denote blank (seen ∪ {c | c ∈ cells}) (s.resyncEach cells v) observed other current input := by
  induction cells generalizing s seen with
  | nil => simpa [Store.resyncEach] using tracks
  | cons first rest ih =>
    have one := tracks.resync (fun c (member : c ∈ [first]) => shown c (by simp_all))
      (tracks.single_harmless first)
    have all := ih one fun c member => shown c (List.mem_cons_of_mem first member)
    have cover : seen ∪ {c | c ∈ first :: rest} = seen ∪ {c | c ∈ [first]} ∪ {c | c ∈ rest} := by
      ext c
      simp only [Set.mem_union, Set.mem_ofPred_eq, List.mem_cons, List.not_mem_nil, or_false, or_assoc]
    rw [cover]
    exact all

omit [DecidableEq C] [DecidableEq V] in
/-- Both runs take one step that writes the same cells. -/
theorem execute {s' : Store C V E} {observed' other' : C → V} {writes : Set C}
    (tracks : Tracks denote blank seen s observed other current input)
    (frame : ∀ c ∉ writes, s'.conc c = s.conc c ∧ s'.sym c = s.sym c)
    (observedFrame : ∀ c ∉ writes, observed' c = observed c)
    (otherFrame : ∀ c ∉ writes, other' c = other c)
    (written : ∀ c ∈ writes, s'.value denote current c = observed' c ∧ s'.value denote input c = other' c)
    (consistent : s'.Consistent denote current) :
    Tracks denote blank (seen ∪ writes) s' observed' other' current input := by
  have value : ∀ input c, c ∉ writes → s'.value denote input c = s.value denote input c := by
    intro input c outside
    simp only [Store.value, (frame c outside).1, (frame c outside).2]
  refine ⟨?_, ?_, ?_, ?_, ?_, consistent⟩
  · intro c covered
    by_cases new : c ∈ writes
    · exact (written c new).1
    · rw [value current c new, observedFrame c new]
      exact tracks.replayed c (covered.resolve_right new)
  · intro c covered
    by_cases new : c ∈ writes
    · exact (written c new).2
    · rw [value input c new, otherFrame c new]
      exact tracks.predicted c (covered.resolve_right new)
  · intro c outside
    rw [(frame c fun new => outside (Or.inr new)).2]
    exact tracks.plain c fun old => outside (Or.inl old)
  · intro c outside
    rw [(frame c fun new => outside (Or.inr new)).1]
    exact tracks.untouched c fun old => outside (Or.inl old)
  · intro c outside
    rw [observedFrame c fun new => outside (Or.inr new), otherFrame c fun new => outside (Or.inr new)]
    exact tracks.same c fun old => outside (Or.inl old)

end Tracks
end Devirt.Concolic
