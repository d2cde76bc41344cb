import Devirt.Concolic.Store

/-! Two stores go through the same records, and one of them started out blank. The
marks say, from the other store alone, where the two may hold different things. -/
namespace Devirt.Concolic
variable {C V E : Type}

/-- `touched` cells were recorded or written in both stores. On a `tainted` one of
them only the values agree. -/
structure Marks (C : Type) where
  touched : Set C
  tainted : Set C

namespace Marks

def initial : Marks C := { touched := ∅, tainted := ∅ }

/-- Both stores are about to hold the same things in these cells. -/
def written (m : Marks C) (cells : Set C) : Marks C where
  touched := m.touched ∪ cells
  tainted := m.tainted \ cells

/-- What the blank store finds when it compares a record. -/
def BlankMatches (blank : V) (m : Marks C) (s : Store C V E) (cells : List C) (v : C → V) : Prop :=
  ∀ c ∈ cells, (c ∈ m.touched → s.conc c = v c) ∧ (c ∉ m.touched → blank = v c)

/-- A covered cell keeps an expression that the other store does not: where both
comparisons succeed, a left-over one or one that differed before; where only one of
them succeeds, whatever expression that store had. -/
def KeptByOne (blank : V) (m : Marks C) (s : Store C V E) (cells : List C) (v : C → V) (c : C) : Prop :=
  (s.Matches cells v ∧ BlankMatches blank m s cells v ∧
    (c ∈ m.touched ∧ c ∈ m.tainted ∨ c ∉ m.touched ∧ s.sym c ≠ none)) ∨
  (s.Matches cells v ∧ ¬ BlankMatches blank m s cells v ∧ s.sym c ≠ none) ∨
  (¬ s.Matches cells v ∧ BlankMatches blank m s cells v ∧
    c ∈ m.touched ∧ (c ∈ m.tainted ∨ s.sym c ≠ none))

/-- After a record that is compared as a whole. -/
def recorded (blank : V) (m : Marks C) (s : Store C V E) (cells : List C) (v : C → V) : Marks C where
  touched := m.touched ∪ {c | c ∈ cells}
  tainted := {c | c ∈ cells ∧ KeptByOne blank m s cells v c ∨ c ∉ cells ∧ c ∈ m.tainted}

/-- After a record that is compared cell by cell. -/
def recordedEach (m : Marks C) (s : Store C V E) (cells : List C) (v : C → V) : Marks C where
  touched := m.touched ∪ {c | c ∈ cells}
  tainted := {c |
    c ∈ cells ∧ s.conc c = v c ∧ (c ∈ m.touched ∧ c ∈ m.tainted ∨ c ∉ m.touched ∧ s.sym c ≠ none) ∨
    c ∉ cells ∧ c ∈ m.tainted}

/-- Nothing left over can be read here. -/
def Clean (blank : V) (m : Marks C) (s : Store C V E) (c : C) : Prop :=
  c ∉ m.tainted ∧ (c ∈ m.touched ∨ s.conc c = blank ∧ s.sym c = none)

/-- The cell was recorded or written, and both stores hold the same there. -/
def Owned (m : Marks C) (c : C) : Prop := c ∈ m.touched ∧ c ∉ m.tainted

variable {blank : V} {m : Marks C} {s : Store C V E} {cells : List C} {v : C → V} {c : C}

theorem Owned.clean (owned : m.Owned c) : m.Clean blank s c := ⟨owned.2, Or.inl owned.1⟩

theorem owned_written {writes : Set C} (member : c ∈ writes) : (m.written writes).Owned c :=
  ⟨Or.inr member, fun tainted => tainted.2 member⟩

theorem Owned.written {writes : Set C} (owned : m.Owned c) : (m.written writes).Owned c :=
  ⟨Or.inl owned.1, fun tainted => owned.2 tainted.1⟩

/-- A record of single cells takes nothing back. -/
theorem Owned.recordedEach (owned : m.Owned c) : (m.recordedEach s cells v).Owned c := by
  refine ⟨Or.inl owned.1, ?_⟩
  rintro (⟨_, _, ⟨_, tainted⟩ | ⟨untouched, _⟩⟩ | ⟨_, tainted⟩)
  · exact owned.2 tainted
  · exact untouched owned.1
  · exact owned.2 tainted

end Marks

/-- Equal values and the same expressions, up to `alike`, in some cells. -/
def AgreeOn (alike : E → E → Prop) (cells : Set C) (s b : Store C V E) : Prop :=
  ∀ c ∈ cells, b.conc c = s.conc c ∧ Option.Rel alike (s.sym c) (b.sym c)

structure Agrees (alike : E → E → Prop) (blank : V) (m : Marks C) (s b : Store C V E) : Prop where
  conc : ∀ c ∈ m.touched, b.conc c = s.conc c
  sym : ∀ c ∈ m.touched, c ∉ m.tainted → Option.Rel alike (s.sym c) (b.sym c)
  blank_conc : ∀ c ∉ m.touched, b.conc c = blank
  blank_sym : ∀ c ∉ m.touched, b.sym c = none

namespace Agrees
variable {alike : E → E → Prop} {blank : V} {m : Marks C} {s b s' b' : Store C V E} {cells : List C}
  {v : C → V} {c : C}

theorem initial (conc : ∀ c, b.conc c = blank) (sym : ∀ c, b.sym c = none) :
    Agrees alike blank .initial s b where
  conc c touched := absurd touched (Set.notMem_empty c)
  sym c touched := absurd touched (Set.notMem_empty c)
  blank_conc c _ := conc c
  blank_sym c _ := sym c

theorem clean (agrees : Agrees alike blank m s b) (clean : m.Clean blank s c) :
    b.conc c = s.conc c ∧ Option.Rel alike (s.sym c) (b.sym c) := by
  obtain ⟨untainted, either⟩ := clean
  by_cases touched : c ∈ m.touched
  · exact ⟨agrees.conc c touched, agrees.sym c touched untainted⟩
  · obtain ⟨conc, sym⟩ := either.resolve_left touched
    rw [agrees.blank_conc c touched, agrees.blank_sym c touched, conc, sym]
    exact ⟨rfl, .none⟩

/-- Both stores take a step that writes the same things. -/
theorem execute {writes : Set C} (agrees : Agrees alike blank m s b)
    (written : AgreeOn alike writes s' b')
    (frame : ∀ c ∉ writes, s'.conc c = s.conc c ∧ s'.sym c = s.sym c)
    (frame' : ∀ c ∉ writes, b'.conc c = b.conc c ∧ b'.sym c = b.sym c) :
    Agrees alike blank (m.written writes) s' b' := by
  constructor
  · intro c touched
    by_cases new : c ∈ writes
    · exact (written c new).1
    · rw [(frame c new).1, (frame' c new).1]
      exact agrees.conc c (touched.resolve_right new)
  · intro c touched untainted
    by_cases new : c ∈ writes
    · exact (written c new).2
    · rw [(frame c new).2, (frame' c new).2]
      exact agrees.sym c (touched.resolve_right new) fun old => untainted ⟨old, new⟩
  · intro c untouched
    rw [(frame' c fun new => untouched (Or.inr new)).1]
    exact agrees.blank_conc c fun old => untouched (Or.inl old)
  · intro c untouched
    rw [(frame' c fun new => untouched (Or.inr new)).2]
    exact agrees.blank_sym c fun old => untouched (Or.inl old)

theorem matches_iff (agrees : Agrees alike blank m s b) :
    b.Matches cells v ↔ m.BlankMatches blank s cells v := by
  constructor
  · intro equal c member
    refine ⟨fun touched => ?_, fun untouched => ?_⟩
    · rw [← agrees.conc c touched, equal c member]
    · rw [← agrees.blank_conc c untouched, equal c member]
  · intro equal c member
    by_cases touched : c ∈ m.touched
    · rw [agrees.conc c touched, (equal c member).1 touched]
    · rw [agrees.blank_conc c touched, (equal c member).2 touched]

variable [DecidableEq C] [DecidableEq V]

/-- The expressions of a covered cell, by the outcome of the two comparisons. -/
theorem resync_sym (agrees : Agrees alike blank m s b) (member : c ∈ cells)
    (shared : ¬ m.KeptByOne blank s cells v c) :
    Option.Rel alike ((s.resync cells v).sym c) ((b.resync cells v).sym c) := by
  simp only [Marks.KeptByOne, not_or, not_and, not_not] at shared
  obtain ⟨both, one, other⟩ := shared
  by_cases equal : s.Matches cells v
  · by_cases equal' : m.BlankMatches blank s cells v
    · -- Both keep what they have.
      rw [Store.resync_of_matches equal, Store.resync_of_matches (agrees.matches_iff.mpr equal')]
      obtain ⟨tainted, leftover⟩ := both equal equal'
      by_cases touched : c ∈ m.touched
      · exact agrees.sym c touched (tainted touched)
      · rw [leftover touched, agrees.blank_sym c touched]
        exact .none
    · rw [Store.resync_of_matches equal, one equal equal',
        Store.resync_sym_of_not_matches (fun same => equal' (agrees.matches_iff.mp same)) member]
      exact .none
  · rw [Store.resync_sym_of_not_matches equal member]
    by_cases equal' : m.BlankMatches blank s cells v
    · rw [Store.resync_of_matches (agrees.matches_iff.mpr equal')]
      by_cases touched : c ∈ m.touched
      · obtain ⟨untainted, none⟩ := other equal equal' touched
        have same := agrees.sym c touched untainted
        rw [none] at same
        exact same
      · rw [agrees.blank_sym c touched]
        exact .none
    · rw [Store.resync_sym_of_not_matches (fun same => equal' (agrees.matches_iff.mp same)) member]
      exact .none

theorem resync (agrees : Agrees alike blank m s b) :
    Agrees alike blank (m.recorded blank s cells v) (s.resync cells v) (b.resync cells v) := by
  constructor
  · intro c touched
    rw [Store.resync_conc, Store.resync_conc]
    split
    · rfl
    · exact agrees.conc c (touched.resolve_right ‹_›)
  · intro c touched untainted
    by_cases member : c ∈ cells
    · exact agrees.resync_sym member fun kept => untainted (Or.inl ⟨member, kept⟩)
    · rw [(Store.resync_frame member).2, (Store.resync_frame member).2]
      exact agrees.sym c (touched.resolve_right member) fun old => untainted (Or.inr ⟨member, old⟩)
  · intro c untouched
    rw [(Store.resync_frame fun member => untouched (Or.inr member)).1]
    exact agrees.blank_conc c fun old => untouched (Or.inl old)
  · intro c untouched
    rw [(Store.resync_frame fun member => untouched (Or.inr member)).2]
    exact agrees.blank_sym c fun old => untouched (Or.inl old)

theorem resyncEach (agrees : Agrees alike blank m s b) :
    Agrees alike blank (m.recordedEach s cells v) (s.resyncEach cells v) (b.resyncEach cells v) := by
  constructor
  · intro c touched
    rw [Store.resyncEach_conc, Store.resyncEach_conc]
    split
    · rfl
    · exact agrees.conc c (touched.resolve_right ‹_›)
  · intro c touched untainted
    rw [Store.resyncEach_sym, Store.resyncEach_sym]
    by_cases member : c ∈ cells
    · simp only [member, true_and, ne_eq]
      by_cases old : c ∈ m.touched
      · rw [agrees.conc c old]
        split
        · exact .none
        · rename_i equal
          refine agrees.sym c old fun tainted => untainted (Or.inl ⟨member, not_not.mp equal, ?_⟩)
          exact Or.inl ⟨old, tainted⟩
      · rw [agrees.blank_sym c old, ite_self]
        split
        · exact .none
        · rename_i equal
          have plain : s.sym c = none := by
            by_contra held
            exact untainted (Or.inl ⟨member, not_not.mp equal, Or.inr ⟨old, held⟩⟩)
          rw [plain]
          exact .none
    · simp only [member, false_and, if_false]
      exact agrees.sym c (touched.resolve_right member) fun old => untainted (Or.inr ⟨member, old⟩)
  · intro c untouched
    rw [Store.resyncEach_conc, if_neg fun member : c ∈ cells => untouched (Or.inr member)]
    exact agrees.blank_conc c fun old => untouched (Or.inl old)
  · intro c untouched
    rw [Store.resyncEach_sym, if_neg fun covered => untouched (Or.inr covered.1)]
    exact agrees.blank_sym c fun old => untouched (Or.inl old)

end Agrees
end Devirt.Concolic
