import Mathlib.Data.List.Basic

/-! Windows in a sequence of events: open from an opening event up to, and not
including, the next closing one. The definition by positions and the switch that is
flipped event by event are the same. -/
namespace Devirt.Window
variable {α : Type} (opens closes : α → Bool)

/-- The event at `i` lies in a window: some event opens it and none closes it since. -/
def Inside (events : List α) (i : Nat) : Prop :=
  ∃ j ≤ i, (∃ a, events[j]? = some a ∧ opens a = true) ∧
    ∀ k, j < k → k ≤ i → ∀ a, events[k]? = some a → closes a = false

/-- The switch after one more event. -/
def next (w : Bool) (a : α) : Bool := opens a || (w && !closes a)

/-- The switch after each event. -/
def switches (w : Bool) : List α → List Bool
  | [] => []
  | a :: rest => next opens closes w a :: switches (next opens closes w a) rest

def after (w : Bool) (events : List α) : Bool := events.foldl (next opens closes) w

variable {opens closes}

@[simp] theorem switches_length (w : Bool) (events : List α) :
    (switches opens closes w events).length = events.length := by
  induction events generalizing w with
  | nil => rfl
  | cons a rest ih => simp only [switches, List.length_cons, ih]

theorem switches_append (w : Bool) (first second : List α) :
    switches opens closes w (first ++ second) =
      switches opens closes w first ++ switches opens closes (after opens closes w first) second := by
  induction first generalizing w with
  | nil => rfl
  | cons a rest ih => simp only [List.cons_append, switches, ih, after, List.foldl_cons]

theorem after_append (w : Bool) (first second : List α) :
    after opens closes w (first ++ second) = after opens closes (after opens closes w first) second :=
  List.foldl_append

theorem inside_zero (a : α) (rest : List α) : Inside opens closes (a :: rest) 0 ↔ opens a = true := by
  constructor
  · rintro ⟨j, bound, ⟨b, here, opened⟩, _⟩
    obtain rfl : j = 0 := by omega
    cases here
    exact opened
  · intro opened
    exact ⟨0, Nat.le_refl 0, ⟨a, rfl, opened⟩, fun k after before => by omega⟩

theorem inside_succ (a : α) (rest : List α) (i : Nat) : Inside opens closes (a :: rest) (i + 1) ↔
    Inside opens closes rest i ∨
      opens a = true ∧ ∀ k ≤ i, ∀ b, rest[k]? = some b → closes b = false := by
  constructor
  · rintro ⟨j, bound, ⟨b, here, opened⟩, still⟩
    cases j with
    | zero =>
      cases here
      refine Or.inr ⟨opened, fun k before b there => ?_⟩
      exact still (k + 1) (by omega) (by omega) b (by simpa using there)
    | succ j =>
      refine Or.inl ⟨j, by omega, ⟨b, by simpa using here, opened⟩, fun k later before b there => ?_⟩
      exact still (k + 1) (by omega) (by omega) b (by simpa using there)
  · rintro (⟨j, bound, ⟨b, here, opened⟩, still⟩ | ⟨opened, still⟩)
    · refine ⟨j + 1, by omega, ⟨b, by simpa using here, opened⟩, fun k later before c there => ?_⟩
      obtain ⟨k, rfl⟩ : ∃ k', k = k' + 1 := ⟨k - 1, by omega⟩
      exact still k (by omega) (by omega) c (by simpa using there)
    · refine ⟨0, by omega, ⟨a, rfl, opened⟩, fun k later before c there => ?_⟩
      obtain ⟨k, rfl⟩ : ∃ k', k = k' + 1 := ⟨k - 1, by omega⟩
      exact still k (by omega) c (by simpa using there)

/-- A switch that started in `w` is on inside a window, and as long as nothing closes
the one that was open at the start. -/
theorem switches_iff (w : Bool) (events : List α) {i : Nat} (bound : i < events.length) :
    (switches opens closes w events)[i]? = some true ↔ Inside opens closes events i ∨
      w = true ∧ ∀ k ≤ i, ∀ a, events[k]? = some a → closes a = false := by
  induction events generalizing w i with
  | nil => simp at bound
  | cons a rest ih =>
    cases i with
    | zero =>
      rw [inside_zero]
      simp [switches, next]
    | succ i =>
      have split : (∀ k ≤ i + 1, ∀ b, (a :: rest)[k]? = some b → closes b = false) ↔
          closes a = false ∧ ∀ k ≤ i, ∀ b, rest[k]? = some b → closes b = false := by
        constructor
        · intro all
          exact ⟨all 0 (by omega) a rfl, fun k before b there =>
            all (k + 1) (by omega) b (by simpa using there)⟩
        · rintro ⟨first, later⟩ k before b there
          cases k with
          | zero =>
            cases there
            exact first
          | succ k => exact later k (by omega) b (by simpa using there)
      rw [switches, List.getElem?_cons_succ, ih _ (by simpa using bound), inside_succ, split]
      simp only [next, Bool.or_eq_true, Bool.and_eq_true, Bool.not_eq_true']
      tauto

/-- From a closed switch. -/
theorem switches_iff_inside (events : List α) {i : Nat} (bound : i < events.length) :
    (switches opens closes false events)[i]? = some true ↔ Inside opens closes events i := by
  rw [switches_iff false events bound]
  simp

end Devirt.Window
