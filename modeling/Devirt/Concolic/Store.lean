import Mathlib.Data.Set.Basic
import Mathlib.Data.Option.Basic

/-! Concolic stores: every cell holds a concrete value and possibly a symbolic
expression over the inputs. A resynchronization compares a group of cells with
observed values and overwrites the whole group on any difference. -/
namespace Devirt.Concolic
variable {C V E I : Type}

structure Store (C V E : Type) where
  conc : C → V
  sym : C → Option E

namespace Store

/-- What a cell stands for on one input: its expression, or its concrete value. -/
def value (denote : E → I → V) (s : Store C V E) (input : I) (c : C) : V :=
  match s.sym c with
  | some e => denote e input
  | none => s.conc c

/-- On the current input every expression evaluates to the concrete value. -/
def Consistent (denote : E → I → V) (s : Store C V E) (current : I) : Prop :=
  ∀ c, s.value denote current c = s.conc c

variable {denote : E → I → V} {s : Store C V E} {input : I} {c : C}

theorem value_of_none (plain : s.sym c = none) : s.value denote input c = s.conc c := by
  simp only [value, plain]

theorem value_of_some {e : E} (held : s.sym c = some e) : s.value denote input c = denote e input := by
  simp only [value, held]

variable [DecidableEq C] [DecidableEq V]

/-- Store concrete values in a group of cells and drop its expressions. -/
def overwrite (s : Store C V E) (cells : List C) (v : C → V) : Store C V E where
  conc c := if c ∈ cells then v c else s.conc c
  sym c := if c ∈ cells then none else s.sym c

/-- Every cell of the group already holds the observed value. -/
def Matches (s : Store C V E) (cells : List C) (v : C → V) : Prop := ∀ c ∈ cells, s.conc c = v c

instance (s : Store C V E) (cells : List C) (v : C → V) : Decidable (s.Matches cells v) :=
  inferInstanceAs (Decidable (∀ c ∈ cells, s.conc c = v c))

def resync (s : Store C V E) (cells : List C) (v : C → V) : Store C V E :=
  if s.Matches cells v then s else s.overwrite cells v

variable {cells : List C} {v : C → V}

omit [DecidableEq C] [DecidableEq V] in
theorem matches_singleton : s.Matches [c] v ↔ s.conc c = v c := by
  simp only [Matches, List.forall_mem_singleton]

omit [DecidableEq V] in
theorem overwrite_frame (outside : c ∉ cells) :
    (s.overwrite cells v).conc c = s.conc c ∧ (s.overwrite cells v).sym c = s.sym c := by
  simp only [overwrite, if_neg outside, and_self]

/-- Either way the group ends up with the observed values. -/
theorem resync_conc (s : Store C V E) (cells : List C) (v : C → V) (c : C) :
    (s.resync cells v).conc c = if c ∈ cells then v c else s.conc c := by
  unfold resync
  split
  · rename_i equal
    split
    · exact equal c ‹_›
    · rfl
  · rfl

theorem resync_conc_mem (member : c ∈ cells) : (s.resync cells v).conc c = v c := by
  rw [resync_conc, if_pos member]

/-- The frame of a resynchronization. -/
theorem resync_frame (outside : c ∉ cells) :
    (s.resync cells v).conc c = s.conc c ∧ (s.resync cells v).sym c = s.sym c := by
  unfold resync
  split
  · exact ⟨rfl, rfl⟩
  · exact overwrite_frame outside

theorem resync_of_matches (equal : s.Matches cells v) : s.resync cells v = s := if_pos equal

theorem resync_sym_of_not_matches (different : ¬ s.Matches cells v) (member : c ∈ cells) :
    (s.resync cells v).sym c = none := by
  simp only [resync, if_neg different, overwrite, if_pos member]

/-- No expression is ever created by a resynchronization. -/
theorem resync_sym_cases (s : Store C V E) (cells : List C) (v : C → V) (c : C) :
    (s.resync cells v).sym c = s.sym c ∨ (s.resync cells v).sym c = none := by
  by_cases equal : s.Matches cells v
  · exact Or.inl (by rw [resync_of_matches equal])
  by_cases member : c ∈ cells
  · exact Or.inr (resync_sym_of_not_matches equal member)
  · exact Or.inl (resync_frame member).2

omit [DecidableEq V] in
theorem Consistent.overwrite (consistent : s.Consistent denote input) :
    (s.overwrite cells v).Consistent denote input := by
  intro c
  by_cases member : c ∈ cells
  · simp only [value, Store.overwrite, if_pos member]
  · have frame := overwrite_frame (s := s) (v := v) member
    have same := consistent c
    simp only [value, frame.1, frame.2] at same ⊢
    exact same

theorem Consistent.resync (consistent : s.Consistent denote input) :
    (s.resync cells v).Consistent denote input := by
  unfold Store.resync
  split
  · exact consistent
  · exact consistent.overwrite

omit [DecidableEq V] in
/-- Only the values on the group matter. -/
theorem overwrite_congr {w : C → V} (same : ∀ c ∈ cells, v c = w c) :
    s.overwrite cells v = s.overwrite cells w := by
  simp only [overwrite, mk.injEq, and_true]
  funext c
  split
  · exact same c ‹_›
  · rfl

/-! A record of independent cells is compared and overwritten one cell at a time. -/

def resyncEach (s : Store C V E) (cells : List C) (v : C → V) : Store C V E :=
  cells.foldl (fun s c => s.resync [c] v) s

theorem resyncEach_cons (s : Store C V E) (first : C) (rest : List C) (v : C → V) :
    s.resyncEach (first :: rest) v = (s.resync [first] v).resyncEach rest v := rfl

theorem resyncEach_conc (s : Store C V E) (cells : List C) (v : C → V) (c : C) :
    (s.resyncEach cells v).conc c = if c ∈ cells then v c else s.conc c := by
  induction cells generalizing s with
  | nil => rfl
  | cons first rest ih =>
    rw [resyncEach_cons, ih, resync_conc]
    by_cases same : c = first <;> simp [same]

theorem resyncEach_sym (s : Store C V E) (cells : List C) (v : C → V) (c : C) :
    (s.resyncEach cells v).sym c = if c ∈ cells ∧ s.conc c ≠ v c then none else s.sym c := by
  induction cells generalizing s with
  | nil => simp [resyncEach]
  | cons first rest ih =>
    rw [resyncEach_cons, ih]
    by_cases same : c = first
    · subst c
      simp only [resync_conc_mem (List.mem_singleton_self first), ne_eq, not_true_eq_false, and_false,
        if_false, List.mem_cons, true_or, true_and]
      by_cases equal : s.conc first = v first
      · rw [if_neg (not_not_intro equal), resync_of_matches (matches_singleton.mpr equal)]
      · rw [if_pos equal]
        exact resync_sym_of_not_matches (mt matches_singleton.mp equal) (List.mem_singleton_self first)
    · have frame := resync_frame (s := s) (v := v) (show c ∉ [first] by simpa using same)
      simp only [frame.1, frame.2, List.mem_cons, same, false_or]

theorem Consistent.resyncEach (consistent : s.Consistent denote input) :
    (s.resyncEach cells v).Consistent denote input := by
  induction cells generalizing s with
  | nil => exact consistent
  | cons first rest ih => exact ih consistent.resync

/-! Cells that are compared and overwritten as one form a unit. -/

/-- A unit that held the observed values is left alone, of any other every expression is
lost, and nothing changes outside the units. -/
structure Resynced (units : List (List C)) (v : C → V) (s s' : Store C V E) : Prop where
  observed : ∀ unit ∈ units, ∀ c ∈ unit, s'.conc c = v c
  frame : ∀ c ∉ units.flatten, s'.conc c = s.conc c ∧ s'.sym c = s.sym c
  kept : ∀ unit ∈ units, s.Matches unit v → ∀ c ∈ unit, s'.sym c = s.sym c
  lost : ∀ unit ∈ units, ¬ s.Matches unit v → ∀ c ∈ unit, s'.sym c = none

theorem resynced_resync (s : Store C V E) (cells : List C) (v : C → V) :
    Resynced [cells] v s (s.resync cells v) where
  observed := by
    rw [List.forall_mem_singleton]
    exact fun c member => resync_conc_mem member
  frame c outside := resync_frame (by simpa using outside)
  kept := by
    rw [List.forall_mem_singleton]
    exact fun equal c _ => by rw [resync_of_matches equal]
  lost := by
    rw [List.forall_mem_singleton]
    exact fun different c member => resync_sym_of_not_matches different member

theorem resynced_resyncEach (s : Store C V E) (cells : List C) (v : C → V) :
    Resynced (cells.map fun c => [c]) v s (s.resyncEach cells v) where
  observed := by
    simp only [List.forall_mem_map, List.forall_mem_singleton]
    intro c member
    rw [resyncEach_conc, if_pos member]
  frame c outside := by
    have unlisted : c ∉ cells := by simpa using outside
    rw [resyncEach_conc, resyncEach_sym, if_neg unlisted, if_neg fun both => unlisted both.1]
    exact ⟨rfl, rfl⟩
  kept := by
    simp only [List.forall_mem_map, List.forall_mem_singleton]
    intro c _ equal
    rw [resyncEach_sym, if_neg fun both => both.2 (matches_singleton.mp equal)]
  lost := by
    simp only [List.forall_mem_map, List.forall_mem_singleton]
    intro c member different
    rw [resyncEach_sym, if_pos ⟨member, mt matches_singleton.mpr different⟩]

end Store
end Devirt.Concolic
