import Devirt.Attack.Decoding

/-! The synchronizing lines act on the store of the context as resynchronizations:
a register record cell by cell, a memory record on its whole range at once. -/
namespace Devirt
open Concolic

namespace Triton
variable {T : Triton} {ctx ctx' ctx'' : T.Ctx} {store store' : Store Cell Nat T.Ast}

theorem SameInputs.refl (ctx : T.Ctx) : T.SameInputs ctx ctx := ⟨rfl, rfl⟩

theorem SameInputs.trans (first : T.SameInputs ctx ctx') (second : T.SameInputs ctx' ctx'') :
    T.SameInputs ctx ctx'' :=
  ⟨second.1.trans first.1, second.2.trans first.2⟩

theorem Becomes.trans (first : T.Becomes ctx ctx' store) (second : T.Becomes ctx' ctx'' store') :
    T.Becomes ctx ctx'' store' :=
  ⟨second.1, first.2.trans second.2⟩

end Triton

namespace Tracer

theorem load_eq (mem : BitVec 64 → BitVec 8) (addr : BitVec 64) (size : Nat) :
    load mem addr size =
      Nat.ofDigits 256 ((Cell.range addr size).map (Callback.memread addr size mem).observed) := by
  rw [load, Cell.range, List.map_map]
  rfl

/-- Writing back a loaded integer restores every byte of the access. -/
theorem byteOf_load (mem : BitVec 64 → BitVec 8) (addr : BitVec 64) {size : Nat}
    (sized : AccessSize size) {c : Cell} (member : c ∈ Cell.range addr size) :
    Cell.byteOf addr (load mem addr size) c = (Callback.memread addr size mem).observed c := by
  obtain ⟨i, bound, rfl⟩ := Cell.mem_range.mp member
  have narrow : size ≤ 8 := by
    simp only [AccessSize, List.mem_cons, List.not_mem_nil, or_false] at sized
    omega
  have offset : (addr + BitVec.ofNat 64 i - addr).toNat = i := by
    have small : i < 2 ^ 64 := by omega
    rw [BitVec.add_comm, BitVec.add_sub_cancel, BitVec.toNat_ofNat, Nat.mod_eq_of_lt small]
  have bytes : ∀ byte ∈ (List.range size).map fun i => (mem (addr + BitVec.ofNat 64 i)).toNat,
      byte < 256 := by
    intro byte present
    obtain ⟨j, _, rfl⟩ := List.mem_map.mp present
    exact (mem _).isLt
  simp only [Cell.byteOf, offset, load, Callback.observed]
  rw [Nat.ofDigits_div_pow_eq_ofDigits_drop i (by decide) _ bytes,
    List.drop_eq_getElem_cons (by simpa using bound), Nat.ofDigits_cons, Nat.add_mul_mod_self_left]
  simp only [List.getElem_map, List.getElem_range]
  exact Nat.mod_eq_of_lt (mem _).isLt

end Tracer

namespace Attack
open Tracer
open Python (PyError)

variable {T : Triton} (lawful : T.Lawful)
include lawful

theorem syncOneValue_becomes (ctx : T.Ctx) (reg : Gpr) {value : Nat} {v : Cell → Nat}
    (small : value < 2 ^ 64) (shown : v (.gpr reg) = value) :
    ∃ ctx', syncOneValue ctx reg value = .ok ctx' ∧
      T.Becomes ctx ctx' ((T.view ctx).resync [.gpr reg] v) := by
  have current : T.getConcreteRegisterValue ctx (.full reg) = (T.view ctx).conc (.gpr reg) := by
    rw [lawful.getConcreteRegisterValue]
    exact Nat.mod_eq_of_lt (lawful.gpr_lt ctx reg)
  unfold syncOneValue
  rw [current]
  by_cases equal : (T.view ctx).conc (.gpr reg) = value
  · rw [if_neg (not_not_intro equal),
      Store.resync_of_matches (Store.matches_singleton.mpr (equal.trans shown.symm))]
    exact ⟨ctx, rfl, rfl, .refl ctx⟩
  · have different : ¬ (T.view ctx).Matches [.gpr reg] v := fun equal' =>
      equal ((Store.matches_singleton.mp equal').trans shown)
    rw [if_pos equal, Store.resync, if_neg different]
    obtain ⟨ctx', written, becomes⟩ := lawful.setConcreteRegisterValue ctx reg value small
    refine ⟨ctx', by rw [written]; rfl, ?_⟩
    rwa [Store.overwrite_congr (w := fun _ => value) (by simpa using shown)]

theorem syncValues_becomes (ctx : T.Ctx) (columns : List Gpr) {value : Gpr → Nat} {v : Cell → Nat}
    (small : ∀ reg, value reg < 2 ^ 64) (shown : ∀ reg, v (.gpr reg) = value reg) :
    ∃ ctx', syncValues ctx (columns.map fun reg => (reg, value reg)) = .ok ctx' ∧
      T.Becomes ctx ctx' ((T.view ctx).resyncEach (columns.map .gpr) v) := by
  induction columns generalizing ctx with
  | nil => exact ⟨ctx, rfl, rfl, .refl ctx⟩
  | cons reg rest ih =>
    obtain ⟨middle, first, becomes⟩ := syncOneValue_becomes lawful ctx reg (small reg) (shown reg)
    obtain ⟨ctx', later, done⟩ := ih middle
    refine ⟨ctx', ?_, ?_⟩
    · simp only [syncValues, List.map_cons, List.foldlM_cons, first] at later ⊢
      exact later
    · rw [List.map_cons, Store.resyncEach_cons, ← becomes.1]
      exact becomes.trans done

/-- Two accesses have the same little-endian value when all their bytes agree. -/
theorem matches_iff_value (ctx : T.Ctx) (addr : BitVec 64) (size : Nat) (mem : BitVec 64 → BitVec 8) :
    (T.view ctx).Matches (Cell.range addr size) (Callback.memread addr size mem).observed ↔
      Nat.ofDigits 256 ((Cell.range addr size).map (T.view ctx).conc) = load mem addr size := by
  rw [load_eq]
  constructor
  · intro equal
    rw [List.map_congr_left equal]
  · intro equal
    refine List.map_inj_left.mp (Nat.ofDigits_inj_of_len_eq (by decide) (by simp) ?_ ?_ equal)
    all_goals
      intro byte member
      obtain ⟨c, present, rfl⟩ := List.mem_map.mp member
      obtain ⟨i, _, rfl⟩ := Cell.mem_range.mp present
    · exact lawful.mem_lt ctx _
    · exact (mem _).isLt

theorem syncMemoryValue_becomes (ctx : T.Ctx) (addr : BitVec 64) {size : Nat}
    (mem : BitVec 64 → BitVec 8) (sized : AccessSize size) :
    ∃ ctx', syncMemoryValue ctx ⟨addr.toNat, size⟩ (load mem addr size) = .ok ctx' ∧
      T.Becomes ctx ctx' ((T.view ctx).resync (Cell.range addr size)
        (Callback.memread addr size mem).observed) := by
  simp only [syncMemoryValue, lawful.getConcreteMemoryValue ctx addr size sized, native,
    Except.mapError, bind, Except.bind]
  by_cases equal : Nat.ofDigits 256 ((Cell.range addr size).map (T.view ctx).conc) = load mem addr size
  · rw [if_neg (not_not_intro equal),
      Store.resync_of_matches ((matches_iff_value lawful ctx addr size mem).mpr equal)]
    exact ⟨ctx, rfl, rfl, .refl ctx⟩
  · rw [if_pos equal, Store.resync, if_neg (mt (matches_iff_value lawful ctx addr size mem).mp equal)]
    obtain ⟨ctx', written, becomes⟩ := lawful.setConcreteMemoryValue ctx addr size
      (load mem addr size) sized (load_lt mem addr size)
    refine ⟨ctx', by rw [written], ?_⟩
    rwa [Store.overwrite_congr fun c member => (byteOf_load mem addr sized member).symm]

end Attack
end Devirt
