import Devirt.Llvm

/-! The result that is shipped for the third sample, in its lifted and in its optimized
form, and the mixed Boolean and arithmetic C function it was recovered from. -/
namespace Devirt.Samples.Sample3
open Llvm

/-- The variable `r` of `sample3.c`. A `char` is signed, and what is compiled from the
arithmetic on `int` wraps. -/
def r (x y : BitVec 8) : BitVec 32 :=
  let x := x.signExtend 32
  let y := y.signExtend 32
  let a := 229 * x + 247
  let b := 237 * a + 214 + ((38 * a + 85) &&& 254)
  let c := (b + ((-(2 * b) + 255) &&& 254)) * 3 + 77
  let d := ((86 * c + 36) &&& 70) * 75 + 231 * c + 118
  let e := ((58 * d + 175) &&& 244) + 99 * d + 46
  let f := e &&& 148
  let g := (f - (e &&& 255) + f) * 103 + 13
  (237 * (45 * g + (174 * g ||| 34) * 229 + 194 - 247) &&& 255) + y

/-- `return r;` -/
def secret (x y : BitVec 8) : BitVec 8 := trunc 8 (r x y)

/-- `__triton` of `devirt/sample3.ll` -/
def triton (SymVar_0 SymVar_1 : BitVec 8) : BitVec 32 :=
  let v0 : BitVec 8 := SymVar_0 ^^^ 92
  let v1 : BitVec 8 := SymVar_0 &&& 0
  let v2 : BitVec 32 := zext 32 v1
  let v3 : BitVec 32 := 0 ||| v2
  let v4 : BitVec 32 := shl v3 8
  let v5 : BitVec 32 := zext 32 v0
  let v6 : BitVec 32 := v4 ||| v5
  let v7 : BitVec 8 := SymVar_1 &&& 0
  let v8 : BitVec 32 := zext 32 v7
  let v9 : BitVec 32 := 0 ||| v8
  let v10 : BitVec 32 := shl v9 8
  let v11 : BitVec 32 := zext 32 SymVar_1
  let v12 : BitVec 32 := v10 ||| v11
  let v13 : BitVec 32 := zext 32 v7
  let v14 : BitVec 32 := 0 ||| v13
  let v15 : BitVec 32 := shl v14 8
  let v16 : BitVec 32 := zext 32 SymVar_1
  let v17 : BitVec 32 := v15 ||| v16
  let v18 : BitVec 32 := lshr v17 7
  let v19 : BitVec 32 := v18 ^^^ -1
  let v20 : BitVec 32 := 1 + v19
  let v21 : BitVec 32 := shl v20 8
  let v22 : BitVec 32 := v21 + v12
  let v23 : BitVec 32 := v22 + v6
  v23

/-- `__triton` of `devirt/sample3.O3.ll` -/
def optimized (SymVar_0 SymVar_1 : BitVec 8) : Option (BitVec 32) := do
  let v0 : BitVec 8 := SymVar_0 ^^^ 92
  let v1 : BitVec 32 := zext 32 v0
  let v2 : BitVec 32 := zext 32 SymVar_1
  let v3 : BitVec 32 ← shlNuwNsw v2 1
  let v4 : BitVec 32 := v3 &&& 256
  let v5 : BitVec 32 ← addNuwNsw v1 v2
  let v6 : BitVec 32 ← subNsw v5 v4
  return v6

/-- The whole chain of masks cancels out. -/
theorem r_eq (x y : BitVec 8) : r x y = zext 32 (x ^^^ 92) + y.signExtend 32 := by
  have mixed : ∀ x : BitVec 8, r x 0 = zext 32 (x ^^^ 92) := by decide +kernel
  have unmixed : r x y = r x 0 + y.signExtend 32 := by
    simp only [r]
    rw [show (0 : BitVec 8).signExtend 32 = 0 by decide, add_zero]
  rw [unmixed, mixed]

/-- The sign is put back over the low byte. -/
theorem sign_restored : ∀ y : BitVec 8,
    shl (1 + (lshr (zext 32 y) 7 ^^^ -1)) 8 + zext 32 y = y.signExtend 32 := by
  decide +kernel

theorem triton_eq (x y : BitVec 8) : triton x y = zext 32 (x ^^^ 92) + y.signExtend 32 := by
  have cleared : ∀ z : BitVec 8, shl (zext 32 (z &&& 0)) 8 = 0 := by
    intro z
    rw [show z &&& 0 = 0 from BitVec.and_zero]
    decide
  have kept : ∀ z : BitVec 32, 0 ||| z = z := fun z => BitVec.zero_or
  simp only [triton, kept, cleared, sign_restored]
  exact BitVec.add_comm _ _

theorem low_signExtend : ∀ y : BitVec 8, trunc 8 (y.signExtend 32) = y := by decide +kernel

theorem zext_lt (z : BitVec 8) : (zext 32 z).toNat < 256 := by
  have bound := z.isLt
  rw [zext, BitVec.toNat_setWidth, Nat.mod_eq_of_lt (by omega)]
  exact bound

/-- The optimizer takes twice the sign bit off instead. -/
theorem doubled : ∀ y : BitVec 8, shlNuwNsw (zext 32 y) 1 = some (shl (zext 32 y) 1) ∧
    (shl (zext 32 y) 1 &&& 256).toNat < 512 ∧ zext 32 y - (shl (zext 32 y) 1 &&& 256) = y.signExtend 32 := by
  decide +kernel

theorem optimized_eq (x y : BitVec 8) : optimized x y = some (zext 32 (x ^^^ 92) + y.signExtend 32) := by
  obtain ⟨shifted, small, signed⟩ := doubled y
  have first := zext_lt (x ^^^ 92)
  have second := zext_lt y
  have added : addNuwNsw (zext 32 (x ^^^ 92)) (zext 32 y) = some (zext 32 (x ^^^ 92) + zext 32 y) := by
    apply addNuwNsw_small (n := 31)
    omega
  have sum : (zext 32 (x ^^^ 92) + zext 32 y).toNat < 2 ^ 31 := by
    rw [BitVec.toNat_add]
    omega
  have subtracted := subNsw_small (n := 31) sum (lt_trans small (by decide))
  simp only [optimized, shifted, added, subtracted, Option.bind_eq_bind, Option.bind_some]
  rw [add_sub_assoc, signed]

/-- The protected function computes what its comment says, both forms of the shipped result
are its whole 32-bit value, and no flag of the optimized form is ever violated. -/
theorem recovers (x y : BitVec 8) : secret x y = (x ^^^ 92) + y ∧ triton x y = r x y ∧
    optimized x y = some (r x y) := by
  refine ⟨?_, ?_, ?_⟩
  · have narrow : (8 : Nat) ≤ 32 := by decide
    rw [secret, r_eq, trunc_add _ _ narrow, trunc_zext _ narrow, trunc_self]
    congr 1
    exact low_signExtend y
  · rw [triton_eq, r_eq]
  · rw [optimized_eq, r_eq]

end Devirt.Samples.Sample3
