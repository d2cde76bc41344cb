import Mathlib.Data.BitVec
import Mathlib.Tactic.Positivity

/-! The integer instructions of LLVM that lifted expressions are made of, and how
flag words computed with them read back as comparisons. -/
namespace Devirt.Llvm
variable {w n : Nat}

def trunc (v : Nat) (x : BitVec w) : BitVec v := x.setWidth v
def zext (v : Nat) (x : BitVec w) : BitVec v := x.setWidth v
def lshr (x : BitVec w) (count : Nat) : BitVec w := x >>> count
def shl (x : BitVec w) (count : Nat) : BitVec w := x <<< count
def icmpEq (x y : BitVec w) : BitVec 1 := BitVec.ofBool (x == y)
def icmpSlt (x y : BitVec w) : BitVec 1 := BitVec.ofBool (x.slt y)
def select (c : BitVec 1) (x y : BitVec w) : BitVec w := if c = 1 then x else y

/-! With the flags `nuw` and `nsw` an instruction has no value, but poison, where its result
does not fit as an unsigned, or as a signed number. -/

def shlNuwNsw (x : BitVec w) (count : Nat) : Option (BitVec w) :=
  if (x <<< count) >>> count = x ∧ (x <<< count).sshiftRight count = x then some (x <<< count) else none

def addNuwNsw (x y : BitVec w) : Option (BitVec w) :=
  if x.uaddOverflow y || x.saddOverflow y then none else some (x + y)

def subNsw (x y : BitVec w) : Option (BitVec w) :=
  if x.ssubOverflow y then none else some (x - y)

theorem xor_neg_one (x : BitVec w) : x ^^^ -1 = ~~~x := by
  rw [← BitVec.xor_allOnes, ← BitVec.neg_one_eq_allOnes]
  rfl

theorem select_ofBool (b : Bool) (x y : BitVec w) :
    select (BitVec.ofBool b) x y = if b = true then x else y := by
  cases b <;> rfl

theorem select_self (c : BitVec 1) : select c 1 0 = c := by
  revert c
  decide

theorem icmpEq_true (b : Bool) : icmpEq (BitVec.ofBool b) 1 = BitVec.ofBool b := by
  cases b <;> rfl

/-- The top bit on its own. -/
theorem trunc_lshr_top (x : BitVec (n + 1)) : trunc 1 (lshr x n) = BitVec.ofBool x.msb := by
  rw [BitVec.msb_eq_getLsbD_last]
  apply BitVec.eq_of_getLsbD_eq
  intro i bound
  obtain rfl : i = 0 := by omega
  simp [trunc, lshr]

/-! The lowest bit of a sum, a mask or a word built by shifting. -/

theorem trunc_or (x y : BitVec w) (v : Nat) : trunc v (x ||| y) = trunc v x ||| trunc v y :=
  BitVec.setWidth_or

theorem trunc_add (x y : BitVec w) {v : Nat} (narrow : v ≤ w) :
    trunc v (x + y) = trunc v x + trunc v y :=
  BitVec.setWidth_add x y narrow

theorem trunc_self (x : BitVec w) : trunc w x = x := BitVec.setWidth_eq x

theorem trunc_zext (x : BitVec w) {v u : Nat} (narrow : v ≤ u) : trunc v (zext u x) = trunc v x :=
  BitVec.setWidth_setWidth_of_le x narrow

theorem trunc_shl_one (x : BitVec w) : trunc 1 (shl x 1) = 0 := by
  apply BitVec.eq_of_getLsbD_eq
  intro i bound
  obtain rfl : i = 0 := by omega
  simp [trunc, shl]

/-- A mask that spares the lowest bit. -/
theorem trunc_mask {m : BitVec w} (cleared : trunc 1 m = 0) (x : BitVec w) : trunc 1 (m &&& x) = 0 := by
  apply (BitVec.setWidth_and (x := m) (y := x)).trans
  rw [show m.setWidth 1 = 0#1 from cleared, BitVec.zero_and]
  rfl

/-- The complementary mask, as it comes out of NOR operations. -/
theorem trunc_nor_mask {m : BitVec w} (cleared : trunc 1 m = 0) (x : BitVec w) :
    trunc 1 (~~~(m ||| ~~~x)) = trunc 1 x := by
  cases w with
  | zero => rw [BitVec.of_length_zero (x := x), BitVec.of_length_zero (x := ~~~(m ||| ~~~0#0))]
  | succ w =>
    have low := congrArg (fun z => z.getLsbD 0) cleared
    apply BitVec.eq_of_getLsbD_eq
    intro i bound
    obtain rfl : i = 0 := by omega
    simp [trunc] at low ⊢
    simp [low]

/-! Carries. -/

/-- The carries out of all positions of a sum, from the operands and the sum. -/
def carries (a b sum : BitVec w) : BitVec w := (a &&& b) ^^^ ((a ^^^ b ^^^ sum) &&& (a ^^^ b))

theorem msb_carries (a b : BitVec (n + 1)) :
    (carries a b (a + b)).msb = decide (2 ^ (n + 1) ≤ a.toNat + b.toNat) := by
  have out : BitVec.carry (n + 1) a b false = decide (2 ^ (n + 1) ≤ a.toNat + b.toNat) := by
    simp [BitVec.carry]
  have top : ∀ z : BitVec (n + 1), z.getLsbD n = z.msb := fun z => (BitVec.msb_eq_getLsbD_last z).symm
  rw [← out, BitVec.carry_succ, top, top]
  simp only [carries, BitVec.msb_xor, BitVec.msb_and, BitVec.msb_add, Nat.add_sub_cancel]
  cases a.msb <;> cases b.msb <;> cases BitVec.carry n a b false <;> rfl

/-- Adding the complement of `x` carries exactly when `x` is the smaller number. -/
theorem complement_carries (x y : BitVec w) : 2 ^ w ≤ (~~~x).toNat + y.toNat ↔ x < y := by
  have bound := x.isLt
  rw [BitVec.toNat_not, BitVec.lt_def]
  omega

theorem msb_borrow (x y : BitVec (n + 1)) : (carries (~~~x) y (~~~x + y)).msb = decide (x < y) := by
  rw [msb_carries]
  exact decide_eq_decide.mpr (complement_carries x y)

/-! Single bits of a word that was rebuilt by shifting or joined under a mask. -/

theorem getLsbD_shl_one (x : BitVec w) {i : Nat} (inside : i + 1 < w) :
    (shl x 1).getLsbD (i + 1) = x.getLsbD i := by
  have moved : ¬ i + 1 < 1 := Nat.not_lt.mpr (Nat.le_add_left 1 i)
  rw [shl, BitVec.getLsbD_shiftLeft, decide_eq_true inside, decide_eq_false moved,
    Nat.add_sub_cancel, Bool.not_false, Bool.true_and, Bool.true_and]

theorem getLsbD_shl_zero (x : BitVec w) : (shl x 1).getLsbD 0 = false := by
  rw [shl, BitVec.getLsbD_shiftLeft, decide_eq_true Nat.zero_lt_one, Bool.not_true, Bool.and_false,
    Bool.false_and]

theorem getLsbD_zext (x : BitVec w) {v i : Nat} (inside : i < v) :
    (zext v x).getLsbD i = x.getLsbD i := by
  rw [zext, BitVec.getLsbD_setWidth, decide_eq_true inside, Bool.true_and]

theorem getLsbD_icmpEq (x y : BitVec w) : (icmpEq x y).getLsbD 0 = decide (x = y) := by
  rw [icmpEq, BitVec.getLsbD_ofBool]
  exact Bool.beq_eq_decide_eq x y

/-- Words cut out by complementary masks are joined by a sum, which cannot carry. -/
theorem getLsbD_join (m x y : BitVec w) (i : Nat) :
    (~~~(m ||| ~~~x) + (m &&& y)).getLsbD i = if m.getLsbD i then y.getLsbD i else x.getLsbD i := by
  have disjoint : ~~~(m ||| ~~~x) &&& (m &&& y) = 0#w := by
    apply BitVec.eq_of_getLsbD_eq
    intro j bound
    cases bit : m.getLsbD j <;> simp [bit]
  rw [BitVec.add_eq_or_of_and_eq_zero _ _ disjoint]
  by_cases bound : i < w
  · simp only [BitVec.getLsbD_or, BitVec.getLsbD_not, BitVec.getLsbD_and, bound]
    cases m.getLsbD i <;> simp
  · simp [BitVec.getLsbD_of_ge _ i (Nat.le_of_not_lt bound)]

/-- A test of one bit, the way flags are compared with their mask. -/
theorem icmpEq_bit (x : BitVec w) {i : Nat} (inside : i < w) :
    icmpEq (BitVec.twoPow w i) (BitVec.twoPow w i &&& x) = BitVec.ofBool (x.getLsbD i) := by
  have set : BitVec.twoPow w i ≠ 0#w := fun none => by
    have bit := congrArg (fun z => z.getLsbD i) none
    simp [inside] at bit
  rw [BitVec.twoPow_and, icmpEq]
  cases x.getLsbD i
  · exact congrArg BitVec.ofBool (beq_eq_false_iff_ne.mpr set)
  · exact congrArg BitVec.ofBool (beq_self_eq_true _)

/-- The bit that a subtraction borrows at a position depends on the bits below it. -/
theorem getLsbD_borrow (a b : BitVec w) {i : Nat} (inside : i < w) :
    ((a - b) ^^^ (a ^^^ b)).getLsbD i = decide (a.toNat % 2 ^ i < b.toNat % 2 ^ i) := by
  have complement : a - b = ~~~(~~~a + b) := by
    rw [← BitVec.not_sub_eq_not_add, BitVec.not_not]
  have low : (~~~a).toNat % 2 ^ i = 2 ^ i - 1 - a.toNat % 2 ^ i := by
    have cut := congrArg BitVec.toNat (BitVec.setWidth_not (x := a) (Nat.le_of_lt inside))
    simpa only [BitVec.toNat_setWidth, BitVec.toNat_not] using cut
  have carry : BitVec.carry i (~~~a) b false = decide (a.toNat % 2 ^ i < b.toNat % 2 ^ i) := by
    have below : a.toNat % 2 ^ i < 2 ^ i := Nat.mod_lt _ (Nat.two_pow_pos i)
    simp only [BitVec.carry, low, Bool.toNat_false, Nat.add_zero]
    apply decide_eq_decide.mpr
    omega
  rw [complement, BitVec.getLsbD_xor, BitVec.getLsbD_not, BitVec.getLsbD_add inside, carry,
    BitVec.getLsbD_not, BitVec.getLsbD_xor]
  simp only [inside, decide_true, Bool.true_and]
  cases a.getLsbD i <;> cases b.getLsbD i <;> simp

/-! Small numbers keep within the flags. -/

theorem toInt_of_small {x : BitVec (n + 1)} (small : x.toNat < 2 ^ n) : x.toInt = x.toNat := by
  apply BitVec.toInt_eq_toNat_of_lt
  rw [Nat.pow_succ]
  omega

theorem addNuwNsw_small {x y : BitVec (n + 1)} (small : x.toNat + y.toNat < 2 ^ n) :
    addNuwNsw x y = some (x + y) := by
  have unsigned : x.uaddOverflow y = false := by
    rw [BitVec.uaddOverflow, decide_eq_false_iff_not, Nat.pow_succ]
    omega
  have signed : x.saddOverflow y = false := by
    rw [BitVec.saddOverflow, toInt_of_small (by omega), toInt_of_small (by omega), Nat.add_sub_cancel,
      Bool.or_eq_false_iff, decide_eq_false_iff_not, decide_eq_false_iff_not]
    constructor
    · exact_mod_cast Nat.not_le.mpr small
    · have positive : (0 : Int) ≤ 2 ^ n := by positivity
      omega
  rw [addNuwNsw, unsigned, signed]
  rfl

theorem subNsw_small {x y : BitVec (n + 1)} (first : x.toNat < 2 ^ n) (second : y.toNat < 2 ^ n) :
    subNsw x y = some (x - y) := by
  have signed : x.ssubOverflow y = false := by
    have bound : ((2 ^ n : Nat) : Int) = 2 ^ n := by push_cast; rfl
    rw [BitVec.ssubOverflow, toInt_of_small first, toInt_of_small second, Nat.add_sub_cancel,
      Bool.or_eq_false_iff, decide_eq_false_iff_not, decide_eq_false_iff_not]
    omega
  rw [subNsw, signed]
  rfl

end Devirt.Llvm
