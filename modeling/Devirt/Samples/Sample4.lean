import Devirt.Llvm

/-! The merged result that is shipped for the fourth sample, and the C function it
was recovered from. -/
namespace Devirt.Samples.Sample4
open Llvm

/-- `__triton` of `devirt/sample4.ll` -/
def triton (SymVar_0 SymVar_1 : BitVec 32) : BitVec 32 :=
  let v0 : BitVec 32 := SymVar_0 ^^^ SymVar_1
  let v1 : BitVec 32 := v0 ^^^ -1
  let v2 : BitVec 32 := SymVar_0 ^^^ -1
  let v3 : BitVec 32 := v2 + SymVar_1
  let v4 : BitVec 32 := v1 ^^^ v3
  let v5 : BitVec 32 := v4 &&& v1
  let v6 : BitVec 32 := v2 &&& SymVar_1
  let v7 : BitVec 32 := v6 ^^^ v5
  let v8 : BitVec 32 := lshr v7 31
  let v9 : BitVec 1 := trunc 1 v8
  let v10 : BitVec 8 := trunc 8 v3
  let v11 : BitVec 8 := lshr v10 7
  let v12 : BitVec 1 := trunc 1 v11
  let v13 : BitVec 8 := trunc 8 v3
  let v14 : BitVec 8 := lshr v13 6
  let v15 : BitVec 1 := trunc 1 v14
  let v16 : BitVec 8 := trunc 8 v3
  let v17 : BitVec 8 := lshr v16 5
  let v18 : BitVec 1 := trunc 1 v17
  let v19 : BitVec 8 := trunc 8 v3
  let v20 : BitVec 8 := lshr v19 4
  let v21 : BitVec 1 := trunc 1 v20
  let v22 : BitVec 8 := trunc 8 v3
  let v23 : BitVec 8 := lshr v22 3
  let v24 : BitVec 1 := trunc 1 v23
  let v25 : BitVec 8 := trunc 8 v3
  let v26 : BitVec 8 := lshr v25 2
  let v27 : BitVec 1 := trunc 1 v26
  let v28 : BitVec 8 := trunc 8 v3
  let v29 : BitVec 8 := lshr v28 1
  let v30 : BitVec 1 := trunc 1 v29
  let v31 : BitVec 8 := trunc 8 v3
  let v32 : BitVec 1 := trunc 1 v31
  let v33 : BitVec 1 := 1 ^^^ v32
  let v34 : BitVec 1 := v33 ^^^ v30
  let v35 : BitVec 1 := v34 ^^^ v27
  let v36 : BitVec 1 := v35 ^^^ v24
  let v37 : BitVec 1 := v36 ^^^ v21
  let v38 : BitVec 1 := v37 ^^^ v18
  let v39 : BitVec 1 := v38 ^^^ v15
  let v40 : BitVec 1 := v39 ^^^ v12
  let v41 : BitVec 32 := v3 ^^^ v1
  let v42 : BitVec 32 := 16 &&& v41
  let v43 : BitVec 1 := icmpEq 16 v42
  let v44 : BitVec 1 := select v43 1 0
  let v45 : BitVec 1 := icmpEq v3 0
  let v46 : BitVec 1 := select v45 1 0
  let v47 : BitVec 64 := zext 64 v3
  let v48 : BitVec 64 := lshr v47 31
  let v49 : BitVec 1 := trunc 1 v48
  let v50 : BitVec 32 := v2 ^^^ v3
  let v51 : BitVec 32 := SymVar_0 ^^^ SymVar_1
  let v52 : BitVec 32 := v51 &&& v50
  let v53 : BitVec 32 := lshr v52 31
  let v54 : BitVec 1 := trunc 1 v53
  let v55 : BitVec 22 := zext 22 v54
  let v56 : BitVec 22 := 0 ||| v55
  let v57 : BitVec 22 := shl v56 1
  let v58 : BitVec 22 := shl v57 1
  let v59 : BitVec 22 := v58 ||| 1
  let v60 : BitVec 22 := shl v59 1
  let v61 : BitVec 22 := shl v60 1
  let v62 : BitVec 22 := zext 22 v49
  let v63 : BitVec 22 := v61 ||| v62
  let v64 : BitVec 22 := shl v63 1
  let v65 : BitVec 22 := zext 22 v46
  let v66 : BitVec 22 := v64 ||| v65
  let v67 : BitVec 22 := shl v66 1
  let v68 : BitVec 22 := shl v67 1
  let v69 : BitVec 22 := zext 22 v44
  let v70 : BitVec 22 := v68 ||| v69
  let v71 : BitVec 22 := shl v70 1
  let v72 : BitVec 22 := shl v71 1
  let v73 : BitVec 22 := zext 22 v40
  let v74 : BitVec 22 := v72 ||| v73
  let v75 : BitVec 22 := shl v74 1
  let v76 : BitVec 22 := v75 ||| 1
  let v77 : BitVec 22 := shl v76 1
  let v78 : BitVec 22 := zext 22 v9
  let v79 : BitVec 22 := v77 ||| v78
  let v80 : BitVec 64 := zext 64 v79
  let v81 : BitVec 64 := v80 ^^^ -1
  let v82 : BitVec 64 := -2070 ||| v81
  let v83 : BitVec 64 := v82 ^^^ -1
  let v84 : BitVec 64 := -2070 ||| v81
  let v85 : BitVec 64 := v84 ^^^ -1
  let v86 : BitVec 64 := v85 ||| v83
  let v87 : BitVec 32 := SymVar_0 - SymVar_1
  let v88 : BitVec 8 := trunc 8 v87
  let v89 : BitVec 8 := lshr v88 7
  let v90 : BitVec 1 := trunc 1 v89
  let v91 : BitVec 8 := trunc 8 v87
  let v92 : BitVec 8 := lshr v91 6
  let v93 : BitVec 1 := trunc 1 v92
  let v94 : BitVec 8 := trunc 8 v87
  let v95 : BitVec 8 := lshr v94 5
  let v96 : BitVec 1 := trunc 1 v95
  let v97 : BitVec 8 := trunc 8 v87
  let v98 : BitVec 8 := lshr v97 4
  let v99 : BitVec 1 := trunc 1 v98
  let v100 : BitVec 8 := trunc 8 v87
  let v101 : BitVec 8 := lshr v100 3
  let v102 : BitVec 1 := trunc 1 v101
  let v103 : BitVec 8 := trunc 8 v87
  let v104 : BitVec 8 := lshr v103 2
  let v105 : BitVec 1 := trunc 1 v104
  let v106 : BitVec 8 := trunc 8 v87
  let v107 : BitVec 8 := lshr v106 1
  let v108 : BitVec 1 := trunc 1 v107
  let v109 : BitVec 8 := trunc 8 v87
  let v110 : BitVec 1 := trunc 1 v109
  let v111 : BitVec 1 := 1 ^^^ v110
  let v112 : BitVec 1 := v111 ^^^ v108
  let v113 : BitVec 1 := v112 ^^^ v105
  let v114 : BitVec 1 := v113 ^^^ v102
  let v115 : BitVec 1 := v114 ^^^ v99
  let v116 : BitVec 1 := v115 ^^^ v96
  let v117 : BitVec 1 := v116 ^^^ v93
  let v118 : BitVec 1 := v117 ^^^ v90
  let v119 : BitVec 1 := icmpEq v87 0
  let v120 : BitVec 1 := select v119 1 0
  let v121 : BitVec 32 := SymVar_0 - SymVar_1
  let v122 : BitVec 64 := zext 64 v121
  let v123 : BitVec 64 := lshr v122 31
  let v124 : BitVec 1 := trunc 1 v123
  let v125 : BitVec 22 := zext 22 v124
  let v126 : BitVec 22 := 4 ||| v125
  let v127 : BitVec 22 := shl v126 1
  let v128 : BitVec 22 := zext 22 v120
  let v129 : BitVec 22 := v127 ||| v128
  let v130 : BitVec 22 := shl v129 1
  let v131 : BitVec 22 := shl v130 1
  let v132 : BitVec 22 := shl v131 1
  let v133 : BitVec 22 := shl v132 1
  let v134 : BitVec 22 := zext 22 v118
  let v135 : BitVec 22 := v133 ||| v134
  let v136 : BitVec 22 := shl v135 1
  let v137 : BitVec 22 := v136 ||| 1
  let v138 : BitVec 22 := shl v137 1
  let v139 : BitVec 64 := zext 64 v138
  let v140 : BitVec 64 := v139 ^^^ -1
  let v141 : BitVec 64 := v140 ^^^ -1
  let v142 : BitVec 64 := -2070 &&& v141
  let v143 : BitVec 64 := v142 + v86
  let v144 : BitVec 1 := trunc 1 v143
  let v145 : BitVec 1 := icmpEq v144 1
  let v146 : BitVec 32 := select v145 SymVar_1 SymVar_0
  v146

/-- `if (x >= y) r = x; else r = y;` on `int` -/
def secret (x y : BitVec 32) : BitVec 32 := if y.sle x then x else y

/-- The first flags word keeps its carry flag through both masks, the second one
loses it: the condition is the borrow of `x - y`. The result is the larger number
without sign. -/
theorem triton_eq (x y : BitVec 32) : triton x y = if x < y then y else x := by
  have borrow : carries (~~~x) y (~~~x + y) =
      (~~~x &&& y) ^^^ ((~~~(x ^^^ y) ^^^ (~~~x + y)) &&& ~~~(x ^^^ y)) := by
    rw [carries, ← BitVec.not_xor_left]
  have cleared : trunc 1 (-2070 : BitVec 64) = 0 := by decide
  unfold triton
  simp only [xor_neg_one, ← borrow, trunc_add, Nat.reduceLeDiff, trunc_mask cleared, trunc_or,
    trunc_nor_mask cleared, trunc_zext, trunc_shl_one, trunc_self, trunc_lshr_top, msb_borrow]
  rw [show ∀ c : BitVec 1, 0 + (0 ||| c ||| (0 ||| c)) = c by decide, icmpEq_true, select_ofBool]
  simp only [decide_eq_true_eq]

/-- `__triton` of `devirt/sample4.O3.ll` -/
def optimized (SymVar_0 SymVar_1 : BitVec 32) : BitVec 32 :=
  let v0 : BitVec 32 := SymVar_0 ^^^ SymVar_1
  let v1 : BitVec 32 := v0 ^^^ -1
  let v2 : BitVec 32 := SymVar_0 ^^^ -1
  let v3 : BitVec 32 := SymVar_0 - SymVar_1
  let v4 : BitVec 32 := v3 &&& v1
  let v5 : BitVec 32 := v2 &&& SymVar_1
  let v6 : BitVec 32 := v4 ^^^ v5
  let v7 : BitVec 1 := icmpSlt v6 0
  let v8 : BitVec 32 := select v7 SymVar_1 SymVar_0
  v8

/-- The optimizer finds the borrow of the subtraction in the two flags words and drops all
the rest, without a change on any input. -/
theorem optimized_eq_triton (x y : BitVec 32) : optimized x y = triton x y := by
  have complement : ~~~x + y = ~~~(x - y) := BitVec.not_sub_eq_not_add.symm
  have borrow : (x - y) &&& ~~~(x ^^^ y) ^^^ (~~~x &&& y) = carries (~~~x) y (~~~x + y) := by
    rw [carries, complement]
    apply BitVec.eq_of_getLsbD_eq
    intro i bound
    simp only [BitVec.getLsbD_xor, BitVec.getLsbD_and, BitVec.getLsbD_not, bound, decide_true, Bool.true_and]
    cases x.getLsbD i <;> cases y.getLsbD i <;> cases (x - y).getLsbD i <;> rfl
  have negative : ∀ z : BitVec 32, icmpSlt z 0 = BitVec.ofBool z.msb := fun z =>
    congrArg BitVec.ofBool BitVec.slt_zero_eq_msb
  rw [triton_eq]
  simp only [optimized, xor_neg_one, borrow, negative, msb_borrow, select_ofBool, decide_eq_true_eq]

theorem secret_eq (x y : BitVec 32) : secret x y = if x.slt y then y else x := by
  rw [secret, BitVec.sle_eq_not_slt]
  cases x.slt y <;> rfl

/-- The shipped result is right on the inputs of equal sign and on no others. -/
theorem triton_eq_secret_iff (x y : BitVec 32) : triton x y = secret x y ↔ x.msb = y.msb := by
  rw [triton_eq, secret_eq]
  constructor
  · intro equal
    by_contra signs
    have distinct : x ≠ y := fun same => signs (congrArg BitVec.msb same)
    rw [BitVec.slt_eq_not_ult_of_msb_neq signs, BitVec.ult_eq_decide_lt] at equal
    by_cases below : x < y
    · simp only [below, if_true, decide_true, Bool.not_true, Bool.false_eq_true, if_false] at equal
      exact distinct equal.symm
    · simp only [below, if_false, decide_false, Bool.not_false, if_true] at equal
      exact distinct equal
  · intro signs
    rw [BitVec.slt_eq_ult_of_msb_eq signs, BitVec.ult_eq_decide_lt]
    simp only [decide_eq_true_eq]

/-- Both recorded runs agree with the function, a pair of mixed signs does not. -/
theorem triton_fails : triton 1 2 = secret 1 2 ∧ triton 0 0 = secret 0 0 ∧
    triton 0 (-1) = -1 ∧ secret 0 (-1) = 0 ∧ ¬ ∀ x y, triton x y = secret x y := by
  have shipped : triton 0 (-1) = -1 := by decide
  have expected : secret 0 (-1) = 0 := by decide
  refine ⟨by decide, by decide, shipped, expected, fun agree => ?_⟩
  have same := agree 0 (-1)
  rw [shipped, expected] at same
  exact absurd same (by decide)

end Devirt.Samples.Sample4
