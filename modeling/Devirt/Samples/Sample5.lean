import Devirt.Llvm

/-! The merged result that is shipped for the fifth sample, and the C function it was
recovered from. -/
namespace Devirt.Samples.Sample5
open Llvm

/-- `__triton` of `devirt/sample5.ll` -/
def triton (SymVar_0 SymVar_1 : BitVec 32) : BitVec 32 :=
  let v0 : BitVec 32 := SymVar_0 + 1
  let v1 : BitVec 32 := SymVar_1 + (-1)
  let v2 : BitVec 32 := SymVar_1 + SymVar_0
  let v3 : BitVec 32 := v2 ^^^ -1
  let v4 : BitVec 32 := v2 ^^^ -1
  let v5 : BitVec 32 := v4 &&& v3
  let v6 : BitVec 32 := v5 ^^^ 1001
  let v7 : BitVec 32 := v5 + 1001
  let v8 : BitVec 32 := v5 ^^^ 1001
  let v9 : BitVec 32 := v8 ^^^ v7
  let v10 : BitVec 32 := v9 &&& v6
  let v11 : BitVec 32 := v5 &&& 1001
  let v12 : BitVec 32 := v11 ^^^ v10
  let v13 : BitVec 32 := lshr v12 31
  let v14 : BitVec 1 := trunc 1 v13
  let v15 : BitVec 8 := trunc 8 v7
  let v16 : BitVec 8 := lshr v15 7
  let v17 : BitVec 1 := trunc 1 v16
  let v18 : BitVec 8 := trunc 8 v7
  let v19 : BitVec 8 := lshr v18 6
  let v20 : BitVec 1 := trunc 1 v19
  let v21 : BitVec 8 := trunc 8 v7
  let v22 : BitVec 8 := lshr v21 5
  let v23 : BitVec 1 := trunc 1 v22
  let v24 : BitVec 8 := trunc 8 v7
  let v25 : BitVec 8 := lshr v24 4
  let v26 : BitVec 1 := trunc 1 v25
  let v27 : BitVec 8 := trunc 8 v7
  let v28 : BitVec 8 := lshr v27 3
  let v29 : BitVec 1 := trunc 1 v28
  let v30 : BitVec 8 := trunc 8 v7
  let v31 : BitVec 8 := lshr v30 2
  let v32 : BitVec 1 := trunc 1 v31
  let v33 : BitVec 8 := trunc 8 v7
  let v34 : BitVec 8 := lshr v33 1
  let v35 : BitVec 1 := trunc 1 v34
  let v36 : BitVec 8 := trunc 8 v7
  let v37 : BitVec 1 := trunc 1 v36
  let v38 : BitVec 1 := 1 ^^^ v37
  let v39 : BitVec 1 := v38 ^^^ v35
  let v40 : BitVec 1 := v39 ^^^ v32
  let v41 : BitVec 1 := v40 ^^^ v29
  let v42 : BitVec 1 := v41 ^^^ v26
  let v43 : BitVec 1 := v42 ^^^ v23
  let v44 : BitVec 1 := v43 ^^^ v20
  let v45 : BitVec 1 := v44 ^^^ v17
  let v46 : BitVec 32 := v5 ^^^ 1001
  let v47 : BitVec 32 := v7 ^^^ v46
  let v48 : BitVec 32 := 16 &&& v47
  let v49 : BitVec 1 := icmpEq 16 v48
  let v50 : BitVec 1 := select v49 1 0
  let v51 : BitVec 1 := icmpEq v7 0
  let v52 : BitVec 1 := select v51 1 0
  let v53 : BitVec 64 := zext 64 v7
  let v54 : BitVec 64 := lshr v53 31
  let v55 : BitVec 1 := trunc 1 v54
  let v56 : BitVec 32 := v5 ^^^ v7
  let v57 : BitVec 32 := v5 ^^^ (-1002)
  let v58 : BitVec 32 := v57 &&& v56
  let v59 : BitVec 32 := lshr v58 31
  let v60 : BitVec 1 := trunc 1 v59
  let v61 : BitVec 22 := zext 22 v60
  let v62 : BitVec 22 := 0 ||| v61
  let v63 : BitVec 22 := shl v62 1
  let v64 : BitVec 22 := shl v63 1
  let v65 : BitVec 22 := v64 ||| 1
  let v66 : BitVec 22 := shl v65 1
  let v67 : BitVec 22 := shl v66 1
  let v68 : BitVec 22 := zext 22 v55
  let v69 : BitVec 22 := v67 ||| v68
  let v70 : BitVec 22 := shl v69 1
  let v71 : BitVec 22 := zext 22 v52
  let v72 : BitVec 22 := v70 ||| v71
  let v73 : BitVec 22 := shl v72 1
  let v74 : BitVec 22 := shl v73 1
  let v75 : BitVec 22 := zext 22 v50
  let v76 : BitVec 22 := v74 ||| v75
  let v77 : BitVec 22 := shl v76 1
  let v78 : BitVec 22 := shl v77 1
  let v79 : BitVec 22 := zext 22 v45
  let v80 : BitVec 22 := v78 ||| v79
  let v81 : BitVec 22 := shl v80 1
  let v82 : BitVec 22 := v81 ||| 1
  let v83 : BitVec 22 := shl v82 1
  let v84 : BitVec 22 := zext 22 v14
  let v85 : BitVec 22 := v83 ||| v84
  let v86 : BitVec 64 := zext 64 v85
  let v87 : BitVec 64 := v86 ^^^ -1
  let v88 : BitVec 64 := zext 64 v85
  let v89 : BitVec 64 := v88 ^^^ -1
  let v90 : BitVec 64 := v89 &&& v87
  let v91 : BitVec 64 := v90 ^^^ -1
  let v92 : BitVec 64 := 2069 &&& v91
  let v93 : BitVec 32 := v7 ^^^ -1
  let v94 : BitVec 32 := v7 ^^^ -1
  let v95 : BitVec 32 := v94 &&& v93
  let v96 : BitVec 8 := trunc 8 v95
  let v97 : BitVec 8 := lshr v96 7
  let v98 : BitVec 1 := trunc 1 v97
  let v99 : BitVec 8 := trunc 8 v95
  let v100 : BitVec 8 := lshr v99 6
  let v101 : BitVec 1 := trunc 1 v100
  let v102 : BitVec 8 := trunc 8 v95
  let v103 : BitVec 8 := lshr v102 5
  let v104 : BitVec 1 := trunc 1 v103
  let v105 : BitVec 8 := trunc 8 v95
  let v106 : BitVec 8 := lshr v105 4
  let v107 : BitVec 1 := trunc 1 v106
  let v108 : BitVec 8 := trunc 8 v95
  let v109 : BitVec 8 := lshr v108 3
  let v110 : BitVec 1 := trunc 1 v109
  let v111 : BitVec 8 := trunc 8 v95
  let v112 : BitVec 8 := lshr v111 2
  let v113 : BitVec 1 := trunc 1 v112
  let v114 : BitVec 8 := trunc 8 v95
  let v115 : BitVec 8 := lshr v114 1
  let v116 : BitVec 1 := trunc 1 v115
  let v117 : BitVec 8 := trunc 8 v95
  let v118 : BitVec 1 := trunc 1 v117
  let v119 : BitVec 1 := 1 ^^^ v118
  let v120 : BitVec 1 := v119 ^^^ v116
  let v121 : BitVec 1 := v120 ^^^ v113
  let v122 : BitVec 1 := v121 ^^^ v110
  let v123 : BitVec 1 := v122 ^^^ v107
  let v124 : BitVec 1 := v123 ^^^ v104
  let v125 : BitVec 1 := v124 ^^^ v101
  let v126 : BitVec 1 := v125 ^^^ v98
  let v127 : BitVec 1 := icmpEq v95 0
  let v128 : BitVec 1 := select v127 1 0
  let v129 : BitVec 64 := zext 64 v95
  let v130 : BitVec 64 := lshr v129 31
  let v131 : BitVec 1 := trunc 1 v130
  let v132 : BitVec 22 := zext 22 v131
  let v133 : BitVec 22 := 4 ||| v132
  let v134 : BitVec 22 := shl v133 1
  let v135 : BitVec 22 := zext 22 v128
  let v136 : BitVec 22 := v134 ||| v135
  let v137 : BitVec 22 := shl v136 1
  let v138 : BitVec 22 := shl v137 1
  let v139 : BitVec 22 := shl v138 1
  let v140 : BitVec 22 := shl v139 1
  let v141 : BitVec 22 := zext 22 v126
  let v142 : BitVec 22 := v140 ||| v141
  let v143 : BitVec 22 := shl v142 1
  let v144 : BitVec 22 := v143 ||| 1
  let v145 : BitVec 22 := shl v144 1
  let v146 : BitVec 64 := zext 64 v145
  let v147 : BitVec 64 := v146 ^^^ -1
  let v148 : BitVec 64 := 2069 ||| v147
  let v149 : BitVec 64 := v148 ^^^ -1
  let v150 : BitVec 64 := 2069 ||| v147
  let v151 : BitVec 64 := v150 ^^^ -1
  let v152 : BitVec 64 := v151 &&& v149
  let v153 : BitVec 64 := v152 + v92
  let v154 : BitVec 64 := v153 ^^^ -1
  let v155 : BitVec 64 := 64 &&& v154
  let v156 : BitVec 64 := lshr v155 3
  let v157 : BitVec 64 := v156 + 140737488347280
  let v158 : BitVec 8 := trunc 8 v157
  let v159 : BitVec 8 := 80 ^^^ v158
  let v160 : BitVec 8 := 80 - v158
  let v161 : BitVec 8 := v160 ^^^ v159
  let v162 : BitVec 8 := 16 &&& v161
  let v163 : BitVec 1 := icmpEq 16 v162
  let v164 : BitVec 1 := select v163 1 0
  let v165 : BitVec 1 := icmpEq v164 1
  let v166 : BitVec 32 := select v165 v1 v0
  v166

/-- `if (x + y == 1001) r = x + 1; else r = y - 1;` on `int` -/
def secret (x y : BitVec 32) : BitVec 32 := if x + y = 1001 then x + 1 else y - 1

/-- The stack slot that the virtual branch reads, eight bytes up where the zero flag is clear. -/
def slot (flags : BitVec 64) : BitVec 64 := lshr (64 &&& ~~~flags) 3 + 140737488347280

/-- Comparing the slot with its base borrows from the low nibble unless the flag is set. -/
theorem auxiliary_carry (flags : BitVec 64) :
    icmpEq 16 (16 &&& ((80 - trunc 8 (slot flags)) ^^^ (80 ^^^ trunc 8 (slot flags)))) =
      BitVec.ofBool (!flags.getLsbD 6) := by
  have nibble : (16 : BitVec 8) = BitVec.twoPow 8 4 := by decide
  have zero : (64 : BitVec 64) = BitVec.twoPow 64 6 := by decide
  rw [nibble, icmpEq_bit _ (by decide), getLsbD_borrow _ _ (by decide), slot, zero,
    BitVec.twoPow_and, BitVec.getLsbD_not]
  cases flags.getLsbD 6 <;> decide

/-- The subtraction as the virtual machine computes it. -/
theorem complement_eq_zero (s : BitVec 32) : ~~~(~~~s + 1001) = 0 ↔ s = 1001 := by
  rw [← BitVec.not_sub_eq_not_add, BitVec.not_not]
  exact sub_eq_zero

/-- The mask 2069 spares bit 6, and nothing is carried into it: it is the zero flag of
the second flags word, and the value of the second trace is chosen where it is clear. -/
theorem triton_eq_secret (x y : BitVec 32) : triton x y = secret x y := by
  have spared : (2069 : BitVec 64).getLsbD 6 = false := by decide
  have reserved : (1 : BitVec 22).getLsbD 5 = false := by decide
  unfold triton
  simp only [xor_neg_one, BitVec.and_self, BitVec.not_not]
  rw [← slot, auxiliary_carry, getLsbD_join, spared]
  simp only [Bool.false_eq_true, if_false, getLsbD_zext, getLsbD_shl_one, BitVec.getLsbD_or,
    Nat.reduceLT, Nat.reduceAdd]
  -- the parity flag is one bit wide and does not reach bit 4
  rw [getLsbD_shl_zero, reserved, BitVec.getLsbD_of_ge _ 4 (by decide), Bool.false_or,
    Bool.or_false, Bool.or_false, select_self, select_self, icmpEq_true, select_ofBool,
    getLsbD_icmpEq, BitVec.add_comm y x, secret]
  by_cases equal : x + y = 1001
  · rw [decide_eq_true ((complement_eq_zero _).mpr equal), if_pos equal]
    rfl
  · rw [decide_eq_false (mt (complement_eq_zero _).mp equal), if_neg equal]
    exact (sub_eq_add_neg y 1).symm

end Devirt.Samples.Sample5
