import Devirt.Reference.Programs

/-! The small engine with a solver, which tries one assignment after the other. No other
law of the engine speaks of models, so they all carry over. -/
namespace Devirt

/-- An engine with another solver. -/
def Triton.withSolver (T : Triton) (solve : T.Ctx → T.Ast → Option String) : Triton :=
  { T with getModel := solve }

theorem Triton.Lawful.withSolver {T : Triton} (lawful : T.Lawful) (solve : T.Ctx → T.Ast → Option String) :
    (T.withSolver solve).Lawful :=
  { lawful with }

theorem Triton.Sound.withSolver {T : Triton} {M : Machine} (sound : T.Sound M)
    (solve : T.Ctx → T.Ast → Option String) : (T.withSolver solve).Sound M :=
  { sound with }

namespace Reference

/-- All valuations of some variables with values of their sizes. -/
def assignments : List SymVar → List Valuation
  | [] => [fun _ => 0]
  | v :: vs => (assignments vs).flatMap fun input =>
      (List.range (2 ^ v.bitSize)).map fun n => Function.update input v.id n

theorem mem_assignments {vs : List SymVar} {input : Valuation} (sized : ∀ v ∈ vs, input v.id < 2 ^ v.bitSize)
    (others : ∀ id, (∀ v ∈ vs, v.id ≠ id) → input id = 0) : input ∈ assignments vs := by
  induction vs generalizing input with
  | nil =>
    rw [assignments, List.mem_singleton]
    funext id
    exact others id (by simp)
  | cons v vs ih =>
    by_cases again : ∃ w ∈ vs, w.id = v.id
    · rw [assignments, List.mem_flatMap]
      refine ⟨input, ih ?_ ?_, ?_⟩
      · exact fun w member => sized w (List.mem_cons_of_mem v member)
      · intro id absent
        obtain ⟨w, member, same⟩ := again
        apply others id
        simp only [List.forall_mem_cons]
        exact ⟨fun here => absent w member (same.trans here), absent⟩
      · rw [List.mem_map]
        exact ⟨input v.id, List.mem_range.mpr (sized v List.mem_cons_self), Function.update_eq_self v.id input⟩
    · simp only [not_exists, not_and] at again
      rw [assignments, List.mem_flatMap]
      refine ⟨Function.update input v.id 0, ih ?_ ?_, ?_⟩
      · intro w member
        rw [Function.update_of_ne (again w member)]
        exact sized w (List.mem_cons_of_mem v member)
      · intro id absent
        by_cases here : id = v.id
        · rw [here, Function.update_self]
        · rw [Function.update_of_ne here]
          apply others id
          simp only [List.forall_mem_cons]
          exact ⟨fun same => here same.symm, absent⟩
      · rw [List.mem_map]
        refine ⟨input v.id, List.mem_range.mpr (sized v List.mem_cons_self), ?_⟩
        rw [Function.update_idem, Function.update_eq_self]

theorem assignments_others {vs : List SymVar} {input : Valuation} (member : input ∈ assignments vs) {id : Nat}
    (absent : ∀ v ∈ vs, v.id ≠ id) : input id = 0 := by
  induction vs generalizing input with
  | nil =>
    rw [List.mem_singleton.mp member]
  | cons v vs ih =>
    rw [assignments, List.mem_flatMap] at member
    obtain ⟨before, earlier, member⟩ := member
    obtain ⟨n, _, rfl⟩ := List.mem_map.mp member
    rw [List.forall_mem_cons] at absent
    rw [Function.update_of_ne (Ne.symm absent.1)]
    exact ih earlier absent.2

/-- The first assignment that makes a constraint true. -/
def model (ctx : Context) (a : Expr) : Option Valuation :=
  (assignments ctx.inputs).find? fun input =>
    ctx.inputs.all (fun v => input v.id < 2 ^ v.bitSize) && a.eval input != 0

/-- The engine with a solver, which prints the value of every variable. -/
def solver : Triton := engine.withSolver fun ctx a =>
  (model ctx a).map fun input => toString (ctx.inputs.map fun v => (v.id, input v.id))

theorem solver_lawful : solver.Lawful := engine_lawful.withSolver _

theorem solver_sound {program : List Instruction}
    (decodes : ∀ inst ∈ program, (decode inst.opcode).isSome = true) : solver.Sound (machine program) :=
  (engine_sound decodes).withSolver _

theorem solver_solves : solver.Solves where
  distinct a n input := rfl
  getModel ctx a := by
    have found : (solver.getModel ctx a).isSome = (model ctx a).isSome := Option.isSome_map
    rw [found]
    simp only [model, List.find?_isSome, Bool.and_eq_true, List.all_eq_true, decide_eq_true_eq, bne_iff_ne]
    constructor
    · rintro ⟨input, member, sized, holds⟩
      exact ⟨input, ⟨sized, fun id absent => assignments_others member absent⟩, holds⟩
    · rintro ⟨input, assigns, holds⟩
      exact ⟨input, mem_assignments assigns.sized assigns.others, assigns.sized, holds⟩

/-- The only instruction that a marker looks at is the comparison. -/
theorem solver_classifies (program : List Instruction) : solver.Classifies (machine program) := by
  intro ctx inst s t _
  have type : (solver.processing ctx inst).2.type =
    if decode inst.opcode = some .cmp then .cmp .reg .reg else .other := rfl
  constructor
  · intro popfq
    rw [type] at popfq
    split at popfq <;> cases popfq
  · intro cmp
    rw [type] at cmp
    split at cmp
    · have writes : effects inst = arithmetic difference (fun a b => if a < b then 1 else 0)
          fun a b => (a ^^^ b) &&& (a ^^^ difference a b) := by
        rw [effects, ‹decode inst.opcode = some .cmp›]
      show (effectOn inst (.flag .af)).isSome = true
      rw [effectOn, writes]
      rfl
    · cases cmp

end Reference
end Devirt
