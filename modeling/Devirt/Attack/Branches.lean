import Devirt.Attack.Executions
import Devirt.Reference.Programs

/-! Two traces merged into one expression: which recorded condition the merge
takes, when that is the right one, and when there is none. -/
namespace Devirt.Attack
open Tracer
open Python (PyError)

/-- The first of many numbered results comes from the first element that has one. -/
theorem head?_numbered {α β : Type} (f : α → List β) (list : List α) (n m : Nat) (b : β) :
    ((list.zipIdx n).flatMap fun entry => (f entry.1).map fun b => (b, entry.2)).head? = some (b, m) ↔
      ∃ k a, m = n + k ∧ list[k]? = some a ∧ (f a).head? = some b ∧
        ∀ j < k, ∀ a', list[j]? = some a' → f a' = [] := by
  induction list generalizing n with
  | nil => simp
  | cons a rest ih =>
    rw [List.zipIdx_cons, List.flatMap_cons]
    cases results : f a with
    | nil =>
      simp only [List.map_nil, List.nil_append]
      rw [ih]
      constructor
      · rintro ⟨k, a', rfl, here, head, before⟩
        refine ⟨k + 1, a', by omega, by simpa using here, head, fun j bound a'' there => ?_⟩
        cases j with
        | zero =>
          cases there
          exact results
        | succ j => exact before j (by omega) a'' (by simpa using there)
      · rintro ⟨k, a', rfl, here, head, before⟩
        cases k with
        | zero =>
          cases here
          rw [results] at head
          cases head
        | succ k =>
          exact ⟨k, a', by omega, by simpa using here, head, fun j bound a'' there =>
            before (j + 1) (by omega) a'' (by simpa using there)⟩
    | cons first more =>
      simp only [List.map_cons, List.cons_append, List.head?_cons, Option.some.injEq, Prod.mk.injEq]
      constructor
      · rintro ⟨rfl, rfl⟩
        exact ⟨0, a, rfl, rfl, by rw [results]; rfl, by simp⟩
      · rintro ⟨k, a', rfl, here, head, before⟩
        cases k with
        | zero =>
          cases here
          rw [results] at head
          cases head
          exact ⟨rfl, rfl⟩
        | succ k =>
          have empty := before 0 (by omega) a rfl
          rw [results] at empty
          cases empty

variable (T : Triton) in
/-- A request for two paths whose replays both reach the end of their logs. -/
structure TwoReplays (files : Files) (argv : Argv) where
  calls₁ : List Callback
  calls₂ : List Callback
  sized₁ : ∀ call ∈ calls₁, call.Sized
  sized₂ : ∀ call ∈ calls₂, call.Sized
  path : String
  first : openFile files (argv.trace1.getD "") = .ok (log calls₁)
  named : argv.second = some path
  second : openFile files path = .ok (log calls₂)
  l₁ : Loop T
  l₂ : Loop T
  run₁ : replay (argv.options 1) (Loop.start { ctx := setMode T.new, vJmp := [], stdout := [] }) calls₁ =
    .ok l₁
  run₂ : replay (argv.options 2) (Loop.start (l₁.finish.print "[+] A second trace has been provided"))
    calls₂ = .ok l₂

namespace TwoReplays
variable {T : Triton} {files : Files} {argv : Argv} (r : TwoReplays T files argv)

def ret₁ : T.Ast := T.getRegisterAst r.l₁.state.ctx .eax
def ret₂ : T.Ast := T.getRegisterAst r.l₂.state.ctx .eax

/-- The inputs of the first run. -/
def inputs₁ : Valuation := T.values r.l₁.state.ctx

/-- The instructions executed in the second replay. -/
def executions₂ : List (Execution T) :=
  executions (argv.options 2) (Loop.start (r.l₁.finish.print "[+] A second trace has been provided"))
    (r.calls₂.flatMap Callback.dispatches)

/-- Those at the branch address, in the order of their execution. -/
def visits : List (Execution T) := r.executions₂.filter fun e => argv.vbraddr = some (e.address : Int)

/-- The entries of `V_JMP`, each with the number of the visit that recorded it. -/
def entries : List (T.Ast × Nat) :=
  r.visits.zipIdx.flatMap fun visit => (visit.1.recorded (argv.options 2)).map fun c => (c, visit.2)

theorem recorded_elsewhere {o : Options} {e : Execution T}
    (elsewhere : o.vbraddr ≠ some (e.address : Int)) :
    e.recorded o = [] := by
  unfold Execution.recorded
  split
  · rw [if_neg]
    simp [Options.visits, elsewhere]
  · rfl

theorem flatMap_filter_of_nil {α β : Type} (f : α → List β) (p : α → Bool) (list : List α)
    (none : ∀ a ∈ list, p a = false → f a = []) : (list.filter p).flatMap f = list.flatMap f := by
  induction list with
  | nil => rfl
  | cons a rest ih =>
    have later := ih fun b member => none b (List.mem_cons_of_mem a member)
    cases holds : p a with
    | false =>
      rw [List.filter_cons_of_neg (by simp [holds]), later, List.flatMap_cons,
        none a List.mem_cons_self holds, List.nil_append]
    | true => rw [List.filter_cons_of_pos holds, List.flatMap_cons, List.flatMap_cons, later]

/-- `V_JMP` at the merge holds what the visits recorded. -/
theorem vJmp_eq : r.l₂.state.vJmp = r.visits.flatMap (Execution.recorded (argv.options 2)) := by
  have idle : r.l₁.state.vJmp = [] :=
    executions_idle (o := argv.options 1) rfl r.run₁
  have grown := executions_vJmp r.run₂
  rw [grown, visits, flatMap_filter_of_nil]
  · rw [executions₂]
    simp only [Loop.start, Loop.fresh, Loop.finish, State.print, idle, List.nil_append]
  · intro e _ elsewhere
    exact recorded_elsewhere (by simpa [Argv.options] using elsewhere)

theorem entries_vJmp : r.entries.map Prod.fst = r.l₂.state.vJmp := by
  rw [r.vJmp_eq, entries, List.map_flatMap]
  have same : ∀ (visits : List (Execution T)) (n : Nat),
      ((visits.zipIdx n).flatMap fun visit =>
        ((visit.1.recorded (argv.options 2)).map fun c => (c, visit.2)).map Prod.fst) =
      visits.flatMap (Execution.recorded (argv.options 2)) := by
    intro visits n
    induction visits generalizing n with
    | nil => rfl
    | cons e rest ih =>
      rw [List.zipIdx_cons, List.flatMap_cons, ih, List.flatMap_cons, List.map_map]
      exact congrArg (· ++ _) (List.map_id _)
  exact same r.visits 0

/-- `analysis` up to the merge. -/
theorem analysisExpr_eq : analysisExpr T files argv [] = merge r.l₂.finish r.ret₁ r.ret₂ := by
  have first := onePath_log (argv.options 1) { ctx := setMode T.new, vJmp := [], stdout := [] } r.sized₁
  have second := onePath_log (argv.options 2) (r.l₁.finish.print "[+] A second trace has been provided")
    r.sized₂
  rw [r.run₁] at first
  rw [r.run₂] at second
  simp only [analysisExpr, r.first, r.named, r.second, bind, Except.bind, pure,
    Except.pure] at first second ⊢
  rw [first]
  simp only [second]
  rfl

/-- The merge takes the first entry and fails when there is none. -/
theorem merge_eq : analysisExpr T files argv [] = match r.l₂.state.vJmp with
    | [] => .error (.indexError "V_JMP")
    | e1 :: _ => .ok (r.l₂.finish.print "[+] Merging expressions from trace1 and trace2",
        T.ite e1 r.ret₂ r.ret₁) := by
  have merged : ∀ s : State T, merge s r.ret₁ r.ret₂ = match s.vJmp with
      | [] => .error (.indexError "V_JMP")
      | e1 :: _ => .ok (s.print "[+] Merging expressions from trace1 and trace2", T.ite e1 r.ret₂ r.ret₁) := by
    rintro ⟨ctx, vJmp, stdout⟩
    cases vJmp <;> rfl
  rw [r.analysisExpr_eq]
  exact merged r.l₂.finish

/-- An entry is the first of `V_JMP` exactly when its visit is the first to record one. -/
theorem entries_head {c : T.Ast} {k : Nat} : r.entries.head? = some (c, k) ↔
    ∃ visit, r.visits[k]? = some visit ∧ (visit.recorded (argv.options 2)).head? = some c ∧
      ∀ j < k, ∀ earlier, r.visits[j]? = some earlier → earlier.recorded (argv.options 2) = [] := by
  rw [entries, head?_numbered]
  simp only [Nat.zero_add]
  constructor
  · rintro ⟨k', visit, rfl, found⟩
    exact ⟨visit, found⟩
  · rintro ⟨visit, found⟩
    exact ⟨k, visit, rfl, found⟩

theorem vJmp_of_head {c : T.Ast} {k : Nat} (head : r.entries.head? = some (c, k)) :
    ∃ rest, r.l₂.state.vJmp = c :: rest := by
  rw [← r.entries_vJmp]
  cases entries : r.entries with
  | nil =>
    rw [entries] at head
    cases head
  | cons entry rest =>
    rw [entries] at head
    cases head
    exact ⟨rest.map Prod.fst, rfl⟩

/-- The recorder's filter at a visit: a symbolized instruction, two variables in the flag. -/
def Passes (flag : Register) (visit : Execution T) : Prop :=
  visit.inst.isSymbolized = true ∧ (T.searchVariables (T.getRegisterAst visit.ctx flag)).length = 2

theorem visit_recorded {flag : Register} (recording : (argv.options 2).recording = true)
    (resolves : (argv.options 2).Resolves T flag) {visit : Execution T} {k : Nat}
    (kth : r.visits[k]? = some visit) :
    (Passes flag visit → visit.recorded (argv.options 2) = [condition visit.ctx flag]) ∧
      (¬ Passes flag visit → visit.recorded (argv.options 2) = []) := by
  have here : argv.vbraddr = some (visit.address : Int) := by
    have member := List.mem_of_getElem? kth
    simpa [visits] using (List.mem_filter.mp member).2
  have records : (argv.options 2).Records visit.ctx visit.address visit.inst flag ↔
    Passes flag visit := by
    simp [Options.Records, Options.visits, Argv.options, here, Passes]
  rw [Execution.recorded_eq recording resolves]
  exact ⟨fun passes => if_pos (records.mpr passes), fun fails => if_neg (mt records.mp fails)⟩

section
variable (lawful : T.Lawful)
include lawful

/-- A condition is one on the inputs that give the flag its recorded value, else zero. -/
theorem condition_denote (ctx : T.Ctx) (flag : Register) (input : Valuation) :
    T.denote (condition ctx flag) input =
      if T.denote (T.getRegisterAst ctx flag) input =
        T.denote (T.getRegisterAst ctx flag) (T.values ctx)
      then 1 else 0 := by
  rw [condition, lawful.equal, lawful.evaluate]

/-- The merge takes the condition of visit `k`, which tells the two runs apart, and
gives each run its own return value. -/
def TakesBranch (k : Nat) (visit : Execution T) (flag : Register) : Prop :=
  r.entries.head? = some (condition visit.ctx flag, k) ∧
  ∃ s e, analysisExpr T files argv [] = .ok (s, e) ∧
    e = T.ite (condition visit.ctx flag) r.ret₂ r.ret₁ ∧
    T.denote (condition visit.ctx flag) (T.values visit.ctx) = 1 ∧
    T.denote (condition visit.ctx flag) r.inputs₁ = 0 ∧
    T.denote e (T.values visit.ctx) = T.denote r.ret₂ (T.values visit.ctx) ∧
    T.denote e r.inputs₁ = T.denote r.ret₁ r.inputs₁

/-- The visit that separates the runs is the one merged on exactly when the request
records at all, its instruction is symbolized and no earlier visit passes the filter. -/
theorem takesBranch_iff {flag : Register} (resolves : (argv.options 2).Resolves T flag) {k : Nat}
    {visit : Execution T} (kth : r.visits[k]? = some visit)
    (two : (T.searchVariables (T.getRegisterAst visit.ctx flag)).length = 2)
    (apart : T.denote (T.getRegisterAst visit.ctx flag) r.inputs₁ ≠
      T.denote (T.getRegisterAst visit.ctx flag) (T.values visit.ctx)) :
    r.TakesBranch k visit flag ↔ (argv.options 2).recording = true ∧ visit.inst.isSymbolized = true ∧
      ∀ j < k, ∀ earlier, r.visits[j]? = some earlier → ¬ Passes flag earlier := by
  constructor
  · rintro ⟨head, -⟩
    obtain ⟨visit', kth', recorded, before⟩ := r.entries_head.mp head
    cases kth.symm.trans kth'
    have recording : (argv.options 2).recording = true := by
      by_contra idle
      rw [Execution.recorded_idle (by simpa using idle)] at recorded
      cases recorded
    refine ⟨recording, ?_, fun j earlier_j earlier there passes => ?_⟩
    · by_contra plain
      rw [(r.visit_recorded recording resolves kth).2 fun passes => plain passes.1] at recorded
      cases recorded
    · have none := before j earlier_j earlier there
      rw [(r.visit_recorded recording resolves there).1 passes] at none
      cases none
  · rintro ⟨recording, symbolized, before⟩
    have head : r.entries.head? = some (condition visit.ctx flag, k) := by
      refine r.entries_head.mpr ⟨visit, kth, ?_, fun j bound earlier there => ?_⟩
      · rw [(r.visit_recorded recording resolves kth).1 ⟨symbolized, two⟩]
        rfl
      · exact (r.visit_recorded recording resolves there).2 (before j bound earlier there)
    obtain ⟨rest, vJmp⟩ := r.vJmp_of_head head
    have merged := r.merge_eq
    rw [vJmp] at merged
    have onSecond : T.denote (condition visit.ctx flag) (T.values visit.ctx) = 1 := by
      rw [condition_denote lawful, if_pos rfl]
    have onFirst : T.denote (condition visit.ctx flag) r.inputs₁ = 0 := by
      rw [condition_denote lawful, if_neg apart]
    refine ⟨head, _, _, merged, rfl, onSecond, onFirst, ?_, ?_⟩
    · rw [lawful.ite, onSecond, if_neg (by decide)]
    · rw [lawful.ite, onFirst, if_pos rfl]

end

end TwoReplays

section
open Reference

def bothReplays (argv : Argv) (calls₁ calls₂ : List Callback) :
    Except PyError (Loop engine × Loop engine) := do
  let l₁ ← replay (argv.options 1) (Loop.start start) calls₁
  let l₂ ← replay (argv.options 2) (Loop.start (l₁.finish.print "[+] A second trace has been provided")) calls₂
  return (l₁, l₂)

theorem bothReplays_ok {argv : Argv} {calls₁ calls₂ : List Callback} {both : Loop engine × Loop engine}
    (ran : bothReplays argv calls₁ calls₂ = .ok both) :
    replay (argv.options 1) (Loop.start start) calls₁ = .ok both.1 ∧
      replay (argv.options 2) (Loop.start (both.1.finish.print "[+] A second trace has been provided"))
        calls₂ = .ok both.2 := by
  obtain ⟨l₁, first, rest⟩ := Outcome.bind_ok ran
  obtain ⟨l₂, second, same⟩ := Outcome.bind_ok rest
  cases same
  exact ⟨first, second⟩

/-- Both replays of a program traced on two pairs of arguments. -/
def TwoReplays.traced (program : List Instruction) (vbraddr : Option Int) (s₁ s₂ : Cpu)
    (done : Outcome.isOk (bothReplays (request vbraddr) (trace program 10 s₁) (trace program 10 s₂)) = true) :
    TwoReplays engine (tracedFiles (trace program 10 s₁) (trace program 10 s₂)) (request vbraddr) where
  calls₁ := trace program 10 s₁
  calls₂ := trace program 10 s₂
  sized₁ := trace_sized program 10 s₁
  sized₂ := trace_sized program 10 s₂
  path := "trace2"
  first := rfl
  named := rfl
  second := rfl
  l₁ := (Outcome.get _ done).1
  l₂ := (Outcome.get _ done).2
  run₁ := (bothReplays_ok (Outcome.get_spec done)).1
  run₂ := (bothReplays_ok (Outcome.get_spec done)).2

set_option maxRecDepth 10000 in
/-- The two-path function, once for each order of its arguments. -/
def maxReplays : TwoReplays engine (tracedFiles (trace maxProgram 10 (twoArguments 5 3))
    (trace maxProgram 10 (twoArguments 3 5))) (request (some 0x401000)) :=
  TwoReplays.traced maxProgram (some 0x401000) (twoArguments 5 3) (twoArguments 3 5) (by decide +kernel)

set_option maxRecDepth 10000 in
/-- At the first visit the instruction is not symbolized yet, so the filter skips it, and the
merge takes the second one, after which the runs part. -/
theorem takesBranch_reload :
    (executed reloadProgram 10 (twoArguments 5 3)).take 7 = (executed reloadProgram 10 (twoArguments 3 5)).take 7 ∧
      (executed reloadProgram 10 (twoArguments 5 3))[7]? ≠ (executed reloadProgram 10 (twoArguments 3 5))[7]? ∧
      ∃ (r : TwoReplays engine (tracedFiles (trace reloadProgram 10 (twoArguments 5 3))
          (trace reloadProgram 10 (twoArguments 3 5))) (request (some 0x401000))) (earlier visit : Execution engine),
        r.visits[0]? = some earlier ∧ r.visits[1]? = some visit ∧ r.TakesBranch 1 visit .cf := by
  let r := TwoReplays.traced reloadProgram (some 0x401000) (twoArguments 5 3) (twoArguments 3 5) (by decide +kernel)
  have facts : (r.visits[1]?.map fun e => (e.inst.isSymbolized,
      (engine.searchVariables (engine.getRegisterAst e.ctx .cf)).length,
      decide (engine.denote (engine.getRegisterAst e.ctx .cf) r.inputs₁ =
        engine.denote (engine.getRegisterAst e.ctx .cf) (engine.values e.ctx)))) = some (true, 2, false) := by
    decide +kernel
  have plain : (r.visits[0]?.map fun e => e.inst.isSymbolized) = some false := by decide +kernel
  obtain ⟨visit, kth, facts⟩ := Option.map_eq_some_iff.mp facts
  obtain ⟨earlier, first, plain⟩ := Option.map_eq_some_iff.mp plain
  simp only [Prod.mk.injEq, decide_eq_false_iff_not] at facts
  obtain ⟨symbolized, two, apart⟩ := facts
  refine ⟨by decide +kernel, by decide +kernel, r, earlier, visit, first, kth, ?_⟩
  refine (TwoReplays.takesBranch_iff r engine_lawful rfl kth two apart).mpr ⟨rfl, symbolized, ?_⟩
  intro j before other there passes
  obtain rfl : j = 0 := Nat.lt_one_iff.mp before
  cases first.symm.trans there
  cases plain.symm.trans passes.1

set_option maxRecDepth 10000 in
/-- Both runs pass the loop's comparison twice and part after the second time. The
merge takes the first comparison, which is true on the first run's inputs too, and
so gives the first run the second one's result. -/
theorem takesBranch_fails :
    (executed loopProgram 10 (twoArguments 1 1)).take 7 =
        (executed loopProgram 10 (twoArguments 0 0x80000000)).take 7 ∧
      (executed loopProgram 10 (twoArguments 1 1))[7]? ≠
        (executed loopProgram 10 (twoArguments 0 0x80000000))[7]? ∧
      (∃ (r : TwoReplays engine (tracedFiles (trace loopProgram 10 (twoArguments 1 1))
          (trace loopProgram 10 (twoArguments 0 0x80000000))) (request (some 0x401002)))
          (visit : Execution engine), r.visits[1]? = some visit ∧
        (engine.searchVariables (engine.getRegisterAst visit.ctx .cf)).length = 2 ∧
        engine.denote (engine.getRegisterAst visit.ctx .cf) r.inputs₁ ≠
          engine.denote (engine.getRegisterAst visit.ctx .cf) (engine.values visit.ctx) ∧
        ¬ r.TakesBranch 1 visit .cf) ∧
      answer (analysisExpr engine (tracedFiles (trace loopProgram 10 (twoArguments 1 1))
        (trace loopProgram 10 (twoArguments 0 0x80000000))) (request (some 0x401002)) []) (pair 1 1) = some 1 ∧
      (final loopProgram 10 (twoArguments 1 1)).cell (.gpr .rax) = 3 := by
  let r := TwoReplays.traced loopProgram (some 0x401002) (twoArguments 1 1) (twoArguments 0 0x80000000)
    (by decide +kernel)
  refine ⟨by decide +kernel, by decide +kernel, ?_, ?_, by decide +kernel⟩
  · have facts : (r.visits[1]?.map fun e => (
        (engine.searchVariables (engine.getRegisterAst e.ctx .cf)).length,
        decide (engine.denote (engine.getRegisterAst e.ctx .cf) r.inputs₁ =
          engine.denote (engine.getRegisterAst e.ctx .cf) (engine.values e.ctx)))) = some (2, false) := by
      decide +kernel
    obtain ⟨visit, kth, facts⟩ := Option.map_eq_some_iff.mp facts
    simp only [Prod.mk.injEq, decide_eq_false_iff_not] at facts
    refine ⟨r, visit, kth, facts.1, facts.2, fun takes => ?_⟩
    have first : r.entries.head?.map Prod.snd = some 0 := by decide +kernel
    rw [takes.1] at first
    cases first
  · rw [r.merge_eq]
    decide +kernel

end
end Devirt.Attack
