import Devirt.Attack.Output
import Devirt.Attack.Devirtualization
import Devirt.Attack.ReturnValue
import Devirt.Reference.Solver

/-! What the jump candidates of the first replay are worth. After an instruction that a
marker looks at, a line is printed exactly when some inputs give the flag another
value, and this value is the one of the runs that these inputs take. -/
namespace Devirt

/-- A run along a path ends in one state. -/
theorem Machine.SamePath.ends {M : Machine} {is : List Instruction} {s₀ s t t' : M.State}
    (path : M.SamePath is s₀ s t) (again : M.SamePath is s₀ s t') : t = t' := by
  induction path with
  | done s₀ s =>
    cases again
    rfl
  | next stepped₀ stepped _ _ _ ih =>
    cases again with
    | next stepped₀' stepped' _ _ rest =>
      cases stepped₀.symm.trans stepped₀'
      cases stepped.symm.trans stepped'
      exact ih rest

namespace Attack
open Tracer Concolic
open Python (PyError)

variable {T : Triton} {M : Machine}

/-- The flag that a marker looks at after an instruction. -/
def watched (inst : Processed) : Option Flag :=
  if inst.isSymbolized then
    match inst.type with
    | .popfq => some .cf
    | .cmp .reg .reg => some .af
    | _ => none
  else none

/-- What a marker prints about a flag before the model. -/
def candidate (inst : Processed) : Flag → String
  | .cf => "[+] A potential symbolic jump found on CF flag: " ++ inst.repr
  | _ => "[+] A potential symbolic jump found of AF flag: " ++ inst.repr

/-- A marker looks at the flag, which depends on two inputs. -/
structure Execution.Looked (e : Execution T) (f : Flag) : Prop where
  watched : watched e.inst = some f
  two : (T.searchVariables (T.getRegisterAst e.ctx (.flag f))).length = 2

theorem Execution.lines_first (argv : Argv) (e : Execution T) :
    e.lines (argv.options 1) =
      (watched e.inst).elim [] fun f => markerLines e.ctx (.flag f) (candidate e.inst f) := by
  obtain ⟨ctx, address, isSymbolized, type, repr⟩ := e
  rw [Execution.lines, if_neg (show ¬ (argv.options 1).recording = true from Bool.false_ne_true),
    if_pos (show (argv.options 1).execid = 1 from rfl), watched]
  cases isSymbolized with
  | false => rfl
  | true =>
    cases type with
    | popfq => exact List.append_nil _
    | cmp op1 op2 => cases op1 <;> cases op2 <;> rfl
    | other => rfl

theorem watched_written (classifies : T.Classifies M) {ctx : T.Ctx} {i : Instruction} {s t : M.State} {f : Flag}
    (stepped : M.exec i s = some t) (looks : watched (T.processing ctx i).2 = some f) :
    Cell.flag f ∈ M.writes i s := by
  have ⟨popfq, cmp⟩ : ((T.processing ctx i).2.type = .popfq → .flag .cf ∈ M.writes i s) ∧
      ((T.processing ctx i).2.type = .cmp .reg .reg → .flag .af ∈ M.writes i s) := classifies stepped
  rw [watched] at looks
  split at looks
  · split at looks
    · cases looks
      exact popfq ‹_›
    · cases looks
      exact cmp ‹_›
    · cases looks
  · cases looks

section
variable (lawful : T.Lawful) (solves : T.Solves)
include lawful solves

theorem markerLines_ne_nil (ctx : T.Ctx) (flag : Register) (message : String) :
    markerLines ctx flag message ≠ [] ↔ (T.searchVariables (T.getRegisterAst ctx flag)).length = 2 ∧
      ∃ input, T.Assigns ctx input ∧
        T.denote (T.getRegisterAst ctx flag) input ≠ T.denote (T.getRegisterAst ctx flag) (T.values ctx) := by
  have found := solves.getModel ctx
    (T.distinct (T.getRegisterAst ctx flag) (T.evaluate ctx (T.getRegisterAst ctx flag)))
  simp only [solves.distinct, lawful.evaluate, ne_eq, ite_eq_left_iff, Nat.one_ne_zero, imp_false,
    not_not] at found
  simp only [markerLines, lawful.evaluate]
  by_cases two : (T.searchVariables (T.getRegisterAst ctx flag)).length = 2
  · rw [if_pos two, ← found]
    cases T.getModel ctx
        (T.distinct (T.getRegisterAst ctx flag) (T.denote (T.getRegisterAst ctx flag) (T.values ctx))) with
    | none => simp
    | some model => simp [two]
  · simp [two]

/-- A candidate is printed exactly when some inputs turn the flag. -/
theorem Execution.lines_ne_nil (argv : Argv) (e : Execution T) :
    e.lines (argv.options 1) ≠ [] ↔ ∃ f, e.Looked f ∧ ∃ input, T.Assigns e.ctx input ∧
      T.denote (T.getRegisterAst e.ctx (.flag f)) input ≠
        T.denote (T.getRegisterAst e.ctx (.flag f)) (T.values e.ctx) := by
  rw [e.lines_first]
  cases looks : watched e.inst with
  | none =>
    constructor
    · exact fun some => absurd rfl some
    · rintro ⟨f, looked, _⟩
      cases looks.symm.trans looked.watched
  | some f =>
    rw [Option.elim_some, markerLines_ne_nil lawful solves]
    constructor
    · rintro ⟨two, turned⟩
      exact ⟨f, ⟨looks, two⟩, turned⟩
    · rintro ⟨f', looked, turned⟩
      cases looks.symm.trans looked.watched
      exact ⟨looked.two, turned⟩

end

/-- The values of the two inputs and of nothing else. -/
def inputPair (x y : Nat) : Valuation := Function.update (Function.update (fun _ => 0) 0 x) 1 y

theorem assigns_iff {ctx : T.Ctx} {symsize : Nat} (known : T.getSymbolicVariables ctx = inputVariables symsize)
    (input : Valuation) : T.Assigns ctx input ↔
      ∃ x y, x < 256 ^ symsize ∧ y < 256 ^ symsize ∧ input = inputPair x y := by
  constructor
  · intro assigns
    have sized := assigns.sized
    have others := assigns.others
    rw [known] at sized others
    simp only [inputVariables, List.forall_mem_cons, List.not_mem_nil, false_imp_iff, implies_true, and_true,
      ← byte_pow] at sized others
    refine ⟨input 0, input 1, sized.1, sized.2, ?_⟩
    funext id
    rcases id with _ | _ | id
    · rfl
    · rfl
    · exact others (id + 2) ⟨by omega, by omega⟩
  · rintro ⟨x, y, smallX, smallY, rfl⟩
    constructor
    · intro v member
      rw [known, inputVariables, List.mem_cons, List.mem_singleton] at member
      rcases member with rfl | rfl
      · exact (byte_pow symsize) ▸ smallX
      · exact (byte_pow symsize) ▸ smallY
    · intro id absent
      rw [known] at absent
      rcases id with _ | _ | id
      · exact absurd rfl (absent (inputVariable symsize 0 .rdi) (by simp [inputVariables]))
      · exact absurd rfl (absent (inputVariable symsize 1 .rsi) (by simp [inputVariables]))
      · rfl

/-- The records of one instruction execute it and nothing else. -/
theorem executions_instruction {o : Options} {i : Instruction} {s : M.State} {reads : List Callback}
    (reports : M.Reports i s reads) (address : i.address < 2 ^ 64) {l next : Loop T}
    (ran : replay o l (reads ++ [M.record i s]) = .ok next) :
    ∃ e, executions o l ((reads ++ [M.record i s]).flatMap Callback.dispatches) = [e] ∧
      e.ctx = next.state.ctx ∧ e.address = i.address ∧ ∃ ctx, e.inst = (T.processing ctx i).2 := by
  obtain ⟨earlier, last, executed, here⟩ := executions_last ran
  have one := executions_length ran
  rw [List.flatMap_append, List.countP_append, List.countP_eq_zero.mpr (memreads_silent reports),
    ← List.flatMap_append,
    show executions o l ((reads ++ [M.record i s]).flatMap Callback.dispatches) = earlier ++ [last] from executed,
    List.length_append, List.length_singleton, List.flatMap_singleton] at one
  have none : earlier = [] := List.length_eq_zero_iff.mp (Nat.succ_inj.mp (one.trans (Nat.zero_add 1)))
  rw [none] at executed
  have member : last ∈ executions o l ((reads ++ [M.record i s]).flatMap Callback.dispatches) :=
    executed ▸ List.mem_singleton_self last
  refine ⟨last, executed, here, ?_⟩
  obtain ⟨ctx, inst, dispatched, same⟩ := mem_executions member
  rw [List.flatMap_append, List.mem_append, List.flatMap_singleton] at dispatched
  rcases dispatched with read | recorded
  · exact absurd rfl (memreads_silent reports _ read)
  · simp only [Machine.record, Callback.dispatches, List.mem_cons, reduceCtorEq, List.not_mem_nil, or_false,
      false_or, Dispatch.instruction.injEq] at recorded
    rw [instruction_eta address] at recorded
    rw [same, recorded]
    exact ⟨rfl, ctx, rfl⟩

/-- The replay of a complete log up to one of its instructions is the replay of the
complete log of the run up to there, which has written the flag that is looked at. -/
theorem executions_logged (classifies : T.Classifies M) {o : Options} {is : List Instruction} {s₀ t₀ : M.State}
    {calls : List Callback} (logged : M.Logged is s₀ calls t₀) {l l' : Loop T} (ran : replay o l calls = .ok l')
    {k : Nat} {e : Execution T} (kth : (executions o l (calls.flatMap Callback.dispatches))[k]? = some e) :
    ∃ before after t lk, calls = before ++ after ∧ M.Logged (is.take (k + 1)) s₀ before t ∧
      replay o l before = .ok lk ∧ lk.state.ctx = e.ctx ∧ is[k]?.map Instruction.address = some e.address ∧
      ∀ f, watched e.inst = some f → ∀ known, Cell.flag f ∈ M.seen (is.take (k + 1)) s₀ before known := by
  induction logged generalizing l k with
  | done s => cases kth
  | @next i is s s' t reads calls reports address stepped rest ih =>
    have split : reads ++ M.record i s :: calls = (reads ++ [M.record i s]) ++ calls := by simp
    rw [split] at ran kth
    rw [replay_append] at ran
    obtain ⟨next, first, ran⟩ := Outcome.bind_ok ran
    obtain ⟨here, executed, ctx, address', before, inst⟩ := executions_instruction reports address first
    rw [List.flatMap_append, executions_append first, executed] at kth
    cases k with
    | zero =>
      cases kth
      refine ⟨_, calls, s', next, split, .next reports address stepped (.done s'), first, ctx.symm,
        congrArg some address'.symm, fun f looks known => ?_⟩
      rw [List.take_succ_cons, List.take_zero, seen_next reports stepped]
      apply Or.inr
      rw [inst] at looks
      exact watched_written classifies stepped looks
    | succ k =>
      obtain ⟨before, after, u, lk, rfl, later, reached, same, located, written⟩ := ih ran kth
      refine ⟨reads ++ M.record i s :: before, after, u, lk, by simp, .next reports address stepped later, ?_, same,
        located, fun f looks known => ?_⟩
      · rw [← List.singleton_append (l := before), ← List.append_assoc, replay_append_ok first]
        exact reached
      · rw [List.take_succ_cons, seen_next reports stepped]
        exact written f looks _

/-- What the lines after an instruction say about the runs that come to it on the traced
way: where the traced run is in `t`, those that another value of the flag awaits. -/
structure Marks (M : Machine) (symsize : Nat) (path : List Instruction) (s₀ t : M.State) (e : Execution T)
    (lines : List String) : Prop where
  complete : ∀ {f s t'}, e.Looked f → Alike M symsize s₀ s → M.SamePath path s₀ s t' →
    M.cell t' (.flag f) ≠ M.cell t (.flag f) → lines ≠ []
  sound : lines ≠ [] → ∃ f x y, e.Looked f ∧ x < 256 ^ symsize ∧ y < 256 ^ symsize ∧
    ∀ {s t'}, Alike M symsize s₀ s → Inputs M symsize s (inputPair x y) → M.SamePath path s₀ s t' →
      M.cell t' (.flag f) ≠ M.cell t (.flag f)

section
variable (lawful : T.Lawful) (inputs : ∀ ctx i, T.SameInputs ctx (T.processing ctx i).1)
  (sound : T.Sound M) (emulates : T.Emulates M) (solves : T.Solves) (classifies : T.Classifies M) {argv : Argv}
  (symsized : AccessSize (argv.options 1).symsize)
include lawful inputs sound emulates solves classifies symsized

theorem execution_marks {u : State T} (fresh : u.ctx = setMode T.new) {i : Instruction} {is : List Instruction}
    {s₀ t₀ : M.State} {calls : List Callback} (logged : M.Logged (i :: is) s₀ calls t₀)
    (flags : M.FlagsWritten ∅ (i :: is) s₀)
    (calm : Undisturbed T M (argv.options 1) (i :: is) s₀ ∅ (Loop.start u) calls) {l : Loop T}
    (ran : replay (argv.options 1) (Loop.start u) calls = .ok l) {k : Nat} {e : Execution T}
    (kth : (executions (argv.options 1) (Loop.start u) (calls.flatMap Callback.dispatches))[k]? = some e) :
    (i :: is)[k]?.map Instruction.address = some e.address ∧
      ∃ t, M.SamePath ((i :: is).take (k + 1)) s₀ s₀ t ∧
      Marks M (argv.options 1).symsize ((i :: is).take (k + 1)) s₀ t e (e.lines (argv.options 1)) := by
  obtain ⟨before, after, t, lk, rfl, reached, run, ctx, located, written⟩ :=
    executions_logged classifies logged ran kth
  rw [← List.take_append_drop (k + 1) (i :: is)] at flags calm
  have first := fresh_view (s := u) lawful fresh
  have carried : Carried T M (argv.options 1) ((i :: is).take (k + 1)) s₀ t before (Loop.start u) lk :=
    log_carried lawful inputs sound emulates symsized reached flags.left rfl (Or.inl ⟨first.2.2, first.2.1⟩) run
  rw [List.take_succ_cons] at *
  have represents : ∀ {f s t' input}, e.Looked f → Alike M (argv.options 1).symsize s₀ s →
      M.SamePath (i :: is.take k) s₀ s t' → Inputs M (argv.options 1).symsize s input →
      T.denote (T.getRegisterAst e.ctx (.flag f)) input = M.cell t' (.flag f) := by
    intro f s t' input looked alike path traced
    rw [← ctx]
    have seen : (Register.flag f).cell ∈ M.seen (i :: is.take k) s₀ before ∅ := written f looked.watched ∅
    exact carried.denotes lawful calm.left alike path traced seen
  have known : T.getSymbolicVariables e.ctx = inputVariables (argv.options 1).symsize := ctx ▸ carried.known
  have current : ∀ {f}, e.Looked f →
      T.denote (T.getRegisterAst e.ctx (.flag f)) (T.values e.ctx) = M.cell t (.flag f) :=
    fun looked => represents looked (.refl _ s₀) reached.samePath (ctx ▸ carried.inputs)
  refine ⟨located, t, reached.samePath, ?_, ?_⟩
  · intro f s t' looked alike path different
    let x := M.cell s (.gpr .rdi) % 256 ^ (argv.options 1).symsize
    let y := M.cell s (.gpr .rsi) % 256 ^ (argv.options 1).symsize
    have traced : Inputs M (argv.options 1).symsize s (inputPair x y) := ⟨rfl, rfl⟩
    apply (e.lines_ne_nil lawful solves argv).mpr
    refine ⟨f, looked, inputPair x y, ?_, ?_⟩
    · exact (assigns_iff known _).mpr ⟨x, y, low_bytes_lt _ _, low_bytes_lt _ _, rfl⟩
    · rw [represents looked alike path traced, current looked]
      exact different
  · intro printed
    obtain ⟨f, looked, input, assigns, turned⟩ := (e.lines_ne_nil lawful solves argv).mp printed
    obtain ⟨x, y, smallX, smallY, rfl⟩ := (assigns_iff known _).mp assigns
    refine ⟨f, x, y, looked, smallX, smallY, fun alike traced path => ?_⟩
    rw [represents looked alike path traced, current looked] at turned
    exact turned

/-- The first replay of an undisturbed log prints jump candidates at the right places: after
each instruction that a marker looks at, a line when some run of the path so far has another
flag there, and no line unless some arguments give every such run another flag. -/
theorem onePath_marks {u : State T} (fresh : u.ctx = setMode T.new) {i : Instruction} {is : List Instruction}
    {s₀ t₀ : M.State} {calls : List Callback} (logged : M.Logged (i :: is) s₀ calls t₀)
    (flags : M.FlagsWritten ∅ (i :: is) s₀)
    (calm : Undisturbed T M (argv.options 1) (i :: is) s₀ ∅ (Loop.start u) calls) :
    let es := executions (argv.options 1) (Loop.start u) (calls.flatMap Callback.dispatches)
    es.length = (i :: is).length ∧
      (∃ u' e, onePath (argv.options 1) u (log calls) = .ok (u', e) ∧
        u'.stdout = u.stdout ++ replayLines (argv.options 1) es) ∧
      ∀ k x, es[k]? = some x → (i :: is)[k]?.map Instruction.address = some x.address ∧
        ∃ t, M.SamePath ((i :: is).take (k + 1)) s₀ s₀ t ∧
        Marks M (argv.options 1).symsize ((i :: is).take (k + 1)) s₀ t x (x.lines (argv.options 1)) := by
  intro es
  have sized := Machine.Logged.sized logged
  have answers : (argv.options 1).Answers T := fun recording => by cases recording
  obtain ⟨l, ran⟩ := replay_total lawful symsized answers sized (Machine.Logged.decodable sound logged)
    (l := Loop.start u) fun _ => Or.inl (fresh_view lawful fresh).2.2
  have prints := executions_print ran
  refine ⟨?_, ⟨l.finish, T.getRegisterAst l.state.ctx .eax, ?_, prints.finish⟩, fun k x kth => ?_⟩
  · rw [executions_length ran, Logged.instructions logged]
  · rw [onePath_log _ u sized, ran]
    rfl
  · exact execution_marks lawful inputs sound emulates solves classifies symsized fresh logged flags calm ran kth

end

open Reference

set_option maxRecDepth 10000 in
/-- In the trace of the two-path function for 5 and 3, the comparison is a candidate: for 3
and 5 it borrows from the upper half of a byte. -/
theorem onePath_marks_max :
    let es := executions ((request (some 0x401000)).options 1)
      (Loop.start { ctx := setMode solver.new, vJmp := [], stdout := [] })
      ((trace maxProgram 10 (twoArguments 5 3)).flatMap Callback.dispatches)
    ∃ x ∈ es, x.lines ((request (some 0x401000)).options 1) ≠ [] := by
  intro es
  have first : (es.head?.map fun x => (watched x.inst,
      (solver.searchVariables (solver.getRegisterAst x.ctx .af)).length)) = some (some .af, 2) := by
    decide +kernel
  obtain ⟨x, head, facts⟩ := Option.map_eq_some_iff.mp first
  simp only [Prod.mk.injEq] at facts
  have looked : x.Looked .af := ⟨facts.1, facts.2⟩
  refine ⟨x, List.mem_of_head? head, ?_⟩
  have logged : (machine maxProgram).Logged (maxProgram[0] :: [maxProgram[1], maxProgram[2]]) (twoArguments 5 3)
      (trace maxProgram 10 (twoArguments 5 3)) (final maxProgram 10 (twoArguments 5 3)) :=
    trace_logged (by decide) 10 (twoArguments 5 3)
  have symsized : AccessSize ((request (some 0x401000)).options 1).symsize := by decide
  obtain ⟨-, -, marked⟩ := onePath_marks solver_lawful (fun ctx i => engine_consistent.inputs ctx i)
    (solver_sound (by decide)) (engine_emulates maxProgram) solver_solves
    (solver_classifies maxProgram) symsized
    (u := { ctx := setMode solver.new, vJmp := [], stdout := [] }) rfl logged
    (flagsWritten_of_ordered [] (by decide) (by simp) _)
    (.of_registers solver_lawful (by decide +kernel) fun _ _ _ _ _ _ _ => rfl)
  obtain ⟨-, t, path, marks⟩ := marked 0 x (List.head?_eq_getElem? ▸ head)
  have ends : t = final maxProgram 1 (twoArguments 5 3) :=
    Machine.SamePath.ends path (executed_path 1 (twoArguments 5 3) (twoArguments 5 3) rfl)
  have other : (machine maxProgram).SamePath [maxProgram[0]] (twoArguments 5 3) (twoArguments 3 5)
      (final maxProgram 1 (twoArguments 3 5)) :=
    executed_path 1 (twoArguments 5 3) (twoArguments 3 5) (by decide)
  apply marks.complete looked ⟨twoArguments_alike 5 3 3 5, by decide, by decide⟩ other
  rw [ends]
  decide

end Attack
end Devirt
