import Devirt.Attack.Output
import Devirt.Attack.Prediction

/-! The value that is printed at the end. Whatever a record costs the expressions, the
replay computes the traced run itself: its return value is the one of the run. -/
namespace Devirt.Attack
open Tracer Concolic
open Python (PyError)

variable {T : Triton} {M : Machine}

/-- Expressions agree with the values, and there are none before the inputs are seeded. -/
structure Settled (l : Loop T) : Prop where
  consistent : T.Consistent l.state.ctx
  unseeded : l.fuse = true → T.getSymbolicVariables l.state.ctx = [] ∧ ∀ c, (T.view l.state.ctx).sym c = none

section
variable (lawful : T.Lawful) (consistent : T.ProcessingConsistent) {o : Options}
  (symsized : AccessSize o.symsize)
include lawful consistent symsized

theorem inst_settled {l l' : Loop T} {regs : Gpr → BitVec 64} {addr : BitVec 64} {opcode : List (BitVec 8)}
    (settled : Settled l) (ran : replay o l [.inst regs addr opcode] = .ok l') : Settled l' := by
  obtain ⟨ctx', s, burnt, ⟨view, same⟩, processed, done⟩ := inst_steps lawful ran
  have synced : T.Consistent ctx' := by
    rw [Triton.Consistent, view, same.2]
    exact settled.consistent.resyncEach
  have ready : T.Consistent s.ctx := by
    cases fuse : l.fuse with
    | false =>
      rw [fuse] at burnt
      cases burnt
      exact synced
    | true =>
      obtain ⟨unseeded, plain⟩ := settled.unseeded fuse
      obtain ⟨seededCtx, seeds, seeded⟩ := seedInputs_fresh lawful ctx' symsized (same.1.trans unseeded)
      have burning := burnFuse_seeds o (s := (l.withCtx ctx').state) seeds
      rw [fuse] at burnt
      cases burning.symm.trans burnt
      apply seeded.consistent
      intro c
      rw [view, Store.resyncEach_sym, plain]
      exact ite_self none
  constructor
  · rw [processed]
    exact consistent.consistent s.ctx _ ready
  · rw [done]
    exact fun burning => by cases burning

theorem call_settled {l l' : Loop T} {call : Callback} (sized : call.Sized) (settled : Settled l)
    (ran : replay o l [call] = .ok l') : Settled l' := by
  cases call with
  | memread addr size mem =>
    obtain ⟨ctx', runs, view, same⟩ := memread_runs lawful o l addr mem sized
    cases runs.symm.trans ran
    constructor
    · simp only [Triton.Consistent, Loop.withCtx, view, same.2]
      exact settled.consistent.resync
    · intro fuse
      obtain ⟨unseeded, plain⟩ := settled.unseeded fuse
      refine ⟨same.1.trans unseeded, fun c => ?_⟩
      simp only [Loop.withCtx, view]
      rcases Store.resync_sym_cases (T.view l.state.ctx) (Cell.range addr size)
        (Callback.memread addr size mem).observed c with kept | dropped
      · exact kept.trans (plain c)
      · exact dropped
  | inst regs addr opcode => exact inst_settled lawful consistent symsized settled ran

theorem replay_settled {calls : List Callback} {l l' : Loop T} (sized : ∀ call ∈ calls, call.Sized)
    (settled : Settled l) (ran : replay o l calls = .ok l') : Settled l' := by
  rw [replay_eq_foldlM] at ran
  have final := Outcome.foldlM_invariant (P := fun rest l => (∀ call ∈ rest, call.Sized) ∧ Settled l) (by
    rintro call rest l l' ⟨sized, settled⟩ ran
    obtain ⟨known, rest_sized⟩ := List.forall_mem_cons.mp sized
    exact ⟨rest_sized, call_settled lawful consistent symsized known settled ran⟩) ⟨sized, settled⟩ ran
  exact final.2

variable (sound : T.Sound M) (emulates : T.Emulates M)
include sound emulates

/-- The first replay of a complete log ends with the run's own return value. -/
theorem log_returns {i : Instruction} {is : List Instruction} {s₀ t₀ : M.State} {calls : List Callback}
    (logged : M.Logged (i :: is) s₀ calls t₀) (flags : M.FlagsWritten ∅ (i :: is) s₀)
    {u : State T} (fresh : u.ctx = setMode T.new) {l : Loop T} (ran : replay o (Loop.start u) calls = .ok l) :
    T.evaluate l.state.ctx (T.getRegisterAst l.state.ctx .eax) = M.cell t₀ (.gpr .rax) % 256 ^ 4 := by
  obtain ⟨zero, plain, unseeded⟩ := fresh_view lawful fresh
  have initial : Settled (Loop.start u) := by
    constructor
    · exact fun c => Store.value_of_none (plain c)
    · exact fun _ => ⟨unseeded, plain⟩
  have final := replay_settled lawful consistent symsized (Machine.Logged.sized logged) initial ran
  have carried := log_carried lawful consistent.inputs sound emulates symsized logged flags
    (l := Loop.start u) rfl (Or.inl ⟨unseeded, plain⟩) ran
  rw [lawful.evaluate, lawful.getRegisterAst]
  have value := final.consistent (.gpr .rax)
  exact congrArg (· % 256 ^ 4) (value.trans (carried.shadows _ (carried.registers .rax)))

end

theorem memreads_silent {i : Instruction} {s : M.State} {reads : List Callback} (reports : M.Reports i s reads) :
    ∀ d ∈ reads.flatMap Callback.dispatches, ¬ d.isInstruction = true := by
  intro d member
  obtain ⟨call, read, dispatched⟩ := List.mem_flatMap.mp member
  obtain ⟨addr, size, _, rfl⟩ := reports.memreads call read
  rw [List.mem_singleton.mp dispatched]
  exact Bool.false_ne_true

/-- A log holds one instruction record for each executed instruction. -/
theorem Logged.instructions {is : List Instruction} {s t : M.State} {calls : List Callback}
    (logged : M.Logged is s calls t) :
    (calls.flatMap Callback.dispatches).countP Dispatch.isInstruction = is.length := by
  induction logged with
  | done s => rfl
  | @next i is s s' t reads calls reports _ _ _ ih =>
    have silent : (reads.flatMap Callback.dispatches).countP Dispatch.isInstruction = 0 :=
      List.countP_eq_zero.mpr (memreads_silent reports)
    rw [List.flatMap_append, List.countP_append, silent, List.flatMap_cons, List.countP_append, ih,
      List.length_cons, Nat.zero_add, Nat.add_comm]
    rfl

section
variable (lawful : T.Lawful) (consistent : T.ProcessingConsistent) (sound : T.Sound M)
  (emulates : T.Emulates M)
include lawful consistent sound emulates

/-- What `analysis` makes of one complete log. -/
theorem log_analysis {files : Files} {argv : Argv} (symsized : AccessSize (argv.options 1).symsize)
    (single : argv.second = none) {i : Instruction} {is : List Instruction} {s₀ t₀ : M.State}
    {calls : List Callback} (traced : openFile files (argv.trace1.getD "") = .ok (log calls))
    (logged : M.Logged (i :: is) s₀ calls t₀) (flags : M.FlagsWritten ∅ (i :: is) s₀) :
    ∃ l, replay (argv.options 1) (Loop.start { ctx := setMode T.new, vJmp := [], stdout := [] }) calls = .ok l ∧
      analysisExpr T files argv [] = .ok (l.finish, T.getRegisterAst l.state.ctx .eax) ∧
      l.count = (i :: is).length ∧
      T.evaluate l.state.ctx (T.getRegisterAst l.state.ctx .eax) = M.cell t₀ (.gpr .rax) % 256 ^ 4 := by
  let u : State T := { ctx := setMode T.new, vJmp := [], stdout := [] }
  have sized := Machine.Logged.sized logged
  have answers : (argv.options 1).Answers T := fun recording => by cases recording
  obtain ⟨l, runs⟩ := replay_total lawful symsized answers sized (Machine.Logged.decodable sound logged)
    (l := Loop.start u) fun _ => Or.inl (fresh_view (s := u) lawful rfl).2.2
  have returned := log_returns lawful consistent symsized sound emulates logged flags (u := u) rfl runs
  have executed := executions_print runs
  have path : onePath (argv.options 1) u (log calls) = .ok (l.finish, T.getRegisterAst l.state.ctx .eax) := by
    rw [onePath_log _ u sized, runs]
    rfl
  refine ⟨l, runs, ?_, ?_, returned⟩
  · simp only [analysisExpr, traced, single, bind, Except.bind]
    rw [show onePath (argv.options 1) { ctx := setMode T.new, vJmp := [], stdout := [] } (log calls) = _ from path]
    rfl
  · rw [executed.count, executions_length runs, Logged.instructions logged]
    exact Nat.zero_add _

/-- The script on one trace: it succeeds and prints the return value of the traced run. -/
theorem log_main {files : Files} {argv0 : String} {argv : Argv} (accepted : refusal argv0 argv = none)
    (symsized : AccessSize (argv.options 1).symsize) (single : argv.second = none) {i : Instruction}
    {is : List Instruction} {s₀ t₀ : M.State} {calls : List Callback}
    (traced : openFile files (argv.trace1.getD "") = .ok (log calls))
    (logged : M.Logged (i :: is) s₀ calls t₀) (flags : M.FlagsWritten ∅ (i :: is) s₀) :
    ∃ lines, main T files argv0 argv = .ok (0, lines) ∧
      "[+] Return value: " ++ hex (M.cell t₀ (.gpr .rax) % 256 ^ 4) ∈ lines ∧
      "[+] Instruction executed: " ++ toString (i :: is).length ∈ lines := by
  obtain ⟨l, _, analysed, count, returned⟩ := log_analysis lawful consistent sound emulates symsized single traced
    logged flags
  refine ⟨(result l.finish (T.getRegisterAst l.state.ctx .eax)).stdout, ?_, ?_, ?_⟩
  · rw [main, accepted, analysis, analysed]
    rfl
  · rw [← returned]
    simp [result, State.print, Loop.finish]
  · rw [← count]
    simp [result, State.print, Loop.finish]

end

end Devirt.Attack
