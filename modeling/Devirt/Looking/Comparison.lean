import Devirt.Attack.Variables
import Devirt.Looking

/-! Both scripts on one trace. They synchronize, seed and execute alike, so they fail on the
same files; they differ in the comparisons at which they look for a virtual jump. -/
namespace Devirt

/-- Where no cell holds an expression there is nothing to make concrete. -/
structure Concretizer.Lawful {T : Triton} (C : Concretizer T) : Prop where
  concretizeAllRegister : ∀ ctx, (∀ c, (T.view ctx).sym c = none) → C.concretizeAllRegister ctx = ctx
  concretizeAllMemory : ∀ ctx, (∀ c, (T.view ctx).sym c = none) → C.concretizeAllMemory ctx = ctx

namespace Attack
variable {T : Triton}

/-- The lines that `looking_jmp.py` prints after an executed instruction. -/
def Execution.looked (e : Execution T) : List String :=
  (if e.inst.isSymbolized && e.inst.type == .popfq then
    markerLines e.ctx .cf ("[+] A potential symbolic jump found on CF flag: " ++ e.inst.repr) else []) ++
  (if e.inst.isSymbolized && e.inst.type.isCmp then
    markerLines e.ctx .af ("[+] A potential symbolic jump found of AF flag: " ++ e.inst.repr) else [])

/-- What the first replay reports, `looking_jmp.py` reports too; what it reports beyond that
is the auxiliary carry of a comparison with something else than two registers. -/
theorem Execution.lines_looked {o : Options} (idle : o.recording = false) (first : o.execid = 1)
    (e : Execution T) : e.lines o = e.looked ∨
      e.lines o = [] ∧ ∃ op1 op2, e.inst.type = .cmp op1 op2 ∧ (op1, op2) ≠ (.reg, .reg) := by
  unfold Execution.lines Execution.looked
  rw [idle, if_neg Bool.false_ne_true, if_pos first]
  cases type : e.inst.type with
  | popfq => simp [InstructionType.isCmp]
  | other => simp [InstructionType.isCmp]
  | cmp op1 op2 =>
    by_cases registers : op1 = .reg ∧ op2 = .reg
    · obtain ⟨rfl, rfl⟩ := registers
      simp [InstructionType.isCmp]
    · apply Or.inr
      refine ⟨?_, op1, op2, rfl, by simpa using registers⟩
      rw [if_neg (by simp), if_neg (by simpa using fun _ => registers), List.append_nil]

end Attack

namespace Looking
open Attack
open Python (PyError)

variable {T : Triton}

theorem detectingVjmp_eq (s : State T) (address : Nat) (inst : Processed) :
    detectingVjmp s inst =
      { s with stdout := s.stdout ++ (Execution.mk s.ctx address inst).looked } := by
  unfold detectingVjmp Execution.looked
  simp only [marker_eq]
  cases inst.isSymbolized && inst.type == .popfq <;> cases inst.isSymbolized && inst.type.isCmp <;> simp

/-- The loops of both scripts, after the same lines. -/
structure Beside (l k : Loop T) : Prop where
  ctx : k.state.ctx = l.state.ctx
  fuse : k.fuse = l.fuse
  count : k.count = l.count
  unseeded : l.fuse = true → T.getSymbolicVariables l.state.ctx = []

/-- The instruction that a line executes, if it holds one. -/
def lineExecution (o : Options) (l : Loop T) : Option Dispatch → List (Execution T)
  | some d => d.execution o l
  | none => []

/-- What a line of a trace does to two loops that are beside each other: both execute the same
instruction, if any, and the second one prints what there is to say about it. -/
structure Advances (o : Options) (line : Text) (l k l' k' : Loop T) : Prop where
  beside : Beside l' k'
  looked : ∃ es, Prints Execution.looked k k' es ∧ ∀ d, decodeLine line = .ok d → lineExecution o l d = es

section
variable {o : Options} {l k : Loop T} {line : Text}

theorem lineExecution_silent {d : Option Dispatch} (decoded : decodeLine line = .ok d)
    (silent : isInstructionLine line = false) : lineExecution o l d = [] := by
  have known := (decodeLine_instruction decoded).trans silent
  rcases d with _ | ⟨_, _, _⟩ | _ | _
  · rfl
  · rfl
  · rfl
  · cases known

/-- A line that executes nothing. -/
theorem Advances.silent (beside : Beside l k) (silent : isInstructionLine line = false) {ctx : T.Ctx}
    (same : T.getSymbolicVariables ctx = T.getSymbolicVariables l.state.ctx) :
    Advances o line l k (l.withCtx ctx) (k.withCtx ctx) := by
  have printed := Prints.refl Execution.looked k
  constructor
  · constructor
    · rfl
    · exact beside.fuse
    · exact beside.count
    · exact fun fuse => same.trans (beside.unseeded fuse)
  · exact ⟨[], ⟨printed.stdout, printed.fuse, printed.count⟩, fun _ decoded => lineExecution_silent decoded silent⟩

/-- A synchronizing line. -/
theorem Beside.syncs (beside : Beside l k) (silent : isInstructionLine line = false)
    (sync : T.Ctx → Except PyError T.Ctx)
    (keeps : ∀ {ctx ctx'}, sync ctx = .ok ctx' → T.getSymbolicVariables ctx' = T.getSymbolicVariables ctx) :
    Outcome.Paired (Advances o line l k)
      (do return { l with state := { l.state with ctx := ← sync l.state.ctx } })
      (do return { k with state := { k.state with ctx := ← sync k.state.ctx } }) := by
  rw [beside.ctx]
  apply (Outcome.Paired.self (sync l.state.ctx)).bind
  rintro ctx _ ⟨rfl, synced⟩
  exact .ok (.silent beside silent (keeps synced))

theorem seedInputs_eq {symsize : Nat} {ctx : T.Ctx} (unseeded : T.getSymbolicVariables ctx = []) :
    seedInputs symsize ctx = Attack.seedInputs symsize ctx := by
  rw [Attack.seedInputs, unseeded, if_pos (List.length_nil)]
  rfl

/-- The fuse burns alike, with the same line printed. -/
theorem Beside.burns (beside : Beside l k) :
    Outcome.Paired (fun s t => Attack.burnFuse o l.state l.fuse = .ok s ∧ t.ctx = s.ctx ∧
        t.stdout = k.state.stdout ++ (if l.fuse then ["[+] Symbolize inputs"] else []))
      (Attack.burnFuse o l.state l.fuse) (burnFuse o.symsize k.state k.fuse) := by
  rw [beside.fuse]
  cases fuse : l.fuse with
  | false => exact .ok ⟨rfl, beside.ctx, (List.append_nil _).symm⟩
  | true =>
    have same : seedInputs o.symsize k.state.ctx = Attack.seedInputs o.symsize l.state.ctx := by
      rw [beside.ctx]
      exact seedInputs_eq (beside.unseeded fuse)
    simp only [Attack.burnFuse, burnFuse, State.print, same, if_true]
    apply (Outcome.Paired.self (Attack.seedInputs o.symsize l.state.ctx)).bind
    rintro ctx _ ⟨rfl, seeds⟩
    refine .ok ⟨?_, rfl, rfl⟩
    rw [seeds]
    rfl

/-- After the fuse both scripts process the instruction, if the engine can, and look at the
same context. -/
theorem processes {s t : State T} (idle : o.recording = false) (same : t.ctx = s.ctx) (inst : Instruction) :
    Outcome.Paired (fun s' t' => T.Decodes inst ∧ t'.ctx = s'.ctx ∧ t'.stdout = t.stdout ++
        (Execution.mk (T.processing s.ctx inst).1 inst.address (T.processing s.ctx inst).2).looked)
      (Attack.process o s inst) (process t inst) := by
  cases decodes : T.disassembly inst with
  | error message =>
    rw [Attack.process, process, decodes]
    exact .error _
  | ok done =>
    obtain ⟨s', processed, ctx, _⟩ := process_idle o s decodes idle
    rw [processed, process, decodes, same]
    refine .ok ⟨decodes, ?_, ?_⟩
    · rw [detectingVjmp_eq _ inst.address, ctx]
    · rw [detectingVjmp_eq _ inst.address]

theorem Beside.executes (beside : Beside l k) (idle : o.recording = false) {kind : Text} {rest : List Text}
    (fields : Python.split ':' line = kind :: rest) (instruction : kind = ['i']) :
    Outcome.Paired (fun r q => Advances o line l k { state := r.1, fuse := r.2, count := l.count + 1 }
        { state := q.1, fuse := q.2, count := k.count + 1 })
      (Attack.execInstruction o l.state (kind :: rest) l.fuse)
      (execInstruction o.symsize k.state (kind :: rest) k.fuse) := by
  subst instruction
  rcases rest with _ | ⟨addr, _ | ⟨size, _ | ⟨data, _ | ⟨more, rest⟩⟩⟩⟩
  case cons.cons.cons.nil =>
    apply beside.burns.bind
    rintro s t ⟨burnt, same, printed⟩
    apply (Outcome.Paired.self _).bind
    rintro value _ ⟨rfl, parsed⟩
    apply (Outcome.Paired.self _).bind
    rintro address _ ⟨rfl, small⟩
    apply (Outcome.Paired.self _).bind
    rintro bytes _ ⟨rfl, read⟩
    apply (processes idle same ⟨address, bytes⟩).bind
    rintro s' t' ⟨decodes, ctx, looked⟩
    have decoded : decodeLine line = .ok (some (.instruction ⟨address, bytes⟩)) := by
      simp only [decodeLine, fields, readUnsigned_of_ok parsed small, read]
      rfl
    apply Outcome.Paired.ok
    constructor
    · constructor
      · exact ctx
      · rfl
      · exact congrArg (· + 1) beside.count
      · exact fun fuse => absurd fuse Bool.false_ne_true
    · let processing := T.processing s.ctx ⟨address, bytes⟩
      refine ⟨[⟨processing.1, address, processing.2⟩], ?_, fun d here => ?_⟩
      · constructor
        · rw [looked, printed, beside.fuse]
          cases l.fuse <;> simp [fuseLines, processing]
        · simp
        · rfl
      · cases decoded.symm.trans here
        exact execution_of_decoded burnt decodes
  all_goals exact .error _

/-- The body of the line loop. -/
theorem Beside.advances (keeps : T.KeepsVariables) (idle : o.recording = false) (beside : Beside l k) (line : Text) :
    Outcome.Paired (Advances o line l k) (Attack.emulateLine o l line) (emulateLine o.symsize k line) := by
  unfold Attack.emulateLine emulateLine
  dsimp only
  cases fields : Python.split ':' line with
  | nil => exact absurd fields (List.splitOn_ne_nil _ _)
  | cons kind rest =>
    have silent : kind ≠ ['i'] → isInstructionLine line = false := by
      intro other
      simpa [isInstructionLine, fields] using other
    rw [List.headD_cons]
    by_cases memread : kind = ['m', 'r']
    · rw [if_pos memread, if_pos memread]
      exact beside.syncs (silent (by rw [memread]; decide)) (fun ctx => syncMemory ctx _) (syncMemory_variables keeps)
    by_cases register : kind = ['r']
    · rw [if_neg memread, if_neg memread]
      simp only [pure_bind]
      rw [if_pos register, if_pos register]
      exact beside.syncs (silent (by rw [register]; decide)) (fun ctx => syncReg ctx _) (syncReg_variables keeps)
    by_cases instruction : kind = ['i']
    · rw [if_neg memread, if_neg memread]
      simp only [pure_bind]
      rw [if_neg register, if_neg register, if_pos instruction, if_pos instruction]
      apply (beside.executes idle fields instruction).bind
      intro r q advances
      exact .ok advances
    · rw [if_neg memread, if_neg memread]
      simp only [pure_bind]
      rw [if_neg register, if_neg register, if_neg instruction, if_neg instruction]
      refine .ok ⟨beside, [], .refl _ _, fun _ decoded => lineExecution_silent decoded (silent instruction)⟩

end

/-- The loops after some lines of a trace, and what has come before. -/
structure Alongside (o : Options) (l₀ k₀ : Loop T) (lines : List Text) (l k : Loop T) : Prop where
  beside : Beside l k
  looked : ∃ ds, lines.mapM decodeLine = .ok ds ∧ (ds.filterMap id).foldlM (Dispatch.run o) l₀ = .ok l ∧
    Prints Execution.looked k₀ k (executions o l₀ (ds.filterMap id))

theorem Alongside.line (keeps : T.KeepsVariables) {o : Options} (idle : o.recording = false) {l₀ k₀ l k : Loop T}
    {lines : List Text} (alongside : Alongside o l₀ k₀ lines l k) (line : Text) :
    Outcome.Paired (Alongside o l₀ k₀ (lines ++ [line])) (Attack.emulateLine o l line)
      (emulateLine o.symsize k line) := by
  obtain ⟨ds, decoded, ran, looked⟩ := alongside.looked
  apply (alongside.beside.advances keeps idle line).mono
  intro l' k' step advances
  obtain ⟨es, printed, executed⟩ := advances.looked
  obtain ⟨d, here⟩ := decodeLine_of_consumed step
  have last : [line].mapM decodeLine = .ok [d] := by
    rw [List.mapM_cons, here]
    rfl
  rw [emulateLine_of_decoded o l here] at step
  refine ⟨advances.beside, ds ++ [d], Outcome.mapM_append_ok decoded last, ?_, ?_⟩
  · rw [List.filterMap_append, List.foldlM_append, ran]
    cases d with
    | none => exact step
    | some d => exact (bind_pure _).trans step
  · rw [List.filterMap_append, executions_append ran]
    apply looked.trans
    cases d with
    | none =>
      obtain rfl := executed none here
      exact printed
    | some d =>
      obtain rfl := executed (some d) here
      have ended : executions o l (List.filterMap id [some d]) = lineExecution o l (some d) := by
        have step : d.run o l = .ok l' := step
        simp only [List.filterMap_cons, id, List.filterMap_nil, executions, step, List.append_nil]
        rfl
      rw [ended]
      exact printed

/-- What `looking_jmp.py` prints about a trace. -/
def lookedLines (es : List (Execution T)) : List String := transcript Execution.looked es

/-- After any lines of a file both loops hold the same context and have executed equally many
instructions. -/
def SameSteps (o : Options) (s : State T) (file : Text) : Prop :=
  ∀ before after, readLines file = before ++ after → ∃ l k : Loop T,
    Attack.emulateLines o (Loop.start s) before = .ok l ∧
    emulateLines o.symsize (Loop.start s) before = .ok k ∧ k.state.ctx = l.state.ctx ∧ k.count = l.count

/-- Both replays of one file, in contexts without inputs. -/
theorem onePath_beside (keeps : T.KeepsVariables) {C : Concretizer T} (concretizes : C.Lawful) {o : Options}
    (idle : o.recording = false) {s : State T} (unseeded : T.getSymbolicVariables s.ctx = [])
    (plain : ∀ c, (T.view s.ctx).sym c = none) (file : Text) :
    Outcome.Paired (fun r q => q.1.ctx = r.1.ctx ∧ q.2 = r.2 ∧ SameSteps o s file ∧
        ∃ es : List (Execution T), Replays o s file es ∧ r.1.stdout = s.stdout ++ replayLines o es ∧
          q.1.stdout = s.stdout ++ lookedLines es)
      (Attack.onePath o s file) (onePath C s file o.symsize) := by
  have same : C.concretizeAllMemory (C.concretizeAllRegister s.ctx) = s.ctx := by
    rw [concretizes.concretizeAllRegister s.ctx plain, concretizes.concretizeAllMemory s.ctx plain]
  have start : Alongside o (Loop.start s) (Loop.start s) [] (Loop.start s) (Loop.start s) :=
    ⟨⟨rfl, rfl, rfl, fun _ => unseeded⟩, [], rfl, rfl, .refl _ _⟩
  have loops : ∀ lines, Outcome.Paired (Alongside o (Loop.start s) (Loop.start s) lines)
      (Attack.emulateLines o (Loop.start s) lines) (emulateLines o.symsize (Loop.start s) lines) := fun lines =>
    Outcome.Paired.foldlM (fun line alongside => alongside.line keeps idle line) start
  unfold Attack.onePath onePath Attack.emulate emulate
  simp only [same, bind_assoc, pure_bind]
  apply ((loops (readLines file)).mono (S := fun l k =>
    Attack.emulateLines o (Loop.start s) (readLines file) = .ok l ∧ Alongside o _ _ (readLines file) l k)
    fun ran alongside => ⟨ran, alongside⟩).bind
  rintro l k ⟨ran, alongside⟩
  obtain ⟨ds, decoded, run, looked⟩ := alongside.looked
  have attacked := executions_print run
  refine .ok ⟨alongside.beside.ctx, congrArg (T.getRegisterAst · .eax) alongside.beside.ctx, ?_,
    executions o (Loop.start s) (ds.filterMap id), ⟨⟨ds, decoded, rfl⟩, ?_⟩, attacked.finish, looked.finish⟩
  · intro before after split
    rw [split, emulateLines_append] at ran
    obtain ⟨middle, begun, _⟩ := Outcome.bind_ok ran
    have halfway := loops before
    rw [begun] at halfway
    obtain ⟨beside, looking, reached⟩ := halfway.of_ok
    exact ⟨middle, beside, begun, looking, reached.beside.ctx, reached.beside.count⟩
  · rw [executions_length run, decoded_instructions decoded]

/-- The request that `looking_jmp.py` gets for the first trace of the replay script. -/
def request (argv : Attack.Argv) : Argv := { trace := argv.trace1, symsize := argv.symsize }

theorem refusal_request {argv0 : String} {argv : Attack.Argv} (accepted : Attack.refusal argv0 argv = none) :
    refusal argv0 (request argv) = none := by
  unfold Attack.refusal at accepted
  split at accepted
  · cases accepted
  rename_i given
  split at accepted
  · cases accepted
  rename_i sized
  have known : [some 1, some 2, some 4, some 8].contains argv.symsize = true :=
    List.contains_iff_mem.mpr (not_not.mp sized)
  rw [refusal, request, if_neg given, known]
  rfl

/-- On every trace that both scripts get, they fail alike or both succeed. Then they execute
the same instructions in the same contexts, one for each `i` line, and the replay script has
reported for each of them what `looking_jmp.py` reports, or nothing at a comparison that is
not one of two registers. -/
theorem main_beside (lawful : T.Lawful) (keeps : T.KeepsVariables) {C : Concretizer T} (concretizes : C.Lawful)
    {files : Files} {argv0 : String} {argv : Attack.Argv} (accepted : Attack.refusal argv0 argv = none)
    (single : argv.second = none) :
    Outcome.Paired (fun r q => r.1 = 0 ∧ q.1 = 0 ∧
        ∃ (file : Text) (s : State T) (e : T.Ast) (es : List (Execution T)),
          openFile files (argv.trace1.getD "") = .ok file ∧
          Attack.onePath (argv.options 1) { ctx := setMode T.new, vJmp := [], stdout := [] } file = .ok (s, e) ∧
          Replays (argv.options 1) { ctx := setMode T.new, vJmp := [], stdout := [] } file es ∧
          SameSteps (argv.options 1) { ctx := setMode T.new, vJmp := [], stdout := [] } file ∧
          r.2 = replayLines (argv.options 1) es ++ resultLines s.ctx e ∧ q.2 = lookedLines es ∧
          ∀ x ∈ es, x.lines (argv.options 1) = x.looked ∨ x.lines (argv.options 1) = [] ∧
            ∃ op1 op2, x.inst.type = .cmp op1 op2 ∧ (op1, op2) ≠ (.reg, .reg))
      (Attack.main T files argv0 argv) (main C files argv0 (request argv)) := by
  rw [Attack.main, main, accepted, refusal_request accepted]
  simp only [Attack.analysis, analysisExpr, analysis, single, bind_assoc]
  apply (Outcome.Paired.self (openFile files (argv.trace1.getD ""))).bind
  rintro file _ ⟨rfl, opened⟩
  have fresh := fresh_view (s := { ctx := setMode T.new, vJmp := [], stdout := [] }) lawful rfl
  apply ((onePath_beside keeps concretizes (o := argv.options 1) rfl fresh.2.2 fresh.2.1 file).mono
    fun ran beside => And.intro ran beside).bind
  rintro ⟨s, e⟩ ⟨t, e'⟩ ⟨ran, -, -, steps, es, replays, attacks, looks⟩
  refine .ok ⟨rfl, rfl, file, s, e, es, opened, ran, replays, steps, ?_, looks, fun x _ => x.lines_looked rfl rfl⟩
  rw [result_stdout, attacks]
  rfl

open Reference

def forget (forgotten : Cell → Bool) (ctx : Context) : Context :=
  { ctx with store := { ctx.store with sym := fun c => if forgotten c then none else ctx.store.sym c } }

theorem forget_plain {ctx : Context} (plain : ∀ c, ctx.view.sym c = none) (forgotten : Cell → Bool) :
    forget forgotten ctx = ctx := by
  have same : (fun c => if forgotten c then none else ctx.store.sym c) = ctx.store.sym := by
    funext c
    rw [show ctx.store.sym c = none from plain c]
    exact ite_self none
  rw [forget, same]

def concretizer : Concretizer engine where
  concretizeAllRegister := forget fun c => !isMem c
  concretizeAllMemory := forget isMem

theorem concretizer_lawful : concretizer.Lawful where
  concretizeAllRegister _ plain := forget_plain plain _
  concretizeAllMemory _ plain := forget_plain plain _

theorem lookedLines_engine {es : List (Execution engine)} {n : Nat} (length : es.length = n + 1) :
    lookedLines es = ["[+] Replaying the VMP trace", "[+] Symbolize inputs",
      "[+] Instruction executed: " ++ toString (n + 1), "[+] Emulation done"] :=
  transcript_unmarked (fun e => by simp only [Execution.looked, markerLines_engine, ite_self, List.append_nil]) length

set_option maxRecDepth 10000 in
/-- A traced call of `x + y`: `looking_jmp.py` prints how the replay script begins. -/
theorem main_beside_sum :
    let files := tracedFiles (Reference.trace sumProgram 2 (twoArguments 1 2)) []
    ∃ rest, Attack.main engine files "attack_vmp.py" single =
        .ok (0, "[+] Replaying the VMP trace" :: "[+] Symbolize inputs" ::
          ("[+] Instruction executed: " ++ toString 2) :: "[+] Emulation done" ::
          ("[+] Return value: " ++ hex 3) :: rest) ∧
      main concretizer files "attack_vmp.py" (request single) =
        .ok (0, ["[+] Replaying the VMP trace", "[+] Symbolize inputs",
          "[+] Instruction executed: " ++ toString 2, "[+] Emulation done"]) := by
  intro files
  have ok : Outcome.isOk (Attack.main engine files "attack_vmp.py" single) = true := by decide +kernel
  have accepted : Attack.refusal "attack_vmp.py" single = none := rfl
  have beside : Outcome.Paired _ (Attack.main engine files "attack_vmp.py" single) _ :=
    main_beside engine_lawful engine_keepsVariables concretizer_lawful accepted rfl
  generalize Attack.main engine _ _ _ = attacks at ok beside ⊢
  generalize main concretizer _ _ _ = looks at beside ⊢
  cases beside with
  | error e => cases ok
  | @ok r q related =>
    obtain ⟨first, second, file, s, e, es, opened, ran, replays, -, printed, looked, -⟩ := related
    obtain ⟨code, lines⟩ := r
    obtain ⟨code', lines'⟩ := q
    cases first
    cases second
    cases opened
    have count : (readLines (Tracer.log (Reference.trace sumProgram 2 (twoArguments 1 2)))).countP
        isInstructionLine = 2 := by decide +kernel
    have returned : ((Attack.onePath (single.options 1) start
        (Tracer.log (Reference.trace sumProgram 2 (twoArguments 1 2)))).toOption.map fun result =>
        engine.evaluate result.1.ctx result.2) = some 3 := by decide +kernel
    have value : engine.evaluate s.ctx e = 3 := by
      rw [show Attack.onePath (single.options 1) start _ = .ok (s, e) from ran] at returned
      exact Option.some.inj returned
    have length : es.length = 1 + 1 := replays.length.trans count
    rw [replayLines_engine _ length] at printed
    rw [lookedLines_engine length] at looked
    cases printed
    cases looked
    rw [resultLines, value]
    exact ⟨_, rfl, rfl⟩

end Looking
end Devirt
