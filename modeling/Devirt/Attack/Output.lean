import Devirt.Attack.Accepted
import Devirt.Attack.Branches

/-! Everything that a replay prints, in terms of the instructions that it executes. -/
namespace Devirt.Attack
open Tracer
open Python (PyError)

variable {T : Triton}

/-- What a marker prints about a flag of a context. -/
def markerLines (ctx : T.Ctx) (flag : Register) (message : String) : List String :=
  let ast := T.getRegisterAst ctx flag
  if (T.searchVariables ast).length = 2 then
    match T.getModel ctx (T.distinct ast (T.evaluate ctx ast)) with
    | some model => [message ++ " - Model: " ++ model]
    | none => []
  else []

/-- The lines printed after an executed instruction: both markers of the first replay. -/
def Execution.lines (o : Options) (e : Execution T) : List String :=
  if o.recording then []
  else if o.execid = 1 then
    (if e.inst.isSymbolized && e.inst.type == .popfq then
      markerLines e.ctx .cf ("[+] A potential symbolic jump found on CF flag: " ++ e.inst.repr) else []) ++
    (if e.inst.isSymbolized && e.inst.type == .cmp .reg .reg then
      markerLines e.ctx .af ("[+] A potential symbolic jump found of AF flag: " ++ e.inst.repr) else [])
  else []

theorem marker_eq (s : State T) (flag : Register) (message : String) :
    marker s flag message = { s with stdout := s.stdout ++ markerLines s.ctx flag message } := by
  have same : { s with stdout := s.stdout ++ [] } = s := by rw [List.append_nil]
  unfold marker markerLines
  dsimp only
  by_cases two : (T.searchVariables (T.getRegisterAst s.ctx flag)).length = 2
  · rw [if_pos two, if_pos two]
    cases T.getModel s.ctx
      (T.distinct (T.getRegisterAst s.ctx flag) (T.evaluate s.ctx (T.getRegisterAst s.ctx flag))) with
    | none => exact same.symm
    | some model => rfl
  · rw [if_neg two, if_neg two]
    exact same.symm

theorem detectingVjmp_stdout {o : Options} {s s' : State T} {address : Nat} {inst : Processed}
    (detected : detectingVjmp o s address inst = .ok s') :
    s'.stdout = s.stdout ++ (Execution.mk s.ctx address inst).lines o := by
  unfold detectingVjmp at detected
  unfold Execution.lines
  by_cases recording : o.recording = true
  · rw [if_pos recording] at detected ⊢
    rw [List.append_nil]
    split at detected
    · obtain ⟨reg, _, detected⟩ := Outcome.bind_ok detected
      split at detected
      · cases detected
        rfl
      · cases detected
        rfl
    · cases detected
      rfl
  rw [if_neg recording] at detected ⊢
  by_cases first : o.execid = 1
  · rw [if_pos first] at detected ⊢
    cases detected
    simp only [marker_eq]
    cases inst.isSymbolized && inst.type == .popfq <;>
      cases inst.isSymbolized && inst.type == .cmp .reg .reg <;> simp
  · rw [if_neg first] at detected ⊢
    cases detected
    rw [List.append_nil]

theorem burnFuse_stdout {o : Options} {s s' : State T} {fuse : Bool} (burnt : burnFuse o s fuse = .ok s') :
    s'.stdout = s.stdout ++ if fuse then ["[+] Symbolize inputs"] else [] := by
  cases fuse with
  | false =>
    cases burnt
    exact (List.append_nil _).symm
  | true =>
    obtain ⟨ctx, _, burnt⟩ := Outcome.bind_ok burnt
    cases burnt
    rfl

/-- The line that announces the inputs, before the first instruction. -/
def fuseLines (fuse : Bool) (es : List (Execution T)) : List String :=
  if fuse && !es.isEmpty then ["[+] Symbolize inputs"] else []

/-- What the line loop has printed and counted between two of its states, where `lines`
are those of one instruction. -/
structure Prints (lines : Execution T → List String) (l l' : Loop T) (es : List (Execution T)) : Prop where
  stdout : l'.state.stdout = l.state.stdout ++ fuseLines l.fuse es ++ es.flatMap lines
  fuse : l'.fuse = (l.fuse && es.isEmpty)
  count : l'.count = l.count + es.length

theorem Prints.refl (lines : Execution T → List String) (l : Loop T) : Prints lines l l [] := by
  constructor
  · simp [fuseLines]
  · simp
  · rfl

theorem Prints.trans {lines : Execution T → List String} {l middle l' : Loop T} {es fs : List (Execution T)}
    (first : Prints lines l middle es) (second : Prints lines middle l' fs) : Prints lines l l' (es ++ fs) := by
  constructor
  · rw [second.stdout, first.stdout, first.fuse]
    cases es with
    | nil => simp [fuseLines]
    | cons e es => simp [fuseLines]
  · rw [second.fuse, first.fuse]
    cases es with
    | nil => simp
    | cons e es => simp
  · rw [second.count, first.count, List.length_append, Nat.add_assoc]

theorem run_prints {o : Options} {l l' : Loop T} {d : Dispatch} (ran : d.run o l = .ok l') :
    Prints (Execution.lines o) l l' (d.execution o l) := by
  cases d with
  | syncMemory addr size value =>
    obtain ⟨ctx, _, ran⟩ := Outcome.bind_ok ran
    cases ran
    exact ⟨(Prints.refl (Execution.lines o) l).stdout, (Prints.refl (Execution.lines o) l).fuse, rfl⟩
  | syncReg values =>
    obtain ⟨ctx, _, ran⟩ := Outcome.bind_ok ran
    cases ran
    exact ⟨(Prints.refl (Execution.lines o) l).stdout, (Prints.refl (Execution.lines o) l).fuse, rfl⟩
  | instruction inst =>
    obtain ⟨s, burnt, ran⟩ := Outcome.bind_ok ran
    obtain ⟨s', processed, ran⟩ := Outcome.bind_ok ran
    cases ran
    obtain ⟨decodes, detected⟩ := process_ok processed
    have printed := detectingVjmp_stdout detected
    rw [execution_of_decoded burnt decodes]
    constructor
    · rw [printed, burnFuse_stdout burnt]
      cases l.fuse <;> simp [fuseLines]
    · simp
    · rfl

theorem executions_print {o : Options} {ds : List Dispatch} {l l' : Loop T}
    (ran : ds.foldlM (Dispatch.run o) l = .ok l') : Prints (Execution.lines o) l l' (executions o l ds) := by
  induction ds generalizing l with
  | nil =>
    cases ran
    exact .refl _ _
  | cons d rest ih =>
    obtain ⟨next, first, ran⟩ := Outcome.foldlM_cons_ok ran
    simp only [executions, first]
    exact (run_prints first).trans (ih ran)

/-! The number of executed instructions is the number of `i` lines. -/

def Dispatch.isInstruction : Dispatch → Bool
  | .instruction _ => true
  | _ => false

def isInstructionLine (line : Text) : Bool := (Python.split ':' line).headD [] = ['i']

theorem executions_length {o : Options} {ds : List Dispatch} {l l' : Loop T}
    (ran : ds.foldlM (Dispatch.run o) l = .ok l') :
    (executions o l ds).length = ds.countP Dispatch.isInstruction := by
  induction ds generalizing l with
  | nil => rfl
  | cons d rest ih =>
    obtain ⟨next, first, ran⟩ := Outcome.foldlM_cons_ok ran
    simp only [executions, first, List.length_append, ih ran, List.countP_cons]
    cases d with
    | syncMemory addr size value => exact Nat.zero_add _
    | syncReg values => exact Nat.zero_add _
    | instruction inst =>
      obtain ⟨s, burnt, first⟩ := Outcome.bind_ok first
      obtain ⟨s', processed, _⟩ := Outcome.bind_ok first
      rw [execution_of_decoded burnt (process_ok processed).1]
      exact Nat.add_comm 1 _

theorem decodeLine_instruction {line : Text} {d : Option Dispatch} (decoded : decodeLine line = .ok d) :
    d.any Dispatch.isInstruction = isInstructionLine line := by
  unfold decodeLine at decoded
  split at decoded
  · rename_i addr size data fields
    obtain ⟨a, _, decoded⟩ := Outcome.bind_ok decoded
    obtain ⟨n, _, decoded⟩ := Outcome.bind_ok decoded
    obtain ⟨v, _, decoded⟩ := Outcome.bind_ok decoded
    cases decoded
    simp [isInstructionLine, fields, Dispatch.isInstruction]
  · rename_i addr size data fields
    obtain ⟨a, _, decoded⟩ := Outcome.bind_ok decoded
    obtain ⟨bytes, _, decoded⟩ := Outcome.bind_ok decoded
    cases decoded
    simp [isInstructionLine, fields, Dispatch.isInstruction]
  · rename_i regs fields
    obtain ⟨values, _, decoded⟩ := Outcome.bind_ok decoded
    cases decoded
    simp [isInstructionLine, fields, Dispatch.isInstruction]
  · rename_i kind rest _ _ _ fields
    split at decoded
    · cases decoded
    · rename_i other
      cases decoded
      simp only [not_or] at other
      simp [isInstructionLine, fields, other.2]
  · rename_i fields
    exact absurd fields (List.splitOn_ne_nil _ _)

theorem decoded_instructions {lines : List Text} {ds : List (Option Dispatch)}
    (decoded : lines.mapM decodeLine = .ok ds) :
    (ds.filterMap id).countP Dispatch.isInstruction = lines.countP isInstructionLine := by
  induction lines generalizing ds with
  | nil =>
    cases decoded
    rfl
  | cons line rest ih =>
    rw [List.mapM_cons] at decoded
    obtain ⟨d, first, decoded⟩ := Outcome.bind_ok decoded
    obtain ⟨others, later, decoded⟩ := Outcome.bind_ok decoded
    cases decoded
    rw [List.countP_cons, ← decodeLine_instruction first, ← ih later]
    cases d with
    | none => rfl
    | some d => rw [List.filterMap_cons, id, List.countP_cons, Option.any_some]

/-! What the script prints from its start to its end. -/

/-- The instructions that a replay of a file executes, one for each `i` line. -/
structure Replays (o : Options) (s : State T) (file : Text) (es : List (Execution T)) : Prop where
  executed : ∃ ds, (readLines file).mapM decodeLine = .ok ds ∧
    es = executions o (Loop.start s) (ds.filterMap id)
  length : es.length = (readLines file).countP isInstructionLine

/-- A replay from its announcement to its end, where `lines` are those of one instruction. -/
def transcript (lines : Execution T → List String) (es : List (Execution T)) : List String :=
  "[+] Replaying the VMP trace" :: fuseLines true es ++ es.flatMap lines ++
    ["[+] Instruction executed: " ++ toString es.length, "[+] Emulation done"]

theorem Prints.finish {lines : Execution T → List String} {s : State T} {l : Loop T} {es : List (Execution T)}
    (prints : Prints lines (Loop.start s) l es) : l.finish.stdout = s.stdout ++ transcript lines es := by
  have count := prints.count
  have stdout := prints.stdout
  simp only [Loop.start, Loop.fresh, State.print, Nat.zero_add] at count stdout
  simp only [Loop.finish, State.print, stdout, count, transcript, List.append_assoc, List.cons_append,
    List.nil_append]

def replayLines (o : Options) (es : List (Execution T)) : List String := transcript (Execution.lines o) es

/-- The lines about the returned expression: its value, itself, what synthesis makes of it,
and the better of the two as LLVM code. -/
def resultLines (ctx : T.Ctx) (ret_expr : T.Ast) : List String :=
  let unrolled := T.str (T.unroll ret_expr)
  let synthesized := T.synthesize ctx ret_expr
  ["[+] Return value: " ++ hex (T.evaluate ctx ret_expr),
   "[+] Devirt expr: " ++ excerpt unrolled unrolled,
   "[+] Synth expr: " ++ excerpt ((synthesized.map T.str).getD "None") unrolled ++ "\n",
   "[+] LLVM IR ==============================\n",
   T.liftToLLVM ctx (synthesized.getD ret_expr),
   "[+] EOF LLVM IR ============================== "]

theorem result_stdout (s : State T) (ret_expr : T.Ast) :
    (result s ret_expr).stdout = s.stdout ++ resultLines s.ctx ret_expr := by
  unfold result resultLines
  cases T.synthesize s.ctx ret_expr <;> simp [State.print]

theorem onePath_output {o : Options} {s s' : State T} {file : Text} {e : T.Ast}
    (ran : onePath o s file = .ok (s', e)) : ∃ es, Replays o s file es ∧
      s'.stdout = s.stdout ++ replayLines o es ∧ s'.vJmp = s.vJmp ++ es.flatMap (Execution.recorded o) := by
  obtain ⟨u, emulated, ran⟩ := Outcome.bind_ok ran
  cases ran
  obtain ⟨l, looped, emulated⟩ := Outcome.bind_ok emulated
  cases emulated
  obtain ⟨ds, decoded, run⟩ := emulateLines_decodes looped
  have prints := executions_print (l := Loop.start s) run
  have recorded := executions_vJmp (l := Loop.start s) run
  refine ⟨executions o (Loop.start s) (ds.filterMap id), ⟨⟨ds, decoded, rfl⟩, ?_⟩, ?_, recorded⟩
  · rw [executions_length (l := Loop.start s) run, decoded_instructions decoded]
  · exact prints.finish

/-- Only the first replay looks for markers. -/
theorem Execution.lines_second (argv : Argv) (e : Execution T) : e.lines (argv.options 2) = [] := by
  unfold Execution.lines
  split
  · rfl
  · rw [if_neg (show (argv.options 2).execid ≠ 1 from Nat.succ_succ_ne_one 0)]

/-- The transcript of every request that is accepted and runs to its end: one replay after
the other, each with its announcements, the markers of its instructions in their order
(in the first replay only) and the number of `i` lines; then the result. The second
replay starts where the first one has ended, and the result is about the expression of
the first replay, or about both under the first recorded condition. -/
theorem main_output {files : Files} {argv0 : String} {argv : Argv} {code : Int} {lines : List String}
    (accepted : refusal argv0 argv = none) (ran : main T files argv0 argv = .ok (code, lines)) :
    code = 0 ∧ ∃ (file₁ : Text) (s₁ : State T) (e₁ : T.Ast) (es₁ : List (Execution T)),
      openFile files (argv.trace1.getD "") = .ok file₁ ∧
      onePath (argv.options 1) { ctx := setMode T.new, vJmp := [], stdout := [] } file₁ = .ok (s₁, e₁) ∧
      Replays (argv.options 1) { ctx := setMode T.new, vJmp := [], stdout := [] } file₁ es₁ ∧
      ((argv.second = none ∧ lines = replayLines (argv.options 1) es₁ ++ resultLines s₁.ctx e₁) ∨
        ∃ (path : String) (file₂ : Text) (s₂ : State T) (e₂ : T.Ast) (es₂ : List (Execution T)) (c : T.Ast)
          (later : List T.Ast),
          argv.second = some path ∧ openFile files path = .ok file₂ ∧
          onePath (argv.options 2) (s₁.print "[+] A second trace has been provided") file₂ = .ok (s₂, e₂) ∧
          Replays (argv.options 2) (s₁.print "[+] A second trace has been provided") file₂ es₂ ∧
          es₂.flatMap (Execution.recorded (argv.options 2)) = c :: later ∧ s₂.vJmp = c :: later ∧
          es₂.flatMap (Execution.lines (argv.options 2)) = [] ∧
          lines = replayLines (argv.options 1) es₁ ++ ["[+] A second trace has been provided"] ++
            replayLines (argv.options 2) es₂ ++ ["[+] Merging expressions from trace1 and trace2"] ++
            resultLines s₂.ctx (T.ite c e₂ e₁)) := by
  rw [main, accepted] at ran
  obtain ⟨⟨s, e⟩, analysed, ran⟩ := Outcome.bind_ok ran
  cases ran
  obtain ⟨file₁, opened₁, analysed⟩ := Outcome.bind_ok analysed
  obtain ⟨⟨s₁, e₁⟩, first, analysed⟩ := Outcome.bind_ok analysed
  obtain ⟨es₁, replays₁, stdout₁, vJmp₁⟩ := onePath_output first
  have idle : s₁.vJmp = [] := by
    rw [vJmp₁, List.flatMap_eq_nil_iff.mpr fun e _ => Execution.recorded_idle (o := argv.options 1) rfl e]
    rfl
  refine ⟨rfl, file₁, s₁, e₁, es₁, opened₁, first, replays₁, ?_⟩
  cases second : argv.second with
  | none =>
    rw [second] at analysed
    cases analysed
    apply Or.inl
    refine ⟨rfl, ?_⟩
    rw [result_stdout, stdout₁, List.nil_append]
  | some path =>
    rw [second] at analysed
    obtain ⟨file₂, opened₂, analysed⟩ := Outcome.bind_ok analysed
    obtain ⟨⟨s₂, e₂⟩, later, analysed⟩ := Outcome.bind_ok analysed
    obtain ⟨es₂, replays₂, stdout₂, vJmp₂⟩ := onePath_output later
    obtain ⟨c, found, analysed⟩ := Outcome.bind_ok analysed
    cases analysed
    have recorded : s₂.vJmp = es₂.flatMap (Execution.recorded (argv.options 2)) := by
      rw [vJmp₂, State.print, idle, List.nil_append]
    obtain ⟨others, entries⟩ : ∃ others, s₂.vJmp = c :: others := by
      rw [State.print] at found
      cases entries : s₂.vJmp with
      | nil =>
        rw [entries] at found
        cases found
      | cons head others =>
        rw [entries] at found
        cases found
        exact ⟨others, rfl⟩
    refine Or.inr ⟨path, file₂, s₂, e₂, es₂, c, others, rfl, opened₂, later, replays₂, ?_, entries,
      List.flatMap_eq_nil_iff.mpr fun e _ => e.lines_second argv, ?_⟩
    · rw [← recorded, entries]
    · rw [result_stdout]
      simp only [State.print, stdout₂, stdout₁, List.nil_append]

open Reference

/-- The small engine finds no models, so that it has no markers to print. -/
theorem markerLines_engine (ctx : engine.Ctx) (flag : Register) (message : String) :
    markerLines ctx flag message = [] := ite_self []

theorem transcript_unmarked {lines : Execution engine → List String} {es : List (Execution engine)} {n : Nat}
    (unmarked : ∀ e, lines e = []) (length : es.length = n + 1) :
    transcript lines es = ["[+] Replaying the VMP trace", "[+] Symbolize inputs",
      "[+] Instruction executed: " ++ toString (n + 1), "[+] Emulation done"] := by
  have silent : es.flatMap lines = [] := List.flatMap_eq_nil_iff.mpr fun e _ => unmarked e
  cases es with
  | nil => cases length
  | cons e es =>
    rw [transcript, silent, length]
    rfl

theorem replayLines_engine (o : Options) {es : List (Execution engine)} {n : Nat} (length : es.length = n + 1) :
    replayLines o es = ["[+] Replaying the VMP trace", "[+] Symbolize inputs",
      "[+] Instruction executed: " ++ toString (n + 1), "[+] Emulation done"] :=
  transcript_unmarked (fun e => by simp only [Execution.lines, markerLines_engine, ite_self, List.append_nil]) length

set_option maxRecDepth 10000 in
/-- The transcript for the two-path function: three instructions on either path, and the
larger one of the second call's arguments. -/
theorem main_output_max :
    main engine (tracedFiles (trace maxProgram 10 (twoArguments 5 3)) (trace maxProgram 10 (twoArguments 3 5)))
      "attack_vmp.py" (request (some 0x401000)) = .ok (0,
        ["[+] Replaying the VMP trace", "[+] Symbolize inputs",
         "[+] Instruction executed: " ++ toString 3, "[+] Emulation done",
         "[+] A second trace has been provided",
         "[+] Replaying the VMP trace", "[+] Symbolize inputs",
         "[+] Instruction executed: " ++ toString 3, "[+] Emulation done",
         "[+] Merging expressions from trace1 and trace2",
         "[+] Return value: " ++ hex 5, "[+] Devirt expr: " ++ excerpt "" "",
         "[+] Synth expr: " ++ excerpt "None" "" ++ "\n",
         "[+] LLVM IR ==============================\n", "",
         "[+] EOF LLVM IR ============================== "]) := by
  let r := maxReplays
  have recorded : r.l₂.state.vJmp.length = 1 := by decide +kernel
  obtain ⟨c, rest, vJmp⟩ := List.exists_cons_of_length_eq_add_one recorded
  have value : ∀ d ∈ r.l₂.state.vJmp.head?, engine.evaluate r.l₂.finish.ctx (engine.ite d
      (engine.getRegisterAst r.l₂.state.ctx .eax) (engine.getRegisterAst r.l₁.state.ctx .eax)) = 5 := by
    decide +kernel
  have ran : ∃ lines, main engine (tracedFiles (trace maxProgram 10 (twoArguments 5 3))
      (trace maxProgram 10 (twoArguments 3 5))) "attack_vmp.py" (request (some 0x401000)) = .ok (0, lines) := by
    have merged := r.merge_eq
    rw [vJmp] at merged
    rw [main, show refusal "attack_vmp.py" (request (some 0x401000)) = none from rfl, analysis, merged]
    exact ⟨_, rfl⟩
  obtain ⟨lines, ran⟩ := ran
  rw [ran]
  obtain ⟨-, file₁, s₁, e₁, es₁, opened₁, first, replays₁, shape⟩ := main_output rfl ran
  obtain rfl := Except.ok.inj (r.first.symm.trans opened₁)
  rw [onePath_log _ _ r.sized₁, r.run₁] at first
  cases first
  obtain ⟨alone, -⟩ | ⟨path, file₂, s₂, e₂, es₂, d, later, named, opened₂, second, replays₂, -, entries, -,
    printed⟩ := shape
  · cases alone
  cases named
  obtain rfl := Except.ok.inj (r.second.symm.trans opened₂)
  rw [onePath_log _ _ r.sized₂, r.run₂] at second
  cases second
  have known : d ∈ r.l₂.state.vJmp.head? := by
    rw [show r.l₂.state.vJmp = d :: later from entries]
    rfl
  have count₁ : (readLines (log r.calls₁)).countP isInstructionLine = 3 := by decide +kernel
  have count₂ : (readLines (log r.calls₂)).countP isInstructionLine = 3 := by decide +kernel
  rw [printed, replayLines_engine _ (replays₁.length.trans count₁), replayLines_engine _ (replays₂.length.trans count₂)]
  simp only [resultLines, value d known]
  rfl

end Devirt.Attack
