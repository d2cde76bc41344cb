import Devirt.Attack.Output
import Devirt.Attack.Seeding

/-! The symbolic variables of a request. Whatever its files hold, the inputs are created
at the first instruction of all, and from then on they are the only variables. -/
namespace Devirt.Attack
open Python (PyError)

variable {T : Triton}

section
variable (keeps : T.KeepsVariables)
include keeps

theorem syncOneReg_variables {ctx ctx' : T.Ctx} {reg : Gpr} {field : Text}
    (synced : syncOneReg ctx reg field = .ok ctx') :
    T.getSymbolicVariables ctx' = T.getSymbolicVariables ctx := by
  obtain ⟨value, _, synced⟩ := Outcome.bind_ok synced
  split at synced
  · obtain ⟨n, _, synced⟩ := Outcome.bind_ok synced
    exact keeps.register (native_ok synced)
  · cases synced
    rfl

theorem syncReg_variables {ctx ctx' : T.Ctx} {regs : List Text} (synced : syncReg ctx regs = .ok ctx') :
    T.getSymbolicVariables ctx' = T.getSymbolicVariables ctx := by
  obtain ⟨mapped, _, synced⟩ := Outcome.bind_ok synced
  exact Outcome.foldlM_invariant
    (P := fun _ now => T.getSymbolicVariables now = T.getSymbolicVariables ctx)
    (fun same step => (syncOneReg_variables keeps step).trans same) rfl synced

theorem syncMemory_variables {ctx ctx' : T.Ctx} {args : List Text} (synced : syncMemory ctx args = .ok ctx') :
    T.getSymbolicVariables ctx' = T.getSymbolicVariables ctx := by
  unfold syncMemory at synced
  split at synced
  · obtain ⟨_, _, synced⟩ := Outcome.bind_ok synced
    obtain ⟨addr, _, synced⟩ := Outcome.bind_ok synced
    obtain ⟨_, _, synced⟩ := Outcome.bind_ok synced
    obtain ⟨size, _, synced⟩ := Outcome.bind_ok synced
    obtain ⟨_, _, synced⟩ := Outcome.bind_ok synced
    obtain ⟨_, _, synced⟩ := Outcome.bind_ok synced
    split at synced
    · obtain ⟨n, _, synced⟩ := Outcome.bind_ok synced
      exact keeps.memory (native_ok synced)
    · cases synced
      rfl
  · cases synced

variable (lawful : T.Lawful) {o : Options} (symsized : AccessSize o.symsize)
include lawful

/-- The second replay sets the inputs and makes none. -/
theorem updateSymVar_variables {ctx ctx' : T.Ctx} (updated : updateSymVar ctx = .ok ctx') :
    T.getSymbolicVariables ctx' = T.getSymbolicVariables ctx := by
  unfold updateSymVar at updated
  obtain ⟨x, _, updated⟩ := Outcome.bind_ok updated
  obtain ⟨y, _, updated⟩ := Outcome.bind_ok updated
  obtain ⟨ctxX, setX, updated⟩ := Outcome.bind_ok updated
  obtain ⟨ctxY, setY, updated⟩ := Outcome.bind_ok updated
  obtain ⟨assigned, first, updated⟩ := Outcome.bind_ok updated
  rw [keeps.assign (native_ok updated), (lawful.newSymbolicExpression _ _).2.2.1,
    keeps.assign (native_ok first), (lawful.newSymbolicExpression _ _).2.2.1, keeps.input (native_ok setY),
    keeps.input (native_ok setX)]

include symsized

/-- Where there are no variables the fuse makes the inputs, else it leaves them alone. -/
theorem seedInputs_variables {ctx ctx' : T.Ctx}
    (known : T.getSymbolicVariables ctx = [] ∨ T.getSymbolicVariables ctx = inputVariables o.symsize)
    (seeds : seedInputs o.symsize ctx = .ok ctx') : T.getSymbolicVariables ctx' = inputVariables o.symsize := by
  rcases known with unseeded | seeded
  · obtain ⟨made, seeds', seeded⟩ := seedInputs_fresh lawful ctx symsized unseeded
    cases seeds.symm.trans seeds'
    exact seeded.inputs
  · have two : ¬ (T.getSymbolicVariables ctx).length = 0 := by
      rw [seeded]
      exact Nat.succ_ne_zero 1
    rw [seedInputs, if_neg two] at seeds
    exact (updateSymVar_variables keeps lawful seeds).trans seeded

end

/-- The variables of the line loop, where `before` are those it started with. -/
structure Once (symsize : Nat) (before : List SymVar) (l : Loop T) : Prop where
  unburnt : l.fuse = true → T.getSymbolicVariables l.state.ctx = before
  burnt : l.fuse = false → T.getSymbolicVariables l.state.ctx = inputVariables symsize

theorem Once.syncs {symsize : Nat} {before : List SymVar} {l : Loop T} (once : Once symsize before l) {ctx : T.Ctx}
    (same : T.getSymbolicVariables ctx = T.getSymbolicVariables l.state.ctx) :
    Once symsize before (l.withCtx ctx) := by
  constructor
  · exact fun fuse => same.trans (once.unburnt fuse)
  · exact fun fuse => same.trans (once.burnt fuse)

section
variable (keeps : T.KeepsVariables) (lawful : T.Lawful) {o : Options} (symsized : AccessSize o.symsize)
  {before : List SymVar} {l l' : Loop T}
include keeps lawful symsized

theorem Once.executes (known : before = [] ∨ before = inputVariables o.symsize)
    (once : Once o.symsize before l) {args : List Text} {result : State T × Bool}
    (ran : execInstruction o l.state args l.fuse = .ok result) :
    Once o.symsize before { state := result.1, fuse := result.2, count := l.count + 1 } := by
  unfold execInstruction at ran
  split at ran
  · obtain ⟨s, burnt, ran⟩ := Outcome.bind_ok ran
    obtain ⟨_, _, ran⟩ := Outcome.bind_ok ran
    obtain ⟨addr, _, ran⟩ := Outcome.bind_ok ran
    obtain ⟨bytes, _, ran⟩ := Outcome.bind_ok ran
    obtain ⟨s', processed, ran⟩ := Outcome.bind_ok ran
    cases ran
    have seeded : T.getSymbolicVariables s.ctx = inputVariables o.symsize := by
      cases fuse : l.fuse with
      | false =>
        rw [fuse] at burnt
        cases burnt
        exact once.burnt fuse
      | true =>
        rw [fuse] at burnt
        obtain ⟨ctx, seeds, burnt⟩ := Outcome.bind_ok burnt
        cases burnt
        have unburnt := once.unburnt fuse
        rw [← unburnt] at known
        exact seedInputs_variables keeps lawful symsized known seeds
    constructor
    · exact fun fuse => absurd fuse Bool.false_ne_true
    · intro _
      rw [show s'.ctx = _ from (detectingVjmp_ok (process_ok processed).2).1]
      exact (keeps.processing _ _).trans seeded
  · cases ran

theorem Once.line (known : before = [] ∨ before = inputVariables o.symsize)
    (once : Once o.symsize before l) {line : Text} (ran : emulateLine o l line = .ok l') :
    Once o.symsize before l' := by
  cases fields : Python.split ':' line with
  | nil => exact absurd fields (List.splitOn_ne_nil _ _)
  | cons kind rest =>
    by_cases memread : kind = ['m', 'r']
    · subst kind
      rw [emulateLine_memread o l fields] at ran
      obtain ⟨ctx, synced, ran⟩ := Outcome.bind_ok ran
      cases ran
      exact once.syncs (syncMemory_variables keeps synced)
    by_cases register : kind = ['r']
    · subst kind
      rw [emulateLine_register o l fields] at ran
      obtain ⟨ctx, synced, ran⟩ := Outcome.bind_ok ran
      cases ran
      exact once.syncs (syncReg_variables keeps synced)
    by_cases instruction : kind = ['i']
    · subst kind
      rw [emulateLine_instruction o l fields] at ran
      obtain ⟨result, executed, ran⟩ := Outcome.bind_ok ran
      cases ran
      exact once.executes keeps lawful symsized known executed
    · rw [emulateLine_other o l fields memread register instruction] at ran
      cases ran
      exact once

/-- A replay leaves the inputs behind if it executes something, else what it found. -/
theorem onePath_variables {s s' : State T} {file : Text} {e : T.Ast}
    (known : T.getSymbolicVariables s.ctx = [] ∨ T.getSymbolicVariables s.ctx = inputVariables o.symsize)
    (ran : onePath o s file = .ok (s', e)) :
    T.getSymbolicVariables s'.ctx = if (readLines file).any isInstructionLine then inputVariables o.symsize
      else T.getSymbolicVariables s.ctx := by
  obtain ⟨u, emulated, ran⟩ := Outcome.bind_ok ran
  cases ran
  obtain ⟨l, looped, emulated⟩ := Outcome.bind_ok emulated
  cases emulated
  have once : Once o.symsize (T.getSymbolicVariables s.ctx) l :=
    Outcome.foldlM_invariant (P := fun _ l => Once o.symsize (T.getSymbolicVariables s.ctx) l)
      (fun once step => once.line keeps lawful symsized known step)
      ⟨fun _ => rfl, fun burnt => absurd burnt.symm Bool.false_ne_true⟩ looped
  obtain ⟨ds, decoded, run⟩ := emulateLines_decodes looped
  have prints := executions_print (l := Loop.start s) run
  have length := executions_length (l := Loop.start s) run
  rw [decoded_instructions decoded] at length
  by_cases executed : (readLines file).any isInstructionLine = true
  · rw [if_pos executed]
    apply once.burnt
    rw [prints.fuse, Bool.and_eq_false_iff, List.isEmpty_eq_false_iff, ← List.length_pos_iff, length,
      List.countP_pos_iff]
    exact Or.inr (List.any_eq_true.mp executed)
  · rw [if_neg executed]
    apply once.unburnt
    rw [prints.fuse, Bool.and_eq_true, List.isEmpty_iff, ← List.length_eq_zero_iff, length, List.countP_eq_zero]
    exact ⟨rfl, by simpa using executed⟩

end

/-- Some file of the request has an `i` line. -/
def executes (files : Files) (argv : Argv) : Bool :=
  ((argv.trace1.getD "" :: argv.second.toList).filterMap files).any fun file =>
    (readLines file).any isInstructionLine

theorem openFile_ok {files : Files} {path : String} {file : Text} (opened : openFile files path = .ok file) :
    files path = some file := by
  unfold openFile at opened
  split at opened
  · cases opened
    assumption
  · cases opened

/-- Whatever the files of a request hold, its replays leave exactly the two inputs behind,
or nothing where there is no instruction in them. -/
theorem analysis_variables (keeps : T.KeepsVariables) (lawful : T.Lawful) {files : Files} {argv : Argv}
    (symsized : AccessSize (argv.options 1).symsize) {stdout : List String} {s : State T} {e : T.Ast}
    (ran : analysisExpr T files argv stdout = .ok (s, e)) :
    T.getSymbolicVariables s.ctx =
      if executes files argv then inputVariables (argv.options 1).symsize else [] := by
  have unseeded := (fresh_view (s := { ctx := setMode T.new, vJmp := [], stdout := stdout }) lawful rfl).2.2
  obtain ⟨file₁, opened₁, ran⟩ := Outcome.bind_ok ran
  obtain ⟨⟨s₁, e₁⟩, first, ran⟩ := Outcome.bind_ok ran
  have made := onePath_variables keeps lawful symsized (Or.inl unseeded) first
  rw [unseeded] at made
  cases second : argv.second with
  | none =>
    rw [second] at ran
    cases ran
    simp only [made, executes, second, Option.toList_none, List.filterMap_cons, openFile_ok opened₁,
      List.filterMap_nil, List.any_cons, List.any_nil, Bool.or_false]
  | some path =>
    rw [second] at ran
    obtain ⟨file₂, opened₂, ran⟩ := Outcome.bind_ok ran
    obtain ⟨⟨s₂, e₂⟩, later, ran⟩ := Outcome.bind_ok ran
    obtain ⟨condition, _, ran⟩ := Outcome.bind_ok ran
    cases ran
    have known : T.getSymbolicVariables s₁.ctx = [] ∨
        T.getSymbolicVariables s₁.ctx = inputVariables (argv.options 2).symsize := by
      rw [made]
      split
      · exact Or.inr rfl
      · exact Or.inl rfl
    have symsized₂ : AccessSize (argv.options 2).symsize := symsized
    have kept := onePath_variables keeps lawful symsized₂ (s := s₁.print "[+] A second trace has been provided")
      known later
    have size : (argv.options 2).symsize = (argv.options 1).symsize := rfl
    simp only [State.print] at kept ⊢
    rw [kept, made, size]
    simp only [executes, second, Option.toList_some, List.filterMap_cons, openFile_ok opened₁, openFile_ok opened₂,
      List.filterMap_nil, List.any_cons, List.any_nil, Bool.or_false]
    cases (readLines file₁).any isInstructionLine <;> cases (readLines file₂).any isInstructionLine <;> rfl

open Reference in
set_option maxRecDepth 10000 in
/-- Two traced calls leave the two inputs of four bytes behind that the first one made. -/
theorem analysis_variables_max :
    let files := tracedFiles (trace maxProgram 10 (twoArguments 5 3)) (trace maxProgram 10 (twoArguments 3 5))
    ∃ s e, analysisExpr engine files (request (some 0x401000)) [] = .ok (s, e) ∧
      engine.getSymbolicVariables s.ctx = [⟨0, 32, .rdi⟩, ⟨1, 32, .rsi⟩] := by
  intro files
  have ok : Outcome.isOk (analysisExpr engine files (request (some 0x401000)) []) = true := by decide +kernel
  have executed : executes files (request (some 0x401000)) = true := by decide +kernel
  obtain ⟨⟨s, e⟩, ran⟩ : ∃ r, analysisExpr engine files (request (some 0x401000)) [] = .ok r :=
    ⟨_, Outcome.get_spec ok⟩
  have inputs := analysis_variables engine_keepsVariables engine_lawful (by decide) ran
  rw [executed] at inputs
  exact ⟨s, e, ran, inputs⟩

end Devirt.Attack
