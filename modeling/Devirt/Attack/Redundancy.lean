import Devirt.Attack.Prediction

/-! Which lines of a log are needed. Where `processing` emulates the traced machine, every
register line after the first one compares sixteen equal values and does nothing: a file
that lacks some of them is replayed to the same end. -/
namespace Devirt.Attack
open Tracer Concolic
open Python (PyError)

variable {T : Triton} {M : Machine}

def isRegisterLine (line : Text) : Bool := (Python.split ':' line).headD [] = ['r']

/-- Some register lines are missing, but not the first; `seen` tells whether it is among
the lines before. -/
inductive Thins : Bool → List Text → List Text → Prop
  | done (seen : Bool) : Thins seen [] []
  | keep {seen line rest rest'} (thins : Thins (seen || isRegisterLine line) rest rest') :
      Thins seen (line :: rest) (line :: rest')
  | drop {line rest rest'} (register : isRegisterLine line = true) (thins : Thins true rest rest') :
      Thins true (line :: rest) rest'

/-- Other lines are all there. -/
theorem Thins.append {first rest lines : List Text} {seen : Bool}
    (others : ∀ line ∈ first, isRegisterLine line = false) (thins : Thins seen (first ++ rest) lines) :
    ∃ rest', lines = first ++ rest' ∧ Thins seen rest rest' := by
  induction first generalizing lines with
  | nil => exact ⟨lines, rfl, thins⟩
  | cons line first ih =>
    rw [List.forall_mem_cons] at others
    cases thins with
    | keep thins =>
      rw [others.1, Bool.or_false] at thins
      obtain ⟨rest', rfl, later⟩ := ih others.2 thins
      exact ⟨rest', rfl, later⟩
    | drop register _ =>
      rw [others.1] at register
      cases register

theorem isRegisterLine_inst (upper : Bool) (addr : BitVec 64) (opcode : List (BitVec 8)) :
    isRegisterLine (line (instFields upper addr opcode)) = false := by
  rw [isRegisterLine, (instFields_closed upper addr opcode).split]
  rfl

theorem isRegisterLine_register (upper : Bool) (regs : Gpr → BitVec 64) :
    isRegisterLine (line (registerFields upper regs)) = true := by
  rw [isRegisterLine, (registerFields_closed upper regs).split]
  rfl

theorem isRegisterLine_memreads {reads : List Callback} {i : Instruction} {s : M.State}
    (reports : M.Reports i s reads) :
    ∀ text ∈ reads.flatMap (Callback.lines false), isRegisterLine text = false := by
  intro text member
  obtain ⟨call, read, inside⟩ := List.mem_flatMap.mp member
  obtain ⟨addr, size, _, rfl⟩ := reports.memreads call read
  rw [List.mem_singleton.mp inside, isRegisterLine, (memreadFields_closed false addr size (M.memory s)).split]
  rfl

theorem memreads_sized {reads : List Callback} {i : Instruction} {s : M.State} (reports : M.Reports i s reads) :
    ∀ call ∈ reads, call.Sized := by
  intro call member
  obtain ⟨addr, size, sized, rfl⟩ := reports.memreads call member
  exact sized

theorem lines_instruction (reads : List Callback) (i : Instruction) (s : M.State) (calls : List Callback) :
    (reads ++ M.record i s :: calls).flatMap (Callback.lines false) =
      reads.flatMap (Callback.lines false) ++ line (registerFields false (shownRegister M s)) ::
        line (instFields false (BitVec.ofNat 64 i.address) i.opcode) :: calls.flatMap (Callback.lines false) := by
  rw [List.flatMap_append]
  rfl

theorem Thins.inst {seen : Bool} {addr : BitVec 64} {opcode : List (BitVec 8)} {rest lines : List Text}
    (thins : Thins seen (line (instFields false addr opcode) :: rest) lines) :
    ∃ rest', lines = line (instFields false addr opcode) :: rest' ∧ Thins seen rest rest' := by
  have kept : ∀ text ∈ [line (instFields false addr opcode)], isRegisterLine text = false := by
    rw [List.forall_mem_singleton]
    exact isRegisterLine_inst false addr opcode
  exact Thins.append kept thins

/-- What is left of the lines of an instruction after the first one. -/
theorem Thins.instruction {reads : List Callback} {i : Instruction} {s : M.State} (reports : M.Reports i s reads)
    {calls : List Callback} {lines : List Text}
    (thins : Thins true ((reads ++ M.record i s :: calls).flatMap (Callback.lines false)) lines) :
    ∃ registers rest, lines = reads.flatMap (Callback.lines false) ++
        (registers ++ line (instFields false (BitVec.ofNat 64 i.address) i.opcode) :: rest) ∧
      (registers = [] ∨ registers = [line (registerFields false (shownRegister M s))]) ∧
      Thins true (calls.flatMap (Callback.lines false)) rest := by
  rw [lines_instruction] at thins
  obtain ⟨rest, rfl, records⟩ := thins.append (isRegisterLine_memreads reports)
  cases records with
  | keep onwards =>
    obtain ⟨rest', rfl, later⟩ := onwards.inst
    exact ⟨[line (registerFields false (shownRegister M s))], rest', rfl, Or.inr rfl, later⟩
  | drop _ onwards =>
    obtain ⟨rest', rfl, later⟩ := onwards.inst
    exact ⟨[], rest', rfl, Or.inl rfl, later⟩

/-- The lines of the first instruction are all there. -/
theorem Thins.first {reads : List Callback} {i : Instruction} {s : M.State} (reports : M.Reports i s reads)
    {calls : List Callback} {lines : List Text}
    (thins : Thins false ((reads ++ M.record i s :: calls).flatMap (Callback.lines false)) lines) :
    ∃ rest, lines = (reads ++ [M.record i s]).flatMap (Callback.lines false) ++ rest ∧
      Thins true (calls.flatMap (Callback.lines false)) rest := by
  rw [lines_instruction] at thins
  obtain ⟨rest, rfl, records⟩ := thins.append (isRegisterLine_memreads reports)
  cases records with
  | keep onwards =>
    rw [isRegisterLine_register, Bool.or_true] at onwards
    obtain ⟨rest', rfl, later⟩ := onwards.inst
    refine ⟨rest', ?_, later⟩
    rw [List.flatMap_append, List.append_assoc]
    rfl

/-- The loop over the lines of some callbacks. -/
theorem emulateLines_calls (o : Options) (l : Loop T) {calls : List Callback}
    (sized : ∀ call ∈ calls, call.Sized) :
    emulateLines o l (calls.flatMap (Callback.lines false)) = replay o l calls := by
  rw [← readLines_log]
  exact emulateLines_log o l sized

/-- A replay is its loop over the lines of the file. -/
theorem onePath_lines (o : Options) (u : State T) (file : Text) :
    onePath o u file = emulateLines o (Loop.start u) (readLines file) >>= fun l =>
      .ok (l.finish, T.getRegisterAst l.state.ctx .eax) := by
  simp only [onePath, emulate, Loop.start, Loop.fresh]
  generalize emulateLines o _ (readLines file) = looped
  cases looped <;> rfl

theorem emulateLine_record (o : Options) (l : Loop T) (regs : Gpr → BitVec 64) :
    emulateLine o l (line (registerFields false regs)) =
      Dispatch.run o l (.syncReg (Gpr.all.map fun reg => (regs reg).toNat)) :=
  emulateLine_of_decoded o l (decodeLine_register false regs)

theorem emulateLine_inst (o : Options) (l : Loop T) (addr : BitVec 64) (opcode : List (BitVec 8)) :
    emulateLine o l (line (instFields false addr opcode)) = Dispatch.run o l (.instruction ⟨addr.toNat, opcode⟩) :=
  emulateLine_of_decoded o l (decodeLine_inst false addr opcode)

theorem replay_record {o : Options} {l middle next : Loop T} {regs : Gpr → BitVec 64} {addr : BitVec 64}
    {opcode : List (BitVec 8)}
    (synced : Dispatch.run o l (.syncReg (Gpr.all.map fun reg => (regs reg).toNat)) = .ok middle)
    (executed : Dispatch.run o middle (.instruction ⟨addr.toNat, opcode⟩) = .ok next) :
    replay o l [.inst regs addr opcode] = .ok next := by
  simp only [replay_singleton, Callback.dispatches, List.foldlM_cons, List.foldlM_nil, synced, bind, Except.bind,
    executed]
  rfl

theorem recorded_columns (regs : Gpr → BitVec 64) :
    (mapping.map Prod.fst).zip (Gpr.all.map fun reg => (regs reg).toNat) =
      Gpr.all.map fun reg => (reg, (regs reg).toNat) := by
  rw [mapping_registers, List.zip_map_right, List.zip_eq_zipWith, List.zipWith_self, List.map_map]
  rfl

section
variable (lawful : T.Lawful) {o : Options}
include lawful

/-- A register record of the values that the context holds does nothing. -/
theorem register_idle (l : Loop T) {regs : Gpr → BitVec 64}
    (shown : ∀ reg, (T.view l.state.ctx).conc (.gpr reg) = (regs reg).toNat) :
    Dispatch.run o l (.syncReg (Gpr.all.map fun reg => (regs reg).toNat)) = .ok l := by
  have one : ∀ reg, syncOneValue l.state.ctx reg (regs reg).toNat = .ok l.state.ctx := by
    intro reg
    have current : T.getConcreteRegisterValue l.state.ctx (.full reg) = (regs reg).toNat := by
      rw [lawful.getConcreteRegisterValue, ← shown reg]
      exact Nat.mod_eq_of_lt (lawful.gpr_lt l.state.ctx reg)
    rw [syncOneValue, if_neg (not_not_intro current)]
    rfl
  have all : ∀ list : List Gpr, syncValues l.state.ctx (list.map fun reg => (reg, (regs reg).toNat)) =
      .ok l.state.ctx := by
    intro list
    induction list with
    | nil => rfl
    | cons reg rest ih =>
      simp only [syncValues, List.map_cons, List.foldlM_cons, one] at ih ⊢
      exact ih
  simp only [Dispatch.run, recorded_columns, all]
  rfl

variable (inputs : ∀ ctx i, T.SameInputs ctx (T.processing ctx i).1) (sound : T.Sound M) (emulates : T.Emulates M)
include inputs sound emulates

/-- From the second instruction on, every register line may be missing. -/
theorem run_thinned {is : List Instruction} {s₀ t₀ : M.State} {calls : List Callback}
    (logged : M.Logged is s₀ calls t₀) {l : Loop T} {seen written : Set Cell}
    (flags : M.FlagsWritten written is s₀) (known : written ⊆ seen) (fuse : l.fuse = false)
    (registers : ∀ reg, Cell.gpr reg ∈ seen) (shadows : Shadows seen (T.view l.state.ctx) (M.cell s₀))
    {lines : List Text} (thins : Thins true (calls.flatMap (Callback.lines false)) lines) :
    emulateLines o l lines = emulateLines o l (calls.flatMap (Callback.lines false)) := by
  induction logged generalizing l seen written lines with
  | done s =>
    cases thins
    rfl
  | @next i is s₀ s₀' t₀ reads calls reports address stepped rest ih =>
    obtain ⟨kept, later, rfl, choice, thinned⟩ := thins.instruction reports
    let record := line (registerFields false (shownRegister M s₀))
    let inst := line (instFields false (BitVec.ofNat 64 i.address) i.opcode)
    rw [lines_instruction, emulateLines_append, emulateLines_append,
      emulateLines_calls o l (memreads_sized reports)]
    cases first : replay o l reads with
    | error e => rfl
    | ok middle =>
      obtain ⟨ctx, rfl, -, -, recorded, -⟩ := memreads_shadow lawful reports.memreads first shadows
      have idle : Dispatch.run o (l.withCtx ctx)
          (.syncReg (Gpr.all.map fun reg => (shownRegister M s₀ reg).toNat)) = .ok (l.withCtx ctx) := by
        apply register_idle lawful
        intro reg
        rw [shownRegister_toNat]
        exact recorded _ (Or.inl (registers reg))
      have skipped : ∀ tail,
          emulateLines o (l.withCtx ctx) (record :: tail) = emulateLines o (l.withCtx ctx) tail := by
        intro tail
        rw [emulateLines, List.foldlM_cons, (emulateLine_record o _ _).trans idle]
        rfl
      have here : emulateLines o (l.withCtx ctx) (kept ++ inst :: later) =
          emulateLines o (l.withCtx ctx) (inst :: later) := by
        rcases choice with rfl | rfl
        · rfl
        · exact skipped _
      show emulateLines o (l.withCtx ctx) (kept ++ inst :: later) =
        emulateLines o (l.withCtx ctx) (record :: inst :: calls.flatMap (Callback.lines false))
      rw [here, skipped, emulateLines, emulateLines, List.foldlM_cons, List.foldlM_cons]
      cases executed : emulateLine o (l.withCtx ctx) inst with
      | error e => rfl
      | ok next =>
        have ran : replay o l (reads ++ [M.record i s₀]) = .ok next := by
          rw [replay_append_ok first]
          exact replay_record idle ((emulateLine_inst o _ _ _).symm.trans executed)
        obtain ⟨done, -, after, -⟩ := instruction_shadows lawful inputs sound emulates reports address stepped
          flags.1 known fuse registers shadows ran
        have grown : seen ⊆ seenAfter M i s₀ reads seen := fun c member => Or.inl (Or.inl (Or.inl member))
        apply ih (flags.2 _ stepped) ?_ done (fun reg => grown (registers reg)) after thinned
        exact Set.union_subset_union_left _ fun c member => Or.inl (Or.inl (known member))

variable (symsized : AccessSize o.symsize)
include symsized

theorem log_thinned {i : Instruction} {is : List Instruction} {s₀ t₀ : M.State} {calls : List Callback}
    (logged : M.Logged (i :: is) s₀ calls t₀) (flags : M.FlagsWritten ∅ (i :: is) s₀) {l : Loop T}
    (fuse : l.fuse = true) (prepared : Prepared T o l.state.ctx calls) {lines : List Text}
    (thins : Thins false (calls.flatMap (Callback.lines false)) lines) :
    emulateLines o l lines = emulateLines o l (calls.flatMap (Callback.lines false)) := by
  cases logged with
  | @next _ _ _ s₀' _ reads calls reports address stepped rest =>
    obtain ⟨later, rfl, thinned⟩ := thins.first reports
    have sized : ∀ call ∈ reads ++ [M.record i s₀], call.Sized := by
      intro call member
      rw [List.mem_append, List.mem_singleton] at member
      rcases member with member | rfl
      · exact memreads_sized reports call member
      · trivial
    have split : (reads ++ M.record i s₀ :: calls).flatMap (Callback.lines false) =
        (reads ++ [M.record i s₀]).flatMap (Callback.lines false) ++ calls.flatMap (Callback.lines false) := by
      rw [← List.flatMap_append, List.append_assoc, List.singleton_append]
    rw [split, emulateLines_append, emulateLines_append, emulateLines_calls o l sized]
    cases first : replay o l (reads ++ [M.record i s₀]) with
    | error e => rfl
    | ok next =>
      obtain ⟨done, -, -, after, -⟩ := first_shadows lawful inputs sound emulates symsized reports address stepped
        (fun f member => Set.notMem_empty _ (flags.1 f member)) fuse prepared first
      apply run_thinned lawful inputs sound emulates rest (flags.2 _ stepped) ?_ done ?_ after thinned
      · exact Set.union_subset (Set.empty_subset _) Set.subset_union_right
      · exact fun reg => Or.inl (Or.inr (List.mem_map_of_mem (Gpr.mem_all reg)))

theorem onePath_thinned {i : Instruction} {is : List Instruction} {s₀ t₀ : M.State} {calls : List Callback}
    (logged : M.Logged (i :: is) s₀ calls t₀) (flags : M.FlagsWritten ∅ (i :: is) s₀) {u : State T}
    (prepared : Prepared T o u.ctx calls) {file : Text}
    (thins : Thins false (readLines (log calls)) (readLines file)) :
    onePath o u file = onePath o u (log calls) := by
  rw [readLines_log] at thins
  rw [onePath_lines, onePath_lines, readLines_log,
    log_thinned lawful inputs sound emulates symsized logged flags rfl prepared thins]

end

variable (M) in
/-- Two collections of files: where one has the complete log of a run, the other one has
what is left of it without some register lines. -/
structure Thinned (files files' : Files) (path : String) (calls : List Callback) : Prop where
  logged : ∃ i is s t, M.Logged (i :: is) s calls t ∧ M.FlagsWritten ∅ (i :: is) s
  opened : openFile files path = .ok (log calls)
  thins : ∃ file, openFile files' path = .ok file ∧ Thins false (readLines (log calls)) (readLines file)

section
variable (lawful : T.Lawful) (inputs : ∀ ctx i, T.SameInputs ctx (T.processing ctx i).1) (sound : T.Sound M)
  (emulates : T.Emulates M)
include lawful inputs sound emulates

/-- After the first replay of a complete log the inputs exist. -/
theorem onePath_known {o : Options} (symsized : AccessSize o.symsize) {i : Instruction} {is : List Instruction}
    {s₀ t₀ : M.State} {calls : List Callback} (logged : M.Logged (i :: is) s₀ calls t₀)
    (flags : M.FlagsWritten ∅ (i :: is) s₀) {u u' : State T} {e : T.Ast} (prepared : Prepared T o u.ctx calls)
    (ran : onePath o u (log calls) = .ok (u', e)) : T.getSymbolicVariables u'.ctx = inputVariables o.symsize := by
  rw [onePath_log o u (Machine.Logged.sized logged)] at ran
  obtain ⟨l, run, ran⟩ := Outcome.bind_ok ran
  cases ran
  exact (log_carried lawful inputs sound emulates symsized logged flags (l := Loop.start u) rfl prepared run).known

/-- The whole script on thinned files: it prints and returns what it does on the full logs. -/
theorem main_thinned {files files' : Files} {argv0 : String} {argv : Argv}
    (symsized : AccessSize (argv.options 1).symsize) {calls₁ : List Callback}
    (first : Thinned M files files' (argv.trace1.getD "") calls₁)
    (second : ∀ path, argv.second = some path →
      ∃ calls₂, Thinned M files files' path calls₂ ∧ ArgumentsFit (argv.options 2) calls₂) :
    main T files' argv0 argv = main T files argv0 argv := by
  let u : State T := { ctx := setMode T.new, vJmp := [], stdout := [] }
  obtain ⟨⟨i₁, is₁, s₁, t₁, logged₁, flags₁⟩, opened₁, file₁, opened₁', thins₁⟩ := first
  have fresh := fresh_view (s := u) lawful rfl
  have prepared₁ : Prepared T (argv.options 1) u.ctx calls₁ := Or.inl ⟨fresh.2.2, fresh.2.1⟩
  have same₁ := onePath_thinned lawful inputs sound emulates symsized logged₁ flags₁ (u := u) prepared₁ thins₁
  have analysed : analysisExpr T files' argv [] = analysisExpr T files argv [] := by
    simp only [analysisExpr, opened₁, opened₁', bind, Except.bind]
    rw [show onePath (argv.options 1) { ctx := setMode T.new, vJmp := [], stdout := [] } file₁ = _ from same₁]
    cases ran : onePath (argv.options 1) u (log calls₁) with
    | error e => rfl
    | ok r =>
      obtain ⟨v, e₁⟩ := r
      cases named : argv.second with
      | none => rfl
      | some path =>
        obtain ⟨calls₂, ⟨⟨i₂, is₂, s₂, t₂, logged₂, flags₂⟩, opened₂, file₂, opened₂', thins₂⟩, fits⟩ :=
          second path named
        have known := onePath_known lawful inputs sound emulates symsized logged₁ flags₁ prepared₁ ran
        have symsized₂ : AccessSize (argv.options 2).symsize := symsized
        have prepared₂ : Prepared T (argv.options 2) (v.print "[+] A second trace has been provided").ctx calls₂ :=
          Or.inr ⟨known, fits⟩
        have same₂ := onePath_thinned lawful inputs sound emulates symsized₂ logged₂ flags₂ prepared₂ thins₂
        simp only [opened₂, opened₂', same₂]
  simp only [main, analysis, analysed]

end

/-- All register lines but the first one are left out. -/
def thinLines : Bool → List Text → List Text
  | _, [] => []
  | seen, line :: rest =>
    if isRegisterLine line then
      if seen then thinLines true rest else line :: thinLines true rest
    else line :: thinLines seen rest

def thin (file : Text) : Text := (thinLines false (readLines file)).flatten

theorem thinLines_thins (seen : Bool) (lines : List Text) : Thins seen lines (thinLines seen lines) := by
  induction lines generalizing seen with
  | nil => exact .done seen
  | cons line rest ih =>
    rw [thinLines]
    cases register : isRegisterLine line with
    | true =>
      cases seen with
      | true => exact .drop register (ih true)
      | false =>
        apply Thins.keep
        rw [register]
        exact ih true
    | false =>
      apply Thins.keep
      rw [register, Bool.or_false]
      exact ih seen

theorem Thins.sublist {seen : Bool} {lines lines' : List Text} (thins : Thins seen lines lines') :
    lines'.Sublist lines := by
  induction thins with
  | done => exact .slnil
  | keep _ ih => exact ih.cons_cons _
  | drop _ _ ih => exact ih.cons _

/-- A thinned log is read back as the lines that are left. -/
theorem thin_thins (calls : List Callback) :
    Thins false (readLines (log calls)) (readLines (thin (log calls))) := by
  have thins := thinLines_thins false (readLines (log calls))
  have whole : ∀ text ∈ thinLines false (readLines (log calls)), Text.IsLine text ∧ '\r' ∉ text := by
    intro text member
    have logged := thins.sublist.subset member
    rw [readLines_log] at logged
    obtain ⟨call, _, inside⟩ := List.mem_flatMap.mp logged
    have output : (Output.callback call).Whole := trivial
    exact Output.lines_whole false output text inside
  have noReturn : '\r' ∉ thin (log calls) := by
    intro member
    obtain ⟨text, present, inside⟩ := List.mem_flatten.mp member
    exact (whole text present).2 inside
  have same : readLines (thin (log calls)) = thinLines false (readLines (log calls)) := by
    rw [readLines, Text.universalNewlines_of_no_return noReturn]
    exact Text.lines_flatten fun text member => (whole text member).1
  rw [same]
  exact thins

open Reference in
set_option maxRecDepth 10000 in
/-- Both traces of the two-path function without their later register lines. -/
theorem main_thinned_max :
    let files := tracedFiles (trace maxProgram 10 (twoArguments 5 3)) (trace maxProgram 10 (twoArguments 3 5))
    main engine (fun path => (files path).map thin) "attack_vmp.py" (request (some 0x401000)) =
      main engine files "attack_vmp.py" (request (some 0x401000)) := by
  intro files
  have thinned : ∀ path s₀ (i : Instruction) is, files path = some (log (trace maxProgram 10 s₀)) →
      executed maxProgram 10 s₀ = i :: is → flagsOrdered [] (i :: is) = true →
      Thinned (machine maxProgram) files (fun path => (files path).map thin) path (trace maxProgram 10 s₀) := by
    intro path s₀ i is found ran ordered
    have small : ∀ inst ∈ maxProgram, inst.address < 2 ^ 64 := by decide
    have logged := trace_logged small 10 s₀
    rw [ran] at logged
    constructor
    · exact ⟨i, is, s₀, _, logged, flagsWritten_of_ordered [] ordered (by simp) s₀⟩
    · simp only [openFile, found]
    · refine ⟨thin (log (trace maxProgram 10 s₀)), ?_, thin_thins _⟩
      simp only [openFile, found, Option.map_some]
  apply main_thinned engine_lawful engine_consistent.inputs (engine_sound (by decide)) (engine_emulates maxProgram)
    (by decide) (thinned "trace1" (twoArguments 5 3) _ _ rfl rfl (by decide))
  intro path named
  cases named
  refine ⟨_, thinned "trace2" (twoArguments 3 5) _ _ rfl rfl (by decide), ?_⟩
  decide +kernel

end Devirt.Attack
