import Mathlib.Data.List.TakeWhile
import Devirt.Attack.Replay
import Devirt.Reference.Programs

/-! What the first replay of a log hands to `processing`, instruction after
instruction, whatever `processing` does as long as it stays consistent. -/
namespace Devirt.Tracer

/-- The memory records since the last instruction, latest first. -/
def pending (calls : List Callback) : List Callback :=
  calls.reverse.takeWhile Callback.isMemread

theorem pending_memread (calls : List Callback) (addr : BitVec 64) (size : Nat)
    (mem : BitVec 64 → BitVec 8) :
    pending (calls ++ [.memread addr size mem]) = .memread addr size mem :: pending calls := by
  rw [pending, List.reverse_append, List.reverse_singleton, List.singleton_append,
    List.takeWhile_cons_of_pos rfl, pending]

theorem pending_inst (calls : List Callback) (regs : Gpr → BitVec 64) (addr : BitVec 64)
    (opcode : List (BitVec 8)) : pending (calls ++ [.inst regs addr opcode]) = [] := by
  rw [pending, List.reverse_append, List.reverse_singleton, List.singleton_append,
    List.takeWhile_cons_of_neg (by simp [Callback.isMemread])]

theorem firstRegisters_memread (calls : List Callback) (addr : BitVec 64) (size : Nat)
    (mem : BitVec 64 → BitVec 8) :
    firstRegisters (calls ++ [.memread addr size mem]) = firstRegisters calls := by
  induction calls with
  | nil => rfl
  | cons call rest ih =>
    cases call with
    | memread a n m => exact ih
    | inst regs a code => rfl

theorem firstRegisters_inst (calls : List Callback) (regs : Gpr → BitVec 64) (addr : BitVec 64)
    (opcode : List (BitVec 8)) : firstRegisters (calls ++ [.inst regs addr opcode]) =
      some ((firstRegisters calls).getD regs) := by
  induction calls with
  | nil => rfl
  | cons call rest ih =>
    cases call with
    | memread a n m => exact ih
    | inst first a code => rfl

theorem pending_subset {calls : List Callback} {call : Callback} (member : call ∈ pending calls) :
    call ∈ calls ∧ call.isMemread = true :=
  ⟨List.mem_reverse.mp ((List.takeWhile_sublist _).subset member), List.mem_takeWhile_imp member⟩

/-- The memory records of one instruction agree on the bytes they share. -/
def Agreeing (calls : List Callback) : Prop :=
  ∀ before after, calls = before ++ after → ∀ call ∈ pending before, ∀ other ∈ pending before,
    ∀ c ∈ call.cells, c ∈ other.cells → call.observed c = other.observed c

theorem Agreeing.left {before after : List Callback} (agreeing : Agreeing (before ++ after)) :
    Agreeing before := by
  intro first second same
  exact agreeing first (second ++ after) (by rw [same, List.append_assoc])

/-- Records of one memory agree. -/
theorem agreeing_of_memory {calls : List Callback} (mem : BitVec 64 → BitVec 8)
    (one : ∀ call ∈ calls, call.isMemread = true → ∃ addr size, call = .memread addr size mem) :
    Agreeing calls := by
  rintro before after rfl call member other member' c _ _
  have source : ∀ call ∈ pending before, ∃ addr size, call = .memread addr size mem :=
    fun call member =>
    one call (List.mem_append_left after (pending_subset member).1) (pending_subset member).2
  obtain ⟨addr, size, rfl⟩ := source call member
  obtain ⟨addr', size', rfl⟩ := source other member'
  cases c <;> rfl

end Devirt.Tracer

namespace Devirt.Attack
open Tracer Concolic
open Python (PyError)

variable {T : Triton}

/-- The state of the first replay after a list of callbacks. -/
structure Replayed (symsize : Nat) (calls : List Callback) (l : Loop T) : Prop where
  fuse : l.fuse = (firstRegisters calls).isNone
  memory : ∀ call ∈ pending calls, ∀ c ∈ call.cells, (T.view l.state.ctx).conc c = call.observed c
  consistent : T.Consistent l.state.ctx
  unseeded : firstRegisters calls = none →
    T.getSymbolicVariables l.state.ctx = [] ∧ ∀ c, (T.view l.state.ctx).sym c = none
  seeded : ∀ regs, firstRegisters calls = some regs →
    T.getSymbolicVariables l.state.ctx = inputVariables symsize ∧
    T.values l.state.ctx 0 = (regs .rdi).toNat % 256 ^ symsize ∧
    T.values l.state.ctx 1 = (regs .rsi).toNat % 256 ^ symsize

/-- The context that an instruction is handed over in, after `calls` and with
the registers of its own record. -/
structure HandedOver (symsize : Nat) (calls : List Callback) (regs : Gpr → BitVec 64) (ctx : T.Ctx) :
    Prop where
  registers : ∀ reg, (T.view ctx).conc (.gpr reg) = (regs reg).toNat
  memory : ∀ call ∈ pending calls, ∀ c ∈ call.cells, (T.view ctx).conc c = call.observed c
  consistent : T.Consistent ctx
  inputs : T.getSymbolicVariables ctx = inputVariables symsize
  first : T.values ctx 0 = ((firstRegisters calls).getD regs .rdi).toNat % 256 ^ symsize
  second : T.values ctx 1 = ((firstRegisters calls).getD regs .rsi).toNat % 256 ^ symsize

section
variable (lawful : T.Lawful) {o : Options} {calls : List Callback} {l : Loop T}
include lawful

theorem replayed_fresh (symsize : Nat) {s : State T} (fresh : s.ctx = setMode T.new) :
    Replayed symsize [] (Loop.fresh s) := by
  obtain ⟨zero, plain, unseeded⟩ := fresh_view lawful fresh
  refine ⟨rfl, by simp [pending], ?_, fun _ => ⟨unseeded, plain⟩, by simp [firstRegisters]⟩
  exact fun c => Store.value_of_none (plain c)

theorem replayed_memread {addr : BitVec 64} {size : Nat} {mem : BitVec 64 → BitVec 8}
    (replayed : Replayed o.symsize calls l) (sized : AccessSize size)
    (agreeing : Agreeing (calls ++ [.memread addr size mem])) :
    ∃ l', replay o l [.memread addr size mem] = .ok l' ∧
      Replayed o.symsize (calls ++ [.memread addr size mem]) l' := by
  obtain ⟨ctx', runs, view, known, values⟩ := memread_runs lawful o l addr mem sized
  refine ⟨_, runs, ?_, ?_, ?_, ?_, ?_⟩
  · rw [firstRegisters_memread]
    exact replayed.fuse
  · intro call member c inside
    rw [Loop.withCtx, view, Store.resync_conc]
    rw [pending_memread] at member
    split
    · exact agreeing _ [] (List.append_nil _).symm _ (by simp [pending_memread]) call
        (by rwa [pending_memread]) c ‹_› inside
    · rcases List.mem_cons.mp member with rfl | earlier
      · exact absurd inside ‹_›
      · exact replayed.memory call earlier c inside
  · rw [Triton.Consistent, Loop.withCtx, view, values]
    exact replayed.consistent.resync
  · intro none
    rw [firstRegisters_memread] at none
    obtain ⟨unseeded, plain⟩ := replayed.unseeded none
    refine ⟨by rw [Loop.withCtx, known, unseeded], fun c => ?_⟩
    rw [Loop.withCtx, view]
    rcases Store.resync_sym_cases (T.view l.state.ctx) (Cell.range addr size) _ c with same | same
    · rw [same, plain]
    · exact same
  · intro regs some
    rw [firstRegisters_memread] at some
    rw [Loop.withCtx, known, values]
    exact replayed.seeded regs some

/-- The register record and the fuse leave exactly what the invariant promises. -/
theorem replayed_handsOver (replayed : Replayed o.symsize calls l) (symsized : AccessSize o.symsize)
    (regs : Gpr → BitVec 64) (addr : BitVec 64) (opcode : List (BitVec 8)) :
    ∃ ctx' s, Dispatch.run o l (.syncReg (Gpr.all.map fun reg => (regs reg).toNat)) =
        .ok (l.withCtx ctx') ∧
      burnFuse o (l.withCtx ctx').state l.fuse = .ok s ∧
      HandedOver o.symsize calls regs s.ctx ∧
      (∀ reg, (T.view ctx').conc (.gpr reg) = (regs reg).toNat) ∧
      (firstRegisters calls = none → T.getSymbolicVariables ctx' = []) ∧
      (firstRegisters calls ≠ none → s = (l.withCtx ctx').state) := by
  obtain ⟨ctx', runs, view, known, values⟩ := register_runs lawful o l regs addr opcode
  have registers := registers_shown view
  have memory : ∀ call ∈ pending calls, ∀ c ∈ call.cells, (T.view ctx').conc c = call.observed c := by
    intro call member c inside
    have range : c ∉ Gpr.all.map Cell.gpr := by
      intro register
      obtain ⟨reg, _, rfl⟩ := List.mem_map.mp register
      have memread := (pending_subset member).2
      cases call with
      | memread a n m => exact Cell.gpr_notMem_range reg a n inside
      | inst _ _ _ => exact absurd memread (by simp [Callback.isMemread])
    rw [view, Store.resyncEach_conc, if_neg range]
    exact replayed.memory call member c inside
  have consistent : T.Consistent ctx' := by
    rw [Triton.Consistent, view, values]
    exact replayed.consistent.resyncEach
  cases first : firstRegisters calls with
  | none =>
    obtain ⟨unseeded, plain⟩ := replayed.unseeded first
    have plain' : ∀ c, (T.view ctx').sym c = none := by
      intro c
      rw [view, Store.resyncEach_sym, plain]
      split <;> rfl
    obtain ⟨seededCtx, seeds, seeded⟩ := seedInputs_fresh lawful ctx' symsized
      (by rw [known, unseeded])
    have conc : ∀ c, (T.view seededCtx).conc c = (T.view ctx').conc c := by
      obtain ⟨_, _, _, _, same⟩ := seeded.view
      simp [same]
    have burnt := burnFuse_seeds o (s := (l.withCtx ctx').state) seeds
    have fuse : l.fuse = true := by rw [replayed.fuse, first, Option.isNone_none]
    rw [← fuse] at burnt
    refine ⟨ctx', _, runs, burnt, ⟨?_, ?_, seeded.consistent plain', seeded.inputs, ?_, ?_⟩, registers, ?_,
      fun some => absurd rfl some⟩
    · exact fun reg => (conc _).trans (registers reg)
    · exact fun call member c inside => (conc c).trans (memory call member c inside)
    · rw [seeded.first, registers, first, Option.getD_none]
    · rw [seeded.second, registers, first, Option.getD_none]
    · exact fun _ => by rw [known, unseeded]
  | some regs' =>
    obtain ⟨inputs, x, y⟩ := replayed.seeded regs' first
    refine ⟨ctx', (l.withCtx ctx').state, runs, ?_, ⟨registers, memory, consistent, ?_, ?_, ?_⟩,
      registers, (by simp), fun _ => rfl⟩
    · rw [burnFuse, replayed.fuse, first]
      rfl
    · rw [Loop.withCtx, known, inputs]
    · rw [Loop.withCtx, values, x, first, Option.getD_some]
    · rw [Loop.withCtx, values, y, first, Option.getD_some]

variable (consistent : T.ProcessingConsistent) (idle : o.recording = false)
  (symsized : AccessSize o.symsize)
include consistent idle symsized

theorem replayed_inst (replayed : Replayed o.symsize calls l) (regs : Gpr → BitVec 64)
    {addr : BitVec 64} {opcode : List (BitVec 8)} (decodes : T.Decodes ⟨addr.toNat, opcode⟩) :
    ∃ l', replay o l [.inst regs addr opcode] = .ok l' ∧
      Replayed o.symsize (calls ++ [.inst regs addr opcode]) l' := by
  obtain ⟨ctx', s, synced, burnt, handed, -⟩ :=
    replayed_handsOver lawful replayed symsized regs addr opcode
  obtain ⟨s', processed, ctx, -⟩ := process_idle o s decodes idle
  refine ⟨{ state := s', fuse := false, count := l.count + 1 }, ?_, ?_, ?_, ?_, ?_, ?_⟩
  · exact (inst_runs o synced burnt processed :)
  · simp [firstRegisters_inst]
  · simp [pending_inst]
  · simpa only [ctx] using consistent.consistent s.ctx _ handed.consistent
  · simp [firstRegisters_inst]
  · intro regs' first
    rw [firstRegisters_inst] at first
    obtain ⟨known, values⟩ := consistent.inputs s.ctx ⟨addr.toNat, opcode⟩
    cases first
    simp only [ctx, known, values]
    exact ⟨handed.inputs, handed.first, handed.second⟩

theorem replayed_call {call : Callback} (replayed : Replayed o.symsize calls l) (sized : call.Sized)
    (decodes : Decodable T call) (agreeing : Agreeing (calls ++ [call])) :
    ∃ l', replay o l [call] = .ok l' ∧ Replayed o.symsize (calls ++ [call]) l' := by
  cases call with
  | memread addr size mem => exact replayed_memread lawful replayed sized agreeing
  | inst regs addr opcode => exact replayed_inst lawful consistent idle symsized replayed regs decodes

/-- The first replay of a well-formed list of callbacks never stops. -/
theorem replayed_calls {s : State T} (fresh : s.ctx = setMode T.new) (calls : List Callback)
    (sized : ∀ call ∈ calls, call.Sized) (decodable : ∀ call ∈ calls, Decodable T call)
    (agreeing : Agreeing calls) :
    ∃ l, replay o (Loop.fresh s) calls = .ok l ∧ Replayed o.symsize calls l := by
  rw [replay_eq_foldlM]
  apply Outcome.foldlM_reaches _ (replayed_fresh lawful o.symsize fresh)
  rintro before call after l rfl replayed
  apply replayed_call lawful consistent idle symsized replayed (sized call (by simp))
    (decodable call (by simp))
  rw [← List.singleton_append, ← List.append_assoc] at agreeing
  exact agreeing.left

end

/-- The line of an instruction that the engine refuses stops the loop. -/
theorem emulateLines_refused (o : Options) (l : Loop T) {outputs : List Output}
    (readable : ∀ output ∈ outputs, output.Readable) {call : Callback}
    (member : call ∈ outputs.flatMap Output.calls) (refused : ¬ Decodable T call) :
    ∃ e, emulateLines o l (readLines (logFile outputs)) = .error e := by
  cases call with
  | memread addr size mem => exact absurd trivial refused
  | inst regs addr opcode =>
    have present : line (instFields false addr opcode) ∈ readLines (logFile outputs) := by
      rw [readLines_logFile fun output member => (readable output member).whole]
      obtain ⟨output, here, inside⟩ := List.mem_flatMap.mp member
      cases output with
      | foreign text => cases inside
      | callback call =>
        obtain rfl := List.mem_singleton.mp inside
        exact List.mem_flatMap.mpr ⟨_, here, by simp [Output.lines, Callback.lines]⟩
    apply Outcome.foldlM_error present fun l => ?_
    cases executed : emulateLine o l (line (instFields false addr opcode)) with
    | error e => exact ⟨e, rfl⟩
    | ok next =>
      rw [emulateLine_of_decoded o l (decodeLine_inst false addr opcode)] at executed
      obtain ⟨t, _, executed⟩ := Outcome.bind_ok executed
      obtain ⟨t', processed, _⟩ := Outcome.bind_ok executed
      exact absurd (process_ok processed).1 refused

section
variable (lawful : T.Lawful) (consistent : T.ProcessingConsistent) {o : Options} (first : o.execid = 1)
  (symsized : AccessSize o.symsize)
include lawful consistent first symsized

/-- Wherever an instruction record stands in a log, the loop reaches it, unless it stops
before at an instruction that the engine refuses, and hands its instruction to `processing`
in a context that agrees with the trace. The inputs exist from the first instruction on and
are never created again. -/
theorem handsOver_invariant {s : State T} (fresh : s.ctx = setMode T.new)
    {before after : List Output} {regs : Gpr → BitVec 64} {addr : BitVec 64} {opcode : List (BitVec 8)}
    {outputs : List Output} (here : outputs = before ++ .callback (.inst regs addr opcode) :: after)
    (readable : ∀ output ∈ outputs, output.Readable)
    (agreeing : Agreeing (outputs.flatMap Output.calls)) :
    (∃ call ∈ before.flatMap Output.calls, ¬ Decodable T call) ∧
      (∃ e, emulateLines o (Loop.fresh s) (readLines (logFile before)) = .error e) ∨
    ∃ lines inst rest l t,
      readLines (logFile outputs) = lines ++ inst :: rest ∧
      emulateLines o (Loop.fresh s) lines = .ok l ∧
      burnFuse o l.state l.fuse = .ok t ∧
      (emulateLine o l inst = do
        let state ← process o t ⟨addr.toNat, opcode⟩
        return { state := state, fuse := false, count := l.count + 1 }) ∧
      HandedOver o.symsize (before.flatMap Output.calls) regs t.ctx ∧
      (∀ reg, (T.view l.state.ctx).conc (.gpr reg) = (regs reg).toNat) ∧
      (firstRegisters (before.flatMap Output.calls) = none → T.getSymbolicVariables l.state.ctx = []) ∧
      (firstRegisters (before.flatMap Output.calls) ≠ none → t = l.state) := by
  subst here
  have idle : o.recording = false := by simp [Options.recording, first]
  have sized : ∀ call ∈ before.flatMap Output.calls, call.Sized :=
    calls_sized fun output member => readable output (by simp [member])
  have split : (before ++ .callback (.inst regs addr opcode) :: after).flatMap Output.calls =
      before.flatMap Output.calls ++ .inst regs addr opcode :: after.flatMap Output.calls := by
    rw [List.flatMap_append]
    rfl
  rw [split] at agreeing
  by_cases refuses : ∃ call ∈ before.flatMap Output.calls, ¬ Decodable T call
  · obtain ⟨call, member, refused⟩ := refuses
    have earlier : ∀ output ∈ before, output.Readable := fun output member => readable output (by simp [member])
    exact Or.inl ⟨⟨call, member, refused⟩, emulateLines_refused o _ earlier member refused⟩
  have decodable : ∀ call ∈ before.flatMap Output.calls, Decodable T call := by
    intro call member
    by_contra refused
    exact refuses ⟨call, member, refused⟩
  obtain ⟨l, runs, replayed⟩ := replayed_calls lawful consistent idle symsized fresh
    (before.flatMap Output.calls) sized decodable agreeing.left
  obtain ⟨ctx', t, synced, burnt, handed, registers, unseeded, unchanged⟩ :=
    replayed_handsOver lawful replayed symsized regs addr opcode
  refine Or.inr ⟨before.flatMap (Output.lines false) ++ [line (registerFields false regs)],
    line (instFields false addr opcode), after.flatMap (Output.lines false), l.withCtx ctx', t, ?_, ?_,
    burnt, ?_, handed, registers, unseeded, unchanged⟩
  · rw [readLines_logFile fun output member => (readable output member).whole, List.flatMap_append,
      List.append_assoc]
    rfl
  · have earlier : (before.flatMap (Output.lines false)).mapM decodeLine =
        .ok (before.flatMap entryDispatches) :=
      Outcome.mapM_flatMap_ok fun output member =>
        decodeLines_output false (readable output (by simp [member]))
    have record : [line (registerFields false regs)].mapM decodeLine =
        .ok [some (.syncReg (Gpr.all.map fun reg => (regs reg).toNat))] := by
      rw [List.mapM_cons, decodeLine_register]
      rfl
    rw [emulateLines_of_decoded o _ (Outcome.mapM_append_ok earlier record), List.filterMap_append,
      entryDispatches_filterMap, List.foldlM_append, ← replay, runs]
    exact (bind_pure _).trans synced
  · rw [emulateLine_of_decoded o _ (decodeLine_inst false addr opcode)]
    simp only [Dispatch.run]
    rw [show burnFuse o (l.withCtx ctx').state (l.withCtx ctx').fuse = .ok t from burnt]
    rfl

end

open Reference in
/-- The second instruction of a traced call, after a line of the traced program, the
first instruction and the record of four bytes. -/
theorem handsOver_invariant_spill :
    let s₀ := twoArguments 1 2
    let s₁ := step spillProgram[0] s₀
    let calls := trace spillProgram 2 s₀
    let outputs := .foreign ['o', 'k'] :: calls.map Output.callback
    ∃ lines inst rest l t,
      readLines (logFile outputs) = lines ++ inst :: rest ∧
      emulateLines (alone 4) (Loop.fresh start) lines = .ok l ∧
      burnFuse (alone 4) l.state l.fuse = .ok t ∧
      HandedOver 4 (calls.take 2) (fun reg => BitVec.ofNat 64 (s₁.cell (.gpr reg))) t.ctx := by
  intro s₀ s₁ calls outputs
  have readable : ∀ output ∈ outputs, output.Readable := by
    intro output member
    rcases List.mem_cons.mp member with rfl | member
    · exact ⟨⟨by decide, by decide⟩, by decide⟩
    · exact log_readable (trace_sized spillProgram 2 s₀) output member
  have agreeing : Agreeing (outputs.flatMap Output.calls) := by
    have split : outputs.flatMap Output.calls =
        [calls[0], .memread 0x404030 4 fun addr => BitVec.ofNat 8 (s₁.cell (.mem addr)), calls[2]] := rfl
    rw [split]
    apply agreeing_of_memory fun addr => BitVec.ofNat 8 (s₁.cell (.mem addr))
    intro call member memread
    simp only [List.mem_cons, List.not_mem_nil, or_false] at member
    rcases member with rfl | rfl | rfl
    · exact absurd memread (by decide)
    · exact ⟨_, _, rfl⟩
    · exact absurd memread (by decide)
  have decodable : ∀ call ∈ [calls[0], calls[1]], Decodable engine call := by
    have stored : engine.Decodes spillProgram[0] := engine_decodes rfl
    rw [List.forall_mem_cons, List.forall_mem_singleton]
    exact ⟨stored, trivial⟩
  obtain ⟨⟨call, member, refused⟩, -⟩ | ⟨lines, inst, rest, l, t, read, runs, burnt, -, handed, -⟩ :=
    handsOver_invariant (o := alone 4) (s := start) engine_lawful engine_consistent rfl (by decide) rfl
      (show outputs = [.foreign ['o', 'k'], .callback calls[0], .callback calls[1]] ++
        .callback (.inst (fun reg => BitVec.ofNat 64 (s₁.cell (.gpr reg))) 0x401006 spillProgram[1].opcode) ::
          [] from rfl) readable agreeing
  · exact absurd (decodable call member) refused
  · exact ⟨lines, inst, rest, l, t, read, runs, burnt, handed⟩

end Devirt.Attack
