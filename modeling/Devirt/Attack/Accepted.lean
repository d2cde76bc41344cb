import Devirt.Attack.Executions
import Devirt.Reference.Programs

/-! Which files a replay accepts: the records of every file that it reads to the end
decode, so that all it does there is what the decoded records do. -/
namespace Devirt.Attack
open Concolic
open Python (PyError)

variable {T : Triton}

theorem readUnsigned_of_ok {base : Nat} {field : Text} {value : Int} {n : Nat}
    (parsed : Python.int base field = .ok value) (small : Python.unsigned value = .ok n) :
    readUnsigned base field = .ok n := by
  rw [readUnsigned, parsed]
  exact small

/-- A value that was compared and, where it differed, stored is no negative number. -/
theorem unsigned_of_compared {α : Type} {value : Int} {current : Nat} {set : Nat → Except PyError α}
    {kept result : α}
    (ran : (if (current : Int) ≠ value then do set (← Python.unsigned value) else pure kept) = .ok result) :
    ∃ n, Python.unsigned value = .ok n := by
  split at ran
  · obtain ⟨n, small, _⟩ := Outcome.bind_ok ran
    exact ⟨n, small⟩
  · rename_i equal
    rw [← not_not.mp equal]
    exact ⟨current, Python.unsigned_natCast current⟩

theorem syncMemory_ok {ctx ctx' : T.Ctx} {args : List Text} (synced : syncMemory ctx args = .ok ctx') :
    ∃ kind addr size data a n v, args = [kind, addr, size, data] ∧ readUnsigned 16 addr = .ok a ∧
      readUnsigned 10 size = .ok n ∧ readUnsigned 16 data = .ok v := by
  unfold syncMemory at synced
  split at synced
  · rename_i kind addr size data
    obtain ⟨addrInt, parsedAddr, synced⟩ := Outcome.bind_ok synced
    obtain ⟨a, smallAddr, synced⟩ := Outcome.bind_ok synced
    obtain ⟨sizeInt, parsedSize, synced⟩ := Outcome.bind_ok synced
    obtain ⟨n, smallSize, synced⟩ := Outcome.bind_ok synced
    obtain ⟨current, _, synced⟩ := Outcome.bind_ok synced
    obtain ⟨value, parsedData, synced⟩ := Outcome.bind_ok synced
    obtain ⟨v, smallData⟩ := unsigned_of_compared synced
    exact ⟨kind, addr, size, data, a, n, v, rfl, readUnsigned_of_ok parsedAddr smallAddr,
      readUnsigned_of_ok parsedSize smallSize, readUnsigned_of_ok parsedData smallData⟩
  · cases synced

theorem syncOneReg_ok {ctx ctx' : T.Ctx} {reg : Gpr} {field : Text}
    (synced : syncOneReg ctx reg field = .ok ctx') : ∃ v, readUnsigned 16 field = .ok v := by
  obtain ⟨value, parsed, synced⟩ := Outcome.bind_ok synced
  obtain ⟨v, small⟩ := unsigned_of_compared synced
  exact ⟨v, readUnsigned_of_ok parsed small⟩

/-- Columns that were all found and then all stored are all read. -/
theorem syncColumns_ok {ctx ctx' : T.Ctx} {regs : List Text} {columns : List (Gpr × Nat)}
    {mapped : List (Gpr × Text)}
    (found : (columns.mapM fun (reg, i) => do return (reg, ← index "regs" regs i)) = .ok mapped)
    (synced : mapped.foldlM (fun ctx (tt_reg, pin_value) => syncOneReg ctx tt_reg pin_value) ctx =
      .ok ctx') :
    ∃ values, (columns.mapM fun (_, i) => do readUnsigned 16 (← index "regs" regs i)) = .ok values := by
  induction columns generalizing mapped ctx with
  | nil => exact ⟨[], rfl⟩
  | cons column rest ih =>
    obtain ⟨reg, i⟩ := column
    rw [List.mapM_cons] at found
    obtain ⟨entry, first, found⟩ := Outcome.bind_ok found
    obtain ⟨others, later, found⟩ := Outcome.bind_ok found
    cases found
    obtain ⟨field, here, same⟩ := Outcome.bind_ok first
    cases same
    obtain ⟨next, step, synced⟩ := Outcome.foldlM_cons_ok synced
    obtain ⟨v, read⟩ := syncOneReg_ok step
    obtain ⟨values, all⟩ := ih later synced
    refine ⟨v :: values, ?_⟩
    rw [List.mapM_cons, all]
    simp only [here, bind, Except.bind, read]
    rfl

theorem execInstruction_ok {o : Options} {s : State T} {args : List Text} {fuse : Bool}
    {result : State T × Bool} (ran : execInstruction o s args fuse = .ok result) :
    ∃ kind addr size data a bytes, args = [kind, addr, size, data] ∧ readUnsigned 16 addr = .ok a ∧
      Python.fromhex data = .ok bytes := by
  unfold execInstruction at ran
  split at ran
  · rename_i kind addr size data
    obtain ⟨burnt, _, ran⟩ := Outcome.bind_ok ran
    obtain ⟨addrInt, parsed, ran⟩ := Outcome.bind_ok ran
    obtain ⟨a, small, ran⟩ := Outcome.bind_ok ran
    obtain ⟨bytes, read, _⟩ := Outcome.bind_ok ran
    exact ⟨kind, addr, size, data, a, bytes, rfl, readUnsigned_of_ok parsed small, read⟩
  · cases ran

/-- No line is consumed without a meaning. -/
theorem decodeLine_of_consumed {o : Options} {l l' : Loop T} {line : Text}
    (ran : emulateLine o l line = .ok l') : ∃ d, decodeLine line = .ok d := by
  cases fields : Python.split ':' line with
  | nil => exact absurd fields (List.splitOn_ne_nil _ _)
  | cons kind rest =>
    by_cases memread : kind = ['m', 'r']
    · subst kind
      rw [emulateLine_memread o l fields] at ran
      obtain ⟨ctx, synced, _⟩ := Outcome.bind_ok ran
      obtain ⟨_, addr, size, data, a, n, v, same, readAddr, readSize, readData⟩ := syncMemory_ok synced
      cases same
      simp only [decodeLine, fields, readAddr, readSize, readData]
      exact ⟨_, rfl⟩
    by_cases inst : kind = ['i']
    · subst kind
      rw [emulateLine_instruction o l fields] at ran
      obtain ⟨result, executed, _⟩ := Outcome.bind_ok ran
      obtain ⟨_, addr, size, data, a, bytes, same, readAddr, readData⟩ := execInstruction_ok executed
      cases same
      simp only [decodeLine, fields, readAddr, readData]
      exact ⟨_, rfl⟩
    by_cases register : kind = ['r']
    · subst kind
      rw [emulateLine_register o l fields] at ran
      obtain ⟨ctx, synced, _⟩ := Outcome.bind_ok ran
      obtain ⟨mapped, found, synced⟩ := Outcome.bind_ok synced
      obtain ⟨values, read⟩ := syncColumns_ok found synced
      have columns : readColumns rest = .ok values := read
      simp only [decodeLine, fields, columns]
      exact ⟨_, rfl⟩
    · refine ⟨none, ?_⟩
      simp [decodeLine, fields, memread, inst]

/-- A file that is read to its end is a list of records, and reading it runs them. -/
theorem emulateLines_decodes {o : Options} {l l' : Loop T} {lines : List Text}
    (ran : emulateLines o l lines = .ok l') :
    ∃ ds, lines.mapM decodeLine = .ok ds ∧ (ds.filterMap id).foldlM (Dispatch.run o) l = .ok l' := by
  have decodes : ∃ ds, lines.mapM decodeLine = .ok ds := by
    induction lines generalizing l with
    | nil => exact ⟨[], rfl⟩
    | cons line rest ih =>
      obtain ⟨next, step, ran⟩ := Outcome.foldlM_cons_ok ran
      obtain ⟨d, first⟩ := decodeLine_of_consumed step
      obtain ⟨ds, later⟩ := ih ran
      refine ⟨d :: ds, ?_⟩
      simp only [List.mapM_cons, first, later]
      rfl
  obtain ⟨ds, decoded⟩ := decodes
  exact ⟨ds, decoded, (emulateLines_of_decoded o l decoded).symm.trans ran⟩

/-- The accesses for which the engine's behaviour is known. -/
def Dispatch.Addressed : Dispatch → Prop
  | .syncMemory addr size _ => addr < 2 ^ 64 ∧ AccessSize size
  | _ => True

instance : DecidablePred Dispatch.Addressed
  | .syncMemory addr size _ => inferInstanceAs (Decidable (addr < 2 ^ 64 ∧ AccessSize size))
  | .syncReg _ => isTrue trivial
  | .instruction _ => isTrue trivial

variable (T) in
/-- Every value of the record fits where it is stored, and its bytes are an instruction. -/
def Dispatch.Fits : Dispatch → Prop
  | .syncMemory _ size value => value < 256 ^ size
  | .syncReg values => ∀ column ∈ (mapping.map Prod.fst).zip values, column.2 < 2 ^ 64
  | .instruction inst => T.Decodes inst

variable (T) in
/-- A line that has no meaning or one that the engine can take. -/
def WellFormed (line : Text) : Prop := ∃ d, decodeLine line = .ok d ∧ ∀ record ∈ d, Dispatch.Fits T record

section
variable (lawful : T.Lawful)
include lawful

theorem syncOneValue_runs (ctx : T.Ctx) (reg : Gpr) {value : Nat} (fits : value < 2 ^ 64) :
    ∃ ctx', syncOneValue ctx reg value = .ok ctx' ∧ T.SameInputs ctx ctx' := by
  obtain ⟨ctx', synced, becomes⟩ := syncOneValue_becomes lawful ctx reg fits (v := fun _ => value) rfl
  exact ⟨ctx', synced, becomes.2⟩

theorem syncValues_runs (ctx : T.Ctx) {columns : List (Gpr × Nat)}
    (fits : ∀ column ∈ columns, column.2 < 2 ^ 64) :
    ∃ ctx', syncValues ctx columns = .ok ctx' ∧ T.SameInputs ctx ctx' := by
  obtain ⟨ctx', synced, -, same⟩ := Outcome.foldlM_total
    (f := fun ctx (reg, value) => syncOneValue (T := T) ctx reg value)
    (P := fun rest now => (∀ column ∈ rest, column.2 < 2 ^ 64) ∧ T.SameInputs ctx now)
    (fun {column rest now} holds => by
      obtain ⟨fits, same⟩ := holds
      obtain ⟨next, synced, kept⟩ := syncOneValue_runs lawful now column.1 (fits column List.mem_cons_self)
      exact ⟨next, synced, fun other member => fits other (List.mem_cons_of_mem column member), same.trans kept⟩)
    ⟨fits, .refl ctx⟩
  exact ⟨ctx', synced, same⟩

theorem syncMemoryValue_runs (ctx : T.Ctx) {addr size value : Nat} (small : addr < 2 ^ 64)
    (sized : AccessSize size) (fits : value < 256 ^ size) :
    ∃ ctx', syncMemoryValue ctx ⟨addr, size⟩ value = .ok ctx' ∧ T.SameInputs ctx ctx' := by
  obtain ⟨a, rfl⟩ : ∃ a : BitVec 64, a.toNat = addr := ⟨BitVec.ofNat 64 addr, Nat.mod_eq_of_lt small⟩
  simp only [syncMemoryValue, lawful.getConcreteMemoryValue ctx a size sized, native, Except.mapError, bind,
    Except.bind]
  split
  · obtain ⟨ctx', stored, becomes⟩ := lawful.setConcreteMemoryValue ctx a size value sized fits
    exact ⟨ctx', by rw [stored], becomes.2⟩
  · exact ⟨ctx, rfl, .refl ctx⟩

/-- Nothing stops the first replay at a record whose values fit. -/
theorem run_fits {o : Options} (symsized : AccessSize o.symsize) (idle : o.recording = false) {l : Loop T}
    {d : Dispatch} (addressed : d.Addressed) (fits : d.Fits T)
    (unseeded : l.fuse = true → T.getSymbolicVariables l.state.ctx = []) :
    ∃ l', d.run o l = .ok l' ∧ (l'.fuse = true → T.getSymbolicVariables l'.state.ctx = []) := by
  cases d with
  | syncMemory addr size value =>
    obtain ⟨ctx', synced, same⟩ := syncMemoryValue_runs lawful l.state.ctx addressed.1 addressed.2 fits
    refine ⟨l.withCtx ctx', ?_, fun fuse => same.1.trans (unseeded fuse)⟩
    simp only [Dispatch.run, synced]
    rfl
  | syncReg values =>
    obtain ⟨ctx', synced, same⟩ := syncValues_runs lawful l.state.ctx fits
    refine ⟨l.withCtx ctx', ?_, fun fuse => same.1.trans (unseeded fuse)⟩
    simp only [Dispatch.run, synced]
    rfl
  | instruction inst =>
    have burning : ∃ s, burnFuse o l.state l.fuse = .ok s := by
      cases fuse : l.fuse with
      | false => exact ⟨l.state, rfl⟩
      | true =>
        obtain ⟨ctx', seeds, _⟩ := seedInputs_fresh lawful l.state.ctx symsized (unseeded fuse)
        exact ⟨_, burnFuse_seeds o seeds⟩
    obtain ⟨s, burnt⟩ := burning
    obtain ⟨s', processed, _⟩ := process_idle o s fits idle
    exact ⟨_, instruction_runs o burnt processed, by simp⟩

theorem emulateLine_formed {o : Options} (symsized : AccessSize o.symsize) (idle : o.recording = false)
    {l : Loop T} {line : Text} (addressed : ∀ d, decodeLine line = .ok (some d) → d.Addressed)
    (formed : WellFormed T line) (unseeded : l.fuse = true → T.getSymbolicVariables l.state.ctx = []) :
    ∃ next, emulateLine o l line = .ok next ∧
      (next.fuse = true → T.getSymbolicVariables next.state.ctx = []) := by
  obtain ⟨d, decoded, fits⟩ := formed
  rw [emulateLine_of_decoded o l decoded]
  cases d with
  | none => exact ⟨l, rfl, unseeded⟩
  | some record => exact run_fits lawful symsized idle (addressed record decoded) (fits record rfl) unseeded

variable (rejects : T.RejectsWide)
include rejects

/-- A value that does not fit differs from what is there, and cannot be stored. -/
theorem syncOneValue_wide (ctx : T.Ctx) (reg : Gpr) {value : Nat} (wide : 2 ^ 64 ≤ value) :
    ∃ e, syncOneValue ctx reg value = .error e := by
  obtain ⟨message, refused⟩ := rejects.register ctx reg value wide
  have held := lawful.gpr_lt ctx reg
  have current : T.getConcreteRegisterValue ctx (.full reg) = (T.view ctx).conc (.gpr reg) := by
    rw [lawful.getConcreteRegisterValue]
    exact Nat.mod_eq_of_lt held
  refine ⟨.triton message, ?_⟩
  rw [syncOneValue, current, if_pos (by omega), refused]
  rfl

theorem syncMemoryValue_wide (ctx : T.Ctx) (addr : BitVec 64) {size value : Nat} (sized : AccessSize size)
    (wide : 256 ^ size ≤ value) : ∃ e, syncMemoryValue ctx ⟨addr.toNat, size⟩ value = .error e := by
  obtain ⟨message, refused⟩ := rejects.memory ctx addr size value sized wide
  have held : Nat.ofDigits 256 ((Cell.range addr size).map (T.view ctx).conc) <
      256 ^ ((Cell.range addr size).map (T.view ctx).conc).length := by
    apply Nat.ofDigits_lt_base_pow_length (by decide)
    intro byte member
    obtain ⟨c, present, rfl⟩ := List.mem_map.mp member
    obtain ⟨i, _, rfl⟩ := Cell.mem_range.mp present
    exact lawful.mem_lt ctx _
  rw [List.length_map, Cell.range, List.length_map, List.length_range, ← Cell.range] at held
  refine ⟨.triton message, ?_⟩
  simp only [syncMemoryValue, lawful.getConcreteMemoryValue ctx addr size sized, native, Except.mapError, bind,
    Except.bind]
  rw [if_pos (by omega), refused]

theorem fits_of_run {o : Options} {l l' : Loop T} {d : Dispatch} (addressed : d.Addressed)
    (ran : d.run o l = .ok l') : d.Fits T := by
  cases d with
  | instruction inst =>
    obtain ⟨s, _, ran⟩ := Outcome.bind_ok ran
    obtain ⟨s', processed, _⟩ := Outcome.bind_ok ran
    exact (process_ok processed).1
  | syncMemory addr size value =>
    obtain ⟨a, rfl⟩ : ∃ a : BitVec 64, a.toNat = addr := ⟨BitVec.ofNat 64 addr, Nat.mod_eq_of_lt addressed.1⟩
    obtain ⟨ctx', synced, _⟩ := Outcome.bind_ok ran
    by_contra wide
    obtain ⟨e, failed⟩ := syncMemoryValue_wide lawful rejects l.state.ctx a addressed.2 (not_lt.mp wide)
    cases synced.symm.trans failed
  | syncReg values =>
    obtain ⟨ctx', synced, _⟩ := Outcome.bind_ok ran
    rintro ⟨reg, value⟩ member
    by_contra wide
    obtain ⟨e, failed⟩ := Outcome.foldlM_error
      (f := fun ctx (reg, value) => syncOneValue (T := T) ctx reg value) member
      (fun ctx => syncOneValue_wide lawful rejects ctx reg (not_lt.mp wide)) l.state.ctx
    cases synced.symm.trans failed

theorem wellFormed_of_consumed {o : Options} {l l' : Loop T} {line : Text}
    (addressed : ∀ d, decodeLine line = .ok (some d) → d.Addressed)
    (ran : emulateLine o l line = .ok l') : WellFormed T line := by
  obtain ⟨d, decoded⟩ := decodeLine_of_consumed ran
  refine ⟨d, decoded, fun record present => ?_⟩
  cases present
  rw [emulateLine_of_decoded o l decoded] at ran
  exact fits_of_run lawful rejects (addressed record decoded) ran

theorem emulateLines_iff {o : Options} (symsized : AccessSize o.symsize) (idle : o.recording = false) {l : Loop T}
    {lines : List Text} (addressed : ∀ line ∈ lines, ∀ d, decodeLine line = .ok (some d) → d.Addressed)
    (unseeded : l.fuse = true → T.getSymbolicVariables l.state.ctx = []) :
    (∃ l', emulateLines o l lines = .ok l') ↔ ∀ line ∈ lines, WellFormed T line := by
  induction lines generalizing l with
  | nil => simp [emulateLines, pure, Except.pure]
  | cons line rest ih =>
    obtain ⟨here, later⟩ := List.forall_mem_cons.mp addressed
    constructor
    · rintro ⟨l', ran⟩
      obtain ⟨next, step, ran⟩ := Outcome.foldlM_cons_ok ran
      have formed := wellFormed_of_consumed lawful rejects here step
      obtain ⟨next', step', unseeded'⟩ := emulateLine_formed lawful symsized idle here formed unseeded
      cases step.symm.trans step'
      exact List.forall_mem_cons.mpr ⟨formed, (ih later unseeded').mp ⟨l', ran⟩⟩
    · intro formed
      obtain ⟨first, others⟩ := List.forall_mem_cons.mp formed
      obtain ⟨next, step, unseeded'⟩ := emulateLine_formed lawful symsized idle here first unseeded
      obtain ⟨l', ran⟩ := (ih later unseeded').mpr others
      exact ⟨l', by rw [emulateLines, List.foldlM_cons, step]; exact ran⟩

end

open Reference

/-- Two bytes hold `0xffff`, and then an addition. -/
def narrowFile : Text.Ascii := ⟨"mr:0x1000:2:0xffff\ni:0x401000:2:01f7\n".toList, by simp⟩

/-- The same with a value that needs a third byte. -/
def wideFile : Text.Ascii := ⟨"mr:0x1000:2:0x10000\ni:0x401000:2:01f7\n".toList, by simp⟩

/-- The same with an instruction of no bytes. -/
def emptyFile : Text.Ascii := ⟨"mr:0x1000:2:0xffff\ni:0x401000:0:\n".toList, by simp⟩

end Devirt.Attack
