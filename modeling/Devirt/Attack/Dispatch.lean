import Devirt.Attack
import Devirt.Outcome

/-! What a trace line asks of the replay, apart from how its fields are written.
`decodeLine` reads the fields and `Dispatch.run` applies them; on every readable
line the script's own loop body does exactly these two steps. -/
namespace Devirt.Attack
open Devirt.Python (PyError)

variable {T : Triton}

inductive Dispatch where
  | syncMemory (addr size value : Nat)
  | syncReg (values : List Nat)
  | instruction (inst : Instruction)
  deriving DecidableEq, Repr

def readUnsigned (base : Nat) (field : Text) : Except PyError Nat := do
  Python.unsigned (← Python.int base field)

/-- The columns of a register record in the order of `mapping`. -/
def readColumns (regs : List Text) : Except PyError (List Nat) :=
  mapping.mapM fun (_, i) => do readUnsigned 16 (← index "regs" regs i)

def decodeLine (line : Text) : Except PyError (Option Dispatch) :=
  match Python.split ':' line with
  | [['m', 'r'], addr, size, data] => do
    return some (.syncMemory (← readUnsigned 16 addr) (← readUnsigned 10 size) (← readUnsigned 16 data))
  | [['i'], addr, _, data] => do
    return some (.instruction ⟨← readUnsigned 16 addr, ← Python.fromhex data⟩)
  | ['r'] :: regs => do return some (.syncReg (← readColumns regs))
  | kind :: _ => if kind = ['m', 'r'] ∨ kind = ['i'] then .error .valueError else .ok none
  | [] => .ok none

def syncOneValue (ctx : T.Ctx) (reg : Gpr) (value : Nat) : Except PyError T.Ctx :=
  if T.getConcreteRegisterValue ctx (.full reg) ≠ value then
    native (T.setConcreteRegisterValue ctx (.full reg) value)
  else return ctx

def syncValues (ctx : T.Ctx) (columns : List (Gpr × Nat)) : Except PyError T.Ctx :=
  columns.foldlM (fun ctx (reg, value) => syncOneValue ctx reg value) ctx

def syncMemoryValue (ctx : T.Ctx) (memory : MemoryAccess) (value : Nat) : Except PyError T.Ctx := do
  let synch ← native (T.getConcreteMemoryValue ctx memory)
  if synch ≠ value then native (T.setConcreteMemoryValue ctx memory value) else return ctx

def Dispatch.run (o : Options) (l : Loop T) : Dispatch → Except PyError (Loop T)
  | .syncMemory addr size value => do
    return { l with state := { l.state with ctx := ← syncMemoryValue l.state.ctx ⟨addr, size⟩ value } }
  | .syncReg values => do
    return { l with state :=
      { l.state with ctx := ← syncValues l.state.ctx ((mapping.map Prod.fst).zip values) } }
  | .instruction inst => do
    let state ← process o (← burnFuse o l.state l.fuse) inst
    return { state := state, fuse := false, count := l.count + 1 }

theorem unsigned_ok {value : Int} {n : Nat} (read : Python.unsigned value = .ok n) : value = n := by
  unfold Python.unsigned at read
  split at read
  · cases read
    omega
  · cases read

theorem readUnsigned_ok {base : Nat} {field : Text} {n : Nat} (read : readUnsigned base field = .ok n) :
    Python.int base field = .ok (n : Int) := by
  obtain ⟨value, parsed, small⟩ := Outcome.bind_ok read
  rw [parsed, unsigned_ok small]

theorem syncOneReg_of_read (ctx : T.Ctx) (reg : Gpr) {field : Text} {value : Nat}
    (read : readUnsigned 16 field = .ok value) :
    syncOneReg ctx reg field = syncOneValue ctx reg value := by
  simp only [syncOneReg, readUnsigned_ok read, syncOneValue, bind, Except.bind, ne_eq,
    Int.natCast_inj, Python.unsigned_natCast]

/-- Reading one column after the other and comparing is comparing what was read. -/
theorem syncColumns_of_read (ctx : T.Ctx) (regs : List Text) (columns : List (Gpr × Nat))
    {values : List Nat}
    (read : (columns.mapM fun (_, i) => do readUnsigned 16 (← index "regs" regs i)) = .ok values) :
    ((do
      let mapped ← columns.mapM fun (reg, i) => do return (reg, ← index "regs" regs i)
      mapped.foldlM (fun ctx (tt_reg, pin_value) => syncOneReg ctx tt_reg pin_value) ctx) :
        Except PyError T.Ctx) = syncValues ctx ((columns.map Prod.fst).zip values) := by
  have fields : ∃ mapped : List (Gpr × Text),
      (columns.mapM fun (reg, i) => do return (reg, ← index "regs" regs i)) = .ok mapped ∧
      ∀ ctx : T.Ctx, mapped.foldlM (fun ctx (tt_reg, pin_value) => syncOneReg ctx tt_reg pin_value) ctx =
        syncValues ctx ((columns.map Prod.fst).zip values) := by
    induction columns generalizing values with
    | nil =>
      cases read
      exact ⟨[], rfl, fun _ => rfl⟩
    | cons column rest ih =>
      obtain ⟨reg, i⟩ := column
      rw [List.mapM_cons] at read
      obtain ⟨value, first, read⟩ := Outcome.bind_ok read
      obtain ⟨others, later, read⟩ := Outcome.bind_ok read
      cases read
      obtain ⟨field, found, parsed⟩ := Outcome.bind_ok first
      obtain ⟨mapped, all, same⟩ := ih later
      refine ⟨(reg, field) :: mapped, ?_, ?_⟩
      · simp only [List.mapM_cons, all, found]
        rfl
      · intro ctx
        simp only [List.foldlM_cons, syncOneReg_of_read ctx reg parsed, syncValues, List.map_cons,
          List.zip_cons_cons]
        congr 1
        funext ctx
        exact same ctx
  obtain ⟨mapped, all, same⟩ := fields
  rw [all]
  exact same ctx

theorem syncMemory_of_read (ctx : T.Ctx) (kind : Text) {addr size data : Text} {a n v : Nat}
    (readAddr : readUnsigned 16 addr = .ok a) (readSize : readUnsigned 10 size = .ok n)
    (readData : readUnsigned 16 data = .ok v) :
    syncMemory ctx [kind, addr, size, data] = syncMemoryValue ctx ⟨a, n⟩ v := by
  simp only [syncMemory, syncMemoryValue, readUnsigned_ok readAddr, readUnsigned_ok readSize,
    readUnsigned_ok readData, Python.unsigned_natCast, bind, Except.bind, ne_eq, Int.natCast_inj]

/-! The loop body, by the text before the first colon. -/

theorem emulateLine_memread (o : Options) (l : Loop T) {line : Text} {rest : List Text}
    (fields : Python.split ':' line = ['m', 'r'] :: rest) :
    emulateLine o l line = do
      return { l with state := { l.state with ctx := ← syncMemory l.state.ctx (['m', 'r'] :: rest) } } := by
  simp [emulateLine, fields]

theorem emulateLine_register (o : Options) (l : Loop T) {line : Text} {regs : List Text}
    (fields : Python.split ':' line = ['r'] :: regs) :
    emulateLine o l line = do
      return { l with state := { l.state with ctx := ← syncReg l.state.ctx regs } } := by
  simp [emulateLine, fields]

theorem emulateLine_instruction (o : Options) (l : Loop T) {line : Text} {rest : List Text}
    (fields : Python.split ':' line = ['i'] :: rest) :
    emulateLine o l line = do
      let (state, fuse) ← execInstruction o l.state (['i'] :: rest) l.fuse
      return { state := state, fuse := fuse, count := l.count + 1 } := by
  simp [emulateLine, fields]

theorem emulateLine_other (o : Options) (l : Loop T) {line kind : Text} {rest : List Text}
    (fields : Python.split ':' line = kind :: rest) (memread : kind ≠ ['m', 'r'])
    (register : kind ≠ ['r']) (inst : kind ≠ ['i']) : emulateLine o l line = .ok l := by
  simp [emulateLine, fields, memread, register, inst]
  rfl

/-- On every readable line the loop body decodes and dispatches. -/
theorem emulateLine_of_decoded (o : Options) (l : Loop T) {line : Text} {d : Option Dispatch}
    (decoded : decodeLine line = .ok d) :
    emulateLine o l line = match d with
      | some dispatch => dispatch.run o l
      | none => .ok l := by
  unfold decodeLine at decoded
  split at decoded
  · rename_i addr size data fields
    obtain ⟨a, readAddr, decoded⟩ := Outcome.bind_ok decoded
    obtain ⟨n, readSize, decoded⟩ := Outcome.bind_ok decoded
    obtain ⟨v, readData, decoded⟩ := Outcome.bind_ok decoded
    cases decoded
    rw [emulateLine_memread o l fields, syncMemory_of_read _ _ readAddr readSize readData]
    rfl
  · rename_i addr size data fields
    obtain ⟨a, readAddr, decoded⟩ := Outcome.bind_ok decoded
    obtain ⟨bytes, readData, decoded⟩ := Outcome.bind_ok decoded
    cases decoded
    rw [emulateLine_instruction o l fields]
    simp only [execInstruction, readUnsigned_ok readAddr, readData, Dispatch.run]
    cases burnFuse o l.state l.fuse with
    | error e => rfl
    | ok s =>
      simp only [pure, Except.pure, bind, Except.bind, Python.unsigned_natCast]
      cases process o s ⟨a, bytes⟩ <;> rfl
  · rename_i regs fields
    obtain ⟨values, readAll, decoded⟩ := Outcome.bind_ok decoded
    cases decoded
    have synced : syncReg l.state.ctx regs = syncValues l.state.ctx ((mapping.map Prod.fst).zip values) :=
      syncColumns_of_read l.state.ctx regs mapping readAll
    rw [emulateLine_register o l fields, synced]
    rfl
  · rename_i kind rest _ _ register fields
    split at decoded
    · cases decoded
    · rename_i other
      cases decoded
      simp only [not_or] at other
      exact emulateLine_other o l fields other.1 register other.2
  · rename_i fields
    exact absurd fields (List.splitOn_ne_nil _ _)

/-- The same for a whole file of readable lines. -/
theorem emulateLines_of_decoded (o : Options) (l : Loop T) {lines : List Text}
    {ds : List (Option Dispatch)} (decoded : lines.mapM decodeLine = .ok ds) :
    emulateLines o l lines = (ds.filterMap id).foldlM (Dispatch.run o) l := by
  induction lines generalizing l ds with
  | nil =>
    cases decoded
    rfl
  | cons line rest ih =>
    rw [List.mapM_cons] at decoded
    obtain ⟨d, first, decoded⟩ := Outcome.bind_ok decoded
    obtain ⟨others, later, decoded⟩ := Outcome.bind_ok decoded
    cases decoded
    have body := emulateLine_of_decoded o l first
    cases d with
    | none =>
      simp only [emulateLines, List.foldlM_cons, body, List.filterMap_cons, id]
      exact ih l later
    | some dispatch =>
      simp only [emulateLines, List.foldlM_cons, body, List.filterMap_cons, id]
      cases dispatch.run o l with
      | error e => rfl
      | ok next => exact ih next later

theorem emulateLines_append (o : Options) (l : Loop T) (first rest : List Text) :
    emulateLines o l (first ++ rest) = emulateLines o l first >>= fun l => emulateLines o l rest := by
  rw [emulateLines, List.foldlM_append]
  rfl

end Devirt.Attack
