import Devirt.Reference.Isa
import Devirt.Triton

/-! A small engine for the same instructions, so that the assumptions on the real
one can be met all at once. Expressions are functions of the inputs with the
names they mention. Solver, synthesis and printing are left empty. -/
namespace Devirt.Reference
open Concolic

structure Expr where
  names : List Nat
  eval : Valuation → Nat

/-- A variable is known by its register and its size in bits. -/
structure Context where
  store : Store Cell Nat Expr
  symbolized : List (Gpr × Nat)
  current : Valuation

namespace Context

/-- Stored values are read modulo what the cell can hold. -/
def view (ctx : Context) : Store Cell Nat Expr where
  conc c := ctx.store.conc c % c.bound
  sym := ctx.store.sym

def inputs (ctx : Context) : List SymVar := ctx.symbolized.mapIdx fun id (reg, bits) => ⟨id, bits, reg⟩

def setRegister (ctx : Context) (r : Register) (value : Nat) : Except String Context :=
  match r with
  | .low reg 8 =>
    if value < 2 ^ 64 then .ok { ctx with store := ctx.store.overwrite [.gpr reg] fun _ => value }
    else .error "value too big"
  | _ => .error "partial register"

def getMemory (ctx : Context) (memory : MemoryAccess) : Except String Nat :=
  if AccessSize memory.size then
    .ok (Nat.ofDigits 256 ((Cell.range (BitVec.ofNat 64 memory.address) memory.size).map ctx.view.conc))
  else .error "access size"

def setMemory (ctx : Context) (memory : MemoryAccess) (value : Nat) : Except String Context :=
  let addr := BitVec.ofNat 64 memory.address
  if AccessSize memory.size ∧ value < 256 ^ memory.size then
    .ok { ctx with store := ctx.store.overwrite (Cell.range addr memory.size) (Cell.byteOf addr value) }
  else .error "access size or value"

def getVariable (ctx : Context) (id : Nat) : Except String SymVar :=
  match ctx.inputs[id]? with
  | some known => .ok known
  | none => .error "no such variable"

/-- The names of a cell's expression. -/
def names (s : Store Cell Nat Expr) (c : Cell) : List Nat :=
  match s.sym c with
  | some e => e.names
  | none => []

/-- The next variable in the low bytes of a register. -/
def spliced (ctx : Context) (reg : Gpr) (bytes : Nat) : Expr where
  names := ctx.inputs.length :: if bytes < 8 then names ctx.view (.gpr reg) else []
  eval input :=
    ctx.view.value Expr.eval input (.gpr reg) / 256 ^ bytes * 256 ^ bytes + input ctx.inputs.length

def symbolize (ctx : Context) (r : Register) : Context :=
  match r with
  | .low reg bytes =>
    { store :=
        { ctx.store with sym := Function.update ctx.store.sym (.gpr reg) (some (ctx.spliced reg bytes)) }
      symbolized := ctx.symbolized ++ [(reg, 8 * bytes)]
      current :=
        Function.update ctx.current ctx.inputs.length (ctx.view.conc (.gpr reg) % 256 ^ bytes) }
  | .flag _ => ctx

/-- The variable's register follows in its low bits. -/
def setVariable (ctx : Context) (v : SymVar) (value : Nat) : Except String Context :=
  let register := ctx.view.conc (.gpr v.origin) / 2 ^ v.bitSize * 2 ^ v.bitSize + value
  if value < 2 ^ v.bitSize then
    .ok { ctx with
      store := { ctx.store with conc := Function.update ctx.store.conc (.gpr v.origin) register }
      current := Function.update ctx.current v.id value }
  else .error "value too big"

def assign (ctx : Context) (a : Expr) (r : Register) : Except String Context :=
  match r with
  | .low reg 8 =>
    if a.eval ctx.current < 2 ^ 64 then
      .ok { ctx with store :=
        { conc := Function.update ctx.store.conc (.gpr reg) (a.eval ctx.current)
          sym := Function.update ctx.store.sym (.gpr reg) (some a) } }
    else .error "value too big"
  | _ => .error "partial register"

end Context

def symbolic (s : Store Cell Nat Expr) (cells : List Cell) : Bool := cells.any fun c => (s.sym c).isSome

/-- The expression an effect leaves, if it reads one. -/
def lift (s : Store Cell Nat Expr) (e : Effect) : Option Expr :=
  if symbolic s e.reads then
    some
      { names := (e.reads.flatMap (Context.names s)).dedup
        eval := fun input => e.compute (s.value Expr.eval input) }
  else none

def processing (ctx : Context) (inst : Instruction) : Context × Processed :=
  ({ ctx with store :=
      { conc := fun c =>
          match effectOn inst c with
          | some e => e.compute ctx.view.conc
          | none => ctx.store.conc c
        sym := fun c =>
          match effectOn inst c with
          | some e => lift ctx.view e
          | none => ctx.store.sym c } },
   { isSymbolized := symbolic ctx.view (branchReads inst ++ (effects inst).flatMap Effect.reads)
     type := if decode inst.opcode = some .cmp then .cmp .reg .reg else .other
     repr := "" })

def engine : Triton where
  Ctx := Context
  Ast := Expr
  new := { store := { conc := fun _ => 0, sym := fun _ => none }, symbolized := [], current := fun _ => 0 }
  setMode ctx _ _ := ctx
  getConcreteRegisterValue ctx r := r.part (ctx.view.conc r.cell)
  setConcreteRegisterValue := Context.setRegister
  getConcreteMemoryValue := Context.getMemory
  setConcreteMemoryValue := Context.setMemory
  getSymbolicVariables := Context.inputs
  getSymbolicVariable := Context.getVariable
  symbolizeRegister ctx r _ := ctx.symbolize r
  setConcreteVariableValue := Context.setVariable
  newSymbolicExpression ctx a := (ctx, a)
  assignSymbolicExpressionToRegister := Context.assign
  disassembly inst := if (decode inst.opcode).isSome then .ok () else .error "disassembly"
  processing := processing
  getRegister name :=
    if name = "cf" then .ok .cf else if name = "af" then .ok .af else .error "no such register"
  getRegisterAst ctx r :=
    { names := Context.names ctx.view r.cell
      eval := fun input => r.part (ctx.view.value Expr.eval input r.cell) }
  getModel _ _ := none
  synthesize _ _ := none
  liftToLLVM _ _ := ""
  evaluate ctx a := a.eval ctx.current
  astVariable v := { names := [v.id], eval := fun input => input v.id }
  zx _ a := a
  equal a n := { names := a.names, eval := fun input => if a.eval input = n then 1 else 0 }
  distinct a n := { names := a.names, eval := fun input => if a.eval input = n then 0 else 1 }
  ite c a b :=
    { names := (c.names ++ a.names ++ b.names).dedup
      eval := fun input => if c.eval input = 0 then b.eval input else a.eval input }
  searchVariables := Expr.names
  unroll a := a
  str _ := ""
  view := Context.view
  values := Context.current
  denote := Expr.eval

namespace Context
variable {ctx : Context}

theorem view_overwrite {cells : List Cell} {v : Cell → Nat} (small : ∀ c ∈ cells, v c < c.bound) :
    ({ ctx with store := ctx.store.overwrite cells v } : Context).view =
    ctx.view.overwrite cells v := by
  simp only [view, Store.overwrite, Store.mk.injEq, and_true]
  funext c
  split
  · exact Nat.mod_eq_of_lt (small c ‹_›)
  · rfl

theorem byteOf_lt (addr : BitVec 64) (value : Nat) (c : Cell) : Cell.byteOf addr value c < c.bound := by
  cases c with
  | mem a => exact Nat.mod_lt _ (Cell.mem a).bound_pos
  | gpr reg => exact (Cell.gpr reg).bound_pos
  | flag f => exact (Cell.flag f).bound_pos

end Context

/-- Low bits that are replaced by the whole value leave the value. -/
theorem low_set_self {value bits : Nat} (small : value < 2 ^ bits) :
    value / 2 ^ bits * 2 ^ bits + value = value := by
  rw [Nat.div_eq_of_lt small, Nat.zero_mul, Nat.zero_add]

theorem engine_decodes {inst : Instruction} (decodes : (decode inst.opcode).isSome = true) :
    engine.Decodes inst := if_pos decodes

theorem engine_lawful : engine.Lawful where
  new_conc _ := Nat.zero_mod _
  new_sym _ := rfl
  new_variables := rfl
  setMode _ _ _ := ⟨rfl, rfl, rfl⟩
  gpr_lt _ reg := Nat.mod_lt _ (Cell.gpr reg).bound_pos
  mem_lt _ addr := Nat.mod_lt _ (Cell.mem addr).bound_pos
  getConcreteRegisterValue _ _ := rfl
  setConcreteRegisterValue ctx reg value small :=
    ⟨_, if_pos small, Context.view_overwrite (by simpa [Cell.bound] using small), rfl, rfl⟩
  getConcreteMemoryValue ctx addr size sized := by
    simp only [engine, Context.getMemory, if_pos sized, BitVec.ofNat_toNat, BitVec.setWidth_eq]
  setConcreteMemoryValue ctx addr size value sized small := by
    refine ⟨_, if_pos ⟨sized, small⟩, ?_, rfl, rfl⟩
    simp only [BitVec.ofNat_toNat, BitVec.setWidth_eq]
    exact Context.view_overwrite fun c _ => Context.byteOf_lt addr value c
  getSymbolicVariable ctx id v found := by
    simp only [engine, Context.getVariable] at found ⊢
    rw [found]
  symbolizeRegister ctx reg bytes name sized := by
    refine ⟨ctx.spliced reg bytes, fun _ _ => rfl, rfl, ?_, rfl⟩
    simp [engine, Context.symbolize, Context.inputs, List.mapIdx_append]
  setConcreteVariableValue ctx v _ small := by
    refine ⟨_, if_pos small, ?_, rfl, rfl⟩
    simp only [engine, Context.view, Store.mk.injEq, and_true]
    funext c
    by_cases same : c = .gpr v.origin
    · subst c
      rw [Function.update_self]
      exact (congrArg (· % Cell.bound (.gpr v.origin)) (low_set_self small)).trans (Nat.mod_mod _ _)
    · rw [Function.update_of_ne same]
  newSymbolicExpression _ _ := ⟨rfl, rfl, rfl, rfl⟩
  assignSymbolicExpressionToRegister ctx a reg small := by
    refine ⟨_, if_pos small, ?_, rfl, rfl⟩
    simp only [engine, Context.view, Store.mk.injEq, and_true]
    funext c
    by_cases same : c = .gpr reg
    · subst c
      simp only [Function.update_self]
      exact Nat.mod_eq_of_lt small
    · simp only [Function.update_of_ne same]
  evaluate _ _ := rfl
  getRegisterAst _ _ _ := rfl
  astVariable _ _ _ _ := rfl
  equal _ _ _ := rfl
  ite _ _ _ _ := rfl

theorem engine_rejects : engine.RejectsOrTruncates := fun _ _ _ wide =>
  Or.inl ⟨_, if_neg (Nat.not_lt.mpr wide)⟩

theorem engine_rejectsWide : engine.RejectsWide where
  register _ _ _ wide := ⟨_, if_neg (Nat.not_lt.mpr wide)⟩
  memory _ _ _ _ _ wide := ⟨_, if_neg fun fits => Nat.not_lt.mpr wide fits.2⟩

/-- A guarded step that succeeded took the step. -/
theorem guarded_ok {α : Type} {condition : Prop} [Decidable condition] {value result : α} {message : String}
    (ok : (if condition then Except.ok value else .error message) = .ok result) : value = result := by
  split at ok
  · exact Except.ok.inj ok
  · cases ok

theorem engine_keepsVariables : engine.KeepsVariables where
  register := by
    intro ctx r value ctx' stored
    cases guarded_ok stored
    rfl
  memory := by
    intro ctx memory value ctx' stored
    cases guarded_ok stored
    rfl
  input := by
    intro ctx v value ctx' stored
    cases guarded_ok stored
    rfl
  assign := by
    intro ctx a r ctx' stored
    simp only [engine, Context.assign] at stored
    split at stored
    · cases guarded_ok stored
      rfl
    · cases stored
  processing _ _ := rfl

theorem processing_view (ctx : Context) (inst : Instruction) (c : Cell) :
    (processing ctx inst).1.view.conc c = (match effectOn inst c with
      | some e => e.compute ctx.view.conc
      | none => ctx.view.conc c) ∧
    (processing ctx inst).1.view.sym c = match effectOn inst c with
      | some e => lift ctx.view e
      | none => ctx.view.sym c := by
  refine ⟨?_, rfl⟩
  simp only [processing, Context.view]
  cases found : effectOn inst c with
  | none => rfl
  | some e =>
    have bound := e.compute_lt ctx.view.conc
    rw [(effectOn_target found).1] at bound
    exact Nat.mod_eq_of_lt bound

/-- An effect computes on every input what its expression says. -/
theorem processing_value (ctx : Context) (inst : Instruction) (input : Valuation) (c : Cell) :
    (processing ctx inst).1.view.value Expr.eval input c = match effectOn inst c with
      | some e => e.compute (ctx.view.value Expr.eval input)
      | none => ctx.view.value Expr.eval input c := by
  obtain ⟨conc, sym⟩ := processing_view ctx inst c
  cases found : effectOn inst c with
  | none =>
    simp only [found] at conc sym
    simp only [Store.value, conc, sym]
  | some e =>
    simp only [found] at conc sym
    by_cases reads : symbolic ctx.view e.reads = true
    · rw [lift, if_pos reads] at sym
      rw [Store.value_of_some sym]
    · rw [lift, if_neg reads] at sym
      rw [Store.value_of_none sym, conc]
      refine Effect.compute_congr fun c member => (Store.value_of_none ?_).symm
      simp only [symbolic, List.any_eq_true, not_exists, not_and, Bool.not_eq_true,
        Option.isSome_eq_false_iff, Option.isNone_iff_eq_none] at reads
      exact reads c member

theorem engine_consistent : engine.ProcessingConsistent where
  consistent ctx inst consistent := by
    intro c
    apply (processing_value ctx inst ctx.current c).trans
    apply Eq.trans _ (processing_view ctx inst c).1.symm
    cases effectOn inst c with
    | none => exact consistent c
    | some e => exact Effect.compute_congr fun d _ => consistent d
  inputs _ _ := ⟨rfl, rfl⟩

/-- A carry flag that an instruction wrote is one bit on every input. -/
theorem cf_lt_two {ctx : Context} {inst : Instruction}
    (written : (effectOn inst (.flag .cf)).isSome = true) (input : Valuation) :
    engine.denote (engine.getRegisterAst (processing ctx inst).1 .cf) input < 2 := by
  obtain ⟨e, found⟩ := Option.isSome_iff_exists.mp written
  have value := processing_value ctx inst input (.flag .cf)
  simp only [found] at value
  have bound := e.compute_lt (ctx.view.value Expr.eval input)
  rw [(effectOn_target found).1, ← value] at bound
  exact bound

end Devirt.Reference
