import Mathlib.Data.Nat.Digits.Lemmas
import Mathlib.Logic.Function.Basic
import Devirt.Machine
import Devirt.Concolic.Agreement

/-! The symbolic engine as a parameter. `Triton` lists the calls the scripts make,
`Triton.Lawful` what their documentation promises, stated on the store of cells
that a context holds. The effect of `processing` stays open: each group of
results names the property of it that it needs. -/
namespace Devirt
open Concolic

/-- A variable and the register whose low bits it stands for. -/
structure SymVar where
  id : Nat
  bitSize : Nat
  origin : Gpr
  deriving DecidableEq, Repr

structure MemoryAccess where
  address : Nat
  size : Nat
  deriving DecidableEq, Repr

inductive OperandType where
  | reg | mem | imm
  deriving DecidableEq, Repr

inductive InstructionType where
  | popfq
  | cmp (op1 op2 : OperandType)
  | other
  deriving DecidableEq, Repr

/-- What the scripts ask of an instruction object after `processing`. -/
structure Processed where
  isSymbolized : Bool
  type : InstructionType
  repr : String
  deriving DecidableEq, Repr

/-- Values of the symbolic variables, by their identifiers. -/
abbrev Valuation := Nat → Nat

structure Triton where
  Ctx : Type
  Ast : Type
  /-- `TritonContext(ARCH.X86_64)` -/
  new : Ctx
  setMode : Ctx → String → Bool → Ctx
  getConcreteRegisterValue : Ctx → Register → Nat
  setConcreteRegisterValue : Ctx → Register → Nat → Except String Ctx
  getConcreteMemoryValue : Ctx → MemoryAccess → Except String Nat
  setConcreteMemoryValue : Ctx → MemoryAccess → Nat → Except String Ctx
  getSymbolicVariables : Ctx → List SymVar
  getSymbolicVariable : Ctx → Nat → Except String SymVar
  symbolizeRegister : Ctx → Register → String → Ctx
  setConcreteVariableValue : Ctx → SymVar → Nat → Except String Ctx
  newSymbolicExpression : Ctx → Ast → Ctx × Ast
  assignSymbolicExpressionToRegister : Ctx → Ast → Register → Except String Ctx
  /-- What `Instruction(addr, data)` and then `processing` raise: the engine refuses no
  bytes, too many of them, and bytes that are no instruction. -/
  disassembly : Instruction → Except String Unit
  /-- The effect of `processing` on an instruction that is not refused. -/
  processing : Ctx → Instruction → Ctx × Processed
  getRegister : String → Except String Register
  getRegisterAst : Ctx → Register → Ast
  /-- A model, printed, when the constraint is satisfiable. -/
  getModel : Ctx → Ast → Option String
  synthesize : Ctx → Ast → Option Ast
  liftToLLVM : Ctx → Ast → String
  evaluate : Ctx → Ast → Nat
  /-- `variable(var)` -/
  astVariable : SymVar → Ast
  zx : Nat → Ast → Ast
  equal : Ast → Nat → Ast
  distinct : Ast → Nat → Ast
  ite : Ast → Ast → Ast → Ast
  /-- `search(ast, AST_NODE.VARIABLE)` -/
  searchVariables : Ast → List Nat
  unroll : Ast → Ast
  str : Ast → String
  /-- Every cell's concrete value and symbolic expression. -/
  view : Ctx → Store Cell Nat Ast
  /-- The current values of the variables. -/
  values : Ctx → Valuation
  denote : Ast → Valuation → Nat

/-- The byte that a little-endian write of `value` at `addr` leaves in a cell. -/
def Cell.byteOf (addr : BitVec 64) (value : Nat) : Cell → Nat
  | .mem a => value / 256 ^ (a - addr).toNat % 256
  | _ => 0

def AccessSize (size : Nat) : Prop := size ∈ [1, 2, 4, 8]

instance (size : Nat) : Decidable (AccessSize size) := inferInstanceAs (Decidable (_ ∈ _))

namespace Triton
variable (T : Triton)

/-- The engine disassembles the instruction. -/
def Decodes (inst : Instruction) : Prop := T.disassembly inst = .ok ()

/-- The variables and their values are untouched. -/
def SameInputs (ctx ctx' : T.Ctx) : Prop :=
  T.getSymbolicVariables ctx' = T.getSymbolicVariables ctx ∧ T.values ctx' = T.values ctx

/-- The store changes to `store` and nothing else does. -/
def Becomes (ctx ctx' : T.Ctx) (store : Store Cell Nat T.Ast) : Prop :=
  T.view ctx' = store ∧ T.SameInputs ctx ctx'

/-- The variable takes the value and nothing else changes. -/
def SetsVariable (ctx ctx' : T.Ctx) (v : SymVar) (value : Nat) : Prop :=
  T.view ctx' = T.view ctx ∧ T.getSymbolicVariables ctx' = T.getSymbolicVariables ctx ∧
    T.values ctx' = Function.update (T.values ctx) v.id value

/-- Every expression evaluates, on the current inputs, to its cell's value. -/
def Consistent (ctx : T.Ctx) : Prop := (T.view ctx).Consistent T.denote (T.values ctx)

/-- The expression of a register of which the low bytes are replaced by a variable. -/
def SplicesVariable (store : Store Cell Nat T.Ast) (r : Gpr) (bytes id : Nat) (e : T.Ast) : Prop :=
  ∀ input : Valuation, input id < 256 ^ bytes →
    T.denote e input =
      store.value T.denote input (.gpr r) / 256 ^ bytes * 256 ^ bytes + input id

structure Lawful : Prop where
  new_conc : ∀ c, (T.view T.new).conc c = 0
  new_sym : ∀ c, (T.view T.new).sym c = none
  new_variables : T.getSymbolicVariables T.new = []
  setMode : ∀ ctx mode flag, T.Becomes ctx (T.setMode ctx mode flag) (T.view ctx)
  gpr_lt : ∀ ctx r, (T.view ctx).conc (.gpr r) < 2 ^ 64
  mem_lt : ∀ ctx addr, (T.view ctx).conc (.mem addr) < 256
  getConcreteRegisterValue : ∀ ctx r,
    T.getConcreteRegisterValue ctx r = r.part ((T.view ctx).conc r.cell)
  setConcreteRegisterValue : ∀ ctx r value, value < 2 ^ 64 →
    ∃ ctx', T.setConcreteRegisterValue ctx (.full r) value = .ok ctx' ∧
      T.Becomes ctx ctx' ((T.view ctx).overwrite [.gpr r] fun _ => value)
  getConcreteMemoryValue : ∀ ctx (addr : BitVec 64) size, AccessSize size →
    T.getConcreteMemoryValue ctx ⟨addr.toNat, size⟩ =
      .ok (Nat.ofDigits 256 ((Cell.range addr size).map (T.view ctx).conc))
  setConcreteMemoryValue : ∀ ctx (addr : BitVec 64) size value, AccessSize size → value < 256 ^ size →
    ∃ ctx', T.setConcreteMemoryValue ctx ⟨addr.toNat, size⟩ value = .ok ctx' ∧
      T.Becomes ctx ctx' ((T.view ctx).overwrite (Cell.range addr size) (Cell.byteOf addr value))
  getSymbolicVariable : ∀ ctx id v, (T.getSymbolicVariables ctx)[id]? = some v →
    T.getSymbolicVariable ctx id = .ok v
  symbolizeRegister : ∀ ctx r bytes name, AccessSize bytes →
    let ctx' := T.symbolizeRegister ctx (.low r bytes) name
    let id := (T.getSymbolicVariables ctx).length
    ∃ e, T.SplicesVariable (T.view ctx) r bytes id e ∧
      T.view ctx' = { T.view ctx with sym := Function.update (T.view ctx).sym (.gpr r) (some e) } ∧
      T.getSymbolicVariables ctx' = T.getSymbolicVariables ctx ++ [⟨id, 8 * bytes, r⟩] ∧
      T.values ctx' =
        Function.update (T.values ctx) id ((T.view ctx).conc (.gpr r) % 256 ^ bytes)
  -- The call writes the register too, so the law is about the value that is already there.
  setConcreteVariableValue : ∀ ctx v, v ∈ T.getSymbolicVariables ctx →
    (T.view ctx).conc (.gpr v.origin) < 2 ^ v.bitSize →
    ∃ ctx', T.setConcreteVariableValue ctx v ((T.view ctx).conc (.gpr v.origin)) = .ok ctx' ∧
      T.SetsVariable ctx ctx' v ((T.view ctx).conc (.gpr v.origin))
  newSymbolicExpression : ∀ ctx a, (T.newSymbolicExpression ctx a).2 = a ∧
    T.Becomes ctx (T.newSymbolicExpression ctx a).1 (T.view ctx)
  assignSymbolicExpressionToRegister : ∀ ctx a r, T.denote a (T.values ctx) < 2 ^ 64 →
    ∃ ctx', T.assignSymbolicExpressionToRegister ctx a (.full r) = .ok ctx' ∧
      T.Becomes ctx ctx'
        { conc := Function.update (T.view ctx).conc (.gpr r) (T.denote a (T.values ctx))
          sym := Function.update (T.view ctx).sym (.gpr r) (some a) }
  evaluate : ∀ ctx a, T.evaluate ctx a = T.denote a (T.values ctx)
  getRegisterAst : ∀ ctx r input,
    T.denote (T.getRegisterAst ctx r) input = r.part ((T.view ctx).value T.denote input r.cell)
  astVariable : ∀ (v : SymVar) bits (input : Valuation), input v.id < 2 ^ v.bitSize →
    T.denote (T.zx bits (T.astVariable v)) input = input v.id
  equal : ∀ a n input, T.denote (T.equal a n) input = if T.denote a input = n then 1 else 0
  ite : ∀ c a b input,
    T.denote (T.ite c a b) input = if T.denote c input = 0 then T.denote b input else T.denote a input

/-- A register's value that is too wide for its variable is rejected or cut to the
variable's size. -/
def RejectsOrTruncates : Prop :=
  ∀ ctx v, v ∈ T.getSymbolicVariables ctx → 2 ^ v.bitSize ≤ (T.view ctx).conc (.gpr v.origin) →
    (∃ message, T.setConcreteVariableValue ctx v ((T.view ctx).conc (.gpr v.origin)) = .error message) ∨
      ∃ ctx', T.setConcreteVariableValue ctx v ((T.view ctx).conc (.gpr v.origin)) = .ok ctx' ∧
        T.SetsVariable ctx ctx' v ((T.view ctx).conc (.gpr v.origin) % 2 ^ v.bitSize)

/-- A value that is too wide for its register or its access is not stored. -/
structure RejectsWide : Prop where
  register : ∀ ctx r value, 2 ^ 64 ≤ value →
    ∃ message, T.setConcreteRegisterValue ctx (.full r) value = .error message
  memory : ∀ ctx (addr : BitVec 64) size value, AccessSize size → 256 ^ size ≤ value →
    ∃ message, T.setConcreteMemoryValue ctx ⟨addr.toNat, size⟩ value = .error message

/-- No call but `symbolizeRegister` makes variables, whatever else becomes of it. -/
structure KeepsVariables : Prop where
  register : ∀ {ctx r value ctx'}, T.setConcreteRegisterValue ctx (.full r) value = .ok ctx' →
    T.getSymbolicVariables ctx' = T.getSymbolicVariables ctx
  memory : ∀ {ctx memory value ctx'}, T.setConcreteMemoryValue ctx memory value = .ok ctx' →
    T.getSymbolicVariables ctx' = T.getSymbolicVariables ctx
  input : ∀ {ctx v value ctx'}, T.setConcreteVariableValue ctx v value = .ok ctx' →
    T.getSymbolicVariables ctx' = T.getSymbolicVariables ctx
  assign : ∀ {ctx a r ctx'}, T.assignSymbolicExpressionToRegister ctx a r = .ok ctx' →
    T.getSymbolicVariables ctx' = T.getSymbolicVariables ctx
  processing : ∀ ctx i, T.getSymbolicVariables (T.processing ctx i).1 = T.getSymbolicVariables ctx

/-- Whatever `processing` does to an instruction, it computes concretely what it
records symbolically and it makes no inputs. -/
structure ProcessingConsistent : Prop where
  consistent : ∀ ctx i, T.Consistent ctx → T.Consistent (T.processing ctx i).1
  inputs : ∀ ctx i, T.SameInputs ctx (T.processing ctx i).1

/-- `processing` is sound for a machine: where everything an instruction reads is
represented, so is everything it writes, and nothing else changes. `s₀` is the
state that the concrete values of the context belong to. -/
structure Sound (M : Machine) : Prop where
  decodes : ∀ {i s t}, M.exec i s = some t → T.Decodes i
  step : ∀ {ctx i s₀ t₀ s t input}, M.exec i s₀ = some t₀ → M.exec i s = some t →
    M.reads i s = M.reads i s₀ → M.writes i s = M.writes i s₀ →
    (∀ c ∈ M.reads i s₀, (T.view ctx).conc c = M.cell s₀ c) →
    (∀ c ∈ M.reads i s₀, (T.view ctx).value T.denote input c = M.cell s c) →
    ∀ c ∈ M.writes i s₀, (T.view (T.processing ctx i).1).value T.denote input c = M.cell t c
  frame : ∀ {ctx i s₀ t₀}, M.exec i s₀ = some t₀ →
    (∀ c ∈ M.reads i s₀, (T.view ctx).conc c = M.cell s₀ c) →
    ∀ c ∉ M.writes i s₀, (T.view (T.processing ctx i).1).conc c = (T.view ctx).conc c ∧
      (T.view (T.processing ctx i).1).sym c = (T.view ctx).sym c

/-- `processing` emulates a machine: where the concrete values that an instruction reads
are those of a state, the ones that it writes are those of the next state. -/
def Emulates (M : Machine) : Prop :=
  ∀ {ctx i s t}, M.exec i s = some t → (∀ c ∈ M.reads i s, (T.view ctx).conc c = M.cell s c) →
    ∀ c ∈ M.writes i s, (T.view (T.processing ctx i).1).conc c = M.cell t c

/-- The variables have values of their sizes, and nothing else has a value. -/
structure Assigns (ctx : T.Ctx) (input : Valuation) : Prop where
  sized : ∀ v ∈ T.getSymbolicVariables ctx, input v.id < 2 ^ v.bitSize
  others : ∀ id, (∀ v ∈ T.getSymbolicVariables ctx, v.id ≠ id) → input id = 0

/-- The solver finds a model of a constraint exactly when there is one. -/
structure Solves : Prop where
  distinct : ∀ a n input, T.denote (T.distinct a n) input = if T.denote a input = n then 0 else 1
  getModel : ∀ ctx a, (T.getModel ctx a).isSome = true ↔ ∃ input, T.Assigns ctx input ∧ T.denote a input ≠ 0

/-- POPFQ writes CF, and a comparison AF. -/
def Classifies (M : Machine) : Prop :=
  ∀ {ctx i s t}, M.exec i s = some t →
    ((T.processing ctx i).2.type = .popfq → .flag .cf ∈ M.writes i s) ∧
      ((T.processing ctx i).2.type = .cmp .reg .reg → .flag .af ∈ M.writes i s)

/-- The cells that an instruction reads and writes in a context, and which
expressions count as the same one in two contexts. -/
structure Footprint where
  alike : T.Ast → T.Ast → Prop
  reads : T.Ctx → Instruction → Set Cell
  writes : T.Ctx → Instruction → Set Cell

/-- `processing` depends on what it reads and changes what it writes. Expressions
that are alike denote the same function of the same number of variables. -/
structure Local (fp : T.Footprint) : Prop where
  refl : ∀ a, fp.alike a a
  denote : ∀ {a a'}, fp.alike a a' → T.denote a = T.denote a'
  searchVariables : ∀ {a a'}, fp.alike a a' → (T.searchVariables a).length = (T.searchVariables a').length
  getRegisterAst : ∀ {ctx ctx' r}, AgreeOn fp.alike {r.cell} (T.view ctx) (T.view ctx') →
    fp.alike (T.getRegisterAst ctx r) (T.getRegisterAst ctx' r)
  inputs : ∀ ctx i, T.SameInputs ctx (T.processing ctx i).1
  step : ∀ {ctx ctx' i}, T.SameInputs ctx ctx' →
    AgreeOn fp.alike (fp.reads ctx i) (T.view ctx) (T.view ctx') →
    fp.writes ctx' i = fp.writes ctx i ∧ (T.processing ctx' i).2 = (T.processing ctx i).2 ∧
      AgreeOn fp.alike (fp.writes ctx i) (T.view (T.processing ctx i).1) (T.view (T.processing ctx' i).1)
  frame : ∀ ctx i, ∀ c ∉ fp.writes ctx i,
    (T.view (T.processing ctx i).1).conc c = (T.view ctx).conc c ∧
      (T.view (T.processing ctx i).1).sym c = (T.view ctx).sym c

end Triton
end Devirt
