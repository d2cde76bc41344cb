import Devirt.Python
import Devirt.Triton

/-! The replay script `attack_vmp.py`, function by function. Every function takes
the engine as a parameter; printed lines are collected in the state. -/
namespace Devirt.Attack
open Devirt.Python (PyError)

variable (T : Triton)

/-- What the script mutates: the context, the global `V_JMP` and the output. -/
structure State where
  ctx : T.Ctx
  vJmp : List T.Ast
  stdout : List String

variable {T}

def State.print (s : State T) (line : String) : State T := { s with stdout := s.stdout ++ [line] }

/-- An exception of the engine surfaces as a Python exception. -/
def native (result : Except String α) : Except PyError α := result.mapError .triton

/-- `list[i]` -/
def index (name : String) (list : List α) (i : Nat) : Except PyError α :=
  match list[i]? with
  | some value => .ok value
  | none => .error (.indexError name)

/-- The column of each general register in a register record. -/
def mapping : List (Gpr × Nat) :=
  [(.rax, 0), (.rbx, 1), (.rcx, 2), (.rdx, 3), (.rdi, 4), (.rsi, 5), (.rbp, 6), (.rsp, 7),
   (.r8, 8), (.r9, 9), (.r10, 10), (.r11, 11), (.r12, 12), (.r13, 13), (.r14, 14), (.r15, 15)]

def syncOneReg (ctx : T.Ctx) (tt_reg : Gpr) (pin_value : Text) : Except PyError T.Ctx := do
  let tt_value := T.getConcreteRegisterValue ctx (.full tt_reg)
  let value ← Python.int 16 pin_value
  if (tt_value : Int) ≠ value then
    native (T.setConcreteRegisterValue ctx (.full tt_reg) (← Python.unsigned value))
  else return ctx

def syncReg (ctx : T.Ctx) (regs : List Text) : Except PyError T.Ctx := do
  let mapped ← mapping.mapM fun (reg, i) => do return (reg, ← index "regs" regs i)
  mapped.foldlM (fun ctx (tt_reg, pin_value) => syncOneReg ctx tt_reg pin_value) ctx

def syncMemory (ctx : T.Ctx) (args : List Text) : Except PyError T.Ctx :=
  match args with
  | [_, addr, size, data] => do
    let memory : MemoryAccess :=
      ⟨← Python.unsigned (← Python.int 16 addr), ← Python.unsigned (← Python.int 10 size)⟩
    let synch ← native (T.getConcreteMemoryValue ctx memory)
    let value ← Python.int 16 data
    if (synch : Int) ≠ value then
      native (T.setConcreteMemoryValue ctx memory (← Python.unsigned value))
    else return ctx
  | _ => .error .valueError

/-- The parameters every replay function is passed down. -/
structure Options where
  execid : Nat
  symsize : Nat
  vbraddr : Option Int
  vbrflag : Option String

/-- `vbraddr and vbrflag`: neither missing, nor zero, nor empty. -/
def Options.branchGiven (o : Options) : Bool :=
  (match o.vbraddr with
    | some addr => addr != 0
    | none => false) &&
  (match o.vbrflag with
    | some flag => flag != ""
    | none => false)

/-- The recorder's outer test: the second replay, with a branch to look for. -/
def Options.recording (o : Options) : Bool := o.execid == 2 && o.branchGiven

/-- `inst.isSymbolized() and inst.getAddress() == vbraddr` -/
def Options.visits (o : Options) (address : Nat) (inst : Processed) : Bool :=
  inst.isSymbolized && o.vbraddr == some (address : Int)

/-- The condition that the flag has the value it has now. -/
def condition (ctx : T.Ctx) (flag : Register) : T.Ast :=
  T.equal (T.getRegisterAst ctx flag) (T.evaluate ctx (T.getRegisterAst ctx flag))

/-- A marker prints when the flag depends on two variables and can change. -/
def marker (s : State T) (flag : Register) (message : String) : State T :=
  let ast := T.getRegisterAst s.ctx flag
  if (T.searchVariables ast).length = 2 then
    match T.getModel s.ctx (T.distinct ast (T.evaluate s.ctx ast)) with
    | some model => s.print (message ++ " - Model: " ++ model)
    | none => s
  else s

def detectingVjmp (o : Options) (s : State T) (address : Nat) (inst : Processed) :
    Except PyError (State T) :=
  if o.recording then
    if o.visits address inst then do
      let reg ← native (T.getRegister (o.vbrflag.getD ""))
      if (T.searchVariables (T.getRegisterAst s.ctx reg)).length = 2 then
        -- The model that is asked for here is not used.
        return { s with vJmp := s.vJmp ++ [condition s.ctx reg] }
      else return s
    else return s
  else if o.execid = 1 then
    -- Virtual jmp marker 1
    let s := if inst.isSymbolized && inst.type == .popfq then
        marker s .cf ("[+] A potential symbolic jump found on CF flag: " ++ inst.repr)
      else s
    -- Virtual jmp marker 2
    return if inst.isSymbolized && inst.type == .cmp .reg .reg then
        marker s .af ("[+] A potential symbolic jump found of AF flag: " ++ inst.repr)
      else s
  else return s

def updateSymVar (ctx : T.Ctx) : Except PyError T.Ctx := do
  let x_val := T.getConcreteRegisterValue ctx .rdi
  let y_val := T.getConcreteRegisterValue ctx .rsi
  let sym_x ← native (T.getSymbolicVariable ctx 0)
  let sym_y ← native (T.getSymbolicVariable ctx 1)
  let ctx ← native (T.setConcreteVariableValue ctx sym_x x_val)
  let ctx ← native (T.setConcreteVariableValue ctx sym_y y_val)
  let x := T.zx (64 - sym_x.bitSize) (T.astVariable sym_x)
  let y := T.zx (64 - sym_y.bitSize) (T.astVariable sym_y)
  let (ctx, x) := T.newSymbolicExpression ctx x
  let ctx ← native (T.assignSymbolicExpressionToRegister ctx x .rdi)
  let (ctx, y) := T.newSymbolicExpression ctx y
  native (T.assignSymbolicExpressionToRegister ctx y .rsi)

/-- `map_size[symsize]` -/
def mapSize (symsize : Nat) : Except PyError (Register × Register) :=
  match symsize with
  | 1 => .ok (.dil, .sil)
  | 2 => .ok (.di, .si)
  | 4 => .ok (.edi, .esi)
  | 8 => .ok (.rdi, .rsi)
  | _ => .error .keyError

/-- The body under the fuse: create the inputs, or assign the existing ones. -/
def seedInputs (symsize : Nat) (ctx : T.Ctx) : Except PyError T.Ctx :=
  if (T.getSymbolicVariables ctx).length = 0 then do
    let (first, second) ← mapSize symsize
    let ctx := T.symbolizeRegister ctx first "x"
    return T.symbolizeRegister ctx second "y"
  else updateSymVar ctx

/-- This fuse is burned after the first instruction. -/
def burnFuse (o : Options) (s : State T) (fuse : Bool) : Except PyError (State T) :=
  if fuse then do
    let s := s.print "[+] Symbolize inputs"
    return { s with ctx := ← seedInputs o.symsize s.ctx }
  else return s

def process (o : Options) (s : State T) (inst : Instruction) : Except PyError (State T) := do
  native (T.disassembly inst)
  let (ctx, processed) := T.processing s.ctx inst
  detectingVjmp o { s with ctx := ctx } inst.address processed

def execInstruction (o : Options) (s : State T) (args : List Text) (fuse : Bool) :
    Except PyError (State T × Bool) :=
  match args with
  | [_, addr, _, data] => do
    let s ← burnFuse o s fuse
    let inst : Instruction :=
      ⟨← Python.unsigned (← Python.int 16 addr), ← Python.fromhex data⟩
    let s ← process o s inst
    return (s, false)
  | _ => .error .valueError

variable (T) in
/-- The state of the line loop. -/
structure Loop where
  state : State T
  fuse : Bool
  count : Nat

def emulateLine (o : Options) (l : Loop T) (line : Text) : Except PyError (Loop T) := do
  let args := Python.split ':' line
  let kind := args.headD []
  -- Synch memory read
  let l ← if kind = ['m', 'r'] then do
      return { l with state := { l.state with ctx := ← syncMemory l.state.ctx args } }
    else pure l
  -- Synch registers
  let l ← if kind = ['r'] then do
      return { l with state := { l.state with ctx := ← syncReg l.state.ctx args.tail } }
    else pure l
  -- Execute instruction
  if kind = ['i'] then do
    let (state, fuse) ← execInstruction o l.state args l.fuse
    return { state := state, fuse := fuse, count := l.count + 1 }
  else pure l

def emulateLines (o : Options) (l : Loop T) (lines : List Text) : Except PyError (Loop T) :=
  lines.foldlM (emulateLine o) l

/-- The lines of an opened text file. -/
def readLines (file : Text) : List Text := Text.lines (Text.universalNewlines file)

def emulate (o : Options) (s : State T) (file : Text) : Except PyError (State T) := do
  let l ← emulateLines o { state := s, fuse := true, count := 0 } (readLines file)
  return l.state.print ("[+] Instruction executed: " ++ toString l.count)

def onePath (o : Options) (s : State T) (trace : Text) : Except PyError (State T × T.Ast) := do
  let s := s.print "[+] Replaying the VMP trace"
  let s ← emulate o s trace
  let s := s.print "[+] Emulation done"
  return (s, T.getRegisterAst s.ctx .eax)

def setMode (ctx : T.Ctx) : T.Ctx :=
  let ctx := T.setMode ctx "ALIGNED_MEMORY" true
  let ctx := T.setMode ctx "AST_OPTIMIZATIONS" true
  T.setMode ctx "CONSTANT_FOLDING" true

/-- The text shown for an expression: cut to 100 characters when long. -/
def excerpt (text cut : String) : String :=
  if text.length < 100 then text else "In: " ++ (cut.take 100).toString ++ " ..."

def hex (value : Nat) : String := "0x" ++ String.ofList (Numeral.write 16 false value)

def result (s : State T) (ret_expr : T.Ast) : State T :=
  let unro := T.str (T.unroll ret_expr)
  let synth := T.synthesize s.ctx ret_expr
  let shown := match synth with
    | some ast => T.str ast
    | none => "None"
  let s := s.print ("[+] Return value: " ++ hex (T.evaluate s.ctx ret_expr))
  let s := s.print ("[+] Devirt expr: " ++ excerpt unro unro)
  let s := s.print ("[+] Synth expr: " ++ excerpt shown unro ++ "\n")
  let s := s.print "[+] LLVM IR ==============================\n"
  let s := s.print (T.liftToLLVM s.ctx (synth.getD ret_expr))
  s.print "[+] EOF LLVM IR ============================== "

/-- The command line after parsing. -/
structure Argv where
  trace1 : Option String
  trace2 : Option String
  symsize : Option Int
  vbraddr : Option Int
  vbrflag : Option String

/-- The options of one replay. `main` has checked the size of the variables. -/
def Argv.options (argv : Argv) (execid : Nat) : Options where
  execid := execid
  symsize := (argv.symsize.getD 0).toNat
  vbraddr := argv.vbraddr
  vbrflag := argv.vbrflag

/-- `argv.trace2` as a truth value, with the file it names. -/
def Argv.second (argv : Argv) : Option String :=
  match argv.trace2 with
  | some path => if path = "" then none else some path
  | none => none

/-- The end of `analysis` for two traces, up to the call of `result`. -/
def merge (s : State T) (ret_expr1 ret_expr2 : T.Ast) : Except PyError (State T × T.Ast) := do
  let s := s.print "[+] Merging expressions from trace1 and trace2"
  let e1 ← index "V_JMP" s.vJmp 0
  return (s, T.ite e1 ret_expr2 ret_expr1)

/-- The text files that can be opened, by their paths. -/
abbrev Files := String → Option Text

def openFile (files : Files) (path : String) : Except PyError Text :=
  match files path with
  | some text => .ok text
  | none => .error .fileNotFoundError

variable (T) in
/-- Everything `analysis` does before it calls `result`. -/
def analysisExpr (files : Files) (argv : Argv) (stdout : List String) :
    Except PyError (State T × T.Ast) := do
  let s : State T := { ctx := setMode T.new, vJmp := [], stdout := stdout }
  let (s, ret_expr1) ← onePath (argv.options 1) s (← openFile files (argv.trace1.getD ""))
  match argv.second with
  | some trace2 => do
    let s := s.print "[+] A second trace has been provided"
    let (s, ret_expr2) ← onePath (argv.options 2) s (← openFile files trace2)
    merge s ret_expr1 ret_expr2
  | none => return (s, ret_expr1)

variable (T) in
def analysis (files : Files) (argv : Argv) : Except PyError (Int × List String) := do
  let (s, ret_expr) ← analysisExpr T files argv []
  return (0, (result s ret_expr).stdout)

/-- The diagnostics with which `main` refuses a command line. -/
def refusal (argv0 : String) (argv : Argv) : Option (List String) :=
  if argv.trace1.isNone then
    some ["[-] You must define a VMP trace",
      "[!] Syntax: " ++ argv0 ++ " --trace1 <vmp trace> --symsize <sym size>"]
  else if argv.symsize ∉ [some 1, some 2, some 4, some 8] then
    some ["[-] Size of symbolic variables must be equal to: 1, 2, 4, or 8 bytes",
      "[!] Syntax: " ++ argv0 ++ " --trace1 <vmp trace> --symsize <sym size>"]
  else if argv.trace2.isSome ∧ argv.vbrflag.isNone then
    some ["[-] If you define a second trace, you have to define the virtual branch flag (e.g: cf, af, zf etc.",
      "[!] Syntax: " ++ argv0 ++ " --trace1 <vmp trace> --trace2 <vmp trace> --symsize <sym size> " ++
        "--vbraddr <vbraddr> --vbrflag <vbrflag>"]
  else none

variable (T) in
/-- The exit status and the printed lines. -/
def main (files : Files) (argv0 : String) (argv : Argv) : Except PyError (Int × List String) :=
  match refusal argv0 argv with
  | some lines => .ok (-1, lines)
  | none => analysis T files argv

end Devirt.Attack
