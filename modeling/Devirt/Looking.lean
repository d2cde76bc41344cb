import Devirt.Attack

/-! The script `looking_jmp.py`, which replays one trace to look for virtual jumps. It
shares its synchronization, its markers and its loop state with the replay script;
it has no `V_JMP` and leaves that field alone. -/
namespace Devirt

/-- `inst.getType() == OPCODE.X86.CMP`, whatever the operands. -/
def InstructionType.isCmp : InstructionType → Bool
  | .cmp _ _ => true
  | _ => false

/-- The two further calls that this script makes to the engine. -/
structure Concretizer (T : Triton) where
  concretizeAllRegister : T.Ctx → T.Ctx
  concretizeAllMemory : T.Ctx → T.Ctx

namespace Looking
open Devirt.Python (PyError)
open Attack (State Loop Files)

variable {T : Triton}

def syncReg (ctx : T.Ctx) (regs : List Text) : Except PyError T.Ctx := Attack.syncReg ctx regs

def syncMemory (ctx : T.Ctx) (args : List Text) : Except PyError T.Ctx := Attack.syncMemory ctx args

def detectingVjmp (s : State T) (inst : Processed) : State T :=
  let s := if inst.isSymbolized && inst.type == .popfq then
      Attack.marker s .cf ("[+] A potential symbolic jump found on CF flag: " ++ inst.repr)
    else s
  if inst.isSymbolized && inst.type.isCmp then
    Attack.marker s .af ("[+] A potential symbolic jump found of AF flag: " ++ inst.repr)
  else s

/-- The body under the fuse, which does not ask whether there are inputs already. -/
def seedInputs (symsize : Nat) (ctx : T.Ctx) : Except PyError T.Ctx := do
  let (first, second) ← Attack.mapSize symsize
  let ctx := T.symbolizeRegister ctx first "x"
  return T.symbolizeRegister ctx second "y"

def burnFuse (symsize : Nat) (s : State T) (fuse : Bool) : Except PyError (State T) :=
  if fuse then do
    let s := s.print "[+] Symbolize inputs"
    return { s with ctx := ← seedInputs symsize s.ctx }
  else return s

def process (s : State T) (inst : Instruction) : Except PyError (State T) := do
  Attack.native (T.disassembly inst)
  let (ctx, processed) := T.processing s.ctx inst
  return detectingVjmp { s with ctx := ctx } processed

def execInstruction (symsize : Nat) (s : State T) (args : List Text) (fuse : Bool) :
    Except PyError (State T × Bool) :=
  match args with
  | [_, addr, _, data] => do
    let s ← burnFuse symsize s fuse
    let inst : Instruction :=
      ⟨← Python.unsigned (← Python.int 16 addr), ← Python.fromhex data⟩
    let s ← process s inst
    return (s, false)
  | _ => .error .valueError

def emulateLine (symsize : Nat) (l : Loop T) (line : Text) : Except PyError (Loop T) := do
  let args := Python.split ':' line
  let kind := args.headD []
  -- Synch memory read
  let l ← if kind = ['m', 'r'] then do
      return { l with state := { l.state with ctx := ← syncMemory l.state.ctx args } }
    else pure l
  -- Synch registers
  let l ← if kind = ['r'] then do
      return { l with state := { l.state with ctx := ← syncReg l.state.ctx args.tail } }
    else pure l
  -- Execute instruction
  if kind = ['i'] then do
    let (state, fuse) ← execInstruction symsize l.state args l.fuse
    return { state := state, fuse := fuse, count := l.count + 1 }
  else pure l

def emulateLines (symsize : Nat) (l : Loop T) (lines : List Text) : Except PyError (Loop T) :=
  lines.foldlM (emulateLine symsize) l

def emulate (symsize : Nat) (s : State T) (file : Text) : Except PyError (State T) := do
  let l ← emulateLines symsize { state := s, fuse := true, count := 0 } (Attack.readLines file)
  return l.state.print ("[+] Instruction executed: " ++ toString l.count)

def setMode (ctx : T.Ctx) : T.Ctx := Attack.setMode ctx

def onePath (C : Concretizer T) (s : State T) (trace : Text) (symsize : Nat) :
    Except PyError (State T × T.Ast) := do
  let ctx := C.concretizeAllRegister s.ctx
  let ctx := C.concretizeAllMemory ctx
  let s := { s with ctx := ctx }.print "[+] Replaying the VMP trace"
  let s ← emulate symsize s trace
  let s := s.print "[+] Emulation done"
  return (s, T.getRegisterAst s.ctx .eax)

/-- The command line after parsing. -/
structure Argv where
  trace : Option String
  symsize : Option Int

/-- The expression of the path is computed and dropped. -/
def analysis (C : Concretizer T) (files : Files) (argv : Argv) : Except PyError (Int × List String) := do
  let s : State T := { ctx := setMode T.new, vJmp := [], stdout := [] }
  let trace ← Attack.openFile files (argv.trace.getD "")
  let (s, _) ← onePath C s trace (argv.symsize.getD 0).toNat
  return (0, s.stdout)

/-- The diagnostics with which `main` refuses a command line. -/
def refusal (argv0 : String) (argv : Argv) : Option (List String) :=
  if argv.trace.isNone then
    some ["[-] You must define a VMP trace",
      "[!] Syntax: " ++ argv0 ++ " --trace <vmp trace> --symsize <sym size>"]
  else if !([some 1, some 2, some 4, some 8].contains argv.symsize) then
    some ["[-] Size of symbolic variables must be equal to: 1, 2, 4, or 8 bytes",
      "[!] Syntax: " ++ argv0 ++ " --trace <vmp trace> --symsize <sym size>"]
  else none

/-- The exit status and the printed lines. -/
def main (C : Concretizer T) (files : Files) (argv0 : String) (argv : Argv) :
    Except PyError (Int × List String) :=
  match refusal argv0 argv with
  | some lines => .ok (-1, lines)
  | none => analysis C files argv

end Looking
end Devirt
