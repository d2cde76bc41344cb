import Devirt.Machine
import Devirt.Tracer.Ostream

/-! The two analysis callbacks of the tracer and the log they write. -/
namespace Devirt.Tracer

/-- The little-endian integer loaded from `size` bytes at `addr`. -/
def load (mem : BitVec 64 → BitVec 8) (addr : BitVec 64) (size : Nat) : Nat :=
  Nat.ofDigits 256 ((List.range size).map fun i => (mem (addr + BitVec.ofNat 64 i)).toNat)

/-- One register column. -/
def putRegister (out : Ostream) (value : BitVec 64) : Ostream :=
  (((out.puts [':']).hex.puts ['0', 'x']).putUnsigned value.toNat).dec

/-- One opcode byte, `((int)addr[i]) & 0xFF` in two digits. -/
def putByte (out : Ostream) (byte : BitVec 8) : Ostream :=
  (((out.uppercase.hex).setfill '0').setw 2).putSigned (byte.setWidth 32)

def cbInst (out : Ostream) (ctx : Gpr → BitVec 64) (addr : BitVec 64) (opcode : List (BitVec 8)) :
    Ostream :=
  let f := out.flags
  -- Registers
  let out := (Gpr.all.foldl (fun out reg => putRegister out (ctx reg)) (out.puts ['r'])).endl
  -- Instruction
  let out := (((out.puts ['i', ':']).hex.puts ['0', 'x']).putUnsigned addr.toNat).dec
  let out := ((out.puts [':']).putUnsigned opcode.length).puts [':']
  let out := opcode.foldl putByte out
  out.endl.setFlags f

/-- The `switch` over the access size, which has no default case. -/
def putMemory (out : Ostream) (addr : BitVec 64) (size : Nat) (mem : BitVec 64 → BitVec 8) : Ostream :=
  match size with
  | 1 => ((out.hex.puts ['0', 'x']).putSigned (BitVec.ofNat 32 (load mem addr 1))).dec
  | 2 => ((out.hex.puts ['0', 'x']).putSigned (BitVec.ofNat 16 (load mem addr 2))).dec
  | 4 => ((out.hex.puts ['0', 'x']).putUnsigned (load mem addr 4)).dec
  | 8 => ((out.hex.puts ['0', 'x']).putUnsigned (load mem addr 8)).dec
  | _ => out

def cbMemread (out : Ostream) (addr : BitVec 64) (size : Nat) (mem : BitVec 64 → BitVec 8) : Ostream :=
  let f := out.flags
  let out := (((out.puts ['m', 'r', ':']).hex.puts ['0', 'x']).putUnsigned addr.toNat).dec
  let out := ((out.puts [':']).putUnsigned size).puts [':']
  let out := putMemory out addr size mem
  out.endl.setFlags f

/-- One call of an analysis callback, with the state it runs in. -/
inductive Callback where
  | memread (addr : BitVec 64) (size : Nat) (mem : BitVec 64 → BitVec 8)
  | inst (ctx : Gpr → BitVec 64) (addr : BitVec 64) (opcode : List (BitVec 8))

def Callback.run (out : Ostream) : Callback → Ostream
  | .memread addr size mem => cbMemread out addr size mem
  | .inst ctx addr opcode => cbInst out ctx addr opcode

def Callback.isMemread : Callback → Bool
  | .memread _ _ _ => true
  | .inst _ _ _ => false

/-- The cells whose contents a callback reports. -/
def Callback.cells : Callback → List Cell
  | .memread addr size _ => Cell.range addr size
  | .inst _ _ _ => Gpr.all.map .gpr

/-- The contents that it reports for them. -/
def Callback.observed : Callback → Cell → Nat
  | .memread _ _ mem, .mem addr => (mem addr).toNat
  | .inst ctx _ _, .gpr reg => (ctx reg).toNat
  | _, _ => 0

/-- The first register record. -/
def firstRegisters : List Callback → Option (Gpr → BitVec 64)
  | [] => none
  | .memread _ _ _ :: rest => firstRegisters rest
  | .inst regs _ _ :: _ => some regs

/-- What reaches the log file: callbacks, and lines other writers put between them. -/
inductive Output where
  | callback (call : Callback)
  | foreign (line : Text)

def Output.run (out : Ostream) : Output → Ostream
  | .callback call => call.run out
  | .foreign line => { out with text := out.text ++ line ++ ['\n'] }

def logFile (outputs : List Output) : Text := (outputs.foldl Output.run cerr).text

def log (calls : List Callback) : Text := logFile (calls.map Output.callback)

end Devirt.Tracer
