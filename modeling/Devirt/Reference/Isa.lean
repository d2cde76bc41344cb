import Mathlib.Data.Nat.Digits.Lemmas
import Devirt.Tracer.Callbacks

/-! A few x86-64 instructions with their effects on cells, enough to run and
trace small functions of EDI and ESI. Memory operands are relative to RIP, so an
instruction's footprint depends on the instruction alone. -/
namespace Devirt

/-- The number of values a cell can hold. -/
def Cell.bound : Cell → Nat
  | .gpr _ => 2 ^ 64
  | .flag _ => 2
  | .mem _ => 256

theorem Cell.bound_pos (c : Cell) : 0 < c.bound := by
  cases c <;> simp [bound]

end Devirt

namespace Devirt.Reference
open Tracer

inductive Op where
  /-- `mov eax, edi` and `mov eax, esi` -/
  | mov (source : Gpr)
  /-- `add edi, esi` -/
  | add
  /-- `cmp edi, esi` -/
  | cmp
  /-- `mov eax, [rip+disp]` -/
  | load (disp : BitVec 32)
  /-- `mov [rip+disp], edi` -/
  | store (disp : BitVec 32)
  | loop (disp : BitVec 8)
  | jb (disp : BitVec 8)
  deriving DecidableEq

def decode : List (BitVec 8) → Option Op
  | [0x89, 0xf8] => some (.mov .rdi)
  | [0x89, 0xf0] => some (.mov .rsi)
  | [0x01, 0xf7] => some .add
  | [0x39, 0xf7] => some .cmp
  | [0x8b, 0x05, a, b, c, d] => some (.load (d ++ c ++ b ++ a))
  | [0x89, 0x3d, a, b, c, d] => some (.store (d ++ c ++ b ++ a))
  | [0xe2, d] => some (.loop d)
  | [0x72, d] => some (.jb d)
  | _ => none

/-- One cell written from the values of the cells read. -/
structure Effect where
  target : Cell
  reads : List Cell
  op : List Nat → Nat

def Effect.compute (e : Effect) (f : Cell → Nat) : Nat := e.op (e.reads.map f) % e.target.bound

theorem Effect.compute_lt (e : Effect) (f : Cell → Nat) : e.compute f < e.target.bound :=
  Nat.mod_lt _ e.target.bound_pos

theorem Effect.compute_congr {e : Effect} {f g : Cell → Nat} (same : ∀ c ∈ e.reads, f c = g c) :
    e.compute f = e.compute g := by
  rw [Effect.compute, Effect.compute, List.map_congr_left same]

def binary (op : Nat → Nat → Nat) : List Nat → Nat
  | [a, b] => op (a % 2 ^ 32) (b % 2 ^ 32)
  | _ => 0

def unary (op : Nat → Nat) : List Nat → Nat
  | [a] => op a
  | _ => 0

def evenParity (byte : Nat) : Nat :=
  if ((List.range 8).map fun k => byte / 2 ^ k % 2).sum % 2 = 0 then 1 else 0

/-- The arithmetic flags of two operands and the result; `carry` and `overflow`
are what tells addition from subtraction. -/
def arithmetic (result carry overflow : Nat → Nat → Nat) : List Effect :=
  let reads : List Cell := [.gpr .rdi, .gpr .rsi]
  [⟨.flag .cf, reads, binary carry⟩,
   ⟨.flag .zf, reads, binary fun a b => if result a b = 0 then 1 else 0⟩,
   ⟨.flag .sf, reads, binary fun a b => result a b / 2 ^ 31⟩,
   ⟨.flag .of, reads, binary fun a b => overflow a b / 2 ^ 31⟩,
   ⟨.flag .pf, reads, binary fun a b => evenParity (result a b % 256)⟩,
   ⟨.flag .af, reads, binary fun a b => (a ^^^ b ^^^ result a b) / 16⟩]

def sum (a b : Nat) : Nat := (a + b) % 2 ^ 32
def difference (a b : Nat) : Nat := (a + (2 ^ 32 - b)) % 2 ^ 32

/-- The address of a RIP-relative operand. -/
def operand (inst : Instruction) (disp : BitVec 32) : BitVec 64 :=
  BitVec.ofNat 64 (inst.address + inst.opcode.length) + disp.signExtend 64

def effects (inst : Instruction) : List Effect :=
  match decode inst.opcode with
  | some (.mov source) => [⟨.gpr .rax, [.gpr source], unary (· % 2 ^ 32)⟩]
  | some .add =>
    ⟨.gpr .rdi, [.gpr .rdi, .gpr .rsi], binary sum⟩ ::
      arithmetic sum (fun a b => (a + b) / 2 ^ 32) fun a b => (a ^^^ sum a b) &&& (b ^^^ sum a b)
  | some .cmp =>
    arithmetic difference (fun a b => if a < b then 1 else 0) fun a b => (a ^^^ b) &&& (a ^^^ difference a b)
  | some (.load disp) => [⟨.gpr .rax, Cell.range (operand inst disp) 4, Nat.ofDigits 256⟩]
  | some (.store disp) => (List.range 4).map fun k =>
      ⟨.mem (operand inst disp + BitVec.ofNat 64 k), [.gpr .rdi], unary (· / 256 ^ k)⟩
  | some (.loop _) => [⟨.gpr .rcx, [.gpr .rcx], unary (· + (2 ^ 64 - 1))⟩]
  | some (.jb _) => []
  | none => []

/-- The effect that writes a cell, if there is one. -/
def effectOn (inst : Instruction) (c : Cell) : Option Effect :=
  (effects inst).find? fun e => e.target = c

theorem effectOn_target {inst : Instruction} {c : Cell} {e : Effect}
    (found : effectOn inst c = some e) :
    e.target = c ∧ e ∈ effects inst :=
  ⟨of_decide_eq_true (List.find?_some (p := fun e : Effect => decide (e.target = c)) found),
    List.mem_of_find?_eq_some found⟩

/-- The cells that control flow depends on. -/
def branchReads (inst : Instruction) : List Cell :=
  match decode inst.opcode with
  | some (.jb _) => [.flag .cf]
  | _ => []

def readCells (inst : Instruction) : Set Cell :=
  fun c => c ∈ branchReads inst ∨ ∃ e ∈ effects inst, c ∈ e.reads

def writtenCells (inst : Instruction) : Set Cell := fun c => (effectOn inst c).isSome

/-- The memory reads that the tracer reports before the instruction. -/
def accesses (inst : Instruction) : List (BitVec 64 × Nat) :=
  match decode inst.opcode with
  | some (.load disp) => [(operand inst disp, 4)]
  | _ => []

/-! The machine that runs a program of such instructions. -/

structure Cpu where
  cells : Cell → Nat
  rip : Nat

def Cpu.cell (s : Cpu) (c : Cell) : Nat := s.cells c % c.bound

def target (inst : Instruction) (disp : BitVec 8) : Nat :=
  (BitVec.ofNat 64 (inst.address + inst.opcode.length) + disp.signExtend 64).toNat

def next (inst : Instruction) (s : Cpu) : Nat :=
  match decode inst.opcode with
  | some (.loop disp) =>
    if s.cell (.gpr .rcx) = 1 then inst.address + inst.opcode.length else target inst disp
  | some (.jb disp) =>
    if s.cell (.flag .cf) = 1 then target inst disp else inst.address + inst.opcode.length
  | _ => inst.address + inst.opcode.length

def step (inst : Instruction) (s : Cpu) : Cpu where
  cells c :=
    match effectOn inst c with
    | some e => e.compute s.cell
    | none => s.cells c
  rip := next inst s

def exec (program : List Instruction) (inst : Instruction) (s : Cpu) : Option Cpu :=
  if inst ∈ program ∧ inst.address = s.rip then some (step inst s) else none

theorem step_written {inst : Instruction} {s : Cpu} {c : Cell} {e : Effect}
    (found : effectOn inst c = some e) : (step inst s).cell c = e.compute s.cell := by
  have bound := e.compute_lt s.cell
  rw [(effectOn_target found).1] at bound
  simp only [Cpu.cell, step, found]
  exact Nat.mod_eq_of_lt bound

theorem step_frame {inst : Instruction} {s : Cpu} {c : Cell} (outside : c ∉ writtenCells inst) :
    (step inst s).cell c = s.cell c := by
  have none : effectOn inst c = none := Option.not_isSome_iff_eq_none.mp outside
  simp only [Cpu.cell, step, none]

def machine (program : List Instruction) : Machine where
  State := Cpu
  cell := Cpu.cell
  exec := exec program
  reads inst _ := readCells inst
  writes inst _ := writtenCells inst
  gpr_lt _ reg := Nat.mod_lt _ (Cell.gpr reg).bound_pos
  mem_lt _ addr := Nat.mod_lt _ (Cell.mem addr).bound_pos
  frame := by
    intro inst s t stepped c outside
    simp only [exec, Option.ite_none_right_eq_some, Option.some.injEq] at stepped
    rw [← stepped.2]
    exact step_frame outside

/-- The callbacks of one instruction in a state that is about to execute it. -/
def callbacks (inst : Instruction) (s : Cpu) : List Callback :=
  (accesses inst).map (fun (addr, size) => .memread addr size fun a => BitVec.ofNat 8 (s.cell (.mem a))) ++
    [.inst (fun reg => BitVec.ofNat 64 (s.cell (.gpr reg))) (BitVec.ofNat 64 inst.address) inst.opcode]

/-- The callbacks of a run, which ends where the program has no instruction. -/
def trace (program : List Instruction) : Nat → Cpu → List Callback
  | 0, _ => []
  | fuel + 1, s =>
    match program.find? fun inst => inst.address = s.rip with
    | some inst => callbacks inst s ++ trace program fuel (step inst s)
    | none => []

/-- A call with its two arguments and some initial memory. -/
def call (entry : Nat) (edi esi rcx : Nat) (mem : BitVec 64 → Nat) : Cpu where
  cells
    | .gpr .rdi => edi
    | .gpr .rsi => esi
    | .gpr .rcx => rcx
    | .mem addr => mem addr
    | _ => 0
  rip := entry

end Devirt.Reference
