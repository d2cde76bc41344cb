import Mathlib.Data.Set.Basic
import Mathlib.Data.List.Basic
import Mathlib.Algebra.Group.Nat.Defs

/-! The traced x86-64 machine as far as a trace and its replay can see it. The
sixteen general registers have a column in every register record; flags and the
rest of the register file have none; memory is addressed by the byte. -/
namespace Devirt

/-- In the order in which the tracer lists them. -/
inductive Gpr where
  | rax | rbx | rcx | rdx | rdi | rsi | rbp | rsp
  | r8 | r9 | r10 | r11 | r12 | r13 | r14 | r15
  deriving DecidableEq, Repr

def Gpr.all : List Gpr :=
  [.rax, .rbx, .rcx, .rdx, .rdi, .rsi, .rbp, .rsp, .r8, .r9, .r10, .r11, .r12, .r13, .r14, .r15]

theorem Gpr.mem_all (r : Gpr) : r ∈ Gpr.all := by cases r <;> decide

/-- `other` numbers the registers outside the trace that no code here names. -/
inductive Flag where
  | af | cf | df | of | pf | sf | zf
  | other (index : Nat)
  deriving DecidableEq, Repr

inductive Cell where
  | gpr (r : Gpr)
  | flag (f : Flag)
  | mem (addr : BitVec 64)
  deriving DecidableEq, Repr

/-- A named register: the low bytes of a general register, or a flag. -/
inductive Register where
  | low (r : Gpr) (bytes : Nat)
  | flag (f : Flag)
  deriving DecidableEq, Repr

namespace Register

abbrev full (r : Gpr) : Register := .low r 8
def eax : Register := .low .rax 4
def rdi : Register := full .rdi
def edi : Register := .low .rdi 4
def di : Register := .low .rdi 2
def dil : Register := .low .rdi 1
def rsi : Register := full .rsi
def esi : Register := .low .rsi 4
def si : Register := .low .rsi 2
def sil : Register := .low .rsi 1
def cf : Register := .flag .cf
def af : Register := .flag .af

/-- The cell that stores the register. -/
def cell : Register → Cell
  | .low r _ => .gpr r
  | .flag f => .flag f

/-- The register's part of its cell's value. -/
def part : Register → Nat → Nat
  | .low _ bytes, value => value % 256 ^ bytes
  | .flag _, value => value

end Register

/-- The bytes of one memory access, lowest address first. -/
def Cell.range (addr : BitVec 64) (size : Nat) : List Cell :=
  (List.range size).map fun i => .mem (addr + BitVec.ofNat 64 i)

theorem Cell.mem_range {addr : BitVec 64} {size : Nat} {c : Cell} :
    c ∈ Cell.range addr size ↔ ∃ i < size, c = .mem (addr + BitVec.ofNat 64 i) := by
  simp only [range, List.mem_map, List.mem_range]
  exact ⟨fun ⟨i, bound, same⟩ => ⟨i, bound, same.symm⟩, fun ⟨i, bound, same⟩ => ⟨i, bound, same.symm⟩⟩

theorem Cell.gpr_notMem_range (r : Gpr) (addr : BitVec 64) (size : Nat) :
    Cell.gpr r ∉ Cell.range addr size := by
  simp [Cell.mem_range]

structure Instruction where
  address : Nat
  opcode : List (BitVec 8)
  deriving DecidableEq, Repr

/-- An instruction set with the cells each execution reads and writes. `exec`
is undefined where the state is not about to execute the instruction, so that
two runs of one instruction sequence are two runs of one path. -/
structure Machine where
  State : Type
  cell : State → Cell → Nat
  exec : Instruction → State → Option State
  reads : Instruction → State → Set Cell
  writes : Instruction → State → Set Cell
  gpr_lt : ∀ s r, cell s (.gpr r) < 2 ^ 64
  mem_lt : ∀ s addr, cell s (.mem addr) < 256
  frame : ∀ {i s t}, exec i s = some t → ∀ c ∉ writes i s, cell t c = cell s c

end Devirt
