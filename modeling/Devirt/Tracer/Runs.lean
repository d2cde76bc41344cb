import Devirt.Triton
import Devirt.Tracer.Callbacks

/-! Runs of a machine and the callbacks of a complete log: before every
instruction all the memory it reads, then the registers. -/
namespace Devirt.Tracer

/-- The cells that some record of a list reports. -/
def covered (calls : List Callback) : Set Cell := {c | ∃ call ∈ calls, c ∈ call.cells}

theorem covered_nil : covered [] = ∅ := by simp [covered]

theorem covered_cons (call : Callback) (rest : List Callback) :
    covered (call :: rest) = {c | c ∈ call.cells} ∪ covered rest := by
  ext c
  simp [covered]

end Devirt.Tracer

namespace Devirt.Machine
open Tracer

variable (M : Machine)

def memory (s : M.State) (addr : BitVec 64) : BitVec 8 := BitVec.ofNat 8 (M.cell s (.mem addr))

/-- The register and instruction record of a state about to execute `i`. -/
def record (i : Instruction) (s : M.State) : Callback :=
  .inst (fun reg => BitVec.ofNat 64 (M.cell s (.gpr reg))) (BitVec.ofNat 64 i.address) i.opcode

/-- The memory records before an instruction, which leave out nothing that it reads. -/
structure Reports (i : Instruction) (s : M.State) (reads : List Callback) : Prop where
  memreads : ∀ call ∈ reads, ∃ addr size, AccessSize size ∧ call = .memread addr size (M.memory s)
  covers : ∀ addr, .mem addr ∈ M.reads i s → ∃ call ∈ reads, .mem addr ∈ call.cells

/-- A run from one state to another with the callbacks of its complete log. -/
inductive Logged : List Instruction → M.State → List Callback → M.State → Prop
  | done (s : M.State) : Logged [] s [] s
  | next {i is s s' t reads calls} (reports : M.Reports i s reads) (address : i.address < 2 ^ 64)
      (stepped : M.exec i s = some s') (rest : Logged is s' calls t) :
      Logged (i :: is) s (reads ++ M.record i s :: calls) t

/-- Two runs of one path: the same instructions, reading and writing the same
cells. The last state is where the second run ends. -/
inductive SamePath : List Instruction → M.State → M.State → M.State → Prop
  | done (s₀ s : M.State) : SamePath [] s₀ s s
  | next {i is s₀ s s₀' s' t} (stepped₀ : M.exec i s₀ = some s₀') (stepped : M.exec i s = some s')
      (reads : M.reads i s = M.reads i s₀) (writes : M.writes i s = M.writes i s₀)
      (rest : SamePath is s₀' s' t) : SamePath (i :: is) s₀ s t

/-- No instruction of the run reads a flag that none wrote before it. -/
def FlagsWritten : Set Cell → List Instruction → M.State → Prop
  | _, [], _ => True
  | written, i :: is, s => (∀ f, Cell.flag f ∈ M.reads i s → Cell.flag f ∈ written) ∧
      ∀ s', M.exec i s = some s' → FlagsWritten (written ∪ M.writes i s) is s'

/-- The cells that a prefix of the log reports or that the run writes meanwhile. -/
def seen : List Instruction → M.State → List Callback → Set Cell → Set Cell
  | _, _, [], known => known
  | is, s, .memread addr size mem :: calls, known =>
    seen is s calls (known ∪ {c | c ∈ (Callback.memread addr size mem).cells})
  | [], _, .inst _ _ _ :: _, known => known
  | i :: is, s, .inst regs addr opcode :: calls, known =>
    let known := known ∪ {c | c ∈ (Callback.inst regs addr opcode).cells} ∪ M.writes i s
    match M.exec i s with
    | some s' => seen is s' calls known
    | none => known

variable {M}

theorem memory_toNat (s : M.State) (addr : BitVec 64) :
    (M.memory s addr).toNat = M.cell s (.mem addr) := by
  rw [memory, BitVec.toNat_ofNat, Nat.mod_eq_of_lt (M.mem_lt s addr)]

theorem record_observed (i : Instruction) (s : M.State) {c : Cell} (inside : c ∈ (M.record i s).cells) :
    (M.record i s).observed c = M.cell s c := by
  obtain ⟨reg, _, rfl⟩ := List.mem_map.mp inside
  simp only [record, Callback.observed, BitVec.toNat_ofNat]
  exact Nat.mod_eq_of_lt (M.gpr_lt s reg)

theorem seen_memreads (is : List Instruction) (s : M.State) {reads : List Callback}
    (memreads : ∀ call ∈ reads, ∃ addr size mem, call = .memread addr size mem) (calls : List Callback)
    (known : Set Cell) : M.seen is s (reads ++ calls) known =
      M.seen is s calls (known ∪ covered reads) := by
  induction reads generalizing known with
  | nil => rw [covered_nil, Set.union_empty, List.nil_append]
  | cons call rest ih =>
    obtain ⟨addr, size, mem, rfl⟩ := memreads call List.mem_cons_self
    rw [List.cons_append, seen, ih fun call member => memreads call (List.mem_cons_of_mem _ member),
      covered_cons, Set.union_assoc]

theorem seen_record {i : Instruction} {is : List Instruction} {s s' : M.State}
    (stepped : M.exec i s = some s') (calls : List Callback) (known : Set Cell) :
    M.seen (i :: is) s (M.record i s :: calls) known =
      M.seen is s' calls (known ∪ {c | c ∈ (M.record i s).cells} ∪ M.writes i s) := by
  simp only [record, seen, stepped]

end Devirt.Machine
