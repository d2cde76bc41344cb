import Devirt.Reference.Engine
import Devirt.Tracer.Runs
import Devirt.Attack.Decoding

/-! Programs of the small instruction set, their complete logs, and the fact that
the small engine is sound for the machine that runs them. -/
namespace Devirt.Reference
open Tracer Concolic Attack

/-- The cells an instruction reads, one by one. -/
def readList (inst : Instruction) : List Cell := branchReads inst ++ (effects inst).flatMap Effect.reads

theorem mem_readCells {inst : Instruction} {c : Cell} : c ∈ readCells inst ↔ c ∈ readList inst := by
  rw [readList, List.mem_append, List.mem_flatMap]
  rfl

theorem exec_some {program : List Instruction} {inst : Instruction} {s t : Cpu}
    (stepped : exec program inst s = some t) : inst ∈ program ∧ t = step inst s := by
  simp only [exec, Option.ite_none_right_eq_some, Option.some.injEq] at stepped
  exact ⟨stepped.1.1, stepped.2.symm⟩

theorem processing_frame (ctx : Context) (inst : Instruction) {c : Cell}
    (outside : c ∉ writtenCells inst) :
    (processing ctx inst).1.view.conc c = ctx.view.conc c ∧
      (processing ctx inst).1.view.sym c = ctx.view.sym c := by
  have none : effectOn inst c = none := Option.not_isSome_iff_eq_none.mp outside
  obtain ⟨conc, sym⟩ := processing_view ctx inst c
  simp only [none] at conc sym
  exact ⟨conc, sym⟩

theorem engine_sound {program : List Instruction}
    (decodes : ∀ inst ∈ program, (decode inst.opcode).isSome = true) : engine.Sound (machine program) where
  decodes {inst _ _} stepped := engine_decodes (decodes inst (exec_some stepped).1)
  step := by
    intro ctx inst s₀ t₀ s t input _ stepped _ _ _ represented c written
    obtain ⟨e, found⟩ := Option.isSome_iff_exists.mp written
    apply (processing_value ctx inst input c).trans
    rw [(exec_some stepped).2, found]
    apply Eq.trans _ (step_written found).symm
    exact Effect.compute_congr fun d member =>
      represented d (Or.inr ⟨e, (effectOn_target found).2, member⟩)
  frame {ctx inst _ _} _ _ _ outside := processing_frame ctx inst outside

theorem engine_emulates (program : List Instruction) : engine.Emulates (machine program) := by
  intro ctx inst s t stepped same c written
  obtain ⟨e, found⟩ := Option.isSome_iff_exists.mp written
  apply (processing_view ctx inst c).1.trans
  rw [(exec_some stepped).2, found]
  apply Eq.trans _ (step_written found).symm
  exact Effect.compute_congr fun d member => same d (Or.inr ⟨e, (effectOn_target found).2, member⟩)

/-- Expressions are the same when they are equal, and footprints are those of the instructions. -/
def footprint : engine.Footprint where
  alike := Eq
  reads _ inst := readCells inst
  writes _ inst := writtenCells inst

theorem symbolic_congr {s b : Store Cell Nat Expr} {cells : List Cell}
    (same : ∀ c ∈ cells, b.sym c = s.sym c) : symbolic b cells = symbolic s cells := by
  rw [Bool.eq_iff_iff, symbolic, symbolic, List.any_eq_true, List.any_eq_true]
  exact exists_congr fun c => and_congr_right fun member => by rw [same c member]

/-- Stores that agree on some cells give effects that read them the same results. -/
theorem lift_congr {s b : Store Cell Nat Expr} {e : Effect}
    (same : ∀ c ∈ e.reads, b.conc c = s.conc c ∧ b.sym c = s.sym c) : lift b e = lift s e := by
  have symbolic_same := symbolic_congr fun c member => (same c member).2
  have names_same : e.reads.flatMap (Context.names b) = e.reads.flatMap (Context.names s) := by
    apply List.flatMap_congr
    intro c member
    rw [Context.names, Context.names, (same c member).2]
  have value_same : ∀ input, e.compute (b.value Expr.eval input) =
    e.compute (s.value Expr.eval input) :=
    fun input => Effect.compute_congr fun c member => by
      simp only [Store.value, (same c member).1, (same c member).2]
  simp only [lift, symbolic_same, names_same, value_same]

theorem agreeOn_eq {cells : Set Cell} {s b : Store Cell Nat Expr} (agree : AgreeOn Eq cells s b) :
    ∀ c ∈ cells, b.conc c = s.conc c ∧ b.sym c = s.sym c := by
  intro c member
  obtain ⟨conc, sym⟩ := agree c member
  refine ⟨conc, ?_⟩
  cases left : s.sym c <;> cases right : b.sym c <;> simp_all

theorem engine_local : engine.Local footprint where
  refl _ := rfl
  denote same := congrArg Expr.eval same
  searchVariables same := congrArg (fun e : Expr => e.names.length) same
  getRegisterAst := by
    intro ctx ctx' r agree
    obtain ⟨conc, sym⟩ := agreeOn_eq agree r.cell rfl
    change ctx'.view.conc r.cell = ctx.view.conc r.cell at conc
    change ctx'.view.sym r.cell = ctx.view.sym r.cell at sym
    simp only [footprint, engine, Context.names, Store.value, conc, sym]
  inputs _ _ := ⟨rfl, rfl⟩
  step := by
    intro ctx ctx' inst _ agree
    have same : ∀ c ∈ readCells inst, ctx'.view.conc c = ctx.view.conc c ∧
      ctx'.view.sym c = ctx.view.sym c :=
      agreeOn_eq agree
    refine ⟨rfl, ?_, fun c written => ?_⟩
    · have symbolic_same : symbolic ctx'.view (readList inst) = symbolic ctx.view (readList inst) :=
        symbolic_congr fun c member => (same c (mem_readCells.mpr member)).2
      rw [readList] at symbolic_same
      simp only [engine, processing, symbolic_same]
    · obtain ⟨e, found⟩ := Option.isSome_iff_exists.mp written
      have reads : ∀ d ∈ e.reads, ctx'.view.conc d = ctx.view.conc d ∧
        ctx'.view.sym d = ctx.view.sym d :=
        fun d member => same d (Or.inr ⟨e, (effectOn_target found).2, member⟩)
      obtain ⟨conc, sym⟩ := processing_view ctx inst c
      obtain ⟨conc', sym'⟩ := processing_view ctx' inst c
      simp only [found] at conc sym conc' sym'
      constructor
      · exact conc'.trans ((Effect.compute_congr fun d member => (reads d member).1).trans conc.symm)
      · change Option.Rel Eq ((processing ctx inst).1.view.sym c) ((processing ctx' inst).1.view.sym c)
        rw [sym, sym', lift_congr reads]
        cases lift ctx.view e with
        | none => exact .none
        | some e => exact .some rfl
  frame ctx inst _ outside := processing_frame ctx inst outside

/-- The instructions that a run executes. -/
def executed (program : List Instruction) : Nat → Cpu → List Instruction
  | 0, _ => []
  | fuel + 1, s =>
    match program.find? fun inst => inst.address = s.rip with
    | some inst => inst :: executed program fuel (step inst s)
    | none => []

/-- The state in which a run ends. -/
def final (program : List Instruction) : Nat → Cpu → Cpu
  | 0, s => s
  | fuel + 1, s =>
    match program.find? fun inst => inst.address = s.rip with
    | some inst => final program fuel (step inst s)
    | none => s

/-- The only memory an instruction reads is its operand. -/
theorem reads_reported {inst : Instruction} {addr : BitVec 64}
    (member : Cell.mem addr ∈ readCells inst) :
    ∃ access ∈ accesses inst, Cell.mem addr ∈ Cell.range access.1 access.2 := by
  rw [mem_readCells, readList] at member
  unfold branchReads effects accesses at *
  cases decoded : decode inst.opcode with
  | none => simp [decoded] at member
  | some op =>
    cases op with
    | load disp => simpa [decoded] using member
    | store disp =>
      simp only [decoded, List.nil_append, List.mem_flatMap, List.mem_map] at member
      obtain ⟨e, ⟨k, _, rfl⟩, inside⟩ := member
      simp at inside
    | mov source => simp [decoded] at member
    | add => simp [decoded, arithmetic] at member
    | cmp => simp [decoded, arithmetic] at member
    | loop disp => simp [decoded] at member
    | jb disp => simp [decoded] at member

theorem callbacks_report (program : List Instruction) (inst : Instruction) (s : Cpu) :
    ∃ reads, callbacks inst s = reads ++ [(machine program).record inst s] ∧
      (machine program).Reports inst s reads := by
  refine ⟨_, rfl, ?_, ?_⟩
  · intro call member
    obtain ⟨⟨addr, size⟩, access, rfl⟩ := List.mem_map.mp member
    refine ⟨addr, size, ?_, rfl⟩
    unfold accesses at access
    split at access
    · simp only [List.mem_singleton, Prod.mk.injEq] at access
      rw [access.2]
      decide
    · simp at access
  · intro addr member
    obtain ⟨access, present, inside⟩ := reads_reported member
    exact ⟨_, List.mem_map_of_mem present, inside⟩

theorem callbacks_sized (inst : Instruction) (s : Cpu) : ∀ call ∈ callbacks inst s, call.Sized := by
  obtain ⟨reads, split, reports⟩ := callbacks_report [] inst s
  intro call member
  rw [split, List.mem_append, List.mem_singleton] at member
  rcases member with member | rfl
  · obtain ⟨addr, size, sized, rfl⟩ := reports.memreads call member
    exact sized
  · trivial

theorem trace_sized (program : List Instruction) (fuel : Nat) (s : Cpu) :
    ∀ call ∈ trace program fuel s, call.Sized := by
  induction fuel generalizing s with
  | zero => simp [trace]
  | succ fuel ih =>
    unfold trace
    split
    · intro call member
      rcases List.mem_append.mp member with member | member
      · exact callbacks_sized _ s call member
      · exact ih _ call member
    · simp

/-- The callbacks of a run are its complete log. -/
theorem trace_logged {program : List Instruction} (small : ∀ inst ∈ program, inst.address < 2 ^ 64)
    (fuel : Nat) (s : Cpu) :
    (machine program).Logged (executed program fuel s) s (trace program fuel s)
    (final program fuel s) := by
  induction fuel generalizing s with
  | zero => exact Machine.Logged.done (M := machine program) s
  | succ fuel ih =>
    unfold executed trace final
    cases found : program.find? fun inst => inst.address = s.rip with
    | none => exact Machine.Logged.done (M := machine program) s
    | some inst =>
      have member := List.mem_of_find?_eq_some found
      have here : inst.address = s.rip := by simpa using List.find?_some found
      obtain ⟨reads, split, reports⟩ := callbacks_report program inst s
      simp only [split, List.append_assoc, List.singleton_append]
      exact .next reports (small inst member) (if_pos ⟨member, here⟩) (ih (step inst s))

/-- Calls that execute the same instructions take the same path. -/
theorem executed_path {program : List Instruction} (fuel : Nat) (s₀ s : Cpu)
    (same : executed program fuel s = executed program fuel s₀) :
    (machine program).SamePath (executed program fuel s₀) s₀ s (final program fuel s) := by
  induction fuel generalizing s₀ s with
  | zero => exact Machine.SamePath.done (M := machine program) s₀ s
  | succ fuel ih =>
    unfold executed at same ⊢
    unfold final
    cases found₀ : program.find? fun inst => inst.address = s₀.rip with
    | none =>
      cases found : program.find? fun inst => inst.address = s.rip with
      | none => exact Machine.SamePath.done (M := machine program) s₀ s
      | some inst => simp [found₀, found] at same
    | some inst =>
      cases found : program.find? fun inst => inst.address = s.rip with
      | none => simp [found₀, found] at same
      | some other =>
        simp only [found₀, found, List.cons.injEq] at same
        obtain ⟨rfl, same⟩ := same
        have member := List.mem_of_find?_eq_some found
        have here₀ : other.address = s₀.rip := by simpa using List.find?_some found₀
        have here : other.address = s.rip := by simpa using List.find?_some found
        exact .next (if_pos ⟨member, here₀⟩) (if_pos ⟨member, here⟩) rfl rfl (ih _ _ same)

def isMem : Cell → Bool
  | .mem _ => true
  | _ => false

/-- No cell of a list is a flag. -/
def flagless (cells : List Cell) : Bool :=
  cells.all fun
    | .flag _ => false
    | _ => true

theorem flag_notMem_readCells {inst : Instruction}
    (none : flagless (readList inst) = true) (f : Flag) :
    Cell.flag f ∉ readCells inst := by
  intro member
  have read := List.all_eq_true.mp none _ (mem_readCells.mp member)
  simp at read

/-- Code that reads no flags reads none that it has not written. -/
theorem flagsWritten_of_flagless {program is : List Instruction}
    (none : ∀ inst ∈ is, flagless (readList inst) = true) (written : Set Cell) (s : Cpu) :
    (machine program).FlagsWritten written is s := by
  induction is generalizing written s with
  | nil => trivial
  | cons inst is ih =>
    constructor
    · exact fun f member => absurd member (flag_notMem_readCells (none inst List.mem_cons_self) f)
    · exact fun s' _ => ih (fun other member => none other (List.mem_cons_of_mem inst member)) _ s'

/-- Every flag that an instruction of a list reads is written by one before it. -/
def flagsOrdered : List Instruction → List Instruction → Bool
  | _, [] => true
  | before, inst :: is =>
    ((readList inst).all fun
      | .flag f => before.any fun earlier => (effectOn earlier (.flag f)).isSome
      | _ => true) && flagsOrdered (inst :: before) is

theorem flagsWritten_of_ordered {program is : List Instruction} (before : List Instruction)
    (ordered : flagsOrdered before is = true) {written : Set Cell}
    (known : ∀ inst ∈ before, ∀ c, (effectOn inst c).isSome = true → c ∈ written) (s : Cpu) :
    (machine program).FlagsWritten written is s := by
  induction is generalizing before written s with
  | nil => trivial
  | cons inst is ih =>
    rw [flagsOrdered, Bool.and_eq_true] at ordered
    constructor
    · intro f member
      have earlier := List.all_eq_true.mp ordered.1 _ (mem_readCells.mp member)
      obtain ⟨writer, present, writes⟩ := List.any_eq_true.mp earlier
      exact known writer present _ writes
    · intro s' _
      apply ih (inst :: before) ordered.2
      intro other present c writes
      rcases List.mem_cons.mp present with rfl | present
      · exact Or.inr writes
      · exact Or.inl (known other present c writes)

/-- `add edi, esi; mov eax, edi` -/
def sumProgram : List Instruction := [⟨0x401000, [0x01, 0xf7]⟩, ⟨0x401002, [0x89, 0xf8]⟩]

/-- `mov eax, [0x404030]; mov [0x404030], edi`: a function that returns a global
variable and stores its argument there. -/
def exchangeProgram : List Instruction :=
  [⟨0x401000, [0x8b, 0x05, 0x2a, 0x30, 0x00, 0x00]⟩, ⟨0x401006, [0x89, 0x3d, 0x24, 0x30, 0x00, 0x00]⟩]

/-- A call of it while the variable holds 5. -/
def exchangeCall (x : Nat) : Cpu := call 0x401000 x 0 0 fun addr => if addr = 0x404030 then 5 else 0

/-- `mov [0x404030], edi; mov eax, [0x404030]`: the argument comes back from memory. -/
def spillProgram : List Instruction :=
  [⟨0x401000, [0x89, 0x3d, 0x2a, 0x30, 0x00, 0x00]⟩, ⟨0x401006, [0x8b, 0x05, 0x24, 0x30, 0x00, 0x00]⟩]

/-- `cmp edi, esi; jb`, then one of the two in EAX: the larger, unsigned. -/
def maxProgram : List Instruction :=
  [⟨0x401000, [0x39, 0xf7]⟩, ⟨0x401002, [0x72, 0x03]⟩, ⟨0x401004, [0x89, 0xf8]⟩, ⟨0x401007, [0x89, 0xf0]⟩]

/-- The same after a loop that adds ESI to EDI and compares in every round. -/
def loopProgram : List Instruction :=
  [⟨0x401000, [0x01, 0xf7]⟩, ⟨0x401002, [0x39, 0xf7]⟩, ⟨0x401004, [0xe2, 0xfa]⟩,
   ⟨0x401006, [0x72, 0x03]⟩, ⟨0x401008, [0x89, 0xf8]⟩, ⟨0x40100b, [0x89, 0xf0]⟩]

/-- `mov eax, [0x404030]; jb` out of the loop, then `cmp edi, esi; mov [0x404030], edi` for the
next round: in the first one the loaded value is not the argument yet. -/
def reloadProgram : List Instruction :=
  [⟨0x401000, [0x8b, 0x05, 0x2a, 0x30, 0x00, 0x00]⟩, ⟨0x401006, [0x72, 0x0c]⟩, ⟨0x401008, [0x39, 0xf7]⟩,
   ⟨0x40100a, [0x89, 0x3d, 0x20, 0x30, 0x00, 0x00]⟩, ⟨0x401010, [0xe2, 0xee]⟩, ⟨0x401012, [0x89, 0xf8]⟩]

/-- The state in which `analysis` starts. -/
def start : State engine := { ctx := setMode engine.new, vJmp := [], stdout := [] }

/-- A first replay with no branch to look for. -/
def alone (symsize : Nat) : Options := { execid := 1, symsize := symsize, vbraddr := none, vbrflag := none }

/-- A call with two arguments, and two rounds where there is a loop. -/
def twoArguments (x y : Nat) : Cpu := call 0x401000 x y 2 fun _ => 0

def tracedFiles (calls₁ calls₂ : List Callback) : Files := fun path =>
  if path = "trace1" then some (log calls₁) else if path = "trace2" then some (log calls₂) else none

def request (vbraddr : Option Int) : Argv where
  trace1 := some "trace1"
  trace2 := some "trace2"
  symsize := some 4
  vbraddr := vbraddr
  vbrflag := some "cf"

/-- A request for one path. -/
def single : Argv :=
  { trace1 := some "trace1", trace2 := none, symsize := some 4, vbraddr := none, vbrflag := none }

/-- The value that an expression computed by the script has on some inputs. -/
def answer (outcome : Except Python.PyError (State engine × engine.Ast)) (input : Valuation) :
    Option Nat :=
  match outcome with
  | .ok (_, e) => some (engine.denote e input)
  | .error _ => none

def pair (x y : Nat) : Valuation := fun id => if id = 0 then x else y

end Devirt.Reference
