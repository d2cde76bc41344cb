import Devirt.Tracer.Runs
import Devirt.Tracer.Window

/-! What the tracer makes of one call of a function: where its switch agrees with the
window, and where Pin announces all the memory that the instructions read, its log
is the complete log of the machine's run. -/
namespace Devirt.Pintool
open Tracer

def Ins.instruction (ins : Ins) : Instruction := ⟨ins.address.toNat, ins.bytes⟩

/-- The addresses that the calls for memory reads get. -/
def Executed.operands (e : Executed) : List (BitVec 64) :=
  (if e.ins.isMemoryRead then [e.state.memoryReadEa] else []) ++
    (if e.ins.hasMemoryRead2 then [e.state.memoryRead2Ea] else [])

/-- The callbacks of an instruction that was compiled with the switch on. -/
def Executed.whole (e : Executed) : List Callback :=
  (insertCalls true e.ins).map (·.callback e.ins e.state)

theorem Executed.whole_eq (e : Executed) : e.whole =
    (e.operands.map fun addr => .memread addr e.ins.memoryReadSize e.state.mem) ++ [e.record] := by
  unfold whole insertCalls operands record
  cases e.ins.isMemoryRead <;> cases e.ins.hasMemoryRead2 <;> rfl

/-! A call inserts all callbacks of an instruction or none. -/

theorem insertCalls_whole (start : Bool) (ins : Ins) (state : Snapshot) :
    let e : Executed := ⟨ins, state, (insertCalls start ins).map (·.callback ins state)⟩
    e.calls = if e.logged then e.whole else [] := by
  intro e
  have records := insertCalls_records start ins state
  cases start with
  | false => rfl
  | true =>
    have logged : e.logged = true := by
      rw [Executed.logged, records]
      rfl
    rw [logged]
    rfl

theorem execute_whole (k : Knobs) (start : Bool) (code : List Ins) (states : List Snapshot) :
    ∀ e ∈ execute code (traceBbl k start code).calls states, e.calls = if e.logged then e.whole else [] := by
  have silent : ∀ (code : List Ins) (states : List Snapshot), ∀ e ∈ execute code [] states,
      e.calls = if e.logged then e.whole else [] := by
    intro code
    induction code with
    | nil => simp [execute]
    | cons ins rest ih =>
      intro states
      cases states with
      | nil => simp [execute]
      | cons state states => exact List.forall_mem_cons.mpr ⟨rfl, ih states⟩
  induction code generalizing start states with
  | nil => simp [execute]
  | cons ins rest ih =>
    cases states with
    | nil => simp [execute]
    | cons state states =>
      rw [traceBbl]
      by_cases lib : ins.isLib = true
      · rw [if_pos lib]
        exact List.forall_mem_cons.mpr ⟨rfl, ih start states⟩
      rw [if_neg lib]
      by_cases stop : ins.isEnd k = true
      · simp only [if_pos stop]
        exact List.forall_mem_cons.mpr ⟨rfl, silent rest states⟩
      · simp only [if_neg stop]
        exact List.forall_mem_cons.mpr ⟨insertCalls_whole _ ins state, ih _ states⟩

theorem run_whole {Id : Type} [DecidableEq Id] {k : Knobs} {code : Id → List (List Ins)} (pin : Pin k code)
    (passes : List (Pass Id)) : ∀ e ∈ pin.run passes, e.calls = if e.logged then e.whole else [] := by
  induction passes generalizing pin with
  | nil => simp [Pin.run]
  | cons pass rest ih =>
    intro e member
    rw [Pin.run_cons] at member
    rcases List.mem_append.mp member with here | later
    · rw [(pin.enter pass.id).2.calls_eq] at here
      exact execute_whole k _ _ _ e here
    · exact ih _ e later

/-! One call in the window. -/

/-- The executed instructions of a call of the function that `-start` and `-end` name: it
runs from the first execution of the start address on, outside the libraries, until the
end address is executed, and it is called once. -/
structure Call (k : Knobs) (before inside after : List Ins) : Prop where
  untouched : ∀ ins ∈ before, ins.isStart k = false
  starts : ∃ first rest, inside = first :: rest ∧ first.isStart k = true
  within : ∀ ins ∈ inside, ins.isLib = false ∧ ins.isEnd k = false
  ends : ∀ first ∈ after.head?, first.isEnd k = true
  once : ∀ ins ∈ after, ins.isStart k = false

theorem after_untouched {k : Knobs} {code : List Ins} (untouched : ∀ ins ∈ code, ins.isStart k = false) :
    Window.after (Ins.isStart k) (Ins.isEnd k) false code = false := by
  induction code with
  | nil => rfl
  | cons ins rest ih =>
    obtain ⟨here, later⟩ := List.forall_mem_cons.mp untouched
    simp only [Window.after, List.foldl_cons, Window.next, here, Bool.false_and, Bool.or_false]
    exact ih later

theorem windowed_open {k : Knobs} {code : List Ins}
    (inside : ∀ ins ∈ code, ins.isLib = false ∧ ins.isEnd k = false) :
    windowed k true code = code.map (fun _ => true) ∧
      Window.after (Ins.isStart k) (Ins.isEnd k) true code = true := by
  induction code with
  | nil => exact ⟨rfl, rfl⟩
  | cons ins rest ih =>
    obtain ⟨⟨known, going⟩, later⟩ := List.forall_mem_cons.mp inside
    obtain ⟨on, left⟩ := ih later
    have next : Window.next (Ins.isStart k) (Ins.isEnd k) true ins = true := by
      simp [Window.next, going]
    constructor
    · rw [windowed_cons, next, known, on]
      rfl
    · rw [Window.after, List.foldl_cons, next]
      exact left

theorem windowed_of_call {k : Knobs} {before inside after : List Ins} (call : Call k before inside after) :
    windowed k false (before ++ inside ++ after) =
      before.map (fun _ => false) ++ inside.map (fun _ => true) ++ after.map (fun _ => false) := by
  have silent := (windowed_silent k before).mpr call.untouched
  obtain ⟨first, rest, rfl, start⟩ := call.starts
  obtain ⟨⟨known, _⟩, later⟩ := List.forall_mem_cons.mp call.within
  obtain ⟨on, left⟩ := windowed_open later
  have opened : Window.next (Ins.isStart k) (Ins.isEnd k) false first = true := by
    simp [Window.next, start]
  have closed : windowed k true after = after.map fun _ => false := by
    cases after with
    | nil => rfl
    | cons last others =>
      obtain ⟨here, others_once⟩ := List.forall_mem_cons.mp call.once
      have stop : last.isEnd k = true := call.ends last rfl
      have shut : Window.next (Ins.isStart k) (Ins.isEnd k) true last = false := by
        simp [Window.next, here, stop]
      rw [windowed_cons, shut, Bool.and_false, (windowed_silent k others).mpr others_once]
      rfl
  have inside : Window.after (Ins.isStart k) (Ins.isEnd k) false (before ++ first :: rest) = true := by
    rw [Window.after_append, after_untouched call.untouched, Window.after, List.foldl_cons, opened]
    exact left
  rw [windowed_append, inside, closed, windowed_append, after_untouched call.untouched, silent, windowed_cons,
    opened, known, on]
  rfl

/-! The log of a call. -/

/-- The executed instruction is one of the machine in the state that the tracer sees, and
its memory operands are all the memory that it reads. -/
structure Executed.Shows (M : Machine) (e : Executed) (s : M.State) : Prop where
  regs : ∀ reg, e.state.regs reg = BitVec.ofNat 64 (M.cell s (.gpr reg))
  mem : e.state.mem = M.memory s
  sized : e.operands ≠ [] → AccessSize e.ins.memoryReadSize
  covers : ∀ addr, .mem addr ∈ M.reads e.ins.instruction s →
    ∃ operand ∈ e.operands, .mem addr ∈ Cell.range operand e.ins.memoryReadSize

/-- A run of the machine as Pin executes it. -/
inductive Runs (M : Machine) : List Executed → M.State → M.State → Prop
  | done (s : M.State) : Runs M [] s s
  | next {e es s s' t} (shows : e.Shows M s) (stepped : M.exec e.ins.instruction s = some s')
      (rest : Runs M es s' t) : Runs M (e :: es) s t

theorem Executed.Shows.record_eq {M : Machine} {e : Executed} {s : M.State} (shows : e.Shows M s) :
    e.record = M.record e.ins.instruction s := by
  rw [Executed.record, Machine.record, Ins.instruction, BitVec.ofNat_toNat, BitVec.setWidth_eq,
    funext shows.regs]

/-- The callbacks before an instruction are the records of the memory that it reads. -/
theorem Executed.Shows.reports {M : Machine} {e : Executed} {s : M.State} (shows : e.Shows M s) :
    M.Reports e.ins.instruction s
      (e.operands.map fun addr => .memread addr e.ins.memoryReadSize e.state.mem) := by
  constructor
  · intro call member
    obtain ⟨addr, operand, rfl⟩ := List.mem_map.mp member
    exact ⟨addr, e.ins.memoryReadSize, shows.sized (List.ne_nil_of_mem operand), by rw [shows.mem]⟩
  · intro addr read
    obtain ⟨operand, member, inside⟩ := shows.covers addr read
    exact ⟨_, List.mem_map_of_mem member, inside⟩

theorem Runs.logged {M : Machine} {es : List Executed} {s t : M.State} (runs : Runs M es s t) :
    M.Logged (es.map (·.ins.instruction)) s (es.flatMap Executed.whole) t := by
  induction runs with
  | done s => exact .done s
  | @next e es s s' t shows stepped _ ih =>
    have logged := Machine.Logged.next shows.reports e.ins.address.isLt stepped ih
    rw [List.map_cons, List.flatMap_cons, Executed.whole_eq, List.append_assoc, shows.record_eq]
    exact logged

/-- One call of the function, traced: the compiled code agrees with the window all along,
and the instructions inside it are a run of the machine. -/
structure Traced {Id : Type} [DecidableEq Id] (M : Machine) (k : Knobs) (code : Id → List (List Ins))
    (passes : List (Pass Id)) (is : List Instruction) (s t : M.State) : Prop where
  faithful : EachFaithful (Pin.initial : Pin k code) false passes
  call : ∃ before inside after, executions k code passes = before ++ inside ++ after ∧
    Call k (before.map Executed.ins) (inside.map Executed.ins) (after.map Executed.ins) ∧
    is = inside.map (·.ins.instruction) ∧ Runs M inside s t

/-- Instructions that are all logged, or all silent. -/
theorem flatMap_calls {es : List Executed} {logs : Bool}
    (whole : ∀ e ∈ es, e.calls = if e.logged then e.whole else [])
    (same : es.map Executed.logged = (es.map Executed.ins).map fun _ => logs) :
    es.flatMap Executed.calls = if logs then es.flatMap Executed.whole else [] := by
  induction es with
  | nil => cases logs <;> rfl
  | cons e rest ih =>
    obtain ⟨here, later⟩ := List.forall_mem_cons.mp whole
    simp only [List.map_cons, List.cons.injEq] at same
    rw [List.flatMap_cons, here, same.1, ih later same.2]
    cases logs <;> rfl

/-- The callbacks that the tracer makes are the complete log of the call. -/
theorem Traced.logged {Id : Type} [DecidableEq Id] {M : Machine} {k : Knobs} {code : Id → List (List Ins)}
    {passes : List (Pass Id)} {is : List Instruction} {s t : M.State}
    (traced : Traced M k code passes is s t) :
    M.Logged is s ((executions k code passes).flatMap Executed.calls) t := by
  obtain ⟨before, inside, after, executed, call, rfl, runs⟩ := traced.call
  have whole : ∀ e ∈ executions k code passes, e.calls = if e.logged then e.whole else [] := run_whole _ passes
  have same : (executions k code passes).map Executed.logged =
      windowed k false ((executions k code passes).map Executed.ins) :=
    (run_logged_iff _ false passes).mpr traced.faithful
  rw [executed, List.map_append, List.map_append, List.map_append, List.map_append, windowed_of_call call] at same
  obtain ⟨same, closed⟩ := List.append_inj same (by simp)
  obtain ⟨untouched, opened⟩ := List.append_inj same (by simp)
  rw [executed] at whole
  simp only [List.forall_mem_append] at whole
  have calls : (executions k code passes).flatMap Executed.calls = inside.flatMap Executed.whole := by
    rw [executed, List.flatMap_append, List.flatMap_append, flatMap_calls whole.1.1 untouched,
      flatMap_calls whole.1.2 opened, flatMap_calls whole.2 closed]
    simp
  rw [calls]
  exact runs.logged

end Devirt.Pintool
