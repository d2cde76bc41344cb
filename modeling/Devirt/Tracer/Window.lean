import Devirt.Window
import Devirt.Tracer.Instrumentation

/-! Which executed instructions are logged, and which should be: those between an
execution of the start address and the next one of the end address. `Trace` flips
its switch when code is compiled, so the two agree only under conditions on how
each code trace is entered and what is executed of it. -/
namespace Devirt.Pintool
open Tracer

/-- The register and instruction record of an executed instruction. -/
def Executed.record (e : Executed) : Callback := .inst e.state.regs e.ins.address e.ins.bytes

/-- What it wrote apart from memory records. -/
def Executed.records (e : Executed) : List Callback := e.calls.filter fun call => !call.isMemread

def Executed.logged (e : Executed) : Bool := !e.records.isEmpty

/-- One record for each instruction below the libraries that is executed inside the
window, and none for any other. -/
structure LogsWindow (k : Knobs) (executed : List Executed) : Prop where
  inside : ∀ i e, executed[i]? = some e → e.ins.isLib = false →
    Window.Inside (Ins.isStart k) (Ins.isEnd k) (executed.map Executed.ins) i → e.records = [e.record]
  outside : ∀ i e, executed[i]? = some e → (e.ins.isLib = true ∨
    ¬ Window.Inside (Ins.isStart k) (Ins.isEnd k) (executed.map Executed.ins) i) → e.records = []

/-- Of the instructions in a code trace, those that log themselves. -/
def instrumented (k : Knobs) (switch : Bool) : List Ins → List Bool
  | [] => []
  | ins :: rest =>
    if ins.isLib then false :: instrumented k switch rest
    else if ins.isEnd k then false :: rest.map fun _ => false
    else (ins.isStart k || switch) :: instrumented k (ins.isStart k || switch) rest

/-- Those that should. -/
def windowed (k : Knobs) (window : Bool) (code : List Ins) : List Bool :=
  code.zipWith (fun ins on => !ins.isLib && on) (Window.switches (Ins.isStart k) (Ins.isEnd k) window code)

/-- A pass is faithful when the switch had, when the code was compiled, the value that
the window has on entry, or else the first instruction that is no library is a start
or an end; and when no start is executed at or after an end. -/
structure Faithful (k : Knobs) (switch window : Bool) (executed : List Ins) : Prop where
  entry : switch = window ∨ ∀ ins, executed.find? (fun ins => !ins.isLib) = some ins →
    ins.isStart k = true ∨ ins.isEnd k = true
  order : ∀ ins ∈ executed.dropWhile fun ins => !ins.isEnd k, ins.isStart k = false

/-- Every pass of a run, with the window that its predecessors left. -/
def EachFaithful {Id : Type} [DecidableEq Id] {k : Knobs} {code : Id → List (List Ins)} :
    Pin k code → Bool → List (Pass Id) → Prop
  | _, _, [] => True
  | pin, window, pass :: rest =>
    let (next, compiled) := pin.enter pass.id
    let executed := (code pass.id).flatten.take pass.states.length
    Faithful k compiled.switch window executed ∧
      EachFaithful next (Window.after (Ins.isStart k) (Ins.isEnd k) window executed) rest

/-- A knob is no address of a library. -/
theorem isLib_of_knob {ins : Ins} {knob : BitVec 32} (here : ins.address = knob.setWidth 64) :
    ins.isLib = false := by
  have bound := knob.isLt
  simp only [Ins.isLib, here, decide_eq_false_iff_not, BitVec.not_le, BitVec.lt_def,
    BitVec.toNat_setWidth]
  exact lt_of_le_of_lt (Nat.mod_le _ _) (lt_trans bound (by decide))

theorem not_start_of_lib {k : Knobs} {ins : Ins} (lib : ins.isLib = true) : ins.isStart k = false := by
  by_contra start
  have here : ins.address = k.knobStart.setWidth 64 := by simpa [Ins.isStart] using start
  rw [isLib_of_knob here] at lib
  cases lib

theorem not_end_of_lib {k : Knobs} {ins : Ins} (lib : ins.isLib = true) : ins.isEnd k = false := by
  by_contra stop
  have here : ins.address = k.knobEnd.setWidth 64 := by simpa [Ins.isEnd] using stop
  rw [isLib_of_knob here] at lib
  cases lib

/-! One pass. -/

theorem windowed_cons (k : Knobs) (window : Bool) (ins : Ins) (rest : List Ins) :
    windowed k window (ins :: rest) =
      (!ins.isLib && Window.next (Ins.isStart k) (Ins.isEnd k) window ins) ::
        windowed k (Window.next (Ins.isStart k) (Ins.isEnd k) window ins) rest := rfl

/-- From a closed window, nothing should be logged exactly when no start is executed. -/
theorem windowed_silent (k : Knobs) (code : List Ins) :
    windowed k false code = code.map (fun _ => false) ↔ ∀ ins ∈ code, ins.isStart k = false := by
  induction code with
  | nil => simp [windowed]
  | cons ins rest ih =>
    rw [windowed_cons, List.map_cons, List.cons.injEq, List.forall_mem_cons]
    cases start : ins.isStart k with
    | false => simp only [Window.next, start, Bool.false_or, Bool.false_and, Bool.and_false, true_and, ih]
    | true =>
      have known : ins.isLib = false := by
        by_contra lib
        rw [not_start_of_lib (by simpa using lib)] at start
        cases start
      simp [Window.next, start, known]

theorem faithful_of_lib {k : Knobs} {switch window : Bool} {ins : Ins} {rest : List Ins}
    (lib : ins.isLib = true) : Faithful k switch window (ins :: rest) ↔
    Faithful k switch window rest := by
  have skipped : (ins :: rest).find? (fun ins => !ins.isLib) = rest.find? fun ins => !ins.isLib :=
    List.find?_cons_of_neg (by simp [lib])
  have kept : ((ins :: rest).dropWhile fun ins => !ins.isEnd k) =
    rest.dropWhile fun ins => !ins.isEnd k :=
    List.dropWhile_cons_of_pos (by simp [not_end_of_lib lib])
  constructor
  · rintro ⟨entry, order⟩
    exact ⟨by rwa [skipped] at entry, by rwa [kept] at order⟩
  · rintro ⟨entry, order⟩
    exact ⟨by rwa [skipped], by rwa [kept]⟩

theorem faithful_of_end {k : Knobs} {switch window : Bool} {ins : Ins} {rest : List Ins}
    (known : ins.isLib = false) (stop : ins.isEnd k = true) :
    Faithful k switch window (ins :: rest) ↔ ∀ other ∈ ins :: rest, other.isStart k = false := by
  have first : (ins :: rest).find? (fun ins => !ins.isLib) = some ins :=
    List.find?_cons_of_pos (by simp [known])
  have all : ((ins :: rest).dropWhile fun ins => !ins.isEnd k) = ins :: rest :=
    List.dropWhile_cons_of_neg (by simp [stop])
  constructor
  · rintro ⟨-, order⟩
    rwa [all] at order
  · intro order
    refine ⟨Or.inr fun other found => ?_, by rwa [all]⟩
    cases first.symm.trans found
    exact Or.inr stop

theorem faithful_of_other {k : Knobs} {switch window : Bool} {ins : Ins} {rest : List Ins}
    (known : ins.isLib = false) (stop : ins.isEnd k = false) :
    Faithful k switch window (ins :: rest) ↔ (ins.isStart k || switch) = (ins.isStart k || window) ∧
      Faithful k (ins.isStart k || switch) (ins.isStart k || window) rest := by
  have first : (ins :: rest).find? (fun ins => !ins.isLib) = some ins :=
    List.find?_cons_of_pos (by simp [known])
  have kept : ((ins :: rest).dropWhile fun ins => !ins.isEnd k) =
    rest.dropWhile fun ins => !ins.isEnd k :=
    List.dropWhile_cons_of_pos (by simp [stop])
  constructor
  · rintro ⟨entry, order⟩
    rw [kept] at order
    have same : (ins.isStart k || switch) = (ins.isStart k || window) := by
      rcases entry with same | marked
      · rw [same]
      · rcases marked ins first with start | end_
        · rw [start, Bool.true_or, Bool.true_or]
        · rw [stop] at end_
          cases end_
    exact ⟨same, Or.inl same, order⟩
  · rintro ⟨same, -, order⟩
    refine ⟨?_, by rwa [kept]⟩
    cases start : ins.isStart k with
    | false => exact Or.inl (by simpa [start] using same)
    | true =>
      apply Or.inr
      intro other found
      cases first.symm.trans found
      exact Or.inl start

/-- The switch of the compiled code and the window agree on a pass exactly when it is faithful. -/
theorem instrumented_eq_windowed_iff (k : Knobs) (switch window : Bool) (executed : List Ins) :
    instrumented k switch executed = windowed k window executed ↔
    Faithful k switch window executed := by
  induction executed generalizing switch window with
  | nil => exact ⟨fun _ => ⟨Or.inr (by simp), by simp⟩, fun _ => rfl⟩
  | cons ins rest ih =>
    rw [instrumented, windowed_cons]
    cases lib : ins.isLib with
    | true =>
      rw [if_pos rfl, faithful_of_lib lib, ← ih]
      simp only [Window.next, not_start_of_lib lib, not_end_of_lib lib, Bool.not_true, Bool.not_false,
        Bool.false_and, Bool.and_true, Bool.false_or, List.cons.injEq, true_and]
    | false =>
      rw [if_neg (by decide)]
      cases stop : ins.isEnd k with
      | true =>
        rw [if_pos rfl, faithful_of_end lib stop, List.forall_mem_cons, ← windowed_silent]
        simp only [Window.next, stop, Bool.not_true, Bool.not_false, Bool.and_false, Bool.or_false,
          Bool.true_and, List.cons.injEq]
        cases ins.isStart k with
        | false => exact and_congr Iff.rfl eq_comm
        | true => simp
      | false =>
        rw [if_neg (by decide), faithful_of_other lib stop, ← ih]
        simp only [Window.next, stop, Bool.not_false, Bool.and_true, Bool.true_and, List.cons.injEq]

theorem windowed_append (k : Knobs) (window : Bool) (first second : List Ins) :
    windowed k window (first ++ second) = windowed k window first ++
      windowed k (Window.after (Ins.isStart k) (Ins.isEnd k) window first) second := by
  rw [windowed, Window.switches_append, List.zipWith_append (Window.switches_length window first).symm]
  rfl

theorem instrumented_length (k : Knobs) (switch : Bool) (code : List Ins) :
    (instrumented k switch code).length = code.length := by
  induction code generalizing switch with
  | nil => rfl
  | cons ins rest ih =>
    simp only [instrumented]
    split
    · rw [List.length_cons, ih, List.length_cons]
    · split
      · simp
      · rw [List.length_cons, ih, List.length_cons]

/-! The calls that `Trace` inserts, when they run. -/

/-- An instruction writes its own record or none. -/
def Executed.Plain (e : Executed) : Prop := e.records = [] ∨ e.records = [e.record]

theorem Executed.Plain.records_eq {e : Executed} (plain : e.Plain) :
    e.records = if e.logged then [e.record] else [] := by
  rcases plain with none | one
  · rw [logged, none]
    rfl
  · rw [logged, one]
    rfl

theorem insertCalls_records (start : Bool) (ins : Ins) (state : Snapshot) :
    (Executed.mk ins state ((insertCalls start ins).map (·.callback ins state))).records =
      if start then [.inst state.regs ins.address ins.bytes] else [] := by
  cases start with
  | false => rfl
  | true =>
    cases reads : ins.isMemoryRead <;> cases reads2 : ins.hasMemoryRead2 <;>
      simp [Executed.records, insertCalls, reads, reads2, AnalysisCall.callback, Callback.isMemread]

/-- Code behind the point at which `Trace` returned. -/
theorem execute_silent (code : List Ins) (states : List Snapshot) :
    ∀ e ∈ execute code [] states, e.records = [] := by
  induction code generalizing states with
  | nil => simp [execute]
  | cons ins rest ih =>
    cases states with
    | nil => simp [execute]
    | cons state states => exact List.forall_mem_cons.mpr ⟨rfl, ih states⟩

theorem execute_logged (k : Knobs) (start : Bool) (code : List Ins) (states : List Snapshot) :
    (execute code (traceBbl k start code).calls states).map Executed.logged =
        instrumented k start (code.take states.length) ∧
      ∀ e ∈ execute code (traceBbl k start code).calls states, e.Plain := by
  induction code generalizing start states with
  | nil => simp [execute, instrumented]
  | cons ins rest ih =>
    cases states with
    | nil => exact ⟨rfl, by simp [execute]⟩
    | cons state states =>
      rw [List.length_cons, List.take_succ_cons, instrumented, traceBbl]
      cases lib : ins.isLib with
      | true =>
        obtain ⟨logged, plain⟩ := ih start states
        exact ⟨congrArg (false :: ·) logged, List.forall_mem_cons.mpr ⟨Or.inl rfl, plain⟩⟩
      | false =>
        cases stop : ins.isEnd k with
        | true =>
          refine ⟨congrArg (false :: ·) ?_, List.forall_mem_cons.mpr ⟨Or.inl rfl, fun e member =>
            Or.inl (execute_silent rest states e member)⟩⟩
          calc (execute rest [] states).map Executed.logged
            _ = (execute rest [] states).map fun _ => false :=
              List.map_congr_left fun e member => by
                rw [Executed.logged, execute_silent rest states e member]
                rfl
            _ = ((execute rest [] states).map Executed.ins).map fun _ => false := by
              rw [List.map_map]
              rfl
            _ = (rest.take states.length).map fun _ => false := by rw [execute_ins]
        | false =>
          have switch : (if ins.isStart k = true then true else start) = (ins.isStart k || start) := by
            cases ins.isStart k <;> rfl
          obtain ⟨logged, plain⟩ := ih (ins.isStart k || start) states
          have records := insertCalls_records (ins.isStart k || start) ins state
          simp only [Bool.false_eq_true, if_false, switch]
          refine ⟨?_, List.forall_mem_cons.mpr ⟨?_, plain⟩⟩
          · refine (congrArg₂ List.cons ?_ logged)
            simp only [List.headD_cons, Executed.logged, records]
            cases (ins.isStart k || start) <;> rfl
          · simp only [Executed.Plain, List.headD_cons, records]
            cases (ins.isStart k || start)
            · exact Or.inl rfl
            · exact Or.inr rfl

/-! Whole runs. -/

section
variable {Id : Type} [DecidableEq Id] {k : Knobs} {code : Id → List (List Ins)}

theorem run_plain (pin : Pin k code) (passes : List (Pass Id)) : ∀ e ∈ pin.run passes, e.Plain := by
  induction passes generalizing pin with
  | nil => simp [Pin.run]
  | cons pass rest ih =>
    intro e member
    rw [Pin.run_cons] at member
    rcases List.mem_append.mp member with here | later
    · rw [(pin.enter pass.id).2.calls_eq] at here
      exact (execute_logged k _ _ _).2 e here
    · exact ih _ e later

theorem run_logged_iff (pin : Pin k code) (window : Bool) (passes : List (Pass Id)) :
    (pin.run passes).map Executed.logged = windowed k window ((pin.run passes).map Executed.ins) ↔
      EachFaithful pin window passes := by
  induction passes generalizing pin window with
  | nil => simp [Pin.run, windowed, EachFaithful]
  | cons pass rest ih =>
    simp only [Pin.run_cons, EachFaithful, List.map_append, execute_ins, windowed_append, ← ih]
    rw [(pin.enter pass.id).2.calls_eq, (execute_logged k _ _ _).1, ← instrumented_eq_windowed_iff]
    have lengths : (instrumented k (pin.enter pass.id).2.switch
        ((code pass.id).flatten.take pass.states.length)).length =
        (windowed k window ((code pass.id).flatten.take pass.states.length)).length := by
      simp [instrumented_length, windowed]
    constructor
    · exact fun same => List.append_inj same lengths
    · rintro ⟨first, later⟩
      rw [first, later]

end

theorem windowed_getElem? (k : Knobs) {executed : List Executed} {i : Nat} {e : Executed}
    (here : executed[i]? = some e) : ∃ b, (windowed k false (executed.map Executed.ins))[i]? = some b ∧
      (b = true ↔ e.ins.isLib = false ∧
        Window.Inside (Ins.isStart k) (Ins.isEnd k) (executed.map Executed.ins) i) := by
  have bound : i < (executed.map Executed.ins).length := by
    rw [List.length_map]
    exact (List.getElem?_eq_some_iff.mp here).1
  have on : (Window.switches (Ins.isStart k) (Ins.isEnd k) false (executed.map Executed.ins))[i]? = some true ↔
      Window.Inside (Ins.isStart k) (Ins.isEnd k) (executed.map Executed.ins) i :=
    Window.switches_iff_inside _ bound
  obtain ⟨b, found⟩ : ∃ b, (Window.switches (Ins.isStart k) (Ins.isEnd k) false
      (executed.map Executed.ins))[i]? = some b :=
    ⟨_, List.getElem?_eq_getElem (by rwa [Window.switches_length])⟩
  refine ⟨!e.ins.isLib && b, ?_, ?_⟩
  · simp only [windowed, List.getElem?_zipWith, List.getElem?_map, here, Option.map_some, found]
  · rw [found, Option.some.injEq] at on
    rw [Bool.and_eq_true, Bool.not_eq_true', on]

/-- Position by position, what is logged against what should be. -/
theorem logsWindow_iff_logged {k : Knobs} {executed : List Executed} (plain : ∀ e ∈ executed, e.Plain) :
    LogsWindow k executed ↔ executed.map Executed.logged =
    windowed k false (executed.map Executed.ins) := by
  constructor
  · intro logs
    apply List.ext_getElem?
    intro i
    cases here : executed[i]? with
    | none =>
      have beyond : executed.length ≤ i := List.getElem?_eq_none_iff.mp here
      rw [List.getElem?_eq_none (by simpa using beyond),
        List.getElem?_eq_none (by simpa [windowed] using beyond)]
    | some e =>
      obtain ⟨b, found, should⟩ := windowed_getElem? k here
      rw [found, List.getElem?_map, here, Option.map_some, Option.some.injEq]
      cases b with
      | true =>
        obtain ⟨known, inside⟩ := should.mp rfl
        rw [Executed.logged, logs.inside i e here known inside]
        rfl
      | false =>
        have outside : ¬ (e.ins.isLib = false ∧ _) := fun both => by cases should.mpr both
        rw [not_and_or, Bool.not_eq_false] at outside
        rw [Executed.logged, logs.outside i e here outside]
        rfl
  · intro same
    have logged : ∀ i e, executed[i]? = some e → (e.logged = true ↔ e.ins.isLib = false ∧
        Window.Inside (Ins.isStart k) (Ins.isEnd k) (executed.map Executed.ins) i) := by
      intro i e here
      obtain ⟨b, found, should⟩ := windowed_getElem? k here
      rw [← same, List.getElem?_map, here, Option.map_some, Option.some.injEq] at found
      rw [found, should]
    refine ⟨fun i e here known inside => ?_, fun i e here outside => ?_⟩
    · rw [(plain e (List.mem_of_getElem? here)).records_eq,
        if_pos ((logged i e here).mpr ⟨known, inside⟩)]
    · rw [(plain e (List.mem_of_getElem? here)).records_eq, if_neg]
      intro written
      obtain ⟨known, inside⟩ := (logged i e here).mp written
      rcases outside with lib | closed
      · rw [known] at lib
        cases lib
      · exact closed inside

/-- The log is exactly the traced window if and only if every pass is faithful. -/
theorem logsWindow_iff {Id : Type} [DecidableEq Id] (k : Knobs) (code : Id → List (List Ins))
    (passes : List (Pass Id)) : LogsWindow k (executions k code passes) ↔
      EachFaithful (Pin.initial : Pin k code) false passes := by
  rw [executions, logsWindow_iff_logged (run_plain _ passes)]
  exact run_logged_iff _ false passes

/-- `xor eax, eax; jz 0x401010` with the instruction behind it in one code trace, and
the target of the jump in another one. -/
def branchCode : Nat → List (List Ins)
  | 0 => [[⟨0x401000, [0x31, 0xc0], false, false, 0⟩, ⟨0x401002, [0x74, 0x0c], false, false, 0⟩],
      [⟨0x401004, [0xc3], true, false, 8⟩]]
  | 1 => [[⟨0x401010, [0xc3], true, false, 8⟩]]
  | _ => []

/-- The jump is taken, so the first code trace is left before its second block. -/
def branchPasses : List (Pass Nat) :=
  let state : Snapshot := ⟨fun _ => 0, 0, 0, fun _ => 0⟩
  [⟨0, [state, state]⟩, ⟨1, [state]⟩]

/-- The end address is compiled with the jump before it and never executed. The
tracing stops all the same, and the target of the jump stays silent in the window. -/
theorem logsWindow_fails :
    let k : Knobs := { knobStart := 0x401000, knobEnd := 0x401004 }
    let executed := executions k branchCode branchPasses
    k.accepted = true ∧
      executed.map (·.ins.address) = [0x401000, 0x401002, 0x401010] ∧
      executed.map Executed.logged = [true, true, false] ∧
      (traceLog k branchCode branchPasses).count '\n' = 4 ∧ ¬ LogsWindow k executed := by
  intro k executed
  refine ⟨by decide, by decide, by decide, by decide +kernel, fun logs => ?_⟩
  -- The start is executed at 0, and no end at 1 or 2.
  have inside : Window.Inside (Ins.isStart k) (Ins.isEnd k) (executed.map Executed.ins) 2 := by
    refine ⟨0, by decide, ⟨_, rfl, by decide⟩, fun j after before ins there => ?_⟩
    obtain rfl | rfl : j = 1 ∨ j = 2 := by omega
    · cases there
      decide
    · cases there
      decide
  have silent := logs.inside 2 _ rfl rfl inside
  cases silent

end Devirt.Pintool
