import Mathlib.Logic.Function.Basic
import Devirt.Tracer.Callbacks

/-! The tracer under Pin. `Trace` decides for a piece of code, once, when it is about
to run for the first time, which instructions call the analysis routines. From then
on the piece runs from the code cache with those calls. -/
namespace Devirt.Pintool
open Tracer

structure Knobs where
  knobStart : BitVec 32
  knobEnd : BitVec 32
  deriving DecidableEq, Repr

/-- `main` refuses to start when a knob is zero. -/
def Knobs.accepted (k : Knobs) : Bool := k.knobStart != 0 && k.knobEnd != 0

/-- What `Trace` and the inserted calls ask of an instruction. -/
structure Ins where
  address : BitVec 64
  bytes : List (BitVec 8)
  isMemoryRead : Bool
  hasMemoryRead2 : Bool
  memoryReadSize : Nat
  deriving DecidableEq, Repr

inductive AnalysisCall where
  | memread
  | memread2
  | inst
  deriving DecidableEq, Repr

/-- Libraries are skipped. -/
def Ins.isLib (ins : Ins) : Bool := 0x7f0000000000 ≤ ins.address

def Ins.isStart (k : Knobs) (ins : Ins) : Bool := ins.address = k.knobStart.setWidth 64

def Ins.isEnd (k : Knobs) (ins : Ins) : Bool := ins.address = k.knobEnd.setWidth 64

/-- The calls inserted before an instruction, by the value of `start` there. -/
def insertCalls (start : Bool) (ins : Ins) : List AnalysisCall :=
  (if start && ins.isMemoryRead then [.memread] else []) ++
    (if start && ins.hasMemoryRead2 then [.memread2] else []) ++
    (if start then [.inst] else [])

/-- What `Trace` leaves: the value of `start`, the calls inserted before each
instruction that was looked at, and whether it has returned before the last one. -/
structure Instrumented where
  start : Bool
  calls : List (List AnalysisCall)
  returned : Bool

/-- The loop over the instructions of a basic block. -/
def traceBbl (k : Knobs) (start : Bool) : List Ins → Instrumented
  | [] => { start := start, calls := [], returned := false }
  | ins :: rest =>
    -- Skip libs
    if ins.isLib then
      let later := traceBbl k start rest
      { later with calls := [] :: later.calls }
    else
      -- Start of instrumentation
      let start := if ins.isStart k then true else start
      -- End of instrumentation
      if ins.isEnd k then { start := false, calls := [], returned := true }
      else
        let later := traceBbl k start rest
        { later with calls := insertCalls start ins :: later.calls }

/-- The loop over the basic blocks of a code trace. -/
def trace (k : Knobs) (start : Bool) : List (List Ins) → Instrumented
  | [] => { start := start, calls := [], returned := false }
  | bbl :: rest =>
    let first := traceBbl k start bbl
    if first.returned then first
    else
      let later := trace k first.start rest
      { later with calls := first.calls ++ later.calls }

/-- The state in which an instruction is executed, as far as the calls read it. -/
structure Snapshot where
  regs : Gpr → BitVec 64
  memoryReadEa : BitVec 64
  memoryRead2Ea : BitVec 64
  mem : BitVec 64 → BitVec 8

/-- The arguments with which each routine is called. -/
def AnalysisCall.callback (ins : Ins) (state : Snapshot) : AnalysisCall → Callback
  | .memread => .memread state.memoryReadEa ins.memoryReadSize state.mem
  | .memread2 => .memread state.memoryRead2Ea ins.memoryReadSize state.mem
  | .inst => .inst state.regs ins.address ins.bytes

/-- An executed instruction with the callbacks that it made. -/
structure Executed where
  ins : Ins
  state : Snapshot
  calls : List Callback

/-- Execute compiled code from its first instruction on. Control leaves it when the
states run out. -/
def execute : List Ins → List (List AnalysisCall) → List Snapshot → List Executed
  | ins :: code, inserted, state :: states =>
    { ins := ins, state := state, calls := (inserted.headD []).map (·.callback ins state) } ::
      execute code inserted.tail states
  | _, _, _ => []

variable {Id : Type} [DecidableEq Id] {k : Knobs} {code : Id → List (List Ins)}

/-- Code in the cache: the value that `start` had when `Trace` was called for it, and
the calls that `Trace` inserted then. -/
structure Compiled (k : Knobs) (bbls : List (List Ins)) where
  switch : Bool
  calls : List (List AnalysisCall)
  inserted : calls = (trace k switch bbls).calls

/-- The variable `start` and the code cache, by the names of the code traces. -/
structure Pin (k : Knobs) (code : Id → List (List Ins)) where
  start : Bool
  cache : (id : Id) → Option (Compiled k (code id))

/-- One pass through a code trace, with a state for each executed instruction. -/
structure Pass (Id : Type) where
  id : Id
  states : List Snapshot

def Pin.initial : Pin k code := { start := false, cache := fun _ => none }

/-- Before the first pass through a code trace `Trace` is called. -/
def Pin.enter (pin : Pin k code) (id : Id) : Pin k code × Compiled k (code id) :=
  match pin.cache id with
  | some compiled => (pin, compiled)
  | none =>
    let result := trace k pin.start (code id)
    let compiled : Compiled k (code id) := { switch := pin.start, calls := result.calls, inserted := rfl }
    ({ start := result.start, cache := Function.update pin.cache id (some compiled) }, compiled)

def Pin.run (pin : Pin k code) : List (Pass Id) → List Executed
  | [] => []
  | pass :: rest =>
    let (next, compiled) := pin.enter pass.id
    execute (code pass.id).flatten compiled.calls pass.states ++ next.run rest

/-- The instructions that a program executes under the tracer, from its start. -/
def executions (k : Knobs) (code : Id → List (List Ins)) (passes : List (Pass Id)) : List Executed :=
  (Pin.initial : Pin k code).run passes

/-- The text that the tracer writes meanwhile. -/
def traceLog (k : Knobs) (code : Id → List (List Ins)) (passes : List (Pass Id)) : Text :=
  log ((executions k code passes).flatMap Executed.calls)

/-! The nested loops walk the instructions of a code trace in their order. -/

theorem traceBbl_append (k : Knobs) (start : Bool) (first second : List Ins) :
    traceBbl k start (first ++ second) =
      let before := traceBbl k start first
      if before.returned then before
      else
        let later := traceBbl k before.start second
        { later with calls := before.calls ++ later.calls } := by
  induction first generalizing start with
  | nil => rfl
  | cons ins rest ih =>
    simp only [List.cons_append, traceBbl]
    by_cases lib : ins.isLib = true
    · simp only [lib, if_true, ih]
      split <;> rfl
    · simp only [lib, if_false, Bool.false_eq_true]
      by_cases stop : ins.isEnd k = true
      · simp only [stop, if_true]
      · simp only [stop, if_false, Bool.false_eq_true, ih]
        generalize (if ins.isStart k = true then true else start) = switch
        split <;> rfl

theorem trace_eq (k : Knobs) (start : Bool) (bbls : List (List Ins)) :
    trace k start bbls = traceBbl k start bbls.flatten := by
  induction bbls generalizing start with
  | nil => rfl
  | cons bbl rest ih => simp only [trace, List.flatten_cons, traceBbl_append, ih]

theorem Compiled.calls_eq {bbls : List (List Ins)} (compiled : Compiled k bbls) :
    compiled.calls = (traceBbl k compiled.switch bbls.flatten).calls := by
  rw [compiled.inserted, trace_eq]

theorem Pin.run_cons (pin : Pin k code) (pass : Pass Id) (rest : List (Pass Id)) :
    pin.run (pass :: rest) =
      execute (code pass.id).flatten (pin.enter pass.id).2.calls pass.states ++
        (pin.enter pass.id).1.run rest :=
  rfl

theorem execute_ins (code : List Ins) (inserted : List (List AnalysisCall)) (states : List Snapshot) :
    (execute code inserted states).map Executed.ins = code.take states.length := by
  induction code generalizing inserted states with
  | nil => simp [execute]
  | cons ins rest ih =>
    cases states with
    | nil => rfl
    | cons state states => simp only [execute, List.map_cons, ih, List.length_cons, List.take_succ_cons]

end Devirt.Pintool
