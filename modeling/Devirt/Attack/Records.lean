import Devirt.Attack.Replay
import Devirt.Reference.Programs

/-! The grain of a synchronizing line. A memory record is compared with the context as
one access and a register record register by register, so a difference anywhere costs
the expressions of the whole access or the whole register. -/
namespace Devirt

/-- The cells that the replay compares, and overwrites, as one. -/
def Tracer.Callback.units : Tracer.Callback → List (List Cell)
  | .memread addr size _ => [Cell.range addr size]
  | .inst _ _ _ => (Gpr.all.map .gpr).map fun c => [c]

/-- The line with which a callback makes the replay synchronize. -/
def Tracer.Callback.syncLine (upper : Bool) : Tracer.Callback → Text
  | .memread addr size mem => Tracer.line (Tracer.memreadFields upper addr size mem)
  | .inst regs _ _ => Tracer.line (Tracer.registerFields upper regs)

namespace Attack
open Tracer Concolic Reference

variable {T : Triton}

section
variable (lawful : T.Lawful)
include lawful

theorem memreadLine_runs (o : Options) (l : Loop T) (upper : Bool) (addr : BitVec 64) {size : Nat}
    (mem : BitVec 64 → BitVec 8) (sized : AccessSize size) :
    ∃ ctx', emulateLine o l (line (memreadFields upper addr size mem)) = .ok (l.withCtx ctx') ∧
      T.Becomes l.state.ctx ctx' ((T.view l.state.ctx).resync (Cell.range addr size)
        (Callback.memread addr size mem).observed) := by
  obtain ⟨ctx', runs, becomes⟩ := memread_runs lawful o l addr mem sized
  refine ⟨ctx', ?_, becomes⟩
  rw [replay_singleton, Callback.dispatches, List.foldlM_cons] at runs
  rw [emulateLine_of_decoded o l (decodeLine_memread upper addr mem sized)]
  exact (bind_pure _).symm.trans runs

theorem registerLine_runs (o : Options) (l : Loop T) (upper : Bool) (regs : Gpr → BitVec 64)
    (addr : BitVec 64) (opcode : List (BitVec 8)) :
    ∃ ctx', emulateLine o l (line (registerFields upper regs)) = .ok (l.withCtx ctx') ∧
      T.Becomes l.state.ctx ctx' ((T.view l.state.ctx).resyncEach (Gpr.all.map .gpr)
        (Callback.inst regs addr opcode).observed) := by
  rw [emulateLine_of_decoded o l (decodeLine_register upper regs)]
  exact register_runs lawful o l regs addr opcode

/-- A unit keeps its expressions exactly when all of it held what the trace says. -/
theorem record_resynchronizes (o : Options) (l : Loop T) (upper : Bool) (call : Callback)
    (sized : call.Sized) :
    ∃ ctx', emulateLine o l (call.syncLine upper) = .ok (l.withCtx ctx') ∧
      Store.Resynced call.units call.observed (T.view l.state.ctx) (T.view ctx') ∧
      T.SameInputs l.state.ctx ctx' := by
  cases call with
  | memread addr size mem =>
    obtain ⟨ctx', runs, view, same⟩ := memreadLine_runs lawful o l upper addr mem sized
    exact ⟨ctx', runs, by rw [view]; exact Store.resynced_resync _ _ _, same⟩
  | inst regs addr opcode =>
    obtain ⟨ctx', runs, view, same⟩ := registerLine_runs lawful o l upper regs addr opcode
    exact ⟨ctx', runs, by rw [view]; exact Store.resynced_resyncEach _ _ _, same⟩

end

/-- Eight bytes of which the first four were just stored and the next was never seen. -/
def wideRead : Callback :=
  .memread 0x404030 8 fun addr => if addr = 0x404030 then 7 else if addr = 0x404034 then 1 else 0

/-- The loop after a call that stored its argument 7 at that address. -/
def afterExchange : Loop engine :=
  Outcome.get (replay (alone 4) (Loop.fresh start) (trace exchangeProgram 2 (exchangeCall 7)))
    (by decide +kernel)

theorem record_resynchronizes_wideRead :
    ∃ ctx', emulateLine (alone 4) afterExchange (wideRead.syncLine false) =
        .ok (afterExchange.withCtx ctx') ∧
      Store.Resynced wideRead.units wideRead.observed (engine.view afterExchange.state.ctx)
        (engine.view ctx') ∧
      engine.SameInputs afterExchange.state.ctx ctx' :=
  record_resynchronizes engine_lawful (alone 4) afterExchange false wideRead
    (show AccessSize 8 by decide)

/-- The byte that holds the argument has the traced value and an expression, which it
loses to the byte that was never seen. -/
theorem record_forgets :
    ∃ ctx', emulateLine (alone 4) afterExchange (wideRead.syncLine false) =
        .ok (afterExchange.withCtx ctx') ∧
      (engine.view afterExchange.state.ctx).conc (.mem 0x404030) = wideRead.observed (.mem 0x404030) ∧
      ((engine.view afterExchange.state.ctx).sym (.mem 0x404030)).isSome = true ∧
      (engine.view ctx').sym (.mem 0x404030) = none ∧
      ¬ ∀ c ∈ wideRead.cells,
        (engine.view afterExchange.state.ctx).conc c = wideRead.observed c →
          (engine.view ctx').sym c = (engine.view afterExchange.state.ctx).sym c := by
  have stored : (engine.view afterExchange.state.ctx).conc (.mem 0x404030) =
    wideRead.observed (.mem 0x404030) := by decide +kernel
  have symbolic : ((engine.view afterExchange.state.ctx).sym (.mem 0x404030)).isSome = true := by
    decide +kernel
  have different : ¬ (engine.view afterExchange.state.ctx).Matches (Cell.range 0x404030 8)
    wideRead.observed := by decide +kernel
  have read : Cell.mem 0x404030 ∈ Cell.range 0x404030 8 := by decide
  obtain ⟨ctx', runs, view, -⟩ := memreadLine_runs engine_lawful (alone 4) afterExchange false 0x404030
    (fun addr => if addr = 0x404030 then 7 else if addr = 0x404034 then 1 else 0)
    (show AccessSize 8 by decide)
  have forgotten : (engine.view ctx').sym (.mem 0x404030) = none := by
    rw [view]
    exact Store.resync_sym_of_not_matches different read
  refine ⟨ctx', runs, stored, symbolic, forgotten, ?_⟩
  intro keeps
  rw [← keeps _ read stored, forgotten] at symbolic
  cases symbolic

end Attack
end Devirt
