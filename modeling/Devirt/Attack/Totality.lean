import Devirt.Attack.Soundness

/-! Which logs are replayed to their end: the tracer writes a record for every
memory read, but a readable value only for four access sizes. -/
namespace Devirt.Attack
open Tracer Concolic
open Python (PyError)

variable {T : Triton}

/-- The replay consumes every line, and each memory record restores what the
instruction read or leaves the loop as it was. -/
structure ReplaysToEnd (o : Options) (s : State T) (calls : List Callback) : Prop where
  consumed : ∃ s', emulate o s (log calls) = .ok s'
  restored : ∀ before addr size mem after, calls = before ++ .memread addr size mem :: after →
    ∃ l l', emulateLines o (Loop.fresh s) (readLines (log before)) = .ok l ∧
      emulateLine o l (line (memreadFields false addr size mem)) = .ok l' ∧
      ((∀ c ∈ Cell.range addr size, (T.view l'.state.ctx).conc c =
        (Callback.memread addr size mem).observed c) ∨ l' = l)

/-- No number at all is an error, whatever the engine makes of the access. -/
theorem emulateLine_unsized (o : Options) (l : Loop T) (addr : BitVec 64) {size : Nat}
    (mem : BitVec 64 → BitVec 8) (unsized : ¬ AccessSize size) :
    ∃ e, emulateLine o l (line (memreadFields false addr size mem)) = .error e := by
  have empty : payload false mem addr size ++ ['\n'] = ['\n'] := by
    rw [payload, if_neg (show size ∉ [1, 2, 4, 8] from unsized), List.nil_append]
  have address := readUnsigned_hex false addr.toNat [] (by simp)
  rw [List.append_nil] at address
  have fields := (memreadFields_closed false addr size mem).split
  rw [memreadFields, empty] at fields
  rw [memreadFields, empty, emulateLine_memread o l fields]
  simp only [syncMemory, readUnsigned_ok address, readUnsigned_ok (readUnsigned_decimal size),
    Python.unsigned_natCast, bind, Except.bind]
  cases native (T.getConcreteMemoryValue l.state.ctx ⟨addr.toNat, size⟩) with
  | error e => exact ⟨e, rfl⟩
  | ok synch => exact ⟨.valueError, rfl⟩

theorem emulate_unsized (o : Options) (s : State T) {calls : List Callback} {call : Callback}
    (member : call ∈ calls) (unsized : ¬ call.Sized) : ∃ e, emulate o s (log calls) = .error e := by
  cases call with
  | inst regs addr opcode => exact absurd trivial unsized
  | memread addr size mem =>
    have present : line (memreadFields false addr size mem) ∈ readLines (log calls) := by
      rw [readLines_log]
      exact List.mem_flatMap.mpr ⟨_, member, List.mem_singleton_self _⟩
    obtain ⟨e, failed⟩ := Outcome.foldlM_error present
      (fun l => emulateLine_unsized o l addr mem unsized) (Loop.fresh s)
    refine ⟨e, ?_⟩
    rw [emulate]
    have stopped : emulateLines o (Loop.fresh s) (readLines (log calls)) = .error e := failed
    rw [show ({ state := s, fuse := true, count := 0 } : Loop T) = Loop.fresh s from rfl, stopped]
    rfl

section
variable (lawful : T.Lawful) {o : Options} (symsized : AccessSize o.symsize) (answers : o.Answers T)
include lawful symsized answers

theorem replaysToEnd_of_sized {s : State T} {calls : List Callback} (seedable : Seedable o s.ctx calls)
    (decodable : ∀ call ∈ calls, Decodable T call) (sized : ∀ call ∈ calls, call.Sized) : ReplaysToEnd o s calls := by
  constructor
  · obtain ⟨l, runs⟩ := replay_total lawful symsized answers sized decodable (l := Loop.fresh s) fun _ => seedable
    rw [emulate_log o s sized, runs]
    exact ⟨_, rfl⟩
  · rintro before addr size mem after rfl
    have sized_before : ∀ call ∈ before, call.Sized := fun call member => sized call (by simp [member])
    have known : AccessSize size := sized (.memread addr size mem) (by simp)
    have all := replay_total lawful symsized answers sized decodable (l := Loop.fresh s) fun _ => seedable
    obtain ⟨l, runs⟩ : ∃ l, replay o (Loop.fresh s) before = .ok l := by
      obtain ⟨l', finished⟩ := all
      rw [replay_append] at finished
      obtain ⟨l, runs, _⟩ := Outcome.bind_ok finished
      exact ⟨l, runs⟩
    obtain ⟨ctx', synced, view, _⟩ := memread_runs lawful o l addr mem known
    refine ⟨l, l.withCtx ctx', ?_, ?_, Or.inl ?_⟩
    · rw [emulateLines_log o _ sized_before]
      exact runs
    · rw [emulateLine_of_decoded o l (decodeLine_memread false addr mem known)]
      rw [replay_singleton] at synced
      simpa only [Callback.dispatches, List.foldlM_cons, List.foldlM_nil, bind_pure] using synced
    · intro c inside
      rw [Loop.withCtx, view, Store.resync_conc_mem inside]

end

/-- A log of instructions that the engine disassembles is replayed to its end exactly when
all its memory records have a size that the tracer's switch knows. This holds of the first
replay without further conditions, and of the second one where its inputs fit and its
flag exists. -/
theorem replaysToEnd_iff (lawful : T.Lawful) {argv : Argv}
    (symsized : AccessSize (argv.options 1).symsize) {calls : List Callback}
    (decodable : ∀ call ∈ calls, Decodable T call) :
    (∀ s : State T, s.ctx = setMode T.new →
      (ReplaysToEnd (argv.options 1) s calls ↔ ∀ call ∈ calls, call.Sized)) ∧
    ∀ s : State T, Seedable (argv.options 2) s.ctx calls → (argv.options 2).Answers T →
      (ReplaysToEnd (argv.options 2) s calls ↔ ∀ call ∈ calls, call.Sized) := by
  have needed : ∀ (o : Options) (s : State T), ReplaysToEnd o s calls → ∀ call ∈ calls, call.Sized := by
    intro o s replays call member
    by_contra unsized
    obtain ⟨s', finished⟩ := replays.consumed
    obtain ⟨e, failed⟩ := emulate_unsized o s member unsized
    rw [failed] at finished
    cases finished
  constructor
  · intro s fresh
    refine ⟨needed _ s, fun sized => replaysToEnd_of_sized lawful symsized ?_ (Or.inl ?_) decodable sized⟩
    · exact fun recording => by simp [Options.recording, Argv.options] at recording
    · exact (fresh_view lawful fresh).2.2
  · exact fun s seedable answers =>
      ⟨needed _ s, fun sized =>
        replaysToEnd_of_sized (o := argv.options 2) lawful symsized answers seedable decodable sized⟩

open Reference in
/-- A traced call that reads four bytes is replayed to its end. -/
theorem replaysToEnd_exchange :
    ReplaysToEnd ((request none).options 1) start (trace exchangeProgram 2 (exchangeCall 7)) :=
  ((replaysToEnd_iff engine_lawful (by decide) (Machine.Logged.decodable (engine_sound (by decide))
    (trace_logged (by decide) 2 (exchangeCall 7)))).1 start rfl).mpr (trace_sized exchangeProgram 2 (exchangeCall 7))

open Reference in
/-- `movaps xmm0, [rdi]` reads 16 bytes. Its record has an empty value field, on which
the replay stops. -/
theorem replaysToEnd_fails :
    let calls : List Callback := [.memread 0x7fffffffe000 16 fun _ => 0xff,
      .inst (fun reg => if reg = .rdi then 0x7fffffffe000 else 0) 0x401000 [0x0f, 0x28, 0x07]]
    (readLines (log calls)).head? = some "mr:0x7fffffffe000:16:\n".toList ∧
      ¬ ReplaysToEnd ((request none).options 1) start calls := by
  intro calls
  refine ⟨by rw [readLines_log]; decide +kernel, fun replays => ?_⟩
  obtain ⟨s', finished⟩ := replays.consumed
  have first : Callback.memread 0x7fffffffe000 16 (fun _ => 0xff) ∈ calls := List.mem_cons_self
  obtain ⟨e, failed⟩ := emulate_unsized ((request none).options 1) start first
    (by decide : ¬ AccessSize 16)
  rw [failed] at finished
  cases finished

end Devirt.Attack
