import Mathlib.Data.List.Forall2
import Devirt.Attack.Branches

/-! The second replay runs in the context of the first one. As long as none of its
steps reads what the first one left there, it gives the result that it would give in
a context with nothing but the two inputs. -/
namespace Devirt.Attack
open Tracer Concolic
open Python (PyError)

variable {T : Triton}

/-- The marks when an instruction is handed over, after its register record. -/
def readyMarks (m : Marks Cell) (l : Loop T) (regs : Gpr → BitVec 64) (addr : BitVec 64)
    (opcode : List (BitVec 8)) : Marks Cell :=
  let m := m.recordedEach (T.view l.state.ctx) (Gpr.all.map .gpr) (Callback.inst regs addr opcode).observed
  if l.fuse then m.written {.gpr .rdi, .gpr .rsi} else m

theorem owned_ready {m : Marks Cell} {c : Cell} (owned : m.Owned c) (l : Loop T)
    (regs : Gpr → BitVec 64) (addr : BitVec 64) (opcode : List (BitVec 8)) :
    (readyMarks m l regs addr opcode).Owned c := by
  unfold readyMarks
  cases l.fuse with
  | false => exact owned.recordedEach
  | true => exact owned.recordedEach.written

/-- The first instruction finds the inputs in place. -/
theorem arguments_ready (m : Marks Cell) {l : Loop T} (fuse : l.fuse = true) (regs : Gpr → BitVec 64)
    (addr : BitVec 64) (opcode : List (BitVec 8)) {c : Cell}
    (argument : c = .gpr .rdi ∨ c = .gpr .rsi) :
    (readyMarks m l regs addr opcode).Owned c := by
  unfold readyMarks
  rw [if_pos fuse]
  exact Marks.owned_written argument

/-- No instruction reads a cell with something left over, no flag that the recorder
looks at is such a cell, and in the end RAX is none. -/
def Isolated (fp : T.Footprint) (o : Options) : Marks Cell → Loop T → List Callback → Prop
  | m, l, [] => m.Clean 0 (T.view l.state.ctx) (.gpr .rax)
  | m, l, .memread addr size mem :: rest => ∀ l', replay o l [.memread addr size mem] = .ok l' →
      Isolated fp o (m.recorded 0 (T.view l.state.ctx) (Cell.range addr size)
        (Callback.memread addr size mem).observed) l' rest
  | m, l, .inst regs addr opcode :: rest => ∀ l' s s',
      Dispatch.run o l (.syncReg (Gpr.all.map fun reg => (regs reg).toNat)) = .ok l' →
      burnFuse o l'.state l'.fuse = .ok s → process o s ⟨addr.toNat, opcode⟩ = .ok s' →
      let before := readyMarks m l regs addr opcode
      let after := before.written (fp.writes s.ctx ⟨addr.toNat, opcode⟩)
      (∀ c ∈ fp.reads s.ctx ⟨addr.toNat, opcode⟩, before.Clean 0 (T.view s.ctx) c) ∧
      (∀ flag, o.recording = true →
        o.visits addr.toNat (T.processing s.ctx ⟨addr.toNat, opcode⟩).2 = true → o.Resolves T flag →
        after.Clean 0 (T.view s'.ctx) flag.cell) ∧
      Isolated fp o after { state := s', fuse := false, count := l'.count + 1 } rest

/-- A context with nothing but the two inputs, whatever their values. -/
structure Blank (symsize : Nat) (ctx blank : T.Ctx) : Prop where
  conc : ∀ c, (T.view blank).conc c = 0
  sym : ∀ c, (T.view blank).sym c = none
  inputs : T.getSymbolicVariables blank = inputVariables symsize
  others : ∀ id, 2 ≤ id → T.values blank id = T.values ctx id

/-- Two replays of the same records, side by side. -/
structure Mirrors (fp : T.Footprint) (o : Options) (m : Marks Cell) (l b : Loop T) : Prop where
  fuse : b.fuse = l.fuse
  agrees : Agrees fp.alike 0 m (T.view l.state.ctx) (T.view b.state.ctx)
  inputs : T.getSymbolicVariables l.state.ctx = inputVariables o.symsize
  inputs' : T.getSymbolicVariables b.state.ctx = inputVariables o.symsize
  values : ∀ id, (l.fuse = true → 2 ≤ id) → T.values b.state.ctx id = T.values l.state.ctx id
  conditions : List.Forall₂ (fun c c' => T.denote c = T.denote c') l.state.vJmp b.state.vJmp

/-- The arguments of the traced call fit their variables. -/
def ArgumentsFit (o : Options) (calls : List Callback) : Prop :=
  ∀ regs, firstRegisters calls = some regs →
    (regs .rdi).toNat < 256 ^ o.symsize ∧ (regs .rsi).toNat < 256 ^ o.symsize

instance (o : Options) (calls : List Callback) : Decidable (ArgumentsFit o calls) :=
  inferInstanceAs (Decidable (∀ regs ∈ firstRegisters calls, _))

/-- The recorder fails for its arguments only, not for the context. -/
theorem detectingVjmp_answers {o : Options} {s s' : State T} {address : Nat} {inst : Processed}
    (t : State T) (detected : detectingVjmp o s address inst = .ok s') :
    ∃ t', detectingVjmp o t address inst = .ok t' := by
  cases recording : o.recording with
  | false =>
    obtain ⟨t', found, _⟩ := detectingVjmp_idle o t address inst recording
    exact ⟨t', found⟩
  | true =>
    unfold detectingVjmp at detected ⊢
    rw [if_pos recording] at detected ⊢
    by_cases visited : o.visits address inst = true
    · rw [if_pos visited] at detected ⊢
      obtain ⟨flag, resolved, _⟩ := Outcome.bind_ok detected
      rw [resolved]
      simp only [bind, Except.bind]
      split
      · exact ⟨_, rfl⟩
      · exact ⟨_, rfl⟩
    · rw [if_neg visited]
      exact ⟨t, rfl⟩

section
variable (lawful : T.Lawful) {fp : T.Footprint} (isolates : T.Local fp) {o : Options}
    {m : Marks Cell} {l b : Loop T}
include lawful isolates

theorem recorded_same {ctx ctx' : T.Ctx} {address : Nat} {inst : Processed}
    (values : T.values ctx' = T.values ctx)
    (flags : ∀ flag, o.recording = true → o.visits address inst = true → o.Resolves T flag →
      AgreeOn fp.alike {flag.cell} (T.view ctx) (T.view ctx')) :
    List.Forall₂ (fun c c' => T.denote c = T.denote c')
      ((Execution.mk ctx address inst).recorded o) ((Execution.mk ctx' address inst).recorded o) := by
  unfold Execution.recorded
  split
  · rename_i recording
    split
    · rename_i visited
      cases resolved : T.getRegister (o.vbrflag.getD "") with
      | error message => exact .nil
      | ok flag =>
        have alike := isolates.getRegisterAst (flags flag recording visited resolved)
        simp only [isolates.searchVariables alike]
        split
        · refine .cons ?_ .nil
          funext input
          rw [TwoReplays.condition_denote lawful, TwoReplays.condition_denote lawful,
            isolates.denote alike,
            values]
        · exact .nil
    · exact .nil
  · exact .nil

theorem process_mirrors {s t s' : State T} {inst : Instruction} (processed : process o s inst = .ok s')
    (same : T.SameInputs s.ctx t.ctx) (agrees : Agrees fp.alike 0 m (T.view s.ctx) (T.view t.ctx))
    (reads : ∀ c ∈ fp.reads s.ctx inst, m.Clean 0 (T.view s.ctx) c)
    (flags : ∀ flag, o.recording = true → o.visits inst.address (T.processing s.ctx inst).2 = true →
      o.Resolves T flag → (m.written (fp.writes s.ctx inst)).Clean 0 (T.view s'.ctx) flag.cell)
    (conditions : List.Forall₂ (fun c c' => T.denote c = T.denote c') s.vJmp t.vJmp) :
    ∃ t', process o t inst = .ok t' ∧ T.SameInputs s.ctx s'.ctx ∧ T.SameInputs s'.ctx t'.ctx ∧
      Agrees fp.alike 0 (m.written (fp.writes s.ctx inst)) (T.view s'.ctx) (T.view t'.ctx) ∧
      List.Forall₂ (fun c c' => T.denote c = T.denote c') s'.vJmp t'.vJmp := by
  obtain ⟨writes, info, written⟩ := isolates.step same fun c member => agrees.clean (reads c member)
  obtain ⟨decodes, detected⟩ := process_ok processed
  obtain ⟨ctx, vJmp⟩ := detectingVjmp_ok detected
  dsimp only at ctx vJmp
  have after : Agrees fp.alike 0 (m.written (fp.writes s.ctx inst)) (T.view (T.processing s.ctx inst).1)
      (T.view (T.processing t.ctx inst).1) :=
    agrees.execute written (isolates.frame s.ctx inst) (by rw [← writes]; exact isolates.frame t.ctx inst)
  have sameAfter : T.SameInputs (T.processing s.ctx inst).1 (T.processing t.ctx inst).1 := by
    have first := isolates.inputs s.ctx inst
    have second := isolates.inputs t.ctx inst
    exact ⟨by rw [second.1, same.1, first.1], by rw [second.2, same.2, first.2]⟩
  obtain ⟨t', detected'⟩ := detectingVjmp_answers { t with ctx := (T.processing t.ctx inst).1 } detected
  obtain ⟨ctx', vJmp'⟩ := detectingVjmp_ok detected'
  dsimp only at ctx' vJmp'
  refine ⟨t', ?_, ?_, ?_, ?_, ?_⟩
  · rw [process_decoded o t decodes, info]
    exact detected'
  · rw [ctx]
    exact isolates.inputs s.ctx inst
  · rw [ctx, ctx']
    exact sameAfter
  · rw [ctx, ctx']
    exact after
  · rw [vJmp, vJmp']
    apply List.rel_append conditions (recorded_same lawful isolates sameAfter.2 _)
    intro flag recording visited resolves c member
    rw [Set.mem_singleton_iff.mp member]
    have clean := flags flag recording visited resolves
    rw [ctx] at clean
    exact after.clean clean

end

namespace Reseeded
variable {symsize : Nat} {ctx ctx' seeded seeded' : T.Ctx}

theorem frame (again : Reseeded symsize ctx seeded) : ∀ c ∉ ({.gpr .rdi, .gpr .rsi} : Set Cell),
    (T.view seeded).conc c = (T.view ctx).conc c ∧ (T.view seeded).sym c = (T.view ctx).sym c := by
  intro c outside
  simp only [Set.mem_insert_iff, Set.mem_singleton_iff, not_or] at outside
  rw [again.view]
  simp only [Function.update_of_ne outside.1, Function.update_of_ne outside.2, and_self]

/-- The same two expressions in both contexts. -/
theorem agrees {fp : T.Footprint} (refl : ∀ a, fp.alike a a) {m : Marks Cell}
    (again : Reseeded symsize ctx seeded) (again' : Reseeded symsize ctx' seeded')
    (before : Agrees fp.alike 0 m (T.view ctx) (T.view ctx'))
    (conc : ∀ reg, (T.view ctx').conc (.gpr reg) = (T.view ctx).conc (.gpr reg)) :
    Agrees fp.alike 0 (m.written {.gpr .rdi, .gpr .rsi}) (T.view seeded) (T.view seeded') := by
  apply before.execute _ again.frame again'.frame
  intro c member
  rw [again.view, again'.view]
  rcases member with rfl | rfl
  · refine ⟨conc .rdi, ?_⟩
    simp only [ne_eq, Cell.gpr.injEq, reduceCtorEq, not_false_eq_true, Function.update_of_ne,
      Function.update_self]
    exact .some (refl _)
  · refine ⟨conc .rsi, ?_⟩
    simp only [Function.update_self]
    exact .some (refl _)

/-- The values of the inputs are overwritten, and there are no others. -/
theorem values_eq (again : Reseeded symsize ctx seeded) (again' : Reseeded symsize ctx' seeded')
    (others : ∀ id, 2 ≤ id → T.values ctx' id = T.values ctx id)
    (conc : ∀ reg, (T.view ctx').conc (.gpr reg) = (T.view ctx).conc (.gpr reg)) :
    T.values seeded' = T.values seeded := by
  rw [again.values, again'.values, conc, conc]
  funext id
  obtain rfl | rfl | beyond : id = 0 ∨ id = 1 ∨ 2 ≤ id := by omega
  · simp
  · simp
  · rw [Function.update_of_ne (by omega), Function.update_of_ne (by omega),
      Function.update_of_ne (by omega),
      Function.update_of_ne (by omega), others id beyond]

end Reseeded

section
variable (lawful : T.Lawful) {fp : T.Footprint} (refl : ∀ a, fp.alike a a) {o : Options}
    {m : Marks Cell} {l b : Loop T}
include lawful refl

/-- The register record and the fuse, in both contexts. -/
theorem handsOver_mirrors (mirrors : Mirrors fp o m l b) (regs : Gpr → BitVec 64) (addr : BitVec 64)
    (opcode : List (BitVec 8))
    (fits : l.fuse = true → (regs .rdi).toNat < 256 ^ o.symsize ∧ (regs .rsi).toNat < 256 ^ o.symsize) :
    ∃ ctx ctx' s t,
      Dispatch.run o l (.syncReg (Gpr.all.map fun reg => (regs reg).toNat)) = .ok (l.withCtx ctx) ∧
      Dispatch.run o b (.syncReg (Gpr.all.map fun reg => (regs reg).toNat)) = .ok (b.withCtx ctx') ∧
      burnFuse o (l.withCtx ctx).state l.fuse = .ok s ∧
        burnFuse o (b.withCtx ctx').state b.fuse = .ok t ∧
      T.getSymbolicVariables s.ctx = inputVariables o.symsize ∧ T.SameInputs s.ctx t.ctx ∧
      Agrees fp.alike 0 (readyMarks m l regs addr opcode) (T.view s.ctx) (T.view t.ctx) ∧
      List.Forall₂ (fun c c' => T.denote c = T.denote c') s.vJmp t.vJmp := by
  obtain ⟨ctx, synced, view, known, values⟩ := register_runs lawful o l regs addr opcode
  obtain ⟨ctx', synced', view', known', values'⟩ := register_runs lawful o b regs addr opcode
  have agrees : Agrees fp.alike 0 (m.recordedEach (T.view l.state.ctx) (Gpr.all.map .gpr)
      (Callback.inst regs addr opcode).observed) (T.view ctx) (T.view ctx') := by
    rw [view, view']
    exact mirrors.agrees.resyncEach
  have shown := registers_shown view
  have shown' : ∀ reg, (T.view ctx').conc (.gpr reg) = (T.view ctx).conc (.gpr reg) :=
    fun reg => (registers_shown view' reg).trans (shown reg).symm
  cases fuse : l.fuse with
  | false =>
    refine ⟨ctx, ctx', (l.withCtx ctx).state, (b.withCtx ctx').state, synced, synced', rfl, ?_, ?_, ⟨?_, ?_⟩,
      ?_, mirrors.conditions⟩
    · rw [mirrors.fuse, fuse]
      rfl
    · exact known.trans mirrors.inputs
    · exact (known'.trans mirrors.inputs').trans (known.trans mirrors.inputs).symm
    · funext id
      exact (congrFun values' id).trans ((mirrors.values id (by simp [fuse])).trans (congrFun values id).symm)
    · simp only [readyMarks, fuse]
      exact agrees
  | true =>
    obtain ⟨fitsX, fitsY⟩ := fits fuse
    rw [← shown] at fitsX fitsY
    obtain ⟨seeded, seeds, again⟩ := seedInputs_again lawful ctx (known.trans mirrors.inputs) fitsX fitsY
    rw [← shown'] at fitsX fitsY
    obtain ⟨seeded', seeds', again'⟩ :=
      seedInputs_again lawful ctx' (known'.trans mirrors.inputs') fitsX fitsY
    have burnt := burnFuse_seeds o (s := (l.withCtx ctx).state) seeds
    have burnt' := burnFuse_seeds o (s := (b.withCtx ctx').state) seeds'
    rw [← mirrors.fuse.trans fuse] at burnt'
    refine ⟨ctx, ctx', _, _, synced, synced', burnt, burnt', again.inputs,
      ⟨again'.inputs.trans again.inputs.symm, ?_⟩, ?_, mirrors.conditions⟩
    · apply again.values_eq again' _ shown'
      intro id beyond
      rw [values, values']
      exact mirrors.values id fun _ => beyond
    · simp only [readyMarks, fuse, if_true]
      exact again.agrees refl again' agrees shown'

end

/-- What is left to do for an instruction whose registers and inputs are in place. -/
theorem inst_ran {o : Options} {l l' next : Loop T} {s : State T} {regs : Gpr → BitVec 64}
    {addr : BitVec 64} {opcode : List (BitVec 8)}
    (synced : Dispatch.run o l (.syncReg (Gpr.all.map fun reg => (regs reg).toNat)) = .ok next)
    (burnt : burnFuse o next.state next.fuse = .ok s)
    (ran : replay o l [.inst regs addr opcode] = .ok l') :
    ∃ s', process o s ⟨addr.toNat, opcode⟩ = .ok s' ∧
      l' = { state := s', fuse := false, count := next.count + 1 } := by
  rw [replay_singleton, Callback.dispatches] at ran
  obtain ⟨after, record, ran⟩ := Outcome.foldlM_cons_ok ran
  cases synced.symm.trans record
  obtain ⟨done, instruction, ran⟩ := Outcome.foldlM_cons_ok ran
  cases ran
  obtain ⟨s₁, burning, instruction⟩ := Outcome.bind_ok instruction
  cases burnt.symm.trans burning
  obtain ⟨s', processed, same⟩ := Outcome.bind_ok instruction
  cases same
  exact ⟨s', processed, rfl⟩

/-- Two replays side by side, with records left that keep them apart from left-overs. -/
structure Mirroring (fp : T.Footprint) (o : Options) (calls : List Callback) (m : Marks Cell)
    (l b : Loop T) :
    Prop where
  sized : ∀ call ∈ calls, call.Sized
  mirrors : Mirrors fp o m l b
  isolated : Isolated fp o m l calls
  fits : l.fuse = true → ArgumentsFit o calls

section
variable (lawful : T.Lawful) {fp : T.Footprint} (isolates : T.Local fp) {o : Options}
    {m : Marks Cell} {l b l' : Loop T}
include lawful isolates

theorem call_mirrors {call : Callback} {rest : List Callback}
    (mirroring : Mirroring fp o (call :: rest) m l b) (ran : replay o l [call] = .ok l') :
    ∃ b', replay o b [call] = .ok b' ∧ ∃ m', Mirroring fp o rest m' l' b' := by
  obtain ⟨sized, mirrors, isolated, fits⟩ := mirroring
  obtain ⟨known, rest_sized⟩ := List.forall_mem_cons.mp sized
  cases call with
  | memread addr size mem =>
    obtain ⟨ctx, runs, view, same⟩ := memread_runs lawful o l addr mem known
    obtain ⟨ctx', runs', view', same'⟩ := memread_runs lawful o b addr mem known
    cases runs.symm.trans ran
    have next : Mirrors fp o (m.recorded 0 (T.view l.state.ctx) (Cell.range addr size)
        (Callback.memread addr size mem).observed) (l.withCtx ctx) (b.withCtx ctx') := by
      refine ⟨mirrors.fuse, ?_, same.1.trans mirrors.inputs, same'.1.trans mirrors.inputs', ?_,
        mirrors.conditions⟩
      · simp only [Loop.withCtx, view, view']
        exact mirrors.agrees.resync
      · simp only [Loop.withCtx, same.2, same'.2]
        exact mirrors.values
    exact ⟨b.withCtx ctx', runs', _, rest_sized, next, isolated _ runs, fits⟩
  | inst regs addr opcode =>
    obtain ⟨ctx, ctx', s, t, synced, synced', burnt, burnt', inputs, same, agrees, conditions⟩ :=
      handsOver_mirrors lawful isolates.refl mirrors regs addr opcode fun fuse => fits fuse regs rfl
    obtain ⟨s', processed, rfl⟩ := inst_ran synced burnt ran
    obtain ⟨reads, flags, isolated⟩ := isolated _ s s' synced burnt processed
    obtain ⟨t', processed', kept, same, agrees, conditions⟩ :=
      process_mirrors lawful isolates processed same agrees reads flags conditions
    let after := (readyMarks m l regs addr opcode).written (fp.writes s.ctx ⟨addr.toNat, opcode⟩)
    have next : Mirrors fp o after ⟨s', false, l.count + 1⟩ ⟨t', false, b.count + 1⟩ :=
      ⟨rfl, agrees, kept.1.trans inputs, same.1.trans (kept.1.trans inputs),
        fun id _ => congrFun same.2 id, conditions⟩
    exact ⟨_, inst_runs o synced' burnt' processed', _, rest_sized, next, isolated, by simp⟩

/-- The blank replay keeps up with the other one to the end. -/
theorem replay_mirrors {calls : List Callback} (mirroring : Mirroring fp o calls m l b)
    (ran : replay o l calls = .ok l') :
    ∃ b' m', replay o b calls = .ok b' ∧ Mirrors fp o m' l' b' ∧
      m'.Clean 0 (T.view l'.state.ctx) (.gpr .rax) := by
  rw [replay_eq_foldlM] at ran
  obtain ⟨b', runs, m', final⟩ := Outcome.foldlM_simulates
    (R := fun rest l b => ∃ m, Mirroring fp o rest m l b)
    (fun ⟨m, mirroring⟩ ran => call_mirrors lawful isolates mirroring ran) ⟨m, mirroring⟩ ran
  exact ⟨b', m', (replay_eq_foldlM o b calls).trans runs, final.mirrors, final.isolated⟩

end

/-- The inputs exist from the first instruction on. -/
structure Seeds (o : Options) (l : Loop T) : Prop where
  unseeded : l.fuse = true → T.getSymbolicVariables l.state.ctx = []
  seeded : l.fuse = false → T.getSymbolicVariables l.state.ctx = inputVariables o.symsize

/-- A fuse that is still there has seen memory records only. -/
structure Seeding (o : Options) (calls rest : List Callback) (l : Loop T) : Prop where
  sized : ∀ call ∈ rest, call.Sized
  seeds : Seeds o l
  first : l.fuse = true → firstRegisters calls = firstRegisters rest

section
variable (lawful : T.Lawful) (inputs : ∀ ctx i, T.SameInputs ctx (T.processing ctx i).1) {o : Options}
  (symsized : AccessSize o.symsize)
include lawful inputs symsized

theorem call_seeds {call : Callback} {l l' : Loop T} (sized : call.Sized) (seeds : Seeds o l)
    (ran : replay o l [call] = .ok l') :
    Seeds o l' ∧ (l'.fuse = true → l.fuse = true ∧ call.isMemread = true) := by
  cases call with
  | memread addr size mem =>
    obtain ⟨ctx, runs, _, same⟩ := memread_runs lawful o l addr mem sized
    cases runs.symm.trans ran
    exact ⟨⟨fun fuse => same.1.trans (seeds.unseeded fuse), fun fuse => same.1.trans (seeds.seeded fuse)⟩,
      fun fuse => ⟨fuse, rfl⟩⟩
  | inst regs addr opcode =>
    obtain ⟨ctx, synced, _, same⟩ := register_runs lawful o l regs addr opcode
    have burnt : ∃ s, burnFuse o (l.withCtx ctx).state l.fuse = .ok s ∧
        T.getSymbolicVariables s.ctx = inputVariables o.symsize := by
      cases fuse : l.fuse with
      | false => exact ⟨(l.withCtx ctx).state, rfl, same.1.trans (seeds.seeded fuse)⟩
      | true =>
        obtain ⟨seededCtx, seeding, seeded⟩ :=
          seedInputs_fresh lawful ctx symsized (same.1.trans (seeds.unseeded fuse))
        exact ⟨_, burnFuse_seeds o (s := (l.withCtx ctx).state) seeding, seeded.inputs⟩
    obtain ⟨s, burnt, known⟩ := burnt
    obtain ⟨s', processed, rfl⟩ := inst_ran synced burnt ran
    have after : T.getSymbolicVariables s'.ctx = inputVariables o.symsize := by
      rw [(detectingVjmp_ok (process_ok processed).2).1]
      exact (inputs s.ctx _).1.trans known
    exact ⟨⟨by simp, fun _ => after⟩, by simp⟩

theorem replay_seeds {calls : List Callback} {l l' : Loop T} (sized : ∀ call ∈ calls, call.Sized)
    (seeds : Seeds o l) (ran : replay o l calls = .ok l') :
    Seeds o l' ∧ (l'.fuse = true → firstRegisters calls = none) := by
  rw [replay_eq_foldlM] at ran
  have step : ∀ {call rest} {l l' : Loop T}, Seeding o calls (call :: rest) l →
    replay o l [call] = .ok l' →
      Seeding o calls rest l' := by
    rintro call rest l l' ⟨sized, seeds, first⟩ ran
    obtain ⟨known, rest_sized⟩ := List.forall_mem_cons.mp sized
    obtain ⟨seeds', still⟩ := call_seeds lawful inputs symsized known seeds ran
    refine ⟨rest_sized, seeds', fun fuse => (first (still fuse).1).trans ?_⟩
    cases call with
    | memread addr size mem => rfl
    | inst regs addr opcode => exact absurd (still fuse).2 (by simp [Callback.isMemread])
  have final := Outcome.foldlM_invariant step ⟨sized, seeds, fun _ => rfl⟩ ran
  exact ⟨final.seeds, final.first⟩

end

namespace TwoReplays
variable {files : Files} {argv : Argv} (r : TwoReplays T files argv)

/-- The state in which the second replay starts. -/
def shared : State T := r.l₁.finish.print "[+] A second trace has been provided"

theorem onePath_shared : onePath (argv.options 2) r.shared (log r.calls₂) = .ok (r.l₂.finish, r.ret₂) := by
  rw [onePath_log (argv.options 2) r.shared r.sized₂, shared, r.run₂]
  rfl

/-- The second replay returns the same function of the inputs and records the same
conditions as in a blank context, whenever none of its steps reads what the first
replay left behind. -/
theorem isolated (lawful : T.Lawful) {fp : T.Footprint} (isolates : T.Local fp)
    (symsized : AccessSize (argv.options 1).symsize) (traced : firstRegisters r.calls₁ ≠ none)
    (fits : ArgumentsFit (argv.options 2) r.calls₂) {b : State T}
    (blank : Blank (argv.options 2).symsize r.shared.ctx b.ctx) (empty : b.vJmp = [])
    (isolated : Isolated fp (argv.options 2) .initial (Loop.start r.shared) r.calls₂) :
    ∃ a e b' e', onePath (argv.options 2) r.shared (log r.calls₂) = .ok (a, e) ∧
      onePath (argv.options 2) b (log r.calls₂) = .ok (b', e') ∧
      (∀ input, T.denote e input = T.denote e' input) ∧
      List.Forall₂ (fun c c' => ∀ input, T.denote c input = T.denote c' input) a.vJmp b'.vJmp := by
  have seeded : T.getSymbolicVariables r.shared.ctx = inputVariables (argv.options 2).symsize := by
    have start : Seeds (argv.options 1) (Loop.start { ctx := setMode T.new, vJmp := [], stdout := [] }) :=
      ⟨fun _ => (fresh_view lawful rfl).2.2, fun burnt => by cases burnt⟩
    obtain ⟨seeds, fuse⟩ := replay_seeds lawful isolates.inputs symsized r.sized₁ start r.run₁
    apply seeds.seeded
    by_contra burning
    exact traced (fuse (by simpa using burning))
  have idle : r.shared.vJmp = [] := executions_idle (o := argv.options 1) rfl r.run₁
  have mirrors : Mirrors fp (argv.options 2) .initial (Loop.start r.shared) (Loop.start b) := by
    refine ⟨rfl, .initial blank.conc blank.sym, seeded, blank.inputs, fun id beyond => ?_, ?_⟩
    · exact blank.others id (beyond rfl)
    · simp only [Loop.start, Loop.fresh, State.print, idle, empty]
      exact .nil
  obtain ⟨l, m, ran, mirrors, clean⟩ :=
    replay_mirrors lawful isolates ⟨r.sized₂, mirrors, isolated, fun _ => fits⟩ r.run₂
  have alike : fp.alike (T.getRegisterAst r.l₂.state.ctx .eax) (T.getRegisterAst l.state.ctx .eax) := by
    apply isolates.getRegisterAst
    intro c member
    rw [Set.mem_singleton_iff.mp member]
    exact mirrors.agrees.clean clean
  refine ⟨_, _, l.finish, T.getRegisterAst l.state.ctx .eax, r.onePath_shared, ?_, fun input => ?_, ?_⟩
  · rw [onePath_log (argv.options 2) b r.sized₂, ran]
    rfl
  · exact congrFun (isolates.denote alike) input
  · exact mirrors.conditions.imp fun c c' same input => congrFun same input

end TwoReplays

open Reference

/-- A context of the small engine with nothing but the two inputs. -/
def blankContext (values : Valuation) : State engine where
  ctx :=
    { store := { conc := fun _ => 0, sym := fun _ => none }
      symbolized := [(.rdi, 32), (.rsi, 32)]
      current := values }
  vJmp := []
  stdout := []

theorem blankContext_blank (ctx : engine.Ctx) : Blank 4 ctx (blankContext (engine.values ctx)).ctx where
  conc _ := Nat.zero_mod _
  sym _ := rfl
  inputs := rfl
  others _ _ := rfl

set_option maxRecDepth 10000 in
/-- In the second replay of the two-path function `cmp` and `mov` read the arguments,
`jb` and the recorder the flag that `cmp` has written. -/
theorem maxReplays_isolated : Isolated footprint ((request (some 0x401000)).options 2) .initial
    (Loop.start maxReplays.shared) maxReplays.calls₂ := by
  have cmp_reads : ∀ c ∈ readList maxProgram[0], c = .gpr .rdi ∨ c = .gpr .rsi := by decide
  have jb_reads : ∀ c ∈ readList maxProgram[1], c = .flag .cf := by decide
  have mov_reads : ∀ c ∈ readList maxProgram[3], c = .gpr .rsi := by decide
  have elsewhere : ∀ {address inst}, address ≠ 0x401000 →
      ((request (some 0x401000)).options 2).visits address inst = true → False := by
    intro address inst other visits
    simp only [Options.visits, Argv.options, request, Bool.and_eq_true, beq_iff_eq,
      Option.some.injEq] at visits
    omega
  refine fun l₁ s₁ s₁' _ _ _ => ⟨fun c read => ?_, fun flag _ _ resolves => ?_,
    fun l₂ s₂ s₂' _ _ _ => ⟨fun c read => ?_, fun flag _ visits => (elsewhere (by decide) visits).elim,
      fun l₃ s₃ s₃' _ _ _ => ⟨fun c read => ?_, fun flag _ visits => (elsewhere (by decide) visits).elim, ?_⟩⟩⟩
  · exact (arguments_ready _ rfl _ _ _ (cmp_reads c (mem_readCells.mp read))).clean
  · cases (show engine.getRegister "cf" = .ok .cf from rfl).symm.trans resolves
    apply Marks.Owned.clean (Marks.owned_written _)
    exact (show (effectOn maxProgram[0] (.flag .cf)).isSome = true by decide)
  · rw [jb_reads c (mem_readCells.mp read)]
    apply Marks.Owned.clean (owned_ready (Marks.owned_written _) _ _ _ _)
    exact (show (effectOn maxProgram[0] (.flag .cf)).isSome = true by decide)
  · rw [mov_reads c (mem_readCells.mp read)]
    have seeded := arguments_ready .initial (l := Loop.start maxReplays.shared) rfl
      (fun reg => BitVec.ofNat 64 ((twoArguments 3 5).cell (.gpr reg))) 0x401000 [0x39, 0xf7] (Or.inr rfl)
    apply Marks.Owned.clean (owned_ready (owned_ready _ _ _ _ _).written _ _ _ _)
    exact seeded.written
  · apply Marks.Owned.clean (Marks.owned_written _)
    exact (show (effectOn maxProgram[3] (.gpr .rax)).isSome = true by decide)

set_option maxRecDepth 10000 in
/-- Both replays of the two-path function. -/
theorem isolated_max : ∃ r : TwoReplays engine (tracedFiles (trace maxProgram 10 (twoArguments 5 3))
    (trace maxProgram 10 (twoArguments 3 5))) (request (some 0x401000)), ∃ a e b' e',
      onePath ((request (some 0x401000)).options 2) r.shared (log r.calls₂) = .ok (a, e) ∧
      onePath ((request (some 0x401000)).options 2) (blankContext (engine.values r.shared.ctx)) (log r.calls₂) =
        .ok (b', e') ∧
      ∀ input, engine.denote e input = engine.denote e' input := by
  have fits : ArgumentsFit ((request (some 0x401000)).options 2) maxReplays.calls₂ := by decide +kernel
  obtain ⟨a, e, b', e', shared, alone, same, -⟩ :=
    maxReplays.isolated engine_lawful engine_local (by decide)
    (Option.some_ne_none _) fits (blankContext_blank _) rfl maxReplays_isolated
  exact ⟨maxReplays, a, e, b', e', shared, alone, same⟩

set_option maxRecDepth 10000 in
/-- The first call stores its argument 5, symbolic, in a variable that held 5. The
second call finds 5 there, so the comparison succeeds and the expression stays: the
second replay returns the argument where the function returned the variable. -/
theorem isolated_fails :
    ∃ (r : TwoReplays engine (tracedFiles (trace exchangeProgram 10 (exchangeCall 5))
        (trace exchangeProgram 10 (exchangeCall 7))) (request (some 0x401000))) (b : State engine),
      Blank 4 r.shared.ctx b.ctx ∧ b.vJmp = [] ∧
      ArgumentsFit ((request (some 0x401000)).options 2) r.calls₂ ∧
      (∃ a e, onePath ((request (some 0x401000)).options 2) r.shared (log r.calls₂) = .ok (a, e) ∧
        engine.denote e (pair 7 0) = 7) ∧
      (∃ b' e', onePath ((request (some 0x401000)).options 2) b (log r.calls₂) = .ok (b', e') ∧
        engine.denote e' (pair 7 0) = 5) ∧
      (final exchangeProgram 10 (exchangeCall 7)).cell (.gpr .rax) = 5 := by
  let r := TwoReplays.traced exchangeProgram (some 0x401000) (exchangeCall 5) (exchangeCall 7)
    (by decide +kernel)
  let b := blankContext (engine.values r.shared.ctx)
  let l := Outcome.get (replay ((request (some 0x401000)).options 2) (Loop.start b) r.calls₂) (by decide +kernel)
  have alone : onePath ((request (some 0x401000)).options 2) b (log r.calls₂) =
      .ok (l.finish, engine.getRegisterAst l.state.ctx .eax) := by
    rw [onePath_log _ b r.sized₂, Outcome.get_spec (m := replay _ (Loop.start b) r.calls₂) (by decide +kernel)]
    rfl
  refine ⟨r, b, blankContext_blank _, rfl, ?_, ⟨_, _, r.onePath_shared, ?_⟩, ⟨_, _, alone, ?_⟩, ?_⟩
  all_goals decide +kernel

end Devirt.Attack
