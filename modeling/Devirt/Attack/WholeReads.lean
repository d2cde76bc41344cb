import Devirt.Attack.Devirtualization

/-! A criterion on the traced run and its log, without the replay. Where no memory record
mixes bytes that were recorded or written before with new ones that are not zero, no record
costs the first replay anything: its expression is the function on all runs of the path. -/
namespace Devirt.Attack
open Tracer Concolic
open Python (PyError)

variable {T : Triton} {M : Machine}

variable (M) in
/-- Every memory record of the log is whole. -/
def WholeReads : List Instruction → M.State → Set Cell → List Callback → Prop
  | _, _, _, [] => True
  | is, s, seen, .memread addr size mem :: rest =>
    let call : Callback := .memread addr size mem
    Whole 0 seen call.cells call.observed ∧ WholeReads is s (seen ∪ {c | c ∈ call.cells}) rest
  | [], _, _, .inst _ _ _ :: _ => True
  | i :: is, s, seen, .inst regs addr opcode :: rest =>
    let call : Callback := .inst regs addr opcode
    ∀ s', M.exec i s = some s' → WholeReads is s' (seen ∪ {c | c ∈ call.cells} ∪ M.writes i s) rest

/-- The context knows what has been seen of the traced run. -/
abbrev KnowsRun (M : Machine) (seen : Set Cell) (ctx : T.Ctx) (s : M.State) : Prop :=
  Knows 0 seen (T.view ctx) (M.cell s)

section
variable (lawful : T.Lawful) {o : Options} {s₀ : M.State} {seen : Set Cell}
include lawful

/-- The memory records of an instruction, one after the other. -/
theorem memreads_whole {is : List Instruction} {reads rest : List Callback}
    (memreads : ∀ call ∈ reads, ∃ addr size, AccessSize size ∧ call = .memread addr size (M.memory s₀))
    {l : Loop T} (knows : KnowsRun M seen l.state.ctx s₀) (whole : WholeReads M is s₀ seen (reads ++ rest))
    (onwards : ∀ ctx, replay o l reads = .ok (l.withCtx ctx) → T.SameInputs l.state.ctx ctx →
      KnowsRun M (seen ∪ covered reads) ctx s₀ →
      ((∀ c, (T.view l.state.ctx).sym c = none) → ∀ c, (T.view ctx).sym c = none) →
      WholeReads M is s₀ (seen ∪ covered reads) rest →
      Undisturbed T M o is s₀ (seen ∪ covered reads) (l.withCtx ctx) rest) :
    Undisturbed T M o is s₀ seen l (reads ++ rest) := by
  induction reads generalizing l seen with
  | nil =>
    simp only [covered_nil, Set.union_empty] at onwards
    exact onwards l.state.ctx rfl (.refl _) knows id whole
  | cons call reads ih =>
    obtain ⟨addr, size, sized, rfl⟩ := memreads call List.mem_cons_self
    obtain ⟨middle, runs, view, same⟩ := memread_runs lawful o l addr (M.memory s₀) sized
    have shown : ∀ c ∈ Cell.range addr size,
        (Callback.memread addr size (M.memory s₀)).observed c = M.cell s₀ c := by
      intro c inside
      obtain ⟨k, _, rfl⟩ := Cell.mem_range.mp inside
      exact Machine.memory_toNat s₀ _
    refine ⟨knows.calm shown whole.1, fun l' ran => ?_⟩
    cases runs.symm.trans ran
    apply ih (fun call member => memreads call (List.mem_cons_of_mem _ member)) ?_ whole.2
    · intro ctx later same' known plain whole'
      rw [covered_cons, ← Set.union_assoc] at onwards
      apply onwards ctx ?_ (same.trans same') known ?_ whole'
      · exact (replay_append_ok runs reads).trans later
      · intro none
        apply plain
        intro c
        rcases Store.resync_sym_cases (T.view l.state.ctx) (Cell.range addr size)
          (Callback.memread addr size (M.memory s₀)).observed c with kept | dropped
        · exact (congrFun (congrArg Store.sym view) c).trans (kept.trans (none c))
        · exact (congrFun (congrArg Store.sym view) c).trans dropped
    · show Knows 0 _ (T.view middle) _
      rw [view]
      exact knows.resync shown

variable (sound : T.Sound M) (emulates : T.Emulates M)
  (symsized : AccessSize o.symsize) {i : Instruction} {t₀ : M.State} {reads : List Callback} {written : Set Cell}
include sound emulates symsized

/-- The record of an instruction, the seeding before the first one, and the instruction. -/
theorem inst_knows (reports : M.Reports i s₀ reads) (address : i.address < 2 ^ 64)
    (stepped : M.exec i s₀ = some t₀) (flags : ∀ f, Cell.flag f ∈ M.reads i s₀ → Cell.flag f ∈ written)
    (known : written ⊆ seen) {l next : Loop T}
    (unseeded : l.fuse = true → T.getSymbolicVariables l.state.ctx = [])
    (knows : KnowsRun M (seen ∪ covered reads) l.state.ctx s₀) (ran : replay o l [M.record i s₀] = .ok next) :
    KnowsRun M (seenAfter M i s₀ reads seen) next.state.ctx t₀ := by
  obtain ⟨ctx', s, burnt, ⟨view, same⟩, processed, -⟩ := inst_steps lawful ran
  rw [instruction_eta address] at processed
  have shown : ∀ c ∈ (M.record i s₀).cells, (M.record i s₀).observed c = M.cell s₀ c :=
    fun c inside => Machine.record_observed i s₀ inside
  have synced : KnowsRun M (seen ∪ covered reads ∪ {c | c ∈ (M.record i s₀).cells}) ctx' s₀ := by
    show Knows 0 _ (T.view ctx') _
    rw [view]
    exact knows.resyncEach shown
  have ready : KnowsRun M (seen ∪ covered reads ∪ {c | c ∈ (M.record i s₀).cells}) s.ctx s₀ := by
    cases fuse : l.fuse with
    | false =>
      rw [fuse] at burnt
      cases burnt
      exact synced
    | true =>
      obtain ⟨seededCtx, seeds, seeded⟩ := seedInputs_fresh lawful ctx' symsized (same.1.trans (unseeded fuse))
      have burning := burnFuse_seeds o (s := (l.withCtx ctx').state) seeds
      rw [fuse] at burnt
      cases burning.symm.trans burnt
      obtain ⟨first, second, -, -, view⟩ := seeded.view
      have conc : ∀ c, (T.view seededCtx).conc c = (T.view ctx').conc c := fun c => by rw [view]
      constructor
      · exact fun c member => (conc c).trans (synced.shadows c member)
      · intro c outside
        have notX : c ≠ .gpr .rdi := fun here => outside (Or.inr (here ▸ List.mem_map_of_mem (Gpr.mem_all .rdi)))
        have notY : c ≠ .gpr .rsi := fun here => outside (Or.inr (here ▸ List.mem_map_of_mem (Gpr.mem_all .rsi)))
        rw [view]
        simp only [Function.update_of_ne notY, Function.update_of_ne notX]
        exact synced.plain c outside
      · exact fun c outside => (conc c).trans (synced.untouched c outside)
  have read : ∀ c ∈ M.reads i s₀, (T.view s.ctx).conc c = M.cell s₀ c := fun c member =>
    ready.shadows c (reads_seen reports flags known c member)
  rw [processed]
  exact ready.execute (sound.frame stepped read) (M.frame stepped) (emulates stepped read)

/-- A whole log is undisturbed, from any instruction on. -/
theorem run_undisturbed {is : List Instruction} {calls : List Callback} (logged : M.Logged is s₀ calls t₀)
    {l : Loop T} (flags : M.FlagsWritten written is s₀) (known : written ⊆ seen)
    (whole : WholeReads M is s₀ seen calls)
    (unseeded : l.fuse = true → T.getSymbolicVariables l.state.ctx = [] ∧ ∀ c, (T.view l.state.ctx).sym c = none)
    (knows : KnowsRun M seen l.state.ctx s₀) : Undisturbed T M o is s₀ seen l calls := by
  induction logged generalizing l seen written with
  | done s => trivial
  | @next i is s₀ s₀' t₀ reads calls reports address stepped rest ih =>
    apply memreads_whole lawful reports.memreads knows whole
    intro ctx _ same known' plain whole'
    have fresh : (l.withCtx ctx).fuse = true → T.getSymbolicVariables ctx = [] := fun fuse =>
      same.1.trans (unseeded fuse).1
    constructor
    · exact fun fuse reg _ _ _ => plain (unseeded fuse).2 _
    · intro next s' ran stepped'
      cases stepped.symm.trans stepped'
      have after :=
        inst_knows lawful sound emulates symsized reports address stepped flags.1 known fresh known' ran
      obtain ⟨_, _, _, _, _, done⟩ := inst_steps lawful ran
      apply ih (flags.2 _ stepped) ?_ (whole' _ stepped) ?_ after
      · exact Set.union_subset_union_left _ fun c member => Or.inl (Or.inl (known member))
      · intro fuse
        rw [done] at fuse
        cases fuse

/-- The first replay of a whole log computes the function of the path, whatever the engine
makes of its instructions as long as it makes it soundly. -/
theorem onePath_wholeReads (inputs : ∀ ctx i, T.SameInputs ctx (T.processing ctx i).1) {u : State T}
    (fresh : u.ctx = setMode T.new) {is : List Instruction} {calls : List Callback}
    (logged : M.Logged (i :: is) s₀ calls t₀) (flags : M.FlagsWritten ∅ (i :: is) s₀)
    (idle : o.recording = false) (whole : WholeReads M (i :: is) s₀ ∅ calls) :
    ∃ u' e, onePath o u (log calls) = .ok (u', e) ∧ ∀ s t input, Alike M o.symsize s₀ s →
      M.SamePath (i :: is) s₀ s t → Inputs M o.symsize s input →
      T.denote e input = M.cell t (.gpr .rax) % 256 ^ 4 := by
  obtain ⟨zero, plain, unseeded⟩ := fresh_view lawful fresh
  have nothing : KnowsRun M ∅ (Loop.start u).state.ctx s₀ := by
    constructor
    · simp [Shadows]
    · exact fun c _ => plain c
    · exact fun c _ => zero c
  have calm : Undisturbed T M o (i :: is) s₀ ∅ (Loop.start u) calls :=
    run_undisturbed lawful sound emulates symsized logged flags subset_rfl whole
      (fun _ => ⟨unseeded, plain⟩) nothing
  have sized := Machine.Logged.sized logged
  have answers : o.Answers T := fun recording => by simp [idle] at recording
  obtain ⟨l, ran⟩ := replay_total lawful symsized answers sized (Machine.Logged.decodable sound logged)
    (l := Loop.start u) fun _ => Or.inl unseeded
  have carried := log_carried lawful inputs sound emulates symsized logged flags (l := Loop.start u) rfl
    (Or.inl ⟨unseeded, plain⟩) ran
  refine ⟨l.finish, T.getRegisterAst l.state.ctx .eax, ?_, fun s t input alike path traced => ?_⟩
  · rw [onePath_log o u sized, ran]
    rfl
  · exact carried.denotes lawful calm alike path traced (carried.registers .rax)

end

open Reference

/-- The argument comes back from memory as an expression, not as the value of the trace. -/
theorem onePath_wholeReads_spill : ∃ u' e,
    onePath (alone 4) start (log (trace spillProgram 2 (twoArguments 1 2))) = .ok (u', e) ∧
      engine.denote e (pair 700 77) = 700 := by
  have written : ∀ c ∈ Cell.range 0x404030 4, (effectOn spillProgram[0] c).isSome = true := by decide
  have whole : WholeReads (machine spillProgram) spillProgram (twoArguments 1 2) ∅
      (trace spillProgram 2 (twoArguments 1 2)) := by
    intro s' _
    constructor
    · exact Or.inl fun c member => Or.inl (Or.inr (written c member))
    · exact fun _ _ => trivial
  have flags : (machine spillProgram).FlagsWritten ∅ spillProgram (twoArguments 1 2) :=
    flagsWritten_of_flagless (by decide) ∅ (twoArguments 1 2)
  obtain ⟨u', e, ran, computes⟩ := onePath_wholeReads engine_lawful (engine_sound (by decide))
    (engine_emulates spillProgram) (o := alone 4) (by decide) engine_consistent.inputs (u := start) rfl
    (trace_logged (by decide) 2 (twoArguments 1 2)) flags rfl whole
  refine ⟨u', e, ran, ?_⟩
  have same : executed spillProgram 2 (twoArguments 700 77) = executed spillProgram 2 (twoArguments 1 2) := by
    decide +kernel
  have path := executed_path 2 (twoArguments 1 2) (twoArguments 700 77) same
  have returned := computes _ _ (pair 700 77) ⟨twoArguments_alike 1 2 700 77, rfl, rfl⟩ path ⟨rfl, rfl⟩
  exact returned.trans (by decide +kernel)

end Devirt.Attack
