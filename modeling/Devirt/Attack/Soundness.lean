import Devirt.Attack.Replay
import Devirt.Concolic.Tracking
import Devirt.Reference.Programs

/-! A replay that saw one run computes the result of every run of the same path,
unless a memory record mixes an input byte with a byte it has never seen. -/
namespace Devirt

namespace Attack
open Tracer Concolic
open Python (PyError)

variable {T : Triton} {M : Machine}

/-- The context stands for the logged state and for another state of the path. -/
abbrev Follows (T : Triton) (M : Machine) (seen : Set Cell) (ctx : T.Ctx) (s₀ s : M.State)
    (input : Valuation) : Prop :=
  Tracks T.denote 0 seen (T.view ctx) (M.cell s₀) (M.cell s) (T.values ctx) input

/-- No memory record of the log mixes an expression with a non-zero cell never seen. -/
def Harmless (T : Triton) (M : Machine) (o : Options) (is : List Instruction) (s₀ : M.State)
    (calls : List Callback) (l : Loop T) (seen : Set Cell) : Prop :=
  ∀ before addr size mem after l', calls = before ++ .memread addr size mem :: after →
    replay o l before = .ok l' →
    ¬ Mixes 0 (M.seen is s₀ before seen) (T.view l'.state.ctx) (Cell.range addr size)
      (Callback.memread addr size mem).observed

/-- The low bytes of RDI and RSI. -/
def Inputs (M : Machine) (symsize : Nat) (s : M.State) (input : Valuation) : Prop :=
  input 0 = M.cell s (.gpr .rdi) % 256 ^ symsize ∧ input 1 = M.cell s (.gpr .rsi) % 256 ^ symsize

/-- Two initial states that differ in the inputs only. -/
structure Alike (M : Machine) (symsize : Nat) (s₀ s : M.State) : Prop where
  cells : ∀ c, c ≠ .gpr .rdi → c ≠ .gpr .rsi → M.cell s c = M.cell s₀ c
  rdi : M.cell s (.gpr .rdi) / 256 ^ symsize = M.cell s₀ (.gpr .rdi) / 256 ^ symsize
  rsi : M.cell s (.gpr .rsi) / 256 ^ symsize = M.cell s₀ (.gpr .rsi) / 256 ^ symsize

section
variable (lawful : T.Lawful) (o : Options) {s₀ s : M.State} {input : Valuation} {seen : Set Cell}
include lawful

theorem memreads_follow {reads : List Callback}
    (memreads : ∀ call ∈ reads, ∃ addr size, AccessSize size ∧ call = .memread addr size (M.memory s₀))
    {l : Loop T} (is : List Instruction) (follows : Follows T M seen l.state.ctx s₀ s input)
    (harmless : Harmless T M o is s₀ reads l seen) :
    ∃ ctx', replay o l reads = .ok (l.withCtx ctx') ∧ T.SameInputs l.state.ctx ctx' ∧
      Follows T M (seen ∪ covered reads) ctx' s₀ s input ∧
      ((∀ c, (T.view l.state.ctx).sym c = none) → ∀ c, (T.view ctx').sym c = none) := by
  induction reads generalizing l seen with
  | nil =>
    refine ⟨l.state.ctx, rfl, .refl _, ?_, id⟩
    rwa [covered_nil, Set.union_empty]
  | cons call rest ih =>
    obtain ⟨addr, size, sized, rfl⟩ := memreads call List.mem_cons_self
    obtain ⟨middle, runs, view, same⟩ := memread_runs lawful o l addr (M.memory s₀) sized
    have shown : ∀ c ∈ Cell.range addr size,
        (Callback.memread addr size (M.memory s₀)).observed c = M.cell s₀ c := by
      intro c inside
      obtain ⟨k, _, rfl⟩ := Cell.mem_range.mp inside
      exact Machine.memory_toNat s₀ _
    have first : Follows T M (seen ∪ {c | c ∈ Cell.range addr size}) middle s₀ s input := by
      unfold Follows
      rw [view, same.2]
      exact follows.resync shown (harmless [] addr size _ rest l rfl rfl)
    have later : Harmless T M o is s₀ rest (l.withCtx middle) (seen ∪ {c | c ∈ Cell.range addr size}) := by
      intro before addr' size' mem' after l' split run
      apply harmless (.memread addr size (M.memory s₀) :: before) addr' size' mem' after l'
      · rw [split, List.cons_append]
      · exact (replay_append_ok runs before).trans run
    obtain ⟨ctx', runs', same', follows', plain⟩ :=
      ih (fun call member => memreads call (List.mem_cons_of_mem _ member)) first later
    refine ⟨ctx', ?_, same.trans same', ?_, fun none => plain fun c => ?_⟩
    · exact (replay_append_ok runs rest).trans runs'
    · rw [covered_cons, ← Set.union_assoc]
      exact follows'
    · rcases Store.resync_sym_cases (T.view l.state.ctx) (Cell.range addr size)
        (Callback.memread addr size (M.memory s₀)).observed c with kept | dropped
      · exact (congrFun (congrArg Store.sym view) c).trans (kept.trans (none c))
      · exact (congrFun (congrArg Store.sym view) c).trans dropped

/-- All records of one instruction, up to the fuse. -/
theorem records_follow {i : Instruction} {reads : List Callback} (reports : M.Reports i s₀ reads)
    {l : Loop T} (is : List Instruction) (follows : Follows T M seen l.state.ctx s₀ s input)
    (harmless : Harmless T M o is s₀ reads l seen) :
    ∃ middle ctx', replay o l reads = .ok (l.withCtx middle) ∧
      Dispatch.run o (l.withCtx middle) (.syncReg (Gpr.all.map fun reg =>
        (BitVec.ofNat 64 (M.cell s₀ (.gpr reg))).toNat)) = .ok (l.withCtx ctx') ∧
      T.SameInputs l.state.ctx ctx' ∧
      Follows T M (seen ∪ covered reads ∪ {c | c ∈ (M.record i s₀).cells}) ctx' s₀ s input ∧
      ((∀ c, (T.view l.state.ctx).sym c = none) → ∀ c, (T.view ctx').sym c = none) := by
  obtain ⟨middle, runs, same, first, plain⟩ :=
    memreads_follow lawful o reports.memreads is follows harmless
  obtain ⟨ctx', synced, view, same'⟩ := register_runs lawful o (l.withCtx middle)
    (fun reg => BitVec.ofNat 64 (M.cell s₀ (.gpr reg))) (BitVec.ofNat 64 i.address) i.opcode
  refine ⟨middle, ctx', runs, synced, same.trans same', ?_, fun none c => ?_⟩
  · unfold Follows
    rw [view, same'.2]
    exact first.resyncEach fun c inside => Machine.record_observed i s₀ inside
  · rw [view, Store.resyncEach_sym]
    split
    · rfl
    · exact plain none c

end

theorem instruction_eta {i : Instruction} (address : i.address < 2 ^ 64) :
    (⟨(BitVec.ofNat 64 i.address).toNat, i.opcode⟩ : Instruction) = i := by
  rw [BitVec.toNat_ofNat, Nat.mod_eq_of_lt address]

section
variable (consistent : T.ProcessingConsistent) (sound : T.Sound M) {o : Options}
  {i : Instruction} {s₀ t₀ s t : M.State} {input : Valuation} {seen : Set Cell}
include consistent sound

theorem processing_follows {ctx : T.Ctx} (follows : Follows T M seen ctx s₀ s input)
    (stepped₀ : M.exec i s₀ = some t₀) (stepped : M.exec i s = some t)
    (reads : M.reads i s = M.reads i s₀) (writes : M.writes i s = M.writes i s₀)
    (ready : ∀ c ∈ M.reads i s₀, c ∈ seen) :
    Follows T M (seen ∪ M.writes i s₀) (T.processing ctx i).1 t₀ t input := by
  have conc : ∀ c ∈ M.reads i s₀, (T.view ctx).conc c = M.cell s₀ c :=
    fun c member => follows.conc (ready c member)
  have values := (consistent.inputs ctx i).2
  have after := consistent.consistent ctx i follows.consistent
  unfold Follows
  unfold Triton.Consistent at after
  rw [values] at after ⊢
  refine follows.execute (sound.frame stepped₀ conc) (M.frame stepped₀) ?_ ?_ after
  · rw [← writes]
    exact M.frame stepped
  · intro c written
    exact ⟨sound.step stepped₀ stepped₀ rfl rfl conc
        (fun d member => follows.replayed d (ready d member)) c written,
      sound.step stepped₀ stepped reads writes conc
        (fun d member => follows.predicted d (ready d member)) c written⟩

omit consistent sound in
/-- Registers come from the record, memory from the reports, flags from earlier
instructions: whatever an instruction reads has been seen. -/
theorem reads_seen {reads : List Callback} {written : Set Cell} (reports : M.Reports i s₀ reads)
    (flags : ∀ f, Cell.flag f ∈ M.reads i s₀ → Cell.flag f ∈ written) (known : written ⊆ seen) :
    ∀ c ∈ M.reads i s₀, c ∈ seen ∪ covered reads ∪ {c | c ∈ (M.record i s₀).cells} := by
  intro c member
  cases c with
  | gpr reg => exact Or.inr (List.mem_map_of_mem (Gpr.mem_all reg))
  | flag f => exact Or.inl (Or.inl (known (flags f member)))
  | mem addr => exact Or.inl (Or.inr (reports.covers addr member))

end

/-- Harmless records stay harmless past one instruction. -/
theorem Harmless.rest {o : Options} {i : Instruction} {is : List Instruction} {s₀ s₀' : M.State}
    {reads calls : List Callback} {l l' : Loop T} {seen : Set Cell}
    (harmless : Harmless T M o (i :: is) s₀ (reads ++ M.record i s₀ :: calls) l seen)
    (reports : M.Reports i s₀ reads) (stepped : M.exec i s₀ = some s₀')
    (runs : replay o l (reads ++ [M.record i s₀]) = .ok l') :
    Harmless T M o is s₀' calls l'
      (seen ∪ covered reads ∪ {c | c ∈ (M.record i s₀).cells} ∪ M.writes i s₀) := by
  intro before addr size mem after l'' split run
  have prefix_seen : M.seen (i :: is) s₀ (reads ++ M.record i s₀ :: before) seen =
      M.seen is s₀' before
        (seen ∪ covered reads ∪ {c | c ∈ (M.record i s₀).cells} ∪ M.writes i s₀) := by
    rw [Machine.seen_memreads _ _ (fun call member => by
      obtain ⟨a, n, _, same⟩ := reports.memreads call member
      exact ⟨a, n, _, same⟩), Machine.seen_record stepped]
  rw [← prefix_seen]
  apply harmless (reads ++ M.record i s₀ :: before) addr size mem after l'' (by simp [split])
  have appended : reads ++ M.record i s₀ :: before = (reads ++ [M.record i s₀]) ++ before := by simp
  rw [appended, replay_append_ok runs before]
  exact run

theorem Harmless.reads {o : Options} {is : List Instruction} {s₀ : M.State}
    {reads calls : List Callback} {l : Loop T} {seen : Set Cell}
    (harmless : Harmless T M o is s₀ (reads ++ calls) l seen) : Harmless T M o is s₀ reads l seen :=
  fun before addr size mem after l' split run =>
    harmless before addr size mem (after ++ calls) l' (by simp [split]) run

section
variable (lawful : T.Lawful) (consistent : T.ProcessingConsistent) (sound : T.Sound M) {o : Options}
  (idle : o.recording = false) {input : Valuation}
include lawful consistent sound idle

omit lawful in
/-- One instruction after its records and the fuse. -/
theorem instruction_follows {i : Instruction} {s₀ t₀ s t : M.State} {seen written : Set Cell}
    {reads : List Callback} {l middle l' : Loop T} {u : State T} (address : i.address < 2 ^ 64)
    (reports : M.Reports i s₀ reads) (runs : replay o l reads = .ok middle)
    (synced : Dispatch.run o middle (.syncReg (Gpr.all.map fun reg =>
      (BitVec.ofNat 64 (M.cell s₀ (.gpr reg))).toNat)) = .ok l')
    (burnt : burnFuse o l'.state l'.fuse = .ok u)
    (follows : Follows T M (seen ∪ covered reads ∪ {c | c ∈ (M.record i s₀).cells}) u.ctx s₀ s input)
    (stepped₀ : M.exec i s₀ = some t₀) (stepped : M.exec i s = some t)
    (sameReads : M.reads i s = M.reads i s₀) (sameWrites : M.writes i s = M.writes i s₀)
    (flags : ∀ f, Cell.flag f ∈ M.reads i s₀ → Cell.flag f ∈ written) (known : written ⊆ seen) :
    ∃ next, replay o l (reads ++ [M.record i s₀]) = .ok next ∧ next.fuse = false ∧
      Follows T M (seen ∪ covered reads ∪ {c | c ∈ (M.record i s₀).cells} ∪ M.writes i s₀)
        next.state.ctx t₀ t input := by
  obtain ⟨u', processed, ctx, _⟩ := process_idle o u (sound.decodes stepped₀) idle
  refine ⟨{ state := u', fuse := false, count := l'.count + 1 }, ?_, rfl, ?_⟩
  · rw [replay_append_ok runs]
    apply inst_runs o synced burnt
    rw [instruction_eta address]
    exact processed
  · rw [ctx]
    exact processing_follows consistent sound follows stepped₀ stepped sameReads sameWrites
      (reads_seen reports flags known)

/-- From the second instruction on, both runs are followed to their ends. -/
theorem run_follows {is : List Instruction} {s₀ t₀ : M.State} {calls : List Callback}
    (logged : M.Logged is s₀ calls t₀) {l : Loop T} {seen written : Set Cell} {s t : M.State}
    (path : M.SamePath is s₀ s t) (flags : M.FlagsWritten written is s₀) (known : written ⊆ seen)
    (fuse : l.fuse = false) (follows : Follows T M seen l.state.ctx s₀ s input)
    (harmless : Harmless T M o is s₀ calls l seen) :
    ∃ l' seen', replay o l calls = .ok l' ∧ seen ⊆ seen' ∧
    Follows T M seen' l'.state.ctx t₀ t input := by
  induction logged generalizing l seen written s with
  | done s₀ =>
    cases path with
    | done => exact ⟨l, seen, rfl, subset_rfl, follows⟩
  | @next i is s₀ s₀' t₀ reads calls reports address stepped rest ih =>
    cases path with
    | next stepped₀ stepped' sameReads sameWrites later =>
      cases stepped.symm.trans stepped₀
      obtain ⟨middle, ctx', runs, synced, _, recorded, _⟩ :=
        records_follow lawful o reports (i :: is) follows harmless.reads
      have burnt : burnFuse o (l.withCtx ctx').state (l.withCtx ctx').fuse =
        .ok (l.withCtx ctx').state := by
        rw [burnFuse, Loop.withCtx, fuse]
        rfl
      obtain ⟨next, done, fuse', follows'⟩ := instruction_follows consistent sound idle address reports runs
        synced burnt recorded stepped stepped' sameReads sameWrites flags.1 known
      have harmless' := harmless.rest reports stepped done
      have known' : written ∪ M.writes i s₀ ⊆
          seen ∪ covered reads ∪ {c | c ∈ (M.record i s₀).cells} ∪ M.writes i s₀ :=
        Set.union_subset_union_left _ fun c member => Or.inl (Or.inl (known member))
      obtain ⟨l', seen', finished, grown, final⟩ :=
        ih later (flags.2 _ stepped) known' fuse' follows' harmless'
      refine ⟨l', seen', ?_, fun c member => grown (Or.inl (Or.inl (Or.inl member))), final⟩
      have split : reads ++ M.record i s₀ :: calls = (reads ++ [M.record i s₀]) ++ calls := by simp
      rw [split, replay_append_ok done]
      exact finished

end

/-- From the seeding on, the context stands for every run that differs in the inputs. -/
theorem seeding_follows {ctx ctx' : T.Ctx} {symsize : Nat} {s₀ s : M.State} {input : Valuation}
    {seen : Set Cell} (seeded : Seeded symsize ctx ctx') (plain : ∀ c, (T.view ctx).sym c = none)
    (alike : Alike M symsize s₀ s) (inputs : Inputs M symsize s input)
    (follows : Follows T M seen ctx s₀ s₀ input) (registers : ∀ reg, Cell.gpr reg ∈ seen) :
    Follows T M seen ctx' s₀ s input := by
  have consistent := seeded.consistent plain
  obtain ⟨first, second, splicesX, splicesY, view⟩ := seeded.view
  have smallX : input 0 < 256 ^ symsize := by rw [inputs.1]; exact low_bytes_lt _ _
  have smallY : input 1 < 256 ^ symsize := by rw [inputs.2]; exact low_bytes_lt _ _
  have conc : ∀ c, (T.view ctx').conc c = (T.view ctx).conc c := fun c => by rw [view]
  have sym : ∀ c, c ≠ .gpr .rdi → c ≠ .gpr .rsi → (T.view ctx').sym c = none := by
    intro c notX notY
    rw [view]
    simp only [Function.update_of_ne notY, Function.update_of_ne notX, plain]
  refine ⟨?_, ?_, ?_, ?_, ?_, consistent⟩
  · intro c member
    rw [consistent c, conc]
    exact follows.conc member
  · intro c member
    by_cases isX : c = .gpr .rdi
    · subst c
      have held : (T.view ctx').sym (.gpr .rdi) = some first := by
        rw [view]
        simp
      rw [Store.value_of_some held, splicesX input smallX, Store.value_of_none (plain _),
        follows.conc member, ← alike.rdi, inputs.1]
      exact Nat.div_add_mod' _ _
    by_cases isY : c = .gpr .rsi
    · subst c
      have held : (T.view ctx').sym (.gpr .rsi) = some second := by
        rw [view]
        simp
      rw [Store.value_of_some held, splicesY input smallY, Store.value_of_none (plain _),
        follows.conc member, ← alike.rsi, inputs.2]
      exact Nat.div_add_mod' _ _
    · rw [Store.value_of_none (sym c isX isY), conc, follows.conc member, alike.cells c isX isY]
  · exact fun c outside => sym c (fun same => outside (same ▸ registers .rdi))
      fun same => outside (same ▸ registers .rsi)
  · exact fun c outside => (conc c).trans (follows.untouched c outside)
  · exact fun c outside => alike.cells c (fun same => outside (same ▸ registers .rdi))
      fun same => outside (same ▸ registers .rsi)

theorem Machine.Logged.sized {is : List Instruction} {s₀ t₀ : M.State} {calls : List Callback}
    (logged : M.Logged is s₀ calls t₀) : ∀ call ∈ calls, call.Sized := by
  induction logged with
  | done s₀ => simp
  | next reports address stepped rest ih =>
    intro call member
    simp only [List.mem_append, List.mem_cons] at member
    rcases member with member | rfl | member
    · obtain ⟨addr, size, sized, rfl⟩ := reports.memreads call member
      exact sized
    · trivial
    · exact ih call member

/-- The engine disassembles what the machine has executed. -/
theorem Machine.Logged.decodable (sound : T.Sound M) {is : List Instruction} {s₀ t₀ : M.State}
    {calls : List Callback} (logged : M.Logged is s₀ calls t₀) : ∀ call ∈ calls, Decodable T call := by
  induction logged with
  | done s₀ => simp
  | @next i _ s₀ _ _ _ _ reports address stepped rest ih =>
    intro call member
    simp only [List.mem_append, List.mem_cons] at member
    rcases member with member | rfl | member
    · obtain ⟨addr, size, sized, rfl⟩ := reports.memreads call member
      trivial
    · have decodes := sound.decodes stepped
      rw [← instruction_eta address] at decodes
      exact decodes
    · exact ih call member

section
variable (lawful : T.Lawful) (consistent : T.ProcessingConsistent) (sound : T.Sound M) {o : Options}
  (symsized : AccessSize o.symsize) (idle : o.recording = false)
include lawful consistent sound symsized idle

/-- A harmless log of one run is followed by the replay on every run of its path. -/
theorem log_follows {u : State T} (fresh : u.ctx = setMode T.new) {i : Instruction}
    {is : List Instruction}
    {s₀ t₀ s t : M.State} {calls : List Callback} {input : Valuation}
    (logged : M.Logged (i :: is) s₀ calls t₀)
    (flags : M.FlagsWritten ∅ (i :: is) s₀) (harmless : Harmless T M o (i :: is) s₀ calls (Loop.fresh u) ∅)
    (alike : Alike M o.symsize s₀ s) (path : M.SamePath (i :: is) s₀ s t)
    (inputs : Inputs M o.symsize s input) :
    ∃ l' seen, replay o (Loop.fresh u) calls = .ok l' ∧ (∀ reg, Cell.gpr reg ∈ seen) ∧
      Follows T M seen l'.state.ctx t₀ t input := by
  obtain ⟨zero, plain, unseeded⟩ := fresh_view lawful fresh
  have initial : Follows T M ∅ u.ctx s₀ s₀ input :=
    ⟨by simp, by simp, fun c _ => plain c, fun c _ => zero c, fun _ _ => rfl,
      fun c => Store.value_of_none (plain c)⟩
  cases logged with
  | @next _ _ _ s₀' _ reads calls reports address stepped rest =>
    cases path with
    | next stepped₀ stepped' sameReads sameWrites later =>
      cases stepped.symm.trans stepped₀
      obtain ⟨middle, ctx', runs, synced, same, recorded, plain'⟩ :=
        records_follow lawful o reports (i :: is) (l := Loop.fresh u) initial harmless.reads
      obtain ⟨seededCtx, seeds, seeded⟩ := seedInputs_fresh lawful ctx' symsized (same.1.trans unseeded)
      have registers : ∀ reg, Cell.gpr reg ∈
          ∅ ∪ covered reads ∪ {c | c ∈ (M.record i s₀).cells} :=
        fun reg => Or.inr (List.mem_map_of_mem (Gpr.mem_all reg))
      have started := seeding_follows seeded (plain' plain) alike inputs recorded registers
      have burnt := burnFuse_seeds o (s := ((Loop.fresh u).withCtx ctx').state) seeds
      obtain ⟨next, done, fuse, follows⟩ := instruction_follows consistent sound idle address reports runs
        synced burnt started stepped stepped' sameReads sameWrites flags.1 subset_rfl
      obtain ⟨l', seen', finished, grown, final⟩ := run_follows lawful consistent sound idle rest later
        (flags.2 _ stepped) (by simp) fuse follows (harmless.rest reports stepped done)
      refine ⟨l', seen', ?_, fun reg => grown (Or.inl (registers reg)), final⟩
      have split : reads ++ M.record i s₀ :: calls = (reads ++ [M.record i s₀]) ++ calls := by simp
      rw [split, replay_append_ok done]
      exact finished

/-- The replay of one logged run returns the result of every run of its path. The
only way to miss is a memory record that covers an input byte together with a
non-zero byte that no record and no instruction has touched before. -/
theorem onePath_sound {u : State T} (fresh : u.ctx = setMode T.new) {i : Instruction}
    {is : List Instruction} {s₀ t₀ : M.State} {calls : List Callback}
    (logged : M.Logged (i :: is) s₀ calls t₀) (flags : M.FlagsWritten ∅ (i :: is) s₀) :
    ∃ u' e, onePath o u (log calls) = .ok (u', e) ∧
      ((∃ before addr size mem after l, calls = before ++ .memread addr size mem :: after ∧
          replay o (Loop.start u) before = .ok l ∧
          Mixes 0 (M.seen (i :: is) s₀ before ∅) (T.view l.state.ctx) (Cell.range addr size)
            (Callback.memread addr size mem).observed) ∨
        ∀ s t input, Alike M o.symsize s₀ s → M.SamePath (i :: is) s₀ s t →
          Inputs M o.symsize s input → T.denote e input = M.cell t (.gpr .rax) % 256 ^ 4) := by
  have sized := Machine.Logged.sized logged
  have unseeded := (fresh_view lawful fresh).2.2
  have answers : o.Answers T := fun recording => by simp [idle] at recording
  obtain ⟨l, runs⟩ := replay_total lawful symsized answers sized (Machine.Logged.decodable sound logged)
    (l := Loop.start u) fun _ => Or.inl unseeded
  refine ⟨l.finish, T.getRegisterAst l.state.ctx .eax, ?_, ?_⟩
  · rw [onePath_log o u sized, runs]
    rfl
  by_cases harmless : Harmless T M o (i :: is) s₀ calls (Loop.start u) ∅
  · apply Or.inr
    intro s t input alike path inputs
    obtain ⟨l', seen, runs', registers, follows⟩ := log_follows lawful consistent sound symsized idle
      (u := u.print "[+] Replaying the VMP trace") fresh logged flags harmless alike path inputs
    cases runs.symm.trans runs'
    rw [lawful.getRegisterAst]
    exact congrArg (· % 256 ^ 4) (follows.predicted _ (registers .rax))
  · apply Or.inl
    simp only [Harmless, not_forall, not_not] at harmless
    obtain ⟨before, addr, size, mem, after, l', split, run, mixes⟩ := harmless
    exact ⟨before, addr, size, mem, after, l', split, run, mixes⟩

end

open Reference in
/-- One traced call of a function that keeps its argument in memory is enough for all of them:
the bytes of its memory record were all written before. -/
theorem onePath_sound_spill :
    let s₀ := twoArguments 1 2
    ∃ u' e, onePath (alone 4) start (log (trace spillProgram 2 s₀)) = .ok (u', e) ∧
      ∀ s t input, Alike (machine spillProgram) 4 s₀ s →
        (machine spillProgram).SamePath spillProgram s₀ s t → Inputs (machine spillProgram) 4 s input →
        engine.denote e input = (machine spillProgram).cell t (.gpr .rax) % 256 ^ 4 := by
  intro s₀
  have flags : (machine spillProgram).FlagsWritten ∅ spillProgram s₀ := flagsWritten_of_flagless (by decide) ∅ s₀
  have logged : (machine spillProgram).Logged spillProgram s₀ (trace spillProgram 2 s₀) (final spillProgram 2 s₀) :=
    trace_logged (by decide) 2 s₀
  obtain ⟨u', e, ran, outcome⟩ := onePath_sound (o := alone 4) (u := start) engine_lawful engine_consistent
    (engine_sound (by decide)) (by decide) rfl rfl logged flags
  refine ⟨u', e, ran, outcome.resolve_left ?_⟩
  rintro ⟨before, addr, size, mem, after, l, split, -, mixes⟩
  let s₁ := step spillProgram[0] s₀
  have shape : trace spillProgram 2 s₀ = [(machine spillProgram).record spillProgram[0] s₀,
    .memread 0x404030 4 ((machine spillProgram).memory s₁), (machine spillProgram).record spillProgram[1] s₁] := rfl
  rw [shape] at split
  rcases before with _ | ⟨first, _ | ⟨second, _ | ⟨third, before⟩⟩⟩
  · cases split
  · cases split
    obtain ⟨c, member, unseen, -⟩ := mixes.2
    have stepped : (machine spillProgram).exec spillProgram[0] s₀ = some s₁ := rfl
    have written : ∀ c ∈ Cell.range 0x404030 4, (effectOn spillProgram[0] c).isSome = true := by decide
    have seen : (machine spillProgram).seen spillProgram s₀ [(machine spillProgram).record spillProgram[0] s₀] ∅ = _ :=
      Machine.seen_record stepped [] ∅
    exact unseen (seen ▸ Or.inr (written c member))
  · cases split
  · simp at split

end Attack
end Devirt
