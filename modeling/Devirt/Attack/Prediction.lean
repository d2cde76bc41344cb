import Devirt.Concolic.Prediction
import Devirt.Attack.Isolation
import Devirt.Attack.Seeding
import Devirt.Attack.Soundness

/-! What any replay says about the runs of its path, in whatever context it starts. The
first replay's fresh context and the second replay's shared one are two cases of one
relation, and both ways of seeding the inputs establish it. -/
namespace Devirt

namespace Machine
open Tracer
variable {M : Machine}

theorem Logged.append {is js : List Instruction} {s t u : M.State} {calls rest : List Callback}
    (first : M.Logged is s calls t) (second : M.Logged js t rest u) :
    M.Logged (is ++ js) s (calls ++ rest) u := by
  induction first with
  | done s => exact second
  | next reports address stepped _ ih =>
    have longer := Logged.next reports address stepped (ih second)
    simpa only [List.append_assoc, List.cons_append] using longer

theorem SamePath.append {is js : List Instruction} {s₀ t₀ s t u : M.State} {calls : List Callback}
    (logged : M.Logged is s₀ calls t₀) (first : M.SamePath is s₀ s t) (second : M.SamePath js t₀ t u) :
    M.SamePath (is ++ js) s₀ s u := by
  induction logged generalizing s with
  | done s₀ =>
    cases first
    exact second
  | next _ _ stepped _ ih =>
    cases first with
    | next stepped₀ stepped' reads writes rest =>
      cases stepped.symm.trans stepped₀
      exact .next stepped₀ stepped' reads writes (ih rest second)

theorem FlagsWritten.left {is js : List Instruction} {written : Set Cell} {s : M.State}
    (flags : M.FlagsWritten written (is ++ js) s) : M.FlagsWritten written is s := by
  induction is generalizing written s with
  | nil => trivial
  | cons i is ih => exact ⟨flags.1, fun s' stepped => ih (flags.2 s' stepped)⟩

end Machine

namespace Attack
open Tracer Concolic
open Python (PyError)

variable {T : Triton} {M : Machine}

variable (T M) in
/-- No record of the log disturbs: no memory record, and of the register records the
first one, which may meet left-overs outside the two arguments. -/
def Undisturbed (o : Options) :
    List Instruction → M.State → Set Cell → Loop T → List Callback → Prop
  | _, _, _, _, [] => True
  | is, s, seen, l, .memread addr size mem :: rest =>
    let call : Callback := .memread addr size mem
    ¬ Disturbs seen (T.view l.state.ctx) call.cells call.observed ∧
      ∀ l', replay o l [call] = .ok l' → Undisturbed o is s (seen ∪ {c | c ∈ call.cells}) l' rest
  | [], _, _, _, .inst _ _ _ :: _ => True
  | i :: is, s, seen, l, .inst regs addr opcode :: rest =>
    let call : Callback := .inst regs addr opcode
    (l.fuse = true → ∀ reg, reg ≠ .rdi → reg ≠ .rsi →
      (T.view l.state.ctx).conc (.gpr reg) = (regs reg).toNat → (T.view l.state.ctx).sym (.gpr reg) = none) ∧
      ∀ l' s', replay o l [call] = .ok l' → M.exec i s = some s' →
        Undisturbed o is s' (seen ∪ {c | c ∈ call.cells} ∪ M.writes i s) l' rest

theorem Undisturbed.left {o : Options} {is js : List Instruction} {s : M.State} {seen : Set Cell}
    {l : Loop T} {calls rest : List Callback}
    (calm : Undisturbed T M o (is ++ js) s seen l (calls ++ rest)) :
    Undisturbed T M o is s seen l calls := by
  induction calls generalizing is s seen l with
  | nil => cases is <;> trivial
  | cons call calls ih =>
    cases call with
    | memread addr size mem => exact ⟨calm.1, fun l' ran => ih (calm.2 l' ran)⟩
    | inst regs addr opcode =>
      cases is with
      | nil => trivial
      | cons i is => exact ⟨calm.1, fun l' s' ran stepped => ih (calm.2 l' s' ran stepped)⟩

/-- The cells that hold the arguments of the traced call. -/
def arguments : Set Cell := {.gpr .rdi, .gpr .rsi}

variable (T) in
/-- The inputs do not exist and nothing holds an expression, or they exist and have room
for the arguments of the traced call. -/
def Prepared (o : Options) (ctx : T.Ctx) (calls : List Callback) : Prop :=
  (T.getSymbolicVariables ctx = [] ∧ ∀ c, (T.view ctx).sym c = none) ∨
    (T.getSymbolicVariables ctx = inputVariables o.symsize ∧ ArgumentsFit o calls)

/-! Memory records. -/

section
variable (lawful : T.Lawful) {o : Options} {s₀ : M.State} {seen : Set Cell}
include lawful

theorem memreads_shadow {reads : List Callback}
    (memreads : ∀ call ∈ reads, ∃ addr size, AccessSize size ∧ call = .memread addr size (M.memory s₀))
    {l l' : Loop T} (ran : replay o l reads = .ok l')
    (shadows : Shadows seen (T.view l.state.ctx) (M.cell s₀)) :
    ∃ ctx', l' = l.withCtx ctx' ∧ T.SameInputs l.state.ctx ctx' ∧
      ((∀ c, (T.view l.state.ctx).sym c = none) → ∀ c, (T.view ctx').sym c = none) ∧
      Shadows (seen ∪ covered reads) (T.view ctx') (M.cell s₀) ∧
      ∀ {is rest s input}, Undisturbed T M o is s₀ seen l (reads ++ rest) →
        Predicts T.denote seen (T.view l.state.ctx) (M.cell s₀) (M.cell s) input →
        Predicts T.denote (seen ∪ covered reads) (T.view ctx') (M.cell s₀) (M.cell s) input ∧
          Undisturbed T M o is s₀ (seen ∪ covered reads) l' rest := by
  induction reads generalizing l seen with
  | nil =>
    cases ran
    simp only [covered_nil, Set.union_empty]
    exact ⟨l'.state.ctx, rfl, .refl _, id, shadows, fun calm predicts => ⟨predicts, calm⟩⟩
  | cons call rest ih =>
    obtain ⟨addr, size, sized, rfl⟩ := memreads call List.mem_cons_self
    obtain ⟨middle, runs, view, same⟩ := memread_runs lawful o l addr (M.memory s₀) sized
    have shown : ∀ c ∈ Cell.range addr size,
        (Callback.memread addr size (M.memory s₀)).observed c = M.cell s₀ c := by
      intro c inside
      obtain ⟨k, _, rfl⟩ := Cell.mem_range.mp inside
      exact Machine.memory_toNat s₀ _
    have first : Shadows (seen ∪ {c | c ∈ Cell.range addr size}) (T.view middle) (M.cell s₀) := by
      rw [view]
      exact shadows.resync shown
    rw [← List.singleton_append, replay_append_ok runs] at ran
    obtain ⟨ctx', rfl, same', plain, final, later⟩ :=
      ih (fun call member => memreads call (List.mem_cons_of_mem _ member)) ran first
    rw [covered_cons, ← Set.union_assoc]
    refine ⟨ctx', rfl, same.trans same', fun none => plain fun c => ?_, final, fun calm predicts => ?_⟩
    · rcases Store.resync_sym_cases (T.view l.state.ctx) (Cell.range addr size)
        (Callback.memread addr size (M.memory s₀)).observed c with kept | dropped
      · exact (congrFun (congrArg Store.sym view) c).trans (kept.trans (none c))
      · exact (congrFun (congrArg Store.sym view) c).trans dropped
    · obtain ⟨quiet, calm⟩ := calm
      apply later (calm _ runs)
      simp only [Loop.withCtx, view]
      exact predicts.resync shadows shown quiet

end

/-! One instruction. -/

section
variable (sound : T.Sound M) (emulates : T.Emulates M) {i : Instruction} {s₀ t₀ : M.State} {seen : Set Cell}
include sound emulates

theorem processing_shadows {ctx : T.Ctx} (shadows : Shadows seen (T.view ctx) (M.cell s₀))
    (stepped₀ : M.exec i s₀ = some t₀) (ready : ∀ c ∈ M.reads i s₀, c ∈ seen) :
    Shadows (seen ∪ M.writes i s₀) (T.view (T.processing ctx i).1) (M.cell t₀) ∧
      ∀ {s t input}, M.exec i s = some t → M.reads i s = M.reads i s₀ → M.writes i s = M.writes i s₀ →
        Predicts T.denote seen (T.view ctx) (M.cell s₀) (M.cell s) input →
        Predicts T.denote (seen ∪ M.writes i s₀) (T.view (T.processing ctx i).1) (M.cell t₀) (M.cell t)
          input := by
  have conc : ∀ c ∈ M.reads i s₀, (T.view ctx).conc c = M.cell s₀ c :=
    fun c member => shadows c (ready c member)
  have frame := sound.frame stepped₀ conc
  constructor
  · exact shadows.execute (fun c outside => (frame c outside).1) (M.frame stepped₀) (emulates stepped₀ conc)
  · intro s t input stepped reads writes predicts
    apply predicts.execute frame (M.frame stepped₀)
    · rw [← writes]
      exact M.frame stepped
    · exact sound.step stepped₀ stepped reads writes conc
        fun c member => predicts.represented c (ready c member)

end

section
variable (lawful : T.Lawful) {o : Options}
include lawful

/-- The three steps of an instruction record that was applied. -/
theorem inst_steps {l l' : Loop T} {regs : Gpr → BitVec 64} {addr : BitVec 64} {opcode : List (BitVec 8)}
    (ran : replay o l [.inst regs addr opcode] = .ok l') :
    ∃ ctx' s, burnFuse o (l.withCtx ctx').state l.fuse = .ok s ∧
      T.Becomes l.state.ctx ctx' ((T.view l.state.ctx).resyncEach (Gpr.all.map .gpr)
        (Callback.inst regs addr opcode).observed) ∧
      l'.state.ctx = (T.processing s.ctx ⟨addr.toNat, opcode⟩).1 ∧ l'.fuse = false := by
  obtain ⟨ctx', synced, becomes⟩ := register_runs lawful o l regs addr opcode
  have burning : ∃ s, burnFuse o (l.withCtx ctx').state l.fuse = .ok s := by
    rw [replay_singleton, Callback.dispatches] at ran
    obtain ⟨after, record, ran⟩ := Outcome.foldlM_cons_ok ran
    cases synced.symm.trans record
    obtain ⟨done, instruction, ran⟩ := Outcome.foldlM_cons_ok ran
    obtain ⟨s, burnt, _⟩ := Outcome.bind_ok instruction
    exact ⟨s, burnt⟩
  obtain ⟨s, burnt⟩ := burning
  obtain ⟨s', processed, rfl⟩ := inst_ran synced burnt ran
  exact ⟨ctx', s, burnt, becomes, (detectingVjmp_ok (process_ok processed).2).1, rfl⟩

variable (symsized : AccessSize o.symsize)
include symsized

/-- Either way of seeding puts the inputs in place and leaves all other cells alone. -/
theorem seeds_place {ctx : T.Ctx} {rdi rsi : BitVec 64} (shows : Shows ctx rdi rsi)
    (prepared : (T.getSymbolicVariables ctx = [] ∧ ∀ c, (T.view ctx).sym c = none) ∨
      (T.getSymbolicVariables ctx = inputVariables o.symsize ∧
        rdi.toNat < 256 ^ o.symsize ∧ rsi.toNat < 256 ^ o.symsize)) :
    ∃ ctx', seedInputs o.symsize ctx = .ok ctx' ∧ Placed o.symsize rdi rsi ctx' ∧
      ∀ c ∉ arguments, (T.view ctx').conc c = (T.view ctx).conc c ∧
        (T.view ctx').sym c = (T.view ctx).sym c := by
  rcases prepared with ⟨unseeded, plain⟩ | ⟨seeded, fitsX, fitsY⟩
  · obtain ⟨ctx', seeds, placed⟩ := seedInputs_first lawful symsized unseeded shows (plain _) (plain _)
    obtain ⟨again, seeds', new⟩ := seedInputs_fresh lawful ctx symsized unseeded
    cases seeds.symm.trans seeds'
    obtain ⟨first, second, _, _, view⟩ := new.view
    refine ⟨ctx', seeds, placed, fun c outside => ?_⟩
    simp only [arguments, Set.mem_insert_iff, Set.mem_singleton_iff, not_or] at outside
    rw [view]
    simp only [Function.update_of_ne outside.1, Function.update_of_ne outside.2, and_self]
  · obtain ⟨ctx', seeds, placed⟩ := seedInputs_later lawful seeded shows fitsX fitsY
    obtain ⟨again, seeds', taken⟩ := seedInputs_again lawful ctx seeded
      (by rw [shows.1]; exact fitsX) (by rw [shows.2]; exact fitsY)
    cases seeds.symm.trans seeds'
    exact ⟨ctx', seeds, placed, taken.frame⟩

end

theorem firstRegisters_reads {reads : List Callback}
    (memreads : ∀ call ∈ reads, ∃ addr size mem, call = .memread addr size mem) (rest : List Callback) :
    firstRegisters (reads ++ rest) = firstRegisters rest := by
  induction reads with
  | nil => rfl
  | cons call reads ih =>
    obtain ⟨addr, size, mem, rfl⟩ := memreads call List.mem_cons_self
    exact ih fun call member => memreads call (List.mem_cons_of_mem _ member)

/-- What a register record shows of a machine state. -/
def shownRegister (M : Machine) (s : M.State) (reg : Gpr) : BitVec 64 := BitVec.ofNat 64 (M.cell s (.gpr reg))

theorem shownRegister_toNat (s : M.State) (reg : Gpr) :
    (shownRegister M s reg).toNat = M.cell s (.gpr reg) := by
  rw [shownRegister, BitVec.toNat_ofNat, Nat.mod_eq_of_lt (M.gpr_lt s reg)]

theorem firstRegisters_record {i : Instruction} {s : M.State} {reads : List Callback}
    (reports : M.Reports i s reads) (calls : List Callback) :
    firstRegisters (reads ++ M.record i s :: calls) = some (shownRegister M s) := by
  rw [firstRegisters_reads fun call member => by
    obtain ⟨addr, size, _, same⟩ := reports.memreads call member
    exact ⟨addr, size, _, same⟩]
  rfl

/-- The preparation lasts up to the first register record. -/
theorem Prepared.synced {o : Options} {ctx ctx' : T.Ctx} {calls : List Callback} {regs : Gpr → BitVec 64}
    (prepared : Prepared T o ctx calls) (same : T.SameInputs ctx ctx')
    (plain : (∀ c, (T.view ctx).sym c = none) → ∀ c, (T.view ctx').sym c = none)
    (first : firstRegisters calls = some regs) :
    (T.getSymbolicVariables ctx' = [] ∧ ∀ c, (T.view ctx').sym c = none) ∨
      (T.getSymbolicVariables ctx' = inputVariables o.symsize ∧
        (regs .rdi).toNat < 256 ^ o.symsize ∧ (regs .rsi).toNat < 256 ^ o.symsize) := by
  rcases prepared with ⟨unseeded, empty⟩ | ⟨seeded, fits⟩
  · exact Or.inl ⟨same.1.trans unseeded, plain empty⟩
  · exact Or.inr ⟨same.1.trans seeded, fits regs first⟩

/-- Where the inputs are in place, the context stands for every run that differs in them. -/
theorem placed_predicts {symsize : Nat} {s₀ : M.State} {seen : Set Cell} {ctx ctx' : T.Ctx}
    (placed : Placed symsize (shownRegister M s₀ .rdi) (shownRegister M s₀ .rsi) ctx')
    (frame : ∀ c ∉ arguments, (T.view ctx').conc c = (T.view ctx).conc c ∧
      (T.view ctx').sym c = (T.view ctx).sym c) (registers : ∀ reg, Cell.gpr reg ∈ seen) :
    (Shadows seen (T.view ctx) (M.cell s₀) → Shadows seen (T.view ctx') (M.cell s₀)) ∧
      ∀ {s input}, Alike M symsize s₀ s → Inputs M symsize s input →
        Predicts T.denote (seen \ arguments) (T.view ctx) (M.cell s₀) (M.cell s₀) input →
        Predicts T.denote seen (T.view ctx') (M.cell s₀) (M.cell s) input := by
  constructor
  · intro shadows c member
    by_cases argument : c ∈ arguments
    · rcases argument with rfl | rfl
      · exact placed.first.concrete.trans (shownRegister_toNat s₀ .rdi)
      · exact placed.second.concrete.trans (shownRegister_toNat s₀ .rsi)
    · exact (frame c argument).1.trans (shadows c member)
  · intro s input alike traced predicts
    have cover : arguments ⊆ seen := by
      rintro c (rfl | rfl)
      · exact registers .rdi
      · exact registers .rsi
    rw [← Set.sdiff_union_of_subset cover]
    apply predicts.seed frame
    · intro c outside
      simp only [arguments, Set.mem_insert_iff, Set.mem_singleton_iff, not_or] at outside
      exact alike.cells c outside.1 outside.2
    · rintro c (rfl | rfl)
      · have fits := low_bytes_lt (M.cell s (.gpr .rdi)) symsize
        rw [← traced.1] at fits
        rw [placed.first.denotes fits, shownRegister_toNat, ← alike.rdi, traced.1]
        exact Nat.div_add_mod' _ _
      · have fits := low_bytes_lt (M.cell s (.gpr .rsi)) symsize
        rw [← traced.2] at fits
        rw [placed.second.denotes fits, shownRegister_toNat, ← alike.rsi, traced.2]
        exact Nat.div_add_mod' _ _

/-- A log without memory records is undisturbed when its first register record is. -/
theorem Undisturbed.of_registers (lawful : T.Lawful) {o : Options} {is : List Instruction} {s : M.State}
    {seen : Set Cell} {l : Loop T} {calls : List Callback} (registers : calls.any Callback.isMemread = false)
    (first : l.fuse = true → ∀ regs, firstRegisters calls = some regs → ∀ reg, reg ≠ .rdi → reg ≠ .rsi →
      (T.view l.state.ctx).conc (.gpr reg) = (regs reg).toNat → (T.view l.state.ctx).sym (.gpr reg) = none) :
    Undisturbed T M o is s seen l calls := by
  induction calls generalizing is s seen l with
  | nil => cases is <;> trivial
  | cons call rest ih =>
    cases call with
    | memread addr size mem => cases registers
    | inst regs addr opcode =>
      cases is with
      | nil => trivial
      | cons i is =>
        refine ⟨fun fuse => first fuse regs rfl, fun l' s' ran _ => ih registers fun fuse => ?_⟩
        obtain ⟨_, _, _, _, _, done⟩ := inst_steps lawful ran
        rw [done] at fuse
        cases fuse

/-- The seen cells after an instruction and its records. -/
abbrev seenAfter (M : Machine) (i : Instruction) (s₀ : M.State) (reads : List Callback)
    (seen : Set Cell) : Set Cell :=
  seen ∪ covered reads ∪ {c | c ∈ (M.record i s₀).cells} ∪ M.writes i s₀

theorem seen_next {i : Instruction} {is : List Instruction} {s₀ s₀' : M.State} {reads : List Callback}
    (reports : M.Reports i s₀ reads) (stepped : M.exec i s₀ = some s₀') (calls : List Callback)
    (seen : Set Cell) : M.seen (i :: is) s₀ (reads ++ M.record i s₀ :: calls) seen =
      M.seen is s₀' calls (seenAfter M i s₀ reads seen) := by
  rw [Machine.seen_memreads _ _ fun call member => by
    obtain ⟨addr, size, _, same⟩ := reports.memreads call member
    exact ⟨addr, size, _, same⟩]
  exact Machine.seen_record stepped calls _

section
variable (lawful : T.Lawful) (inputs : ∀ ctx i, T.SameInputs ctx (T.processing ctx i).1)
  (sound : T.Sound M) (emulates : T.Emulates M) {o : Options} {i : Instruction} {s₀ t₀ : M.State}
  {reads : List Callback} {seen written : Set Cell} {l next : Loop T}
include lawful inputs sound emulates

/-- An instruction after the first one. -/
theorem instruction_shadows (reports : M.Reports i s₀ reads) (address : i.address < 2 ^ 64)
    (stepped₀ : M.exec i s₀ = some t₀) (flags : ∀ f, Cell.flag f ∈ M.reads i s₀ → Cell.flag f ∈ written)
    (known : written ⊆ seen) (fuse : l.fuse = false) (registers : ∀ reg, Cell.gpr reg ∈ seen)
    (shadows : Shadows seen (T.view l.state.ctx) (M.cell s₀))
    (ran : replay o l (reads ++ [M.record i s₀]) = .ok next) :
    next.fuse = false ∧ T.SameInputs l.state.ctx next.state.ctx ∧
      Shadows (seenAfter M i s₀ reads seen) (T.view next.state.ctx) (M.cell t₀) ∧
      ∀ {is calls s t input}, M.exec i s = some t → M.reads i s = M.reads i s₀ →
        M.writes i s = M.writes i s₀ →
        Undisturbed T M o (i :: is) s₀ seen l (reads ++ M.record i s₀ :: calls) →
        Predicts T.denote seen (T.view l.state.ctx) (M.cell s₀) (M.cell s) input →
        Predicts T.denote (seenAfter M i s₀ reads seen) (T.view next.state.ctx) (M.cell t₀) (M.cell t) input ∧
          Undisturbed T M o is t₀ (seenAfter M i s₀ reads seen) next calls := by
  rw [replay_append] at ran
  obtain ⟨middle, first, ran⟩ := Outcome.bind_ok ran
  obtain ⟨ctx, rfl, same, -, recorded, predicted⟩ := memreads_shadow lawful reports.memreads first shadows
  obtain ⟨ctx', s, burnt, ⟨view, same'⟩, processed, done⟩ := inst_steps lawful ran
  rw [instruction_eta address] at processed
  have unburnt : (l.withCtx ctx).fuse = false := fuse
  rw [burnFuse, unburnt] at burnt
  cases burnt
  have shown : ∀ c ∈ (M.record i s₀).cells, (M.record i s₀).observed c = M.cell s₀ c :=
    fun c inside => Machine.record_observed i s₀ inside
  have synced : Shadows (seen ∪ covered reads ∪ {c | c ∈ (M.record i s₀).cells}) (T.view ctx')
      (M.cell s₀) := by
    rw [view]
    exact recorded.resyncEach shown
  obtain ⟨final, advance⟩ := processing_shadows sound emulates synced stepped₀ (reads_seen reports flags known)
  refine ⟨done, ?_, ?_, fun stepped sameReads sameWrites calm predicts => ?_⟩
  · rw [processed]
    exact (same.trans same').trans (inputs ctx' i)
  · rw [processed]
    exact final
  · obtain ⟨predicts, calm⟩ := predicted calm predicts
    rw [processed]
    refine ⟨advance stepped sameReads sameWrites ?_, calm.2 next t₀ ran stepped₀⟩
    have known : ∀ c ∈ (M.record i s₀).cells, c ∈ seen ∪ covered reads := by
      intro c inside
      obtain ⟨reg, _, rfl⟩ := List.mem_map.mp inside
      exact Or.inl (registers reg)
    have after : Predicts T.denote ((seen ∪ covered reads ∪ {c | c ∈ (M.record i s₀).cells}) \ ∅)
        ((T.view ctx).resyncEach (M.record i s₀).cells (M.record i s₀).observed) (M.cell s₀) (M.cell _) _ :=
      predicts.resyncEach recorded shown (by simp) fun c inside _ unseen => absurd (known c inside) unseen
    rw [Set.sdiff_empty] at after
    simp only [Loop.withCtx, view]
    exact after

/-- The first instruction, before which the inputs are put in place. -/
theorem first_shadows (symsized : AccessSize o.symsize) (reports : M.Reports i s₀ reads)
    (address : i.address < 2 ^ 64) (stepped₀ : M.exec i s₀ = some t₀)
    (flags : ∀ f, Cell.flag f ∉ M.reads i s₀) (fuse : l.fuse = true) {calls : List Callback}
    (prepared : Prepared T o l.state.ctx (reads ++ M.record i s₀ :: calls))
    (ran : replay o l (reads ++ [M.record i s₀]) = .ok next) :
    next.fuse = false ∧ T.getSymbolicVariables next.state.ctx = inputVariables o.symsize ∧
      Inputs M o.symsize s₀ (T.values next.state.ctx) ∧
      Shadows (seenAfter M i s₀ reads ∅) (T.view next.state.ctx) (M.cell t₀) ∧
      ∀ {is s t input}, M.exec i s = some t → M.reads i s = M.reads i s₀ →
        M.writes i s = M.writes i s₀ → Alike M o.symsize s₀ s → Inputs M o.symsize s input →
        Undisturbed T M o (i :: is) s₀ ∅ l (reads ++ M.record i s₀ :: calls) →
        Predicts T.denote (seenAfter M i s₀ reads ∅) (T.view next.state.ctx) (M.cell t₀) (M.cell t) input ∧
          Undisturbed T M o is t₀ (seenAfter M i s₀ reads ∅) next calls := by
  rw [replay_append] at ran
  obtain ⟨middle, first, ran⟩ := Outcome.bind_ok ran
  have nothing : Shadows ∅ (T.view l.state.ctx) (M.cell s₀) := by simp [Shadows]
  obtain ⟨ctx, rfl, same, plain, recorded, predicted⟩ := memreads_shadow lawful reports.memreads first nothing
  obtain ⟨ctx', s, burnt, ⟨view, same'⟩, processed, done⟩ := inst_steps lawful ran
  rw [instruction_eta address] at processed
  have registers : ∀ reg, (T.view ctx').conc (.gpr reg) = (shownRegister M s₀ reg).toNat := fun reg =>
    (congrArg (fun store => store.conc (.gpr reg)) view).trans (by
      rw [Store.resyncEach_conc, if_pos (List.mem_map_of_mem (Gpr.mem_all reg))]
      rfl)
  have ready := prepared.synced (same.trans same') (fun empty c => by
    rw [view, Store.resyncEach_sym, show (T.view (l.withCtx ctx).state.ctx).sym c = none from plain empty c]
    exact ite_self none) (firstRegisters_record reports calls)
  obtain ⟨seededCtx, seeds, placed, frame⟩ :=
    seeds_place lawful symsized ⟨registers .rdi, registers .rsi⟩ ready
  have burning := burnFuse_seeds o (s := ((l.withCtx ctx).withCtx ctx').state) seeds
  rw [show (l.withCtx ctx).fuse = true from fuse] at burnt
  cases burning.symm.trans burnt
  have shown : ∀ c ∈ (M.record i s₀).cells, (M.record i s₀).observed c = M.cell s₀ c :=
    fun c inside => Machine.record_observed i s₀ inside
  have held : ∀ reg, Cell.gpr reg ∈ (∅ : Set Cell) ∪ covered reads ∪ {c | c ∈ (M.record i s₀).cells} :=
    fun reg => Or.inr (List.mem_map_of_mem (Gpr.mem_all reg))
  have synced : Shadows (∅ ∪ covered reads ∪ {c | c ∈ (M.record i s₀).cells}) (T.view ctx')
      (M.cell s₀) := by
    rw [view]
    exact recorded.resyncEach shown
  obtain ⟨seeded, predictsSeeded⟩ := placed_predicts placed frame held
  have read := fun c member => reads_seen reports (fun f member => absurd member (flags f))
    (Set.empty_subset ∅) c member
  obtain ⟨final, advance⟩ := processing_shadows sound emulates (seeded synced) stepped₀ read
  have after := inputs seededCtx i
  refine ⟨done, ?_, ?_, ?_, ?_⟩
  · rw [processed]
    exact after.1.trans placed.inputs
  · rw [processed]
    simp only [after.2]
    exact ⟨placed.first.value.trans (by rw [shownRegister_toNat]),
      placed.second.value.trans (by rw [shownRegister_toNat])⟩
  · rw [processed]
    exact final
  · intro is s t input stepped sameReads sameWrites alike traced calm
    have initial : Predicts T.denote ∅ (T.view l.state.ctx) (M.cell s₀) (M.cell s₀) input :=
      ⟨by simp, fun c _ => rfl⟩
    obtain ⟨predicts, calm⟩ := predicted calm initial
    rw [processed]
    refine ⟨advance stepped sameReads sameWrites (predictsSeeded alike traced ?_), calm.2 next t₀ ran stepped₀⟩
    rw [view]
    apply predicts.resyncEach recorded shown (fun _ _ => rfl)
    intro c inside outside _ equal
    obtain ⟨reg, _, rfl⟩ := List.mem_map.mp inside
    simp only [arguments, Set.mem_insert_iff, Set.mem_singleton_iff, Cell.gpr.injEq, not_or] at outside
    exact calm.1 fuse reg outside.1 outside.2 equal

/-- From the second instruction on. -/
theorem run_shadows {is : List Instruction} {calls : List Callback} (logged : M.Logged is s₀ calls t₀)
    {l' : Loop T} (flags : M.FlagsWritten written is s₀) (known : written ⊆ seen) (fuse : l.fuse = false)
    (registers : ∀ reg, Cell.gpr reg ∈ seen) (shadows : Shadows seen (T.view l.state.ctx) (M.cell s₀))
    (ran : replay o l calls = .ok l') :
    T.SameInputs l.state.ctx l'.state.ctx ∧ seen ⊆ M.seen is s₀ calls seen ∧
      Shadows (M.seen is s₀ calls seen) (T.view l'.state.ctx) (M.cell t₀) ∧
      ∀ {s t input}, M.SamePath is s₀ s t → Undisturbed T M o is s₀ seen l calls →
        Predicts T.denote seen (T.view l.state.ctx) (M.cell s₀) (M.cell s) input →
        Predicts T.denote (M.seen is s₀ calls seen) (T.view l'.state.ctx) (M.cell t₀) (M.cell t) input := by
  induction logged generalizing l seen written with
  | done s₀ =>
    cases ran
    refine ⟨.refl _, subset_rfl, shadows, fun path _ predicts => ?_⟩
    cases path
    exact predicts
  | @next i is s₀ s₀' t₀ reads calls reports address stepped rest ih =>
    have split : reads ++ M.record i s₀ :: calls = (reads ++ [M.record i s₀]) ++ calls := by simp
    rw [split, replay_append] at ran
    obtain ⟨next, first, ran⟩ := Outcome.bind_ok ran
    obtain ⟨done, same, recorded, advance⟩ := instruction_shadows lawful inputs sound emulates reports
      address stepped flags.1 known fuse registers shadows first
    have grown : seen ⊆ seenAfter M i s₀ reads seen := fun c member => Or.inl (Or.inl (Or.inl member))
    have known' : written ∪ M.writes i s₀ ⊆ seenAfter M i s₀ reads seen :=
      Set.union_subset_union_left _ fun c member => Or.inl (Or.inl (known member))
    obtain ⟨same', grown', final, later⟩ := ih (flags.2 _ stepped) known' done
      (fun reg => grown (registers reg)) recorded ran
    rw [seen_next reports stepped]
    refine ⟨same.trans same', grown.trans grown', final, fun path calm predicts => ?_⟩
    cases path with
    | next stepped₀ stepped' sameReads sameWrites path =>
      cases stepped.symm.trans stepped₀
      obtain ⟨predicts, calm⟩ := advance stepped' sameReads sameWrites calm predicts
      exact later path calm predicts

end

variable (T M) in
/-- A replay of a complete log from its first line on: the context holds what the traced
run left, and unless some record disturbs, what every run of its path leaves. -/
structure Carried (o : Options) (is : List Instruction) (s₀ t₀ : M.State) (calls : List Callback)
    (l l' : Loop T) : Prop where
  known : T.getSymbolicVariables l'.state.ctx = inputVariables o.symsize
  inputs : Inputs M o.symsize s₀ (T.values l'.state.ctx)
  registers : ∀ reg, Cell.gpr reg ∈ M.seen is s₀ calls ∅
  shadows : Shadows (M.seen is s₀ calls ∅) (T.view l'.state.ctx) (M.cell t₀)
  predicts : Undisturbed T M o is s₀ ∅ l calls → ∀ {s t input}, Alike M o.symsize s₀ s →
    M.SamePath is s₀ s t → Inputs M o.symsize s input →
    Predicts T.denote (M.seen is s₀ calls ∅) (T.view l'.state.ctx) (M.cell t₀) (M.cell t) input

section
variable (lawful : T.Lawful) (inputs : ∀ ctx i, T.SameInputs ctx (T.processing ctx i).1)
  (sound : T.Sound M) (emulates : T.Emulates M) {o : Options} (symsized : AccessSize o.symsize)
include lawful inputs sound emulates symsized

theorem log_carried {i : Instruction} {is : List Instruction} {s₀ t₀ : M.State} {calls : List Callback}
    (logged : M.Logged (i :: is) s₀ calls t₀) (flags : M.FlagsWritten ∅ (i :: is) s₀) {l l' : Loop T}
    (fuse : l.fuse = true) (prepared : Prepared T o l.state.ctx calls)
    (ran : replay o l calls = .ok l') : Carried T M o (i :: is) s₀ t₀ calls l l' := by
  cases logged with
  | @next _ _ _ s₀' _ reads calls reports address stepped rest =>
    have split : reads ++ M.record i s₀ :: calls = (reads ++ [M.record i s₀]) ++ calls := by simp
    rw [split, replay_append] at ran
    obtain ⟨next, first, ran⟩ := Outcome.bind_ok ran
    obtain ⟨done, created, traced, recorded, advance⟩ := first_shadows lawful inputs sound emulates symsized
      reports address stepped (fun f member => Set.notMem_empty _ (flags.1 f member)) fuse prepared first
    have registers : ∀ reg, Cell.gpr reg ∈ seenAfter M i s₀ reads ∅ :=
      fun reg => Or.inl (Or.inr (List.mem_map_of_mem (Gpr.mem_all reg)))
    have known : ∅ ∪ M.writes i s₀ ⊆ seenAfter M i s₀ reads ∅ :=
      Set.union_subset (Set.empty_subset _) Set.subset_union_right
    obtain ⟨same, grown, final, later⟩ := run_shadows lawful inputs sound emulates rest (flags.2 _ stepped)
      known done registers recorded ran
    rw [← seen_next reports stepped] at grown final later
    refine ⟨same.1.trans created, by rw [same.2]; exact traced, fun reg => grown (registers reg), final,
      fun calm {s t input} alike path traced => ?_⟩
    cases path with
    | next stepped₀ stepped' sameReads sameWrites path =>
      cases stepped.symm.trans stepped₀
      obtain ⟨predicts, calm⟩ := advance stepped' sameReads sameWrites alike traced calm
      exact later path calm predicts

end

/-- The expression in a register after an undisturbed replay is the register's value in
every run of the path. -/
theorem Carried.denotes (lawful : T.Lawful) {o : Options} {is : List Instruction} {s₀ t₀ : M.State}
    {calls : List Callback} {l l' : Loop T} (carried : Carried T M o is s₀ t₀ calls l l')
    (calm : Undisturbed T M o is s₀ ∅ l calls) {s t : M.State} {input : Valuation}
    (alike : Alike M o.symsize s₀ s) (path : M.SamePath is s₀ s t) (traced : Inputs M o.symsize s input)
    {reg : Register} (seen : reg.cell ∈ M.seen is s₀ calls ∅) :
    T.denote (T.getRegisterAst l'.state.ctx reg) input = reg.part (M.cell t reg.cell) := by
  rw [lawful.getRegisterAst]
  exact congrArg reg.part ((carried.predicts calm alike path traced).represented _ seen)

end Attack
end Devirt
