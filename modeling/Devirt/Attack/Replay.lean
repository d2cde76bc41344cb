import Devirt.Attack.Resync

/-! One specification for every step of a replay: what a record does to the
context, what seeding the inputs does, and what is recorded after an instruction. -/
namespace Devirt.Attack
open Tracer Concolic
open Python (PyError)

variable {T : Triton}

/-- Only the context changes when a line synchronizes. -/
def Loop.withCtx (l : Loop T) (ctx : T.Ctx) : Loop T := { l with state := { l.state with ctx := ctx } }

def Loop.fresh (s : State T) : Loop T := { state := s, fuse := true, count := 0 }

/-- The loop over the records of a list of callbacks. -/
def replay (o : Options) (l : Loop T) (calls : List Callback) : Except PyError (Loop T) :=
  (calls.flatMap Callback.dispatches).foldlM (Dispatch.run o) l

theorem replay_append (o : Options) (l : Loop T) (first second : List Callback) :
    replay o l (first ++ second) = replay o l first >>= fun l => replay o l second := by
  rw [replay, List.flatMap_append, List.foldlM_append]
  rfl

theorem replay_append_ok {o : Options} {l middle : Loop T} {first : List Callback}
    (runs : replay o l first = .ok middle) (second : List Callback) :
    replay o l (first ++ second) = replay o middle second := by
  rw [replay_append, runs]
  rfl

theorem replay_singleton (o : Options) (l : Loop T) (call : Callback) :
    replay o l [call] = call.dispatches.foldlM (Dispatch.run o) l := by
  rw [replay, List.flatMap_singleton]

/-- The loop over records is a loop over callbacks. -/
theorem replay_eq_foldlM (o : Options) (l : Loop T) (calls : List Callback) :
    replay o l calls = calls.foldlM (fun l call => replay o l [call]) l := by
  induction calls generalizing l with
  | nil => rfl
  | cons call rest ih =>
    rw [List.foldlM_cons, ← List.singleton_append, replay_append]
    congr 1
    funext next
    exact ih next

/-- The loop over a log is the loop over the callbacks that wrote it. -/
theorem emulate_log (o : Options) (s : State T) {calls : List Callback}
    (sized : ∀ call ∈ calls, call.Sized) :
    emulate o s (log calls) = do
      let l ← replay o (Loop.fresh s) calls
      return l.state.print ("[+] Instruction executed: " ++ toString l.count) := by
  rw [emulate, emulateLines_log o _ sized]
  rfl

/-- The loop state in which a replay reads its first line. -/
def Loop.start (s : State T) : Loop T := Loop.fresh (s.print "[+] Replaying the VMP trace")

/-- The state in which a finished loop leaves a replay. -/
def Loop.finish (l : Loop T) : State T :=
  (l.state.print ("[+] Instruction executed: " ++ toString l.count)).print "[+] Emulation done"

theorem onePath_log (o : Options) (s : State T) {calls : List Callback}
    (sized : ∀ call ∈ calls, call.Sized) :
    onePath o s (log calls) = do
      let l ← replay o (Loop.start s) calls
      return (l.finish, T.getRegisterAst l.state.ctx .eax) := by
  simp only [onePath, emulate_log o _ sized, Loop.start]
  cases replay o (Loop.fresh (s.print "[+] Replaying the VMP trace")) calls <;> rfl

/-- An input in the low `symsize` bytes of a register. -/
abbrev inputVariable (symsize id : Nat) (reg : Gpr) : SymVar := ⟨id, 8 * symsize, reg⟩

def inputVariables (symsize : Nat) : List SymVar :=
  [inputVariable symsize 0 .rdi, inputVariable symsize 1 .rsi]

theorem byte_pow (n : Nat) : 256 ^ n = 2 ^ (8 * n) := by rw [Nat.pow_mul]

theorem low_bytes_lt (value n : Nat) : value % 256 ^ n < 256 ^ n := Nat.mod_lt _ (Nat.pow_pos (by decide))

/-- RDI and RSI carry the inputs in their low bytes and nothing else changed. -/
structure Seeded (symsize : Nat) (ctx ctx' : T.Ctx) : Prop where
  view : ∃ first second, T.SplicesVariable (T.view ctx) .rdi symsize 0 first ∧
    T.SplicesVariable (T.view ctx) .rsi symsize 1 second ∧
    T.view ctx' = { T.view ctx with
      sym := Function.update (Function.update (T.view ctx).sym (.gpr .rdi) (some first))
        (.gpr .rsi) (some second) }
  inputs : T.getSymbolicVariables ctx' = inputVariables symsize
  first : T.values ctx' 0 = (T.view ctx).conc (.gpr .rdi) % 256 ^ symsize
  second : T.values ctx' 1 = (T.view ctx).conc (.gpr .rsi) % 256 ^ symsize

variable (T) in
/-- A whole register that is one input. -/
def inputExpr (symsize id : Nat) (reg : Gpr) : T.Ast :=
  T.zx (64 - 8 * symsize) (T.astVariable (inputVariable symsize id reg))

/-- RDI and RSI are the inputs, and both take the values that these were set to. -/
structure Retaken (symsize x y : Nat) (ctx ctx' : T.Ctx) : Prop where
  view : T.view ctx' =
    { conc := Function.update (Function.update (T.view ctx).conc (.gpr .rdi) x) (.gpr .rsi) y
      sym := Function.update (Function.update (T.view ctx).sym (.gpr .rdi) (some (inputExpr T symsize 0 .rdi)))
        (.gpr .rsi) (some (inputExpr T symsize 1 .rsi)) }
  inputs : T.getSymbolicVariables ctx' = inputVariables symsize
  values : T.values ctx' = Function.update (Function.update (T.values ctx) 0 x) 1 y

/-- RDI and RSI are the inputs, which took over the registers' values. -/
structure Reseeded (symsize : Nat) (ctx ctx' : T.Ctx) : Prop where
  view : T.view ctx' = { T.view ctx with
    sym := Function.update (Function.update (T.view ctx).sym (.gpr .rdi) (some (inputExpr T symsize 0 .rdi)))
      (.gpr .rsi) (some (inputExpr T symsize 1 .rsi)) }
  inputs : T.getSymbolicVariables ctx' = inputVariables symsize
  values : T.values ctx' = Function.update (Function.update (T.values ctx) 0 ((T.view ctx).conc (.gpr .rdi)))
    1 ((T.view ctx).conc (.gpr .rsi))

section
variable (lawful : T.Lawful) (o : Options)
include lawful

/-- A context as `analysis` makes it holds nothing. -/
theorem fresh_view {s : State T} (fresh : s.ctx = setMode T.new) :
    (∀ c, (T.view s.ctx).conc c = 0) ∧ (∀ c, (T.view s.ctx).sym c = none) ∧
      T.getSymbolicVariables s.ctx = [] := by
  have becomes : T.Becomes T.new s.ctx (T.view T.new) := by
    have first := lawful.setMode T.new "ALIGNED_MEMORY" true
    have second := lawful.setMode (T.setMode T.new "ALIGNED_MEMORY" true) "AST_OPTIMIZATIONS" true
    have third := lawful.setMode (T.setMode (T.setMode T.new "ALIGNED_MEMORY" true)
      "AST_OPTIMIZATIONS" true) "CONSTANT_FOLDING" true
    rw [second.1, first.1] at third
    rw [fresh]
    exact (first.trans second).trans third
  rw [becomes.1, becomes.2.1]
  exact ⟨lawful.new_conc, lawful.new_sym, lawful.new_variables⟩

theorem memread_runs (l : Loop T) (addr : BitVec 64) {size : Nat} (mem : BitVec 64 → BitVec 8)
    (sized : AccessSize size) :
    ∃ ctx', replay o l [.memread addr size mem] = .ok (l.withCtx ctx') ∧
      T.Becomes l.state.ctx ctx' ((T.view l.state.ctx).resync (Cell.range addr size)
        (Callback.memread addr size mem).observed) := by
  obtain ⟨ctx', synced, becomes⟩ := syncMemoryValue_becomes lawful l.state.ctx addr mem sized
  refine ⟨ctx', ?_, becomes⟩
  simp only [replay_singleton, Callback.dispatches, List.foldlM_cons, List.foldlM_nil,
    Dispatch.run, synced]
  rfl

theorem register_runs (l : Loop T) (regs : Gpr → BitVec 64) (addr : BitVec 64)
    (opcode : List (BitVec 8)) :
    ∃ ctx', Dispatch.run o l (.syncReg (Gpr.all.map fun reg => (regs reg).toNat)) =
        .ok (l.withCtx ctx') ∧
      T.Becomes l.state.ctx ctx' ((T.view l.state.ctx).resyncEach (Gpr.all.map .gpr)
        (Callback.inst regs addr opcode).observed) := by
  obtain ⟨ctx', synced, becomes⟩ := syncValues_becomes lawful l.state.ctx Gpr.all
    (fun reg => (regs reg).isLt) (v := (Callback.inst regs addr opcode).observed) (fun _ => rfl)
  refine ⟨ctx', ?_, becomes⟩
  have columns : (mapping.map Prod.fst).zip (Gpr.all.map fun reg => (regs reg).toNat) =
      Gpr.all.map fun reg => (reg, (regs reg).toNat) := by
    rw [mapping_registers, List.zip_map_right, List.zip_eq_zipWith, List.zipWith_self, List.map_map]
    rfl
  simp only [Dispatch.run, columns, synced]
  rfl

omit lawful in
/-- After a register record every register holds what the record says. -/
theorem registers_shown {ctx ctx' : T.Ctx} {regs : Gpr → BitVec 64} {addr : BitVec 64}
    {opcode : List (BitVec 8)}
    (view : T.view ctx' =
      (T.view ctx).resyncEach (Gpr.all.map .gpr) (Callback.inst regs addr opcode).observed)
    (reg : Gpr) : (T.view ctx').conc (.gpr reg) = (regs reg).toNat := by
  rw [view, Store.resyncEach_conc, if_pos (List.mem_map_of_mem (Gpr.mem_all reg))]
  rfl

omit lawful in
/-- The fuse burns as soon as the inputs can be put in place. -/
theorem burnFuse_seeds {s : State T} {ctx' : T.Ctx} (seeds : seedInputs o.symsize s.ctx = .ok ctx') :
    burnFuse o s true = .ok { s.print "[+] Symbolize inputs" with ctx := ctx' } := by
  simp only [burnFuse, if_true, State.print, seeds]
  rfl

theorem seedInputs_fresh (ctx : T.Ctx) {symsize : Nat} (sized : AccessSize symsize)
    (unseeded : T.getSymbolicVariables ctx = []) :
    ∃ ctx', seedInputs symsize ctx = .ok ctx' ∧ Seeded symsize ctx ctx' := by
  let middle := T.symbolizeRegister ctx (.low .rdi symsize) "x"
  obtain ⟨first, splicesX, viewX, variablesX, valuesX⟩ :=
    lawful.symbolizeRegister ctx .rdi symsize "x" sized
  obtain ⟨second, splicesY, viewY, variablesY, valuesY⟩ :=
    lawful.symbolizeRegister middle .rsi symsize "y" sized
  have mapped : mapSize symsize = .ok (.low .rdi symsize, .low .rsi symsize) := by
    simp only [AccessSize, List.mem_cons, List.not_mem_nil, or_false] at sized
    rcases sized with rfl | rfl | rfl | rfl <;> rfl
  have other : T.view middle = { T.view ctx with
      sym := Function.update (T.view ctx).sym (.gpr .rdi) (some first) } := viewX
  simp only [unseeded, List.length_nil, List.nil_append] at splicesX variablesX valuesX
  have one : (T.getSymbolicVariables middle).length = 1 := by rw [variablesX]; rfl
  rw [one] at splicesY variablesY valuesY
  refine ⟨T.symbolizeRegister middle (.low .rsi symsize) "y", ?_,
    ⟨first, second, splicesX, ?_, ?_⟩, ?_, ?_, ?_⟩
  · simp only [seedInputs, unseeded, List.length_nil, if_true, mapped]
    rfl
  · intro input small
    have same : (T.view middle).value T.denote input (.gpr .rsi) =
        (T.view ctx).value T.denote input (.gpr .rsi) := by
      simp [Store.value, other, Function.update]
    rw [← same]
    exact splicesY input small
  · rw [viewY, other]
  · rw [variablesY, variablesX]
    rfl
  · rw [valuesY, valuesX]
    simp
  · rw [valuesY, other]
    simp

/-- A register becomes a variable and takes its value. -/
theorem assignInput (ctx : T.Ctx) (r : Gpr) {v : SymVar} {value : Nat} (bits : Nat)
    (holds : T.values ctx v.id = value) (fits : value < 2 ^ v.bitSize) (small : value < 2 ^ 64) :
    ∃ ctx', T.assignSymbolicExpressionToRegister (T.newSymbolicExpression ctx (T.zx bits (T.astVariable v))).1
        (T.newSymbolicExpression ctx (T.zx bits (T.astVariable v))).2 (.full r) = .ok ctx' ∧
      T.Becomes ctx ctx'
        { conc := Function.update (T.view ctx).conc (.gpr r) value
          sym := Function.update (T.view ctx).sym (.gpr r) (some (T.zx bits (T.astVariable v))) } := by
  obtain ⟨ast, created⟩ := lawful.newSymbolicExpression ctx (T.zx bits (T.astVariable v))
  have evaluated : T.denote (T.zx bits (T.astVariable v)) (T.values ctx) = value := by
    rw [lawful.astVariable v bits _ (by rw [holds]; exact fits), holds]
  obtain ⟨ctx', assigned, view, same_inputs⟩ := lawful.assignSymbolicExpressionToRegister
    (T.newSymbolicExpression ctx (T.zx bits (T.astVariable v))).1 (T.zx bits (T.astVariable v)) r (by
      rw [created.2.2, evaluated]
      exact small)
  refine ⟨ctx', by rw [ast]; exact assigned, ?_, created.2.trans same_inputs⟩
  rw [view, created.1, created.2.2, evaluated]

/-- Seeding existing inputs sets both variables, and then assigns them. -/
theorem seedInputs_known {ctx : T.Ctx} {symsize : Nat}
    (seeded : T.getSymbolicVariables ctx = inputVariables symsize) :
    seedInputs symsize ctx = (do
      let ctxX ← native (T.setConcreteVariableValue ctx (inputVariable symsize 0 .rdi) ((T.view ctx).conc (.gpr .rdi)))
      let ctxY ← native (T.setConcreteVariableValue ctxX (inputVariable symsize 1 .rsi) ((T.view ctx).conc (.gpr .rsi)))
      let (ctx, x) := T.newSymbolicExpression ctxY (inputExpr T symsize 0 .rdi)
      let ctx ← native (T.assignSymbolicExpressionToRegister ctx x .rdi)
      let (ctx, y) := T.newSymbolicExpression ctx (inputExpr T symsize 1 .rsi)
      native (T.assignSymbolicExpressionToRegister ctx y .rsi)) := by
  have full : ∀ r, T.getConcreteRegisterValue ctx (.full r) = (T.view ctx).conc (.gpr r) := fun r =>
    (lawful.getConcreteRegisterValue ctx (.full r)).trans (Nat.mod_eq_of_lt (lawful.gpr_lt ctx r))
  have foundX : T.getSymbolicVariable ctx 0 = .ok (inputVariable symsize 0 .rdi) :=
    lawful.getSymbolicVariable ctx 0 _ (by rw [seeded]; rfl)
  have foundY : T.getSymbolicVariable ctx 1 = .ok (inputVariable symsize 1 .rsi) :=
    lawful.getSymbolicVariable ctx 1 _ (by rw [seeded]; rfl)
  have two : ¬ (T.getSymbolicVariables ctx).length = 0 := by
    rw [seeded]
    exact Nat.succ_ne_zero 1
  rw [seedInputs, if_neg two, updateSymVar, foundX, foundY]
  simp only [Register.rdi, Register.rsi, full]
  rfl

/-- Once both variables are set, the registers take over their values. -/
theorem seedInputs_set {ctx ctxX ctxY : T.Ctx} {symsize x y : Nat}
    (seeded : T.getSymbolicVariables ctx = inputVariables symsize)
    (setX : T.setConcreteVariableValue ctx (inputVariable symsize 0 .rdi) ((T.view ctx).conc (.gpr .rdi)) = .ok ctxX)
    (becomesX : T.SetsVariable ctx ctxX (inputVariable symsize 0 .rdi) x)
    (setY : T.setConcreteVariableValue ctxX (inputVariable symsize 1 .rsi) ((T.view ctx).conc (.gpr .rsi)) = .ok ctxY)
    (becomesY : T.SetsVariable ctxX ctxY (inputVariable symsize 1 .rsi) y)
    (fitsX : x < 2 ^ (8 * symsize)) (fitsY : y < 2 ^ (8 * symsize))
    (smallX : x < 2 ^ 64) (smallY : y < 2 ^ 64) :
    ∃ ctx', seedInputs symsize ctx = .ok ctx' ∧ Retaken symsize x y ctx ctx' := by
  obtain ⟨viewX, knownX, valuesX⟩ := becomesX
  obtain ⟨viewY, knownY, valuesY⟩ := becomesY
  have values : T.values ctxY = Function.update (Function.update (T.values ctx) 0 x) 1 y := by
    rw [valuesY, valuesX]
  obtain ⟨ctx₁, first, becomes₁⟩ := assignInput lawful ctxY .rdi (v := inputVariable symsize 0 .rdi)
    (64 - 8 * symsize) (by simp [values]) fitsX smallX
  obtain ⟨ctx₂, second, becomes₂⟩ := assignInput lawful ctx₁ .rsi (v := inputVariable symsize 1 .rsi)
    (64 - 8 * symsize) (by simp [becomes₁.2.2, values]) fitsY smallY
  refine ⟨ctx₂, ?_, ?_, ?_, ?_⟩
  · simp only [seedInputs_known lawful seeded, inputExpr, Register.rdi, Register.rsi, native,
      Except.mapError, bind, Except.bind, setX, setY, first, second]
  · rw [becomes₂.1, becomes₁.1, viewY, viewX]
    rfl
  · rw [becomes₂.2.1, becomes₁.2.1, knownY, knownX, seeded]
  · rw [becomes₂.2.2, becomes₁.2.2, values]

theorem seedInputs_again (ctx : T.Ctx) {symsize : Nat}
    (seeded : T.getSymbolicVariables ctx = inputVariables symsize)
    (fitsX : (T.view ctx).conc (.gpr .rdi) < 256 ^ symsize)
    (fitsY : (T.view ctx).conc (.gpr .rsi) < 256 ^ symsize) :
    ∃ ctx', seedInputs symsize ctx = .ok ctx' ∧ Reseeded symsize ctx ctx' := by
  rw [byte_pow] at fitsX fitsY
  obtain ⟨ctxX, setX, becomesX⟩ := lawful.setConcreteVariableValue ctx (inputVariable symsize 0 .rdi)
    (by rw [seeded]; simp [inputVariables]) fitsX
  obtain ⟨ctxY, setY, becomesY⟩ := lawful.setConcreteVariableValue ctxX (inputVariable symsize 1 .rsi)
    (by rw [becomesX.2.1, seeded]; simp [inputVariables]) (by rw [becomesX.1]; exact fitsY)
  rw [becomesX.1] at setY becomesY
  obtain ⟨ctx', seeds, retaken⟩ := seedInputs_set lawful seeded setX becomesX setY becomesY fitsX fitsY
    (lawful.gpr_lt ctx .rdi) (lawful.gpr_lt ctx .rsi)
  refine ⟨ctx', seeds, ?_, retaken.inputs, retaken.values⟩
  rw [retaken.view]
  simp only [Function.update_eq_self]

omit lawful in
/-- A seeded register evaluates to the value it had. -/
theorem Seeded.consistent {ctx ctx' : T.Ctx} {symsize : Nat} (seeded : Seeded symsize ctx ctx')
    (plain : ∀ c, (T.view ctx).sym c = none) : T.Consistent ctx' := by
  obtain ⟨⟨first, second, splicesX, splicesY, view⟩, -, x, y⟩ := seeded
  intro c
  rw [view]
  by_cases isY : c = .gpr .rsi
  · subst c
    simp only [Store.value, Function.update_self]
    rw [splicesY _ (by rw [y]; exact low_bytes_lt _ _), y, Store.value_of_none (plain _)]
    exact Nat.div_add_mod' _ _
  by_cases isX : c = .gpr .rdi
  · subst c
    simp only [Store.value, Function.update_of_ne isY, Function.update_self]
    rw [splicesX _ (by rw [x]; exact low_bytes_lt _ _), x, Store.value_of_none (plain _)]
    exact Nat.div_add_mod' _ _
  · simp only [Store.value, Function.update_of_ne isY, Function.update_of_ne isX, plain]

end

/-! What the branch recorder adds after an instruction. -/

/-- The flag named on the command line is a register of the engine. -/
def Options.Resolves (T : Triton) (o : Options) (flag : Register) : Prop :=
  T.getRegister (o.vbrflag.getD "") = .ok flag

/-- The recorder's two tests on an executed instruction. -/
def Options.Records (o : Options) (ctx : T.Ctx) (address : Nat) (inst : Processed)
    (flag : Register) : Prop :=
  o.visits address inst = true ∧ (T.searchVariables (T.getRegisterAst ctx flag)).length = 2

instance (o : Options) (ctx : T.Ctx) (address : Nat) (inst : Processed) (flag : Register) :
    Decidable (o.Records ctx address inst flag) := inferInstanceAs (Decidable (_ ∧ _))

theorem marker_vJmp (s : State T) (flag : Register) (message : String) :
    (marker s flag message).ctx = s.ctx ∧ (marker s flag message).vJmp = s.vJmp := by
  unfold marker
  dsimp only
  split
  · split
    · exact ⟨rfl, rfl⟩
    · exact ⟨rfl, rfl⟩
  · exact ⟨rfl, rfl⟩

/-- Outside the recording replay nothing can fail and nothing is recorded. -/
theorem detectingVjmp_idle (o : Options) (s : State T) (address : Nat) (inst : Processed)
    (idle : o.recording = false) : ∃ s', detectingVjmp o s address inst = .ok s' ∧
      s'.ctx = s.ctx ∧ s'.vJmp = s.vJmp := by
  unfold detectingVjmp
  rw [idle, if_neg (by decide)]
  split
  · refine ⟨_, rfl, ?_⟩
    have first : ∀ t : State T, t.ctx = s.ctx ∧ t.vJmp = s.vJmp →
        (if (inst.isSymbolized && inst.type == .cmp .reg .reg) = true then
          marker t .af ("[+] A potential symbolic jump found of AF flag: " ++ inst.repr) else t).ctx = s.ctx ∧
        (if (inst.isSymbolized && inst.type == .cmp .reg .reg) = true then
          marker t .af ("[+] A potential symbolic jump found of AF flag: " ++ inst.repr) else t).vJmp =
            s.vJmp := by
      intro t same
      split
      · exact ⟨(marker_vJmp t _ _).1.trans same.1, (marker_vJmp t _ _).2.trans same.2⟩
      · exact same
    refine first _ ?_
    split
    · exact marker_vJmp s _ _
    · exact ⟨rfl, rfl⟩
  · exact ⟨s, rfl, rfl, rfl⟩

theorem detectingVjmp_recording (o : Options) (s : State T) (address : Nat) (inst : Processed)
    {flag : Register} (recording : o.recording = true) (resolves : o.Resolves T flag) :
    detectingVjmp o s address inst = .ok (if o.Records s.ctx address inst flag then
      { s with vJmp := s.vJmp ++ [condition s.ctx flag] } else s) := by
  unfold detectingVjmp
  rw [recording, if_pos rfl]
  by_cases visited : o.visits address inst = true
  · rw [if_pos visited, resolves]
    simp only [native, Except.mapError, bind, Except.bind, Options.Records, visited, true_and]
    split <;> rfl
  · rw [if_neg visited]
    rw [if_neg fun records => visited records.1]
    rfl

theorem instruction_runs (o : Options) {l : Loop T} {s s' : State T} {inst : Instruction}
    (burnt : burnFuse o l.state l.fuse = .ok s) (processed : process o s inst = .ok s') :
    Dispatch.run o l (.instruction inst) = .ok { state := s', fuse := false, count := l.count + 1 } := by
  simp only [Dispatch.run, burnt, bind, Except.bind, processed]
  rfl

theorem native_ok {result : Except String α} {a : α} (ok : native result = .ok a) : result = .ok a := by
  cases result with
  | error message => cases ok
  | ok value =>
    cases ok
    rfl

theorem process_decoded (o : Options) (s : State T) {inst : Instruction} (decodes : T.Decodes inst) :
    process o s inst = detectingVjmp o { s with ctx := (T.processing s.ctx inst).1 } inst.address
      (T.processing s.ctx inst).2 := by
  rw [process, decodes]
  rfl

/-- What was processed was disassembled, and then the recorder saw it. -/
theorem process_ok {o : Options} {s s' : State T} {inst : Instruction} (processed : process o s inst = .ok s') :
    T.Decodes inst ∧ detectingVjmp o { s with ctx := (T.processing s.ctx inst).1 } inst.address
      (T.processing s.ctx inst).2 = .ok s' := by
  obtain ⟨_, disassembled, detected⟩ := Outcome.bind_ok processed
  exact ⟨native_ok disassembled, detected⟩

theorem process_idle (o : Options) (s : State T) {inst : Instruction} (decodes : T.Decodes inst)
    (idle : o.recording = false) :
    ∃ s', process o s inst = .ok s' ∧ s'.ctx = (T.processing s.ctx inst).1 ∧ s'.vJmp = s.vJmp := by
  rw [process_decoded o s decodes]
  exact detectingVjmp_idle o _ inst.address _ idle

/-- A record of an instruction is done when its three steps are. -/
theorem inst_runs (o : Options) {l l' : Loop T} {s s' : State T} {regs : Gpr → BitVec 64}
    {addr : BitVec 64} {opcode : List (BitVec 8)}
    (synced : Dispatch.run o l (.syncReg (Gpr.all.map fun reg => (regs reg).toNat)) = .ok l')
    (burnt : burnFuse o l'.state l'.fuse = .ok s)
    (processed : process o s ⟨addr.toNat, opcode⟩ = .ok s') :
    replay o l [.inst regs addr opcode] = .ok { state := s', fuse := false, count := l'.count + 1 } := by
  simp only [replay_singleton, Callback.dispatches, List.foldlM_cons, List.foldlM_nil, synced, bind,
    Except.bind, instruction_runs o burnt processed]
  rfl

/-- Where the recorder is asked, the flag must be a register of the engine. -/
def Options.Answers (T : Triton) (o : Options) : Prop := o.recording = true → ∃ flag, o.Resolves T flag

theorem process_total {o : Options} (answers : o.Answers T) (s : State T) {inst : Instruction}
    (decodes : T.Decodes inst) : ∃ s', process o s inst = .ok s' := by
  cases recording : o.recording with
  | false =>
    obtain ⟨s', processed, _⟩ := process_idle o s decodes recording
    exact ⟨s', processed⟩
  | true =>
    obtain ⟨flag, resolves⟩ := answers recording
    rw [process_decoded o s decodes]
    exact ⟨_, detectingVjmp_recording o _ inst.address _ recording resolves⟩

variable (T) in
/-- The engine disassembles the bytes of an instruction record. -/
def Decodable : Callback → Prop
  | .memread _ _ _ => True
  | .inst _ addr opcode => T.Decodes ⟨addr.toNat, opcode⟩

/-- The inputs can be created, or take the values that the first register record shows. -/
def Seedable (o : Options) (ctx : T.Ctx) (calls : List Callback) : Prop :=
  T.getSymbolicVariables ctx = [] ∨ (T.getSymbolicVariables ctx = inputVariables o.symsize ∧
    ∀ regs, firstRegisters calls = some regs →
      (regs .rdi).toNat < 256 ^ o.symsize ∧ (regs .rsi).toNat < 256 ^ o.symsize)

/-- Nothing stops a replay of the records that are left. -/
structure Replayable (o : Options) (calls : List Callback) (l : Loop T) : Prop where
  sized : ∀ call ∈ calls, call.Sized
  decodable : ∀ call ∈ calls, Decodable T call
  seedable : l.fuse = true → Seedable o l.state.ctx calls

theorem Seedable.same {o : Options} {ctx ctx' : T.Ctx} {calls calls' : List Callback}
    (seedable : Seedable o ctx calls) (same : T.SameInputs ctx ctx')
    (registers : firstRegisters calls' = firstRegisters calls) : Seedable o ctx' calls' := by
  rw [Seedable, same.1, registers]
  exact seedable

section
variable (lawful : T.Lawful) {o : Options} (symsized : AccessSize o.symsize)
include lawful symsized

theorem burnFuse_total {l : Loop T} {regs : Gpr → BitVec 64} {addr : BitVec 64}
    {opcode : List (BitVec 8)} {rest : List Callback}
    (seedable : l.fuse = true → Seedable o l.state.ctx (.inst regs addr opcode :: rest))
    (registers : ∀ reg, (T.view l.state.ctx).conc (.gpr reg) = (regs reg).toNat) :
    ∃ s, burnFuse o l.state l.fuse = .ok s := by
  cases fuse : l.fuse with
  | false => exact ⟨l.state, rfl⟩
  | true =>
    have seeds : ∃ ctx', seedInputs o.symsize l.state.ctx = .ok ctx' := by
      rcases seedable fuse with unseeded | ⟨seeded, fits⟩
      · obtain ⟨ctx', seeds, _⟩ := seedInputs_fresh lawful l.state.ctx symsized unseeded
        exact ⟨ctx', seeds⟩
      · obtain ⟨ctx', seeds, _⟩ := seedInputs_again lawful l.state.ctx seeded
          (by rw [registers]; exact (fits regs rfl).1) (by rw [registers]; exact (fits regs rfl).2)
        exact ⟨ctx', seeds⟩
    obtain ⟨ctx', seeds⟩ := seeds
    exact ⟨_, burnFuse_seeds o seeds⟩

theorem call_total (answers : o.Answers T) {call : Callback} {rest : List Callback} {l : Loop T}
    (replayable : Replayable o (call :: rest) l) :
    ∃ l', replay o l [call] = .ok l' ∧ Replayable o rest l' := by
  obtain ⟨known, sized⟩ := List.forall_mem_cons.mp replayable.sized
  obtain ⟨decodes, decodable⟩ := List.forall_mem_cons.mp replayable.decodable
  cases call with
  | memread addr size mem =>
    obtain ⟨ctx', runs, _, same⟩ := memread_runs lawful o l addr mem known
    exact ⟨l.withCtx ctx', runs, sized, decodable, fun fuse => (replayable.seedable fuse).same same rfl⟩
  | inst regs addr opcode =>
    obtain ⟨ctx', synced, view, same⟩ := register_runs lawful o l regs addr opcode
    have seedable : (l.withCtx ctx').fuse = true →
        Seedable o (l.withCtx ctx').state.ctx (.inst regs addr opcode :: rest) :=
      fun fuse => (replayable.seedable fuse).same same rfl
    obtain ⟨s, burnt⟩ := burnFuse_total lawful symsized seedable (registers_shown view)
    obtain ⟨s', processed⟩ := process_total answers s decodes
    exact ⟨_, inst_runs o synced burnt processed, sized, decodable, by simp⟩

/-- A replay of records with known sizes and instructions reaches their end. -/
theorem replay_total (answers : o.Answers T) {calls : List Callback}
    (sized : ∀ call ∈ calls, call.Sized) (decodable : ∀ call ∈ calls, Decodable T call)
    {l : Loop T} (seedable : l.fuse = true → Seedable o l.state.ctx calls) :
    ∃ l', replay o l calls = .ok l' := by
  obtain ⟨l', runs, _⟩ := Outcome.foldlM_total (call_total lawful symsized answers)
    ⟨sized, decodable, seedable⟩
  exact ⟨l', (replay_eq_foldlM o l calls).trans runs⟩

end

end Devirt.Attack
