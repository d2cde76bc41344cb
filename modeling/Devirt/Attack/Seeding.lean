import Devirt.Attack.Records

/-! The two ways of seeding the inputs. The first replay splices a variable into the low
bytes of RDI and one into those of RSI. A later replay sets each variable to the whole
register and puts it in place of the whole register, which comes to the same only where
the arguments leave the bytes above the variables empty. -/
namespace Devirt.Attack
open Tracer Concolic Reference

variable {T : Triton}

/-- The first instruction finds these values in RDI and RSI. -/
def Shows (ctx : T.Ctx) (rdi rsi : BitVec 64) : Prop :=
  (T.view ctx).conc (.gpr .rdi) = rdi.toNat ∧ (T.view ctx).conc (.gpr .rsi) = rsi.toNat

/-- A variable sits in the low bytes of a register that was traced with some value. -/
structure HoldsInput (symsize : Nat) (reg : Gpr) (id traced : Nat) (ctx : T.Ctx) : Prop where
  value : T.values ctx id = traced % 256 ^ symsize
  spliced : ∃ e, (T.view ctx).sym (.gpr reg) = some e ∧
    (∀ input : Valuation, input id < 256 ^ symsize →
      T.denote e input = traced / 256 ^ symsize * 256 ^ symsize + input id) ∧
    T.denote e (T.values ctx) = traced
  concrete : (T.view ctx).conc (.gpr reg) = traced

/-- Both inputs are in place, and a register record with the same two values keeps them. -/
structure Placed (symsize : Nat) (rdi rsi : BitVec 64) (ctx : T.Ctx) : Prop where
  inputs : T.getSymbolicVariables ctx = inputVariables symsize
  first : HoldsInput symsize .rdi 0 rdi.toNat ctx
  second : HoldsInput symsize .rsi 1 rsi.toNat ctx
  kept : ∀ (o : Options) (l : Loop T) (upper : Bool) (regs : Gpr → BitVec 64), l.state.ctx = ctx →
    regs .rdi = rdi → regs .rsi = rsi →
    ∃ ctx', emulateLine o l (line (registerFields upper regs)) = .ok (l.withCtx ctx') ∧
      (T.view ctx').sym (.gpr .rdi) = (T.view ctx).sym (.gpr .rdi) ∧
      (T.view ctx').sym (.gpr .rsi) = (T.view ctx).sym (.gpr .rsi)

/-- RDI and RSI hold the same values and the same functions of the inputs. -/
structure SameSeeding (symsize : Nat) (ctx ctx' : T.Ctx) : Prop where
  inputs : T.getSymbolicVariables ctx' = T.getSymbolicVariables ctx
  values : ∀ id < 2, T.values ctx' id = T.values ctx id
  concrete : ∀ reg ∈ [Gpr.rdi, Gpr.rsi], (T.view ctx').conc (.gpr reg) = (T.view ctx).conc (.gpr reg)
  symbolic : ∀ reg ∈ [Gpr.rdi, Gpr.rsi], ∀ input : Valuation, (∀ id < 2, input id < 256 ^ symsize) →
    (T.view ctx').value T.denote input (.gpr reg) = (T.view ctx).value T.denote input (.gpr reg)

/-- The low bytes of a variable's size put back under the upper ones. -/
theorem HoldsInput.of_spliced {ctx : T.Ctx} {symsize id traced : Nat} {reg : Gpr} {e : T.Ast}
    (value : T.values ctx id = traced % 256 ^ symsize)
    (held : (T.view ctx).sym (.gpr reg) = some e)
    (denotes : ∀ input : Valuation, input id < 256 ^ symsize →
      T.denote e input = traced / 256 ^ symsize * 256 ^ symsize + input id)
    (concrete : (T.view ctx).conc (.gpr reg) = traced) :
    HoldsInput symsize reg id traced ctx := by
  refine ⟨value, ⟨e, held, denotes, ?_⟩, concrete⟩
  have fits : T.values ctx id < 256 ^ symsize := by
    rw [value]
    exact low_bytes_lt traced symsize
  rw [denotes _ fits, value]
  exact Nat.div_add_mod' _ _

theorem HoldsInput.denotes {ctx : T.Ctx} {symsize id traced : Nat} {reg : Gpr}
    (holds : HoldsInput symsize reg id traced ctx) {input : Valuation} (fits : input id < 256 ^ symsize) :
    (T.view ctx).value T.denote input (.gpr reg) =
      traced / 256 ^ symsize * 256 ^ symsize + input id := by
  obtain ⟨e, held, spliced, -⟩ := holds.spliced
  rw [Store.value_of_some held, spliced input fits]

/-- Where both inputs are in place nothing depends on how they were put there. -/
theorem Placed.same {ctx ctx' : T.Ctx} {symsize : Nat} {rdi rsi : BitVec 64}
    (one : Placed symsize rdi rsi ctx) (other : Placed symsize rdi rsi ctx') :
    SameSeeding symsize ctx ctx' where
  inputs := other.inputs.trans one.inputs.symm
  values id small := by
    match id, small with
    | 0, _ => exact other.first.value.trans one.first.value.symm
    | 1, _ => exact other.second.value.trans one.second.value.symm
  concrete := by
    rw [List.forall_mem_cons, List.forall_mem_singleton]
    exact ⟨other.first.concrete.trans one.first.concrete.symm,
      other.second.concrete.trans one.second.concrete.symm⟩
  symbolic := by
    rw [List.forall_mem_cons, List.forall_mem_singleton]
    constructor
    · intro input fits
      rw [other.first.denotes (fits 0 (by decide)), one.first.denotes (fits 0 (by decide))]
    · intro input fits
      rw [other.second.denotes (fits 1 (by decide)), one.second.denotes (fits 1 (by decide))]

section
variable (lawful : T.Lawful)
include lawful

/-- The comparison with the concrete values is all that decides over the two expressions. -/
theorem Placed.of_inputs {ctx : T.Ctx} {symsize : Nat} {rdi rsi : BitVec 64}
    (inputs : T.getSymbolicVariables ctx = inputVariables symsize)
    (first : HoldsInput symsize .rdi 0 rdi.toNat ctx)
    (second : HoldsInput symsize .rsi 1 rsi.toNat ctx) : Placed symsize rdi rsi ctx := by
  refine ⟨inputs, first, second, ?_⟩
  rintro o l upper regs rfl sameX sameY
  obtain ⟨ctx', runs, view, -⟩ := registerLine_runs lawful o l upper regs 0 []
  have kept : ∀ reg, (T.view l.state.ctx).conc (.gpr reg) = (regs reg).toNat →
      (T.view ctx').sym (.gpr reg) = (T.view l.state.ctx).sym (.gpr reg) := by
    intro reg same
    rw [view, Store.resyncEach_sym, if_neg fun both => both.2 same]
  refine ⟨ctx', runs, kept .rdi ?_, kept .rsi ?_⟩
  · rw [sameX, first.concrete]
  · rw [sameY, second.concrete]

/-- The first replay's way, for registers that hold no expression yet. -/
theorem seedInputs_first {ctx : T.Ctx} {symsize : Nat} (sized : AccessSize symsize) {rdi rsi : BitVec 64}
    (unseeded : T.getSymbolicVariables ctx = []) (shows : Shows ctx rdi rsi)
    (plainX : (T.view ctx).sym (.gpr .rdi) = none) (plainY : (T.view ctx).sym (.gpr .rsi) = none) :
    ∃ ctx', seedInputs symsize ctx = .ok ctx' ∧ Placed symsize rdi rsi ctx' := by
  obtain ⟨ctx', seeds, ⟨first, second, splicesX, splicesY, view⟩, inputs, x, y⟩ :=
    seedInputs_fresh lawful ctx sized unseeded
  rw [shows.1] at x
  rw [shows.2] at y
  have concrete : (T.view ctx').conc = (T.view ctx).conc := by rw [view]
  refine ⟨ctx', seeds, .of_inputs lawful inputs ?_ ?_⟩
  · apply HoldsInput.of_spliced x (e := first)
    · simp [view]
    · intro input small
      rw [splicesX input small, Store.value_of_none plainX, shows.1]
    · exact (congrFun concrete _).trans shows.1
  · apply HoldsInput.of_spliced y (e := second)
    · simp [view]
    · intro input small
      rw [splicesY input small, Store.value_of_none plainY, shows.2]
    · exact (congrFun concrete _).trans shows.2

/-- A register without upper bytes may as well be the variable itself. -/
theorem HoldsInput.of_variable {ctx : T.Ctx} {symsize id traced : Nat} {reg : Gpr}
    (fits : traced < 256 ^ symsize) (value : T.values ctx id = traced)
    (held : (T.view ctx).sym (.gpr reg) = some (inputExpr T symsize id reg))
    (concrete : (T.view ctx).conc (.gpr reg) = traced) : HoldsInput symsize reg id traced ctx := by
  apply HoldsInput.of_spliced _ held _ concrete
  · rw [value, Nat.mod_eq_of_lt fits]
  · intro input small
    rw [byte_pow] at small
    rw [Nat.div_eq_of_lt fits, Nat.zero_mul, Nat.zero_add]
    exact lawful.astVariable (inputVariable symsize id reg) _ input small

/-- The later replays' way, for arguments that fit the variables. -/
theorem seedInputs_later {ctx : T.Ctx} {symsize : Nat} {rdi rsi : BitVec 64}
    (seeded : T.getSymbolicVariables ctx = inputVariables symsize) (shows : Shows ctx rdi rsi)
    (fitsX : rdi.toNat < 256 ^ symsize) (fitsY : rsi.toNat < 256 ^ symsize) :
    ∃ ctx', seedInputs symsize ctx = .ok ctx' ∧ Placed symsize rdi rsi ctx' := by
  obtain ⟨ctx', seeds, view, inputs, values⟩ := seedInputs_again lawful ctx seeded
    (by rw [shows.1]; exact fitsX) (by rw [shows.2]; exact fitsY)
  rw [shows.1, shows.2] at values
  have concrete : (T.view ctx').conc = (T.view ctx).conc := by rw [view]
  refine ⟨ctx', seeds, .of_inputs lawful inputs ?_ ?_⟩
  · apply HoldsInput.of_variable lawful fitsX
    · simp [values]
    · simp [view]
    · exact (congrFun concrete _).trans shows.1
  · apply HoldsInput.of_variable lawful fitsY
    · simp [values]
    · simp [view]
    · exact (congrFun concrete _).trans shows.2

end

/-- A variable that could be set to its register holds as much of it as it has room for. -/
theorem setVariable_ok (lawful : T.Lawful) (rejects : T.RejectsOrTruncates) {ctx ctx' : T.Ctx} {v : SymVar}
    (known : v ∈ T.getSymbolicVariables ctx) {value : Nat} (held : (T.view ctx).conc (.gpr v.origin) = value)
    (set : T.setConcreteVariableValue ctx v value = .ok ctx') :
    T.SetsVariable ctx ctx' v (value % 2 ^ v.bitSize) := by
  subst held
  by_cases fits : (T.view ctx).conc (.gpr v.origin) < 2 ^ v.bitSize
  · obtain ⟨done, run, becomes⟩ := lawful.setConcreteVariableValue ctx v known fits
    obtain rfl := Except.ok.inj (run.symm.trans set)
    rw [Nat.mod_eq_of_lt fits]
    exact becomes
  · rcases rejects ctx v known (Nat.le_of_not_lt fits) with ⟨message, refused⟩ | ⟨done, run, becomes⟩
    · cases refused.symm.trans set
    · obtain rfl := Except.ok.inj (run.symm.trans set)
      exact becomes

theorem Retaken.conc {symsize x y : Nat} {ctx ctx' : T.Ctx} (retaken : Retaken symsize x y ctx ctx') :
    (T.view ctx').conc (.gpr .rdi) = x ∧ (T.view ctx').conc (.gpr .rsi) = y := by
  rw [retaken.view]
  exact ⟨rfl, rfl⟩

/-- Where a later replay's seeding succeeds, both registers were cut to the variables. -/
theorem seedInputs_cut (lawful : T.Lawful) (rejects : T.RejectsOrTruncates) {ctx ctx' : T.Ctx}
    {symsize : Nat} (seeded : T.getSymbolicVariables ctx = inputVariables symsize)
    (seeds : seedInputs symsize ctx = .ok ctx') :
    Retaken symsize ((T.view ctx).conc (.gpr .rdi) % 256 ^ symsize)
      ((T.view ctx).conc (.gpr .rsi) % 256 ^ symsize) ctx ctx' := by
  have run := seeds
  rw [seedInputs_known lawful seeded] at run
  obtain ⟨ctxX, setX, run⟩ := Outcome.bind_ok run
  obtain ⟨ctxY, setY, _⟩ := Outcome.bind_ok run
  have becomesX := setVariable_ok lawful rejects (by rw [seeded]; simp [inputVariables]) rfl (native_ok setX)
  have becomesY := setVariable_ok lawful rejects (by rw [becomesX.2.1, seeded]; simp [inputVariables])
    (by rw [becomesX.1]) (native_ok setY)
  have bound : 0 < 2 ^ (8 * symsize) := Nat.two_pow_pos (8 * symsize)
  obtain ⟨again, same, retaken⟩ := seedInputs_set lawful seeded (native_ok setX) becomesX
    (native_ok setY) becomesY (Nat.mod_lt _ bound) (Nat.mod_lt _ bound)
    ((Nat.mod_le _ _).trans_lt (lawful.gpr_lt ctx .rdi))
    ((Nat.mod_le _ _).trans_lt (lawful.gpr_lt ctx .rsi))
  obtain rfl := Except.ok.inj (same.symm.trans seeds)
  rw [byte_pow]
  exact retaken

/-- The first replay's seeding always puts the inputs in place. A later one comes to the
same exactly when both arguments fit the variables: a wider one is rejected or cut. -/
theorem seedings_agree_iff (lawful : T.Lawful) (rejects : T.RejectsOrTruncates) {symsize : Nat}
    (sized : AccessSize symsize) (rdi rsi : BitVec 64) {first later : T.Ctx}
    (unseeded : T.getSymbolicVariables first = []) (plainX : (T.view first).sym (.gpr .rdi) = none)
    (plainY : (T.view first).sym (.gpr .rsi) = none) (shows_first : Shows first rdi rsi)
    (seeded : T.getSymbolicVariables later = inputVariables symsize)
    (shows_later : Shows later rdi rsi) :
    ∃ ctx, seedInputs symsize first = .ok ctx ∧ Placed symsize rdi rsi ctx ∧
      ((∃ ctx', seedInputs symsize later = .ok ctx' ∧ Placed symsize rdi rsi ctx' ∧
          SameSeeding symsize ctx ctx') ↔
        rdi.toNat < 256 ^ symsize ∧ rsi.toNat < 256 ^ symsize) := by
  obtain ⟨ctx, seeds, placed⟩ := seedInputs_first lawful sized unseeded shows_first plainX plainY
  refine ⟨ctx, seeds, placed, ?_⟩
  constructor
  · rintro ⟨ctx', seeds', placed', -⟩
    have cut := (seedInputs_cut lawful rejects seeded seeds').conc
    rw [shows_later.1, shows_later.2, placed'.first.concrete, placed'.second.concrete] at cut
    constructor
    · rw [cut.1]
      exact low_bytes_lt _ symsize
    · rw [cut.2]
      exact low_bytes_lt _ symsize
  · rintro ⟨fitsX, fitsY⟩
    obtain ⟨ctx', seeds', placed'⟩ := seedInputs_later lawful seeded shows_later fitsX fitsY
    exact ⟨ctx', seeds', placed', placed.same placed'⟩

/-- A context that shows two arguments and has some variables. -/
def showing (x y : Nat) (symbolized : List (Gpr × Nat)) : Context where
  store :=
    { conc := fun c => if c = .gpr .rdi then x else if c = .gpr .rsi then y else 0
      sym := fun _ => none }
  symbolized := symbolized
  current _ := 0

theorem seedings_agree_iff_small :
    ∃ ctx : engine.Ctx, seedInputs 4 (showing 5 7 []) = .ok ctx ∧ Placed 4 5 7 ctx ∧
      ((∃ ctx', seedInputs 4 (showing 5 7 [(.rdi, 32), (.rsi, 32)]) = .ok ctx' ∧ Placed 4 5 7 ctx' ∧
          SameSeeding 4 ctx ctx') ↔ (5 : BitVec 64).toNat < 256 ^ 4 ∧ (7 : BitVec 64).toNat < 256 ^ 4) :=
  seedings_agree_iff engine_lawful engine_rejects (by decide) 5 7 rfl rfl rfl ⟨rfl, rfl⟩ rfl ⟨rfl, rfl⟩

/-- The loop after a first replay with arguments of one byte. -/
def afterSum : Loop engine :=
  Outcome.get (replay (alone 1) (Loop.fresh start) (trace sumProgram 2 (twoArguments 1 2)))
    (by decide +kernel)

/-- The registers of a second call with a negative `char`, whose sign fills EDI. -/
def negativeCall (reg : Gpr) : BitVec 64 :=
  if reg = .rdi then 0xffffffff else if reg = .rsi then 1 else 0

/-- The second replay stops at its first instruction. -/
theorem seedings_disagree :
    ∃ ctx, emulateLine { alone 1 with execid := 2 } (Loop.fresh afterSum.state)
          (line (registerFields false negativeCall)) = .ok ((Loop.fresh afterSum.state).withCtx ctx) ∧
      engine.getSymbolicVariables ctx = inputVariables 1 ∧ Shows ctx 0xffffffff 1 ∧
      seedInputs 1 ctx = .error (.triton "value too big") ∧
      ¬ ∃ ctx', seedInputs 1 ctx = .ok ctx' ∧ Placed 1 0xffffffff 1 ctx' := by
  obtain ⟨ctx, runs, view, same⟩ := registerLine_runs engine_lawful { alone 1 with execid := 2 }
    (Loop.fresh afterSum.state) false negativeCall 0 []
  have seeded : engine.getSymbolicVariables ctx = inputVariables 1 := by
    rw [same.1]
    decide +kernel
  have shows : Shows ctx 0xffffffff 1 :=
    ⟨registers_shown view .rdi, registers_shown view .rsi⟩
  have rejected : seedInputs 1 ctx = .error (.triton "value too big") := by
    rw [seedInputs_known engine_lawful seeded, shows.1]
    rfl
  refine ⟨ctx, runs, seeded, shows, rejected, ?_⟩
  rintro ⟨ctx', seeds, -⟩
  cases rejected.symm.trans seeds

end Devirt.Attack
