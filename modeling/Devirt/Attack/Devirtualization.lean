import Devirt.Attack.Prediction
import Devirt.Attack.Merging

/-! What two traces of a function with a branch are worth: the expression that `analysis`
passes on is the function itself, on every run that goes one of the two traced ways. -/
namespace Devirt

namespace Machine
open Tracer
variable {M : Machine}

theorem Logged.samePath {is : List Instruction} {s t : M.State} {calls : List Callback}
    (logged : M.Logged is s calls t) : M.SamePath is s s t := by
  induction logged with
  | done s => exact .done s s
  | next _ _ stepped _ ih => exact .next stepped stepped rfl rfl ih

/-- A log ends with the record of the last instruction. -/
theorem Logged.ends {is : List Instruction} {s t : M.State} {calls : List Callback}
    (logged : M.Logged is s calls t) (some : is ≠ []) :
    ∃ before regs addr opcode, calls = before ++ [.inst regs addr opcode] := by
  induction logged with
  | done s => exact absurd rfl some
  | @next i is s s' t reads calls _ _ _ rest ih =>
    by_cases last : is = []
    · subst last
      cases rest
      exact ⟨reads, _, _, _, rfl⟩
    · obtain ⟨before, regs, addr, opcode, rfl⟩ := ih last
      exact ⟨reads ++ M.record i s :: before, regs, addr, opcode, by simp⟩

end Machine

namespace Attack
open Tracer Concolic
open Python (PyError)

variable {T : Triton} {M : Machine}

theorem Alike.trans {symsize : Nat} {s₀ s t : M.State} (first : Alike M symsize s₀ s)
    (second : Alike M symsize s t) : Alike M symsize s₀ t where
  cells c notX notY := (second.cells c notX notY).trans (first.cells c notX notY)
  rdi := second.rdi.trans first.rdi
  rsi := second.rsi.trans first.rsi

theorem Alike.refl (symsize : Nat) (s : M.State) : Alike M symsize s s := ⟨fun _ _ _ => rfl, rfl, rfl⟩

theorem ArgumentsFit.left {o : Options} {first second : List Callback}
    (fits : ArgumentsFit o (first ++ second)) : ArgumentsFit o first := by
  intro regs found
  apply fits regs
  induction first with
  | nil => cases found
  | cons call rest ih =>
    cases call with
    | memread addr size mem => exact ih fits found
    | inst regs addr opcode => exact found

namespace TwoReplays
variable {files : Files} {argv : Argv} (r : TwoReplays T files argv)

variable (M) in
/-- Two traced runs with a common beginning. Its last instruction is the first visit of
the branch address that the recorder takes, and the flag that it looks at decides
how a run goes on. -/
structure Forked (flag : Register) where
  common : List Instruction
  path₁ : List Instruction
  path₂ : List Instruction
  nonempty : common ≠ []
  s₁ : M.State
  t₁ : M.State
  s₂ : M.State
  u₂ : M.State
  t₂ : M.State
  shared : List Callback
  rest : List Callback
  calls₂ : r.calls₂ = shared ++ rest
  logged₁ : M.Logged (common ++ path₁) s₁ r.calls₁ t₁
  logged₂ : M.Logged common s₂ shared u₂
  onwards₂ : M.Logged path₂ u₂ rest t₂
  flags₁ : M.FlagsWritten ∅ (common ++ path₁) s₁
  flags₂ : M.FlagsWritten ∅ (common ++ path₂) s₂
  alike : Alike M (argv.options 1).symsize s₁ s₂
  fits : ArgumentsFit (argv.options 2) r.calls₂
  calm₁ : Undisturbed T M (argv.options 1) (common ++ path₁) s₁ ∅
    (Loop.start { ctx := setMode T.new, vJmp := [], stdout := [] }) r.calls₁
  calm₂ : Undisturbed T M (argv.options 2) (common ++ path₂) s₂ ∅ (Loop.start r.shared) r.calls₂
  recording : (argv.options 2).recording = true
  resolves : (argv.options 2).Resolves T flag
  written : flag.cell ∈ M.seen common s₂ shared ∅
  decides : ∀ earlier visit,
    executions (argv.options 2) (Loop.start r.shared) (shared.flatMap Callback.dispatches) =
      earlier ++ [visit] →
    (∀ e ∈ earlier, e.recorded (argv.options 2) = []) ∧ argv.vbraddr = some (visit.address : Int) ∧
      Passes flag visit

namespace Forked
variable {r} {flag : Register} (f : r.Forked M flag)

/-- The runs of the function that go one of the two traced ways. -/
def Runs (s t : M.State) : Prop :=
  ∃ u, M.SamePath f.common f.s₂ s u ∧
    (flag.part (M.cell u flag.cell) = flag.part (M.cell f.u₂ flag.cell) ∧ M.SamePath f.path₂ f.u₂ u t ∨
      flag.part (M.cell u flag.cell) ≠ flag.part (M.cell f.u₂ flag.cell) ∧
        M.SamePath (f.common ++ f.path₁) f.s₁ s t)

section
variable (lawful : T.Lawful) (inputs : ∀ ctx i, T.SameInputs ctx (T.processing ctx i).1)
  (sound : T.Sound M) (emulates : T.Emulates M) (symsized : AccessSize (argv.options 1).symsize)
include lawful inputs sound emulates symsized

theorem carried₁ : Carried T M (argv.options 1) (f.common ++ f.path₁) f.s₁ f.t₁ r.calls₁
    (Loop.start { ctx := setMode T.new, vJmp := [], stdout := [] }) r.l₁ := by
  obtain ⟨i, is, same⟩ := List.exists_cons_of_ne_nil f.nonempty
  have logged := f.logged₁
  have flags := f.flags₁
  rw [same] at logged flags ⊢
  have fresh := fresh_view (s := { ctx := setMode T.new, vJmp := [], stdout := [] }) lawful rfl
  exact log_carried lawful inputs sound emulates symsized logged flags rfl (Or.inl ⟨fresh.2.2, fresh.2.1⟩) r.run₁

include f in
/-- The second replay finds the inputs that the first one has created. -/
theorem shared_known : T.getSymbolicVariables (Loop.start r.shared).state.ctx =
    inputVariables (argv.options 2).symsize :=
  (f.carried₁ lawful inputs sound emulates symsized).known

/-- The second replay up to the branch. -/
theorem carried_shared {l : Loop T} (ran : replay (argv.options 2) (Loop.start r.shared) f.shared = .ok l) :
    Carried T M (argv.options 2) f.common f.s₂ f.u₂ f.shared (Loop.start r.shared) l := by
  obtain ⟨i, is, same⟩ := List.exists_cons_of_ne_nil f.nonempty
  have known := f.shared_known lawful inputs sound emulates symsized
  have symsized₂ : AccessSize (argv.options 2).symsize := symsized
  have fits := f.fits
  have logged := f.logged₂
  have flags : M.FlagsWritten ∅ f.common f.s₂ := f.flags₂.left
  rw [f.calls₂] at fits
  rw [same] at logged flags ⊢
  exact log_carried lawful inputs sound emulates symsized₂ logged flags rfl (Or.inr ⟨known, fits.left⟩) ran

theorem carried₂ : Carried T M (argv.options 2) (f.common ++ f.path₂) f.s₂ f.t₂ r.calls₂
    (Loop.start r.shared) r.l₂ := by
  obtain ⟨i, is, same⟩ := List.exists_cons_of_ne_nil f.nonempty
  have known := f.shared_known lawful inputs sound emulates symsized
  have symsized₂ : AccessSize (argv.options 2).symsize := symsized
  have logged := f.logged₂.append f.onwards₂
  have flags := f.flags₂
  rw [← f.calls₂] at logged
  rw [same] at logged flags ⊢
  exact log_carried lawful inputs sound emulates symsized₂ logged flags rfl (Or.inr ⟨known, f.fits⟩) r.run₂

end

/-- The merge takes the condition on the flag as the common beginning leaves it. -/
theorem merges : ∃ l s', replay (argv.options 2) (Loop.start r.shared) f.shared = .ok l ∧
    analysisExpr T files argv [] = .ok (s', T.ite (condition l.state.ctx flag) r.ret₂ r.ret₁) ∧
    s'.ctx = r.l₂.state.ctx := by
  have run₂ : replay (argv.options 2) (Loop.start r.shared) r.calls₂ = .ok r.l₂ := r.run₂
  rw [f.calls₂, replay_append] at run₂
  obtain ⟨l, shared, rest⟩ := Outcome.bind_ok run₂
  obtain ⟨before, regs, addr, opcode, ends⟩ := f.logged₂.ends f.nonempty
  have last := shared
  rw [ends] at last
  obtain ⟨earlier, visit, executed, here⟩ := executions_last last
  rw [← ends] at executed
  obtain ⟨silent, address, passes⟩ := f.decides earlier visit executed
  have records : (argv.options 2).Records visit.ctx visit.address visit.inst flag := by
    refine ⟨?_, passes.2⟩
    simp [Options.visits, Argv.options, passes.1, address]
  have recorded : visit.recorded (argv.options 2) = [condition l.state.ctx flag] := by
    rw [Execution.recorded_eq f.recording f.resolves, if_pos records, here]
  have idle : r.shared.vJmp = [] := executions_idle (o := argv.options 1) rfl r.run₁
  have vJmp : l.state.vJmp = [condition l.state.ctx flag] := by
    rw [executions_vJmp shared, executed, List.flatMap_append, List.flatMap_eq_nil_iff.mpr silent,
      List.flatMap_singleton, recorded]
    exact congrArg (· ++ _) idle
  have merged := r.merge_eq
  rw [executions_vJmp rest, vJmp] at merged
  exact ⟨l, _, shared, merged, rfl⟩

section
variable (lawful : T.Lawful) (inputs : ∀ ctx i, T.SameInputs ctx (T.processing ctx i).1)
  (sound : T.Sound M) (emulates : T.Emulates M) (symsized : AccessSize (argv.options 1).symsize)
include lawful inputs sound emulates symsized

end

end Forked
end TwoReplays

open Reference

theorem twoArguments_alike (x y x' y' : Nat) (c : Cell) (notX : c ≠ .gpr .rdi) (notY : c ≠ .gpr .rsi) :
    (twoArguments x' y').cell c = (twoArguments x y).cell c := by
  cases c with
  | gpr reg => cases reg <;> first | rfl | contradiction
  | flag f => rfl
  | mem addr => rfl

namespace TwoReplays

set_option maxRecDepth 10000 in
/-- What the first replay leaves in the registers is not what the second call starts with. -/
theorem maxReplays_registers : ∀ regs, firstRegisters maxReplays.calls₂ = some regs → ∀ reg, reg ≠ .rdi →
    reg ≠ .rsi → (engine.view maxReplays.shared.ctx).conc (.gpr reg) = (regs reg).toNat →
    (engine.view maxReplays.shared.ctx).sym (.gpr reg) = none := by
  have plain : ∀ regs ∈ firstRegisters maxReplays.calls₂, Gpr.all.all (fun reg => reg = .rdi || reg = .rsi ||
      (engine.view maxReplays.shared.ctx).conc (.gpr reg) ≠ (regs reg).toNat ||
      ((engine.view maxReplays.shared.ctx).sym (.gpr reg)).isNone) = true := by
    decide +kernel
  intro regs found reg notX notY equal
  have here := List.all_eq_true.mp (plain regs found) reg (Gpr.mem_all reg)
  simpa [notX, notY, equal] using here

set_option maxRecDepth 10000 in
theorem maxReplays_decides : ∀ earlier visit,
    executions ((request (some 0x401000)).options 2) (Loop.start maxReplays.shared)
      ((trace maxProgram 1 (twoArguments 3 5)).flatMap Callback.dispatches) = earlier ++ [visit] →
    earlier = [] ∧ visit.address = 0x401000 ∧ Passes .cf visit := by
  have facts : ((executions ((request (some 0x401000)).options 2) (Loop.start maxReplays.shared)
      ((trace maxProgram 1 (twoArguments 3 5)).flatMap Callback.dispatches)).map fun e =>
        (e.address, e.inst.isSymbolized,
          (engine.searchVariables (engine.getRegisterAst e.ctx .cf)).length)) = [(0x401000, true, 2)] := by
    decide +kernel
  intro earlier visit split
  rw [split, List.map_append, List.map_singleton] at facts
  obtain ⟨before, here⟩ := List.append_inj' (facts.trans (List.nil_append _).symm) rfl
  simp only [List.cons.injEq, Prod.mk.injEq, and_true] at here
  exact ⟨List.map_eq_nil_iff.mp before, here.1, here.2.1, here.2.2⟩

set_option maxRecDepth 10000 in
/-- The two calls part after the comparison. -/
def maxForked : maxReplays.Forked (machine maxProgram) .cf where
  common := maxProgram.take 1
  path₁ := [maxProgram[1], maxProgram[2]]
  path₂ := [maxProgram[1], maxProgram[3]]
  nonempty := by decide
  s₁ := twoArguments 5 3
  t₁ := final maxProgram 10 (twoArguments 5 3)
  s₂ := twoArguments 3 5
  u₂ := final maxProgram 1 (twoArguments 3 5)
  t₂ := final maxProgram 9 (final maxProgram 1 (twoArguments 3 5))
  shared := trace maxProgram 1 (twoArguments 3 5)
  rest := trace maxProgram 9 (final maxProgram 1 (twoArguments 3 5))
  calls₂ := rfl
  logged₁ := trace_logged (by decide) 10 (twoArguments 5 3)
  logged₂ := trace_logged (by decide) 1 (twoArguments 3 5)
  onwards₂ := trace_logged (by decide) 9 (final maxProgram 1 (twoArguments 3 5))
  flags₁ := flagsWritten_of_ordered [] (by decide) (by simp) _
  flags₂ := flagsWritten_of_ordered [] (by decide) (by simp) _
  alike := ⟨twoArguments_alike 5 3 3 5, by decide, by decide⟩
  fits := by decide +kernel
  calm₁ := .of_registers engine_lawful (by decide +kernel) fun _ _ _ _ _ _ _ => rfl
  calm₂ := .of_registers engine_lawful (by decide +kernel) fun _ => maxReplays_registers
  recording := rfl
  resolves := rfl
  written := by
    have written : (effectOn maxProgram[0] (.flag .cf)).isSome = true := by decide
    have stepped : (machine maxProgram).exec maxProgram[0] (twoArguments 3 5) =
        some (step maxProgram[0] (twoArguments 3 5)) :=
      show exec maxProgram maxProgram[0] (twoArguments 3 5) = _ from if_pos ⟨by decide, rfl⟩
    have known : (machine maxProgram).seen [maxProgram[0]] (twoArguments 3 5)
        [(machine maxProgram).record maxProgram[0] (twoArguments 3 5)] ∅ = _ :=
      Machine.seen_record stepped [] ∅
    rw [show maxProgram.take 1 = [maxProgram[0]] from rfl]
    exact (congrArg (Membership.mem · (Cell.flag .cf)) known).mpr (Or.inr written)
  decides := by
    intro earlier visit split
    obtain ⟨rfl, address, passes⟩ := maxReplays_decides earlier visit split
    exact ⟨by simp, congrArg (fun n : Nat => some (n : Int)) address.symm, passes⟩

end TwoReplays

end Attack
end Devirt
