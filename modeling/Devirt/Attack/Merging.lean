import Devirt.Attack.Branches

/-! The merged expression of a function with two paths, and the requests for which
there is nothing to merge on. -/
namespace Devirt.Attack.TwoReplays
open Tracer
open Python (PyError)

variable {T : Triton} {files : Files} {argv : Argv} (r : TwoReplays T files argv)

/-- Every input fits its variable. -/
def Fits (argv : Argv) (input : Valuation) : Prop :=
  ∀ known ∈ inputVariables (argv.options 1).symsize, input known.id < 2 ^ known.bitSize

/-- A function with two paths, told apart by a one-bit flag after one visit of the
branch, and one trace from each path. The two-variable flags of all other visits
are excluded. -/
structure TwoPaths (F f : Valuation → Nat) (flag : Register) (visit : Execution T) : Prop where
  resolves : (argv.options 2).Resolves T flag
  only : (r.visits.filter fun e =>
    (T.searchVariables (T.getRegisterAst e.ctx flag)).length = 2) = [visit]
  traced₁ : Fits argv r.inputs₁
  traced₂ : Fits argv (T.values visit.ctx)
  shown : ∀ input, Fits argv input → T.denote (T.getRegisterAst visit.ctx flag) input = f input
  bit : ∀ input, Fits argv input → f input < 2
  apart : f r.inputs₁ ≠ f (T.values visit.ctx)
  path₁ : ∀ input, Fits argv input → f input = f r.inputs₁ → T.denote r.ret₁ input = F input
  path₂ : ∀ input, Fits argv input → f input ≠ f r.inputs₁ → T.denote r.ret₂ input = F input

variable {r}

theorem TwoPaths.passes_iff {F f : Valuation → Nat} {flag : Register} {visit e : Execution T}
    (paths : r.TwoPaths F f flag visit) (member : e ∈ r.visits) :
    (T.searchVariables (T.getRegisterAst e.ctx flag)).length = 2 ↔ e = visit := by
  have filtered : e ∈ r.visits.filter (fun e =>
      (T.searchVariables (T.getRegisterAst e.ctx flag)).length = 2) ↔
      (T.searchVariables (T.getRegisterAst e.ctx flag)).length = 2 := by
    simp [List.mem_filter, member]
  rw [← filtered, paths.only, List.mem_singleton]

theorem TwoPaths.visited {F f : Valuation → Nat} {flag : Register} {visit : Execution T}
    (paths : r.TwoPaths F f flag visit) : visit ∈ r.visits ∧
      (T.searchVariables (T.getRegisterAst visit.ctx flag)).length = 2 := by
  have member : visit ∈ r.visits.filter fun e =>
      (T.searchVariables (T.getRegisterAst e.ctx flag)).length = 2 := by
    rw [paths.only]
    exact List.mem_singleton_self visit
  exact ⟨(List.mem_filter.mp member).1, by simpa using (List.mem_filter.mp member).2⟩

/-- Whatever was recorded is the condition of the deciding visit. -/
theorem TwoPaths.recorded {F f : Valuation → Nat} {flag : Register} {visit : Execution T}
    (paths : r.TwoPaths F f flag visit) {c : T.Ast} (member : c ∈ r.l₂.state.vJmp) :
    c = condition visit.ctx flag := by
  rw [r.vJmp_eq] at member
  obtain ⟨e, visited, recorded⟩ := List.mem_flatMap.mp member
  obtain ⟨k, kth⟩ := List.mem_iff_getElem?.mp visited
  have recording : (argv.options 2).recording = true := by
    by_contra idle
    rw [Execution.recorded_idle (by simpa using idle)] at recorded
    cases recorded
  obtain ⟨passing, failing⟩ := r.visit_recorded recording paths.resolves kth
  by_cases passes : Passes flag e
  · rw [passing passes, List.mem_singleton] at recorded
    rw [recorded, (paths.passes_iff visited).mp passes.2]
  · rw [failing passes] at recorded
    cases recorded

section
variable (lawful : T.Lawful)
include lawful

/-- The condition has the second run's polarity, so it selects the second result
exactly on the second path. -/
theorem TwoPaths.merged {F f : Valuation → Nat} {flag : Register} {visit : Execution T}
    (paths : r.TwoPaths F f flag visit) {input : Valuation} (fits : Fits argv input) :
    T.denote (T.ite (condition visit.ctx flag) r.ret₂ r.ret₁) input = F input := by
  rw [lawful.ite, condition_denote lawful, paths.shown input fits, paths.shown _ paths.traced₂]
  have bit := paths.bit input fits
  have bit₁ := paths.bit r.inputs₁ paths.traced₁
  have bit₂ := paths.bit (T.values visit.ctx) paths.traced₂
  have apart := paths.apart
  by_cases second : f input = f (T.values visit.ctx)
  · rw [if_pos second, if_neg (by decide)]
    exact paths.path₂ input fits (by omega)
  · rw [if_neg second, if_pos rfl]
    exact paths.path₁ input fits (by omega)

/-- The expression passed on agrees with the function on every input, so neither
the traced inputs nor the order of the traces matter. It is passed on whenever the
deciding instruction counts as symbolized. -/
theorem merged_correct {F f : Valuation → Nat} {flag : Register} {visit : Execution T}
    (paths : r.TwoPaths F f flag visit) :
    (∀ s e, analysisExpr T files argv [] = .ok (s, e) →
      ∀ input, Fits argv input → T.denote e input = F input) ∧
    ((argv.options 2).recording = true → visit.inst.isSymbolized = true →
      ∃ s e, analysisExpr T files argv [] = .ok (s, e)) ∧
    ∀ {files' argv'} (r' : TwoReplays T files' argv') {flag' visit'}, r'.TwoPaths F f flag' visit' →
      ∀ s e s' e', analysisExpr T files argv [] = .ok (s, e) →
        analysisExpr T files' argv' [] = .ok (s', e') →
        ∀ input, Fits argv input → Fits argv' input → T.denote e input = T.denote e' input := by
  have agrees : ∀ {files argv} {r : TwoReplays T files argv} {flag visit}, r.TwoPaths F f flag visit →
      ∀ s e, analysisExpr T files argv [] = .ok (s, e) →
        ∀ input, Fits argv input → T.denote e input = F input := by
    intro files argv r flag visit paths s e passed input fits
    rw [r.merge_eq] at passed
    cases vJmp : r.l₂.state.vJmp with
    | nil =>
      rw [vJmp] at passed
      cases passed
    | cons c rest =>
      rw [vJmp] at passed
      have first : c = condition visit.ctx flag :=
        paths.recorded (by rw [vJmp]; exact List.mem_cons_self)
      cases passed
      rw [first]
      exact paths.merged lawful fits
  refine ⟨agrees paths, fun recording symbolized => ?_, ?_⟩
  · obtain ⟨visited, two⟩ := paths.visited
    obtain ⟨k, kth⟩ := List.mem_iff_getElem?.mp visited
    have entry : condition visit.ctx flag ∈ r.l₂.state.vJmp := by
      rw [r.vJmp_eq]
      apply List.mem_flatMap.mpr
      refine ⟨visit, visited, ?_⟩
      rw [(r.visit_recorded recording paths.resolves kth).1 ⟨symbolized, two⟩]
      exact List.mem_singleton_self _
    rw [r.merge_eq]
    cases vJmp : r.l₂.state.vJmp with
    | nil =>
      rw [vJmp] at entry
      cases entry
    | cons c rest => exact ⟨_, _, rfl⟩
  · intro files' argv' r' flag' visit' paths' s e s' e' passed passed' input fits fits'
    exact (agrees paths s e passed input fits).trans (agrees paths' s' e' passed' input fits').symm

end

/-- A record of the instruction at `address` is one of an instruction that computes the carry flag. -/
def computesCarry (address : Nat) : Dispatch → Bool
  | .instruction inst => decide (inst.address = address → (Reference.effectOn inst (.flag .cf)).isSome = true)
  | _ => true

open Reference in
set_option maxRecDepth 10000 in
theorem maxReplays_flag {visit : Execution engine} (visited : visit ∈ maxReplays.visits)
    (input : Valuation) :
    engine.denote (engine.getRegisterAst visit.ctx .cf) input < 2 := by
  obtain ⟨executed, here⟩ := List.mem_filter.mp visited
  obtain ⟨ctx, inst, present, rfl⟩ := mem_executions executed
  have writes : (maxReplays.calls₂.flatMap Callback.dispatches).all (computesCarry 0x401000) = true := by
    decide +kernel
  have address : inst.address = 0x401000 := by
    have same := Option.some.inj (of_decide_eq_true here)
    exact (Int.ofNat.inj same).symm
  exact cf_lt_two (of_decide_eq_true (List.all_eq_true.mp writes _ present) address) input

open Reference in
theorem fits_request {vbraddr : Option Int} {input : Valuation} (first : input 0 < 2 ^ 32)
    (second : input 1 < 2 ^ 32) : Fits (request vbraddr) input := by
  intro known member
  simp only [request, Argv.options, inputVariables, List.mem_cons, List.not_mem_nil, or_false] at member
  rcases member with rfl | rfl
  · exact first
  · exact second

open Reference in
set_option maxRecDepth 10000 in
/-- The larger of two numbers, from one trace for each order of them. -/
theorem merged_correct_max :
    ∃ F : Valuation → Nat, F (pair 9 4) = 9 ∧ F (pair 4 9) = 9 ∧ F (pair 7 7) = 7 ∧
      ∃ s e, analysisExpr engine (tracedFiles (trace maxProgram 10 (twoArguments 5 3))
          (trace maxProgram 10 (twoArguments 3 5))) (request (some 0x401000)) [] = .ok (s, e) ∧
        ∀ input, Fits (request (some 0x401000)) input → engine.denote e input = F input := by
  let r := maxReplays
  let f (e : Execution engine) : Valuation → Nat := engine.denote (engine.getRegisterAst e.ctx .cf)
  let F (e : Execution engine) (input : Valuation) : Nat :=
    if f e input = f e r.inputs₁ then engine.denote r.ret₁ input else engine.denote r.ret₂ input
  obtain ⟨visit, single⟩ := List.length_eq_one_iff.mp (show r.visits.length = 1 by decide +kernel)
  have value : ∀ {n input}, r.visits.map (fun e => F e input) = [n] → F visit input = n := by
    intro n input same
    rw [single] at same
    exact List.head_eq_of_cons_eq same
  have facts : (r.visits.map fun e => (e.inst.isSymbolized,
      decide ((engine.searchVariables (engine.getRegisterAst e.ctx .cf)).length = 2),
      engine.values e.ctx 0, engine.values e.ctx 1,
      decide (f e r.inputs₁ = f e (engine.values e.ctx)))) = [(true, true, 3, 5, false)] := by decide +kernel
  rw [single, List.map_singleton] at facts
  obtain ⟨symbolized, two, x, y, apart⟩ : _ ∧ _ ∧ _ ∧ _ ∧ _ := by
    simpa only [List.cons.injEq, Prod.mk.injEq, and_true] using facts
  have paths : r.TwoPaths (F visit) (f visit) .cf visit := by
    refine ⟨rfl, ?_, fits_request ?_ ?_, fits_request ?_ ?_, fun _ _ => rfl, fun input _ => ?_,
      of_decide_eq_false apart, fun _ _ same => (if_pos same).symm, fun _ _ other => (if_neg other).symm⟩
    · rw [single]
      exact List.filter_cons_of_pos two
    · decide +kernel
    · decide +kernel
    · rw [x]
      decide
    · rw [y]
      decide
    · apply maxReplays_flag
      rw [show maxReplays.visits = [visit] from single]
      exact List.mem_singleton_self visit
  obtain ⟨correct, passed, -⟩ := merged_correct engine_lawful paths
  obtain ⟨s, e, ran⟩ := passed rfl symbolized
  exact ⟨F visit, value (by decide +kernel), value (by decide +kernel), value (by decide +kernel), s, e, ran,
    correct s e ran⟩

/-! When there is no condition to merge on. -/

theorem vJmp_ne_nil_iff (r : TwoReplays T files argv) : r.l₂.state.vJmp ≠ [] ↔
    (argv.options 2).recording = true ∧ ∃ flag, (argv.options 2).Resolves T flag ∧
      ∃ visit ∈ r.visits, Passes flag visit := by
  rw [r.vJmp_eq, ne_eq, List.flatMap_eq_nil_iff]
  constructor
  · intro some
    obtain ⟨visit, visited, recorded⟩ : ∃ visit ∈ r.visits, visit.recorded (argv.options 2) ≠ [] := by
      simpa using some
    have recording : (argv.options 2).recording = true := by
      by_contra idle
      exact recorded (Execution.recorded_idle (by simpa using idle) visit)
    obtain ⟨flag, resolves⟩ : ∃ flag, (argv.options 2).Resolves T flag := by
      cases resolved : T.getRegister ((argv.options 2).vbrflag.getD "") with
      | ok flag => exact ⟨flag, resolved⟩
      | error message =>
        apply absurd _ recorded
        rw [Execution.recorded, if_pos recording, resolved]
        split <;> rfl
    obtain ⟨k, kth⟩ := List.mem_iff_getElem?.mp visited
    refine ⟨recording, flag, resolves, visit, visited, ?_⟩
    by_contra fails
    exact recorded ((r.visit_recorded recording resolves kth).2 fails)
  · rintro ⟨recording, flag, resolves, visit, visited, passes⟩ none
    obtain ⟨k, kth⟩ := List.mem_iff_getElem?.mp visited
    have empty := none visit visited
    rw [(r.visit_recorded recording resolves kth).1 passes] at empty
    cases empty

/-- The script dies at the merge exactly when nothing was recorded. -/
theorem main_error_iff (r : TwoReplays T files argv) {argv0 : String}
    (accepted : refusal argv0 argv = none) :
    main T files argv0 argv = .error (.indexError "V_JMP") ↔ r.l₂.state.vJmp = [] := by
  simp only [main, accepted, analysis]
  rw [r.merge_eq]
  cases r.l₂.state.vJmp with
  | nil => simp [bind, Except.bind]
  | cons c rest => simp [bind, Except.bind, pure, Except.pure]

/-- An accepted request whose replays finish gets past the merge exactly when it
names a branch address and a flag, and the second trace visits that address with a
symbolized instruction and a flag of exactly two variables. -/
theorem main_merges_iff (r : TwoReplays T files argv) {argv0 : String}
    (accepted : refusal argv0 argv = none) :
    main T files argv0 argv ≠ .error (.indexError "V_JMP") ↔
      (argv.options 2).recording = true ∧ ∃ flag, (argv.options 2).Resolves T flag ∧
        ∃ visit ∈ r.visits, Passes flag visit := by
  rw [ne_eq, r.main_error_iff accepted]
  exact r.vJmp_ne_nil_iff

open Reference

set_option maxRecDepth 10000 in
/-- A request that names the comparison of the two-path function. -/
theorem main_merges_max : refusal "attack_vmp.py" (request (some 0x401000)) = none ∧
    main engine (tracedFiles (trace maxProgram 10 (twoArguments 5 3)) (trace maxProgram 10 (twoArguments 3 5)))
      "attack_vmp.py" (request (some 0x401000)) ≠ .error (.indexError "V_JMP") := by
  let r := maxReplays
  have facts : (r.visits.any fun e => e.inst.isSymbolized &&
      decide ((engine.searchVariables (engine.getRegisterAst e.ctx .cf)).length = 2)) = true := by decide +kernel
  obtain ⟨visit, visited, passes⟩ := List.any_eq_true.mp facts
  rw [Bool.and_eq_true, decide_eq_true_eq] at passes
  exact ⟨rfl, (r.main_merges_iff rfl).mpr ⟨rfl, .cf, rfl, visit, visited, passes⟩⟩

set_option maxRecDepth 10000 in
/-- The same traces and flag without a branch address: the request is accepted, both
replays finish, and the merge fails. -/
theorem main_fails_without_address : refusal "attack_vmp.py" (request none) = none ∧
    main engine (tracedFiles (trace maxProgram 10 (twoArguments 5 3)) (trace maxProgram 10 (twoArguments 3 5)))
      "attack_vmp.py" (request none) = .error (.indexError "V_JMP") := by
  let r := TwoReplays.traced maxProgram none (twoArguments 5 3) (twoArguments 3 5) (by decide +kernel)
  have empty : r.l₂.state.vJmp.length = 0 := by decide +kernel
  exact ⟨rfl, (r.main_error_iff rfl).mpr (List.length_eq_zero_iff.mp empty)⟩

end Devirt.Attack.TwoReplays
