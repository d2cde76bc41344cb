import Devirt.Attack.Devirtualization
import Devirt.Attack.ReturnValue
import Devirt.Tracer.Tracing

/-! The tracer and the replay script together: one call of a function, executed under Pin,
and its log, given to the script as a file. -/
namespace Devirt.Toolchain
open Attack Pintool Tracer
open Python (PyError)

variable {T : Triton} {M : Machine}

section
variable (lawful : T.Lawful) (consistent : T.ProcessingConsistent) (sound : T.Sound M)
  (emulates : T.Emulates M)
include lawful consistent sound emulates

/-- From a traced call the script prints what the call returned. Its expression is the
function's result on every run that takes the same path, unless some memory record of
the log covers a symbolic byte and differs from what the replay holds. -/
theorem traced_devirtualizes {Id : Type} [DecidableEq Id] {k : Knobs} {code : Id → List (List Ins)}
    {passes : List (Pass Id)} {i : Instruction} {is : List Instruction} {s₀ t₀ : M.State}
    (traced : Traced M k code passes (i :: is) s₀ t₀) (flags : M.FlagsWritten ∅ (i :: is) s₀)
    {files : Files} {argv0 : String} {argv : Argv} (accepted : refusal argv0 argv = none)
    (symsized : AccessSize (argv.options 1).symsize) (single : argv.second = none)
    (file : files (argv.trace1.getD "") = some (traceLog k code passes)) :
    ∃ lines s' e, main T files argv0 argv = .ok (0, lines) ∧
      "[+] Return value: " ++ hex (M.cell t₀ (.gpr .rax) % 256 ^ 4) ∈ lines ∧
      "[+] Instruction executed: " ++ toString (i :: is).length ∈ lines ∧
      analysisExpr T files argv [] = .ok (s', e) ∧
      (Undisturbed T M (argv.options 1) (i :: is) s₀ ∅
          (Loop.start { ctx := setMode T.new, vJmp := [], stdout := [] })
          ((Pintool.executions k code passes).flatMap Executed.calls) →
        ∀ s t input, Alike M (argv.options 1).symsize s₀ s → M.SamePath (i :: is) s₀ s t →
          Inputs M (argv.options 1).symsize s input → T.denote e input = M.cell t (.gpr .rax) % 256 ^ 4) := by
  have logged := traced.logged
  have opened : openFile files (argv.trace1.getD "") =
      .ok (log ((Pintool.executions k code passes).flatMap Executed.calls)) := by
    rw [openFile, file]
    rfl
  obtain ⟨lines, printed, value, count⟩ := log_main lawful consistent sound emulates accepted symsized single
    opened logged flags
  obtain ⟨l, runs, analysed, _⟩ :=
    log_analysis lawful consistent sound emulates symsized single opened logged flags
  have fresh := fresh_view (s := { ctx := setMode T.new, vJmp := [], stdout := [] }) lawful rfl
  have carried := log_carried lawful consistent.inputs sound emulates symsized logged flags
    (l := Loop.start { ctx := setMode T.new, vJmp := [], stdout := [] }) rfl (Or.inl ⟨fresh.2.2, fresh.2.1⟩) runs
  refine ⟨lines, l.finish, _, printed, value, count, analysed, fun calm s t input alike path inputs => ?_⟩
  exact carried.denotes lawful calm alike path inputs (carried.registers .rax)

end

open Reference

/-- The sum and the instruction after the call, compiled as one code trace each. -/
def sumCode : Nat → List (List Ins)
  | 0 => [[⟨0x401000, [0x01, 0xf7], false, false, 0⟩, ⟨0x401002, [0x89, 0xf8], false, false, 0⟩]]
  | _ => [[⟨0x401100, [0x90], false, false, 0⟩]]

def snapshot (s : Cpu) : Snapshot where
  regs reg := BitVec.ofNat 64 (s.cell (.gpr reg))
  memoryReadEa := 0
  memoryRead2Ea := 0
  mem addr := BitVec.ofNat 8 (s.cell (.mem addr))

/-- A call of it with 1 and 2 under the tracer. -/
def sumPasses : List (Pass Nat) :=
  [⟨0, [snapshot (twoArguments 1 2), snapshot (final sumProgram 1 (twoArguments 1 2))]⟩,
   ⟨1, [snapshot (final sumProgram 2 (twoArguments 1 2))]⟩]

def sumKnobs : Knobs := { knobStart := 0x401000, knobEnd := 0x401100 }

/-- The step of an instruction without memory operands. -/
theorem runs_snapshot {program : List Instruction} {ins : Ins} {s s' t : Cpu} {es : List Executed}
    (plain : ins.isMemoryRead = false ∧ ins.hasMemoryRead2 = false)
    (memless : (readList ins.instruction).any isMem = false)
    (stepped : exec program ins.instruction s = some s') (rest : Runs (machine program) es s' t) :
    Runs (machine program) (⟨ins, snapshot s, Executed.whole ⟨ins, snapshot s, []⟩⟩ :: es) s t := by
  apply Runs.next _ stepped rest
  constructor
  · exact fun _ => rfl
  · rfl
  · intro operands
    simp [Executed.operands, plain] at operands
  · intro addr read
    have found : (readList ins.instruction).any isMem = true :=
      List.any_eq_true.mpr ⟨_, mem_readCells.mp read, rfl⟩
    rw [memless] at found
    cases found

theorem sum_traced : Traced (machine sumProgram) sumKnobs sumCode sumPasses sumProgram (twoArguments 1 2)
    (final sumProgram 2 (twoArguments 1 2)) := by
  constructor
  · exact (run_logged_iff _ false sumPasses).mp (by decide)
  · let add : Ins := ⟨0x401000, [0x01, 0xf7], false, false, 0⟩
    let mov : Ins := ⟨0x401002, [0x89, 0xf8], false, false, 0⟩
    let first := snapshot (twoArguments 1 2)
    let second := snapshot (final sumProgram 1 (twoArguments 1 2))
    refine ⟨[], [⟨add, first, Executed.whole ⟨add, first, []⟩⟩, ⟨mov, second, Executed.whole ⟨mov, second, []⟩⟩],
      [⟨⟨0x401100, [0x90], false, false, 0⟩, snapshot (final sumProgram 2 (twoArguments 1 2)), []⟩], rfl, ?_, rfl, ?_⟩
    · constructor
      · simp
      · exact ⟨_, _, rfl, rfl⟩
      · decide
      · decide
      · decide
    · have stepped :
          exec sumProgram sumProgram[0] (twoArguments 1 2) = some (final sumProgram 1 (twoArguments 1 2)) :=
        if_pos ⟨by decide, rfl⟩
      have stepped' : exec sumProgram sumProgram[1] (final sumProgram 1 (twoArguments 1 2)) =
        some (final sumProgram 2 (twoArguments 1 2)) := if_pos ⟨by decide, rfl⟩
      apply runs_snapshot ⟨rfl, rfl⟩ (by decide) stepped
      apply runs_snapshot ⟨rfl, rfl⟩ (by decide) stepped'
      exact .done _

def sumFiles : Files := fun path =>
  if path = "trace1" then some (traceLog sumKnobs sumCode sumPasses) else none

/-- One traced call, of 1 and 2, and the script prints 3 and computes all other sums. -/
theorem traced_devirtualizes_sum : ∃ lines s' e, main engine sumFiles "attack_vmp.py" single = .ok (0, lines) ∧
    "[+] Return value: " ++ hex 3 ∈ lines ∧ analysisExpr engine sumFiles single [] = .ok (s', e) ∧
    engine.denote e (pair 700 77) = 777 := by
  have accepted : refusal "attack_vmp.py" single = none := rfl
  have file : sumFiles (single.trace1.getD "") = some (traceLog sumKnobs sumCode sumPasses) := rfl
  have value : (machine sumProgram).cell (final sumProgram 2 (twoArguments 1 2)) (.gpr .rax) % 256 ^ 4 = 3 := by
    decide +kernel
  obtain ⟨lines, s', e, ran, returned, -, analysed, computes⟩ := traced_devirtualizes engine_lawful
    engine_consistent (engine_sound (by decide)) (engine_emulates sumProgram) sum_traced
    (flagsWritten_of_flagless (by decide) ∅ _) accepted (by decide) rfl file
  rw [value] at returned
  refine ⟨lines, s', e, ran, returned, analysed, ?_⟩
  have path : (machine sumProgram).SamePath sumProgram (twoArguments 1 2) (twoArguments 700 77)
      (final sumProgram 2 (twoArguments 700 77)) :=
    executed_path 2 (twoArguments 1 2) (twoArguments 700 77) (by decide +kernel)
  have sum := computes (.of_registers engine_lawful (by decide +kernel) fun _ _ _ _ _ _ _ => rfl) _ _ (pair 700 77)
    ⟨twoArguments_alike 1 2 700 77, rfl, rfl⟩ path ⟨rfl, rfl⟩
  exact sum.trans (by decide +kernel)

end Devirt.Toolchain
