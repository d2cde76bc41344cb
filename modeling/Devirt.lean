import Devirt.Text.Numeral
import Devirt.Text.Lines
import Devirt.Concolic.Store
import Devirt.Concolic.Agreement
import Devirt.Machine
import Devirt.Python
import Devirt.Tracer.Ostream
import Devirt.Tracer.Callbacks
import Devirt.Tracer.LogProofs
import Devirt.Triton
import Devirt.Attack
import Devirt.Attack.Dispatch
import Devirt.Outcome
import Devirt.Attack.Decoding
import Devirt.Attack.Resync
import Devirt.Attack.Replay
import Devirt.Attack.Invariant
import Devirt.Reference.Isa
import Devirt.Reference.Engine
import Devirt.Concolic.Tracking
import Devirt.Tracer.Runs
import Devirt.Attack.Soundness
import Devirt.Reference.Programs
import Devirt.Attack.Records
import Devirt.Attack.Seeding
import Devirt.Attack.Executions
import Devirt.Attack.Branches
import Devirt.Attack.Merging
import Devirt.Attack.Totality
import Devirt.Attack.Isolation
import Devirt.Llvm
import Devirt.Samples.Sample4
import Devirt.Samples.Sample5
import Devirt.Window
import Devirt.Tracer.Instrumentation
import Devirt.Tracer.Window
import Devirt.Concolic.Prediction
import Devirt.Attack.Prediction
import Devirt.Attack.Devirtualization
import Devirt.Attack.Accepted
import Devirt.Attack.Output
import Devirt.Attack.ReturnValue
import Devirt.Attack.Variables
import Devirt.Looking
import Devirt.Looking.Comparison
import Devirt.Tracer.Tracing
import Devirt.Toolchain
import Devirt.Reference.Solver
import Devirt.Attack.Markers
import Devirt.Attack.Redundancy
import Devirt.Samples.Sample3
import Devirt.Attack.WholeReads
import Devirt.Text.Cut
import Devirt.Attack.Torn
