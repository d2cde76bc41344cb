import Devirt.Attack.Dispatch
import Devirt.Tracer.LogProofs

/-! The replay reads back exactly what the tracer's callbacks wrote, whatever
records came before and whatever other lines stand between them. -/
namespace Devirt.Tracer
open Attack
open Python (hexByte PyError)

/-- What one callback's record asks of the replay. -/
def Callback.dispatches : Callback → List Dispatch
  | .memread addr size mem => [.syncMemory addr.toNat size (load mem addr size)]
  | .inst ctx addr opcode =>
    [.syncReg (Gpr.all.map fun reg => (ctx reg).toNat), .instruction ⟨addr.toNat, opcode⟩]

/-- Memory is read in one of the sizes that the tracer's switch knows. -/
def Callback.Sized : Callback → Prop
  | .memread _ size _ => AccessSize size
  | .inst _ _ _ => True

/-- A foreign line is whole and has no carriage return. -/
def Output.Whole : Output → Prop
  | .callback _ => True
  | .foreign text => '\n' ∉ text ∧ '\r' ∉ text

/-- A foreign line does not look like a record either. -/
def Output.Readable : Output → Prop
  | .callback call => call.Sized
  | .foreign text => ('\n' ∉ text ∧ '\r' ∉ text) ∧
      (Python.split ':' (text ++ ['\n'])).headD [] ∉ [['m', 'r'], ['r'], ['i']]

theorem Output.Readable.whole {output : Output} (readable : output.Readable) : output.Whole := by
  cases output with
  | callback call => trivial
  | foreign text => exact readable.1

def Output.calls : Output → List Callback
  | .callback call => [call]
  | .foreign _ => []

/-! The fields of a record hold no separator, so its line splits back into them. -/

def Closed (fields : List Text) : Prop := ∃ first last, fields = first ++ [last ++ ['\n']] ∧
  ∀ field ∈ first ++ [last], ∀ char ∈ field, char ∉ [':', '\n', '\r']

theorem line_newline (first : List Text) (last : Text) :
    line (first ++ [last ++ ['\n']]) = line (first ++ [last]) ++ ['\n'] := by
  induction first with
  | nil => simp [line]
  | cons field rest ih =>
    cases rest with
    | nil => simp [line, List.intercalate]
    | cons next rest =>
      simp only [line, List.cons_append, List.intercalate_cons_cons, List.append_assoc] at ih ⊢
      rw [ih]

theorem mem_line {fields : List Text} {char : Char} (member : char ∈ line fields) :
    char = ':' ∨ ∃ field ∈ fields, char ∈ field := by
  induction fields with
  | nil => simp [line] at member
  | cons field rest ih =>
    cases rest with
    | nil =>
      simp only [line, List.intercalate_singleton] at member
      exact Or.inr ⟨field, by simp, member⟩
    | cons next rest =>
      simp only [line, List.intercalate_cons_cons, List.mem_append, List.mem_singleton] at member ih
      rcases member with (here | separator) | later
      · exact Or.inr ⟨field, by simp, here⟩
      · exact Or.inl separator
      · rcases ih later with separator | ⟨found, present, inside⟩
        · exact Or.inl separator
        · exact Or.inr ⟨found, List.mem_cons_of_mem field present, inside⟩

section
variable {fields : List Text} (closed : Closed fields)
include closed

theorem Closed.split : Python.split ':' (line fields) = fields := by
  obtain ⟨first, last, rfl, plain⟩ := closed
  apply Python.split_fields ':' _ (by simp)
  intro field member separator
  simp only [List.mem_append, List.mem_singleton] at member
  rcases member with member | rfl
  · exact plain field (by simp [member]) ':' separator (by simp)
  · simp only [List.mem_append, List.mem_singleton] at separator
    rcases separator with separator | separator
    · exact plain last (by simp) ':' separator (by simp)
    · exact absurd separator (by decide)

/-- A record is one whole line that no newline translation touches. -/
theorem Closed.isLine : Text.IsLine (line fields) ∧ '\r' ∉ line fields := by
  obtain ⟨first, last, rfl, plain⟩ := closed
  have outside : ∀ char ∈ ['\n', '\r'], char ∉ line (first ++ [last]) := by
    intro char control member
    rcases mem_line member with rfl | ⟨field, present, inside⟩
    · exact absurd control (by decide)
    · exact plain field present char inside (List.mem_cons_of_mem _ control)
  refine ⟨⟨_, line_newline first last, outside _ (by simp)⟩, ?_⟩
  rw [line_newline]
  simpa using outside '\r' (by simp)

end

theorem controls {char : Char} (control : char ∈ [':', '\n', '\r']) :
    char ∈ ['_', '-', '+', ':', '\n', '\r', 'x', 'X', ' '] := by
  simp only [List.mem_cons, List.not_mem_nil, or_false] at control
  rcases control with rfl | rfl | rfl <;> decide

theorem hexField_plain (upper : Bool) (value : Nat) :
    ∀ char ∈ hexField upper value, char ∉ [':', '\n', '\r'] := by
  intro char member
  simp only [hexField, List.mem_cons] at member
  rcases member with rfl | rfl | member
  · decide
  · decide
  · have plain := (Python.write_plain upper value (by decide) (by decide) char member).2
    exact fun control => plain (controls control)

theorem decimal_plain (value : Nat) :
    ∀ char ∈ Numeral.write 10 false value, char ∉ [':', '\n', '\r'] := fun char member control =>
  (Python.write_plain false value (by decide) (by decide) char member).2 (controls control)

theorem memreadFields_closed (upper : Bool) (addr : BitVec 64) (size : Nat)
    (mem : BitVec 64 → BitVec 8) :
    Closed (memreadFields upper addr size mem) := by
  refine ⟨[['m', 'r'], hexField upper addr.toNat, Numeral.write 10 false size],
    payload upper mem addr size, rfl, ?_⟩
  intro field member
  simp only [List.cons_append, List.nil_append, List.mem_cons, List.not_mem_nil, or_false] at member
  rcases member with rfl | rfl | rfl | rfl
  · simp
  · exact hexField_plain upper _
  · exact decimal_plain size
  · unfold payload
    split
    · exact hexField_plain upper _
    · simp

theorem instFields_closed (upper : Bool) (addr : BitVec 64) (opcode : List (BitVec 8)) :
    Closed (instFields upper addr opcode) := by
  refine ⟨[['i'], hexField upper addr.toNat, Numeral.write 10 false opcode.length],
    opcode.flatMap (hexByte true), rfl, ?_⟩
  intro field member
  simp only [List.cons_append, List.nil_append, List.mem_cons, List.not_mem_nil, or_false] at member
  rcases member with rfl | rfl | rfl | rfl
  · simp
  · exact hexField_plain upper _
  · exact decimal_plain _
  · exact fun char inside control =>
      Python.hexBytes_plain true opcode char inside (controls control)

theorem registerFields_closed (upper : Bool) (ctx : Gpr → BitVec 64) :
    Closed (registerFields upper ctx) := by
  refine ⟨['r'] :: (Gpr.all.take 15).map fun reg => hexField upper (ctx reg).toNat,
    hexField upper (ctx .r15).toNat, by simp [registerFields, Gpr.all], ?_⟩
  intro field member
  simp only [List.cons_append, List.mem_cons, List.mem_append, List.mem_map, List.not_mem_nil,
    or_false] at member
  rcases member with rfl | ⟨reg, _, rfl⟩ | rfl
  · simp
  · exact hexField_plain upper _
  · exact hexField_plain upper _

theorem Callback.lines_closed (upper : Bool) (call : Callback) :
    ∀ text ∈ call.lines upper, ∃ fields, text = line fields ∧ Closed fields := by
  cases call with
  | memread addr size mem =>
    intro text member
    exact ⟨_, List.mem_singleton.mp member, memreadFields_closed upper addr size mem⟩
  | inst ctx addr opcode =>
    intro text member
    simp only [Callback.lines, List.mem_cons, List.not_mem_nil, or_false] at member
    rcases member with rfl | rfl
    · exact ⟨_, rfl, registerFields_closed upper ctx⟩
    · exact ⟨_, rfl, instFields_closed upper addr opcode⟩

theorem Output.lines_whole (upper : Bool) {output : Output} (whole : output.Whole) :
    ∀ text ∈ output.lines upper, Text.IsLine text ∧ '\r' ∉ text := by
  cases output with
  | callback call =>
    intro text member
    obtain ⟨fields, rfl, closed⟩ := call.lines_closed upper text member
    exact closed.isLine
  | foreign body =>
    intro text member
    rw [List.mem_singleton.mp member]
    exact ⟨⟨body, rfl, whole.1⟩, by simpa using whole.2⟩

end Devirt.Tracer

namespace Devirt.Attack
open Tracer
open Python (hexByte PyError)

/-- The text layer is transparent: the file is read line by line as it was written. -/
theorem readLines_logFile {outputs : List Output} (each : ∀ output ∈ outputs, output.Whole) :
    readLines (logFile outputs) = outputs.flatMap (Output.lines false) := by
  have whole : ∀ text ∈ outputs.flatMap (Output.lines false), Text.IsLine text ∧ '\r' ∉ text := by
    intro text member
    obtain ⟨output, present, inside⟩ := List.mem_flatMap.mp member
    exact output.lines_whole false (each output present) text inside
  have noReturn : '\r' ∉ (outputs.flatMap (Output.lines false)).flatten := by
    intro member
    obtain ⟨text, present, inside⟩ := List.mem_flatten.mp member
    exact (whole text present).2 inside
  rw [readLines, logFile_eq, Text.universalNewlines_of_no_return noReturn]
  exact Text.lines_flatten fun text member => (whole text member).1

theorem readLines_log (calls : List Callback) :
    readLines (log calls) = calls.flatMap (Callback.lines false) := by
  rw [log, readLines_logFile]
  · rw [List.flatMap_map]
    rfl
  · intro output member
    obtain ⟨call, _, rfl⟩ := List.mem_map.mp member
    trivial

theorem readUnsigned_hex (upper : Bool) (value : Nat) (tail : Text)
    (spaces : ∀ char ∈ tail, Python.isSpace char = true) :
    readUnsigned 16 (hexField upper value ++ tail) = .ok value := by
  have read := Python.int_hex upper value tail spaces
  rw [readUnsigned, hexField, List.cons_append, List.cons_append]
  simp only [List.cons_append] at read
  rw [read]
  exact Python.unsigned_natCast value

theorem newline_isSpace : Python.isSpace '\n' = true := rfl

theorem readUnsigned_decimal (value : Nat) :
    readUnsigned 10 (Numeral.write 10 false value) = .ok value := by
  rw [readUnsigned, Python.int_decimal]
  exact Python.unsigned_natCast value

theorem decodeLine_memread (upper : Bool) (addr : BitVec 64) {size : Nat} (mem : BitVec 64 → BitVec 8)
    (sized : AccessSize size) : decodeLine (line (memreadFields upper addr size mem)) =
      .ok (some (.syncMemory addr.toNat size (load mem addr size))) := by
  have address := readUnsigned_hex upper addr.toNat [] (by simp)
  rw [List.append_nil] at address
  have content := readUnsigned_hex upper (load mem addr size) ['\n'] (by simpa using newline_isSpace)
  rw [decodeLine, (memreadFields_closed upper addr size mem).split, memreadFields, payload,
    if_pos (show size ∈ [1, 2, 4, 8] from sized)]
  simp only [address, readUnsigned_decimal, content, bind, Except.bind]
  rfl

theorem decodeLine_inst (upper : Bool) (addr : BitVec 64) (opcode : List (BitVec 8)) :
    decodeLine (line (instFields upper addr opcode)) =
      .ok (some (.instruction ⟨addr.toNat, opcode⟩)) := by
  have address := readUnsigned_hex upper addr.toNat [] (by simp)
  rw [List.append_nil] at address
  rw [decodeLine, (instFields_closed upper addr opcode).split, instFields]
  simp only [address, Python.fromhex_hexBytes, bind, Except.bind]
  rfl

/-- Column `i` of a register record is the `i`-th register of the tracer's list. -/
theorem mapping_columns : ∀ entry ∈ mapping, Gpr.all[entry.2]? = some entry.1 := by decide

theorem mapping_registers : mapping.map Prod.fst = Gpr.all := by decide

theorem readColumns_registers (upper : Bool) (ctx : Gpr → BitVec 64) :
    readColumns (Gpr.all.map fun reg =>
      hexField upper (ctx reg).toNat ++ if reg = .r15 then ['\n'] else []) =
      .ok (Gpr.all.map fun reg => (ctx reg).toNat) := by
  have columns : ∀ entry ∈ mapping, (do readUnsigned 16 (← index "regs" (Gpr.all.map fun reg =>
      hexField upper (ctx reg).toNat ++ if reg = Gpr.r15 then ['\n'] else []) entry.2)) =
        .ok (ctx entry.1).toNat := by
    intro entry member
    simp only [index, List.getElem?_map, mapping_columns entry member, Option.map_some, bind,
      Except.bind]
    apply readUnsigned_hex
    split
    · simpa using newline_isSpace
    · simp
  rw [← mapping_registers, List.map_map, mapping_registers]
  exact Outcome.mapM_ok columns

theorem decodeLine_register (upper : Bool) (ctx : Gpr → BitVec 64) :
    decodeLine (line (registerFields upper ctx)) =
      .ok (some (.syncReg (Gpr.all.map fun reg => (ctx reg).toNat))) := by
  rw [decodeLine, (registerFields_closed upper ctx).split, registerFields]
  simp only [readColumns_registers, bind, Except.bind]
  rfl

theorem decodeLine_foreign {text : Text} (readable : (Output.foreign text).Readable) :
    decodeLine (text ++ ['\n']) = .ok none := by
  have other := readable.2
  unfold decodeLine
  split
  all_goals
    rename_i fields
    simp only [fields, List.headD_cons, List.mem_cons, List.not_mem_nil, or_false, not_or] at other
  · exact absurd trivial other.1
  · exact absurd trivial other.2.2
  · exact absurd trivial other.2.1
  · rw [if_neg (by simp only [not_or]; exact ⟨other.1, other.2.2⟩)]
  · rfl

/-- The dispatches of a log entry, one or none for each of its lines. -/
def entryDispatches : Output → List (Option Dispatch)
  | .callback call => call.dispatches.map some
  | .foreign _ => [none]

theorem decodeLines_output (upper : Bool) {output : Output} (readable : output.Readable) :
    (output.lines upper).mapM decodeLine = .ok (entryDispatches output) := by
  cases output with
  | foreign text =>
    simp only [Output.lines, List.mapM_cons, decodeLine_foreign readable]
    rfl
  | callback call =>
    cases call with
    | memread addr size mem =>
      simp only [Output.lines, Callback.lines, List.mapM_cons,
        decodeLine_memread upper addr mem readable]
      rfl
    | inst ctx addr opcode =>
      simp only [Output.lines, Callback.lines, List.mapM_cons, decodeLine_register, decodeLine_inst]
      rfl

theorem decodeLines_logFile {outputs : List Output} (readable : ∀ output ∈ outputs, output.Readable) :
    (readLines (logFile outputs)).mapM decodeLine = .ok (outputs.flatMap entryDispatches) := by
  rw [readLines_logFile fun output member => (readable output member).whole]
  exact Outcome.mapM_flatMap_ok fun output member => decodeLines_output false (readable output member)

theorem entryDispatches_filterMap (outputs : List Output) :
    (outputs.flatMap entryDispatches).filterMap id =
      (outputs.flatMap Output.calls).flatMap Callback.dispatches := by
  induction outputs with
  | nil => rfl
  | cons output rest ih =>
    rw [List.flatMap_cons, List.filterMap_append, ih, List.flatMap_cons, List.flatMap_append]
    cases output with
    | callback call => simp [entryDispatches, Output.calls, List.filterMap_map]
    | foreign text => rfl

variable {T : Triton}

/-- The loop over a log performs the dispatches of its callbacks, in their order. -/
theorem emulateLines_logFile (o : Options) (l : Loop T) {outputs : List Output}
    (readable : ∀ output ∈ outputs, output.Readable) :
    emulateLines o l (readLines (logFile outputs)) =
      ((outputs.flatMap Output.calls).flatMap Callback.dispatches).foldlM (Dispatch.run o) l := by
  rw [emulateLines_of_decoded o l (decodeLines_logFile readable), entryDispatches_filterMap]

theorem log_readable {calls : List Callback} (sized : ∀ call ∈ calls, call.Sized) :
    ∀ output ∈ calls.map Output.callback, output.Readable := by
  intro output member
  obtain ⟨call, present, rfl⟩ := List.mem_map.mp member
  exact sized call present

theorem log_calls (calls : List Callback) :
    (calls.map Output.callback).flatMap Output.calls = calls := by
  induction calls with
  | nil => rfl
  | cons call rest ih => simpa [Output.calls] using ih

theorem emulateLines_log (o : Options) (l : Loop T) {calls : List Callback}
    (sized : ∀ call ∈ calls, call.Sized) :
    emulateLines o l (readLines (log calls)) =
      (calls.flatMap Callback.dispatches).foldlM (Dispatch.run o) l := by
  rw [log, emulateLines_logFile o l (log_readable sized), log_calls]

theorem calls_sized {outputs : List Output} (readable : ∀ output ∈ outputs, output.Readable) :
    ∀ call ∈ outputs.flatMap Output.calls, call.Sized := by
  intro call member
  obtain ⟨output, present, inside⟩ := List.mem_flatMap.mp member
  have known := readable output present
  cases output with
  | callback found =>
    rw [List.mem_singleton.mp inside]
    exact known
  | foreign text => exact absurd inside List.not_mem_nil

/-- A log decodes to exactly the dispatches of the callbacks that wrote it, and
lines of other writers between the records change nothing. -/
theorem log_decodes {outputs : List Output} (readable : ∀ output ∈ outputs, output.Readable) :
    (∃ decoded, (readLines (logFile outputs)).mapM decodeLine = .ok decoded ∧
      decoded.filterMap id = (outputs.flatMap Output.calls).flatMap Callback.dispatches) ∧
    ∀ (T : Triton) (o : Options) (s : State T),
      (emulate o s (logFile outputs) = do
        let l ← ((outputs.flatMap Output.calls).flatMap Callback.dispatches).foldlM (Dispatch.run o)
          { state := s, fuse := true, count := 0 }
        return l.state.print ("[+] Instruction executed: " ++ toString l.count)) ∧
      emulate o s (logFile outputs) = emulate o s (log (outputs.flatMap Output.calls)) := by
  have sized := calls_sized readable
  refine ⟨⟨_, decodeLines_logFile readable, entryDispatches_filterMap outputs⟩, ?_⟩
  intro T o s
  simp only [emulate, emulateLines_logFile o _ readable, emulateLines_log o _ sized]
  exact ⟨trivial, trivial⟩

/-- A negative 16-bit value after a record that left the stream upper case, with a
line of the traced program between them. -/
theorem log_decodes_mixed :
    let outputs : List Output := [.callback (.inst (fun _ => 0xabcdef) 0x401000 [0x0f, 0xae]),
      .foreign ['x', ':', 'i'], .callback (.memread 0x7fff0001 2 fun _ => 0xff)]
    (∃ decoded, (readLines (logFile outputs)).mapM decodeLine = .ok decoded ∧
      decoded.filterMap id = [.syncReg (List.replicate 16 0xabcdef), .instruction ⟨0x401000, [0x0f, 0xae]⟩,
        .syncMemory 0x7fff0001 2 0xffff]) ∧
    ∀ (T : Triton) (o : Options) (s : State T), emulate o s (logFile outputs) =
      emulate o s (log (outputs.flatMap Output.calls)) := by
  intro outputs
  have readable : ∀ output ∈ outputs, output.Readable := by
    intro output member
    simp only [outputs, List.mem_cons, List.not_mem_nil, or_false] at member
    rcases member with rfl | rfl | rfl
    · trivial
    · exact ⟨⟨by decide, by decide⟩, by decide⟩
    · exact (by decide : AccessSize 2)
  exact ⟨(log_decodes readable).1, fun T o s => ((log_decodes readable).2 T o s).2⟩

end Devirt.Attack
