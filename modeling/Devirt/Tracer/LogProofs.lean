import Devirt.Python
import Devirt.Tracer.Callbacks

/-! The exact text of the tracer's records. Each callback leaves the stream as it
found it, but for the fill character, so a record never depends on the records
before it. -/
namespace Devirt.Tracer
open Devirt.Python (hexByte)
open Ostream (cerr_tidy)

def hexField (upper : Bool) (value : Nat) : Text := '0' :: 'x' :: Numeral.write 16 upper value

/-- The value field of a memory record, empty for a size without a case. -/
def payload (upper : Bool) (mem : BitVec 64 → BitVec 8) (addr : BitVec 64) (size : Nat) : Text :=
  if size ∈ [1, 2, 4, 8] then hexField upper (load mem addr size) else []

def memreadFields (upper : Bool) (addr : BitVec 64) (size : Nat) (mem : BitVec 64 → BitVec 8) :
    List Text :=
  [['m', 'r'], hexField upper addr.toNat, Numeral.write 10 false size,
    payload upper mem addr size ++ ['\n']]

def registerFields (upper : Bool) (ctx : Gpr → BitVec 64) : List Text :=
  ['r'] :: Gpr.all.map fun reg =>
    hexField upper (ctx reg).toNat ++ if reg = .r15 then ['\n'] else []

def instFields (upper : Bool) (addr : BitVec 64) (opcode : List (BitVec 8)) : List Text :=
  [['i'], hexField upper addr.toNat, Numeral.write 10 false opcode.length,
    opcode.flatMap (hexByte true) ++ ['\n']]

def line (fields : List Text) : Text := [':'].intercalate fields

/-- The lines one callback writes. -/
def Callback.lines (upper : Bool) : Callback → List Text
  | .memread addr size mem => [line (memreadFields upper addr size mem)]
  | .inst ctx addr opcode => [line (registerFields upper ctx), line (instFields upper addr opcode)]

theorem load_lt (mem : BitVec 64 → BitVec 8) (addr : BitVec 64) (size : Nat) :
    load mem addr size < 256 ^ size := by
  have bound := Nat.ofDigits_lt_base_pow_length (b := 256)
    (l := (List.range size).map fun i => (mem (addr + BitVec.ofNat 64 i)).toNat) (by decide) (by
      intro byte member
      obtain ⟨i, _, rfl⟩ := List.mem_map.mp member
      exact (mem _).isLt)
  rwa [List.length_map, List.length_range] at bound

/-- The stream state while opcode bytes are written. -/
def forBytes (out : Ostream) : Ostream := (out.uppercase.hex).setfill '0'

section
variable {out : Ostream} (tidy : out.Tidy)
include tidy

theorem Ostream.Tidy.forBytes : (forBytes out).Tidy :=
  ⟨tidy.width, tidy.showbase, tidy.showpos, tidy.left⟩

theorem put_hex (before : Text) {value : Nat} (small : value < 2 ^ 64) :
    ((((out.append before).hex.puts ['0', 'x']).putUnsigned value).dec) =
      out.dec.append (before ++ hexField out.flags.uppercase value) := by
  have inner := tidy.append before
  rw [inner.hex.puts_eq, Ostream.putUnsigned, (inner.hex.append _).puts_eq, Ostream.append_append]
  change ((out.append before).hex.append (['0', 'x'] ++ (out.append before).hex.flags.integer value)).dec = _
  rw [inner.integer_hex small]
  change (out.dec.append before).append _ = _
  rw [Ostream.append_append]
  rfl

/-- In hexadecimal a narrow signed integer shows its bits and no sign. -/
theorem put_signed_hex (before : Text) {w : Nat} (value : BitVec w) (narrow : w ≤ 64) :
    (((out.append before).hex.puts ['0', 'x']).putSigned value).dec =
      out.dec.append (before ++ hexField out.flags.uppercase value.toNat) :=
  put_hex tidy before (Nat.lt_of_lt_of_le value.isLt (Nat.pow_le_pow_right (by decide) narrow))

theorem put_decimal (before : Text) (value : Nat) :
    (out.dec.append before).putUnsigned value =
      out.dec.append (before ++ Numeral.write 10 false value) := by
  rw [Ostream.putUnsigned, (tidy.dec.append before).puts_eq, Ostream.append_append]
  congr 2
  exact (tidy.append before).integer_dec value

theorem putMemory_eq (before : Text) (addr : BitVec 64) (size : Nat) (mem : BitVec 64 → BitVec 8) :
    putMemory (out.dec.append before) addr size mem =
      out.dec.append (before ++ payload out.flags.uppercase mem addr size) := by
  have bound := load_lt mem addr
  unfold putMemory
  split
  · have small := bound 1
    rw [put_signed_hex tidy.dec _ _ (by decide), BitVec.toNat_ofNat, Nat.mod_eq_of_lt (by omega)]
    rfl
  · have small := bound 2
    rw [put_signed_hex tidy.dec _ _ (by decide), BitVec.toNat_ofNat, Nat.mod_eq_of_lt (by omega)]
    rfl
  · have small := bound 4
    rw [put_hex tidy.dec _ (by omega)]
    rfl
  · have small := bound 8
    rw [put_hex tidy.dec _ (by omega)]
    rfl
  · rename_i one two four eight
    have unsized : size ∉ [1, 2, 4, 8] := by
      simp only [List.mem_cons, List.not_mem_nil, or_false]
      rintro (h | h | h | h)
      · exact one h
      · exact two h
      · exact four h
      · exact eight h
    rw [payload, if_neg unsized, List.append_nil]

/-- A line header: the tag, an address and a decimal count. -/
theorem put_header (tag : Text) (addr : BitVec 64) (count : Nat) :
    ((((((out.puts tag).hex.puts ['0', 'x']).putUnsigned addr.toNat).dec.puts [':']).putUnsigned
        count).puts [':']) =
      out.dec.append (tag ++ hexField out.flags.uppercase addr.toNat ++ [':'] ++
        Numeral.write 10 false count ++ [':']) := by
  rw [tidy.puts_eq, put_hex tidy _ addr.isLt, (tidy.dec.append _).puts_eq, Ostream.append_append,
    put_decimal tidy, (tidy.dec.append _).puts_eq, Ostream.append_append]

theorem cbMemread_eq (addr : BitVec 64) (size : Nat) (mem : BitVec 64 → BitVec 8) :
    cbMemread out addr size mem = out.append (line (memreadFields out.flags.uppercase addr size mem)) := by
  simp only [cbMemread, put_header tidy, putMemory_eq tidy]
  simp [Ostream.endl, Ostream.setFlags, Ostream.append, Ostream.dec, line, memreadFields,
    List.intercalate]

theorem putRegister_eq (before : Text) (value : BitVec 64) :
    putRegister (out.append before) value =
      out.dec.append (before ++ ':' :: hexField out.flags.uppercase value.toNat) := by
  rw [putRegister, (tidy.append before).puts_eq, Ostream.append_append, put_hex tidy _ value.isLt]
  simp only [List.append_assoc, List.singleton_append]

theorem putRegisters_eq (before : Text) (ctx : Gpr → BitVec 64) (regs : List Gpr) :
    regs.foldl (fun out reg => putRegister out (ctx reg)) (out.dec.append before) =
      out.dec.append (before ++
        regs.flatMap fun reg => ':' :: hexField out.flags.uppercase (ctx reg).toNat) := by
  induction regs generalizing before with
  | nil => simp
  | cons reg rest ih =>
    rw [List.foldl_cons, putRegister_eq tidy.dec, Ostream.dec_dec, Ostream.dec_uppercase, ih]
    simp only [List.flatMap_cons, List.append_assoc]

theorem putByte_eq (byte : BitVec 8) : putByte out byte = (forBytes out).append (hexByte true byte) := by
  have bound := byte.isLt
  have bits : (((byte.setWidth 32).toNat : Int) % 2 ^ 64).toNat = byte.toNat := by
    rw [BitVec.toNat_setWidth, Nat.mod_eq_of_lt (by omega)]
    omega
  have signed : (forBytes out).flags.integer ((byte.setWidth 32).toNat : Int) =
      Numeral.write 16 true byte.toNat := by
    simp only [Fmtflags.integer, forBytes, Ostream.hex, Ostream.uppercase, Ostream.setfill, bits,
      tidy.showbase, Bool.false_and, Bool.false_eq_true, if_false, List.nil_append]
  have padded : ((forBytes out).setw 2).puts (Numeral.write 16 true byte.toNat) =
      { (forBytes out).append (Numeral.padLeft 2 '0' (Numeral.write 16 true byte.toNat)) with width := 0 } := by
    simp only [Ostream.puts, Ostream.setw, Ostream.append, forBytes, Ostream.hex, Ostream.uppercase,
      Ostream.setfill, tidy.left, Bool.false_eq_true, if_false, Numeral.padLeft]
  calc putByte out byte
      = ((forBytes out).setw 2).puts ((forBytes out).flags.integer ((byte.setWidth 32).toNat : Int)) := rfl
    _ = { (forBytes out).append (hexByte true byte) with width := 0 } := by
        rw [signed, padded, Numeral.padLeft_byte true byte.toNat bound]
        rfl
    _ = (forBytes out).append (hexByte true byte) :=
        congrArg (fun width => { (forBytes out).append (hexByte true byte) with width := width })
          (tidy.forBytes.append (hexByte true byte)).width.symm

theorem putBytes_eq (before : Text) (opcode : List (BitVec 8)) (nonempty : opcode ≠ []) :
    opcode.foldl putByte (out.append before) =
      (forBytes out).append (before ++ opcode.flatMap (hexByte true)) := by
  induction opcode generalizing out before with
  | nil => exact absurd rfl nonempty
  | cons byte rest ih =>
    have first : putByte (out.append before) byte = (forBytes out).append (before ++ hexByte true byte) := by
      rw [putByte_eq (tidy.append before), ← Ostream.append_append]
      rfl
    rw [List.foldl_cons, first, List.flatMap_cons]
    cases rest with
    | nil => simp
    | cons next rest =>
      rw [ih tidy.forBytes _ (by simp), List.append_assoc]
      rfl

/-- The fill character is the one change an instruction record leaves behind. -/
theorem cbInst_eq (ctx : Gpr → BitVec 64) (addr : BitVec 64) (opcode : List (BitVec 8)) :
    ∃ fill, cbInst out ctx addr opcode =
      ({ out with fill := fill }).append (line (registerFields out.flags.uppercase ctx) ++
        line (instFields out.flags.uppercase addr opcode)) := by
  have registers : (Gpr.all.foldl (fun out reg => putRegister out (ctx reg)) (out.puts ['r'])).endl =
      out.dec.append (line (registerFields out.flags.uppercase ctx)) := by
    rw [tidy.puts_eq, Gpr.all, List.foldl_cons, putRegister_eq tidy, putRegisters_eq tidy]
    simp [Ostream.endl, Ostream.append, line, registerFields, Gpr.all, List.intercalate]
  simp only [cbInst, registers, put_header (tidy.dec.append _)]
  cases opcode with
  | nil =>
    refine ⟨out.fill, ?_⟩
    simp [Ostream.endl, Ostream.setFlags, Ostream.append, Ostream.dec, line, instFields,
      List.intercalate]
  | cons byte rest =>
    refine ⟨'0', ?_⟩
    rw [Ostream.dec_append, Ostream.dec_dec, Ostream.append_append,
      putBytes_eq tidy.dec _ _ (by simp)]
    simp [Ostream.endl, Ostream.setFlags, Ostream.append, Ostream.dec, forBytes, Ostream.hex,
      Ostream.uppercase, Ostream.setfill, line, instFields, List.intercalate]

theorem Callback.run_eq (call : Callback) :
    ∃ fill, call.run out =
      ({ out with fill := fill }).append (call.lines out.flags.uppercase).flatten := by
  cases call with
  | memread addr size mem =>
    refine ⟨out.fill, ?_⟩
    simp only [Callback.run, Callback.lines, List.flatten_cons, List.flatten_nil, List.append_nil]
    exact cbMemread_eq tidy addr size mem
  | inst ctx addr opcode =>
    obtain ⟨fill, written⟩ := cbInst_eq tidy ctx addr opcode
    refine ⟨fill, ?_⟩
    simp only [Callback.run, Callback.lines, List.flatten_cons, List.flatten_nil, List.append_nil]
    exact written

end

/-- The lines of one log entry. -/
def Output.lines (upper : Bool) : Output → List Text
  | .callback call => call.lines upper
  | .foreign text => [text ++ ['\n']]

theorem Output.foldl_run (outputs : List Output) {out : Ostream} (tidy : out.Tidy) :
    (outputs.foldl Output.run out).text =
      out.text ++ (outputs.flatMap (Output.lines out.flags.uppercase)).flatten := by
  induction outputs generalizing out with
  | nil => simp
  | cons output rest ih =>
    have step : ∃ fill, output.run out =
        ({ out with fill := fill }).append (output.lines out.flags.uppercase).flatten := by
      cases output with
      | callback call => exact call.run_eq tidy
      | foreign text =>
        refine ⟨out.fill, ?_⟩
        simp [Output.run, Output.lines, Ostream.append]
    obtain ⟨fill, written⟩ := step
    have next : ({ out with fill := fill }).Tidy := ⟨tidy.width, tidy.showbase, tidy.showpos, tidy.left⟩
    rw [List.foldl_cons, written, ih (next.append _)]
    simp only [Ostream.append, List.flatMap_cons, List.flatten_append, List.append_assoc]

/-- A log file is the concatenation of its records' lines, whatever came before each. -/
theorem logFile_eq (outputs : List Output) :
    logFile outputs = (outputs.flatMap (Output.lines false)).flatten := by
  have written := Output.foldl_run outputs cerr_tidy
  simpa only [logFile, cerr, List.nil_append] using written

end Devirt.Tracer
