import Devirt.Text.Numeral
import Devirt.Text.Lines

/-! The formatted output stream the tracer writes to. Base, letter case, fill and
width live in the stream and outlast an insertion, except the width, which every
insertion resets. -/
namespace Devirt.Tracer

inductive Base where
  | dec | hex | oct
  deriving DecidableEq, Repr

/-- The format flags consulted by text and integer insertion. -/
structure Fmtflags where
  basefield : Base
  uppercase : Bool
  showbase : Bool
  showpos : Bool
  left : Bool
  deriving DecidableEq, Repr

structure Ostream where
  flags : Fmtflags
  width : Nat
  fill : Char
  text : Text
  deriving DecidableEq, Repr

/-- A standard stream before its first insertion. -/
def cerr : Ostream where
  flags := { basefield := .dec, uppercase := false, showbase := false, showpos := false, left := false }
  width := 0
  fill := ' '
  text := []

namespace Fmtflags

/-- The characters of one integer. Only the decimal base shows a sign; the
others show the bits of the 64-bit integer. -/
def integer (flags : Fmtflags) (value : Int) : Text :=
  let bits := (value % 2 ^ 64).toNat
  match flags.basefield with
  | .dec => (if value < 0 then ['-'] else if flags.showpos then ['+'] else []) ++
      Numeral.write 10 false value.natAbs
  | .hex => (if flags.showbase && bits != 0 then ['0', if flags.uppercase then 'X' else 'x'] else []) ++
      Numeral.write 16 flags.uppercase bits
  | .oct => (if flags.showbase && bits != 0 then ['0'] else []) ++ Numeral.write 8 false bits

end Fmtflags

namespace Ostream

/-- Insert characters, padded to the stream's width. -/
def puts (out : Ostream) (text : Text) : Ostream :=
  let padding := List.replicate (out.width - text.length) out.fill
  { out with
    text := out.text ++ (if out.flags.left then text ++ padding else padding ++ text)
    width := 0 }

def putUnsigned (out : Ostream) (value : Nat) : Ostream := out.puts (out.flags.integer value)

/-- Narrow signed integers are widened without sign unless the base is decimal. -/
def putSigned {w : Nat} (out : Ostream) (value : BitVec w) : Ostream :=
  out.puts (out.flags.integer (if out.flags.basefield = .dec then value.toInt else value.toNat))

def hex (out : Ostream) : Ostream := { out with flags := { out.flags with basefield := .hex } }
def dec (out : Ostream) : Ostream := { out with flags := { out.flags with basefield := .dec } }
def uppercase (out : Ostream) : Ostream := { out with flags := { out.flags with uppercase := true } }
def setfill (out : Ostream) (fill : Char) : Ostream := { out with fill := fill }
def setw (out : Ostream) (width : Nat) : Ostream := { out with width := width }

/-- The newline is put unformatted, so no width applies to it. -/
def endl (out : Ostream) : Ostream := { out with text := out.text ++ ['\n'] }

/-- Restore saved format flags. Fill and width are not among them. -/
def setFlags (out : Ostream) (flags : Fmtflags) : Ostream := { out with flags := flags }

/-- The stream with characters added and nothing else changed. -/
def append (out : Ostream) (text : Text) : Ostream := { out with text := out.text ++ text }

@[simp] theorem append_append (out : Ostream) (first second : Text) :
    (out.append first).append second = out.append (first ++ second) := by
  simp only [append, List.append_assoc]

@[simp] theorem dec_append (out : Ostream) (text : Text) :
    (out.append text).dec = out.dec.append text := rfl
@[simp] theorem dec_dec (out : Ostream) : out.dec.dec = out.dec := rfl
@[simp] theorem dec_uppercase (out : Ostream) : out.dec.flags.uppercase = out.flags.uppercase := rfl

/-- What the tracer relies on between insertions. Base, case and fill may be anything. -/
structure Tidy (out : Ostream) : Prop where
  width : out.width = 0
  showbase : out.flags.showbase = false
  showpos : out.flags.showpos = false
  left : out.flags.left = false

theorem cerr_tidy : cerr.Tidy := ⟨rfl, rfl, rfl, rfl⟩

section
variable {out : Ostream} (tidy : out.Tidy)
include tidy

theorem Tidy.hex : out.hex.Tidy := ⟨tidy.width, tidy.showbase, tidy.showpos, tidy.left⟩
theorem Tidy.dec : out.dec.Tidy := ⟨tidy.width, tidy.showbase, tidy.showpos, tidy.left⟩

theorem Tidy.append (text : Text) : (out.append text).Tidy :=
  ⟨tidy.width, tidy.showbase, tidy.showpos, tidy.left⟩

theorem Tidy.puts_eq (text : Text) : out.puts text = out.append text := by
  simp only [Ostream.puts, Ostream.append, tidy.width, tidy.left, Nat.zero_sub, List.replicate_zero,
    List.nil_append, Bool.false_eq_true, if_false]

/-- A 64-bit value in hexadecimal, in the letter case the stream inherited. -/
theorem Tidy.integer_hex {value : Nat} (small : value < 2 ^ 64) :
    out.hex.flags.integer value = Numeral.write 16 out.flags.uppercase value := by
  have bits : ((value : Int) % 2 ^ 64).toNat = value := by omega
  simp only [Fmtflags.integer, Ostream.hex, tidy.showbase, bits, Bool.false_and, Bool.false_eq_true,
    if_false, List.nil_append]

theorem Tidy.integer_dec (value : Nat) :
    out.dec.flags.integer value = Numeral.write 10 false value := by
  simp only [Fmtflags.integer, Ostream.dec, tidy.showpos, Bool.false_eq_true, if_false,
    if_neg (Int.not_lt.mpr (Int.natCast_nonneg value)), List.nil_append, Int.natAbs_natCast]

end

end Ostream
end Devirt.Tracer
