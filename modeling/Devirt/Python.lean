import Devirt.Text.Numeral
import Devirt.Text.Lines

/-! The Python built-ins the replay script applies to trace text. They behave as
written here on ASCII text, which is what the tracer writes. -/
namespace Devirt.Python

inductive PyError where
  | valueError
  | overflowError
  | keyError
  | fileNotFoundError
  | indexError (list : String)
  | triton (message : String)
  deriving DecidableEq, Repr

/-- The whitespace that `int` strips, and that `bytes.fromhex` skips. -/
def isSpace (char : Char) : Bool :=
  (9 ≤ char.toNat && char.toNat ≤ 13) || char == ' '

def strip (text : Text) : Text :=
  ((text.dropWhile isSpace).reverse.dropWhile isSpace).reverse

/-- Digits, where a single underscore may stand after a prefix or a digit
(`joined`) and the numeral may end after a digit (`closed`). -/
def digits (base : Nat) : (joined closed : Bool) → (acc : Nat) → Text → Option Nat
  | _, closed, acc, [] => if closed then some acc else none
  | joined, _, acc, char :: rest =>
    if char = '_' then if joined then digits base false false acc rest else none
    else match Numeral.digitValue char with
      | some digit => if digit < base then digits base true true (acc * base + digit) rest else none
      | none => none

def unsignedNumeral (base : Nat) : Text → Option Nat
  | '0' :: 'x' :: rest | '0' :: 'X' :: rest =>
    if base = 16 then digits base true false 0 rest else none
  | text => digits base false false 0 text

def signedNumeral (base : Nat) : Text → Option Int
  | '-' :: rest => (unsignedNumeral base rest).map fun value => -(value : Int)
  | '+' :: rest => (unsignedNumeral base rest).map Int.ofNat
  | text => (unsignedNumeral base text).map Int.ofNat

/-- `int(text, base)`. -/
def int (base : Nat) (text : Text) : Except PyError Int :=
  match signedNumeral base (strip text) with
  | some value => .ok value
  | none => .error .valueError

/-- The conversion of an integer handed to a native `uint` parameter. -/
def unsigned (value : Int) : Except PyError Nat :=
  if 0 ≤ value then .ok value.toNat else .error .overflowError

/-- `bytes.fromhex(text)`: two digits a byte, whitespace between bytes. -/
def fromhex : Text → Except PyError (List (BitVec 8))
  | [] => .ok []
  | char :: rest =>
    if isSpace char then fromhex rest
    else match rest with
      | [] => .error .valueError
      | next :: rest =>
        match Numeral.digitValue char, Numeral.digitValue next with
        | some high, some low => do
          let bytes ← fromhex rest
          return BitVec.ofNat 8 (high * 16 + low) :: bytes
        | _, _ => .error .valueError

/-- `text.split(sep)`. -/
def split (sep : Char) (text : Text) : List Text := text.splitOn sep

/-! What the readers make of the numerals a tracer writes. -/

theorem digits_of_accumulate {base acc : Nat} {text : Text} {value : Nat} (joined : Bool)
    (nonempty : text ≠ []) (plain : '_' ∉ text)
    (read : Numeral.accumulate base acc text = some value) :
    ∀ closed, digits base joined closed acc text = some value := by
  induction text generalizing acc joined with
  | nil => exact absurd rfl nonempty
  | cons char rest ih =>
    intro closed
    simp only [List.mem_cons, not_or] at plain
    simp only [digits, if_neg (Ne.symm plain.1)]
    rw [Numeral.accumulate] at read
    cases found : Numeral.digitValue char with
    | none =>
      rw [found] at read
      cases read
    | some digit =>
      simp only [found] at read ⊢
      split at read
      · rename_i small
        rw [if_pos small]
        cases rest with
        | nil =>
          simp only [Numeral.accumulate] at read
          simpa only [digits, if_true] using read
        | cons next rest => exact ih true (by simp) plain.2 read true
      · cases read

theorem strip_of_ends {text : Text} (tail : Text) (spaces : ∀ char ∈ tail, isSpace char = true)
    (solid : ∀ char ∈ text, isSpace char = false) (nonempty : text ≠ []) :
    strip (text ++ tail) = text := by
  have front : (text ++ tail).dropWhile isSpace = text ++ tail := by
    cases text with
    | nil => exact absurd rfl nonempty
    | cons char rest => simp [solid char (by simp)]
  have back : (tail.reverse ++ text.reverse).dropWhile isSpace = text.reverse := by
    rw [List.dropWhile_append_of_pos (fun char member => spaces char (List.mem_reverse.mp member))]
    cases reversed : text.reverse with
    | nil => rfl
    | cons char rest =>
      have member : char ∈ text := List.mem_reverse.mp (by simp [reversed])
      simp [solid char member]
  rw [strip, front, List.reverse_append, back, List.reverse_reverse]

/-- No digit is whitespace, an underscore, a sign, a colon or a line break. -/
theorem digitChar_plain (upper : Bool) {digit : Nat} (small : digit < 16) :
    isSpace (Numeral.digitChar upper digit) = false ∧
      Numeral.digitChar upper digit ∉ ['_', '-', '+', ':', '\n', '\r', 'x', 'X', ' '] := by
  have table : ∀ (upper : Bool) (digit : Fin 16),
      isSpace (Numeral.digitChar upper digit.val) = false ∧
        Numeral.digitChar upper digit.val ∉ ['_', '-', '+', ':', '\n', '\r', 'x', 'X', ' '] := by
    decide
  exact table upper ⟨digit, small⟩

theorem write_plain {base : Nat} (upper : Bool) (value : Nat) (two : 1 < base) (sixteen : base ≤ 16) :
    ∀ char ∈ Numeral.write base upper value, isSpace char = false ∧
      char ∉ ['_', '-', '+', ':', '\n', '\r', 'x', 'X', ' '] := by
  intro char member
  obtain ⟨digit, rfl, small⟩ := Numeral.write_digits upper value two sixteen char member
  exact digitChar_plain upper (by omega)

theorem digits_write {base : Nat} (upper : Bool) (value : Nat) (two : 1 < base) (sixteen : base ≤ 16)
    (joined closed : Bool) :
    digits base joined closed 0 (Numeral.write base upper value) = some value := by
  apply digits_of_accumulate joined (Numeral.write_ne_nil base upper value) _
    (Numeral.accumulate_write upper value two sixteen) closed
  intro member
  exact absurd (write_plain upper value two sixteen _ member).2 (by decide)

/-- `0x` and a hexadecimal numeral, perhaps with the line's newline. -/
theorem int_hex (upper : Bool) (value : Nat) (tail : Text)
    (spaces : ∀ char ∈ tail, isSpace char = true) :
    int 16 ('0' :: 'x' :: Numeral.write 16 upper value ++ tail) = .ok value := by
  have solid : ∀ char ∈ '0' :: 'x' :: Numeral.write 16 upper value, isSpace char = false := by
    intro char member
    simp only [List.mem_cons] at member
    rcases member with rfl | rfl | member
    · decide
    · decide
    · exact (write_plain upper value (by decide) (by decide) char member).1
  rw [int, strip_of_ends tail spaces solid (by simp)]
  simp [signedNumeral, unsignedNumeral, digits_write upper value (by decide : 1 < 16) (by decide)]

/-- A decimal numeral starts with no prefix, since its second character is a digit. -/
theorem int_decimal (value : Nat) : int 10 (Numeral.write 10 false value) = .ok value := by
  have plain := write_plain false value (show 1 < 10 by decide) (by decide)
  have stripped := strip_of_ends [] (by simp) (fun char member => (plain char member).1)
    (Numeral.write_ne_nil 10 false value)
  rw [List.append_nil] at stripped
  have read := digits_write false value (show 1 < 10 by decide) (by decide) false false
  rw [int, stripped]
  generalize Numeral.write 10 false value = text at plain read
  have unsignedRead : unsignedNumeral 10 text = some value := by
    unfold unsignedNumeral
    split
    · exact absurd (plain 'x' (by simp)).2 (by decide)
    · exact absurd (plain 'X' (by simp)).2 (by decide)
    · exact read
  have signedRead : signedNumeral 10 text = some (value : Int) := by
    unfold signedNumeral
    split
    · exact absurd (plain '-' (by simp)).2 (by decide)
    · exact absurd (plain '+' (by simp)).2 (by decide)
    · rw [unsignedRead]
      rfl
  rw [signedRead]

theorem unsigned_natCast (value : Nat) : unsigned (value : Int) = .ok value := by
  simp [unsigned]

/-- The two digits of one byte. -/
def hexByte (upper : Bool) (byte : BitVec 8) : Text :=
  [Numeral.digitChar upper (byte.toNat / 16), Numeral.digitChar upper (byte.toNat % 16)]

theorem fromhex_hexByte (upper : Bool) (byte : BitVec 8) (rest : Text) :
    fromhex (hexByte upper byte ++ rest) = (fromhex rest).map (byte :: ·) := by
  have bound := byte.isLt
  have high : byte.toNat / 16 < 16 := by omega
  have low : byte.toNat % 16 < 16 := by omega
  have skip : ¬ isSpace (Numeral.digitChar upper (byte.toNat / 16)) = true := by
    rw [(digitChar_plain upper high).1]
    decide
  have value : BitVec.ofNat 8 (byte.toNat / 16 * 16 + byte.toNat % 16) = byte := by
    rw [show byte.toNat / 16 * 16 + byte.toNat % 16 = byte.toNat by omega, BitVec.ofNat_toNat,
      BitVec.setWidth_eq]
  simp only [hexByte, List.cons_append, List.nil_append, fromhex, if_neg skip,
    Numeral.digitValue_digitChar upper high, Numeral.digitValue_digitChar upper low, value]
  cases fromhex rest <;> rfl

theorem fromhex_hexBytes (upper : Bool) (bytes : List (BitVec 8)) :
    fromhex (bytes.flatMap (hexByte upper) ++ ['\n']) = .ok bytes := by
  induction bytes with
  | nil => rfl
  | cons byte rest ih =>
    rw [List.flatMap_cons, List.append_assoc, fromhex_hexByte, ih]
    rfl

theorem hexBytes_plain (upper : Bool) (bytes : List (BitVec 8)) :
    ∀ char ∈ bytes.flatMap (hexByte upper),
      char ∉ ['_', '-', '+', ':', '\n', '\r', 'x', 'X', ' '] := by
  intro char member
  obtain ⟨byte, _, digit⟩ := List.mem_flatMap.mp member
  have bound := byte.isLt
  simp only [hexByte, List.mem_cons, List.not_mem_nil, or_false] at digit
  rcases digit with rfl | rfl
  · exact (digitChar_plain upper (by omega)).2
  · exact (digitChar_plain upper (by omega)).2

theorem split_fields {fields : List Text} (sep : Char) (plain : ∀ field ∈ fields, sep ∉ field)
    (nonempty : fields ≠ []) : split sep ([sep].intercalate fields) = fields :=
  List.splitOn_intercalate sep plain nonempty

end Devirt.Python
