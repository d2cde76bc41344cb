import Mathlib.Data.Nat.Digits.Lemmas

/-! Positional numerals in bases up to sixteen, written most significant digit
first in either letter case and read back by one accumulating pass. -/
namespace Devirt.Numeral

def digitChar (upper : Bool) (digit : Nat) : Char :=
  if digit < 10 then Char.ofNat (48 + digit)
  else Char.ofNat ((if upper then 55 else 87) + digit)

def digitValue (char : Char) : Option Nat :=
  if 48 ≤ char.toNat ∧ char.toNat ≤ 57 then some (char.toNat - 48)
  else if 97 ≤ char.toNat ∧ char.toNat ≤ 102 then some (char.toNat - 87)
  else if 65 ≤ char.toNat ∧ char.toNat ≤ 70 then some (char.toNat - 55)
  else none

/-- Zero has one digit; no other numeral has a leading zero. -/
def write (base : Nat) (upper : Bool) (value : Nat) : List Char :=
  if value = 0 then ['0'] else (Nat.digits base value).reverse.map (digitChar upper)

/-- Read digits after a prefix whose value is `acc`. -/
def accumulate (base : Nat) (acc : Nat) : List Char → Option Nat
  | [] => some acc
  | char :: rest =>
    match digitValue char with
    | some digit => if digit < base then accumulate base (acc * base + digit) rest else none
    | none => none

theorem digitValue_digitChar (upper : Bool) {digit : Nat} (small : digit < 16) :
    digitValue (digitChar upper digit) = some digit := by
  have table : ∀ (upper : Bool) (digit : Fin 16),
      digitValue (digitChar upper digit.val) = some digit.val := by decide
  exact table upper ⟨digit, small⟩

/-- Every character a numeral is written with is a digit. -/
theorem write_digits {base : Nat} (upper : Bool) (value : Nat) (two : 1 < base) (sixteen : base ≤ 16) :
    ∀ char ∈ write base upper value, ∃ digit, char = digitChar upper digit ∧ digit < base := by
  intro char member
  unfold write at member
  split at member
  · refine ⟨0, ?_, by omega⟩
    rw [List.mem_singleton.mp member]
    rfl
  · obtain ⟨digit, present, rfl⟩ := List.mem_map.mp member
    exact ⟨digit, rfl, Nat.digits_lt_base two (List.mem_reverse.mp present)⟩

theorem write_ne_nil (base : Nat) (upper : Bool) (value : Nat) : write base upper value ≠ [] := by
  unfold write
  split
  · simp
  · rename_i positive
    simpa [Nat.digits_eq_nil_iff_eq_zero] using positive

theorem accumulate_digits {base : Nat} (upper : Bool) (sixteen : base ≤ 16) (acc : Nat)
    (digits : List Nat) (small : ∀ digit ∈ digits, digit < base) :
    accumulate base acc (digits.map (digitChar upper)) =
      some (digits.foldl (fun acc digit => acc * base + digit) acc) := by
  induction digits generalizing acc with
  | nil => rfl
  | cons digit rest ih =>
    have bound : digit < base := small digit (by simp)
    simp only [List.map_cons, accumulate, digitValue_digitChar upper (show digit < 16 by omega),
      if_pos bound, List.foldl_cons]
    exact ih _ (fun d member => small d (by simp [member]))

theorem accumulate_write {base : Nat} (upper : Bool) (value : Nat) (two : 1 < base)
    (sixteen : base ≤ 16) : accumulate base 0 (write base upper value) = some value := by
  unfold write
  split
  · rename_i zero
    simp [accumulate, digitValue, zero, show 0 < base by omega]
  · rw [accumulate_digits upper sixteen 0 _ (fun digit member =>
      Nat.digits_lt_base two (List.mem_reverse.mp member)), List.foldl_reverse]
    have folded := Nat.ofDigits_digits base value
    rw [Nat.ofDigits_eq_foldr] at folded
    simpa [Nat.add_comm, Nat.mul_comm] using folded

/-! A byte takes two hexadecimal digits, high half first. -/

/-- Padding on the left up to a minimum width. -/
def padLeft (width : Nat) (fill : Char) (text : List Char) : List Char :=
  List.replicate (width - text.length) fill ++ text

theorem padLeft_byte (upper : Bool) (byte : Nat) (small : byte < 256) :
    padLeft 2 '0' (write 16 upper byte) =
      [digitChar upper (byte / 16), digitChar upper (byte % 16)] := by
  by_cases zero : byte = 0
  · subst byte
    rfl
  by_cases low : byte < 16
  · have digits : Nat.digits 16 byte = [byte] := Nat.digits_of_lt 16 byte zero low
    have high : byte / 16 = 0 := by omega
    simp [write, zero, digits, padLeft, high, Nat.mod_eq_of_lt low]
    rfl
  · have digits : Nat.digits 16 byte = [byte % 16, byte / 16] := by
      rw [Nat.digits_def' (by decide) (by omega), Nat.digits_of_lt 16 (byte / 16) (by omega) (by omega)]
    simp [write, zero, digits, padLeft]

end Devirt.Numeral
