import Mathlib.Data.List.Basic

/-! Texts as character lists, cut into newline-terminated lines. A text glued
from whole lines is cut back into exactly those lines. -/
namespace Devirt

abbrev Text := List Char

namespace Text

/-- A text of ASCII characters. -/
def Ascii : Type := { text : Text // ∀ char ∈ text, char.toNat < 128 }

/-- Every `\r\n` and every lone `\r` is read as one newline. -/
def universalNewlines : Text → Text
  | '\r' :: '\n' :: rest => '\n' :: universalNewlines rest
  | '\r' :: rest => '\n' :: universalNewlines rest
  | char :: rest => char :: universalNewlines rest
  | [] => []

/-- Cut after every newline. The last line may lack its newline. -/
def lines : Text → List Text
  | [] => []
  | char :: rest =>
    if char = '\n' then ['\n'] :: lines rest
    else match lines rest with
      | [] => [[char]]
      | line :: more => (char :: line) :: more

theorem universalNewlines_of_no_return {text : Text} (plain : '\r' ∉ text) :
    universalNewlines text = text := by
  induction text with
  | nil => rfl
  | cons char rest ih =>
    simp only [List.mem_cons, not_or] at plain
    rw [universalNewlines.eq_3 _ _ (fun _ same => absurd same.symm plain.1)
      (fun same => plain.1 same.symm), ih plain.2]

theorem lines_cons_line {body : Text} (rest : Text) (whole : '\n' ∉ body) :
    lines (body ++ '\n' :: rest) = (body ++ ['\n']) :: lines rest := by
  induction body with
  | nil => simp [lines]
  | cons char body ih =>
    simp only [List.mem_cons, not_or] at whole
    simp only [List.cons_append, lines, ih whole.2, if_neg (Ne.symm whole.1)]

/-- A line as a file holds it: no newline but the last character. -/
def IsLine (line : Text) : Prop := ∃ body, line = body ++ ['\n'] ∧ '\n' ∉ body

theorem lines_flatten {whole : List Text} (each : ∀ line ∈ whole, IsLine line) :
    lines whole.flatten = whole := by
  induction whole with
  | nil => rfl
  | cons line rest ih =>
    obtain ⟨body, rfl, clean⟩ := each line (by simp)
    have cut := lines_cons_line rest.flatten clean
    simp only [List.flatten_cons, List.append_assoc, List.singleton_append, cut,
      ih (fun l member => each l (by simp [member]))]

end Text
end Devirt
