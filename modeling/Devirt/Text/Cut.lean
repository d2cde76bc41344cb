import Devirt.Text.Numeral
import Devirt.Text.Lines

/-! Texts that end too early: what is left of lines, of fields between separators and of
numerals when a text is cut at any character. -/
namespace Devirt

namespace Text

theorem cut_append {text first rest : Text} (cut : text <+: first ++ rest) :
    text <+: first ∨ ∃ later, text = first ++ later ∧ later <+: rest := by
  rcases List.prefix_or_prefix_of_prefix cut (List.prefix_append first rest) with inside | ⟨later, rfl⟩
  · exact Or.inl inside
  · exact Or.inr ⟨later, rfl, (List.prefix_append_right_inj first).mp cut⟩

/-- Some lines are whole, and one may have lost its end. -/
theorem cut_lines {whole : List Text} {text : Text} (cut : text <+: whole.flatten) :
    ∃ kept rest short, whole = kept ++ rest ∧ text = kept.flatten ++ short ∧
      (short = [] ∨ ∃ line more, rest = line :: more ∧ short <+: line ∧ short ≠ line) := by
  induction whole generalizing text with
  | nil => exact ⟨[], [], [], rfl, List.prefix_nil.mp cut, Or.inl rfl⟩
  | cons line whole ih =>
    rw [List.flatten_cons] at cut
    rcases cut_append cut with inside | ⟨later, rfl, onwards⟩
    · by_cases same : text = line
      · exact ⟨[line], whole, [], rfl, by simp [same], Or.inl rfl⟩
      · exact ⟨[], line :: whole, text, rfl, rfl, Or.inr ⟨line, whole, rfl, inside, same⟩⟩
    · obtain ⟨kept, rest, short, rfl, rfl, ends⟩ := ih onwards
      exact ⟨line :: kept, rest, short, rfl, by simp, ends⟩

/-- What is left of a line has no newline. -/
theorem IsLine.cut {line short : Text} (whole : IsLine line) (cut : short <+: line) (shorter : short ≠ line) :
    '\n' ∉ short := by
  obtain ⟨body, rfl, plain⟩ := whole
  rcases List.prefix_concat_iff.mp cut with same | inside
  · exact absurd same shorter
  · exact fun member => plain (inside.subset member)

theorem lines_short {short : Text} (plain : '\n' ∉ short) : lines short = if short = [] then [] else [short] := by
  induction short with
  | nil => rfl
  | cons char rest ih =>
    rw [List.mem_cons, not_or] at plain
    rw [lines, if_neg (Ne.symm plain.1), ih plain.2]
    cases rest <;> rfl

theorem lines_cut {kept : List Text} {short : Text} (each : ∀ line ∈ kept, IsLine line) (plain : '\n' ∉ short) :
    lines (kept.flatten ++ short) = kept ++ if short = [] then [] else [short] := by
  induction kept with
  | nil => exact lines_short plain
  | cons line kept ih =>
    obtain ⟨body, rfl, clean⟩ := each line List.mem_cons_self
    have later := ih fun line member => each line (List.mem_cons_of_mem _ member)
    have first := lines_cons_line (kept.flatten ++ short) clean
    rw [later] at first
    simpa using first

/-- Some fields are whole, and the last one may have lost its end. -/
theorem cut_fields {sep : Char} {fields : List Text} {text : Text} (nonempty : fields ≠ [])
    (cut : text <+: [sep].intercalate fields) :
    ∃ whole field rest short, fields = whole ++ field :: rest ∧ text = [sep].intercalate (whole ++ [short]) ∧
      short <+: field := by
  induction fields generalizing text with
  | nil => exact absurd rfl nonempty
  | cons field fields ih =>
    cases fields with
    | nil =>
      rw [List.intercalate_singleton] at cut
      exact ⟨[], field, [], text, rfl, List.intercalate_singleton.symm, cut⟩
    | cons next fields =>
      rw [List.intercalate_cons_cons, List.append_assoc] at cut
      rcases cut_append cut with inside | ⟨later, rfl, onwards⟩
      · exact ⟨[], field, next :: fields, text, rfl, List.intercalate_singleton.symm, inside⟩
      · rcases List.prefix_cons_iff.mp onwards with rfl | ⟨later, rfl, shorter⟩
        · exact ⟨[], field, next :: fields, field, rfl, by simp, List.prefix_rfl⟩
        · obtain ⟨whole, last, rest, short, split, rfl, inside⟩ := ih (List.cons_ne_nil _ _) shorter
          refine ⟨field :: whole, last, rest, short, congrArg (field :: ·) split, ?_, inside⟩
          cases whole <;> rfl

end Text

namespace Numeral

theorem accumulate_le {base acc value : Nat} {text : List Char} (positive : 0 < base)
    (read : accumulate base acc text = some value) : acc ≤ value := by
  induction text generalizing acc with
  | nil =>
    cases read
    exact le_rfl
  | cons char rest ih =>
    unfold accumulate at read
    split at read
    · split at read
      · have grown := ih read
        have scaled := Nat.le_mul_of_pos_right acc positive
        omega
      · cases read
    · cases read

/-- A numeral that lost its last digits is no greater. -/
theorem accumulate_cut {base acc value : Nat} {text short : List Char} (positive : 0 < base)
    (read : accumulate base acc text = some value) (cut : short <+: text) :
    ∃ v, accumulate base acc short = some v ∧ v ≤ value := by
  induction short generalizing acc text with
  | nil => exact ⟨acc, rfl, accumulate_le positive read⟩
  | cons char short ih =>
    obtain ⟨rest, rfl⟩ := cut
    rw [List.cons_append, accumulate] at read
    rw [accumulate]
    split at read
    · split at read
      · rename_i small
        obtain ⟨v, reads, below⟩ := ih read (List.prefix_append short rest)
        exact ⟨v, by simp only [if_pos small, reads], below⟩
      · cases read
    · cases read

end Numeral
end Devirt
