import ArtifactSync.Text.Lines
import Mathlib.Data.List.Infix
import Mathlib.Data.List.Count

/-!
# Places and lines

The line of a place is told by the line feeds in front of it (`lineIndex`): what stands at a place
and goes over no line end is a part of that line (`exists_line_of_prefix`).
-/

namespace ArtifactSync.Text

/-- The number of lines in front of the line of a place. -/
def lineIndex (cs : List Char) (offset : Nat) : Nat :=
  (cs.take offset).count '\n'

/-- A text contains its stretches. -/
theorem contains_iff {part cs : List Char} : contains part cs = true ↔ part <:+: cs := by
  induction cs with
  | nil => simp [contains]
  | cons c cs ih =>
    rw [contains, Bool.or_eq_true, List.isPrefixOf_iff_prefix, ih, List.infix_cons_iff]

variable {part cs : List Char}

/-- What goes over no line feed at the start of a text is in the first line. -/
theorem exists_head_linesWithEnds (hne : part ≠ []) (hpart : '\n' ∉ part) (h : part <+: cs) :
    ∃ line rest, linesWithEnds cs = line :: rest ∧ part <+: line := by
  induction part generalizing cs with
  | nil => exact absurd rfl hne
  | cons p part ih =>
    obtain ⟨hp, hpart⟩ := List.ne_and_not_mem_of_not_mem_cons hpart
    obtain ⟨behind, rfl⟩ := h
    rw [List.cons_append, linesWithEnds, if_neg (Ne.symm hp)]
    cases part with
    | nil =>
      split
      · exact ⟨[p], [], rfl, List.prefix_rfl⟩
      · next line rest _ => exact ⟨p :: line, rest, rfl, line, rfl⟩
    | cons q part =>
      obtain ⟨line, rest, hlines, hline⟩ := ih (List.cons_ne_nil q part) hpart ⟨behind, rfl⟩
      simp only [hlines]
      exact ⟨p :: line, rest, rfl, List.cons_prefix_cons.mpr ⟨rfl, hline⟩⟩

/-- What goes over no line feed at a place is in the line of the place. -/
theorem exists_linesWithEnds_of_prefix (hne : part ≠ []) (hpart : '\n' ∉ part) {offset : Nat}
    (h : part <+: cs.drop offset) :
    ∃ line, (linesWithEnds cs)[lineIndex cs offset]? = some line ∧ part <:+: line := by
  induction cs generalizing offset with
  | nil => exact absurd (List.prefix_nil.mp (List.drop_nil ▸ h)) hne
  | cons c cs ih =>
    cases offset with
    | zero =>
      obtain ⟨line, rest, hlines, hline⟩ := exists_head_linesWithEnds hne hpart (List.drop_zero ▸ h)
      rw [hlines]
      exact ⟨line, rfl, hline.isInfix⟩
    | succ offset =>
      obtain ⟨line, hline, hinfix⟩ := ih h
      rw [linesWithEnds, lineIndex, List.take_succ_cons]
      split
      · next hc =>
        rw [hc, List.count_cons_self]
        exact ⟨line, hline, hinfix⟩
      · next hc =>
        rw [List.count_cons_of_ne hc]
        change (linesWithEnds cs)[List.count '\n' (cs.take offset)]? = some line at hline
        cases hlines : linesWithEnds cs with
        | nil =>
          rw [hlines] at hline
          cases hline
        | cons head rest =>
          rw [hlines] at hline
          -- only the first line is longer by a character
          cases hcount : (cs.take offset).count '\n' with
          | zero =>
            rw [hcount] at hline
            cases hline
            exact ⟨c :: line, rfl, hinfix.trans (List.suffix_cons c line).isInfix⟩
          | succ n =>
            rw [hcount] at hline
            exact ⟨line, hline, hinfix⟩

/-- A part without line ends is not in the end of a line. -/
theorem infix_dropLineEnd {line : List Char} (hfeed : '\n' ∉ part) (hreturn : '\r' ∉ part)
    (h : part <:+: line) : part <:+: dropLineEnd line := by
  have hfront {c : Char} {front : List Char} (hc : c ∉ part) (h : part <:+: front ++ [c]) :
      part <:+: front := by
    rcases List.infix_concat_iff.mp h with hend | hin
    · rcases List.suffix_concat_iff.mp hend with rfl | ⟨t, rfl, -⟩
      · exact List.nil_infix
      · simp at hc
    · exact hin
  rw [← List.reverse_reverse line] at h
  rw [dropLineEnd]
  split
  · next rest hline =>
    rw [hline, List.reverse_cons, List.reverse_cons] at h
    exact hfront hreturn (hfront hfeed h)
  · next rest _ hline =>
    rw [hline, List.reverse_cons] at h
    exact hfront hfeed h
  · exact List.reverse_reverse line ▸ h

/-- What goes over no line end at a place is in the line of the place. -/
theorem exists_line_of_prefix (hne : part ≠ []) (hfeed : '\n' ∉ part) (hreturn : '\r' ∉ part)
    {offset : Nat} (h : part <+: cs.drop offset) :
    ∃ line, (lines cs)[lineIndex cs offset]? = some line ∧ part <:+: line := by
  obtain ⟨line, hline, hinfix⟩ := exists_linesWithEnds_of_prefix hne hfeed h
  refine ⟨dropLineEnd line, ?_, infix_dropLineEnd hfeed hreturn hinfix⟩
  rw [lines, List.getElem?_map, hline, Option.map_some]

end ArtifactSync.Text
