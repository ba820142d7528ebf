import ArtifactSync.Proofs.Toml.Keys

/-!
# How names are spelled

A name of a text is spelled by the characters at its place: the name itself, or the name in quotes,
on one line. Only between double quotes may a backslash stand for something else; every other
spelling has the name in it (`Key.StandsIn.text_infix`).
-/

namespace ArtifactSync.Toml

open Cursor

/-- The characters that spell a key. -/
def Key.spelling (cs : List Char) (key : Key) : List Char :=
  (cs.drop key.span.start).take (key.span.stop - key.span.start)

/-- A key in double quotes with a backslash between them. -/
def Key.IsEscaped (cs : List Char) (key : Key) : Prop :=
  ∃ inside, key.spelling cs = '"' :: inside ∧ '\\' ∈ inside

/-- A character that ends a line, or stands in front of one that does. -/
def isLineEnd (c : Char) : Bool :=
  c = '\n' || c = '\r'

/-- No such character stands for itself in a string or in a name, or is a digit. -/
theorem classes_of_isLineEnd {c : Char} (h : isLineEnd c = true) :
    isPlain c = false ∧ isBare c = false ∧ isHex c = false := by
  rcases (Bool.or_eq_true ..).mp h with hc | hc
  · obtain rfl := of_decide_eq_true hc
    decide
  · obtain rfl := of_decide_eq_true hc
    decide

section Line

variable {cs : List Char} {e : Char} (he : isLineEnd e = true)

include he

/-- No line ends among what stands behind a backslash. -/
theorem not_mem_of_escape {taken : Nat} {meant : Char} (h : escape? cs = some (taken, meant)) :
    e ∉ cs.take taken := by
  have hdigits {rest : List Char} {count : Nat} {c : Char}
      (h : codePoint? (rest.take count) count = some c) : e ∉ rest.take count := by
    intro hmem
    have hall := (Option.ite_none_right_eq_some.mp h).1
    simp only [Bool.and_eq_true, List.all_eq_true] at hall
    exact Bool.false_ne_true ((classes_of_isLineEnd he).2.2.symm.trans (hall.1.2 e hmem))
  unfold escape? at h
  split at h
  -- a letter with digits behind it, four or eight
  case h_8 =>
    obtain ⟨c, hcode, h⟩ := Option.map_eq_some_iff.mp h
    cases h
    exact List.not_mem_cons_of_ne_of_not_mem (by rintro rfl; cases he) (hdigits hcode)
  case h_9 =>
    obtain ⟨c, hcode, h⟩ := Option.map_eq_some_iff.mp h
    cases h
    exact List.not_mem_cons_of_ne_of_not_mem (by rintro rfl; cases he) (hdigits hcode)
  case h_10 => cases h
  -- one character alone
  all_goals
    cases h
    rw [List.take_succ_cons, List.take_zero, List.mem_singleton]
    rintro rfl
    cases he

/-- A string on one line goes over no line end. -/
theorem not_mem_of_lineString {quote : Char} {escapes : Bool} {skip n : Nat} {s : List Char}
    (hquote : e ≠ quote) (hskip : e ∉ cs.take skip)
    (h : lineString? quote escapes skip cs = some (s, n)) : e ∉ cs.take n := by
  -- what a backslash takes is passed over character by character, so it goes along in `hskip`
  induction cs generalizing skip s n with
  | nil => simp
  | cons c cs ih =>
    cases skip with
    | succ skip =>
      obtain ⟨⟨s', m⟩, hread, h⟩ := Option.map_eq_some_iff.mp h
      cases h
      obtain ⟨hc, hskip⟩ := List.ne_and_not_mem_of_not_mem_cons (List.take_succ_cons ▸ hskip)
      exact List.not_mem_cons_of_ne_of_not_mem hc (ih hskip hread)
    | zero =>
      rw [lineString?] at h
      split at h
      · next hc =>
        cases h
        simpa [hc] using hquote
      · split at h
        · next hbackslash =>
          split at h
          · cases h
          · next hescape =>
            obtain ⟨⟨s', m⟩, hread, h⟩ := Option.map_eq_some_iff.mp h
            cases h
            have hc : e ≠ c := by
              rintro rfl
              simp only [Bool.and_eq_true, decide_eq_true_eq] at hbackslash
              cases hbackslash.2 ▸ he
            exact List.not_mem_cons_of_ne_of_not_mem hc
              (ih (not_mem_of_escape he hescape) hread)
        · split at h
          · next hplain =>
            obtain ⟨⟨s', m⟩, hread, h⟩ := Option.map_eq_some_iff.mp h
            cases h
            have hc : e ≠ c := by
              rintro rfl
              exact Bool.false_ne_true ((classes_of_isLineEnd he).1.symm.trans hplain)
            exact List.not_mem_cons_of_ne_of_not_mem hc (ih (by simp) hread)
          · cases h

end Line

/-- A string without escapes is what stands in front of its closing quote. -/
theorem take_of_lineString {quote : Char} {escapes : Bool} {n : Nat} {cs s : List Char}
    (h : lineString? quote escapes 0 cs = some (s, n))
    (hescapes : escapes = true → '\\' ∉ cs.take n) : cs.take n = s ++ [quote] := by
  induction cs generalizing s n with
  | nil => cases h
  | cons c cs ih =>
    rw [lineString?] at h
    split at h
    · next hquote =>
      cases h
      simp [hquote]
    · split at h
      · next hbackslash =>
        -- a backslash that takes something stands in the string
        simp only [Bool.and_eq_true, decide_eq_true_eq] at hbackslash
        split at h
        · cases h
        · obtain ⟨⟨s', m⟩, -, h⟩ := Option.map_eq_some_iff.mp h
          cases h
          exact absurd (by simp [hbackslash.2]) (hescapes hbackslash.1)
      · split at h
        · obtain ⟨⟨s', m⟩, hread, h⟩ := Option.map_eq_some_iff.mp h
          cases h
          have hrest : escapes = true → '\\' ∉ cs.take m := fun he hmem =>
            hescapes he (List.mem_cons_of_mem _ hmem)
          rw [List.take_succ_cons, ih hread hrest, List.cons_append]
        · cases h

namespace Key.StandsIn

variable {cs : List Char} {key : Key} (h : key.StandsIn cs)

include h

/-- A name is spelled in one of two ways: by itself, or in quotes. -/
theorem spelling_cases :
    (key.spelling cs = key.text ∧ key.text ≠ [] ∧ ∀ c ∈ key.text, isBare c = true) ∨
      ∃ quote rest n, (quote = '"' ∨ quote = '\'') ∧
        lineString? quote (quote = '"') 0 rest = some (key.text, n) ∧
        key.spelling cs = quote :: rest.take n := by
  obtain ⟨after, h⟩ := h
  have htake {n : Nat} {c : Cursor} (hc : c = (start cs).advance key.span.start)
      (hspan : key.span = ⟨c.offset, c.offset + n⟩) : key.spelling cs = c.rest.take n := by
    have hlength : key.span.stop - key.span.start = n := by
      rw [hspan]
      exact Nat.add_sub_cancel_left c.offset n
    rw [spelling, hlength, hc]
    rfl
  rcases readName_cases h with ⟨htext, hne, hspan⟩ | ⟨quote, rest, n, hquote, hrest, hread, hspan⟩
  · left
    have heq : key.spelling cs = key.text := by
      rw [htake rfl hspan, htext]
      exact (List.prefix_iff_eq_take.mp (List.takeWhile_prefix isBare)).symm
    exact ⟨heq, hne, fun c hc =>
      List.all_eq_true.mp List.all_takeWhile c (htext ▸ hc)⟩
  · right
    refine ⟨quote, rest, n, hquote, hread, ?_⟩
    rw [htake rfl hspan, hrest, List.take_succ_cons]

/-- No line ends in a spelling. -/
theorem not_mem_spelling {e : Char} (he : isLineEnd e = true) : e ∉ key.spelling cs := by
  rcases h.spelling_cases with ⟨heq, -, hbare⟩ | ⟨quote, rest, n, hquote, hread, heq⟩
  · rw [heq]
    intro hmem
    exact Bool.false_ne_true ((classes_of_isLineEnd he).2.1.symm.trans (hbare e hmem))
  · rw [heq]
    have hne : e ≠ quote := by
      rintro rfl
      rcases hquote with rfl | rfl
      · cases he
      · cases he
    exact List.not_mem_cons_of_ne_of_not_mem hne
      (not_mem_of_lineString he hne (by simp) hread)

/-- A spelling has characters. -/
theorem spelling_ne_nil : key.spelling cs ≠ [] := by
  rcases h.spelling_cases with ⟨heq, hne, -⟩ | ⟨quote, rest, n, -, -, heq⟩
  · exact heq ▸ hne
  · simp [heq]

/-- A spelling without escapes has the name in it. -/
theorem text_infix (hescaped : ¬ key.IsEscaped cs) : key.text <:+: key.spelling cs := by
  rcases h.spelling_cases with ⟨heq, -⟩ | ⟨quote, rest, n, -, hread, heq⟩
  · exact heq ▸ List.infix_rfl
  · have hplain : decide (quote = '"') = true → '\\' ∉ rest.take n := fun hq hmem =>
      hescaped ⟨rest.take n, of_decide_eq_true hq ▸ heq, hmem⟩
    rw [heq, take_of_lineString hread hplain]
    exact ⟨[quote], [quote], rfl⟩

end Key.StandsIn

end ArtifactSync.Toml
