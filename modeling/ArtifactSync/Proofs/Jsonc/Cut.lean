import ArtifactSync.Jsonc.Document
import Mathlib.Data.List.TakeDrop
import Mathlib.Data.List.TakeWhile
import Mathlib.Tactic.Common

/-!
# Cutting lexemes

What is cut off the front of a text is one of eight kinds of lexeme, which the first characters
decide (`cut_eq_ok_iff`). Nothing is lost: the characters of the lexeme and those behind it make up
the text (`text_of_cut`).
-/

namespace ArtifactSync.Jsonc

open Text

/-! ## Parts of lexemes -/

/-- A run of a class is cut off in front of a character that is not in it. -/
theorem span_append_iff {α : Type} {p : α → Bool} {a b : List α} :
    (a ++ b).span p = (a, b) ↔ (∀ c ∈ a, p c = true) ∧ ∀ c, b.head? = some c → p c = false := by
  rw [List.span_eq_takeWhile_dropWhile]
  constructor
  · intro h
    obtain ⟨htake, hdrop⟩ := Prod.mk.inj h
    refine ⟨fun c hc => List.mem_takeWhile_imp (htake ▸ hc), fun c hc => ?_⟩
    have hhead := List.head?_dropWhile_not p (a ++ b)
    rw [hdrop, hc] at hhead
    simpa using hhead
  · rintro ⟨ha, hb⟩
    rw [List.takeWhile_append_of_pos ha, List.dropWhile_append_of_pos ha]
    cases b with
    | nil => simp
    | cons c cs => simp [hb c rfl]

/-- The two parts of a text that is cut at a run make it up. -/
theorem append_of_span {α : Type} {p : α → Bool} {cs a b : List α} (h : cs.span p = (a, b)) :
    a ++ b = cs := by
  rw [List.span_eq_takeWhile_dropWhile] at h
  obtain ⟨rfl, rfl⟩ := Prod.mk.inj h
  exact List.takeWhile_append_dropWhile

/-- A comment up to the end of its line and what is behind it make up the text. -/
theorem append_of_lineComment {cs text rest : List Char} (h : lineComment cs = (text, rest)) :
    text ++ rest = cs := by
  induction cs generalizing text rest with
  | nil =>
    cases h
    rfl
  | cons c cs ih =>
    rw [lineComment] at h
    split at h
    · cases h
      rfl
    · cases h
      rw [List.cons_append, ih rfl]

/-- A comment up to its closing mark and what is behind it make up the text. -/
theorem append_of_blockComment {cs text rest : List Char}
    (h : blockComment? cs = some (text, rest)) : text ++ rest = cs := by
  induction cs generalizing text rest with
  | nil => cases h
  | cons c cs ih =>
    rw [blockComment?] at h
    split at h
    · next hclose =>
      cases h
      obtain ⟨rfl, hhead⟩ := hclose
      obtain ⟨tail, rfl⟩ := List.head?_eq_some_iff.mp hhead
      rfl
    · obtain ⟨⟨text', rest'⟩, hrec, heq⟩ := Option.map_eq_some_iff.mp h
      cases heq
      rw [List.cons_append, ih hrec]

/-- The characters of a string and what is behind it make up the text, and a string is longer than
what is skipped in it. -/
theorem append_of_stringBody {quote : Char} {skip : Nat} {cs text value rest : List Char}
    (h : stringBody quote skip cs = .ok (text, value, rest)) :
    text ++ rest = cs ∧ skip < text.length := by
  induction cs generalizing skip text value rest with
  | nil => cases skip <;> cases h
  | cons c cs ih =>
    cases skip with
    | succ skip =>
      rw [stringBody] at h
      split at h
      · cases h
      · next hrec =>
        cases h
        obtain ⟨happend, hlen⟩ := ih hrec
        exact ⟨by rw [List.cons_append, happend], by simpa using hlen⟩
    | zero =>
      unfold stringBody at h
      split at h
      · cases h
        exact ⟨rfl, by simp⟩
      · split at h
        · split at h
          · cases h
          · split at h
            · cases h
            · split at h
              · cases h
              · next hrec =>
                cases h
                exact ⟨by rw [List.cons_append, (ih hrec).1], by simp⟩
        · split at h
          · cases h
          · next hrec =>
            cases h
            exact ⟨by rw [List.cons_append, (ih hrec).1], by simp⟩

/-- The parts of a number: a function that cuts one off the front of a text. -/
abbrev PartCut := List Char → Except Problem (List Char × List Char)

/-- What is cut off and what is behind it make up the text. -/
def PartCut.Keeps (f : PartCut) : Prop :=
  ∀ {cs a b}, f cs = .ok (a, b) → a ++ b = cs

/-- Digits are kept. -/
theorem keeps_digits (complaint : String) : PartCut.Keeps (digits complaint) := by
  intro cs a b h
  unfold digits at h
  split at h
  · cases h
  · next hspan =>
    cases h
    exact append_of_span hspan

/-- The digits in front of the point are kept. -/
theorem keeps_wholePart : PartCut.Keeps wholePart := by
  intro cs a b h
  unfold wholePart at h
  split at h
  · cases h
    rfl
  · exact keeps_digits _ h

/-- The point and the digits behind it are kept. -/
theorem keeps_fractionPart : PartCut.Keeps fractionPart := by
  intro cs a b h
  unfold fractionPart at h
  split at h
  · split at h
    · cases h
    · next hdigits =>
      cases h
      rw [List.cons_append, keeps_digits _ hdigits]
  · cases h
    rfl

/-- The exponent is kept. -/
theorem keeps_exponentPart : PartCut.Keeps exponentPart := by
  intro cs a b h
  unfold exponentPart at h
  split at h
  · split at h
    · cases h
      rfl
    · split at h
      · split at h
        · split at h
          · cases h
          · next hdigits =>
            cases h
            rw [List.cons_append, List.cons_append, keeps_digits _ hdigits]
        · split at h
          · cases h
          · next hdigits =>
            cases h
            rw [List.cons_append, keeps_digits _ hdigits]
      · cases h
  · cases h
    rfl

/-- A number is a sign, digits, a fraction and an exponent, each cut off in front of the next. -/
structure NumberParts (sign whole fraction exponent rest : List Char) : Prop where
  sign : sign = [] ∨ sign = ['-']
  whole : wholePart (whole ++ (fraction ++ (exponent ++ rest))) =
    .ok (whole, fraction ++ (exponent ++ rest))
  fraction : fractionPart (fraction ++ (exponent ++ rest)) = .ok (fraction, exponent ++ rest)
  exponent : exponentPart (exponent ++ rest) = .ok (exponent, rest)

/-- The digits in front of the point do not begin with a minus sign. -/
theorem exists_digit_of_wholePart {cs a b : List Char} (h : wholePart cs = .ok (a, b)) :
    ∃ d ds, a = d :: ds ∧ d ≠ '-' := by
  unfold wholePart at h
  split at h
  · cases h
    exact ⟨'0', [], rfl, by decide⟩
  · unfold digits at h
    split at h
    · cases h
    · next hne hspan =>
      cases h
      cases a with
      | nil => exact absurd rfl hne
      | cons d ds =>
        refine ⟨d, ds, rfl, ?_⟩
        rintro rfl
        rw [← append_of_span hspan, span_append_iff] at hspan
        exact absurd (hspan.1 '-' (by simp)) (by decide)

/-- A number, when its sign is cut off. -/
def cutUnsigned (sign unsigned : List Char) : Cut :=
  match wholePart unsigned with
  | .error e => .error (e.shift sign.length)
  | .ok (whole, behindWhole) =>
    match fractionPart behindWhole with
    | .error e => .error (e.shift (sign.length + whole.length))
    | .ok (fraction, behindFraction) =>
      match exponentPart behindFraction with
      | .error e => .error (e.shift (sign.length + whole.length + fraction.length))
      | .ok (exponent, rest) => .ok (.number (sign ++ whole ++ fraction ++ exponent), rest)

/-- A number with a minus sign. -/
theorem cutNumber_minus (unsigned : List Char) :
    cutNumber ('-' :: unsigned) = cutUnsigned ['-'] unsigned := rfl

/-- A number without one. -/
theorem cutNumber_of_ne {cs : List Char} (h : cs.head? ≠ some '-') :
    cutNumber cs = cutUnsigned [] cs := by
  unfold cutNumber
  split
  next sign unsigned heq =>
  split at heq
  · exact absurd rfl h
  · cases heq
    rfl

/-- A number that is cut off behind a sign has these parts. -/
theorem exists_parts_of_cutUnsigned {sign unsigned rest : List Char} {l : Lexeme}
    (hsign : sign = [] ∨ sign = ['-']) (h : cutUnsigned sign unsigned = .ok (l, rest)) :
    ∃ whole fraction exponent, NumberParts sign whole fraction exponent rest ∧
      l = .number (sign ++ whole ++ fraction ++ exponent) ∧
      whole ++ (fraction ++ (exponent ++ rest)) = unsigned := by
  unfold cutUnsigned at h
  split at h
  · cases h
  · next whole behindWhole hwhole =>
    split at h
    · cases h
    · next fraction behindFraction hfraction =>
      split at h
      · cases h
      · next exponent rest hexponent =>
        cases h
        have hw := keeps_wholePart hwhole
        have hf := keeps_fractionPart hfraction
        have he := keeps_exponentPart hexponent
        subst he hf hw
        exact ⟨whole, fraction, exponent, ⟨hsign, hwhole, hfraction, hexponent⟩, rfl, rfl⟩

/-- A number that is cut off has these parts. -/
theorem exists_parts_of_cutNumber {cs rest : List Char} {l : Lexeme}
    (h : cutNumber cs = .ok (l, rest)) : ∃ sign whole fraction exponent,
      NumberParts sign whole fraction exponent rest ∧
        l = .number (sign ++ whole ++ fraction ++ exponent) ∧
        sign ++ whole ++ fraction ++ exponent ++ rest = cs := by
  by_cases hminus : cs.head? = some '-'
  · obtain ⟨unsigned, rfl⟩ := List.head?_eq_some_iff.mp hminus
    rw [cutNumber_minus] at h
    obtain ⟨whole, fraction, exponent, hparts, rfl, rfl⟩ :=
      exists_parts_of_cutUnsigned (.inr rfl) h
    exact ⟨_, whole, fraction, exponent, hparts, rfl, by simp⟩
  · rw [cutNumber_of_ne hminus] at h
    obtain ⟨whole, fraction, exponent, hparts, rfl, rfl⟩ :=
      exists_parts_of_cutUnsigned (.inl rfl) h
    exact ⟨_, whole, fraction, exponent, hparts, rfl, by simp⟩

/-- A number with these parts is cut off. -/
theorem NumberParts.cutNumber {sign whole fraction exponent rest : List Char}
    (h : NumberParts sign whole fraction exponent rest) :
    cutNumber (sign ++ whole ++ fraction ++ exponent ++ rest) =
      .ok (.number (sign ++ whole ++ fraction ++ exponent), rest) := by
  have hunsigned : cutUnsigned sign (whole ++ (fraction ++ (exponent ++ rest))) =
      .ok (.number (sign ++ whole ++ fraction ++ exponent), rest) := by
    unfold cutUnsigned
    simp only [h.whole, h.fraction, h.exponent]
  simp only [List.append_assoc] at hunsigned ⊢
  rcases h.sign with rfl | rfl
  · obtain ⟨d, ds, hwhole, hd⟩ := exists_digit_of_wholePart h.whole
    rw [cutNumber_of_ne (by simpa [hwhole] using hd)]
    exact hunsigned
  · exact hunsigned

/-- A constant is cut off in front of anything but letters and digits. -/
theorem constant_eq_some_iff {cs name rest : List Char} : constant? cs = some (name, rest) ↔
    name ∈ constants ∧ cs = name ++ rest ∧ rest.head?.any isAlphanumeric = false := by
  constructor
  · intro h
    obtain ⟨found, hfound, h⟩ := Option.bind_eq_some_iff.mp h
    have hmem := List.mem_of_find?_eq_some hfound
    have hprefix := List.find?_some (p := fun name : List Char => name.isPrefixOf cs) hfound
    obtain ⟨tail, rfl⟩ := List.isPrefixOf_iff_prefix.mp hprefix
    simp only [List.drop_left] at h
    split at h
    · cases h
    · next hany =>
      cases h
      exact ⟨hmem, rfl, by simpa using hany⟩
  · rintro ⟨hname, rfl, hany⟩
    have hfind : constants.find? (fun n => n.isPrefixOf (name ++ rest)) = some name := by
      -- no constant begins as another one does
      simp only [constants, List.mem_cons, List.not_mem_nil, or_false] at hname
      rcases hname with rfl | rfl | rfl <;> simp [constants, List.find?, List.isPrefixOf]
    unfold constant?
    rw [hfind]
    simp only [Option.bind_some, List.drop_left, hany]
    rfl

/-- A word that is cut off is a run of letters, digits and hyphens up to a blank or a colon. -/
theorem cutWord_ok {cs rest : List Char} {l : Lexeme} (h : cutWord cs = .ok (l, rest)) :
    ∃ text, l = .word text ∧ text ++ rest = cs ∧ text ≠ [] ∧
      text.all (fun c => isAlphanumeric c || c == '-') = true ∧
      cs.span (fun c => !(isBlank c || c == ':')) = (text, rest) := by
  unfold cutWord at h
  rcases hspan : cs.span (fun c => !(isBlank c || c == ':')) with ⟨text, rest'⟩
  rw [hspan] at h
  simp only at h
  split at h
  · next hok =>
    cases h
    exact ⟨text, rfl, append_of_span hspan, hok.1, hok.2, rfl⟩
  · cases h

/-! ## Lexemes -/

/-- Whether a character is blank, a mark, a quote or a slash. -/
def opens (c : Char) : Bool :=
  isBlank c || (Mark.ofChar? c).isSome || c == '"' || c == '\'' || c == '/'

/-- What is cut off a text that begins with `c`, and what is left behind it. -/
inductive CutsOff (c : Char) (cs : List Char) : Lexeme → List Char → Prop where
  | blank {text rest : List Char} (first : isBlank c = true)
      (run : cs.span isBlank = (text, rest)) : CutsOff c cs (.blank (c :: text)) rest
  | mark {m : Mark} {rest : List Char} (first : m.char = c) (others : cs = rest) :
      CutsOff c cs (.mark m) rest
  | string {text value rest : List Char} (first : c = '"' ∨ c = '\'')
      (body : stringBody c 0 cs = .ok (text, value, rest)) :
      CutsOff c cs (.string (c :: text) value) rest
  | line {behind text rest : List Char} (first : c = '/') (second : cs = '/' :: behind)
      (body : lineComment behind = (text, rest)) : CutsOff c cs (.comment ('/' :: '/' :: text)) rest
  | block {behind text rest : List Char} (first : c = '/') (second : cs = '*' :: behind)
      (body : blockComment? behind = some (text, rest)) :
      CutsOff c cs (.comment ('/' :: '*' :: text)) rest
  | number {text rest : List Char} (first : opens c = false)
      (digit : c = '-' ∨ c.isDigit = true)
      (number : cutNumber (c :: cs) = .ok (.number text, rest)) : CutsOff c cs (.number text) rest
  | constant {text rest : List Char} (first : opens c = false)
      (letter : ¬(c = '-' ∨ c.isDigit = true)) (constant : constant? (c :: cs) = some (text, rest)) :
      CutsOff c cs (.constant text) rest
  | word {text rest : List Char} (first : opens c = false)
      (letter : ¬(c = '-' ∨ c.isDigit = true)) (constant : constant? (c :: cs) = none)
      (word : cutWord (c :: cs) = .ok (.word text, rest)) : CutsOff c cs (.word text) rest

/-- What is known of a character that is none of these. -/
theorem opens_eq_false_iff {c : Char} : opens c = false ↔
    isBlank c = false ∧ Mark.ofChar? c = none ∧ ¬(c = '"' ∨ c = '\'') ∧ c ≠ '/' := by
  simp [opens, not_or, and_assoc]

/-- A mark is found by its character. -/
theorem Mark.ofChar_char (m : Mark) : ofChar? m.char = some m := by
  cases m <;> rfl

/-- The mark that a character is has that character. -/
theorem Mark.char_of_ofChar {m : Mark} {c : Char} (h : ofChar? c = some m) : m.char = c := by
  simpa using List.find?_some h

section CutsOff

variable {c : Char} {cs rest : List Char} {l : Lexeme}

/-- What is cut off is of one of these kinds. -/
theorem cutsOff_of_cut (h : cut c cs = .ok (l, rest)) : CutsOff c cs l rest := by
  unfold cut at h
  split at h
  · next hblank =>
    cases h
    exact .blank hblank rfl
  · next hblank =>
    split at h
    · next hmark =>
      cases h
      exact .mark (Mark.char_of_ofChar hmark) rfl
    · next hmark =>
      split at h
      · next hquote =>
        unfold cutString at h
        split at h
        · next hbody =>
          cases h
          exact .string hquote hbody
        · cases h
        · cases h
      · next hquote =>
        split at h
        · next hslash =>
          split at h
          · cases h
            exact .line hslash rfl rfl
          · split at h
            · next hbody =>
              cases h
              exact .block hslash rfl hbody
            · cases h
          · cases h
        · next hslash =>
          have hfirst : opens c = false :=
            opens_eq_false_iff.mpr ⟨by simpa using hblank, hmark, hquote, hslash⟩
          split at h
          · next hdigit =>
            obtain ⟨_, _, _, _, -, rfl, -⟩ := exists_parts_of_cutNumber h
            exact .number hfirst hdigit h
          · next hdigit =>
            split at h
            · next hconstant =>
              cases h
              exact .constant hfirst hdigit hconstant
            · next hconstant =>
              obtain ⟨_, rfl, -⟩ := cutWord_ok h
              exact .word hfirst hdigit hconstant h

/-- What is of one of these kinds is cut off. -/
theorem CutsOff.cut_eq (h : CutsOff c cs l rest) : cut c cs = .ok (l, rest) := by
  cases h with
  | blank first run =>
    unfold cut
    rw [if_pos first, run]
  | @mark m _ first others =>
    subst first others
    have hblank : isBlank m.char = false := by cases m <;> rfl
    unfold cut
    rw [Mark.ofChar_char, if_neg (by simp [hblank])]
  | string first body =>
    have hcut : cut c cs = cutString c cs := by rcases first with rfl | rfl <;> rfl
    rw [hcut, cutString, body]
  | @line behind _ _ first second body =>
    subst first second
    have hcut : cut '/' ('/' :: behind) =
      .ok (.comment ('/' :: '/' :: (lineComment behind).1), (lineComment behind).2) := rfl
    rw [hcut, body]
  | block first second body =>
    subst first second
    have hslash : Mark.ofChar? '/' = none := rfl
    unfold cut
    rw [if_neg (by decide), hslash]
    dsimp only
    rw [if_neg (by decide), if_pos rfl]
    simp only [body]
  | number first digit number =>
    obtain ⟨hblank, hmark, hquote, hslash⟩ := opens_eq_false_iff.mp first
    unfold cut
    rw [if_neg (by simp [hblank]), hmark]
    dsimp only
    rw [if_neg hquote, if_neg hslash, if_pos digit, number]
  | constant first letter constant =>
    obtain ⟨hblank, hmark, hquote, hslash⟩ := opens_eq_false_iff.mp first
    unfold cut
    rw [if_neg (by simp [hblank]), hmark]
    dsimp only
    rw [if_neg hquote, if_neg hslash, if_neg letter, constant]
  | word first letter constant word =>
    obtain ⟨hblank, hmark, hquote, hslash⟩ := opens_eq_false_iff.mp first
    unfold cut
    rw [if_neg (by simp [hblank]), hmark]
    dsimp only
    rw [if_neg hquote, if_neg hslash, if_neg letter, constant]
    exact word

/-- The first characters decide what is cut off. -/
theorem cut_eq_ok_iff : cut c cs = .ok (l, rest) ↔ CutsOff c cs l rest :=
  ⟨cutsOff_of_cut, CutsOff.cut_eq⟩

variable (h : cut c cs = .ok (l, rest))
include h

/-- What is cut off a text begins with its first character, and what is behind it are the characters
that are left. -/
theorem text_of_cut : ∃ t, l.text = c :: t ∧ t ++ rest = cs := by
  -- for functions that are given the first character as well
  have whole {text : List Char} (happend : text ++ rest = c :: cs) (hne : text ≠ []) :
      ∃ t, text = c :: t ∧ t ++ rest = cs := by
    obtain ⟨d, t, rfl⟩ := List.exists_cons_of_ne_nil hne
    obtain ⟨rfl, hrest⟩ := List.cons.inj happend
    exact ⟨t, rfl, hrest⟩
  cases cut_eq_ok_iff.mp h with
  | blank first run => exact ⟨_, rfl, append_of_span run⟩
  | mark first others => exact ⟨[], by rw [Lexeme.text, first], others.symm⟩
  | string first body => exact ⟨_, rfl, (append_of_stringBody body).1⟩
  | @line behind text _ first second body =>
    exact ⟨'/' :: text, by rw [Lexeme.text, first], by
      rw [second, List.cons_append, append_of_lineComment body]⟩
  | @block behind text _ first second body =>
    exact ⟨'*' :: text, by rw [Lexeme.text, first], by
      rw [second, List.cons_append, append_of_blockComment body]⟩
  | number first digit number =>
    obtain ⟨sign, w, fr, ex, hparts, hl, happend⟩ := exists_parts_of_cutNumber number
    obtain rfl := Lexeme.number.inj hl
    obtain ⟨d, ds, hw, -⟩ := exists_digit_of_wholePart hparts.whole
    exact whole happend (by simp [Lexeme.text, hw])
  | constant first letter constant =>
    obtain ⟨hmem, happend, -⟩ := constant_eq_some_iff.mp constant
    refine whole happend.symm ?_
    rintro rfl
    revert hmem
    decide
  | word first letter constant word =>
    obtain ⟨text, hl, happend, hne, -, -⟩ := cutWord_ok word
    obtain rfl := Lexeme.word.inj hl
    exact whole happend hne

/-- Gaps begin with a blank or a slash, and nothing else begins with these. -/
theorem isGap_of_cut : l.isGap = (isBlank c || c == '/') := by
  have hother (first : opens c = false) : (isBlank c || c == '/') = false := by
    simp only [opens, Bool.or_eq_false_iff] at first
    rw [first.1.1.1.1, first.2, Bool.or_self]
  cases cut_eq_ok_iff.mp h with
  | blank first run => rw [first]; rfl
  | @mark m _ first others =>
    subst first
    cases m <;> rfl
  | string first body => rcases first with rfl | rfl <;> rfl
  | line first second body => rw [first]; rfl
  | block first second body => rw [first]; rfl
  | number first digit number => exact (hother first).symm
  | constant first letter constant => exact (hother first).symm
  | word first letter constant word => exact (hother first).symm

end CutsOff

/-- What begins with a blank is the run of blanks. -/
theorem cut_of_isBlank {c : Char} (h : isBlank c = true) (cs : List Char) :
    cut c cs = .ok (.blank (c :: (cs.span isBlank).1), (cs.span isBlank).2) :=
  cut_eq_ok_iff.mpr (.blank h rfl)

end ArtifactSync.Jsonc
