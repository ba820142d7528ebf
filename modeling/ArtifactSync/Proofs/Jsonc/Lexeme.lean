import ArtifactSync.Proofs.Jsonc.Cut

/-!
# Rows of lexemes

A text is cut into a row of lexemes exactly when the row is written that way (`lex_eq_iff`): the
texts of the lexemes make up the text, and each lexeme is what is cut off the front of its own
characters and those behind them (`Row`). So a row that was changed somewhere is cut into the same
lexemes again as long as each of them still stands.

What stands behind a lexeme matters to it only by its first character, and to a comment that runs
to the end of its line by whether a line ends there (`Alike`, `Lexeme.Cuts.behind`). A lexeme that
can end a value stands in front of a comma (`Lexeme.Cuts.comma`).
-/

namespace ArtifactSync.Jsonc

open Text

/-! ## What stands behind a lexeme -/

/-- Whether a text begins with the end of a line, or is empty. -/
def endsLine : List Char → Bool
  | [] => true
  | c :: cs => c == '\n' || (c == '\r' && cs.head? == some '\n')

/-- Two texts that no lexeme in front of them tells apart. -/
structure Alike (rest rest' : List Char) : Prop where
  head : rest.head? = rest'.head?
  line : endsLine rest = endsLine rest'

/-- A text that the parts of a number tell apart from another one only if it is no comma. -/
def OrComma (rest rest' : List Char) : Prop :=
  rest'.head? = rest.head? ∨ rest'.head? = some ','

/-- Characters in front do not change that. -/
theorem OrComma.append {rest rest' : List Char} (h : OrComma rest rest') (a : List Char) :
    OrComma (a ++ rest) (a ++ rest') := by
  cases a with
  | nil => exact h
  | cons c cs => exact .inl rfl

/-- A first character that is in no class with the comma keeps out of the class. -/
theorem OrComma.notIn {rest rest' : List Char} (h : OrComma rest rest') {p : Char → Bool}
    (hcomma : p ',' = false) (hp : ∀ c, rest.head? = some c → p c = false) :
    ∀ c, rest'.head? = some c → p c = false := by
  intro c hc
  rcases h with h | h
  · exact hp c (h ▸ hc)
  · rw [h] at hc
    cases hc
    exact hcomma

/-- A part of a number does not depend on what is behind it, up to its first character. -/
def PartCut.Local (f : PartCut) : Prop :=
  ∀ {a b b'}, f (a ++ b) = .ok (a, b) → OrComma b b' → f (a ++ b') = .ok (a, b')

/-- Digits are cut off as long as none is behind them. -/
theorem local_digits (complaint : String) : PartCut.Local (digits complaint) := by
  intro a b b' h hb
  unfold digits at h ⊢
  split at h
  · cases h
  · next hne hspan =>
    cases h
    have hrun := span_append_iff.mp hspan
    rw [span_append_iff.mpr ⟨hrun.1, hb.notIn (by decide) hrun.2⟩]
    cases a with
    | nil => exact absurd rfl hne
    | cons d ds => rfl

/-- Digits are at least one. -/
theorem ne_nil_of_digits {complaint : String} {cs a b : List Char}
    (h : digits complaint cs = .ok (a, b)) : a ≠ [] := by
  unfold digits at h
  split at h
  · cases h
  · next hne _ =>
    cases h
    exact hne

/-- The digits in front of the point. -/
theorem local_wholePart : PartCut.Local wholePart := by
  intro a b b' h hb
  cases a with
  | nil => obtain ⟨d, ds, hnil, -⟩ := exists_digit_of_wholePart h; cases hnil
  | cons d ds =>
    unfold wholePart at h ⊢
    simp only [List.cons_append] at h ⊢
    split at h
    · next heq =>
      cases heq
      cases h
      rfl
    · next hzero =>
      split
      · next heq =>
        cases heq
        exact absurd rfl (hzero _)
      · exact local_digits _ (a := d :: ds) h hb

/-- The point and the digits behind it. -/
theorem local_fractionPart : PartCut.Local fractionPart := by
  intro a b b' h hb
  unfold fractionPart at h
  split at h
  · next rest heq =>
    split at h
    · cases h
    · next hdigits =>
      cases h
      cases heq
      have := local_digits _ hdigits hb
      simp [fractionPart, this]
  · next hpoint =>
    cases h
    have hhead : ∀ c, b.head? = some c → (c == '.') = false := by
      intro c hc
      obtain ⟨tail, rfl⟩ := List.head?_eq_some_iff.mp hc
      simp only [beq_eq_false_iff_ne, ne_eq]
      rintro rfl
      exact hpoint tail rfl
    unfold fractionPart
    split
    · next heq =>
      have hdot := hb.notIn (p := (· == '.')) (by decide) hhead '.' (by rw [← List.nil_append b', heq]; rfl)
      simp at hdot
    · rfl

/-- No exponent is cut off exactly when none begins. -/
theorem exponentPart_eq_nil_iff {cs : List Char} : exponentPart cs = .ok ([], cs) ↔
    ∀ c, cs.head? = some c → (c == 'e' || c == 'E') = false := by
  cases cs with
  | nil => simp [exponentPart]
  | cons c cs =>
    unfold exponentPart
    dsimp only
    constructor
    · intro h
      split at h
      · next hc => simpa using hc
      · split at h
        · split at h
          · split at h <;> cases h
          · split at h <;> cases h
        · cases h
    · intro h
      exact if_pos (by simpa using h c rfl)

/-- The exponent. -/
theorem local_exponentPart : PartCut.Local exponentPart := by
  intro a b b' h hb
  cases a with
  | nil =>
    exact exponentPart_eq_nil_iff.mpr (hb.notIn (by decide) (exponentPart_eq_nil_iff.mp h))
  | cons e ds =>
    rw [List.cons_append] at h ⊢
    unfold exponentPart at h ⊢
    dsimp only at h ⊢
    split at h
    · cases h
    · next he =>
      rw [if_neg he]
      split at h
      · next sign behind heq =>
        split at h
        · next hsign =>
          split at h
          · cases h
          · next hdigits =>
            cases h
            obtain rfl := (List.cons.inj heq).2
            simp only [List.cons_append, if_pos hsign, local_digits _ hdigits hb]
        · next hsign =>
          split at h
          · cases h
          · next hdigits =>
            cases h
            obtain ⟨d, tail, rfl⟩ := List.exists_cons_of_ne_nil (ne_nil_of_digits hdigits)
            obtain ⟨rfl, -⟩ := List.cons.inj heq
            have hlocal := local_digits _ (a := d :: tail) hdigits hb
            simp only [List.cons_append] at hlocal ⊢
            simp only [if_neg hsign, hlocal]
      · cases h

/-- The parts of a number stand in front of a text that is told apart only by a comma. -/
theorem NumberParts.orComma {sign whole fraction exponent rest rest' : List Char}
    (h : NumberParts sign whole fraction exponent rest) (hrest : OrComma rest rest') :
    NumberParts sign whole fraction exponent rest' where
  sign := h.sign
  whole := local_wholePart h.whole ((hrest.append exponent).append fraction)
  fraction := local_fractionPart h.fraction (hrest.append exponent)
  exponent := local_exponentPart h.exponent hrest

/-- A number does not depend on what is behind it, up to its first character. -/
theorem local_cutNumber {cs rest rest' : List Char} {l : Lexeme}
    (h : cutNumber (cs ++ rest) = .ok (l, rest)) (hrest : OrComma rest rest') :
    cutNumber (cs ++ rest') = .ok (l, rest') := by
  obtain ⟨sign, whole, fraction, exponent, hparts, rfl, happend⟩ := exists_parts_of_cutNumber h
  rw [← List.append_cancel_right happend]
  exact (hparts.orComma hrest).cutNumber

/-- A comment up to the end of its line ends where the line does. -/
theorem local_lineComment {a b b' : List Char} (h : lineComment (a ++ b) = (a, b))
    (hb : Alike b b') : lineComment (a ++ b') = (a, b') := by
  induction a with
  | nil =>
    have hends : endsLine b = true := by
      cases b with
      | nil => rfl
      | cons c cs =>
        rw [List.nil_append, lineComment] at h
        split at h
        · next hend => simpa [endsLine] using hend
        · cases h
    rw [hb.line] at hends
    cases b' with
    | nil => rfl
    | cons c cs => rw [List.nil_append, lineComment, if_pos (by simpa [endsLine] using hends)]
  | cons c cs ih =>
    rw [List.cons_append, lineComment] at h ⊢
    have hhead : (cs ++ b).head? = (cs ++ b').head? := by
      cases cs with
      | nil => exact hb.head
      | cons d ds => rfl
    split at h
    · cases h
    · next hgoes =>
      rw [hhead] at hgoes
      rw [if_neg hgoes, ih (Prod.ext (List.cons.inj (Prod.mk.inj h).1).2 (Prod.mk.inj h).2)]

/-- A comment up to its closing mark does not depend on what is behind it. -/
theorem local_blockComment {a b : List Char} (h : blockComment? (a ++ b) = some (a, b))
    (b' : List Char) : blockComment? (a ++ b') = some (a, b') := by
  have hne {b : List Char} : blockComment? b ≠ some ([], b) := by
    intro hnil
    cases b with
    | nil => cases hnil
    | cons c cs =>
      rw [blockComment?] at hnil
      split at hnil
      · cases hnil
      · obtain ⟨_, -, heq⟩ := Option.map_eq_some_iff.mp hnil
        cases heq
  induction a with
  | nil => exact absurd h hne
  | cons c cs ih =>
    rw [List.cons_append, blockComment?] at h ⊢
    split at h
    · next hclose =>
      obtain ⟨rfl, hhead⟩ := hclose
      obtain ⟨hcs, hb⟩ := Prod.mk.inj (Option.some.inj h)
      obtain ⟨-, rfl⟩ := List.cons.inj hcs
      simp
    · next hopen =>
      obtain ⟨⟨text, rest⟩, hrec, heq⟩ := Option.map_eq_some_iff.mp h
      cases heq
      obtain ⟨d, ds, rfl⟩ := List.exists_cons_of_ne_nil fun hnil : cs = [] => hne (hnil ▸ hrec)
      rw [if_neg (by simpa using hopen), ih hrec]
      rfl

/-- An escape does not depend on more characters than it takes. -/
theorem escape_congr {quote c : Char} {cs cs' : List Char} {taken : Nat} {meant : Char}
    (h : escape quote c cs = .ok (taken, meant)) (htake : cs'.take (taken - 1) = cs.take (taken - 1)) :
    escape quote c cs' = .ok (taken, meant) := by
  unfold escape at h ⊢
  split at h
  · next hu =>
    cases hchar : escapedChar (cs.take 4) with
    | error e =>
      rw [hchar] at h
      cases h
    | ok m =>
      rw [hchar] at h
      cases h
      rw [if_pos hu, htake, hchar]
      rfl
  · next hu =>
    rw [if_neg hu]
    exact h

/-- A string does not depend on what is behind it. -/
theorem local_stringBody {quote : Char} {skip : Nat} {a value b : List Char}
    (h : stringBody quote skip (a ++ b) = .ok (a, value, b)) (b' : List Char) :
    stringBody quote skip (a ++ b') = .ok (a, value, b') := by
  induction a generalizing skip value with
  | nil => exact absurd (append_of_stringBody h).2 (by simp)
  | cons c cs ih =>
    cases skip with
    | succ skip =>
      rw [List.cons_append, stringBody] at h ⊢
      split at h
      · cases h
      · next hrec =>
        cases h
        rw [ih hrec]
    | zero =>
      rw [List.cons_append] at h ⊢
      unfold stringBody at h ⊢
      split at h
      · next hquote =>
        cases h
        rw [if_pos hquote]
        rfl
      · next hquote =>
        rw [if_neg hquote]
        split at h
        · next hslash =>
          rw [if_pos hslash]
          split at h
          · cases h
          · next d ds hds =>
            split at h
            · cases h
            · next taken meant hescape =>
              split at h
              · cases h
              · next hrec =>
                cases h
                obtain ⟨happend, hlen⟩ := append_of_stringBody hrec
                -- the escape lies within the string, whatever is behind that
                obtain ⟨e, es, rfl⟩ := List.exists_cons_of_ne_nil
                  (List.ne_nil_of_length_pos (Nat.zero_lt_of_lt hlen))
                obtain ⟨rfl, rfl⟩ := List.cons.inj hds
                have htake : (es ++ b').take (taken - 1) = (es ++ b).take (taken - 1) := by
                  rw [List.length_cons] at hlen
                  rw [List.take_append_of_le_length (by omega),
                    List.take_append_of_le_length (by omega)]
                have hlocal := ih hrec
                simp only [List.cons_append] at hlocal ⊢
                simp only [escape_congr hescape htake, hlocal]
        · next hslash =>
          rw [if_neg hslash]
          split at h
          · cases h
          · next hrec =>
            cases h
            rw [ih hrec]

/-- Whether a lexeme can be the last one of a value. -/
def Lexeme.endsValue : Lexeme → Bool
  | string _ _ => true
  | number _ => true
  | constant _ => true
  | mark m => m = .closeBrace || m = .closeBracket
  | _ => false

/-- Such a lexeme means something. -/
theorem Lexeme.isGap_of_endsValue {l : Lexeme} (h : l.endsValue = true) : l.isGap = false := by
  cases l with
  | blank text => cases h
  | comment text => cases h
  | _ => rfl

/-- A lexeme does not tell what is behind it from another text. -/
def Lexeme.Behind (l : Lexeme) (rest rest' : List Char) : Prop :=
  Alike rest rest' ∨ l.endsValue = true ∧ rest'.head? = some ','

/-- In front of such texts stand the same numbers. -/
theorem Lexeme.Behind.orComma {l : Lexeme} {rest rest' : List Char} (h : l.Behind rest rest') :
    OrComma rest rest' :=
  h.imp (fun h => h.head.symm) And.right

/-- A lexeme that ends no value does not tell the texts apart at all. -/
theorem Lexeme.Behind.alike {l : Lexeme} {rest rest' : List Char} (h : l.Behind rest rest')
    (hl : l.endsValue = false) : Alike rest rest' :=
  h.resolve_right fun h => by simp [hl] at h

/-- A word with no constant in front of it has none in front of it before another text. -/
theorem constant_eq_none {text rest rest' : List Char} (h : constant? (text ++ rest) = none)
    (hhead : rest.head? = rest'.head?)
    (hstop : ∀ c, rest'.head? = some c → (!(isBlank c || c == ':')) = false) :
    constant? (text ++ rest') = none := by
  by_contra hsome
  obtain ⟨⟨name, r⟩, hname⟩ := Option.ne_none_iff_exists'.mp hsome
  obtain ⟨hmem, happend, hany⟩ := constant_eq_some_iff.mp hname
  rcases List.append_eq_append_iff.mp happend with ⟨tail, rfl, rfl⟩ | ⟨tail, rfl, rfl⟩
  · cases tail with
    | nil =>
      have hsame : constant? (text ++ rest) = some (text, rest) :=
        constant_eq_some_iff.mpr ⟨by simpa using hmem, rfl, by rw [hhead]; exact hany⟩
      rw [h] at hsame
      cases hsame
    | cons c cs =>
      -- constants hold no character that ends a word
      have hletters : ∀ name ∈ constants, ∀ c ∈ name, (!(isBlank c || c == ':')) = true := by
        simp [constants, isBlank]
      have hletter := hletters _ hmem c (by simp)
      rw [hstop c rfl] at hletter
      cases hletter
  · have hsame : constant? (name ++ tail ++ rest) = some (name, tail ++ rest) := by
      refine constant_eq_some_iff.mpr ⟨hmem, by simp, ?_⟩
      cases tail with
      | nil => rw [List.nil_append, hhead]; exact hany
      | cons c cs => exact hany
    rw [h] at hsame
    cases hsame

/-- What is cut off does not depend on what is behind it more than `Behind` says. -/
theorem local_cut {c : Char} {t rest rest' : List Char} {l : Lexeme}
    (h : cut c (t ++ rest) = .ok (l, rest)) (hb : l.Behind rest rest') :
    cut c (t ++ rest') = .ok (l, rest') := by
  -- the kind is decided in front of `rest`, so only what ends each kind is to be looked at
  refine cut_eq_ok_iff.mpr ?_
  cases cut_eq_ok_iff.mp h with
  | blank first run =>
    obtain rfl := List.append_cancel_right (append_of_span run)
    obtain ⟨hall, hstop⟩ := span_append_iff.mp run
    exact .blank first (span_append_iff.mpr ⟨hall, by rwa [← (hb.alike rfl).head]⟩)
  | mark first others =>
    obtain rfl : t = [] := by simpa using others
    exact .mark first rfl
  | string first body =>
    obtain rfl := List.append_cancel_right (append_of_stringBody body).1
    exact .string first (local_stringBody body _)
  | line first second body =>
    have happend := append_of_lineComment body
    rw [← happend, ← List.cons_append] at second
    obtain rfl := List.append_cancel_right second
    rw [← happend] at body
    exact .line first rfl (local_lineComment body (hb.alike rfl))
  | block first second body =>
    have happend := append_of_blockComment body
    rw [← happend, ← List.cons_append] at second
    obtain rfl := List.append_cancel_right second
    rw [← happend] at body
    exact .block first rfl (local_blockComment body rest')
  | number first digit number =>
    rw [← List.cons_append] at number
    exact .number first digit (local_cutNumber number hb.orComma)
  | constant first letter constant =>
    obtain ⟨hmem, happend, hany⟩ := constant_eq_some_iff.mp constant
    rw [← List.cons_append] at happend
    obtain rfl := List.append_cancel_right happend
    refine .constant first letter (constant_eq_some_iff.mpr ⟨hmem, rfl, ?_⟩)
    rcases hb.orComma with hhead | hhead
    · rw [hhead]
      exact hany
    · rw [hhead]
      decide
  | word first letter constant word =>
    obtain ⟨text, hl, happend, hne, hall, hspan⟩ := cutWord_ok word
    obtain rfl := Lexeme.word.inj hl
    rw [← List.cons_append] at happend hspan constant
    obtain rfl := List.append_cancel_right happend
    obtain ⟨hin, hstop⟩ := span_append_iff.mp hspan
    have halike := hb.alike rfl
    rw [halike.head] at hstop
    refine .word first letter (constant_eq_none constant halike.head hstop) ?_
    rw [← List.cons_append, cutWord, span_append_iff.mpr ⟨hin, hstop⟩]
    exact if_pos ⟨hne, hall⟩

/-! ## Rows -/

/-- A lexeme is what is cut off the front of its own characters and those behind it. -/
def Lexeme.Cuts (l : Lexeme) (rest : List Char) : Prop :=
  ∃ c t, l.text = c :: t ∧ cut c (t ++ rest) = .ok (l, rest)

/-- What is cut off a text stands in front of what is behind it. -/
theorem cuts_of_cut {c : Char} {cs rest : List Char} {l : Lexeme}
    (h : cut c cs = .ok (l, rest)) : l.Cuts rest ∧ l.text ++ rest = c :: cs := by
  obtain ⟨t, ht, rfl⟩ := text_of_cut h
  exact ⟨⟨c, t, ht, h⟩, by rw [ht]; rfl⟩

namespace Lexeme.Cuts

variable {l : Lexeme} {rest rest' : List Char}

/-- A lexeme that stands has characters. -/
theorem ne_nil (h : l.Cuts rest) : l.text ≠ [] := by
  obtain ⟨c, t, ht, -⟩ := h
  simp [ht]

/-- A lexeme stands in front of every text that it does not tell apart. -/
theorem behind (h : l.Cuts rest) (hb : l.Behind rest rest') : l.Cuts rest' := by
  obtain ⟨c, t, ht, hcut⟩ := h
  exact ⟨c, t, ht, local_cut hcut hb⟩

/-- A lexeme that can end a value stands in front of a comma. -/
theorem comma (h : l.Cuts rest) (hl : l.endsValue = true) (behind : List Char) :
    l.Cuts (',' :: behind) :=
  h.behind (.inr ⟨hl, rfl⟩)

end Lexeme.Cuts

/-- Texts that begin with one character, which does not return to the start of the line. -/
theorem Alike.cons {c : Char} (hc : c ≠ '\r') (rest rest' : List Char) :
    Alike (c :: rest) (c :: rest') :=
  ⟨rfl, by simp only [endsLine, beq_eq_false_iff_ne.mpr hc, Bool.false_and]⟩

/-- A run of blanks stands in front of anything that is not blank. -/
theorem not_blank_of_cuts {c : Char} {rest : List Char} {l : Lexeme} (hc : isBlank c = true)
    (hl : l.text = [c]) (h : l.Cuts rest) : ∀ d, rest.head? = some d → isBlank d = false := by
  obtain ⟨c', t, ht, hcut⟩ := h
  rw [hl] at ht
  obtain ⟨rfl, rfl⟩ := List.cons.inj ht
  rw [List.nil_append, cut_of_isBlank hc, Except.ok.injEq, Prod.mk.injEq] at hcut
  have hspan := append_of_span (Prod.ext rfl hcut.2 : rest.span isBlank = (_, rest))
  have hnil : (rest.span isBlank).1 = [] := List.append_left_eq_self.mp hspan
  have hrun : ([] ++ rest).span isBlank = ([], rest) := Prod.ext hnil hcut.2
  exact (span_append_iff.mp hrun).2

/-- No lexeme tells apart what is behind another one. -/
theorem Alike.of_cuts {l : Lexeme} {rest rest' : List Char} (h : l.Cuts rest) (h' : l.Cuts rest') :
    Alike (l.text ++ rest) (l.text ++ rest') := by
  obtain ⟨c, t, ht, -⟩ := id h
  cases t with
  | cons d ds => simp only [ht]; exact ⟨rfl, rfl⟩
  | nil =>
    rw [ht]
    by_cases hc : c = '\r'
    · -- blanks run on, so no line feed is behind the carriage return
      subst hc
      have hfeed {rest : List Char} (h : l.Cuts rest) : endsLine ('\r' :: rest) = false := by
        have hblank := not_blank_of_cuts (by decide) ht h
        have hne : rest.head? ≠ some '\n' := fun hn => absurd (hblank _ hn) (by decide)
        simpa [endsLine] using hne
      exact ⟨rfl, (hfeed h).trans (hfeed h').symm⟩
    · exact Alike.cons hc _ _

/-- A row of lexemes in front of a text: each of them stands in front of the others and that. -/
def Row : List Lexeme → List Char → Prop
  | [], _ => True
  | l :: ls, rest => l.Cuts (textOf ls ++ rest) ∧ Row ls rest

/-- The characters of no lexemes. -/
@[simp] theorem textOf_nil : textOf [] = [] := rfl

/-- The characters of a lexeme and others behind it. -/
@[simp] theorem textOf_cons (l : Lexeme) (ls : List Lexeme) :
    textOf (l :: ls) = l.text ++ textOf ls := rfl

/-- The characters of two rows of lexemes. -/
@[simp] theorem textOf_append (a b : List Lexeme) : textOf (a ++ b) = textOf a ++ textOf b := by
  simp [textOf]

/-- A row behind another one. -/
theorem row_append {a b : List Lexeme} {rest : List Char} :
    Row (a ++ b) rest ↔ Row a (textOf b ++ rest) ∧ Row b rest := by
  induction a with
  | nil => simp [Row]
  | cons l ls ih => simp [Row, ih, and_assoc]

/-- A row of one lexeme. -/
theorem row_singleton {l : Lexeme} {rest : List Char} : Row [l] rest ↔ l.Cuts rest := by
  simp [Row]

/-- A row that stands in front of two texts is not told apart in front of them. -/
theorem Row.alike {ls : List Lexeme} {rest rest' : List Char} (h : Row ls rest) (h' : Row ls rest')
    (hrest : ls = [] → Alike rest rest') : Alike (textOf ls ++ rest) (textOf ls ++ rest') := by
  cases ls with
  | nil => exact hrest rfl
  | cons l ls =>
    simp only [textOf_cons, List.append_assoc]
    exact .of_cuts h.1 h'.1

/-- A row stands in front of a text that is not told apart. -/
theorem Row.behind {ls : List Lexeme} {rest rest' : List Char} (h : Row ls rest)
    (hrest : Alike rest rest') : Row ls rest' := by
  induction ls with
  | nil => trivial
  | cons l ls ih =>
    have htail := ih h.2
    exact ⟨h.1.behind (.inl (h.2.alike htail fun _ => hrest)), htail⟩

/-- A row stands in front of every text that its last lexeme stands in front of. -/
theorem Row.concat {ls : List Lexeme} {l : Lexeme} {rest rest' : List Char}
    (h : Row (ls ++ [l]) rest) (hl : l.Cuts rest') : Row (ls ++ [l]) rest' := by
  obtain ⟨hls, hlast⟩ := row_append.mp h
  refine row_append.mpr ⟨hls.behind ?_, row_singleton.mpr hl⟩
  exact (row_append.mp h).2.alike (row_singleton.mpr hl) (by simp)

/-- The lexemes of a text that has characters. -/
theorem lexFrom_cons (limit offset : Nat) (c : Char) (cs : List Char) :
    lexFrom (limit + 1) offset (c :: cs) = match cut c cs with
      | .error e => ([], some (e.shift offset))
      | .ok (lexeme, rest) =>
        let (lexemes, problem) := lexFrom limit (offset + lexeme.text.length) rest
        (lexeme :: lexemes, problem) :=
  (rfl)

/-- A text is cut into a row in front of the place where the cutting stops. -/
theorem row_lexFrom {limit : Nat} (offset : Nat) {cs : List Char} (hlen : cs.length ≤ limit) :
    ∃ rest, textOf (lexFrom limit offset cs).1 ++ rest = cs ∧ Row (lexFrom limit offset cs).1 rest ∧
      ((lexFrom limit offset cs).2 = none → rest = []) := by
  induction limit generalizing offset cs with
  | zero =>
    rw [List.length_eq_zero_iff.mp (Nat.le_zero.mp hlen)]
    exact ⟨[], rfl, trivial, fun _ => rfl⟩
  | succ limit ih =>
    cases cs with
    | nil => exact ⟨[], rfl, trivial, fun _ => rfl⟩
    | cons c cs =>
      rw [lexFrom_cons]
      split
      · exact ⟨c :: cs, rfl, trivial, by simp⟩
      · next l rest hcut =>
        obtain ⟨t, ht, happend⟩ := text_of_cut hcut
        have hshort : rest.length ≤ limit := by
          have := congrArg List.length happend
          simp only [List.length_append, List.length_cons] at this hlen
          omega
        obtain ⟨behind, hbehind, hrow, hend⟩ := ih (offset + l.text.length) hshort
        refine ⟨behind, ?_, ⟨?_, hrow⟩, hend⟩
        · rw [textOf_cons, List.append_assoc, hbehind, ht, List.cons_append, happend]
        · rw [hbehind]
          exact (cuts_of_cut hcut).1

/-- A row is cut off the front of its text. -/
theorem lexFrom_of_row {limit offset : Nat} {ls : List Lexeme} (h : Row ls [])
    (hlen : (textOf ls).length ≤ limit) : lexFrom limit offset (textOf ls) = (ls, none) := by
  induction ls generalizing limit offset with
  | nil => cases limit <;> rfl
  | cons l ls ih =>
    obtain ⟨⟨c, t, ht, hcut⟩, hrow⟩ := h
    rw [textOf_cons, ht, List.cons_append] at hlen ⊢
    rw [List.append_nil] at hcut
    cases limit with
    | zero => simp at hlen
    | succ limit =>
      have hshort : (textOf ls).length ≤ limit := by
        simp only [List.length_cons, List.length_append] at hlen
        omega
      simp only [lexFrom_cons, hcut, ih hrow hshort]

/-- A text is cut into a row exactly when the row is written that way. -/
theorem lex_eq_iff {cs : List Char} {ls : List Lexeme} :
    lex cs = (ls, none) ↔ textOf ls = cs ∧ Row ls [] := by
  constructor
  · intro h
    obtain ⟨rest, htext, hrow, hend⟩ := row_lexFrom 0 (le_refl cs.length)
    change lexFrom cs.length 0 cs = (ls, none) at h
    rw [h] at htext hrow hend
    obtain rfl := hend rfl
    exact ⟨by simpa using htext, hrow⟩
  · rintro ⟨rfl, hrow⟩
    exact lexFrom_of_row hrow (le_refl _)

end ArtifactSync.Jsonc
