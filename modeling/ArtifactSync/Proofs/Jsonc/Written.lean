import ArtifactSync.Proofs.Jsonc.Reader
import ArtifactSync.Text.Json

/-!
# Writing lexemes

What has to be known of lexemes that are put into a document: where marks, blanks, comments, strings
and constants stand. A value that was read can be put in front of a comma (`Row.comma`), a
name is quoted so that it is read back (`cuts_quote`), and gaps stay gaps when blanks are put in
front of them (`Gaps.exists_cons`) or a line feed behind them (`Gaps.exists_newline`).
-/

namespace ArtifactSync.Jsonc

open Text

/-! ## Lexemes that stand -/

/-- A mark stands in front of everything. -/
theorem cuts_mark (m : Mark) (rest : List Char) : (Lexeme.mark m).Cuts rest :=
  ⟨m.char, [], rfl, cut_eq_ok_iff.mpr (.mark rfl rfl)⟩

/-- A lexeme that means something begins with no blank. -/
theorem Lexeme.Cuts.exists_head {l : Lexeme} {rest : List Char} (h : l.Cuts rest)
    (hl : l.isGap = false) : ∃ c t, l.text = c :: t ∧ isBlank c = false := by
  obtain ⟨c, t, ht, hcut⟩ := h
  have hc := isGap_of_cut hcut
  rw [hl] at hc
  exact ⟨c, t, ht, (Bool.or_eq_false_iff.mp hc.symm).1⟩

/-- Blanks stand in front of everything that is not blank. -/
theorem cuts_blank_iff {text rest : List Char} : (Lexeme.blank text).Cuts rest ↔
    text ≠ [] ∧ (∀ c ∈ text, isBlank c = true) ∧ ∀ c, rest.head? = some c → isBlank c = false := by
  constructor
  · rintro ⟨c, t, ht, hcut⟩
    obtain rfl : text = c :: t := ht
    cases cut_eq_ok_iff.mp hcut with
    | blank first run =>
      obtain ⟨hall, hstop⟩ := span_append_iff.mp run
      exact ⟨by simp, by simpa using ⟨first, hall⟩, hstop⟩
  · rintro ⟨hne, hall, hstop⟩
    obtain ⟨c, t, rfl⟩ := List.exists_cons_of_ne_nil hne
    obtain ⟨hblank, hall⟩ := List.forall_mem_cons.mp hall
    exact ⟨c, t, rfl, cut_eq_ok_iff.mpr (.blank hblank (span_append_iff.mpr ⟨hall, hstop⟩))⟩

/-- A comment runs to the end of its line or to its closing mark. -/
theorem cuts_comment_iff {text rest : List Char} : (Lexeme.comment text).Cuts rest ↔
    (∃ body, text = '/' :: '/' :: body ∧ lineComment (body ++ rest) = (body, rest)) ∨
      ∃ body, text = '/' :: '*' :: body ∧ blockComment? (body ++ rest) = some (body, rest) := by
  constructor
  · rintro ⟨c, t, ht, hcut⟩
    obtain rfl : text = c :: t := ht
    cases cut_eq_ok_iff.mp hcut with
    | line first second body =>
      obtain rfl := (List.cons.inj second).2
      exact .inl ⟨_, rfl, body⟩
    | block first second body =>
      obtain rfl := (List.cons.inj second).2
      exact .inr ⟨_, rfl, body⟩
  · rintro (⟨body, rfl, hbody⟩ | ⟨body, rfl, hbody⟩)
    · exact ⟨'/', '/' :: body, rfl, cut_eq_ok_iff.mpr (.line rfl rfl hbody)⟩
    · exact ⟨'/', '*' :: body, rfl, cut_eq_ok_iff.mpr (.block rfl rfl hbody)⟩

/-- The constant `true` stands in front of what does not continue it. -/
theorem cuts_true {rest : List Char} (h : rest.head?.any isAlphanumeric = false) :
    (Lexeme.constant "true".toList).Cuts rest := by
  refine ⟨'t', "rue".toList, rfl, cut_eq_ok_iff.mpr (.constant (by decide) (by decide) ?_)⟩
  exact constant_eq_some_iff.mpr ⟨by decide, rfl, h⟩

/-! ## Quoted names -/

/-- A control character behind its escape. -/
theorem escapedChar_control : ∀ n < 32, escapedChar ['0', '0', Json.hexDigit (n / 16),
    Json.hexDigit (n % 16)] = .ok (Char.ofNat n) := by
  decide

/-- A character that is written in a string is read as itself. -/
theorem stringBody_escapeChar (c : Char) {cs text value rest : List Char}
    (h : stringBody '"' 0 cs = .ok (text, value, rest)) :
    stringBody '"' 0 (Json.escapeChar c ++ cs) =
      .ok (Json.escapeChar c ++ text, c :: value, rest) := by
  have hletter {d : Char} (hd : escape '"' d cs = .ok (1, c)) :
      stringBody '"' 0 ('\\' :: d :: cs) = .ok ('\\' :: d :: text, c :: value, rest) := by
    unfold stringBody
    dsimp only
    rw [if_neg (by decide), if_pos rfl, hd]
    dsimp only
    unfold stringBody
    dsimp only
    rw [h]
  have hchar {n : Nat} (hn : c.toNat = n) : c = Char.ofNat n := by rw [← hn, Char.ofNat_toNat]
  unfold Json.escapeChar
  split
  · next hc => subst hc; exact hletter rfl
  split
  · next hc => subst hc; exact hletter rfl
  split
  · next hc => subst hc; exact hletter rfl
  split
  · next hc => subst hc; exact hletter rfl
  split
  · next hc => subst hc; exact hletter rfl
  split
  · next hc => obtain rfl := hchar hc; exact hletter rfl
  split
  · next hc => obtain rfl := hchar hc; exact hletter rfl
  split
  · next hcontrol =>
    have hescape (cs : List Char) : escape '"' 'u' ('0' :: '0' :: Json.hexDigit (c.toNat / 16) ::
        Json.hexDigit (c.toNat % 16) :: cs) = .ok (5, c) := by
      have := escapedChar_control c.toNat hcontrol
      rw [Char.ofNat_toNat] at this
      simp only [escape, if_pos, List.take, this]
      rfl
    simp only [List.cons_append, List.nil_append]
    unfold stringBody
    dsimp only
    rw [if_neg (by decide), if_pos rfl, hescape]
    simp only [stringBody, h]
  · next hquote hback _ _ _ _ _ _ =>
    rw [List.singleton_append, List.singleton_append]
    unfold stringBody
    rw [if_neg hquote, if_neg hback, h]

/-- A quoted name stands in front of everything. -/
theorem cuts_quote (name rest : List Char) :
    (Lexeme.string (Json.quote name) name).Cuts rest := by
  have hbody : stringBody '"' 0 (name.flatMap Json.escapeChar ++ '"' :: rest) =
      .ok (name.flatMap Json.escapeChar ++ ['"'], name, rest) := by
    induction name with
    | nil => rfl
    | cons c name ih => simpa using stringBody_escapeChar c ih
  refine ⟨'"', name.flatMap Json.escapeChar ++ ['"'], rfl, cut_eq_ok_iff.mpr ?_⟩
  rw [List.append_assoc, List.singleton_append]
  exact .string (.inl rfl) hbody

/-! ## Values in front of a comma -/

/-- A value that fits ends in a lexeme that can end a value. -/
theorem Value.exists_last {v : Value} (h : v.fits = true) :
    ∃ ls l, v.lexemes = ls ++ [l] ∧ l.endsValue = true := by
  cases v with
  | scalar l =>
    have hl : l.isScalar = true := by simpa [Value.fits] using h
    refine ⟨[], l, rfl, ?_⟩
    cases l with
    | string text value => rfl
    | number text => rfl
    | constant text => rfl
    | _ => cases hl
  | array items => exact ⟨_, _, Value.lexemes.eq_2 items, rfl⟩
  | object items => exact ⟨_, _, Value.lexemes.eq_3 items, rfl⟩

/-- A row that ends in a value stands in front of a comma. -/
theorem Row.comma {front : List Lexeme} {v : Value} (hv : v.fits = true) {rest : List Char}
    (h : Row (front ++ v.lexemes) rest) (behind : List Char) :
    Row (front ++ v.lexemes) (',' :: behind) := by
  obtain ⟨ls, l, hlexemes, hl⟩ := Value.exists_last hv
  rw [hlexemes, ← List.append_assoc] at h ⊢
  exact h.concat ((row_singleton.mp (row_append.mp h).2).comma hl behind)

/-! ## Gaps -/

/-- Gaps in a row that make up a text. -/
structure Gaps (ls : List Lexeme) (text rest : List Char) : Prop where
  gap : ∀ l ∈ ls, l.isGap = true
  text : textOf ls = text
  row : Row ls rest

/-- A blank in front of gaps is part of the first one or a gap of its own. -/
theorem Gaps.exists_cons {ls : List Lexeme} {text rest : List Char} (h : Gaps ls text rest)
    (hrest : ∀ c, rest.head? = some c → isBlank c = false) {c : Char} (hc : isBlank c = true) :
    ∃ ls', Gaps ls' (c :: text) rest := by
  obtain ⟨hgap, rfl, hrow⟩ := h
  cases ls with
  | nil =>
    refine ⟨[.blank [c]], by simp [Lexeme.isGap], rfl, row_singleton.mpr (cuts_blank_iff.mpr ?_)⟩
    exact ⟨by simp, by simpa using hc, hrest⟩
  | cons l ls =>
    obtain ⟨hl, hgap'⟩ := List.forall_mem_cons.mp hgap
    cases l with
    | blank text =>
      obtain ⟨-, hall, hstop⟩ := cuts_blank_iff.mp hrow.1
      refine ⟨.blank (c :: text) :: ls, ⟨?_, rfl, cuts_blank_iff.mpr ?_, hrow.2⟩⟩
      · exact List.forall_mem_cons.mpr ⟨rfl, hgap'⟩
      · exact ⟨by simp, List.forall_mem_cons.mpr ⟨hc, hall⟩, hstop⟩
    | comment text =>
      refine ⟨.blank [c] :: .comment text :: ls, ⟨?_, rfl, cuts_blank_iff.mpr ?_, hrow⟩⟩
      · exact List.forall_mem_cons.mpr ⟨rfl, hgap⟩
      · have hslash : text.head? = some '/' := by
          rcases cuts_comment_iff.mp hrow.1 with ⟨body, rfl, -⟩ | ⟨body, rfl, -⟩ <;> rfl
        refine ⟨by simp, by simpa using hc, fun d hd => ?_⟩
        obtain rfl : '/' = d := by simpa [textOf_cons, Lexeme.text, hslash] using hd
        decide
    | _ => cases hl

/-- A comment that ends with its line stands in front of the end of a line. -/
theorem endsLine_of_lineComment {cs text rest : List Char} (h : lineComment cs = (text, rest)) :
    endsLine rest = true := by
  induction cs generalizing text with
  | nil => cases h; rfl
  | cons c cs ih =>
    rw [lineComment] at h
    split at h
    · next hend => cases h; simpa [endsLine] using hend
    · exact ih (Prod.ext rfl (Prod.mk.inj h).2)

/-- A gap in front of something stays where it is when the text goes on. -/
theorem Lexeme.Cuts.goesOn {l : Lexeme} (hl : l.isGap = true) {rest : List Char} (h : l.Cuts rest)
    (hne : rest ≠ []) (more : List Char) : l.Cuts (rest ++ more) := by
  obtain ⟨c, rest, rfl⟩ := List.exists_cons_of_ne_nil hne
  cases l with
  | blank text =>
    rw [cuts_blank_iff] at h ⊢
    exact h
  | comment text =>
    rcases cuts_comment_iff.mp h with ⟨body, rfl, hbody⟩ | ⟨body, rfl, hbody⟩
    · have hends := endsLine_of_lineComment hbody
      refine cuts_comment_iff.mpr (.inl ⟨body, rfl, local_lineComment hbody ⟨rfl, ?_⟩⟩)
      rw [hends, List.cons_append]
      cases rest with
      | nil =>
        have hc : c = '\n' := by simpa [endsLine] using hends
        simp [endsLine, hc]
      | cons d ds => exact hends.symm
    · exact cuts_comment_iff.mpr (.inr ⟨body, rfl, local_blockComment hbody _⟩)
  | _ => cases hl

/-- A comment that runs to the end of the text leaves a carriage return to the line feed that is
put behind it. -/
theorem exists_lineComment_newline {cs : List Char} (h : lineComment cs = (cs, [])) :
    ∃ body tail, cs = body ++ tail ∧ (tail = [] ∨ tail = ['\r']) ∧
      ∀ more, lineComment (cs ++ '\n' :: more) = (body, tail ++ '\n' :: more) := by
  induction cs with
  | nil => exact ⟨[], [], rfl, .inl rfl, fun more => by simp [lineComment]⟩
  | cons c cs ih =>
    rw [lineComment] at h
    split at h
    · cases h
    · next hgoes =>
      obtain ⟨body, tail, rfl, htail, hmore⟩ :=
        ih (Prod.ext (List.cons.inj (Prod.mk.inj h).1).2 (Prod.mk.inj h).2)
      cases hcs : body ++ tail with
      | nil =>
        obtain ⟨rfl, rfl⟩ := List.append_eq_nil_iff.mp hcs
        by_cases hc : c = '\r'
        · subst hc
          exact ⟨[], ['\r'], rfl, .inr rfl, fun more => by simp [lineComment]⟩
        · refine ⟨[c], [], rfl, .inl rfl, fun more => ?_⟩
          have hn : c ≠ '\n' := fun hn => hgoes (.inl hn)
          simp [lineComment, hc, hn]
      | cons d ds =>
        refine ⟨c :: body, tail, by rw [← hcs]; rfl, htail, fun more => ?_⟩
        have hmore := hmore more
        have hgoes' : ¬ (c = '\n' ∨ c = '\r' ∧ (body ++ tail ++ '\n' :: more).head? = some '\n') := by
          rwa [hcs] at hgoes ⊢
        rw [← hcs, List.cons_append, lineComment, if_neg hgoes', hmore]

/-- A line feed behind a gap is part of it or a gap of its own, except that a comment may leave it a
carriage return. -/
theorem Lexeme.Cuts.exists_newline {l : Lexeme} (hgap : l.isGap = true) (h : l.Cuts []) :
    ∃ ls, ∀ rest : List Char, (∀ c, rest.head? = some c → isBlank c = false) →
      Gaps ls (l.text ++ ['\n']) rest := by
  cases l with
  | blank text =>
    obtain ⟨-, hall, -⟩ := cuts_blank_iff.mp h
    refine ⟨[.blank (text ++ ['\n'])], fun rest hrest => ⟨by simp [Lexeme.isGap], ?_, ?_⟩⟩
    · simp [Lexeme.text]
    · refine row_singleton.mpr (cuts_blank_iff.mpr ⟨by simp, fun c hc => ?_, hrest⟩)
      rcases List.mem_append.mp hc with hc | hc
      · exact hall c hc
      · rw [List.mem_singleton.mp hc]; decide
  | comment text =>
    have hblank {tail : List Char} (htail : tail = [] ∨ tail = ['\r']) :
        ∀ c ∈ tail ++ ['\n'], isBlank c = true := by
      rcases htail with rfl | rfl <;> simp [isBlank]
    rcases cuts_comment_iff.mp h with ⟨body, rfl, hbody⟩ | ⟨body, rfl, hbody⟩
    · rw [List.append_nil] at hbody
      obtain ⟨body, tail, rfl, htail, hmore⟩ := exists_lineComment_newline hbody
      refine ⟨[.comment ('/' :: '/' :: body), .blank (tail ++ ['\n'])],
        fun rest hrest => ⟨by simp [Lexeme.isGap], ?_, ?_, ?_⟩⟩
      · simp [Lexeme.text]
      · refine cuts_comment_iff.mpr (.inl ⟨body, rfl, ?_⟩)
        simpa [Lexeme.text] using hmore rest
      · exact row_singleton.mpr (cuts_blank_iff.mpr ⟨by simp, hblank htail, hrest⟩)
    · refine ⟨[.comment ('/' :: '*' :: body), .blank ['\n']],
        fun rest hrest => ⟨by simp [Lexeme.isGap], by simp [Lexeme.text], ?_, ?_⟩⟩
      · exact cuts_comment_iff.mpr (.inr ⟨body, rfl, local_blockComment hbody _⟩)
      · exact row_singleton.mpr (cuts_blank_iff.mpr ⟨by simp, hblank (.inl rfl), hrest⟩)
  | _ => cases hgap

/-- A line feed behind gaps goes into the last one or behind it. -/
theorem Gaps.exists_newline {ls : List Lexeme} {text : List Char} (h : Gaps ls text []) :
    ∃ ls', ∀ rest : List Char, (∀ c, rest.head? = some c → isBlank c = false) →
      Gaps ls' (text ++ ['\n']) rest := by
  induction ls generalizing text with
  | nil =>
    obtain ⟨-, rfl, -⟩ := h
    refine ⟨[.blank ['\n']], fun rest hrest => ⟨by simp [Lexeme.isGap], rfl, ?_⟩⟩
    exact row_singleton.mpr (cuts_blank_iff.mpr ⟨by simp, by simp; decide, hrest⟩)
  | cons l ls ih =>
    obtain ⟨hgap, rfl, hl, hrow⟩ := h
    obtain ⟨hlgap, hgap⟩ := List.forall_mem_cons.mp hgap
    rw [List.append_nil] at hl
    by_cases hls : ls = []
    · subst hls
      rw [textOf_cons, textOf_nil, List.append_nil]
      exact hl.exists_newline hlgap
    · obtain ⟨ls', hls'⟩ := ih ⟨hgap, rfl, hrow⟩
      have hne : textOf ls ≠ [] := by
        obtain ⟨l', rest, rfl⟩ := List.exists_cons_of_ne_nil hls
        simp [hrow.1.ne_nil]
      refine ⟨l :: ls', fun rest hrest => ?_⟩
      obtain ⟨hgap', htext, hrow'⟩ := hls' rest hrest
      refine ⟨List.forall_mem_cons.mpr ⟨hlgap, hgap'⟩, by simp [htext], ?_, hrow'⟩
      rw [htext, List.append_assoc]
      exact hl.goesOn hlgap hne _

/-- A comment that ends with its line has no line feed. -/
theorem not_mem_lineComment {cs text rest : List Char} (h : lineComment cs = (text, rest)) :
    '\n' ∉ text := by
  induction cs generalizing text with
  | nil => cases h; simp
  | cons c cs ih =>
    rw [lineComment] at h
    split at h
    · cases h; simp
    · next hgoes =>
      obtain rfl := (Prod.mk.inj h).1
      have hc : '\n' ≠ c := fun hc => hgoes (.inl hc.symm)
      simpa [hc] using ih (Prod.ext rfl (Prod.mk.inj h).2)

/-- Gaps that end in a line feed stand in front of everything that is not blank. -/
theorem Gaps.of_newline {ls : List Lexeme} {text : List Char} (h : Gaps ls text [])
    (hend : text.getLast? = some '\n') {rest : List Char}
    (hrest : ∀ c, rest.head? = some c → isBlank c = false) : Gaps ls text rest := by
  obtain ⟨hgap, rfl, hrow⟩ := h
  refine ⟨hgap, rfl, ?_⟩
  rcases List.eq_nil_or_concat ls with rfl | ⟨ls, l, rfl⟩
  · trivial
  rw [List.concat_eq_append] at *
  have hl : l.Cuts [] := row_singleton.mp (row_append.mp hrow).2
  refine hrow.concat ?_
  cases l with
  | blank text =>
    obtain ⟨hne, hall, -⟩ := cuts_blank_iff.mp hl
    exact cuts_blank_iff.mpr ⟨hne, hall, hrest⟩
  | comment text =>
    rcases cuts_comment_iff.mp hl with ⟨body, rfl, hbody⟩ | ⟨body, rfl, hbody⟩
    · have hlast : ('/' :: '/' :: body).getLast? = some '\n' := by
        simpa [Lexeme.text, List.getLast?_append, List.getLast?_cons] using hend
      have hmem : '\n' ∈ body := by simpa using List.mem_of_getLast? hlast
      exact absurd hmem (not_mem_lineComment hbody)
    · exact cuts_comment_iff.mpr (.inr ⟨body, rfl, local_blockComment hbody _⟩)
  | _ => cases hgap _ (List.mem_append_right _ List.mem_cons_self)

end ArtifactSync.Jsonc
