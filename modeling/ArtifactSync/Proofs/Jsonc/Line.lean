import ArtifactSync.Proofs.Jsonc.Written

/-!
# Objects on one line

What reads the lines that events are written on (`readObject?`), and that it gets back what was
written, whatever the texts and numbers are (`readObject_renderObject`). Such a line is standard
JSON, while the reader of settings documents takes more than that. So what only settings may have is
refused: blanks, comments, words, single quotes, commas that are missing or lead nowhere, and
control characters. None of these characters is written (`le_of_mem_renderObject`), so an object
never takes more than one line.
-/

namespace ArtifactSync.Json

open Jsonc

/-! ## Reading -/

/-- The value that a lexeme is: a text in double quotes, or a number that is digits alone. -/
def Scalar.ofLexeme? : Lexeme → Option Scalar
  | .string ('"' :: _) value => some (.text (String.ofList value))
  | .number digits =>
    if digits.all Char.isDigit then some (.number (Nat.ofDigitChars 10 digits 0)) else none
  | _ => none

/-- The member that an item is: a name in double quotes, a colon and a value. -/
def member? : Item → Option (String × Scalar)
  | .member (.string ('"' :: _) name) [.mark .colon] (.scalar l) =>
    (Scalar.ofLexeme? l).map (String.ofList name, ·)
  | _ => none

/-- The members that items are, with one comma between each and the next. -/
def members? : List Item → Option (List (String × Scalar))
  | [] => some []
  | [item] => (member? item).map ([·])
  | item :: .gap (.mark .comma) :: next :: items => do
    let m ← member? item
    let ms ← members? (next :: items)
    return m :: ms
  | _ => none

/-- The members of the object that a line is. -/
def readObject? (line : String) : Option (List (String × Scalar)) :=
  if line.toList.any (·.toNat < 32) then none
  else match readDocument line.toList with
    | .ok ⟨[], some (.object items), []⟩ => members? items
    | _ => none

/-- The text of the member with a name. -/
def text? (ms : List (String × Scalar)) (name : String) : Option String :=
  match ms.lookup name with
  | some (.text s) => some s
  | _ => none

/-- The number of the member with a name. -/
def number? (ms : List (String × Scalar)) (name : String) : Option Nat :=
  match ms.lookup name with
  | some (.number n) => some n
  | _ => none

/-! ## No control characters -/

/-- Hexadecimal digits are none. -/
theorem le_hexDigit : ∀ n < 16, 32 ≤ (hexDigit n).toNat := by
  decide

/-- A character is written in a string without any. -/
theorem le_of_mem_escapeChar {c d : Char} (h : d ∈ escapeChar c) : 32 ≤ d.toNat := by
  have hletter {e : Char} (hmem : d ∈ ['\\', e]) (he : 32 ≤ e.toNat) : 32 ≤ d.toNat := by
    rcases List.mem_cons.mp hmem with rfl | hmem
    · decide
    · rwa [List.mem_singleton.mp hmem]
  unfold escapeChar at h
  split at h
  · exact hletter h (by decide)
  split at h
  · exact hletter h (by decide)
  split at h
  · exact hletter h (by decide)
  split at h
  · exact hletter h (by decide)
  split at h
  · exact hletter h (by decide)
  split at h
  · exact hletter h (by decide)
  split at h
  · exact hletter h (by decide)
  split at h
  · next hcontrol =>
    simp only [List.mem_cons, List.not_mem_nil, or_false] at h
    rcases h with rfl | rfl | rfl | rfl | rfl | rfl
    · decide
    · decide
    · decide
    · decide
    · exact le_hexDigit _ (by omega)
    · exact le_hexDigit _ (by omega)
  · next hcontrol =>
    rw [List.mem_singleton.mp h]
    omega

/-- So is a whole string. -/
theorem le_of_mem_quote {cs : List Char} {d : Char} (h : d ∈ quote cs) : 32 ≤ d.toNat := by
  simp only [quote, List.mem_cons, List.cons_append, List.mem_append, List.mem_flatMap,
    List.not_mem_nil, or_false] at h
  rcases h with rfl | ⟨c, -, hd⟩ | rfl
  · decide
  · exact le_of_mem_escapeChar hd
  · decide

/-- The digits of a number. -/
theorem toList_toString (n : Nat) : (toString n).toList = Nat.toDigits 10 n :=
  Nat.toList_repr

/-- A value is written without any. -/
theorem Scalar.le_of_mem_render {v : Scalar} {d : Char} (h : d ∈ v.render) : 32 ≤ d.toNat := by
  cases v with
  | text s => exact le_of_mem_quote h
  | number n =>
    rw [render, toList_toString] at h
    have hdigit := Nat.isDigit_of_mem_toDigits (by decide) (by decide) h
    have hzero : 48 ≤ d.toNat := (Char.isDigit_iff_toNat.mp hdigit).1
    omega

/-- A member is written without any. -/
theorem le_of_mem_renderMember {m : String × Scalar} {d : Char} (h : d ∈ renderMember m) :
    32 ≤ d.toNat := by
  rcases List.mem_append.mp h with hname | hvalue
  · exact le_of_mem_quote hname
  · rcases List.mem_cons.mp hvalue with rfl | hvalue
    · decide
    · exact Scalar.le_of_mem_render hvalue

/-- Members in a row are written without any. -/
theorem le_of_mem_renderMembers {ms : List (String × Scalar)} {d : Char}
    (h : d ∈ List.intercalate [','] (ms.map renderMember)) : 32 ≤ d.toNat := by
  induction ms with
  | nil => cases h
  | cons m ms ih =>
    cases ms with
    | nil => exact le_of_mem_renderMember (by simpa using h)
    | cons m' ms =>
      rw [List.map_cons, List.map_cons, List.intercalate_cons_cons] at h
      rcases List.mem_append.mp h with hfront | hbehind
      · rcases List.mem_append.mp hfront with hmember | hcomma
        · exact le_of_mem_renderMember hmember
        · rw [List.mem_singleton.mp hcomma]
          decide
      · exact ih hbehind

/-- So is an object. -/
theorem le_of_mem_renderObject {ms : List (String × Scalar)} {d : Char}
    (h : d ∈ (renderObject ms).toList) : 32 ≤ d.toNat := by
  rw [renderObject, String.toList_ofList] at h
  rcases List.mem_append.mp h with hfront | hbrace
  · rcases List.mem_cons.mp hfront with rfl | hmembers
    · decide
    · exact le_of_mem_renderMembers hmembers
  · rw [List.mem_singleton.mp hbrace]
    decide

/-! ## Numbers -/

/-- A number is the digit zero, or its first digit is another one. -/
theorem toDigits_cases (n : Nat) : Nat.toDigits 10 n = ['0'] ∨
    ∃ k ds, (0 < k ∧ k < 10) ∧ Nat.toDigits 10 n = k.digitChar :: ds := by
  induction n using Nat.strong_induction_on with
  | _ n ih =>
    by_cases hn : n < 10
    · rw [Nat.toDigits_of_lt_base hn]
      rcases Nat.eq_zero_or_pos n with rfl | hpos
      · exact .inl rfl
      · exact .inr ⟨n, [], ⟨hpos, hn⟩, rfl⟩
    · rw [Nat.toDigits_of_base_le (by decide) (by omega)]
      rcases ih (n / 10) (by omega) with hzero | ⟨k, ds, hk, hfront⟩
      · have hvalue := Nat.ofDigitChars_ten_toDigits (n := n / 10)
        rw [hzero] at hvalue
        have : n / 10 = 0 := hvalue.symm
        omega
      · exact .inr ⟨k, ds ++ [(n % 10).digitChar], hk, by rw [hfront, List.cons_append]⟩

/-- The characters that digits begin with are those of numbers. -/
theorem opens_digitChar : ∀ k < 10, opens k.digitChar = false ∧ k.digitChar.isDigit = true := by
  decide

/-- Only the digit zero is written as a zero. -/
theorem digitChar_ne_zero : ∀ k < 10, 0 < k → k.digitChar ≠ '0' := by
  decide

/-- No mark goes on with a number. -/
theorem not_in_number (m : Mark) (behind : List Char) : m.char.isDigit = false ∧
    fractionPart (m.char :: behind) = .ok ([], m.char :: behind) ∧
    exponentPart (m.char :: behind) = .ok ([], m.char :: behind) := by
  cases m <;> exact ⟨rfl, rfl, rfl⟩

/-- A number stands in front of a mark. -/
theorem cuts_number (n : Nat) (m : Mark) (behind : List Char) :
    (Lexeme.number (Nat.toDigits 10 n)).Cuts (m.char :: behind) := by
  obtain ⟨hmark, hfraction, hexponent⟩ := not_in_number m behind
  have hcuts {k : Nat} (hk : k < 10) {ds : List Char}
      (hwhole : wholePart (k.digitChar :: ds ++ m.char :: behind) =
        .ok (k.digitChar :: ds, m.char :: behind)) :
      (Lexeme.number (k.digitChar :: ds)).Cuts (m.char :: behind) := by
    obtain ⟨hopens, hdigit⟩ := opens_digitChar k hk
    have hparts : NumberParts [] (k.digitChar :: ds) [] [] (m.char :: behind) :=
      ⟨.inl rfl, hwhole, hfraction, hexponent⟩
    refine ⟨k.digitChar, ds, rfl, cut_eq_ok_iff.mpr (.number hopens (.inr hdigit) ?_)⟩
    simpa using hparts.cutNumber
  rcases toDigits_cases n with hzero | ⟨k, ds, ⟨hpos, hk⟩, hds⟩
  · rw [hzero]
    exact hcuts (k := 0) (by decide) rfl
  · have hrun : (k.digitChar :: ds ++ m.char :: behind).span Char.isDigit =
        (k.digitChar :: ds, m.char :: behind) := by
      refine span_append_iff.mpr ⟨fun c hc => ?_, fun c hc => ?_⟩
      · exact Nat.isDigit_of_mem_toDigits (by decide) (by decide) (hds ▸ hc)
      · cases hc
        exact hmark
    rw [hds]
    refine hcuts hk ?_
    unfold wholePart
    split
    · next heq => exact absurd (List.cons.inj heq).1 (digitChar_ne_zero k hk hpos)
    · rw [digits, hrun]

/-! ## The lexemes of an object -/

/-- The lexeme that a value is written as. -/
def Scalar.lexeme : Scalar → Lexeme
  | text s => .string (quote s.toList) s.toList
  | number n => .number (Nat.toDigits 10 n)

/-- It has the characters of the value. -/
theorem Scalar.text_lexeme (v : Scalar) : v.lexeme.text = v.render := by
  cases v with
  | text s => rfl
  | number n => exact (toList_toString n).symm

/-- It stands in front of a mark. -/
theorem Scalar.cuts_lexeme (v : Scalar) (m : Mark) (behind : List Char) :
    v.lexeme.Cuts (m.char :: behind) := by
  cases v with
  | text s => exact cuts_quote s.toList _
  | number n => exact cuts_number n m behind

/-- It is read as the value. -/
theorem Scalar.ofLexeme_lexeme (v : Scalar) : ofLexeme? v.lexeme = some v := by
  cases v with
  | text s => simp [lexeme, quote, ofLexeme?]
  | number n =>
    have hdigits : (Nat.toDigits 10 n).all Char.isDigit = true :=
      List.all_eq_true.mpr fun c => Nat.isDigit_of_mem_toDigits (by decide) (by decide)
    rw [lexeme, ofLexeme?, if_pos hdigits, Nat.ofDigitChars_ten_toDigits]

/-- The item that a member is written as. -/
def itemOf (m : String × Scalar) : Item :=
  .member (.string (quote m.1.toList) m.1.toList) [.mark .colon] (.scalar m.2.lexeme)

/-- It has the characters of the member. -/
theorem textOf_itemOf (m : String × Scalar) : textOf (itemOf m).lexemes = renderMember m := by
  have htext : textOf (itemOf m).lexemes =
      quote m.1.toList ++ ':' :: (m.2.lexeme.text ++ []) := rfl
  rw [htext, Scalar.text_lexeme, List.append_nil, renderMember]

/-- It stands in front of a mark. -/
theorem row_itemOf (x : String × Scalar) (m : Mark) (behind : List Char) :
    Row (itemOf x).lexemes (m.char :: behind) := by
  have hvalue := x.2.cuts_lexeme m behind
  exact ⟨cuts_quote .., cuts_mark .., by simpa [Value.lexemes, textOf] using hvalue, trivial⟩

/-- It is read as the member. -/
theorem member_itemOf (m : String × Scalar) : member? (itemOf m) = some m := by
  simp [itemOf, quote, member?, Scalar.ofLexeme_lexeme]

/-- It fits into an object. -/
theorem end_itemOf (m : String × Scalar) (comma : Bool) :
    (itemOf m).end? .object comma = some true := by
  have hvalue : m.2.lexeme.isScalar = true := by
    cases m.2 <;> rfl
  simp [itemOf, Item.end?, Value.fits, hvalue, Lexeme.name?, isBetween, meaning, Lexeme.isGap]

/-- The items that members in a row are written as. -/
def itemsOf (ms : List (String × Scalar)) : List Item :=
  (ms.map itemOf).intersperse (.gap (.mark .comma))

/-- What is written for a member with others behind it. -/
theorem itemsOf_cons_cons (m m' : String × Scalar) (ms : List (String × Scalar)) :
    itemsOf (m :: m' :: ms) = itemOf m :: .gap (.mark .comma) :: itemsOf (m' :: ms) :=
  List.intersperse_cons_cons

/-- They have the characters of the members. -/
theorem textOf_itemsOf (ms : List (String × Scalar)) :
    textOf (itemLexemes (itemsOf ms)) = List.intercalate [','] (ms.map renderMember) := by
  induction ms with
  | nil => rfl
  | cons m ms ih =>
    cases ms with
    | nil => simp [itemsOf, itemLexemes, textOf_itemOf]
    | cons m' ms =>
      rw [itemsOf_cons_cons, List.map_cons, List.map_cons, List.intercalate_cons_cons,
        ← List.map_cons, ← ih]
      simp [itemLexemes, Item.lexemes, Lexeme.text, Mark.char, textOf_itemOf]

/-- They stand in front of a mark. -/
theorem row_itemsOf (ms : List (String × Scalar)) (m : Mark) (behind : List Char) :
    Row (itemLexemes (itemsOf ms)) (m.char :: behind) := by
  induction ms with
  | nil => trivial
  | cons x ms ih =>
    cases ms with
    | nil => simpa [itemsOf, itemLexemes] using row_itemOf x m behind
    | cons x' ms =>
      rw [itemsOf_cons_cons, itemLexemes, itemLexemes, row_append]
      exact ⟨row_itemOf x .comma _, cuts_mark .., ih⟩

/-- They fit into an object. -/
theorem isSome_end_itemsOf (ms : List (String × Scalar)) :
    (itemsEnd .object false (itemsOf ms)).isSome = true := by
  induction ms with
  | nil => rfl
  | cons x ms ih =>
    cases ms with
    | nil => simp [itemsOf, itemsEnd, end_itemOf]
    | cons x' ms =>
      rw [itemsOf_cons_cons, itemsEnd, end_itemOf, Option.bind_some, itemsEnd]
      exact ih

/-- They are read as the members. -/
theorem members_itemsOf (ms : List (String × Scalar)) : members? (itemsOf ms) = some ms := by
  induction ms with
  | nil => rfl
  | cons x ms ih =>
    cases ms with
    | nil => simp [itemsOf, members?, member_itemOf]
    | cons x' ms =>
      obtain ⟨items, hitems⟩ : ∃ items, itemsOf (x' :: ms) = itemOf x' :: items := by
        cases ms with
        | nil => exact ⟨[], rfl⟩
        | cons => exact ⟨_, itemsOf_cons_cons ..⟩
      rw [hitems] at ih
      rw [itemsOf_cons_cons, hitems, members?, member_itemOf, ih]
      rfl

/-! ## What was written is read -/

/-- The document that an object is written as. -/
def documentOf (ms : List (String × Scalar)) : Document :=
  ⟨[], some (.object (itemsOf ms)), []⟩

/-- It is read from the line of the object. -/
theorem readDocument_renderObject (ms : List (String × Scalar)) :
    readDocument (renderObject ms).toList = .ok (documentOf ms) := by
  rw [readDocument_eq_ok_iff]
  have hlexemes : (documentOf ms).lexemes =
      .mark .openBrace :: (itemLexemes (itemsOf ms) ++ [.mark .closeBrace]) := by
    simp [documentOf, Document.lexemes, Value.lexemes]
  constructor
  · constructor
    · exact fun l hl => by cases hl
    · rintro v ⟨⟩
      exact isSome_end_itemsOf ms
    · exact fun l hl => by cases hl
    · exact fun hnone => by cases hnone
    · rw [hlexemes]
      exact ⟨cuts_mark .., row_append.mpr ⟨row_itemsOf ms .closeBrace [], cuts_mark .., trivial⟩⟩
  · rw [Document.text, hlexemes, renderObject, String.toList_ofList, textOf_cons, textOf_append,
      textOf_itemsOf]
    rfl

/-- Whatever the members of an object are, they are read from its line. -/
theorem readObject_renderObject (ms : List (String × Scalar)) :
    readObject? (renderObject ms) = some ms := by
  have hcontrol : (renderObject ms).toList.any (·.toNat < 32) = false := by
    rw [List.any_eq_false]
    intro c hc
    have := le_of_mem_renderObject hc
    simpa using this
  rw [readObject?, hcontrol, readDocument_renderObject]
  exact members_itemsOf ms

end ArtifactSync.Json
