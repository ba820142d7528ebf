import ArtifactSync.SideFile.EditorExclude
import ArtifactSync.Proofs.Jsonc.Written

/-!
# Entries of the exclude list

An entry is a member that stands in front of a comma (`Stands`): every member that was read is one,
and so is every name that is switched on. So the list that a rewrite lays out is an object that can
be put anywhere (`fits_excludeObject`, `row_excludeObject`), and its members are the ones that were
laid out (`filter_listItems`).

Which member holds the list, and behind which one it is added, is decided from the end of the
settings (`mergeItems_last`, `addMember_last`).
-/

namespace ArtifactSync.EditorExclude

open Jsonc

/-! ## Entries -/

/-- A member is one. -/
@[simp] theorem isMember_member (name : Lexeme) (between : List Lexeme) (v : Value) :
    (Item.member name between v).isMember = true := rfl

/-- A gap is no member. -/
@[simp] theorem isMember_gap (l : Lexeme) : (Item.gap l).isMember = false := rfl

/-- A member that stands in front of a comma. -/
structure Stands (item : Item) : Prop where
  member : item.isMember = true
  fits : ∀ comma, item.end? .object comma = some true
  row : ∀ rest, Row item.lexemes (',' :: rest)

/-- What a member needs to fit. -/
theorem end_member {name : Lexeme} {between : List Lexeme} {v : Value} {comma comma' : Bool}
    (h : (Item.member name between v).end? .object comma = some comma') :
    comma' = true ∧ name.name?.isSome = true ∧ isBetween between = true ∧ v.fits = true := by
  rw [Item.end?] at h
  split at h
  · next hfits => exact ⟨(Option.some.inj h).symm, hfits.2⟩
  · cases h

/-- A member that fits does so behind a comma and without one. -/
theorem end_member_of {name : Lexeme} {between : List Lexeme} {v : Value}
    (hname : name.name?.isSome = true) (hbetween : isBetween between = true)
    (hv : v.fits = true) (comma : Bool) :
    (Item.member name between v).end? .object comma = some true := by
  rw [Item.end?, if_pos ⟨rfl, hname, hbetween, hv⟩]

/-- A member among items that were read stands in front of a comma. -/
theorem stands_of_mem {comma : Bool} {items : List Item}
    (hitems : (itemsEnd .object comma items).isSome = true) {rest : List Char}
    (hrow : Row (itemLexemes items) rest) {item : Item} (hitem : item ∈ items)
    (hmember : item.isMember = true) : Stands item := by
  obtain ⟨a, b, rfl⟩ := List.append_of_mem hitem
  obtain ⟨end', hend'⟩ := Option.isSome_iff_exists.mp hitems
  rw [itemsEnd_append] at hend'
  obtain ⟨c, -, hb⟩ := Option.bind_eq_some_iff.mp hend'
  obtain ⟨c', hend, -⟩ := Option.bind_eq_some_iff.mp hb
  cases item with
  | gap l => cases hmember
  | element v => cases hmember
  | member name between v =>
    obtain ⟨-, hname, hbetween, hv⟩ := end_member hend
    refine ⟨rfl, end_member_of hname hbetween hv, fun behind => ?_⟩
    rw [itemLexemes_append, itemLexemes, row_append, row_append] at hrow
    have hentry : Row (name :: between ++ v.lexemes) (textOf (itemLexemes b) ++ rest) := hrow.2.1
    exact hentry.comma hv behind

/-- An entry stands in front of everything that does not continue the constant. -/
theorem row_entry (name : List Char) {rest : List Char}
    (h : rest.head?.any Text.isAlphanumeric = false) : Row (entry name).lexemes rest := by
  refine ⟨cuts_quote name _, cuts_mark .colon _, cuts_blank_iff.mpr ?_, cuts_true h, trivial⟩
  exact ⟨by simp, by simp [Text.isBlank], fun c hc => by obtain rfl : 't' = c := Option.some.inj hc; decide⟩

/-- An entry stands in front of a comma. -/
theorem stands_entry (name : List Char) : Stands (entry name) where
  member := rfl
  fits := end_member_of rfl (by decide) rfl
  row := fun _ => row_entry name (by simp only [List.head?_cons]; decide)

/-- A member begins with no blank. -/
theorem Stands.head_not_blank {item : Item} (h : Stands item) (rest : List Char) {c : Char}
    (hc : (textOf item.lexemes ++ rest).head? = some c) : Text.isBlank c = false := by
  cases item with
  | gap l => cases h.member
  | element v => cases h.member
  | member name between v =>
    obtain ⟨-, hname, -⟩ := end_member (h.fits true)
    obtain ⟨d, t, ht, hd⟩ := (h.row []).1.exists_head (Lexeme.isGap_of_name hname)
    obtain rfl : d = c := by simpa [Item.lexemes, ht] using hc
    exact hd

/-! ## Entries on lines of their own -/

/-- A line break stands in front of everything that is not blank. -/
theorem cuts_lineBreak (depth : Nat) {rest : List Char}
    (h : ∀ c, rest.head? = some c → Text.isBlank c = false) : (lineBreak depth).Cuts rest := by
  refine cuts_blank_iff.mpr ⟨by simp, fun c hc => ?_, h⟩
  rcases List.mem_cons.mp hc with rfl | hc
  · decide
  · rw [(List.mem_replicate.mp hc).2]; decide

/-- Members that are laid out fit. -/
theorem itemsEnd_layOut (depth : Nat) {items : List Item} (h : ∀ item ∈ items, Stands item)
    (comma : Bool) :
    itemsEnd .object comma (layOut depth items) = some (if items = [] then comma else true) := by
  have hgap (comma : Bool) : (Item.gap (lineBreak depth)).end? .object comma = some comma := by
    simp [Item.end?, lineBreak, Lexeme.isGap]
  have hcomma : (Item.gap (.mark .comma)).end? .object true = some false := by
    simp [Item.end?, Lexeme.isGap]
  fun_induction layOut depth items generalizing comma with
  | case1 => rfl
  | case2 last => simp [itemsEnd, hgap, (h last (by simp)).fits]
  | case3 item items hne ih =>
    have hrest := ih (fun i hi => h i (by simp [hi])) false
    rw [if_neg hne] at hrest
    simp [itemsEnd, hgap, hcomma, (h item (by simp)).fits, hrest]

/-- The members that are laid out are there again. -/
theorem filter_layOut (depth : Nat) {items : List Item} (h : ∀ item ∈ items, Stands item) :
    (layOut depth items).filter Item.isMember = items := by
  fun_induction layOut depth items with
  | case1 => rfl
  | case2 last => simp [(h last (by simp)).member]
  | case3 item items hne ih =>
    simp [(h item (by simp)).member, ih fun i hi => h i (by simp [hi])]

/-- Members that are laid out are a row if the last one stands in front of what is behind them. -/
theorem row_layOut (depth : Nat) {items : List Item} (h : ∀ item ∈ items, Stands item)
    {rest : List Char} (hlast : ∀ last, items.getLast? = some last → Row last.lexemes rest) :
    Row (itemLexemes (layOut depth items)) rest := by
  fun_induction layOut depth items with
  | case1 => trivial
  | case2 last =>
    have hstands := h last (by simp)
    simp only [itemLexemes, Item.lexemes, List.append_nil, List.singleton_append]
    exact ⟨cuts_lineBreak depth fun c => hstands.head_not_blank rest, hlast last rfl⟩
  | case3 item items hne ih =>
    have hstands := h item (by simp)
    have hrest := ih (fun i hi => h i (by simp [hi])) fun last hl =>
      hlast last (by rwa [List.getLast?_cons_of_ne_nil hne])
    simp only [itemLexemes, Item.lexemes, List.singleton_append]
    refine ⟨cuts_lineBreak depth fun c => ?_, row_append.mpr ⟨?_, cuts_mark .comma _, hrest⟩⟩
    · rw [textOf_append, List.append_assoc]
      exact hstands.head_not_blank _
    · exact hstands.row _

/-- The entries behind the ones that are kept. -/
def generated (names : List (List Char)) : List Item :=
  (marker :: names).map entry

/-- The last entry of an exclude list is one that is switched on. -/
theorem exists_last_entry {kept : List Item} {names : List (List Char)} {last : Item}
    (h : (kept ++ generated names).getLast? = some last) : ∃ name, entry name = last := by
  rw [List.getLast?_append, generated, List.getLast?_map] at h
  obtain ⟨name, hname⟩ : ∃ name, (marker :: names).getLast? = some name :=
    ⟨_, List.getLast?_eq_some_getLast (by simp)⟩
  rw [hname] at h
  exact ⟨name, Option.some.inj h⟩

/-- Entries stand in front of commas. -/
theorem stands_append_generated {kept : List Item} (h : ∀ item ∈ kept, Stands item)
    (names : List (List Char)) : ∀ item ∈ kept ++ generated names, Stands item := by
  intro item hitem
  rcases List.mem_append.mp hitem with hitem | hitem
  · exact h item hitem
  · obtain ⟨name, -, rfl⟩ := List.mem_map.mp hitem
    exact stands_entry name

/-- What is between the braces of an exclude list. -/
def listItems (kept : List Item) (names : List (List Char)) : List Item :=
  layOut 2 (kept ++ generated names) ++ [.gap (lineBreak 1)]

/-- The exclude list holds the entries that are kept, the marker and the names. -/
theorem excludeObject_eq (kept : List Item) (names : List (List Char)) :
    excludeObject kept names = .object (listItems kept names) := rfl

section Kept

variable {kept : List Item} (h : ∀ item ∈ kept, Stands item) (names : List (List Char))
include h

/-- The exclude list fits. -/
theorem fits_excludeObject : (excludeObject kept names).fits = true := by
  have hend := itemsEnd_layOut 2 (stands_append_generated h names) false
  simp [excludeObject_eq, listItems, Value.fits, itemsEnd_append, hend, itemsEnd, Item.end?,
    lineBreak, Lexeme.isGap]

/-- The exclude list stands in front of everything. -/
theorem row_excludeObject (rest : List Char) : Row (excludeObject kept names).lexemes rest := by
  rw [excludeObject_eq, Value.lexemes, listItems, itemLexemes_append]
  refine row_append.mpr ⟨⟨cuts_mark _ _, row_append.mpr ⟨?_, cuts_lineBreak 1 ?_, trivial⟩⟩,
    cuts_mark _ _, trivial⟩
  · refine row_layOut 2 (stands_append_generated h names) fun last hlast => ?_
    obtain ⟨name, rfl⟩ := exists_last_entry hlast
    refine row_entry name ?_
    simp only [itemLexemes, Item.lexemes, textOf_cons, lineBreak, Lexeme.text, List.cons_append,
      List.append_nil, List.head?_cons, Option.any_some]
    decide
  · intro c hc
    obtain rfl : '\x7d' = c := Option.some.inj hc
    decide

/-- The members of the exclude list. -/
theorem filter_listItems :
    (listItems kept names).filter Item.isMember = kept ++ generated names := by
  rw [listItems, List.filter_append, filter_layOut 2 (stands_append_generated h names)]
  exact List.append_nil _

/-- The entries that are kept are kept again. -/
theorem keptEntries_listItems (hkept : ∀ item ∈ kept, item.isNamed marker = false) :
    keptEntries (listItems kept names) = kept := by
  rw [keptEntries, filter_listItems h, List.takeWhile_append_of_pos (by simpa using hkept)]
  exact List.append_nil _

end Kept

/-! ## The last item of a kind -/

section Last

variable {q : Item → Bool} {front behind : List Item} {last : Item}

/-- The last item of a kind is found from the end. -/
theorem span_reverse (hlast : q last = true) (hbehind : ∀ item ∈ behind, q item = false) :
    (front ++ last :: behind).reverse.span (fun item => !q item) =
      (behind.reverse, last :: front.reverse) := by
  have happend : (front ++ last :: behind).reverse = behind.reverse ++ last :: front.reverse := by
    simp
  rw [happend, span_append_iff]
  exact ⟨fun item hitem => by simp [hbehind item (by simpa using hitem)], by simp [hlast]⟩

/-- Without an item of the kind all items are passed over. -/
theorem span_reverse_none {items : List Item} (h : ∀ item ∈ items, q item = false) :
    items.reverse.span (fun item => !q item) = (items.reverse, []) := by
  have hspan := span_append_iff (p := fun item => !q item) (a := items.reverse) (b := [])
  rw [List.append_nil] at hspan
  exact hspan.mpr ⟨fun item hitem => by simp [h item (by simpa using hitem)], by simp⟩

/-- There is a last item of a kind, or there is none. -/
theorem exists_last (q : Item → Bool) (items : List Item) : (∀ item ∈ items, q item = false) ∨
    ∃ front last behind, items = front ++ last :: behind ∧ q last = true ∧
      ∀ item ∈ behind, q item = false := by
  rcases hspan : items.reverse.span (fun item => !q item) with ⟨a, b⟩
  have happend := append_of_span hspan
  rw [← happend, span_append_iff] at hspan
  obtain ⟨ha, hb⟩ := hspan
  cases b with
  | nil =>
    refine .inl fun item hitem => ?_
    have hmem : item ∈ a := by simpa [← happend] using List.mem_reverse.mpr hitem
    simpa using ha item hmem
  | cons last b =>
    refine .inr ⟨b.reverse, last, a.reverse, ?_, by simpa using hb last rfl, fun item hitem => ?_⟩
    · have := congrArg List.reverse happend
      simpa using this.symm
    · simpa using ha item (by simpa using hitem)

/-- The last item of a kind is the last one that a filter leaves. -/
theorem getLast_filter (hlast : q last = true) (hbehind : ∀ item ∈ behind, q item = false) :
    ((front ++ last :: behind).filter q).getLast? = some last := by
  have hnil : behind.filter q = [] := by simpa using hbehind
  simp [List.filter_append, hlast, hnil]

end Last

/-- The member that holds the exclude list: the last one with that name. -/
def listMember? (items : List Item) : Option Item :=
  (items.filter (Item.isNamed key)).getLast?

/-- There is none exactly when no item has the name. -/
theorem listMember_eq_none_iff {items : List Item} :
    listMember? items = none ↔ ∀ item ∈ items, item.isNamed key = false := by
  simp [listMember?]

/-- It has the name, and no item behind it has. -/
theorem exists_of_listMember {items : List Item} {member : Item}
    (h : listMember? items = some member) : ∃ front behind, items = front ++ member :: behind ∧
      member.isNamed key = true ∧ ∀ item ∈ behind, item.isNamed key = false := by
  rcases exists_last (Item.isNamed key) items with hnone | ⟨front, last, behind, rfl, hlast, hbehind⟩
  · rw [listMember_eq_none_iff.mpr hnone] at h
    cases h
  · rw [listMember?, getLast_filter hlast hbehind] at h
    obtain rfl := Option.some.inj h
    exact ⟨front, behind, rfl, hlast, hbehind⟩

/-- Without such a member one is added. -/
theorem mergeItems_none {items : List Item} (h : ∀ item ∈ items, item.isNamed key = false)
    (names : List (List Char)) :
    mergeItems names items = .ok (addMember (excludeMember names) items) := by
  rw [mergeItems, span_reverse_none h]

/-- The value of the last such member is replaced. -/
theorem mergeItems_last {front behind : List Item} {last : Item} (hlast : last.isNamed key = true)
    (hbehind : ∀ item ∈ behind, item.isNamed key = false) (names : List (List Char)) :
    mergeItems names (front ++ last :: behind) =
      (replaceList names last).map fun item => front ++ item :: behind := by
  rw [mergeItems, span_reverse hlast hbehind]
  simp

/-- A member is added behind the last one. -/
theorem addMember_last {front behind : List Item} {last : Item} (hlast : last.isMember = true)
    (hbehind : ∀ item ∈ behind, item.isMember = false) (member : Item) :
    addMember member (front ++ last :: behind) = front ++
      last :: .gap (.mark .comma) :: .gap (lineBreak 1) :: member :: behind := by
  rw [addMember, span_reverse hlast hbehind]
  simp

/-- A member is added in front of gaps when it is the only one. -/
theorem addMember_none {items : List Item} (h : ∀ item ∈ items, item.isMember = false)
    (member : Item) : addMember member items =
      .gap (lineBreak 1) :: member :: .gap (.blank ['\n']) :: items := by
  rw [addMember, span_reverse_none h]

end ArtifactSync.EditorExclude
