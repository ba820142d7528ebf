import ArtifactSync.Proofs.SideFile.ExcludeList

/-!
# The place of the exclude list

A `Place` is a document without the value of one member: everything in front of the value and
everything behind it. An object in a place that fits makes a document that is read back
(`Place.Fits.fill`), and rewriting that document fills the place anew, whatever the rest of it is
(`Place.Fits.render_excludeObject`).

There is such a place in every document that was read: the value of the list that is there
(`exists_place_of_list`), or one behind everything else (`exists_adds`).
-/

namespace ArtifactSync.EditorExclude

open Jsonc

/-! ## The place of the list -/

/-- Settings that hold an object are not blank. -/
theorem not_blank_of_value {existing : List Char} {d : Document} {v : Value}
    (hread : readDocument existing = .ok d) (hv : d.value = some v) :
    existing.all Text.isBlank = false := by
  obtain ⟨hfits, rfl⟩ := readDocument_eq_ok_iff.mp hread
  obtain ⟨ls, l, hlexemes, hl⟩ := Value.exists_last (hfits.value v hv)
  have hd : d.lexemes = d.before ++ ls ++ l :: d.after := by
    simp [Document.lexemes, hv, hlexemes]
  have hrow := hfits.row
  rw [hd, row_append] at hrow
  obtain ⟨c, t, ht, hc⟩ := hrow.2.1.exists_head (Lexeme.isGap_of_endsValue hl)
  exact List.all_eq_false.mpr ⟨c, by simp [Document.text, hd, ht], by simp [hc]⟩

/-- Rewriting settings that hold an object. -/
theorem render_object {existing : List Char} {d : Document} {items : List Item}
    (hread : readDocument existing = .ok d) (hv : d.value = some (.object items))
    (outputs : List Path) : render existing outputs =
      (mergeItems (outputs.map Path.toSlash) items).map fun items =>
        Document.text { d with value := some (.object items) } := by
  simp only [render, not_blank_of_value hread hv, Bool.false_eq_true, if_false, hread, hv]

/-- A document without the value of one member of its object. -/
structure Place where
  before : List Lexeme
  front : List Item
  name : Lexeme
  between : List Lexeme
  behind : List Item
  after : List Lexeme

namespace Place

/-- The items with a value in the place. -/
def items (p : Place) (v : Value) : List Item :=
  p.front ++ .member p.name p.between v :: p.behind

/-- The document with a value in the place. -/
def fill (p : Place) (v : Value) : Document :=
  ⟨p.before, some (.object (p.items v)), p.after⟩

/-- The lexemes in front of the place. -/
def opening (p : Place) : List Lexeme :=
  p.before ++ .mark .openBrace :: (itemLexemes p.front ++ p.name :: p.between)

/-- The lexemes behind it. -/
def closing (p : Place) : List Lexeme :=
  itemLexemes p.behind ++ .mark .closeBrace :: p.after

/-- The lexemes of the document. -/
theorem lexemes_fill (p : Place) (v : Value) :
    (p.fill v).lexemes = p.opening ++ (v.lexemes ++ p.closing) := by
  simp [fill, items, Document.lexemes, Value.lexemes, itemLexemes, Item.lexemes, opening, closing]

/-- The text of the document. -/
theorem text_fill (p : Place) (v : Value) :
    (p.fill v).text = textOf p.opening ++ textOf v.lexemes ++ textOf p.closing := by
  simp [Document.text, lexemes_fill]

/-- The last member that can hold the exclude list, where an object can be put. -/
structure Fits (p : Place) : Prop where
  before : ∀ l ∈ p.before, l.isGap = true
  front : (itemsEnd .object false p.front).isSome = true
  name : p.name.name? = some key
  between : isBetween p.between = true
  behind : (itemsEnd .object true p.behind).isSome = true
  last : ∀ item ∈ p.behind, item.isNamed key = false
  after : ∀ l ∈ p.after, l.isGap = true
  opening : ∀ rest, Row p.opening ('\x7b' :: rest)
  closing : Row p.closing []

/-- The place of an object that was read, and the object. -/
theorem fits_of_fill {p : Place} {old : List Item} (h : (p.fill (.object old)).Fits)
    (hname : p.name.name? = some key) (hlast : ∀ item ∈ p.behind, item.isNamed key = false) :
    p.Fits ∧ (Value.object old).fits = true ∧
      Row (Value.object old).lexemes (textOf p.closing) := by
  have hitems := h.value _ rfl
  rw [Value.fits, Option.isSome_iff_exists] at hitems
  obtain ⟨stop, hstop⟩ := hitems
  rw [items, itemsEnd_append] at hstop
  obtain ⟨c, hfront, hbehind⟩ := Option.bind_eq_some_iff.mp hstop
  obtain ⟨c', hmember, hbehind⟩ := Option.bind_eq_some_iff.mp hbehind
  obtain ⟨rfl, -, hbetween, hold⟩ := end_member hmember
  have hrow := h.row
  rw [lexemes_fill, row_append, row_append, List.append_nil (textOf p.closing)] at hrow
  refine ⟨⟨h.before, ?_, hname, hbetween, ?_, hlast, h.after, fun rest => ?_, hrow.2.2⟩, hold,
    hrow.2.1⟩
  · exact Option.isSome_iff_exists.mpr ⟨c, hfront⟩
  · exact Option.isSome_iff_exists.mpr ⟨stop, hbehind⟩
  · exact hrow.1.behind (Alike.cons (by decide) _ _)

/-- An object in the place makes a document that fits. -/
theorem Fits.fill {p : Place} (h : p.Fits) {list : List Item}
    (hlist : (Value.object list).fits = true) (hrow : ∀ rest, Row (Value.object list).lexemes rest) :
    (p.fill (.object list)).Fits := by
  obtain ⟨c, hfront⟩ := Option.isSome_iff_exists.mp h.front
  have hmember : (Item.member p.name p.between (.object list)).end? .object c = some true :=
    end_member_of (by simp [h.name]) h.between hlist c
  refine ⟨h.before, ?_, h.after, by simp [Place.fill], ?_⟩
  · rintro v ⟨⟩
    rw [Value.fits, items, itemsEnd_append, hfront]
    simpa [itemsEnd, hmember] using h.behind
  · rw [lexemes_fill, row_append, row_append]
    exact ⟨h.opening _, hrow _, h.closing⟩

/-- A list in the place is the one that is replaced. -/
theorem Fits.mergeItems {p : Place} (h : p.Fits) (list : List Item) (names : List (List Char)) :
    mergeItems names (p.items (.object list)) =
      .ok (p.items (excludeObject (keptEntries list) names)) := by
  have hnamed : (Item.member p.name p.between (.object list)).isNamed key = true := by
    simp [Item.isNamed, Item.name?, h.name]
  rw [items, mergeItems_last hnamed h.last]
  rfl

/-- Rewriting a document with a list in the place. -/
theorem Fits.render {p : Place} (h : p.Fits) {list : List Item}
    (hlist : (Value.object list).fits = true) (hrow : ∀ rest, Row (Value.object list).lexemes rest)
    (outputs : List Path) : render (p.fill (.object list)).text outputs =
      .ok (p.fill (excludeObject (keptEntries list) (outputs.map Path.toSlash))).text := by
  have hread : readDocument (p.fill (.object list)).text = .ok (p.fill (.object list)) :=
    readDocument_eq_ok_iff.mpr ⟨h.fill hlist hrow, rfl⟩
  rw [render_object hread rfl, h.mergeItems]
  rfl

end Place

/-! ## Every rewrite fills a place -/

/-- Entries of the user that stay. -/
def Kept (kept : List Item) : Prop :=
  ∀ item ∈ kept, Stands item ∧ item.isNamed marker = false

/-- Names that a file of its own lists as they are: it writes no name twice, and the marker is
there already. -/
structure Listable (names : List (List Char)) : Prop where
  nodup : names.Nodup
  marker : marker ∉ names

/-- The entries in front of the marker of a list that was read are kept. -/
theorem kept_keptEntries {list : List Item} (hlist : (Value.object list).fits = true)
    {rest : List Char} (hrow : Row (Value.object list).lexemes rest) : Kept (keptEntries list) := by
  intro item hitem
  obtain ⟨hmem, hmember⟩ := List.mem_filter.mp ((List.takeWhile_subset _) hitem)
  have hmarker := List.mem_takeWhile_imp hitem
  rw [Value.lexemes, row_append] at hrow
  rw [Value.fits] at hlist
  exact ⟨stands_of_mem hlist hrow.1.2 hmem hmember, by simpa using hmarker⟩

/-- Rewriting a document whose list a rewrite has written. -/
theorem Place.Fits.render_excludeObject {p : Place} (h : p.Fits) {kept : List Item}
    (hkept : Kept kept) (names : List (List Char)) (outputs : List Path) :
    EditorExclude.render (p.fill (excludeObject kept names)).text outputs =
      .ok (p.fill (excludeObject kept (outputs.map Path.toSlash))).text := by
  have hstands : ∀ item ∈ kept, Stands item := fun item hitem => (hkept item hitem).1
  have hfits : (Value.object (listItems kept names)).fits = true := fits_excludeObject hstands names
  have hrender := h.render hfits (row_excludeObject hstands names) outputs
  rwa [keptEntries_listItems hstands names fun item hitem => (hkept item hitem).2] at hrender

/-- The place of a member that stands alone on its line, in front of all others. -/
def lonePlace (before : List Lexeme) (behind : List Item) (after : List Lexeme) : Place :=
  ⟨before, [.gap (lineBreak 1)], nameLexeme key, colon, behind, after⟩

/-- A line break, the name and a colon are a row in front of an object. -/
theorem row_key (rest : List Char) :
    Row (lineBreak 1 :: nameLexeme key :: colon) ('\x7b' :: rest) := by
  refine ⟨cuts_lineBreak 1 fun c hc => ?_, cuts_quote key _, cuts_mark .colon _,
    cuts_blank_iff.mpr ⟨by simp, by simp [Text.isBlank], fun c hc => ?_⟩, trivial⟩
  · obtain rfl : '"' = c := Option.some.inj hc
    decide
  · obtain rfl : '\x7b' = c := Option.some.inj hc
    decide

/-- Such a place fits when what is around it does. -/
theorem fits_lonePlace {before : List Lexeme} {behind : List Item} {after : List Lexeme}
    (hbefore : ∀ l ∈ before, l.isGap = true) (hrow : ∀ rest, Row before ('\x7b' :: rest))
    (hbehind : (itemsEnd .object true behind).isSome = true)
    (hlast : ∀ item ∈ behind, item.isNamed key = false) (hafter : ∀ l ∈ after, l.isGap = true)
    (hclosing : Row (itemLexemes behind ++ .mark .closeBrace :: after) []) :
    (lonePlace before behind after).Fits where
  before := hbefore
  front := rfl
  name := rfl
  between := rfl
  behind := hbehind
  last := hlast
  after := hafter
  opening := fun rest => row_append.mpr ⟨hrow _, cuts_mark .openBrace _, row_key rest⟩
  closing := hclosing

/-- The place in a file of its own, behind comments if there are any. -/
def freshPlace (before : List Lexeme) : Place :=
  lonePlace before [.gap (.blank ['\n'])] [.blank ['\n']]

/-- That place fits. -/
theorem fits_freshPlace {before : List Lexeme} {text : List Char}
    (h : ∀ rest, Gaps before text ('\x7b' :: rest)) : (freshPlace before).Fits := by
  have hfeed {rest : List Char} (hrest : rest = [] ∨ ∃ cs, rest = '\x7d' :: cs) :
      (Lexeme.blank ['\n']).Cuts rest := by
    refine cuts_blank_iff.mpr ⟨by simp, by simp [Text.isBlank], fun c hc => ?_⟩
    rcases hrest with rfl | ⟨cs, rfl⟩
    · cases hc
    · obtain rfl : '\x7d' = c := Option.some.inj hc
      decide
  refine fits_lonePlace (h []).gap (fun rest => (h rest).row) rfl ?_ ?_ ?_
  · simp [Item.isNamed, Item.name?]
  · simp [Lexeme.isGap]
  · exact ⟨hfeed (.inr ⟨_, rfl⟩), cuts_mark .closeBrace _, hfeed (.inl rfl), trivial⟩

/-- Nothing needs to be in front of it. -/
theorem fits_freshPlace_nil : (freshPlace []).Fits :=
  fits_freshPlace fun rest => (⟨by simp, rfl, trivial⟩ : Gaps [] [] ('\x7b' :: rest))

/-- The names that a file of its own lists: each of them once, and not the marker. -/
def listed (names : List (List Char)) : List (List Char) :=
  (names.filter (· ≠ marker)).foldl
    (fun seen name => if seen.contains name then seen else seen ++ [name]) []

/-- A file of its own lists these in its place. -/
theorem freshSettings_listed (names : List (List Char)) :
    freshSettings names = ((freshPlace []).fill (excludeObject [] (listed names))).text := by
  simp only [freshSettings, Document.text, Place.fill, Place.items, freshPlace, lonePlace]
  simp [Document.lexemes, excludeMember, Lexeme.text, listed]

/-- They can be listed as they are. -/
theorem listable_listed (names : List (List Char)) : Listable (listed names) := by
  have hfold (later seen : List (List Char)) (hlater : ∀ name ∈ later, name ≠ marker)
      (hseen : Listable seen) : Listable (later.foldl
        (fun seen name => if seen.contains name then seen else seen ++ [name]) seen) := by
    induction later generalizing seen with
    | nil => exact hseen
    | cons name later ih =>
      obtain ⟨hname, hlater⟩ := List.forall_mem_cons.mp hlater
      rw [List.foldl_cons]
      refine ih _ hlater ?_
      split
      · exact hseen
      · next hnew =>
        have hnew : name ∉ seen := by simpa using hnew
        refine ⟨List.nodup_append.mpr ⟨hseen.nodup, by simp, ?_⟩, ?_⟩
        · rintro a ha b hb rfl
          exact hnew (List.mem_singleton.mp hb ▸ ha)
        · rw [List.mem_append, List.mem_singleton, not_or]
          exact ⟨hseen.marker, Ne.symm hname⟩
  refine hfold _ [] (fun name hname => ?_) ⟨List.nodup_nil, by simp⟩
  simpa using (List.mem_filter.mp hname).2

/-- Names that can be listed as they are, are. -/
theorem listed_eq_self {names : List (List Char)} (h : Listable names) : listed names = names := by
  have hfilter : names.filter (· ≠ marker) = names := by
    refine List.filter_eq_self.mpr fun name hname => ?_
    simpa using fun heq : name = marker => h.marker (heq ▸ hname)
  have hfold (seen : List (List Char)) (hseen : (seen ++ names).Nodup) :
      names.foldl (fun seen name => if seen.contains name then seen else seen ++ [name]) seen =
        seen ++ names := by
    clear h hfilter
    induction names generalizing seen with
    | nil => simp
    | cons name names ih =>
      have hnew : name ∉ seen := fun hmem =>
        (List.nodup_append.mp hseen).2.2 name hmem name (by simp) rfl
      have hstep : (seen ++ [name] ++ names).Nodup := by simpa using hseen
      simpa [hnew] using ih (seen ++ [name]) hstep
  rw [listed, hfilter]
  exact hfold [] h.nodup

/-- A file of its own lists names that it can list as they are. -/
theorem freshSettings_eq {names : List (List Char)} (h : Listable names) :
    freshSettings names = ((freshPlace []).fill (excludeObject [] names)).text := by
  rw [freshSettings_listed, listed_eq_self h]

/-- Different lists in a place make different texts. -/
theorem Place.Fits.names_eq {p : Place} (h : p.Fits) {names others : List (List Char)}
    (heq : (p.fill (excludeObject [] names)).text = (p.fill (excludeObject [] others)).text) :
    names = others := by
  have hstands : ∀ item ∈ ([] : List Item), Stands item := by simp
  have hread (names : List (List Char)) :
      readDocument (p.fill (excludeObject [] names)).text = .ok (p.fill (excludeObject [] names)) :=
    readDocument_eq_ok_iff.mpr
      ⟨h.fill (fits_excludeObject hstands names) (row_excludeObject hstands names), rfl⟩
  have hfill : p.fill (excludeObject [] names) = p.fill (excludeObject [] others) := by
    have hboth := hread names
    rw [heq, hread others] at hboth
    exact (Except.ok.inj hboth).symm
  have hitems : p.items (excludeObject [] names) = p.items (excludeObject [] others) :=
    Value.object.inj (Option.some.inj (congrArg Document.value hfill))
  obtain ⟨hmember, -⟩ := List.cons.inj (List.append_cancel_left hitems)
  have hlist : listItems [] names = listItems [] others :=
    Value.object.inj (Item.member.inj hmember).2.2
  have hentries := congrArg (List.filter Item.isMember) hlist
  rw [filter_listItems hstands, filter_listItems hstands, List.nil_append, List.nil_append] at hentries
  have hentry (a b : List Char) (hab : entry a = entry b) : a = b :=
    (Lexeme.string.inj (Item.member.inj hab).1).2
  exact (List.cons.inj ((List.map_inj_right hentry).mp hentries)).2

/-- Without a member an object holds nothing but gaps. -/
theorem isGap_of_no_member {items : List Item} (hitems : (itemsEnd .object false items).isSome = true)
    (h : ∀ item ∈ items, item.isMember = false) : ∀ l ∈ itemLexemes items, l.isGap = true := by
  induction items with
  | nil => simp [itemLexemes]
  | cons item items ih =>
    obtain ⟨hitem, hrest⟩ := List.forall_mem_cons.mp h
    obtain ⟨stop, hstop⟩ := Option.isSome_iff_exists.mp hitems
    obtain ⟨c, hend, hstop⟩ := Option.bind_eq_some_iff.mp hstop
    cases item with
    | gap l =>
      rw [Item.end?] at hend
      split at hend
      · next hl =>
        cases hend
        rw [itemLexemes, Item.lexemes, List.singleton_append]
        exact List.forall_mem_cons.mpr ⟨hl, ih (Option.isSome_iff_exists.mpr ⟨stop, hstop⟩) hrest⟩
      · simp at hend
    | element v => simp [Item.end?] at hend
    | member name between v => cases hitem

/-- Gaps as items. -/
theorem itemLexemes_gaps (ls : List Lexeme) : itemLexemes (ls.map Item.gap) = ls := by
  induction ls with
  | nil => rfl
  | cons l ls ih => simp [itemLexemes, Item.lexemes, ih]

/-- Gaps can stand everywhere. -/
theorem itemsEnd_gaps (comma : Bool) {ls : List Lexeme} (h : ∀ l ∈ ls, l.isGap = true) :
    itemsEnd .object comma (ls.map Item.gap) = some comma := by
  induction ls with
  | nil => rfl
  | cons l ls ih =>
    obtain ⟨hl, h⟩ := List.forall_mem_cons.mp h
    simp [itemsEnd, Item.end?, hl, ih h]

section Object

variable {existing : List Char} {d : Document} {items : List Item}
  (hread : readDocument existing = .ok d) (hv : d.value = some (.object items))
include hread hv

/-- A list that is there is replaced. -/
theorem exists_place_of_list {name : Lexeme} {between : List Lexeme} {old : List Item}
    (hlist : listMember? items = some (.member name between (.object old))) :
    ∃ p : Place, p.Fits ∧ p.name = name ∧ p.between = between ∧ d = p.fill (.object old) ∧
      Kept (keptEntries old) ∧ ∀ outputs, render existing outputs =
        .ok (p.fill (excludeObject (keptEntries old) (outputs.map Path.toSlash))).text := by
  obtain ⟨hfits, -⟩ := readDocument_eq_ok_iff.mp hread
  obtain ⟨front, behind, rfl, hlast, hbehind⟩ := exists_of_listMember hlist
  let p : Place := ⟨d.before, front, name, between, behind, d.after⟩
  have hd : d = p.fill (.object old) := by
    obtain ⟨before, value, after⟩ := d
    obtain rfl : value = _ := hv
    rfl
  have hfill : (p.fill (.object old)).Fits := hd ▸ hfits
  obtain ⟨hp, hold, hrow⟩ := Place.fits_of_fill hfill
    (by simpa [Item.isNamed, Item.name?] using hlast) hbehind
  refine ⟨p, hp, rfl, rfl, hd, kept_keptEntries hold hrow, fun outputs => ?_⟩
  rw [render_object hread hv, mergeItems_last hlast hbehind]
  rfl

end Object

/-- A place behind everything that an object holds: a member in it is the one that is added, and
nothing is taken away for it. -/
structure Place.Adds (p : Place) (d : Document) (items : List Item) : Prop where
  fits : p.Fits
  members : ∀ v, (p.items v).filter Item.isMember =
    items.filter Item.isMember ++ [.member (nameLexeme key) colon v]
  keeps : ∃ front behind added added', d.text = front ++ behind ∧
    textOf p.opening = front ++ added ∧ textOf p.closing = added' ++ behind
  added : ∀ v, Document.text
    { d with value := some (.object (addMember (.member (nameLexeme key) colon v) items)) } =
      (p.fill v).text

/-- The lexemes of a document that holds an object. -/
theorem lexemes_object (before : List Lexeme) (items : List Item) (after : List Lexeme) :
    Document.lexemes ⟨before, some (.object items), after⟩ =
      before ++ .mark .openBrace :: (itemLexemes items ++ .mark .closeBrace :: after) := by
  simp [Document.lexemes, Value.lexemes]

section Adds

variable {before : List Lexeme} {items : List Item} {after : List Lexeme}
  (hfits : Document.Fits ⟨before, some (.object items), after⟩)
include hfits

/-- In an object without members there is a place on a line of its own. -/
theorem exists_adds_of_no_member (hnone : ∀ item ∈ items, item.isMember = false) :
    ∃ p : Place, p.Adds ⟨before, some (.object items), after⟩ items := by
  have hitems := hfits.value _ rfl
  rw [Value.fits] at hitems
  have hrow := hfits.row
  rw [lexemes_object, row_append] at hrow
  obtain ⟨hbefore, -, hrow⟩ := hrow
  rw [row_append] at hrow
  obtain ⟨hrow, -, hafter⟩ := hrow
  have hgaps : Gaps (itemLexemes items) (textOf (itemLexemes items)) ('\x7d' :: textOf after) := by
    refine ⟨isGap_of_no_member hitems hnone, rfl, ?_⟩
    simpa [Lexeme.text, Mark.char] using hrow
  obtain ⟨ls, hls⟩ := hgaps.exists_cons (fun c hc => by cases hc; decide) (c := '\n') (by decide)
  refine ⟨lonePlace before (ls.map .gap) after, ?_, ?_, ?_, ?_⟩
  · refine fits_lonePlace hfits.before (fun rest => ?_) ?_ ?_ hfits.after ?_
    · exact hbefore.behind (Alike.cons (by decide) _ _)
    · rw [itemsEnd_gaps true hls.gap]; rfl
    · simp [Item.isNamed, Item.name?]
    · rw [itemLexemes_gaps, row_append]
      refine ⟨?_, cuts_mark .closeBrace _, hafter⟩
      simpa [Lexeme.text, Mark.char] using hls.row
  · intro v
    have hnil : items.filter Item.isMember = [] := List.filter_eq_nil_iff.mpr (by simpa using hnone)
    have hgap : (ls.map Item.gap).filter Item.isMember = [] := by simp
    rw [hnil, Place.items, lonePlace]
    simp only [List.singleton_append, List.filter_cons, isMember_gap, isMember_member, hgap,
      Bool.false_eq_true, if_false, if_true, List.nil_append]
  · refine ⟨textOf (before ++ [.mark .openBrace]),
      textOf (itemLexemes items ++ .mark .closeBrace :: after),
      textOf (lineBreak 1 :: nameLexeme key :: colon), ['\n'], ?_, ?_, ?_⟩
    · simp [Document.text, lexemes_object]
    · simp [Place.opening, lonePlace, itemLexemes, Item.lexemes]
    · simp [Place.closing, lonePlace, itemLexemes_gaps, hls.text]
  · intro v
    rw [addMember_none hnone]
    simp [Document.text, Place.fill, Place.items, lonePlace, lexemes_object, itemLexemes,
      Item.lexemes, itemLexemes_gaps, hls.text, Lexeme.text]

/-- Behind the last member there is a place. -/
theorem exists_adds_of_last {front behind : List Item} {last : Item}
    (hnamed : ∀ item ∈ behind, item.isNamed key = false)
    (heq : items = front ++ last :: behind) (hlast : last.isMember = true)
    (hbehind : ∀ item ∈ behind, item.isMember = false) :
    ∃ p : Place, p.Adds ⟨before, some (.object items), after⟩ items := by
  subst heq
  have hitems := hfits.value _ rfl
  rw [Value.fits, Option.isSome_iff_exists] at hitems
  obtain ⟨stop, hstop⟩ := hitems
  rw [itemsEnd_append] at hstop
  obtain ⟨c, hfront, hstop⟩ := Option.bind_eq_some_iff.mp hstop
  obtain ⟨c', hend, hstop⟩ := Option.bind_eq_some_iff.mp hstop
  cases last with
  | gap l => cases hlast
  | element v => cases hlast
  | member name between v =>
  obtain ⟨rfl, -, -, hv⟩ := end_member hend
  have hrow := hfits.row
  have hlexemes : Document.lexemes
      ⟨before, some (.object (front ++ .member name between v :: behind)), after⟩ =
      (before ++ .mark .openBrace :: (itemLexemes front ++ name :: between) ++ v.lexemes) ++
        (itemLexemes behind ++ .mark .closeBrace :: after) := by
    simp [lexemes_object, itemLexemes, Item.lexemes]
  rw [hlexemes, row_append] at hrow
  obtain ⟨hopening, hclosing⟩ := hrow
  refine ⟨⟨before, front ++ [.member name between v, .gap (.mark .comma), .gap (lineBreak 1)],
    nameLexeme key, colon, behind, after⟩, ?_, ?_, ?_, ?_⟩
  · refine ⟨hfits.before, ?_, rfl, rfl, ?_, hnamed, hfits.after, fun rest => ?_, hclosing⟩
    · have hcomma : (Item.gap (.mark .comma)).end? .object true = some false := rfl
      have hbreak : (Item.gap (lineBreak 1)).end? .object false = some false := rfl
      simp [itemsEnd_append, hfront, itemsEnd, hend, hcomma, hbreak]
    · exact Option.isSome_iff_exists.mpr ⟨stop, hstop⟩
    · have hcomma : Row ([.mark .comma] ++ lineBreak 1 :: nameLexeme key :: colon) ('\x7b' :: rest) :=
        row_append.mpr ⟨⟨cuts_mark .comma _, trivial⟩, row_key rest⟩
      have happend := row_append.mpr ⟨hopening.comma hv _, hcomma⟩
      simpa [Place.opening, itemLexemes, Item.lexemes] using happend
  · intro v'
    have hnil : behind.filter Item.isMember = [] :=
      List.filter_eq_nil_iff.mpr (by simpa using hbehind)
    simp only [Place.items, List.filter_append, List.filter_cons, isMember_member, isMember_gap, hnil,
      Bool.false_eq_true, if_false, if_true, List.append_assoc, List.cons_append,
      List.nil_append]
  · refine ⟨_, textOf (itemLexemes behind ++ .mark .closeBrace :: after),
      textOf (.mark .comma :: lineBreak 1 :: nameLexeme key :: colon), [],
      by rw [Document.text, hlexemes, textOf_append], ?_, rfl⟩
    simp [Place.opening, itemLexemes, Item.lexemes]
  · intro v'
    rw [addMember_last hlast hbehind]
    simp [Document.text, Place.fill, Place.items]

/-- In every object without an exclude list there is a place for one. -/
theorem exists_adds (hnamed : ∀ item ∈ items, item.isNamed key = false) :
    ∃ p : Place, p.Adds ⟨before, some (.object items), after⟩ items := by
  rcases exists_last Item.isMember items with hnone | ⟨front, last, behind, heq, hlast, hbehind⟩
  · exact exists_adds_of_no_member hfits hnone
  · exact exists_adds_of_last hfits (fun item hitem => hnamed item (by simp [heq, hitem])) heq hlast
      hbehind

end Adds

end ArtifactSync.EditorExclude
