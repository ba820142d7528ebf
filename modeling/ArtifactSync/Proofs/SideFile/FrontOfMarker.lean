import ArtifactSync.Proofs.SideFile.EditorExclude

/-!
# What stands in front of the marker

Comments and members are what settings say to a reader (`Mention`), and those in front of the marker
of the exclude list are the user's. They stand outside the list, or in it (`Front`), and `front?`
reads them off a text.

A rewrite keeps everything outside the list, and in the list it keeps the members with the comments
inside them, but a comment between two members is lost (`keepsFront_iff`). So a text keeps what
stands in front of its marker exactly when there is no such comment.
-/

namespace ArtifactSync.Jsonc

/-! ## Comments and members -/

/-- A comment or a member, as it is written. -/
inductive Mention where
  | comment (text : List Char)
  | member (text : List Char)
  deriving DecidableEq

/-- The comments among lexemes. -/
def commentsIn (lexemes : List Lexeme) : List Mention :=
  lexemes.filterMap fun
    | .comment text => some (.comment text)
    | _ => none

mutual

/-- The comments and members inside a value, in the order in which they begin. -/
def Value.mentions : Value → List Mention
  | .scalar _ => []
  | .array items => itemMentions items
  | .object items => itemMentions items

/-- The comments and members of one item. -/
def Item.mentions : Item → List Mention
  | .gap lexeme => commentsIn [lexeme]
  | .element value => value.mentions
  | .member name between value =>
    .member (textOf (name :: between ++ value.lexemes)) :: (commentsIn between ++ value.mentions)

/-- The comments and members of items in a row. -/
def itemMentions : List Item → List Mention
  | [] => []
  | item :: items => item.mentions ++ itemMentions items

end

/-- Whether an item is a comment that stands between others. -/
def Item.isComment : Item → Bool
  | .gap (.comment _) => true
  | _ => false

/-- An item that is neither a member nor a comment mentions nothing, if it stands in an object. -/
theorem mentions_eq_nil_of_gap {l : Lexeme} (h : (Item.gap l).isComment = false) :
    (Item.gap l).mentions = [] := by
  cases l with
  | comment text => cases h
  | blank | mark | string | number | constant | word => rfl

/-- Between the members of an object there are only gaps. -/
theorem eq_gap_of_not_member {comma : Bool} {items : List Item}
    (hitems : (itemsEnd .object comma items).isSome = true) {item : Item} (hitem : item ∈ items)
    (hmember : item.isMember = false) : ∃ l, item = .gap l := by
  induction items generalizing comma with
  | nil => cases hitem
  | cons first items ih =>
    obtain ⟨stop, hstop⟩ := Option.isSome_iff_exists.mp hitems
    obtain ⟨c, hend, hrest⟩ := Option.bind_eq_some_iff.mp hstop
    rcases List.mem_cons.mp hitem with rfl | hitem
    · cases item with
      | gap l => exact ⟨l, rfl⟩
      | element v => simp [Item.end?] at hend
      | member name between v => cases hmember
    · exact ih (Option.isSome_iff_exists.mpr ⟨stop, hrest⟩) hitem

/-- Members alone mention no more than the items they are among. -/
theorem length_itemMentions_filter_le (items : List Item) :
    (itemMentions (items.filter Item.isMember)).length ≤ (itemMentions items).length := by
  induction items with
  | nil => exact le_refl _
  | cons item items ih =>
    rw [List.filter_cons]
    split
    · simp only [itemMentions, List.length_append]
      omega
    · simp only [itemMentions, List.length_append]
      omega

/-- Members alone mention as much as the items they are among when no comment stands between. -/
theorem itemMentions_filter_iff {items : List Item}
    (hgap : ∀ item ∈ items, item.isMember = false → ∃ l, item = .gap l) :
    itemMentions (items.filter Item.isMember) = itemMentions items ↔
      ∀ item ∈ items, item.isComment = false := by
  induction items with
  | nil => simp [itemMentions]
  | cons item items ih =>
    obtain ⟨hfirst, hrest⟩ := List.forall_mem_cons.mp hgap
    have ih := ih hrest
    rw [List.forall_mem_cons]
    by_cases hmember : item.isMember = true
    · have hcomment : item.isComment = false := by
        cases item with
        | gap l => cases hmember
        | element v => cases hmember
        | member name between v => rfl
      rw [List.filter_cons_of_pos hmember, itemMentions, itemMentions, List.append_cancel_left_eq, ih]
      exact (and_iff_right hcomment).symm
    · obtain ⟨l, rfl⟩ := hfirst (by simpa using hmember)
      rw [List.filter_cons_of_neg hmember, itemMentions]
      cases hcomment : (Item.gap l).isComment with
      | false =>
        rw [mentions_eq_nil_of_gap hcomment, List.nil_append, ih]
        exact (and_iff_right rfl).symm
      | true =>
        -- one mention is missing, so the rows differ in length
        have hone : (Item.gap l).mentions.length = 1 := by
          cases l with
          | comment text => rfl
          | blank | mark | string | number | constant | word => cases hcomment
        have hle := length_itemMentions_filter_le items
        constructor
        · intro heq
          have hlength := congrArg List.length heq
          rw [List.length_append, hone] at hlength
          omega
        · rintro ⟨hfalse, -⟩
          cases hfalse

end ArtifactSync.Jsonc

namespace ArtifactSync.EditorExclude

open Jsonc

/-! ## What is in front -/

/-- What stands in front of the marker: comments and members outside the list, and the items in the
list. -/
structure Front where
  outer : List Mention
  entries : List Item

/-- All comments and members in front of the marker. -/
def Front.mentions (f : Front) : List Mention :=
  f.outer ++ itemMentions f.entries

/-- The items of a list in front of the marker. -/
def inFront (list : List Item) : List Item :=
  list.takeWhile fun item => !item.isNamed marker

/-- What stands in front of the marker in settings whose last member with the name holds a list with
the marker in it. -/
def front? (existing : List Char) : Option Front :=
  match readDocument existing with
  | .error _ => none
  | .ok d =>
    match d.value with
    | some (.object items) =>
      match items.reverse.span fun item => !item.isNamed key with
      | (_, .member _ between (.object list) :: front) =>
        if list.any (Item.isNamed marker) then
          some {
            outer := commentsIn d.before ++ itemMentions front.reverse ++ commentsIn between
            entries := inFront list }
        else none
      | _ => none
    | _ => none

/-- What stands in front of the marker of a list in a place. -/
def Place.frontOf (p : Place) (list : List Item) : Front :=
  ⟨commentsIn p.before ++ itemMentions p.front ++ commentsIn p.between, inFront list⟩

/-- That is read off the text of the document. -/
theorem Place.Fits.front_eq {p : Place} (hp : p.Fits) {cs : List Char} {list : List Item}
    (hread : readDocument cs = .ok (p.fill (.object list))) :
    front? cs = if list.any (Item.isNamed marker) then some (p.frontOf list) else none := by
  have hnamed : (Item.member p.name p.between (.object list)).isNamed key = true := by
    simp [Item.isNamed, Item.name?, hp.name]
  have hspan : (p.front ++ .member p.name p.between (.object list) :: p.behind).reverse.span
      (fun item => !item.isNamed key) =
        (p.behind.reverse, .member p.name p.between (.object list) :: p.front.reverse) :=
    span_reverse hnamed hp.last
  simp only [front?, hread, Place.fill, Place.items, hspan, List.reverse_reverse]
  rfl

/-- Settings with a marker have a place for the list. -/
theorem exists_place_of_front {existing : List Char} {f : Front} (h : front? existing = some f) :
    ∃ (p : Place) (list : List Item), p.Fits ∧ (Value.object list).fits = true ∧
      f = p.frontOf list ∧ Kept (keptEntries list) ∧ ∀ outputs, render existing outputs =
        .ok (p.fill (excludeObject (keptEntries list) (outputs.map Path.toSlash))).text := by
  cases hread : readDocument existing with
  | error e => simp [front?, hread] at h
  | ok d =>
    cases hv : d.value with
    | none => simp [front?, hread, hv] at h
    | some v =>
      cases v with
      | scalar l => simp [front?, hread, hv] at h
      | array items => simp [front?, hread, hv] at h
      | object items =>
        rcases exists_last (Item.isNamed key) items with
          hnone | ⟨front, last, behind, rfl, hlast, hbehind⟩
        · simp only [front?, hread, hv, span_reverse_none hnone] at h
          cases h
        · have hlist : listMember? (front ++ last :: behind) = some last :=
            getLast_filter hlast hbehind
          -- only a member that holds an object can hold the marker
          obtain ⟨name, between, list, rfl⟩ :
              ∃ name between list, last = .member name between (.object list) := by
            simp only [front?, hread, hv, span_reverse hlast hbehind] at h
            split at h
            · next between list rest hspan =>
              exact ⟨_, between, list, (List.cons.inj (Prod.mk.inj hspan).2).1⟩
            · cases h
          obtain ⟨p, hp, rfl, rfl, rfl, hkept, hrender⟩ := exists_place_of_list hread hv hlist
          obtain ⟨hdocument, -⟩ := readDocument_eq_ok_iff.mp hread
          obtain ⟨-, hfits, -⟩ := Place.fits_of_fill hdocument hp.name hp.last
          rw [hp.front_eq hread] at h
          split at h
          · exact ⟨p, list, hp, hfits, (Option.some.inj h).symm, hkept, hrender⟩
          · cases h

/-! ## What a rewrite leaves in front -/

/-- The entries that are kept are the members in front of the marker. -/
theorem keptEntries_eq (list : List Item) :
    keptEntries list = (inFront list).filter Item.isMember := by
  have hnamed {item : Item} (h : item.isMember = false) : item.isNamed marker = false := by
    cases item with
    | gap l => rfl
    | element v => rfl
    | member name between v => cases h
  unfold keptEntries inFront
  induction list with
  | nil => rfl
  | cons item list ih =>
    by_cases hmember : item.isMember = true
    · rw [List.filter_cons_of_pos hmember, List.takeWhile_cons, List.takeWhile_cons]
      split
      · rw [List.filter_cons_of_pos hmember, ih]
      · rfl
    · -- only a member has a name, so anything else is passed over
      have hother : item.isNamed marker = false := hnamed (by simpa using hmember)
      rw [List.filter_cons_of_neg hmember, ih, List.takeWhile_cons_of_pos (by simp [hother]),
        List.filter_cons_of_neg hmember]

/-- The first of several members that are laid out. -/
theorem layOut_cons (depth : Nat) (item : Item) {items : List Item} (h : items ≠ []) :
    layOut depth (item :: items) =
      .gap (lineBreak depth) :: item :: .gap (.mark .comma) :: layOut depth items := by
  cases items with
  | nil => exact absurd rfl h
  | cons next items => rfl

/-- A list that is laid out mentions in front of its marker the entries that are kept. -/
theorem itemMentions_inFront {kept : List Item} (hkept : ∀ item ∈ kept, item.isNamed marker = false)
    (names : List (List Char)) :
    itemMentions (inFront (listItems kept names)) = itemMentions kept := by
  have hmarker : (entry marker).isNamed marker = true := rfl
  have hgap (l : Lexeme) : (Item.gap l).isNamed marker = false := rfl
  unfold listItems
  induction kept with
  | nil =>
    -- the marker is the first entry, with a line break in front of it
    obtain ⟨rest, hrest⟩ : ∃ rest, layOut 2 (generated names) =
        .gap (lineBreak 2) :: entry marker :: rest := by
      cases names with
      | nil => exact ⟨_, rfl⟩
      | cons name names => exact ⟨_, rfl⟩
    rw [List.nil_append, hrest]
    simp [inFront, hmarker, hgap, itemMentions, Item.mentions, commentsIn, lineBreak]
  | cons item kept ih =>
    obtain ⟨hitem, hkept⟩ := List.forall_mem_cons.mp hkept
    have hne : kept ++ generated names ≠ [] := by simp [generated]
    have ih := ih hkept
    unfold inFront at ih ⊢
    rw [List.cons_append, layOut_cons 2 item hne]
    simp [hitem, hgap, itemMentions, ih]
    simp [Item.mentions, commentsIn, lineBreak]

/-- What stands in front of the marker stands there again once the settings are rewritten, in the
same order and with the same text. -/
def KeepsFront (existing : List Char) (outputs : List Path) : Prop :=
  ∃ text f f', front? existing = some f ∧ render existing outputs = .ok text ∧
    front? text = some f' ∧ f'.mentions = f.mentions

/-- A rewrite leaves in front of the marker what stood outside the list, and of the list the
members. -/
theorem exists_front_of_render {existing : List Char} {f : Front} (h : front? existing = some f)
    (outputs : List Path) : ∃ text f', render existing outputs = .ok text ∧ front? text = some f' ∧
      f'.mentions = f.outer ++ itemMentions (f.entries.filter Item.isMember) := by
  obtain ⟨p, list, hp, -, rfl, hkept, hrender⟩ := exists_place_of_front h
  -- the place stays as it is, so the new text reads back as the place with the new list in it
  have hstands : ∀ item ∈ keptEntries list, Stands item := fun item hitem => (hkept item hitem).1
  let names := outputs.map Path.toSlash
  have hread : readDocument (p.fill (excludeObject (keptEntries list) names)).text =
      .ok (p.fill (.object (listItems (keptEntries list) names))) :=
    readDocument_eq_ok_iff.mpr
      ⟨hp.fill (fits_excludeObject hstands names) (row_excludeObject hstands names), rfl⟩
  have hmarker : (listItems (keptEntries list) names).any (Item.isNamed marker) = true := by
    refine List.any_eq_true.mpr ⟨entry marker, ?_, rfl⟩
    have hmem : entry marker ∈ (listItems (keptEntries list) names).filter Item.isMember := by
      rw [filter_listItems hstands]
      simp [generated]
    exact (List.mem_filter.mp hmem).1
  refine ⟨_, p.frontOf (listItems (keptEntries list) names), hrender outputs, ?_, ?_⟩
  · rw [hp.front_eq hread, if_pos hmarker]
  · have hentries : itemMentions (inFront (listItems (keptEntries list) names)) =
        itemMentions ((inFront list).filter Item.isMember) := by
      rw [itemMentions_inFront (fun item hitem => (hkept item hitem).2) names, keptEntries_eq]
    simp only [Front.mentions, Place.frontOf, hentries]

/-- Settings keep what stands in front of their marker exactly when no comment stands between two
entries there. -/
theorem keepsFront_iff {existing : List Char} {f : Front} (h : front? existing = some f)
    (outputs : List Path) :
    KeepsFront existing outputs ↔ ∀ item ∈ f.entries, item.isComment = false := by
  obtain ⟨text, f', hrender, hfront, hmentions⟩ := exists_front_of_render h outputs
  have hgap : ∀ item ∈ f.entries, item.isMember = false → ∃ l, item = .gap l := by
    obtain ⟨p, list, -, hfits, rfl, -⟩ := exists_place_of_front h
    rw [Value.fits] at hfits
    exact fun item hitem => eq_gap_of_not_member hfits ((List.takeWhile_subset _) hitem)
  calc KeepsFront existing outputs ↔ f'.mentions = f.mentions := by
        constructor
        · rintro ⟨text', g, g', hg, hrender', hg', hsame⟩
          obtain rfl : f = g := Option.some.inj (h.symm.trans hg)
          obtain rfl : text = text' := Except.ok.inj (hrender.symm.trans hrender')
          obtain rfl : f' = g' := Option.some.inj (hfront.symm.trans hg')
          exact hsame
        · exact fun hsame => ⟨text, f, f', h, hrender, hfront, hsame⟩
    _ ↔ itemMentions (f.entries.filter Item.isMember) = itemMentions f.entries := by
        rw [hmentions, Front.mentions, List.append_cancel_left_eq]
    _ ↔ ∀ item ∈ f.entries, item.isComment = false := itemMentions_filter_iff hgap

/-- Settings with a comment outside the list and one inside an entry. -/
def commentedSettings : List Char :=
  ("\x7b // font\n\"size\": 14, \"files.exclude\": \x7b\"a\": /* why */ true, " ++
    "\"civetman:generated\": true\x7d\x7d").toList

/-- Both comments stay. -/
theorem keepsFront_commented : ∃ f, front? commentedSettings = some f ∧
    (∀ item ∈ f.entries, item.isComment = false) ∧
      KeepsFront commentedSettings [Path.ofString "o.ts"] := by
  have hany : (front? commentedSettings).any (·.entries.all fun item => !item.isComment) = true := by
    decide +kernel
  cases hfront : front? commentedSettings with
  | none =>
    rw [hfront] at hany
    cases hany
  | some f =>
    rw [hfront, Option.any_some, List.all_eq_true] at hany
    have hentries : ∀ item ∈ f.entries, item.isComment = false := by simpa using hany
    exact ⟨f, rfl, hentries, (keepsFront_iff hfront _).mpr hentries⟩

/-- Settings with a comment in front of an entry. -/
def annotatedSettings : List Char :=
  "\x7b\"files.exclude\": \x7b// mine\n\"a\": true, \"civetman:generated\": true\x7d\x7d".toList

/-- That comment is lost. -/
theorem not_keepsFront_annotated : ¬KeepsFront annotatedSettings [Path.ofString "o.ts"] := by
  rintro ⟨text, f, f', hfront, hrender, hfront', hsame⟩
  have hbefore : (front? annotatedSettings).map Front.mentions =
      some [.comment "// mine".toList, .member "\"a\": true".toList] := by decide +kernel
  have hbehind : ((render annotatedSettings [Path.ofString "o.ts"]).toOption.bind front?).map
      Front.mentions = some [.member "\"a\": true".toList] := by decide +kernel
  rw [hfront, Option.map_some, Option.some.injEq] at hbefore
  rw [hrender, Except.toOption, Option.bind_some, hfront', Option.map_some, Option.some.injEq, hsame,
    hbefore] at hbehind
  cases hbehind

end ArtifactSync.EditorExclude
