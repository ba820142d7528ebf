import ArtifactSync.Proofs.Path.Slash
import ArtifactSync.Proofs.SideFile.Place

/-!
# The editor's exclude list, rewritten

Every rewrite that succeeds fills a place (`exists_place`), however it came about: the list that was
there is replaced, or one is added behind the last member, in an object without members, behind
comments, or in a file of its own. What a rewrite does to settings (`render_spec`), and that the
last of several rewrites is the only one that counts (`render_absorbs`), are read off the place.
-/

namespace ArtifactSync.EditorExclude

open Jsonc

section Object

variable {existing : List Char} {d : Document} {items : List Item}
  (hread : readDocument existing = .ok d) (hv : d.value = some (.object items))
include hread hv

/-- A rewrite fails when the member holds no list. -/
theorem exists_list_of_render {member : Item} (hlist : listMember? items = some member)
    {outputs : List Path} {text : List Char} (h : render existing outputs = .ok text) :
    ∃ name between old, member = .member name between (.object old) := by
  obtain ⟨front, behind, rfl, hlast, hbehind⟩ := exists_of_listMember hlist
  rw [render_object hread hv, mergeItems_last hlast hbehind] at h
  cases member with
  | gap l => cases hlast
  | element v => cases hlast
  | member name between v =>
    cases v with
    | scalar l => cases h
    | array items => cases h
    | object old => exact ⟨name, between, old, rfl⟩

/-- Without a list a member is added, and nothing is taken away. -/
theorem exists_place_of_none (hlist : listMember? items = none) :
    ∃ p : Place, p.Adds d items ∧ ∀ outputs, render existing outputs =
      .ok (p.fill (excludeObject [] (outputs.map Path.toSlash))).text := by
  obtain ⟨before, value, after⟩ := d
  obtain rfl : value = _ := hv
  have hnamed := listMember_eq_none_iff.mp hlist
  obtain ⟨p, hp⟩ := exists_adds (readDocument_eq_ok_iff.mp hread).1 hnamed
  refine ⟨p, hp, fun outputs => ?_⟩
  rw [render_object hread rfl, mergeItems_none hnamed]
  exact congrArg Except.ok (hp.added _)

end Object

/-- The text of a file of its own, behind comments. -/
theorem text_freshPlace (before : List Lexeme) (v : Value) :
    ((freshPlace before).fill v).text = textOf before ++ ((freshPlace []).fill v).text := by
  simp [Place.text_fill, Place.opening, Place.closing, freshPlace, lonePlace]

/-- Behind comments a list that can be written as it is fills a place. -/
theorem exists_place_of_comments {existing : List Char} {d : Document}
    (hread : readDocument existing = .ok d) (hv : d.value = none)
    (hblank : existing.all Text.isBlank = false) :
    ∃ p : Place, p.Fits ∧ ∀ outputs, Listable (outputs.map Path.toSlash) →
      render existing outputs = .ok (p.fill (excludeObject [] (outputs.map Path.toSlash))).text := by
  obtain ⟨hfits, htext⟩ := readDocument_eq_ok_iff.mp hread
  have hlexemes : d.lexemes = d.before := by
    simp [Document.lexemes, hv, hfits.empty hv]
  have hgaps : Gaps d.before existing [] := by
    rw [← htext, Document.text, hlexemes]
    exact ⟨hfits.before, rfl, hlexemes ▸ hfits.row⟩
  have hbrace (rest : List Char) (c : Char) (hc : ('\x7b' :: rest).head? = some c) :
      Text.isBlank c = false := by
    cases hc; decide
  obtain ⟨ls, hls⟩ : ∃ ls, ∀ rest, Gaps ls
      (if existing.getLast? = some '\n' then existing else existing ++ ['\n']) ('\x7b' :: rest) := by
    by_cases hend : existing.getLast? = some '\n'
    · exact ⟨d.before, fun rest => by rw [if_pos hend]; exact hgaps.of_newline hend (hbrace rest)⟩
    · obtain ⟨ls, hls⟩ := hgaps.exists_newline
      exact ⟨ls, fun rest => by rw [if_neg hend]; exact hls _ (hbrace rest)⟩
  refine ⟨freshPlace ls, fits_freshPlace hls, fun outputs hnames => ?_⟩
  simp only [render, hblank, Bool.false_eq_true, if_false, hread, hv]
  rw [text_freshPlace, (hls []).text, freshSettings_eq hnames]

/-- Every rewrite that succeeds fills a place, and every list that can be written as it is goes
there. -/
theorem exists_place {existing text : List Char} {outputs : List Path}
    (h : render existing outputs = .ok text) :
    ∃ (p : Place) (kept : List Item), p.Fits ∧ Kept kept ∧
      ∀ outputs : List Path, Listable (outputs.map Path.toSlash) → render existing outputs =
        .ok (p.fill (excludeObject kept (outputs.map Path.toSlash))).text := by
  have hnone : Kept [] := by simp [Kept]
  by_cases hblank : existing.all Text.isBlank = true
  · have hfits : (freshPlace []).Fits := fits_freshPlace_nil
    refine ⟨freshPlace [], [], hfits, hnone, fun outputs hnames => ?_⟩
    simp only [render, hblank, if_true, freshSettings_eq hnames]
  rw [Bool.not_eq_true] at hblank
  cases hread : readDocument existing with
  | error e => simp [render, hblank, hread] at h
  | ok d =>
    cases hv : d.value with
    | none =>
      obtain ⟨p, hp, hrender⟩ := exists_place_of_comments hread hv hblank
      exact ⟨p, [], hp, hnone, hrender⟩
    | some v =>
      cases v with
      | scalar l => simp [render, hblank, hread, hv] at h
      | array items => simp [render, hblank, hread, hv] at h
      | object items =>
        cases hlist : listMember? items with
        | none =>
          obtain ⟨p, hp, hrender⟩ := exists_place_of_none hread hv hlist
          exact ⟨p, [], hp.fits, hnone, fun outputs _ => hrender outputs⟩
        | some member =>
          obtain ⟨name, between, old, rfl⟩ := exists_list_of_render hread hv hlist h
          obtain ⟨p, hp, -, -, -, hkept, hrender⟩ := exists_place_of_list hread hv hlist
          exact ⟨p, keptEntries old, hp, hkept, fun outputs _ => hrender outputs⟩

/-- Settings that cannot be rewritten: a text that is neither blank nor a document, a value that is
no object, or an exclude list that is none. -/
def Unmergeable (existing : List Char) : Prop :=
  (existing.all Text.isBlank = false ∧ ∃ e, readDocument existing = .error e) ∨
  (∃ d v, readDocument existing = .ok d ∧ d.value = some v ∧ ∀ items, v ≠ .object items) ∨
  ∃ d items member, readDocument existing = .ok d ∧ d.value = some (.object items) ∧
    listMember? items = some member ∧ ∀ name between old, member ≠ .member name between (.object old)

/-- A rewrite fails on these settings and on no others, whatever the outputs are. -/
theorem exists_error_iff (existing : List Char) (outputs : List Path) :
    (∃ message, render existing outputs = .error message) ↔ Unmergeable existing := by
  constructor
  · rintro ⟨message, h⟩
    by_cases hblank : existing.all Text.isBlank = true
    · simp [render, hblank] at h
    rw [Bool.not_eq_true] at hblank
    cases hread : readDocument existing with
    | error e => exact .inl ⟨hblank, e, hread⟩
    | ok d =>
      cases hv : d.value with
      | none => simp [render, hblank, hread, hv] at h
      | some v =>
        cases v with
        | scalar l => exact .inr (.inl ⟨d, _, hread, hv, by simp⟩)
        | array items => exact .inr (.inl ⟨d, _, hread, hv, by simp⟩)
        | object items =>
          cases hlist : listMember? items with
          | none =>
            obtain ⟨p, -, hrender⟩ := exists_place_of_none hread hv hlist
            rw [hrender] at h
            cases h
          | some member =>
            refine .inr (.inr ⟨d, items, member, hread, hv, hlist, ?_⟩)
            rintro name between old rfl
            obtain ⟨p, -, -, -, -, -, hrender⟩ := exists_place_of_list hread hv hlist
            rw [hrender] at h
            cases h
  · intro h
    cases hrender : render existing outputs with
    | error message => exact ⟨message, rfl⟩
    | ok text =>
      rcases h with ⟨hblank, e, hread⟩ | ⟨d, v, hread, hv, hobject⟩ |
        ⟨d, items, member, hread, hv, hlist, hobject⟩
      · simp [render, hblank, hread] at hrender
      · have hblank := not_blank_of_value hread hv
        cases v with
        | scalar l => simp [render, hblank, hread, hv] at hrender
        | array items => simp [render, hblank, hread, hv] at hrender
        | object items => exact absurd rfl (hobject items)
      · obtain ⟨name, between, old, rfl⟩ := exists_list_of_render hread hv hlist hrender
        exact absurd rfl (hobject name between old)

/-! ## Repeated rewrites -/

/-- No artifact is shown as the marker. -/
theorem toSlash_ne_marker {p : Path} (h : IsListable p) : p.toSlash ≠ marker := by
  intro hslash
  obtain ⟨before, kind, hend⟩ := h.exists_toSlash
  have hlast : (before ++ '.' :: kind.extension).getLast? = some 'd' := by
    rw [← hend, hslash]
    decide
  cases kind <;> simp [OutputKind.extension] at hlast

/-- Artifacts are listed as they are. -/
theorem listable_toSlash {outputs : PathSet} (h : ∀ p ∈ outputs.paths, IsListable p) :
    Listable (outputs.paths.map Path.toSlash) := by
  refine ⟨nodup_toSlash fun p hp => (h p hp).plain, fun hmem => ?_⟩
  obtain ⟨p, hp, hslash⟩ := List.mem_map.mp hmem
  exact toSlash_ne_marker (h p hp) hslash

/-- A rewrite of what a rewrite has left is the rewrite of what was there before. -/
theorem render_of_render {existing text : List Char} {outputs later : List Path}
    (houtputs : Listable (outputs.map Path.toSlash)) (hlater : Listable (later.map Path.toSlash))
    (h : render existing outputs = .ok text) : render text later = render existing later := by
  obtain ⟨p, kept, hp, hkept, hrender⟩ := exists_place h
  rw [hrender outputs houtputs] at h
  obtain rfl := Except.ok.inj h
  rw [hp.render_excludeObject hkept, hrender later hlater]

/-- A rewrite changes the exclude list and nothing else, and leaves a document. Settings that hold an
object are rewritten unless its last member with the name holds no object. If that member is there,
its value is replaced: the user's entries in front of the marker, the marker, and one entry for each
output. If it is not, it is added behind the other members. Every other character stays where it is,
and every other member is read back as it was. -/
theorem render_spec (existing : List Char) (outputs : PathSet) :
    (∀ d items, readDocument existing = .ok d → d.value = some (.object items) →
      (∀ name between old, listMember? items = some (.member name between (.object old)) →
        ∃ (p : Place) (list : List Item) (text : List Char),
          p.name = name ∧ p.between = between ∧ items = p.items (.object old) ∧
          (∀ item ∈ p.behind, item.isNamed key = false) ∧
          render existing outputs.paths = .ok text ∧
          existing = textOf p.opening ++ textOf (Value.object old).lexemes ++ textOf p.closing ∧
          text = textOf p.opening ++ textOf (Value.object list).lexemes ++ textOf p.closing ∧
          readDocument text = .ok { d with value := some (.object (p.items (.object list))) } ∧
          list.filter Item.isMember =
            (old.filter Item.isMember).takeWhile (fun item => !item.isNamed marker) ++
              entry marker :: outputs.paths.map fun q => entry q.toSlash) ∧
      (listMember? items = none →
        ∃ (front added behind : List Char) (d' : Document) (items' list : List Item),
          existing = front ++ behind ∧
          render existing outputs.paths = .ok (front ++ added ++ behind) ∧
          readDocument (front ++ added ++ behind) = .ok d' ∧ d'.value = some (.object items') ∧
          items'.filter Item.isMember =
            items.filter Item.isMember ++ [.member (nameLexeme key) colon (.object list)] ∧
          list.filter Item.isMember =
            entry marker :: outputs.paths.map fun q => entry q.toSlash)) ∧
    ((∃ message, render existing outputs.paths = .error message) ↔ Unmergeable existing) := by
  have hgenerated (kept : List Item) : kept ++ generated (outputs.paths.map Path.toSlash) =
      kept ++ entry marker :: outputs.paths.map fun q => entry q.toSlash := by
    simp [generated]
  refine ⟨fun d items hread hv => ⟨fun name between old hlist => ?_, fun hlist => ?_⟩,
    exists_error_iff existing outputs.paths⟩
  · obtain ⟨p, hp, rfl, rfl, rfl, hkept, hrender⟩ := exists_place_of_list hread hv hlist
    have hstands : ∀ item ∈ keptEntries old, Stands item := fun item hitem => (hkept item hitem).1
    refine ⟨p, listItems (keptEntries old) (outputs.paths.map Path.toSlash), _, rfl, rfl,
      (by injection Option.some.inj hv with h; exact h.symm), hp.last, hrender outputs.paths, ?_,
      p.text_fill _, ?_, ?_⟩
    · rw [← p.text_fill]
      exact (readDocument_eq_ok_iff.mp hread).2.symm
    · exact readDocument_eq_ok_iff.mpr
        ⟨hp.fill (fits_excludeObject hstands _) (row_excludeObject hstands _), rfl⟩
    · rw [filter_listItems hstands, hgenerated]
      rfl
  · obtain ⟨p, hp, hrender⟩ := exists_place_of_none hread hv hlist
    obtain ⟨front, behind, added, added', hexisting, hopening, hclosing⟩ := hp.keeps
    have hstands : ∀ item ∈ ([] : List Item), Stands item := by simp
    let list := listItems [] (outputs.paths.map Path.toSlash)
    have htext : (p.fill (.object list)).text =
        front ++ (added ++ textOf (Value.object list).lexemes ++ added') ++ behind := by
      rw [p.text_fill, hopening, hclosing]
      simp only [List.append_assoc]
    refine ⟨front, added ++ textOf (Value.object list).lexemes ++ added', behind,
      p.fill (.object list), p.items (.object list), list, ?_, ?_, ?_, rfl, hp.members _, ?_⟩
    · rw [← hexisting]
      exact (readDocument_eq_ok_iff.mp hread).2.symm
    · rw [hrender, ← htext]
      rfl
    · exact readDocument_eq_ok_iff.mpr
        ⟨hp.fits.fill (fits_excludeObject hstands _) (row_excludeObject hstands _), htext⟩
    · rw [filter_listItems hstands, hgenerated]
      rfl

/-- Settings with an entry of the user's, the marker, and an artifact behind it. -/
def markedSettings : List Char :=
  "\x7b\"files.exclude\": \x7b\"mine\": false, \"civetman:generated\": true, \"b.ts\": true\x7d\x7d".toList

/-- There the first one stays and the last one is replaced. -/
theorem render_spec_marked : ∃ (p : Place) (list : List Item),
    render markedSettings [Path.ofString "a.ts"] =
      .ok (textOf p.opening ++ textOf (Value.object list).lexemes ++ textOf p.closing) ∧
    list.filter Item.isMember =
      [.member (nameLexeme "mine".toList) colon (.scalar (.constant "false".toList)),
        entry marker, entry "a.ts".toList] := by
  obtain ⟨p, list, text, -, -, -, -, hrender, -, rfl, -, hlist⟩ :=
    ((render_spec markedSettings ⟨[Path.ofString "a.ts"], by simp⟩).1 _ _ rfl rfl).1 _ _ _ rfl
  exact ⟨p, list, hrender, hlist⟩

end ArtifactSync.EditorExclude
