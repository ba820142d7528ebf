import ArtifactSync.Jsonc.Reader
import ArtifactSync.Proofs.Jsonc.Lexeme

/-!
# Documents and their texts

A document is read from a text exactly when it is written so (`readDocument_eq_ok_iff`): its parts
stand where the reader takes them (`Value.fits`, `Document.Fits`), its lexemes are a row, and their
characters are the text. So a document that was changed is read back from its text when the changed
part fits.

One direction goes along the reading: what has been read so far fits, and its lexemes are those that
were read (`Progress.fits_read`). The other one goes along the document: reading a value where one
is awaited puts it there (`leads_value`).
-/

namespace ArtifactSync.Jsonc

/-! ## What fits -/

/-- Whether a lexeme is a value of its own. -/
def Lexeme.isScalar : Lexeme → Bool
  | string _ _ => true
  | number _ => true
  | constant _ => true
  | _ => false

/-- Whether a value can begin with a lexeme. -/
def Lexeme.startsValue (l : Lexeme) : Bool :=
  l.isScalar || l = .mark .openBracket || l = .mark .openBrace

/-- Such a lexeme means something. -/
theorem Lexeme.isGap_of_startsValue {l : Lexeme} (h : l.startsValue = true) : l.isGap = false := by
  cases l with
  | blank text => cases h
  | comment text => cases h
  | _ => rfl

/-- Nor is a lexeme that can be a name a gap. -/
theorem Lexeme.isGap_of_name {l : Lexeme} (h : l.name?.isSome = true) : l.isGap = false := by
  cases l with
  | blank text => cases h
  | comment text => cases h
  | _ => rfl

/-- The lexemes in a row that mean something. -/
def meaning (lexemes : List Lexeme) : List Lexeme :=
  lexemes.filter fun l => !l.isGap

/-- What is between a name and its value: gaps and one colon. -/
def isBetween (lexemes : List Lexeme) : Bool :=
  meaning lexemes = [.mark .colon]

/-- The check as a proposition. -/
theorem isBetween_iff {ls : List Lexeme} : isBetween ls = true ↔ meaning ls = [.mark .colon] :=
  decide_eq_true_iff

/-- What lexemes behind others mean. -/
theorem meaning_append (a b : List Lexeme) : meaning (a ++ b) = meaning a ++ meaning b :=
  List.filter_append ..

mutual

/-- Whether a value is one that can be read. -/
def Value.fits : Value → Bool
  | .scalar l => l.isScalar
  | .array items => (itemsEnd .array false items).isSome
  | .object items => (itemsEnd .object false items).isSome

/-- Whether a comma can stand behind an item, if the item can stand where `comma` says whether a
comma can. -/
def Item.end? (bracket : Bracket) (comma : Bool) : Item → Option Bool
  | .gap l =>
    if l.isGap then some comma else if l = .mark .comma ∧ comma = true then some false else none
  | .element v => if bracket = .array ∧ v.fits = true then some true else none
  | .member name between v =>
    if bracket = .object ∧ name.name?.isSome = true ∧ isBetween between = true ∧ v.fits = true
    then some true else none

/-- Whether a comma can stand behind items in a row, if they can stand there. -/
def itemsEnd (bracket : Bracket) (comma : Bool) : List Item → Option Bool
  | [] => some comma
  | item :: items => (item.end? bracket comma).bind fun comma => itemsEnd bracket comma items

end

/-- Items behind others. -/
theorem itemsEnd_append (bracket : Bracket) (comma : Bool) (a b : List Item) :
    itemsEnd bracket comma (a ++ b) =
      (itemsEnd bracket comma a).bind fun comma => itemsEnd bracket comma b := by
  induction a generalizing comma with
  | nil => simp [itemsEnd]
  | cons item items ih =>
    simp only [List.cons_append, itemsEnd, ih, Option.bind_assoc]

/-- The lexemes of items behind others. -/
@[simp] theorem itemLexemes_append (a b : List Item) :
    itemLexemes (a ++ b) = itemLexemes a ++ itemLexemes b := by
  induction a with
  | nil => simp [itemLexemes]
  | cons item items ih => simp [itemLexemes, ih]

/-- A document whose parts are where the reader takes them, written so that they are found. -/
structure Document.Fits (d : Document) : Prop where
  before : ∀ l ∈ d.before, l.isGap = true
  value : ∀ v, d.value = some v → v.fits = true
  after : ∀ l ∈ d.after, l.isGap = true
  /-- Without a value nothing tells gaps in front of it from gaps behind it. -/
  empty : d.value = none → d.after = []
  row : Row d.lexemes []

/-! ## What was read fits -/

/-- The lexemes that have been read since the last item. -/
def Awaits.lexemes : Awaits → List Lexeme
  | .item _ => []
  | .colon name between => name :: between
  | .value name between => name :: between

/-- The mark that opens an array or an object. -/
def Bracket.opening : Bracket → Mark
  | .array => .openBracket
  | .object => .openBrace

/-- The mark that closes one. -/
def Bracket.closing : Bracket → Mark
  | .array => .closeBracket
  | .object => .closeBrace

/-- What an open array or object waits for agrees with what it has so far. -/
def Awaits.Fits (bracket : Bracket) (comma : Bool) : Awaits → Prop
  | .item c => c = comma
  | .colon name between =>
    bracket = .object ∧ name.name?.isSome = true ∧ meaning between = []
  | .value name between =>
    bracket = .object ∧ name.name?.isSome = true ∧ isBetween between = true

namespace Frame

/-- The lexemes of what is open. -/
def lexemes (f : Frame) : List Lexeme :=
  .mark f.bracket.opening :: (itemLexemes f.items.reverse ++ f.awaits.lexemes)

/-- What is open can be read on. -/
def Fits (f : Frame) : Prop :=
  ∃ comma, itemsEnd f.bracket false f.items.reverse = some comma ∧ f.awaits.Fits f.bracket comma

/-- What is open waits for a value. -/
def AwaitsValue (f : Frame) : Prop :=
  f.Fits ∧ match f.awaits with
    | .item _ => f.bracket = .array
    | .colon _ _ => False
    | .value _ _ => True

/-- A value behind what is open. -/
theorem addValue_fits {f : Frame} (h : f.AwaitsValue) {v : Value} (hv : v.fits = true) :
    (f.addValue v).Fits ∧ (f.addValue v).lexemes = f.lexemes ++ v.lexemes := by
  obtain ⟨bracket, start, items, awaits⟩ := f
  obtain ⟨⟨comma, hitems, hawaits⟩, hvalue⟩ := h
  cases awaits with
  | item c =>
    obtain rfl : bracket = .array := hvalue
    refine ⟨⟨true, ?_, rfl⟩, ?_⟩
    · simp [addValue, itemsEnd_append, hitems, itemsEnd, Item.end?, hv]
    · simp [addValue, lexemes, itemLexemes, Item.lexemes, Awaits.lexemes]
  | colon name between => exact hvalue.elim
  | value name between =>
    obtain ⟨rfl, hname, hbetween⟩ := hawaits
    refine ⟨⟨true, ?_, rfl⟩, ?_⟩
    · simp [addValue, itemsEnd_append, hitems, itemsEnd, Item.end?, hv, hname, hbetween]
    · simp [addValue, lexemes, itemLexemes, Item.lexemes, Awaits.lexemes]

/-- What is closed is a value. -/
theorem close_fits {f : Frame} (h : f.Fits) {comma : Bool} (hawaits : f.awaits = .item comma) :
    f.close.fits = true ∧ f.close.lexemes = f.lexemes ++ [.mark f.bracket.closing] := by
  obtain ⟨bracket, start, items, awaits⟩ := f
  obtain ⟨c, hitems, -⟩ := h
  obtain rfl : awaits = .item comma := hawaits
  cases bracket with
  | array => simp_all [close, Value.fits, Value.lexemes, lexemes, Awaits.lexemes, Bracket.closing,
      Bracket.opening]
  | object => simp_all [close, Value.fits, Value.lexemes, lexemes, Awaits.lexemes, Bracket.closing,
      Bracket.opening]

/-- A gap behind what is open. -/
theorem addGap_fits {f : Frame} (h : f.Fits) {l : Lexeme} (hl : l.isGap = true) :
    (f.addGap l).Fits ∧ (f.addGap l).lexemes = f.lexemes ++ [l] := by
  obtain ⟨bracket, start, items, awaits⟩ := f
  obtain ⟨comma, hitems, hawaits⟩ := h
  cases awaits with
  | item c =>
    refine ⟨⟨comma, ?_, hawaits⟩, ?_⟩
    · simp [addGap, itemsEnd_append, hitems, itemsEnd, Item.end?, hl]
    · simp [addGap, lexemes, itemLexemes, Item.lexemes, Awaits.lexemes]
  | colon name between =>
    obtain ⟨hb, hname, hbetween⟩ := hawaits
    refine ⟨⟨comma, hitems, hb, hname, ?_⟩, ?_⟩
    · rw [meaning_append, hbetween]
      simp [meaning, hl]
    · simp [addGap, lexemes, Awaits.lexemes]
  | value name between =>
    obtain ⟨hb, hname, hbetween⟩ := hawaits
    refine ⟨⟨comma, hitems, hb, hname, ?_⟩, ?_⟩
    · rw [isBetween_iff, meaning_append, isBetween_iff.mp hbetween]
      simp [meaning, hl]
    · simp [addGap, lexemes, Awaits.lexemes]

end Frame

namespace Progress

/-- The lexemes of what is open, outermost first. -/
def framesLexemes (frames : List Frame) : List Lexeme :=
  frames.reverse.flatMap Frame.lexemes

/-- The lexemes that have been read. -/
def lexemes : Progress → List Lexeme
  | .before gaps => gaps
  | .inside gaps f outer => gaps ++ framesLexemes (f :: outer)
  | .after gaps v behind => gaps ++ v.lexemes ++ behind

/-- What has been read can be read on. -/
def Fits : Progress → Prop
  | .before gaps => ∀ l ∈ gaps, l.isGap = true
  | .inside gaps f outer =>
    (∀ l ∈ gaps, l.isGap = true) ∧ f.Fits ∧ ∀ g ∈ outer, g.AwaitsValue
  | .after gaps v behind =>
    (∀ l ∈ gaps, l.isGap = true) ∧ v.fits = true ∧ ∀ l ∈ behind, l.isGap = true

section

variable {gaps : List Lexeme} (hgaps : ∀ l ∈ gaps, l.isGap = true) {outer : List Frame}
  (houter : ∀ g ∈ outer, g.AwaitsValue)
include hgaps houter

/-- A value in its place. -/
theorem fits_place {v : Value} (hv : v.fits = true) : (place gaps outer v).Fits ∧
    (place gaps outer v).lexemes = gaps ++ framesLexemes outer ++ v.lexemes := by
  cases outer with
  | nil => exact ⟨⟨hgaps, hv, by simp⟩, by simp [place, lexemes, framesLexemes]⟩
  | cons f fs =>
    obtain ⟨hfits, hlexemes⟩ := Frame.addValue_fits (houter f (by simp)) hv
    refine ⟨⟨hgaps, hfits, fun g hg => houter g (by simp [hg])⟩, ?_⟩
    simp [place, lexemes, framesLexemes, hlexemes]

/-- A lexeme where a value is awaited. -/
theorem fits_readValue {offset : Nat} {l : Lexeme} {q : Progress} (hl : l.isGap = false)
    (h : readValue gaps outer offset l = .ok q) :
    q.Fits ∧ q.lexemes = gaps ++ framesLexemes outer ++ [l] := by
  have hopened (bracket : Bracket) : (Progress.inside gaps (.opened bracket offset) outer).Fits ∧
      (Progress.inside gaps (.opened bracket offset) outer).lexemes =
        gaps ++ framesLexemes outer ++ [.mark bracket.opening] := by
    refine ⟨⟨hgaps, ⟨false, rfl, rfl⟩, houter⟩, ?_⟩
    simp [lexemes, framesLexemes, Frame.lexemes, Frame.opened, itemLexemes, Awaits.lexemes]
  have hscalar {l : Lexeme} (hl : l.isScalar = true) :
      (place gaps outer (.scalar l)).Fits ∧ (place gaps outer (.scalar l)).lexemes =
        gaps ++ framesLexemes outer ++ [l] := by
    have := fits_place hgaps houter (v := .scalar l) (by simpa [Value.fits] using hl)
    simpa [Value.lexemes] using this
  unfold readValue at h
  split at h
  · cases h; exact hopened .object
  · cases h; exact hopened .array
  · cases h
  · cases h
  · cases h
  · cases h
  · cases h
  · cases h
    refine hscalar ?_
    cases l with
    | blank text => cases hl
    | comment text => cases hl
    | mark m => cases m <;> simp_all
    | string text value => rfl
    | number text => rfl
    | constant text => rfl
    | word text => simp_all

end

/-- A lexeme that means something inside what is open. -/
theorem fits_readInside {gaps : List Lexeme} (hgaps : ∀ l ∈ gaps, l.isGap = true) {f : Frame}
    {outer : List Frame} (hf : f.Fits) (houter : ∀ g ∈ outer, g.AwaitsValue) {offset : Nat}
    {l : Lexeme} {q : Progress} (hl : l.isGap = false)
    (h : readInside gaps f outer offset l = .ok q) :
    q.Fits ∧ q.lexemes = gaps ++ framesLexemes (f :: outer) ++ [l] := by
  have hvalue (hawaits : f.AwaitsValue) (h : readValue gaps (f :: outer) offset l = .ok q) :
      q.Fits ∧ q.lexemes = gaps ++ framesLexemes (f :: outer) ++ [l] := by
    refine fits_readValue hgaps ?_ hl h
    simpa using ⟨hawaits, houter⟩
  have hclose {comma : Bool} (hawaits : f.awaits = .item comma) :
      (place gaps outer f.close).Fits ∧ (place gaps outer f.close).lexemes =
        gaps ++ framesLexemes (f :: outer) ++ [.mark f.bracket.closing] := by
    obtain ⟨hfits, hlexemes⟩ := Frame.close_fits hf hawaits
    have hplace := fits_place hgaps houter hfits
    rw [hlexemes] at hplace
    simpa [framesLexemes] using hplace
  obtain ⟨bracket, start, items, awaits⟩ := f
  obtain ⟨c, hitems, hawaits⟩ := id hf
  unfold readInside at h
  cases awaits with
  | value name between => exact hvalue ⟨hf, trivial⟩ h
  | colon name between =>
    simp only at h
    split at h
    · next hcolon =>
      subst hcolon
      cases h
      obtain ⟨hb, hname, hbetween⟩ := hawaits
      refine ⟨⟨hgaps, ⟨c, hitems, hb, hname, ?_⟩, houter⟩, ?_⟩
      · rw [isBetween_iff, meaning_append, hbetween]
        rfl
      · simp [lexemes, framesLexemes, Frame.lexemes, Awaits.lexemes]
    · cases h
  | item comma =>
    obtain rfl : comma = c := hawaits
    simp only at h
    split at h
    · next hcomma =>
      obtain ⟨rfl, rfl⟩ := hcomma
      cases h
      refine ⟨⟨hgaps, ⟨false, ?_, rfl⟩, houter⟩, ?_⟩
      · simp at hitems
        simp [itemsEnd_append, hitems, itemsEnd, Item.end?, Lexeme.isGap]
      · simp [lexemes, framesLexemes, Frame.lexemes, Awaits.lexemes, itemLexemes, Item.lexemes]
    · cases bracket with
      | array =>
        simp only at h
        split at h
        · next hclosing =>
          subst hclosing
          cases h
          exact hclose rfl
        · exact hvalue ⟨hf, rfl⟩ h
      | object =>
        simp only at h
        split at h
        · next hclosing =>
          subst hclosing
          cases h
          exact hclose rfl
        · split at h
          · next name hname =>
            cases h
            refine ⟨⟨hgaps, ⟨comma, hitems, rfl, by simp [hname], rfl⟩, houter⟩, ?_⟩
            simp [lexemes, framesLexemes, Frame.lexemes, Awaits.lexemes]
          · cases h

/-- One more lexeme. -/
theorem fits_read {p q : Progress} {offset : Nat} {l : Lexeme} (hp : p.Fits)
    (h : p.read offset l = .ok q) : q.Fits ∧ q.lexemes = p.lexemes ++ [l] := by
  have hgap {gaps : List Lexeme} (hgaps : ∀ l ∈ gaps, l.isGap = true) (hl : l.isGap = true) :
      ∀ l' ∈ gaps ++ [l], l'.isGap = true := by
    intro l' hl'
    rcases List.mem_append.mp hl' with hl' | hl'
    · exact hgaps l' hl'
    · rwa [List.mem_singleton.mp hl']
  cases p with
  | before gaps =>
    simp only [read] at h
    split at h
    · next hl =>
      cases h
      exact ⟨hgap hp hl, rfl⟩
    · next hl =>
      have houter : ∀ g ∈ ([] : List Frame), g.AwaitsValue := by simp
      simpa [lexemes, framesLexemes] using fits_readValue hp houter (by simpa using hl) h
  | inside gaps f outer =>
    obtain ⟨hgaps, hf, houter⟩ := hp
    simp only [read] at h
    split at h
    · next hl =>
      cases h
      obtain ⟨hfits, hlexemes⟩ := Frame.addGap_fits hf hl
      refine ⟨⟨hgaps, hfits, houter⟩, ?_⟩
      simp [lexemes, framesLexemes, hlexemes]
    · next hl => exact fits_readInside hgaps hf houter (by simpa using hl) h
  | after gaps v behind =>
    obtain ⟨hgaps, hv, hbehind⟩ := hp
    simp only [read] at h
    split at h
    · next hl =>
      cases h
      exact ⟨⟨hgaps, hv, hgap hbehind hl⟩, by simp [lexemes]⟩
    · cases h

/-- Lexemes in a row. -/
theorem fits_readAll {p q : Progress} {offset offset' : Nat} {ls : List Lexeme} (hp : p.Fits)
    (h : p.readAll offset ls = .ok (q, offset')) : q.Fits ∧ q.lexemes = p.lexemes ++ ls := by
  induction ls generalizing p offset with
  | nil =>
    cases h
    exact ⟨hp, by simp⟩
  | cons l ls ih =>
    rw [readAll] at h
    split at h
    · cases h
    · next hread =>
      obtain ⟨hfits, hlexemes⟩ := fits_read hp hread
      obtain ⟨hq, hall⟩ := ih hfits h
      exact ⟨hq, by rw [hall, hlexemes, List.append_assoc]; rfl⟩

/-! ## What fits is read -/

/-- A lexeme that a value begins with is read as the beginning of a value. -/
def AwaitsAt (p : Progress) (gaps : List Lexeme) (outer : List Frame) : Prop :=
  ∀ offset l, l.startsValue = true → p.read offset l = readValue gaps outer offset l

/-- At the start of a document. -/
theorem awaitsAt_before (gaps : List Lexeme) : (before gaps).AwaitsAt gaps [] := by
  intro offset l hl
  simp only [read, Lexeme.isGap_of_startsValue hl, Bool.false_eq_true, if_false]

/-- In an array. -/
theorem awaitsAt_array (gaps : List Lexeme) (start : Nat) (items : List Item) (comma : Bool)
    (outer : List Frame) : (inside gaps ⟨.array, start, items, .item comma⟩ outer).AwaitsAt gaps
      (⟨.array, start, items, .item comma⟩ :: outer) := by
  intro offset l hl
  have hcomma : ¬ (l = .mark .comma ∧ comma = true) := by rintro ⟨rfl, -⟩; cases hl
  have hclose : l ≠ .mark .closeBracket := by rintro rfl; cases hl
  simp only [read, Lexeme.isGap_of_startsValue hl, Bool.false_eq_true, if_false, readInside, hcomma,
    hclose]

/-- Behind a colon. -/
theorem awaitsAt_object (gaps : List Lexeme) (start : Nat) (items : List Item) (name : Lexeme)
    (between : List Lexeme) (outer : List Frame) :
    (inside gaps ⟨.object, start, items, .value name between⟩ outer).AwaitsAt gaps
      (⟨.object, start, items, .value name between⟩ :: outer) := by
  intro offset l hl
  simp only [read, Lexeme.isGap_of_startsValue hl, Bool.false_eq_true, if_false, readInside]

/-- Reading lexemes leads to where a reading goes on, whatever the offsets are. -/
def Leads (p : Progress) (ls : List Lexeme) (q : Progress) : Prop :=
  ∀ offset, ∃ offset', ∀ rest, p.readAll offset (ls ++ rest) = q.readAll offset' rest

/-- No lexemes. -/
theorem Leads.nil (p : Progress) : p.Leads [] p :=
  fun offset => ⟨offset, fun _ => rfl⟩

/-- One lexeme. -/
theorem Leads.single {p q : Progress} {l : Lexeme} (h : ∀ offset, p.read offset l = .ok q) :
    p.Leads [l] q :=
  fun offset => ⟨offset + l.text.length, fun rest => by simp [readAll, h]⟩

/-- Lexemes behind others. -/
theorem Leads.trans {p q r : Progress} {a b : List Lexeme} (hp : p.Leads a q) (hq : q.Leads b r) :
    p.Leads (a ++ b) r := by
  intro offset
  obtain ⟨middle, hmiddle⟩ := hp offset
  obtain ⟨stop, hstop⟩ := hq middle
  exact ⟨stop, fun rest => by rw [List.append_assoc, hmiddle, hstop]⟩

/-- One lexeme in front of others. Where a frame begins is not told, so the place in the middle may
depend on the offset. -/
theorem Leads.cons {p r : Progress} {l : Lexeme} {ls : List Lexeme}
    (h : ∀ offset, ∃ q, p.read offset l = .ok q ∧ q.Leads ls r) : p.Leads (l :: ls) r := by
  intro offset
  obtain ⟨q, hread, hq⟩ := h offset
  obtain ⟨stop, hstop⟩ := hq (offset + l.text.length)
  exact ⟨stop, fun rest => by simp only [List.cons_append, readAll, hread, hstop]⟩

/-- Gaps in front of a document. -/
theorem leads_before (gaps : List Lexeme) {ls : List Lexeme} (h : ∀ l ∈ ls, l.isGap = true) :
    (before gaps).Leads ls (before (gaps ++ ls)) := by
  induction ls generalizing gaps with
  | nil => simpa using Leads.nil (before gaps)
  | cons l ls ih =>
    have hread (offset : Nat) : (before gaps).read offset l = .ok (before (gaps ++ [l])) := by
      simp [read, h l (by simp)]
    simpa using (Leads.single hread).trans (ih (gaps ++ [l]) fun l' hl' => h l' (by simp [hl']))

/-- Gaps behind the value. -/
theorem leads_after (gaps : List Lexeme) (v : Value) (behind : List Lexeme) {ls : List Lexeme}
    (h : ∀ l ∈ ls, l.isGap = true) :
    (after gaps v behind).Leads ls (after gaps v (behind ++ ls)) := by
  induction ls generalizing behind with
  | nil => simpa using Leads.nil (after gaps v behind)
  | cons l ls ih =>
    have hread (offset : Nat) :
        (after gaps v behind).read offset l = .ok (after gaps v (behind ++ [l])) := by
      simp [read, h l (by simp)]
    simpa using (Leads.single hread).trans (ih (behind ++ [l]) fun l' hl' => h l' (by simp [hl']))

/-- Gaps between a name and its value, in front of the colon or behind it. -/
theorem leads_awaits (gaps : List Lexeme) (bracket : Bracket) (start : Nat) (items : List Item)
    (outer : List Frame) {awaits : List Lexeme → Awaits} (name : Lexeme)
    (hawaits : awaits = .colon name ∨ awaits = .value name) (between : List Lexeme)
    (ls : List Lexeme) (h : ∀ l ∈ ls, l.isGap = true) :
    (inside gaps ⟨bracket, start, items, awaits between⟩ outer).Leads ls
      (inside gaps ⟨bracket, start, items, awaits (between ++ ls)⟩ outer) := by
  induction ls generalizing between with
  | nil => simpa using Leads.nil (inside gaps ⟨bracket, start, items, awaits between⟩ outer)
  | cons l ls ih =>
    have hread (offset : Nat) : (inside gaps ⟨bracket, start, items, awaits between⟩ outer).read
        offset l = .ok (inside gaps ⟨bracket, start, items, awaits (between ++ [l])⟩ outer) := by
      obtain rfl | rfl := hawaits <;> simp [read, h l (by simp), Frame.addGap]
    simpa using (Leads.single hread).trans
      (ih (between ++ [l]) fun l' hl' => h l' (by simp [hl']))

/-- What is between a name and its value. -/
theorem leads_between (gaps : List Lexeme) (start : Nat) (items : List Item)
    (outer : List Frame) (name : Lexeme) {between : List Lexeme} (h : isBetween between = true) :
    (inside gaps ⟨.object, start, items, .colon name []⟩ outer).Leads between
      (inside gaps ⟨.object, start, items, .value name between⟩ outer) := by
  obtain ⟨a, b, rfl, ha, -, hb⟩ := List.filter_eq_cons_iff.mp (isBetween_iff.mp h)
  have hcolon : (inside gaps ⟨.object, start, items, .colon name a⟩ outer).Leads [.mark .colon]
      (inside gaps ⟨.object, start, items, .value name (a ++ [.mark .colon])⟩ outer) :=
    Leads.single fun offset => rfl
  have hfront := leads_awaits gaps .object start items outer name (.inl rfl) [] a
    (by simpa using ha)
  have hbehind := leads_awaits gaps .object start items outer name (.inr rfl)
    (a ++ [.mark .colon]) b (by simpa using hb)
  simpa using hfront.trans (hcolon.trans hbehind)

mutual

/-- A value that fits is read where one is awaited. -/
theorem leads_value {gaps : List Lexeme} {outer : List Frame} {p : Progress}
    (hp : p.AwaitsAt gaps outer) :
    (v : Value) → v.fits = true → p.Leads v.lexemes (place gaps outer v)
  | .scalar l, h => by
    have hl : l.isScalar = true := by simpa [Value.fits] using h
    refine Leads.single fun offset => ?_
    rw [hp offset l (by simp [Lexeme.startsValue, hl])]
    cases l with
    | string text value => rfl
    | number text => rfl
    | constant text => rfl
    | _ => cases hl
  | .array items, h => by
    obtain ⟨comma, hitems⟩ := Option.isSome_iff_exists.mp (by simpa [Value.fits] using h)
    rw [Value.lexemes]
    refine Leads.cons fun offset => ⟨_, hp offset _ rfl, ?_⟩
    refine (leads_items gaps .array offset [] outer items hitems).trans (Leads.single fun offset => ?_)
    simp [read, Lexeme.isGap, readInside, Frame.close]
  | .object items, h => by
    obtain ⟨comma, hitems⟩ := Option.isSome_iff_exists.mp (by simpa [Value.fits] using h)
    rw [Value.lexemes]
    refine Leads.cons fun offset => ⟨_, hp offset _ rfl, ?_⟩
    refine (leads_items gaps .object offset [] outer items hitems).trans (Leads.single fun offset => ?_)
    simp [read, Lexeme.isGap, readInside, Frame.close]

/-- So is an item. -/
theorem leads_item (gaps : List Lexeme) (bracket : Bracket) (start : Nat) (front : List Item)
    {comma comma' : Bool} (outer : List Frame) :
    (item : Item) → item.end? bracket comma = some comma' →
      (inside gaps ⟨bracket, start, front, .item comma⟩ outer).Leads item.lexemes
        (inside gaps ⟨bracket, start, item :: front, .item comma'⟩ outer)
  | .gap l, h => by
    refine Leads.single fun offset => ?_
    rw [Item.end?] at h
    split at h
    · next hl =>
      cases h
      simp [read, hl, Frame.addGap]
    · next hl =>
      split at h
      · next hcomma =>
        obtain ⟨rfl, rfl⟩ := hcomma
        cases h
        rfl
      · cases h
  | .element v, h => by
    rw [Item.end?] at h
    split at h
    · next hv =>
      obtain ⟨rfl, hv⟩ := hv
      cases h
      exact leads_value (awaitsAt_array gaps start front comma outer) v hv
    · cases h
  | .member name between v, h => by
    rw [Item.end?] at h
    split at h
    · next hv =>
      obtain ⟨rfl, hname, hbetween, hv⟩ := hv
      cases h
      have hread (offset : Nat) :
          (inside gaps ⟨.object, start, front, .item comma⟩ outer).read offset name =
            .ok (inside gaps ⟨.object, start, front, .colon name []⟩ outer) := by
        cases name with
        | string text value => rfl
        | number text => rfl
        | word text => rfl
        | _ => cases hname
      exact (Leads.single hread).trans ((leads_between gaps start front outer name hbetween).trans
        (leads_value (awaitsAt_object gaps start front name between outer) v hv))
    · cases h

/-- And items in a row. -/
theorem leads_items (gaps : List Lexeme) (bracket : Bracket) (start : Nat) (front : List Item)
    {comma comma' : Bool} (outer : List Frame) :
    (items : List Item) → itemsEnd bracket comma items = some comma' →
      (inside gaps ⟨bracket, start, front, .item comma⟩ outer).Leads (itemLexemes items)
        (inside gaps ⟨bracket, start, items.reverse ++ front, .item comma'⟩ outer)
  | [], h => by
    obtain rfl : comma = comma' := by simpa [itemsEnd] using h
    exact Leads.nil _
  | item :: items, h => by
    obtain ⟨c, hitem, hitems⟩ := Option.bind_eq_some_iff.mp h
    simpa [itemLexemes] using (leads_item gaps bracket start front outer item hitem).trans
      (leads_items gaps bracket start (item :: front) outer items hitems)

end

end Progress

/-- A document that was read has the lexemes that were read, and fits if these are a row. -/
theorem Progress.fits_finish {p : Progress} {offset : Nat} {d : Document} (hp : p.Fits)
    (hrow : Row p.lexemes []) (h : p.finish offset = .ok d) : d.Fits ∧ d.lexemes = p.lexemes := by
  cases p with
  | before gaps =>
    cases h
    have hlexemes : Document.lexemes ⟨gaps, none, []⟩ = gaps := by simp [Document.lexemes]
    exact ⟨⟨hp, by simp, by simp, by simp, by rwa [hlexemes]⟩, hlexemes⟩
  | inside gaps f outer => cases h
  | after gaps v behind =>
    cases h
    obtain ⟨hgaps, hv, hbehind⟩ := hp
    exact ⟨⟨hgaps, by simpa using hv, hbehind, by simp, hrow⟩, rfl⟩

/-- A document that fits is read from its lexemes. -/
theorem Document.Fits.leads {d : Document} (h : d.Fits) :
    ∃ q, (Progress.before []).Leads d.lexemes q ∧ ∀ offset, q.finish offset = .ok d := by
  obtain ⟨before, value, after⟩ := d
  have hbefore := Progress.leads_before [] h.before
  cases value with
  | none =>
    obtain rfl : after = [] := h.empty rfl
    exact ⟨.before before, by simpa [lexemes] using hbefore, fun offset => rfl⟩
  | some v =>
    have hvalue := Progress.leads_value (Progress.awaitsAt_before before) v (h.value v rfl)
    have hafter := Progress.leads_after before v [] h.after
    exact ⟨.after before v after, (hbefore.trans hvalue).trans hafter, fun offset => rfl⟩

/-- What is read from a text is what fits and is written so. -/
theorem readDocument_eq_ok_iff {cs : List Char} {d : Document} :
    readDocument cs = .ok d ↔ d.Fits ∧ d.text = cs := by
  constructor
  · intro h
    unfold readDocument at h
    rcases hlex : lex cs with ⟨lexemes, problem⟩
    simp only [hlex] at h
    split at h
    · cases h
    · next p offset hread =>
      obtain ⟨hfits, hlexemes⟩ :=
        Progress.fits_readAll (p := .before []) (by simp [Progress.Fits]) hread
      obtain rfl : p.lexemes = lexemes := hlexemes
      split at h
      · cases h
      · obtain ⟨rfl, hrow⟩ := lex_eq_iff.mp hlex
        obtain ⟨hd, hlexemes⟩ := Progress.fits_finish hfits hrow h
        exact ⟨hd, by rw [Document.text, hlexemes]⟩
  · rintro ⟨h, rfl⟩
    have hlex : lex d.text = (d.lexemes, none) := lex_eq_iff.mpr ⟨rfl, h.row⟩
    obtain ⟨q, hleads, hfinish⟩ := h.leads
    obtain ⟨offset, hread⟩ := hleads 0
    have hread := hread []
    rw [List.append_nil, Progress.readAll] at hread
    simp only [readDocument, hlex, hread, hfinish]

end ArtifactSync.Jsonc
