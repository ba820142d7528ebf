import ArtifactSync.Proofs.Toml.Cursor
import ArtifactSync.Toml.Syntax
import Mathlib.Data.List.Nodup

/-!
# The names of a parsed text stand where they say

Every table of a parsed text has a name once at most, and a name read at the place of any of its
keys is that key (`Value.WellKeyed`, `parse_wellKeyed`). So the table that is left of a text knows
the place of each of its members.

Places are kept by the readers, which only advance; names are kept apart by `Value.setMember`, the
one way by which a table gets a member. Everything else is put together from the two.
-/

namespace ArtifactSync.Toml

open Cursor

variable {cs : List Char}

/-- A key that stands at its place: a name read there is the key. -/
def Key.StandsIn (cs : List Char) (key : Key) : Prop :=
  ∃ after, readName ((start cs).advance key.span.start) = some (key, after)

/-- A value of a text whose tables have every name once at most, at its place. -/
inductive Value.WellKeyed (cs : List Char) : Value → Prop
  | scalar (value : Scalar) (span : Span) : WellKeyed cs (.scalar value span)
  | array {items : List Value} {span : Span} :
    (∀ item ∈ items, WellKeyed cs item) → WellKeyed cs (.array items span)
  | table {form : Form} {members : List (Key × Value)} {span : Option Span} :
    (members.map fun m => m.1.text).Nodup → (∀ m ∈ members, m.1.StandsIn cs) →
      (∀ m ∈ members, WellKeyed cs m.2) → WellKeyed cs (.table form members span)
  | tables {items : List Value} : (∀ item ∈ items, WellKeyed cs item) → WellKeyed cs (.tables items)

/-! ## Tables -/

namespace Value

variable {node value : Value} {key : Key} {name : List Char}

/-- A table without members is well keyed. -/
theorem wellKeyed_nil (cs : List Char) (form : Form) (span : Option Span) :
    (table form [] span).WellKeyed cs :=
  .table List.nodup_nil (by simp) (by simp)

/-- Members have different names. -/
theorem WellKeyed.nodup (h : node.WellKeyed cs) : (node.members.map fun m => m.1.text).Nodup := by
  cases h with
  | table hnodup => exact hnodup
  | scalar => exact List.nodup_nil
  | array => exact List.nodup_nil
  | tables => exact List.nodup_nil

/-- Members stand at their places. -/
theorem WellKeyed.standsIn (h : node.WellKeyed cs) {m : Key × Value} (hm : m ∈ node.members) :
    m.1.StandsIn cs := by
  cases h with
  | table _ hkeys => exact hkeys m hm
  | scalar => cases hm
  | array => cases hm
  | tables => cases hm

/-- The values of members are well keyed. -/
theorem WellKeyed.of_mem (h : node.WellKeyed cs) {m : Key × Value} (hm : m ∈ node.members) :
    m.2.WellKeyed cs := by
  cases h with
  | table _ _ hvalues => exact hvalues m hm
  | scalar => cases hm
  | array => cases hm
  | tables => cases hm

/-- The tables of a list are well keyed. -/
theorem WellKeyed.of_tables {items : List Value} (h : (Value.tables items).WellKeyed cs) :
    ∀ item ∈ items, item.WellKeyed cs := by
  cases h with
  | tables hitems => exact hitems

/-- The value of a name is well keyed. -/
theorem WellKeyed.of_member (h : node.WellKeyed cs) (hmember : node.member? name = some value) :
    value.WellKeyed cs := by
  obtain ⟨m, hfind, rfl⟩ := Option.map_eq_some_iff.mp hmember
  exact h.of_mem (List.mem_of_find?_eq_some hfind)

/-- A table keeps its names apart when a member is given a value. -/
theorem WellKeyed.setMember (h : node.WellKeyed cs) (hkey : key.StandsIn cs)
    (hvalue : value.WellKeyed cs) : (node.setMember key value).WellKeyed cs := by
  cases h with
  | scalar v span => exact .scalar v span
  | array hitems => exact .array hitems
  | tables hitems => exact .tables hitems
  | @table form members span hnodup hkeys hvalues =>
    rw [Value.setMember, mapMembers]
    split
    · -- the names are the same, and one value is new
      have hnames : (members.map fun m => if m.1.text = key.text then (m.1, value) else m).map
          (fun m => m.1.text) = members.map fun m => m.1.text := by
        rw [List.map_map]
        refine List.map_congr_left fun m _ => ?_
        dsimp only [Function.comp]
        split <;> rfl
      refine .table (hnames ▸ hnodup) ?_ ?_
      · intro m hm
        obtain ⟨m, hmem, rfl⟩ := List.mem_map.mp hm
        split
        · exact hkeys m hmem
        · exact hkeys m hmem
      · intro m hm
        obtain ⟨m, hmem, rfl⟩ := List.mem_map.mp hm
        split
        · exact hvalue
        · exact hvalues m hmem
    · next hnone =>
      have hnew : key.text ∉ members.map fun m => m.1.text := by
        simpa using hnone
      refine .table ?_ ?_ ?_
      · rw [List.map_append, List.map_singleton, ← List.concat_eq_append]
        exact hnodup.concat hnew
      · intro m hm
        rcases List.mem_append.mp hm with hmem | hmem
        · exact hkeys m hmem
        · exact List.mem_singleton.mp hmem ▸ hkey
      · intro m hm
        rcases List.mem_append.mp hm with hmem | hmem
        · exact hvalues m hmem
        · exact List.mem_singleton.mp hmem ▸ hvalue

/-- So it does when a member is taken away. -/
theorem WellKeyed.dropMember (h : node.WellKeyed cs) (name : List Char) :
    (node.dropMember name).WellKeyed cs := by
  cases h with
  | scalar v span => exact .scalar v span
  | array hitems => exact .array hitems
  | tables hitems => exact .tables hitems
  | table hnodup hkeys hvalues =>
    exact .table (hnodup.sublist (List.filter_sublist.map _))
      (fun m hm => hkeys m (List.mem_of_mem_filter hm))
      (fun m hm => hvalues m (List.mem_of_mem_filter hm))

end Value

/-- What is done to the table at the end of a row of names is done to the whole. -/
theorem within_wellKeyed {dotted : Bool} {change : Value → Option Value} {path : List Key}
    {node node' : Value}
    (hchange : ∀ t t', t.WellKeyed cs → change t = some t' → t'.WellKeyed cs)
    (hpath : ∀ key ∈ path, key.StandsIn cs) (h : node.WellKeyed cs)
    (heq : within dotted change path node = some node') : node'.WellKeyed cs := by
  induction path generalizing node node' with
  | nil => exact hchange node node' h heq
  | cons key path ih =>
    obtain ⟨hkey, hpath⟩ := List.forall_mem_cons.mp hpath
    rw [within] at heq
    split at heq
    · -- a table that is not there is made
      obtain ⟨child, hchild, rfl⟩ := Option.map_eq_some_iff.mp heq
      exact h.setMember hkey (ih hpath (Value.wellKeyed_nil cs _ none) hchild)
    · next hmember =>
      -- one that is there is gone into, unless it is closed
      split at heq
      · cases heq
      · obtain ⟨child, hchild, rfl⟩ := Option.map_eq_some_iff.mp heq
        exact h.setMember hkey (ih hpath (h.of_member hmember) hchild)
    · next items hmember =>
      -- the last of the tables of a list is changed
      have hitems := (h.of_member hmember).of_tables
      split at heq
      · cases heq
      · next last before hreverse =>
        obtain ⟨child, hchild, rfl⟩ := Option.map_eq_some_iff.mp heq
        have hlast : ∀ item ∈ last :: before, item.WellKeyed cs := fun item hitem =>
          hitems item (List.mem_reverse.mp (hreverse ▸ hitem))
        obtain ⟨hlast, hbefore⟩ := List.forall_mem_cons.mp hlast
        refine h.setMember hkey (.tables fun item hitem => ?_)
        rcases List.mem_cons.mp (List.mem_reverse.mp hitem) with rfl | hmem
        · exact ih hpath hlast hchild
        · exact hbefore item hmem
    · cases heq

/-- A row of names with a value, all at their places. -/
structure Pair.WellKeyed (cs : List Char) (p : Pair) : Prop where
  path : ∀ key ∈ p.path, key.StandsIn cs
  key : p.key.StandsIn cs
  value : p.value.WellKeyed cs

/-- Adding a member keeps a table well keyed. -/
theorem Pair.WellKeyed.addTo {p : Pair} (hp : p.WellKeyed cs) {node node' : Value}
    (h : node.WellKeyed cs) (heq : p.addTo node = some node') : node'.WellKeyed cs := by
  refine within_wellKeyed (fun t t' ht hset => ?_) hp.path h heq
  obtain ⟨-, hset⟩ := Option.ite_none_left_eq_some.mp hset
  cases hset
  exact ht.setMember hp.key hp.value

/-- What holds of a table and is kept by each thing that is added holds of the table in the end. -/
theorem foldlM_keeps {α β : Type} {P : β → Prop} {f : β → α → Option β} {l : List α} {b b' : β}
    (hstep : ∀ a ∈ l, ∀ b b', P b → f b a = some b' → P b') (hb : P b)
    (h : l.foldlM f b = some b') : P b' := by
  induction l generalizing b with
  | nil => exact Option.some.inj h ▸ hb
  | cons a l ih =>
    obtain ⟨ha, hl⟩ := List.forall_mem_cons.mp hstep
    rw [List.foldlM_cons] at h
    obtain ⟨b₁, hadd, h⟩ := Option.bind_eq_some_iff.mp h
    exact ih hl (ha b b₁ hb hadd) h

/-- So does adding members one after another. -/
theorem addAll_wellKeyed {pairs : List Pair} (hpairs : ∀ p ∈ pairs, p.WellKeyed cs)
    {node node' : Value} (h : node.WellKeyed cs) (heq : addAll pairs node = some node') :
    node'.WellKeyed cs :=
  foldlM_keeps (fun p hp _ _ => (hpairs p hp).addTo) h heq

/-! ## Readers -/

/-- A reader that gives things of one kind of a text, and leaves a place of the text behind. -/
def Reader.Gives {α : Type} (cs : List Char) (r : Reader α) (P : α → Prop) : Prop :=
  ∀ ⦃c a c'⦄, (start cs).Ahead c → r c = some (a, c') → (start cs).Ahead c' ∧ P a

/-- What is read as a name: characters that may stand in a name, or a string in quotes. -/
theorem readName_cases {c after : Cursor} {key : Key} (h : readName c = some (key, after)) :
    (key.text = c.rest.takeWhile isBare ∧ key.text ≠ [] ∧
        key.span = ⟨c.offset, c.offset + key.text.length⟩) ∨
      ∃ quote rest n, (quote = '"' ∨ quote = '\'') ∧ c.rest = quote :: rest ∧
        lineString? quote (quote = '"') 0 rest = some (key.text, n) ∧
        key.span = ⟨c.offset, c.offset + (n + 1)⟩ := by
  rw [readName] at h
  split at h
  · cases h
  · next ch hpeek =>
    split at h
    · next hquote =>
      right
      obtain ⟨⟨text, end'⟩, hread, h⟩ := Option.map_eq_some_iff.mp h
      cases h
      rw [readLineString] at hread
      split at hread
      · next q rest hrest =>
        obtain ⟨hq, hread⟩ := Option.ite_none_right_eq_some.mp hread
        obtain ⟨⟨s, n⟩, hstring, hread⟩ := Option.map_eq_some_iff.mp hread
        cases hread
        exact ⟨ch, rest, n, hquote, hq ▸ hrest, hstring, rfl⟩
      · cases hread
    · left
      split at h
      · cases h
      · next hnil htake =>
        cases h
        cases htake
        exact ⟨rfl, hnil, rfl⟩

/-- A name that is read stands where it was read. -/
theorem readName_gives (cs : List Char) : Reader.Gives cs readName (Key.StandsIn cs) := by
  intro c key c' hc h
  have hplace : key.span.start = c.offset := by
    rcases readName_cases h with ⟨-, -, hspan⟩ | ⟨_, _, _, -, -, -, hspan⟩
    · rw [hspan]
    · rw [hspan]
  refine ⟨hc.trans (readName_advances h), c', ?_⟩
  rw [hplace, ← eq_of_ahead_start hc, h]

/-- So do names in a row. -/
theorem readNames_gives (cs : List Char) :
    Reader.Gives cs readNames fun keys => ∀ key ∈ keys, key.StandsIn cs := by
  intro c keys c' hc h
  rw [readNames] at h
  generalize maxNames - 1 = limit at h
  induction limit generalizing c keys with
  | zero => cases h
  | succ limit ih =>
    rw [readNamesWithin] at h
    split at h
    · cases h
    · next hread =>
      obtain ⟨hafter, hkey⟩ := readName_gives cs (hc.trans (ahead_skipBlanks c)) hread
      have hafter := hafter.trans (ahead_skipBlanks _)
      dsimp only at h
      split at h
      · obtain ⟨⟨rest, after⟩, hrest, h⟩ := Option.map_eq_some_iff.mp h
        cases h
        obtain ⟨hdone, hrest⟩ := ih (hafter.advance 1) hrest
        exact ⟨hdone, List.forall_mem_cons.mpr ⟨hkey, hrest⟩⟩
      · cases h
        exact ⟨hafter, by simpa using hkey⟩

section Items

variable {item : Reader Value} (hitem : item.Gives cs (Value.WellKeyed cs))

include hitem

theorem readItems_gives (limit : Nat) :
    Reader.Gives cs (readItems item limit) fun items => ∀ v ∈ items, v.WellKeyed cs := by
  induction limit with
  | zero =>
    intro c items c' hc h
    cases h
  | succ limit ih =>
    intro c items c' hc h
    obtain ⟨c₁, hlines, h⟩ := Option.bind_eq_some_iff.mp h
    have hc₁ := hc.trans (ahead_of_skipLines hlines)
    split at h
    · cases h
      exact ⟨hc₁.advance 1, by simp⟩
    · obtain ⟨⟨value, c₂⟩, hread, h⟩ := Option.bind_eq_some_iff.mp h
      obtain ⟨hc₂, hvalue⟩ := hitem hc₁ hread
      obtain ⟨c₃, hlines', h⟩ := Option.bind_eq_some_iff.mp h
      have hc₃ := hc₂.trans (ahead_of_skipLines hlines')
      split at h
      · cases h
        exact ⟨hc₃.advance 1, by simpa using hvalue⟩
      · obtain ⟨-, h⟩ := Option.ite_none_right_eq_some.mp h
        obtain ⟨⟨values, c₄⟩, hrest, h⟩ := Option.map_eq_some_iff.mp h
        cases h
        obtain ⟨hdone, hvalues⟩ := ih (hc₃.advance 1) hrest
        exact ⟨hdone, List.forall_mem_cons.mpr ⟨hvalue, hvalues⟩⟩

theorem readPair_gives : Reader.Gives cs (readPair item) (Pair.WellKeyed cs) := by
  intro c p c' hc h
  obtain ⟨⟨names, c₁⟩, hnames, h⟩ := Option.bind_eq_some_iff.mp h
  obtain ⟨hc₁, hkeys⟩ := readNames_gives cs hc hnames
  obtain ⟨c₂, hequals, h⟩ := Option.bind_eq_some_iff.mp h
  have hc₂ := hc₁.trans (ahead_of_skip hequals)
  obtain ⟨⟨value, c₃⟩, hread, h⟩ := Option.bind_eq_some_iff.mp h
  obtain ⟨hc₃, hvalue⟩ := hitem (hc₂.trans (ahead_skipBlanks c₂)) hread
  obtain ⟨key, hlast, h⟩ := Option.map_eq_some_iff.mp h
  cases h
  exact ⟨hc₃, fun name hname => hkeys name (List.dropLast_subset _ hname),
    hkeys key (List.mem_of_getLast? hlast), hvalue⟩

theorem readPairs_gives (limit : Nat) :
    Reader.Gives cs (readPairs item limit) fun pairs => ∀ p ∈ pairs, p.WellKeyed cs := by
  induction limit with
  | zero =>
    intro c pairs c' hc h
    cases h
  | succ limit ih =>
    intro c pairs c' hc h
    obtain ⟨⟨pair, c₁⟩, hread, h⟩ := Option.bind_eq_some_iff.mp h
    obtain ⟨hc₁, hpair⟩ := readPair_gives hitem hc hread
    have hc₂ := hc₁.trans (ahead_skipBlanks c₁)
    dsimp only at h
    split at h
    · cases h
      exact ⟨hc₂.advance 1, by simpa using hpair⟩
    · obtain ⟨-, h⟩ := Option.ite_none_right_eq_some.mp h
      obtain ⟨⟨rest, c₃⟩, hrest, h⟩ := Option.map_eq_some_iff.mp h
      cases h
      obtain ⟨hdone, hrest⟩ := ih (hc₂.advance 1) hrest
      exact ⟨hdone, List.forall_mem_cons.mpr ⟨hpair, hrest⟩⟩

/-- A table in braces gets its members like any other table. -/
theorem readInline_gives : Reader.Gives cs (readInline item) (Value.WellKeyed cs) := by
  intro c value c' hc h
  have hinside := (hc.advance 1).trans (ahead_skipBlanks (c.advance 1))
  obtain ⟨⟨pairs, after⟩, hpairs, h⟩ := Option.bind_eq_some_iff.mp h
  obtain ⟨node, hadd, h⟩ := Option.map_eq_some_iff.mp h
  cases h
  -- the table is put together after all of its members have been read
  have hread : (start cs).Ahead c' ∧ ∀ p ∈ pairs, p.WellKeyed cs := by
    split at hpairs
    · cases hpairs
      exact ⟨hinside.advance 1, by simp⟩
    · exact readPairs_gives hitem _ hinside hpairs
  exact ⟨hread.1, addAll_wellKeyed hread.2 (Value.wellKeyed_nil cs _ _) hadd⟩

end Items

/-- Values that are read are well keyed, at any depth. -/
theorem readValue_gives (cs : List Char) : Reader.Gives cs readValue (Value.WellKeyed cs) := by
  have hplain : Reader.Gives cs readValueWithin.readPlain (Value.WellKeyed cs) := by
    intro c value c' hc h
    obtain ⟨⟨scalar, after⟩, hread, h⟩ := Option.map_eq_some_iff.mp h
    cases h
    exact ⟨hc.trans (readScalar_advances hread), .scalar ..⟩
  -- by induction on the depth: what is inside is read one level less deep
  have hwithin (depth : Nat) : Reader.Gives cs (readValueWithin depth) (Value.WellKeyed cs) := by
    induction depth with
    | zero => exact hplain
    | succ depth ih =>
      intro c value c' hc h
      rw [readValueWithin] at h
      split at h
      · obtain ⟨⟨items, after⟩, hread, h⟩ := Option.map_eq_some_iff.mp h
        cases h
        obtain ⟨hdone, hitems⟩ := readItems_gives ih _ (hc.advance 1) hread
        exact ⟨hdone, .array hitems⟩
      · exact readInline_gives ih hc h
      · exact hplain hc h
  exact hwithin maxDepth

/-! ## Statements and texts -/

/-- The names of a statement stand at their places. -/
def Statement.WellKeyed (cs : List Char) : Statement → Prop
  | header path _ _ => ∀ key ∈ path, key.StandsIn cs
  | pair p => p.WellKeyed cs

theorem readHeader_gives (cs : List Char) :
    Reader.Gives cs readHeader (Statement.WellKeyed cs) := by
  intro c statement c' hc h
  obtain ⟨⟨path, c₁⟩, hnames, h⟩ := Option.bind_eq_some_iff.mp h
  obtain ⟨hc₁, hkeys⟩ := readNames_gives cs (hc.advance _) hnames
  obtain ⟨c₂, hclose, h⟩ := Option.map_eq_some_iff.mp h
  cases h
  exact ⟨hc₁.trans (ahead_of_skip hclose), hkeys⟩

/-- The statements of a text name what stands in it. -/
theorem readStatements_wellKeyed {limit : Nat} {c : Cursor} {statements : List Statement}
    (hc : (start cs).Ahead c) (h : readStatements limit c = some statements) :
    ∀ s ∈ statements, s.WellKeyed cs := by
  induction limit generalizing c statements with
  | zero => cases h
  | succ limit ih =>
    have hc := hc.trans (ahead_skipBlanks c)
    simp only [readStatements] at h
    split at h
    · cases h
      simp
    · split at h
      · -- a line without a statement
        obtain ⟨c₁, hend, h⟩ := Option.bind_eq_some_iff.mp h
        exact ih (hc.trans (ahead_of_endLine hend)) h
      · obtain ⟨⟨s, c₁⟩, hread, h⟩ := Option.bind_eq_some_iff.mp h
        have hs : (start cs).Ahead c₁ ∧ s.WellKeyed cs := by
          split at hread
          · exact readHeader_gives cs hc hread
          · obtain ⟨⟨p, c₂⟩, hpair, hread⟩ := Option.map_eq_some_iff.mp hread
            cases hread
            exact readPair_gives (readValue_gives cs) hc hpair
        obtain ⟨c₂, hend, h⟩ := Option.bind_eq_some_iff.mp h
        obtain ⟨rest, hrest, rfl⟩ := Option.map_eq_some_iff.mp h
        exact List.forall_mem_cons.mpr ⟨hs.2, ih (hs.1.trans (ahead_of_endLine hend)) hrest⟩

/-- The names of a section stand at their places. -/
structure Section.WellKeyed (cs : List Char) (s : Section) : Prop where
  path : ∀ key ∈ s.path, key.StandsIn cs
  pairs : ∀ p ∈ s.pairs, p.WellKeyed cs

/-- Gathering statements below their headers loses no place. -/
theorem sections_wellKeyed {statements : List Statement} (h : ∀ s ∈ statements, s.WellKeyed cs) :
    (∀ p ∈ (sections statements).1, p.WellKeyed cs) ∧
      ∀ s ∈ (sections statements).2, s.WellKeyed cs := by
  induction statements with
  | nil => simp [sections]
  | cons s statements ih =>
    obtain ⟨hs, hrest⟩ := List.forall_mem_cons.mp h
    obtain ⟨hpairs, hsections⟩ := ih hrest
    cases s with
    | pair p => exact ⟨List.forall_mem_cons.mpr ⟨hs, hpairs⟩, hsections⟩
    | header path isList span =>
      exact ⟨by simp [sections], List.forall_mem_cons.mpr ⟨⟨hs, hpairs⟩, hsections⟩⟩

namespace Section.WellKeyed

variable {s : Section} {node node' : Value}

/-- The table of a section is well keyed if the members it got from headers further in are. -/
theorem table (hs : s.WellKeyed cs) {form : Form} {members : List (Key × Value)}
    {span : Option Span} (hmembers : (Value.table form members span).WellKeyed cs)
    (h : s.table members = some node) : node.WellKeyed cs := by
  cases hmembers with
  | table hnodup hkeys hvalues =>
    exact addAll_wellKeyed hs.pairs (.table hnodup hkeys hvalues) h

/-- It is put into its place among the members of another table. -/
theorem addHere (hs : s.WellKeyed cs) {key : Key} (hkey : key.StandsIn cs)
    (hnode : node.WellKeyed cs) (h : s.addHere key node = some node') : node'.WellKeyed cs := by
  have hempty := Value.wellKeyed_nil cs .headed none
  rw [Section.addHere] at h
  split at h
  · split at h
    · obtain ⟨table, htable, rfl⟩ := Option.map_eq_some_iff.mp h
      exact hnode.setMember hkey (.tables (by simpa using hs.table hempty htable))
    · next items hmember =>
      obtain ⟨table, htable, rfl⟩ := Option.map_eq_some_iff.mp h
      have hitems := (hnode.of_member hmember).of_tables
      refine hnode.setMember hkey (.tables fun item hitem => ?_)
      rcases List.mem_append.mp hitem with hmem | hmem
      · exact hitems item hmem
      · exact List.mem_singleton.mp hmem ▸ hs.table hempty htable
    · cases h
  · split at h
    · obtain ⟨table, htable, rfl⟩ := Option.map_eq_some_iff.mp h
      exact hnode.setMember hkey (hs.table hempty htable)
    · next members _ hmember =>
      -- the members from headers further in are kept, under the key of the section's own header
      obtain ⟨table, htable, rfl⟩ := Option.map_eq_some_iff.mp h
      exact (hnode.dropMember key.text).setMember hkey
        (hs.table (hnode.of_member hmember) htable)
    · cases h

/-- It is put into its place in the whole. -/
theorem addTo (hs : s.WellKeyed cs) (hnode : node.WellKeyed cs)
    (h : s.addTo node = some node') : node'.WellKeyed cs := by
  obtain ⟨key, hlast, h⟩ := Option.bind_eq_some_iff.mp h
  have hkey := hs.path key (List.mem_of_getLast? hlast)
  exact within_wellKeyed (fun t t' ht heq => hs.addHere hkey ht heq)
    (fun name hname => hs.path name (List.dropLast_subset _ hname)) hnode h

end Section.WellKeyed

/-- The names of a parsed text stand where they say, each once in its table. -/
theorem parse_wellKeyed {top : Value} (h : parse cs = some top) : top.WellKeyed cs := by
  obtain ⟨statements, hread, h⟩ := Option.bind_eq_some_iff.mp h
  have hstart : (start cs).Ahead (afterMark (start cs)) := by
    rw [afterMark]
    cases hskip : (start cs).skip? ['\uFEFF'] with
    | none => exact .refl _
    | some c => exact ahead_of_skip hskip
  obtain ⟨hpairs, hsections⟩ := sections_wellKeyed (readStatements_wellKeyed hstart hread)
  obtain ⟨first, hadd, h⟩ := Option.bind_eq_some_iff.mp h
  have hfirst := addAll_wellKeyed hpairs (Value.wellKeyed_nil cs .headed none) hadd
  exact foldlM_keeps (fun s hs _ _ => (hsections s hs).addTo) hfirst h

end ArtifactSync.Toml
