import ArtifactSync.Toml.Scanner

/-!
# The syntax of configuration text

Values with parts, and the statements that a text is a row of: headers, and names with values. A
table in braces is put together here, since it stands on its own.
-/

namespace ArtifactSync.Toml

/-! ## Names with dots -/

/-- Changes the table at the end of a row of names; what is not there is made. Names with dots go
only through tables that such names or headers further in have given rise to. Both go into the last
of the tables of a list. -/
def within (dotted : Bool) (change : Value → Option Value) : List Key → Value → Option Value
  | [], node => change node
  | name :: rest, node =>
    match node.member? name.text with
    | none =>
      let form := if dotted then .dotted else .implied
      (within dotted change rest (.emptyTable form)).map fun child => node.setMember name child
    | some (.table form members span) =>
      if form = .inline ∨ (dotted ∧ !form.isOpen) then none
      else (within dotted change rest (.table form members span)).map fun child =>
        node.setMember name child
    | some (.tables items) =>
      match items.reverse with
      | [] => none
      | last :: before => (within dotted change rest last).map fun child =>
        node.setMember name (.tables (child :: before).reverse)
    | some _ => none

/-- A row of names with a value. -/
structure Pair where
  path : List Key
  key : Key
  value : Value

/-- Adds a member to a table, which must not have it. A row of names must end in a table that has
come about by names with dots. -/
def Pair.addTo (p : Pair) (node : Value) : Option Value :=
  within true (fun table =>
    if (p.path ≠ [] && !table.hasForm .dotted) || (table.member? p.key.text).isSome then none
    else some (table.setMember p.key p.value)) p.path node

/-- Adds members to a table, one after another. -/
def addAll (pairs : List Pair) (node : Value) : Option Value :=
  pairs.foldlM (fun table p => p.addTo table) node

/-! ## Values -/

/-- Reads the items of an array behind its open bracket, fewer than `limit`, and the bracket that
closes it. -/
def readItems (item : Reader Value) : Nat → Reader (List Value)
  | 0, _ => none
  | limit + 1, c =>
    c.skipLines?.bind fun c =>
      if c.peek? = some ']' then some ([], c.advance 1)
      else (item c).bind fun (value, c) =>
        c.skipLines?.bind fun c =>
          if c.peek? = some ']' then some ([value], c.advance 1)
          else if c.peek? = some ',' then
            (readItems item limit (c.advance 1)).map fun (values, c) => (value :: values, c)
          else none

/-- Reads a row of names, an equals sign, and a value. -/
def readPair (item : Reader Value) : Reader Pair := fun c =>
  (readNames c).bind fun (names, c) =>
    (c.skip? ['=']).bind fun c =>
      (item c.skipBlanks).bind fun (value, c) =>
        names.getLast?.map fun key => (⟨names.dropLast, key, value⟩, c)

/-- Reads the members of a table in braces, at least one and fewer than `limit`, and the brace that
closes it. -/
def readPairs (item : Reader Value) : Nat → Reader (List Pair)
  | 0, _ => none
  | limit + 1, c =>
    (readPair item c).bind fun (pair, c) =>
      let c := c.skipBlanks
      if c.peek? = some '\x7d' then some ([pair], c.advance 1)
      else if c.peek? = some ',' then
        (readPairs item limit (c.advance 1)).map fun (pairs, c) => (pair :: pairs, c)
      else none

/-- Reads the members of a table in braces and puts them together. -/
def readInline (item : Reader Value) : Reader Value := fun c =>
  let start := c.offset
  let inside := (c.advance 1).skipBlanks
  let pairs :=
    if inside.peek? = some '\x7d' then some ([], inside.advance 1)
    else readPairs item inside.rest.length inside
  pairs.bind fun (pairs, after) =>
    (addAll pairs (.table .inline [] (some ⟨start, after.offset⟩))).map fun node => (node, after)

/-- How deep arrays and tables in braces may stand inside each other. -/
def maxDepth : Nat := 79

/-- Reads a value whose arrays and tables in braces go at most `depth` levels deep: no value without
parts starts with a bracket or a brace. -/
def readValueWithin : Nat → Reader Value
  | 0, c => readPlain c
  | depth + 1, c =>
    match c.peek? with
    | some '[' =>
      (readItems (readValueWithin depth) c.rest.length (c.advance 1)).map fun (items, after) =>
        (.array items ⟨c.offset, after.offset⟩, after)
    | some '\x7b' => readInline (readValueWithin depth) c
    | _ => readPlain c
where
  /-- Reads a value without parts as a value. -/
  readPlain : Reader Value := fun c =>
    (readScalar c).map fun (value, after) => (.scalar value ⟨c.offset, after.offset⟩, after)

/-- Reads a value. -/
def readValue : Reader Value :=
  readValueWithin maxDepth

/-! ## Statements -/

/-- One statement of a text. -/
inductive Statement where
  /-- The header of a table, or of one more table in a list. -/
  | header (path : List Key) (isList : Bool) (span : Span)
  | pair (pair : Pair)

/-- Reads a header. -/
def readHeader : Reader Statement := fun c =>
  let isList := c.sees ['[', '[']
  let brackets := if isList then 2 else 1
  (readNames (c.advance brackets)).bind fun (path, after) =>
    (after.skip? (List.replicate brackets ']')).map fun after =>
      (.header path isList ⟨c.offset, after.offset⟩, after)

/-- Reads the statements of a text, on fewer than `limit` lines. -/
def readStatements : Nat → Cursor → Option (List Statement)
  | 0, _ => none
  | limit + 1, c =>
    let c := c.skipBlanks
    match c.peek? with
    | none => some []
    | some ch =>
      if ch = '#' ∨ ch = '\n' ∨ ch = '\r' then c.endLine?.bind (readStatements limit)
      else
        let statement :=
          if ch = '[' then readHeader c
          else (readPair readValue c).map fun (pair, c) => (.pair pair, c)
        statement.bind fun (statement, c) =>
          c.endLine?.bind fun c => (readStatements limit c).map fun rest => statement :: rest

/-! ## Texts -/

/-- The statements below one header. -/
structure Section where
  path : List Key
  isList : Bool
  span : Span
  pairs : List Pair

/-- The names with values in front of the first header, and the sections behind it. -/
def sections : List Statement → List Pair × List Section
  | [] => ([], [])
  | .pair pair :: rest =>
    let (pairs, later) := sections rest
    (pair :: pairs, later)
  | .header path isList span :: rest =>
    let (pairs, later) := sections rest
    ([], ⟨path, isList, span, pairs⟩ :: later)

/-- Where a section stands: from its header to the end of its last value. -/
def Section.whole (s : Section) : Span :=
  match s.pairs.getLast?.bind fun p => p.value.span? with
  | some last => ⟨s.span.start, last.stop⟩
  | none => s.span

/-- The table of a section, which may have got members from headers further in. -/
def Section.table (s : Section) (members : List (Key × Value)) : Option Value :=
  addAll s.pairs (.table .headed members (some s.whole))

/-- Adds the table of a section to the table it belongs in. One that had only come about by headers
further in is taken out and put behind the other members. -/
def Section.addHere (s : Section) (key : Key) (parent : Value) : Option Value :=
  if s.isList then
    match parent.member? key.text with
    | none => (s.table []).map fun table => parent.setMember key (.tables [table])
    | some (.tables items) =>
      (s.table []).map fun table => parent.setMember key (.tables (items ++ [table]))
    | some _ => none
  else
    match parent.member? key.text with
    | none => (s.table []).map fun table => parent.setMember key table
    | some (.table .implied members _) =>
      (s.table members).map fun table => (parent.dropMember key.text).setMember key table
    | some _ => none

/-- Adds a section to the whole. -/
def Section.addTo (s : Section) (top : Value) : Option Value :=
  s.path.getLast?.bind fun key => within false (s.addHere key) s.path.dropLast top

/-- A text without the mark that may stand in front of it. -/
def afterMark (c : Cursor) : Cursor :=
  (c.skip? ['\uFEFF']).getD c

/-- Reads a text as a table. -/
def parse (cs : List Char) : Option Value :=
  (readStatements (cs.length + 1) (afterMark (.start cs))).bind fun statements =>
    let (pairs, later) := sections statements
    (addAll pairs (.emptyTable .headed)).bind fun top =>
      later.foldlM (fun top s => s.addTo top) top

end ArtifactSync.Toml
