import ArtifactSync.Jsonc.Document

/-!
# Reading a settings document

A machine takes the lexemes of a text one at a time. It keeps the arrays and objects that are still
open, innermost first, each with the items it has so far and with what it waits for. So the first
thing that is wrong, in the order of the text, is what gets reported.
-/

namespace ArtifactSync.Jsonc

/-- Arrays and objects. -/
inductive Bracket where
  | array
  | object
  deriving DecidableEq, Repr

/-- What an open array or object waits for. -/
inductive Awaits where
  /-- An item or the end; a comma too, behind an item. -/
  | item (comma : Bool)
  /-- The colon behind a name. -/
  | colon (name : Lexeme) (between : List Lexeme)
  /-- The value behind a colon. -/
  | value (name : Lexeme) (between : List Lexeme)

/-- An open array or object: where it begins, its items in reverse, and what it waits for. -/
structure Frame where
  bracket : Bracket
  start : Nat
  items : List Item
  awaits : Awaits

/-- How far a document has been read. -/
inductive Progress where
  | before (gaps : List Lexeme)
  | inside (gaps : List Lexeme) (frame : Frame) (outer : List Frame)
  | after (gaps : List Lexeme) (value : Value) (behind : List Lexeme)

namespace Frame

/-- An array or object of which only the opening mark has been read. -/
def opened (bracket : Bracket) (start : Nat) : Frame :=
  ⟨bracket, start, [], .item false⟩

/-- Puts a blank or a comment where it stands. -/
def addGap (f : Frame) (lexeme : Lexeme) : Frame :=
  match f.awaits with
  | .item _ => { f with items := .gap lexeme :: f.items }
  | .colon name between => { f with awaits := .colon name (between ++ [lexeme]) }
  | .value name between => { f with awaits := .value name (between ++ [lexeme]) }

/-- Puts a value where one is waited for. -/
def addValue (f : Frame) (v : Value) : Frame :=
  match f.awaits with
  | .value name between =>
    { f with items := .member name between v :: f.items, awaits := .item true }
  | _ => { f with items := .element v :: f.items, awaits := .item true }

/-- The value that a closed frame is. -/
def close (f : Frame) : Value :=
  match f.bracket with
  | .array => .array f.items.reverse
  | .object => .object f.items.reverse

/-- What is wrong when the text ends inside a frame. -/
def atEnd (f : Frame) (offset : Nat) : Problem :=
  match f.awaits, f.bracket with
  | .colon _ _, _ => ⟨"Expected a colon after the string or word in an object property", offset⟩
  | .value _ _, _ => ⟨"Expected value after colon in object property", offset⟩
  | .item _, .array => ⟨"Unterminated array", f.start⟩
  | .item _, .object => ⟨"Unterminated object", f.start⟩

end Frame

/-- The place of a value: at the top, or in the innermost frame. -/
def Progress.place (gaps : List Lexeme) (outer : List Frame) (v : Value) : Progress :=
  match outer with
  | [] => .after gaps v []
  | f :: fs => .inside gaps (f.addValue v) fs

/-- Reads a lexeme where a value is waited for. -/
def readValue (gaps : List Lexeme) (outer : List Frame) (offset : Nat) (lexeme : Lexeme) :
    Except Problem Progress :=
  match lexeme with
  | .mark .openBrace => .ok (.inside gaps (.opened .object offset) outer)
  | .mark .openBracket => .ok (.inside gaps (.opened .array offset) outer)
  | .mark .closeBracket => .error ⟨"Unexpected close bracket", offset⟩
  | .mark .closeBrace => .error ⟨"Unexpected close brace", offset⟩
  | .mark .comma => .error ⟨"Unexpected comma", offset⟩
  | .mark .colon => .error ⟨"Unexpected colon", offset⟩
  | .word _ => .error ⟨"Unexpected word", offset⟩
  | _ => .ok (.place gaps outer (.scalar lexeme))

/-- Reads a lexeme that means something inside the innermost frame. -/
def readInside (gaps : List Lexeme) (f : Frame) (outer : List Frame) (offset : Nat)
    (lexeme : Lexeme) : Except Problem Progress :=
  match f.awaits with
  | .value _ _ => readValue gaps (f :: outer) offset lexeme
  | .colon name between =>
    if lexeme = .mark .colon then
      .ok (.inside gaps { f with awaits := .value name (between ++ [lexeme]) } outer)
    else .error ⟨"Expected a colon after the string or word in an object property", offset⟩
  | .item comma =>
    if lexeme = .mark .comma ∧ comma then
      .ok (.inside gaps { f with items := .gap lexeme :: f.items, awaits := .item false } outer)
    else match f.bracket with
      | .array =>
        if lexeme = .mark .closeBracket then .ok (.place gaps outer f.close)
        else readValue gaps (f :: outer) offset lexeme
      | .object =>
        if lexeme = .mark .closeBrace then .ok (.place gaps outer f.close)
        else match lexeme.name? with
          | some _ => .ok (.inside gaps { f with awaits := .colon lexeme [] } outer)
          | none => .error ⟨"Unexpected token in object", offset⟩

/-- Reads one lexeme that has `offset` characters in front of it. -/
def Progress.read (p : Progress) (offset : Nat) (lexeme : Lexeme) : Except Problem Progress :=
  match p with
  | .before gaps =>
    if lexeme.isGap then .ok (.before (gaps ++ [lexeme])) else readValue gaps [] offset lexeme
  | .inside gaps f outer =>
    if lexeme.isGap then .ok (.inside gaps (f.addGap lexeme) outer)
    else readInside gaps f outer offset lexeme
  | .after gaps v behind =>
    if lexeme.isGap then .ok (.after gaps v (behind ++ [lexeme]))
    else .error ⟨"Text cannot contain more than one JSON value", offset⟩

/-- Reads lexemes in a row, and gives how far that got and the number of characters read. -/
def Progress.readAll (p : Progress) (offset : Nat) : List Lexeme → Except Problem (Progress × Nat)
  | [] => .ok (p, offset)
  | lexeme :: rest =>
    match p.read offset lexeme with
    | .error e => .error e
    | .ok q => q.readAll (offset + lexeme.text.length) rest

/-- The document, when the text ends here. -/
def Progress.finish (p : Progress) (offset : Nat) : Except Problem Document :=
  match p with
  | .before gaps => .ok ⟨gaps, none, []⟩
  | .inside _ f _ => .error (f.atEnd offset)
  | .after gaps v behind => .ok ⟨gaps, some v, behind⟩

/-- Reads a document. What stops the cutting into lexemes is reported only if all lexemes in front
of that place fit. -/
def readDocument (cs : List Char) : Except Problem Document :=
  let (lexemes, problem) := lex cs
  match (Progress.before []).readAll 0 lexemes with
  | .error e => .error e
  | .ok (p, offset) =>
    match problem with
    | some e => .error e
    | none => p.finish offset

/-- The text of a problem: lines end at line feeds, and columns count characters. -/
def Problem.describe (cs : List Char) (p : Problem) : String :=
  let front := cs.take p.offset
  let line := (front.filter (· = '\n')).length + 1
  let column := (front.reverse.takeWhile (· ≠ '\n')).length + 1
  s!"{p.message} on line {line} column {column}."

end ArtifactSync.Jsonc
