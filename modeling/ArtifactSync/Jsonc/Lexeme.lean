import ArtifactSync.Text.Alphanumeric
import ArtifactSync.Text.Blank

/-!
# Lexemes of a settings document

Editor settings are JSON with comments, strings in single quotes, bare words as names, and optional
commas. This module cuts such a text into lexemes. Each keeps the characters it was cut from, blank
ones and comments included, so the texts of the lexemes in a row are the document again. A text that
cannot be cut any further yields the lexemes in front of that place and what is wrong there.
-/

namespace ArtifactSync.Jsonc

open Text

/-- The single characters with a meaning of their own. -/
inductive Mark where
  | openBrace
  | closeBrace
  | openBracket
  | closeBracket
  | comma
  | colon
  deriving DecidableEq, Repr

namespace Mark

/-- The character of a mark. -/
def char : Mark → Char
  | openBrace => '\x7b'
  | closeBrace => '\x7d'
  | openBracket => '['
  | closeBracket => ']'
  | comma => ','
  | colon => ':'

/-- The mark that a character is. -/
def ofChar? (c : Char) : Option Mark :=
  [openBrace, closeBrace, openBracket, closeBracket, comma, colon].find? fun m => m.char = c

end Mark

/-- A piece of a document, with its own characters. -/
inductive Lexeme where
  /-- A run of blank characters. -/
  | blank (text : List Char)
  | comment (text : List Char)
  | mark (m : Mark)
  /-- A string as written, quotes included, and the text it means. -/
  | string (text value : List Char)
  | number (text : List Char)
  /-- One of the three names of constants. -/
  | constant (text : List Char)
  /-- A run of letters, digits and hyphens. -/
  | word (text : List Char)
  deriving DecidableEq, Repr

namespace Lexeme

/-- The characters of a lexeme. -/
def text : Lexeme → List Char
  | blank text => text
  | comment text => text
  | mark m => [m.char]
  | string text _ => text
  | number text => text
  | constant text => text
  | word text => text

/-- Whether a lexeme means nothing: blank characters and comments. -/
def isGap : Lexeme → Bool
  | blank _ => true
  | comment _ => true
  | _ => false

/-- The name that a lexeme can give to a member. -/
def name? : Lexeme → Option (List Char)
  | string _ value => some value
  | number text => some text
  | word text => some text
  | _ => none

end Lexeme

/-- What is wrong with a document, and in front of which character, counted from its start. -/
structure Problem where
  message : String
  offset : Nat
  deriving DecidableEq, Repr

/-- A lexeme with what stands behind it, or what is wrong, counted from the start of the lexeme. -/
abbrev Cut := Except Problem (Lexeme × List Char)

/-! ## Comments -/

/-- The characters of a comment up to the end of its line, which is not part of it. -/
def lineComment : List Char → List Char × List Char
  | [] => ([], [])
  | c :: cs =>
    if c = '\n' ∨ (c = '\r' ∧ cs.head? = some '\n') then ([], c :: cs)
    else
      let (text, rest) := lineComment cs
      (c :: text, rest)

/-- The characters of a comment up to its closing mark, which is part of it. -/
def blockComment? : List Char → Option (List Char × List Char)
  | [] => none
  | c :: cs =>
    if c = '*' ∧ cs.head? = some '/' then some (['*', '/'], cs.drop 1)
    else (blockComment? cs).map fun (text, rest) => (c :: text, rest)

/-! ## Strings -/

/-- Whether a character is a hexadecimal digit. -/
def isHexDigit (c : Char) : Bool :=
  c.isDigit || ('a' ≤ c && c ≤ 'f') || ('A' ≤ c && c ≤ 'F')

/-- The value of a hexadecimal digit. -/
def hexValue (c : Char) : Nat :=
  if c.isDigit then c.toNat - 48 else c.toLower.toNat - 87

/-- The number that hexadecimal digits spell. -/
def hexNumber (digits : List Char) : Nat :=
  digits.foldl (fun n c => n * 16 + hexValue c) 0

/-- The character that four hexadecimal digits name. -/
def escapedChar (digits : List Char) : Except String Char :=
  if digits.length < 4 ∨ !digits.all isHexDigit then .error "Expected four hex digits"
  else
    let n := hexNumber digits
    if 0xD800 ≤ n ∧ n ≤ 0xDFFF then
      let shown := String.ofList digits
      .error s!"Invalid unicode escape sequence. '{shown}' is not a valid UTF8 character"
    else .ok (Char.ofNat n)

/-- The character that a single letter behind a backslash names. -/
def letterEscape? (c : Char) : Option Char :=
  if c = '"' ∨ c = '\'' ∨ c = '\\' ∨ c = '/' then some c
  else if c = 'b' then some (Char.ofNat 8)
  else if c = 'f' then some (Char.ofNat 12)
  else if c = 'n' then some '\n'
  else if c = 'r' then some '\r'
  else if c = 't' then some '\t'
  else none

/-- What stands behind a backslash in a string opened by `quote`: how many characters it takes, and
the one it means. -/
def escape (quote : Char) (c : Char) (cs : List Char) : Except String (Nat × Char) :=
  if c = 'u' then (escapedChar (cs.take 4)).map fun meant => (5, meant)
  else match letterEscape? c with
    | none => .error "Invalid escape"
    | some meant =>
      if c = '\'' ∧ quote = '"' then .error "Invalid escape in double quote string"
      else if c = '"' ∧ quote = '\'' then .error "Invalid escape in single quote string"
      else .ok (1, meant)

/-- What can be wrong inside a string. -/
inductive StringProblem where
  | unterminated
  /-- A wrong escape, with the number of characters in front of its backslash. -/
  | escape (message : String) (behind : Nat)
  deriving DecidableEq, Repr

/-- Counts one more character in front of a problem. -/
def StringProblem.shift : StringProblem → StringProblem
  | unterminated => unterminated
  | escape message behind => escape message (behind + 1)

/-- The rest of a string opened by `quote`: its characters and the closing quote, what it means,
and what stands behind it. The first `skip` characters belong to an escape that is already
understood. -/
def stringBody (quote : Char) :
    Nat → List Char → Except StringProblem (List Char × List Char × List Char)
  | _, [] => .error .unterminated
  | skip + 1, c :: cs =>
    match stringBody quote skip cs with
    | .error e => .error e.shift
    | .ok (text, value, rest) => .ok (c :: text, value, rest)
  | 0, c :: cs =>
    if c = quote then .ok ([c], [], cs)
    else if c = '\\' then
      match cs with
      | [] => .error .unterminated
      | d :: ds =>
        match escape quote d ds with
        | .error message => .error (.escape message 0)
        | .ok (taken, meant) =>
          match stringBody quote taken cs with
          | .error e => .error e.shift
          | .ok (text, value, rest) => .ok (c :: text, meant :: value, rest)
    else
      match stringBody quote 0 cs with
      | .error e => .error e.shift
      | .ok (text, value, rest) => .ok (c :: text, c :: value, rest)

/-- A string that begins with the quote given. -/
def cutString (quote : Char) (cs : List Char) : Cut :=
  match stringBody quote 0 cs with
  | .ok (text, value, rest) => .ok (.string (quote :: text) value, rest)
  | .error .unterminated => .error ⟨"Unterminated string literal", 0⟩
  | .error (.escape message behind) => .error ⟨message, behind + 1⟩

/-! ## Numbers -/

/-- At least one digit, or the complaint given. -/
def digits (complaint : String) (cs : List Char) : Except Problem (List Char × List Char) :=
  match cs.span Char.isDigit with
  | ([], _) => .error ⟨complaint, 0⟩
  | (ds, rest) => .ok (ds, rest)

/-- Counts the characters in front of a problem. -/
def Problem.shift (n : Nat) (p : Problem) : Problem :=
  ⟨p.message, p.offset + n⟩

/-- The digits in front of the point: a zero stands alone. -/
def wholePart (cs : List Char) : Except Problem (List Char × List Char) :=
  match cs with
  | '0' :: rest => .ok (['0'], rest)
  | _ => digits "Expected a digit to follow a negative sign" cs

/-- The point and the digits behind it, if there is a point. -/
def fractionPart (cs : List Char) : Except Problem (List Char × List Char) :=
  match cs with
  | '.' :: rest =>
    match digits "Expected a digit" rest with
    | .error e => .error (e.shift 1)
    | .ok (ds, rest) => .ok ('.' :: ds, rest)
  | _ => .ok ([], cs)

/-- The exponent, if there is one. -/
def exponentPart (cs : List Char) : Except Problem (List Char × List Char) :=
  match cs with
  | e :: rest =>
    if e ≠ 'e' ∧ e ≠ 'E' then .ok ([], cs)
    else match rest with
      | sign :: behind =>
        if sign = '+' ∨ sign = '-' then
          match digits "Expected a digit" behind with
          | .error p => .error (p.shift 2)
          | .ok (ds, rest) => .ok (e :: sign :: ds, rest)
        else
          match digits "Expected plus, minus, or digit in number literal" rest with
          | .error p => .error (p.shift 1)
          | .ok (ds, rest) => .ok (e :: ds, rest)
      | [] => .error ⟨"Expected plus, minus, or digit in number literal", 1⟩
  | [] => .ok ([], [])

/-- A number that begins with a digit or a minus sign. -/
def cutNumber (cs : List Char) : Cut :=
  let (sign, unsigned) := match cs with
    | '-' :: rest => (['-'], rest)
    | _ => ([], cs)
  match wholePart unsigned with
  | .error e => .error (e.shift sign.length)
  | .ok (whole, behindWhole) =>
    match fractionPart behindWhole with
    | .error e => .error (e.shift (sign.length + whole.length))
    | .ok (fraction, behindFraction) =>
      match exponentPart behindFraction with
      | .error e => .error (e.shift (sign.length + whole.length + fraction.length))
      | .ok (exponent, rest) => .ok (.number (sign ++ whole ++ fraction ++ exponent), rest)

/-! ## Words -/

/-- The names of constants. -/
def constants : List (List Char) := ["true".toList, "false".toList, "null".toList]

/-- The constant that a text begins with, unless a letter or a digit continues it. -/
def constant? (cs : List Char) : Option (List Char × List Char) :=
  (constants.find? fun name => name.isPrefixOf cs).bind fun name =>
    let rest := cs.drop name.length
    if rest.head?.any isAlphanumeric then none else some (name, rest)

/-- A run of characters up to a blank one or a colon, all of them fit for a word. -/
def cutWord (cs : List Char) : Cut :=
  let (text, rest) := cs.span fun c => !(isBlank c || c == ':')
  if text ≠ [] ∧ text.all (fun c => isAlphanumeric c || c == '-') then .ok (.word text, rest)
  else .error ⟨"Unexpected token", 0⟩

/-! ## Documents -/

/-- The first lexeme of a text that begins with `c`. -/
def cut (c : Char) (cs : List Char) : Cut :=
  if isBlank c then
    let (text, rest) := cs.span isBlank
    .ok (.blank (c :: text), rest)
  else match Mark.ofChar? c with
  | some m => .ok (.mark m, cs)
  | none =>
    if c = '"' ∨ c = '\'' then cutString c cs
    else if c = '/' then
      match cs with
      | '/' :: rest =>
        let (text, rest) := lineComment rest
        .ok (.comment ('/' :: '/' :: text), rest)
      | '*' :: rest =>
        match blockComment? rest with
        | some (text, rest) => .ok (.comment ('/' :: '*' :: text), rest)
        | none => .error ⟨"Unterminated comment block", 0⟩
      | _ => .error ⟨"Unexpected token", 0⟩
    else if c = '-' ∨ c.isDigit then cutNumber (c :: cs)
    else match constant? (c :: cs) with
      | some (text, rest) => .ok (.constant text, rest)
      | none => cutWord (c :: cs)

/-- The lexemes of a text, at most `limit` of them, and what stopped the cutting, if something did.
The offset counts the characters in front of the text. -/
def lexFrom : Nat → Nat → List Char → List Lexeme × Option Problem
  | 0, _, _ => ([], none)
  | _ + 1, _, [] => ([], none)
  | limit + 1, offset, c :: cs =>
    match cut c cs with
    | .error e => ([], some (e.shift offset))
    | .ok (lexeme, rest) =>
      let (lexemes, problem) := lexFrom limit (offset + lexeme.text.length) rest
      (lexeme :: lexemes, problem)

/-- The lexemes of a text, and what stopped the cutting, if something did. Every lexeme has a
character, so there are no more lexemes than characters. -/
def lex (cs : List Char) : List Lexeme × Option Problem :=
  lexFrom cs.length 0 cs

end ArtifactSync.Jsonc
