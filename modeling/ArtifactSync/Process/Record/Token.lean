import ArtifactSync.Process.Record.Script

/-!
# Tokens of record scripts

A script is read as tokens: names, numbers, texts, patterns and signs. A slash begins a pattern
unless it stands behind something that has a value. The line of each token is kept for complaints.
-/

namespace ArtifactSync.Process.Record

/-- What kind of token a text is. -/
inductive TokenKind where
  | number
  | text
  | pattern
  | name
  /-- A name right in front of a parenthesis. -/
  | called
  | reserved
  | known (function : Known)
  | sign
  | lineEnd
  | scriptEnd
  deriving DecidableEq, Repr

/-- A piece of a script. -/
structure Token where
  kind : TokenKind
  text : Word
  line : Nat
  deriving DecidableEq, Repr

/-- What is wrong with a script, as it is complained about. -/
structure ScriptProblem where
  message : String
  deriving DecidableEq, Repr

/-- A problem in a line. -/
def ScriptProblem.inLine (line : Nat) (message : String) : ScriptProblem :=
  ⟨s!"line {line}: {message}"⟩

namespace Token

/-- The reserved words. -/
def reservedWords : List String :=
  ["BEGIN", "END", "break", "continue", "delete", "do", "else", "exit", "for", "func", "function",
    "getline", "if", "in", "next", "nextfile", "print", "printf", "return", "while"]

/-- The functions that every script knows: their names, and the fewest and the most values that they
take. -/
def knownFunctions : List (String × Known × Nat × Nat) :=
  [("length", .length, 0, 1), ("substr", .substr, 2, 3), ("index", .index, 2, 2),
    ("split", .split, 2, 3), ("sub", .replace false, 2, 3), ("gsub", .replace true, 2, 3),
    ("match", .find, 2, 2), ("sprintf", .format, 1, 255), ("tolower", .lower, 1, 1),
    ("toupper", .upper, 1, 1), ("sin", .sine, 1, 1), ("cos", .cosine, 1, 1),
    ("atan2", .arcTangent, 2, 2), ("exp", .exponential, 1, 1), ("log", .logarithm, 1, 1),
    ("sqrt", .root, 1, 1), ("int", .whole, 1, 1), ("rand", .random, 0, 0), ("srand", .seed, 0, 1),
    ("system", .system, 1, 1), ("close", .close, 1, 1), ("fflush", .flush, 0, 1)]

/-- The signs, the longest first. -/
def signs : List String :=
  ["**=", "&&", "||", "++", "--", "+=", "-=", "*=", "/=", "%=", "^=", "==", "<=", ">=", "!=", "!~",
    ">>", "\x7b", "\x7d", "(", ")", "[", "]", ";", ",", "+", "-", "*", "/", "%", "^", "!", "<", ">",
    "|", "?", ":", "~", "$", "="]

/-- Whether a token has a value or ends something that has one. The signs of steps do not count, nor
do functions that are called without parentheses. -/
def endsValue (t : Token) : Bool :=
  match t.kind with
  | .number => true
  | .text => true
  | .name => true
  | .pattern => true
  | .sign => [")", "]", "$"].any fun s => s.toList = t.text
  | _ => false

/-- Whether a character can stand in a name. -/
def isNameChar (c : Char) : Bool :=
  c.isAlphanum || c = '_'

/-- How many characters there are up to a mark that no backslash hides, if it stands in the line. -/
def lengthTo? (mark : Char) : List Char → Option Nat
  | [] => none
  | '\\' :: _ :: cs => (lengthTo? mark cs).map (· + 2)
  | c :: cs =>
    if c = mark then some 0 else if c = '\n' then none else (lengthTo? mark cs).map (· + 1)

/-- How many characters there are up to the slash that ends a pattern. One between brackets does
not; `inside` tells whether brackets are open. The first `skip` characters are already understood.
-/
def patternLength? : Nat → Bool → List Char → Option Nat
  | _, _, [] => none
  | skip + 1, inside, _ :: cs => (patternLength? skip inside cs).map (· + 1)
  | 0, inside, c :: cs =>
    let go := fun (skip : Nat) (inside : Bool) => (patternLength? skip inside cs).map (· + 1)
    if c = '\n' then none
    else if c = '\\' then go 1 inside
    else if !inside then
      if c = '/' then some 0
      else if c = '[' then
        -- a bracket at the very start of a set does not end it
        go (if cs.head? = some ']' then 1 else if cs.take 2 = ['^', ']'] then 2 else 0) true
      else go 0 false
    else if c = ']' then go 0 false
    else match (if c = '[' then className? cs else none) with
      | some name => go (name.length + 3) true
      | none => go 0 true

/-- A pattern in which no backslash stands in front of a slash. -/
def withoutHiddenSlashes : List Char → Word
  | '\\' :: c :: cs => (if c = '/' then [c] else ['\\', c]) ++ withoutHiddenSlashes cs
  | c :: cs => c :: withoutHiddenSlashes cs
  | [] => []

/-- A text with its escapes carried out; backslashes that mean nothing stay. -/
def unescaped : Nat → List Char → Word
  | _, [] => []
  | skip + 1, _ :: cs => unescaped skip cs
  | 0, '\\' :: cs =>
    match cs with
    | [] => ['\\']
    | c :: rest =>
      let octal := (cs.take 3).takeWhile isOctal
      let hex := if c = 'x' then (rest.take 2).takeWhile (isDigitIn 16) else []
      let byte := fun (n : Nat) => Char.ofNat (n % 256)
      if octal ≠ [] then byte (numberIn 8 octal) :: unescaped octal.length cs
      else if hex ≠ [] then byte (numberIn 16 hex) :: unescaped (hex.length + 1) cs
      else if c = '\n' then unescaped 1 cs
      else if c = '"' || c = '\\' then c :: unescaped 1 cs
      else match (if c = 'e' then none else letterByte? c) with
        | some b => Char.ofNat b.toNat :: unescaped 1 cs
        | none => '\\' :: c :: unescaped 1 cs
  | 0, c :: cs => c :: unescaped 0 cs

/-- How many characters the number at the start of a text takes. -/
def numberLength (cs : List Char) : Nat :=
  let whole := cs.takeWhile Char.isDigit
  let behind := cs.drop whole.length
  let part := if behind.head? = some '.' then (behind.drop 1).takeWhile Char.isDigit else []
  let length := whole.length + (if behind.head? = some '.' then part.length + 1 else 0)
  let power := cs.drop length
  let sign := if (power[1]?).any fun c => c = '+' || c = '-' then 1 else 0
  let digits := (power.drop (1 + sign)).takeWhile Char.isDigit
  if (power.head?.map Char.toLower) = some 'e' && digits ≠ [] then
    length + 1 + sign + digits.length
  else length

/-- The token at the start of a text, and how many characters it takes; none stands for blanks. -/
def next (line : Nat) (behindValue : Bool) (cs : List Char) :
    Except ScriptProblem (Option Token × Nat) :=
  match cs with
  | [] => .ok (none, 0)
  | c :: rest =>
    let token := fun (kind : TokenKind) (text : Word) (taken : Nat) =>
      Except.ok (some ⟨kind, text, line⟩, taken)
    let shown := fun (w : Word) => String.ofList (w.takeWhile (· ≠ '\n'))
    if c = ' ' || c = '\t' || c = '\r' then .ok (none, 1)
    else if c = '\n' then token .lineEnd [c] 1
    else if c = '#' then .ok (none, (cs.takeWhile (· ≠ '\n')).length)
    else if c = '\\' && rest.head? = some '\n' then .ok (none, 2)
    else if c = '\\' && rest.take 2 = ['\r', '\n'] then .ok (none, 3)
    else if c.isDigit || (c = '.' && (rest.head?).any Char.isDigit) then
      let n := numberLength cs
      token .number (cs.take n) n
    else if c = '"' then
      match lengthTo? '"' rest with
      | some n => token .text (unescaped 0 (rest.take n)) (n + 2)
      | none => .error (.inLine line s!"runaway string constant {shown (cs.take 11)} ...")
    else if c = '/' && !behindValue then
      match patternLength? 0 false rest with
      | some n => token .pattern (withoutHiddenSlashes (rest.take n)) (n + 2)
      | none =>
        let start := shown (withoutHiddenSlashes (cs.take 11))
        .error (.inLine line s!"runaway regular expression {start} ...")
    else if c.isAlpha || c = '_' then
      let name := cs.takeWhile isNameChar
      let spelled := String.ofList name
      if reservedWords.contains spelled then token .reserved name name.length
      else match knownFunctions.find? fun k => k.1 = spelled with
        | some (_, function, _) => token (.known function) name name.length
        | none =>
          let isCall := cs[name.length]? = some '('
          token (if isCall then .called else .name) name name.length
    else match signs.find? fun s => s.toList.isPrefixOf cs with
      | some s => token .sign s.toList s.length
      | none => .error ⟨s!"{line}: unexpected character '{c}'"⟩

/-- The tokens of a script from a line on. The first `skip` characters belong to a token that is
already read. -/
def allFrom : Nat → Bool → Nat → List Char → Except ScriptProblem (List Token)
  | line, _, _, [] => .ok [⟨.lineEnd, [], line⟩, ⟨.scriptEnd, [], line + 1⟩]
  | line, behindValue, skip + 1, c :: cs =>
    allFrom (if c = '\n' then line + 1 else line) behindValue skip cs
  | line, behindValue, 0, c :: cs =>
    match next line behindValue (c :: cs) with
    | .error e => .error e
    | .ok (token, taken) =>
      let line := if c = '\n' then line + 1 else line
      match token with
      | none => allFrom line behindValue (taken - 1) cs
      | some t => (allFrom line t.endsValue (taken - 1) cs).map (t :: ·)

/-- Tokens, of whose parentheses some are open, without those that close nothing; then those. -/
def withoutExtra : Nat → List Token → List Token × List Token
  | _, [] => ([], [])
  | depth, t :: ts =>
    let isSign := fun (s : String) => t.kind = .sign && t.text = s.toList
    if isSign ")" && depth = 0 then
      let (kept, extra) := withoutExtra 0 ts
      (kept, t :: extra)
    else
      let depth := if isSign "(" then depth + 1 else if isSign ")" then depth - 1 else depth
      let (kept, extra) := withoutExtra depth ts
      (t :: kept, extra)

/-- The tokens of a script, and those that close nothing. -/
def all (cs : List Char) : Except ScriptProblem (List Token × List Token) :=
  (allFrom 1 false 0 cs).map (withoutExtra 0)

end Token

end ArtifactSync.Process.Record
