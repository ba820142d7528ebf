import ArtifactSync.Process.CharClass

/-!
# Regular expressions

The patterns that line tools look for. `Regular.ends` gives every place where a match that begins
here can end, those that take the most first; of these, the one farthest to the right is the match.
-/

namespace ArtifactSync.Process

/-- A border that a pattern asks for and that takes no characters. -/
inductive Border where
  | textStart
  | textEnd
  | wordStart
  | wordEnd
  | wordEdge
  | noWordEdge
  /-- The character in front belongs to no word. -/
  | notBehindWord
  /-- The next character belongs to no word. -/
  | notBeforeWord
  deriving DecidableEq, Repr

/-- A pattern for the characters of a line. -/
inductive Regular where
  | empty
  | border (b : Border)
  | anyChar
  | oneOf (negated : Bool) (ranges : List CharRange)
  | sequence (first second : Regular)
  | choice (first second : Regular)
  /-- A pattern at least so many times, and so many times more; without a number, any number. -/
  | repeated (least : Nat) (more : Option Nat) (inner : Regular)
  | group (index : Nat) (inner : Regular)
  /-- The text of a group once more. -/
  | again (index : Nat)
  deriving DecidableEq, Repr

/-! ## Matching -/

/-- A place in a line: whether capitals count as small letters, the character in front of it, the
text behind it, and the texts of the groups that matched in front of it. -/
structure Place where
  folds : Bool
  before : Option Char
  rest : List Char
  groups : List (Nat × List Char)
  deriving DecidableEq, Repr

/-- Whether a character belongs to a word, as borders see it. -/
def isWordChar (c : Char) : Bool :=
  c.isAlphanum || c == '_'

/-- Whether a border is here. -/
def Place.isAt (p : Place) (b : Border) : Bool :=
  let before := p.before.any isWordChar
  let behind := p.rest.head?.any isWordChar
  match b with
  | .textStart => p.before.isNone
  | .textEnd => p.rest.isEmpty
  | .wordStart => !before && behind
  | .wordEnd => before && !behind
  | .wordEdge => before != behind
  | .noWordEdge => before == behind
  | .notBehindWord => !before
  | .notBeforeWord => !behind

/-- The place behind so many characters. -/
def Place.skip (p : Place) (n : Nat) : Place :=
  if n = 0 then p else { p with before := p.rest[n - 1]?, rest := p.rest.drop n }

/-- The places behind the next character, if it is as wanted. -/
def Place.past (p : Place) (wanted : Char → Bool) : List Place :=
  match p.rest with
  | [] => []
  | c :: _ =>
    if wanted c || (p.folds && (wanted c.toLower || wanted c.toUpper)) then [p.skip 1] else []

/-- The places that at most `limit` steps lead to, the farthest first. A step that goes nowhere ends
them. -/
def stepsFrom (step : Place → List Place) : Nat → Place → List Place
  | 0, p => [p]
  | limit + 1, p =>
    ((step p).filter fun q => q.rest.length < p.rest.length).flatMap (stepsFrom step limit) ++ [p]

/-- The places that a number of steps lead to. -/
def stepsExactly (step : Place → List Place) : Nat → Place → List Place
  | 0, p => [p]
  | n + 1, p => (step p).flatMap (stepsExactly step n)

/-- Every place where a match of a pattern can end. -/
def Regular.ends : Regular → Place → List Place
  | empty, p => [p]
  | border b, p => if p.isAt b then [p] else []
  | anyChar, p => p.past fun _ => true
  | oneOf negated ranges, p =>
    match p.rest with
    | [] => []
    | c :: _ =>
      let isIn := inRanges ranges c ||
        (p.folds && (inRanges ranges c.toLower || inRanges ranges c.toUpper))
      if isIn != negated then [p.skip 1] else []
  | sequence first second, p => (first.ends p).flatMap second.ends
  | choice first second, p => first.ends p ++ second.ends p
  | repeated least more inner, p =>
    (stepsExactly inner.ends least p).flatMap fun q =>
      stepsFrom inner.ends (more.getD q.rest.length) q
  | group index inner, p =>
    (inner.ends p).map fun q =>
      let text := p.rest.take (p.rest.length - q.rest.length)
      { q with groups := (index, text) :: q.groups.filter fun g => g.1 ≠ index }
  | again index, p =>
    match p.groups.find? fun g => g.1 = index with
    | none => []
    | some (_, text) => if text.isPrefixOf p.rest then [p.skip text.length] else []

/-- The place among some that is farthest to the right; the first of those. -/
def farthest : List Place → Option Place
  | [] => none
  | p :: ps =>
    match farthest ps with
    | none => some p
    | some q => if q.rest.length < p.rest.length then some q else some p

/-- A match in a line: the text in front of it, its own, the place behind it. -/
structure Match where
  front : List Char
  text : List Char
  behind : Place
  deriving DecidableEq, Repr

/-- The match of a pattern that begins at a place, if there is one. -/
def Regular.here (r : Regular) (folds : Bool) (before : Option Char) (cs : List Char) :
    Option Match :=
  (farthest (r.ends ⟨folds, before, cs, []⟩)).map fun p =>
    ⟨[], cs.take (cs.length - p.rest.length), p⟩

/-- The first match in a text behind a character, if there is one in front. -/
def Regular.find (r : Regular) (folds : Bool) (before : Option Char) : List Char → Option Match
  | [] => r.here folds before []
  | c :: rest =>
    match r.here folds before (c :: rest) with
    | some m => some m
    | none => (r.find folds (some c) rest).map fun m => { m with front := c :: m.front }

/-- Whether a line holds a match. -/
def Regular.isIn (r : Regular) (folds : Bool) (line : List Char) : Bool :=
  (r.find folds none line).isSome

/-! ## Reading patterns -/

/-- What is wrong with a pattern. -/
inductive RegularProblem where
  | openBracket
  | openGroup
  | closedGroup
  | unknownClass
  | openInterval
  | badInterval
  | noSuchGroup
  | loneBackslash
  deriving DecidableEq, Repr

/-- The text of a problem. -/
def RegularProblem.toString : RegularProblem → String
  | openBracket => "Unmatched [, [^, [:, [., or [="
  | openGroup => "Unmatched ( or \\("
  | closedGroup => "Unmatched ) or \\)"
  | unknownClass => "Invalid character class name"
  | openInterval => "Unmatched \\\x7b"
  | badInterval => "Invalid content of \\\x7b\\\x7d"
  | noSuchGroup => "Invalid back reference"
  | loneBackslash => "Trailing backslash"

/-- A piece of a written pattern. -/
inductive RegularToken where
  | part (r : Regular)
  | opens
  | closes
  | bar
  | times (least : Nat) (more : Option Nat)
  deriving DecidableEq, Repr

/-- The ranges between brackets up to the closing one, and how many characters they take with it.
The first `skip` characters are already understood. -/
def setRanges : Nat → List Char → Except RegularProblem (List CharRange × Nat)
  | _, [] => .error .openBracket
  | skip + 1, _ :: cs => (setRanges skip cs).map fun (rs, n) => (rs, n + 1)
  | 0, c :: cs =>
    if c = ']' then .ok ([], 1)
    else if c = '[' && cs.head? = some ':' then
      match className? cs with
      | none => .error .openBracket
      | some name =>
        match classRanges? name with
        | none => .error .unknownClass
        | some named => (setRanges (name.length + 3) cs).map fun (rs, n) => (named ++ rs, n + 1)
    else
      match cs with
      | '-' :: d :: _ =>
        if d = ']' then (setRanges 0 cs).map fun (rs, n) => ((c, c) :: rs, n + 1)
        else (setRanges 2 cs).map fun (rs, n) => ((c, d) :: rs, n + 1)
      | _ => (setRanges 0 cs).map fun (rs, n) => ((c, c) :: rs, n + 1)

/-- The set of characters behind an opening bracket, and how many characters it takes. -/
def setBehind (cs : List Char) : Except RegularProblem (Regular × Nat) :=
  let negated := cs.head? = some '^'
  let start := if negated then 1 else 0
  match cs.drop start with
  | [] => .error .openBracket
  | c :: rest =>
    -- a bracket at the very start is one of the characters
    let found := if c = ']' then (setRanges 0 rest).map fun (rs, n) => ((c, c) :: rs, n + 1)
      else setRanges 0 (c :: rest)
    found.map fun (rs, n) => (.oneOf negated rs, start + n)

/-- A character as a pattern. -/
def Regular.just (c : Char) : Regular := .oneOf false [(c, c)]

/-- What a sign means in a pattern, and whether a part of the pattern can begin behind it. -/
def signToken? (c : Char) : Option (RegularToken × Bool) :=
  match c with
  | '(' => some (.opens, true)
  | ')' => some (.closes, false)
  | '|' => some (.bar, true)
  | '+' => some (.times 1 none, false)
  | '?' => some (.times 0 (some 1), false)
  | _ => none

/-- How often something is to be repeated, as it stands between braces, and how many characters that
takes with the closing brace. -/
def interval? (extended : Bool) (cs : List Char) : Option (RegularToken × Nat) :=
  let close := if extended then ['\x7d'] else ['\\', '\x7d']
  let low := cs.takeWhile Char.isDigit
  let number := fun (ds : List Char) => ds.foldl (fun n c => n * 10 + (c.toNat - 48)) 0
  let behind := cs.drop low.length
  let comma := behind.head? = some ','
  let high := if comma then (behind.drop 1).takeWhile Char.isDigit else []
  let length := low.length + (if comma then high.length + 1 else 0)
  if !close.isPrefixOf (cs.drop length) || (low = [] && !comma) then none
  else
    let more := if !comma then some 0
      else if high = [] then none
      else some (number high - number low)
    some (.times (number low) more, length + close.length)

/-- Whether a pattern can end where some text begins. -/
def patternEnds (extended : Bool) (cs : List Char) : Bool :=
  match cs with
  | [] => true
  | '\\' :: ')' :: _ => !extended
  | '\\' :: '|' :: _ => !extended
  | c :: _ => extended && (c = ')' || c = '|')

/-- What a letter behind a backslash stands for. -/
def letterPart? (d : Char) : Option Regular :=
  let word := ('_', '_') :: (classRanges? "alnum".toList).getD []
  let space := (classRanges? "space".toList).getD []
  match d with
  | 'n' => some (.just '\n')
  | 't' => some (.just '\t')
  | 'f' => some (.just '\x0c')
  | 'r' => some (.just '\r')
  | 'v' => some (.just '\x0b')
  | 's' => some (.oneOf false space)
  | 'S' => some (.oneOf true space)
  | 'w' => some (.oneOf false word)
  | 'W' => some (.oneOf true word)
  | 'b' => some (.border .wordEdge)
  | 'B' => some (.border .noWordEdge)
  | '<' => some (.border .wordStart)
  | '>' => some (.border .wordEnd)
  | '\'' => some (.border .textEnd)
  | _ => if d.toNat = 96 then some (.border .textStart) else none

/-- The pieces of a written pattern. In the extended style signs have their meaning without a
backslash. The first `skip` characters are already understood; `fresh` tells whether a pattern
begins here. -/
def regularTokens (extended : Bool) :
    Nat → Bool → List Char → Except RegularProblem (List RegularToken)
  | _, _, [] => .ok []
  | skip + 1, fresh, _ :: cs => regularTokens extended skip fresh cs
  | 0, fresh, c :: cs =>
    let put := fun (token : RegularToken) (skip : Nat) (fresh : Bool) =>
      (regularTokens extended skip fresh cs).map (token :: ·)
    let part := fun (r : Regular) (skip : Nat) => put (.part r) skip false
    let braces := fun (skip : Nat) (otherwise : Except RegularProblem (List RegularToken)) =>
      if fresh then otherwise
      else match interval? extended (cs.drop skip) with
        | some (token, taken) => put token (taken + skip) false
        | none =>
          if extended then otherwise
          else if (cs.zip (cs.drop 1)).contains ('\\', '\x7d') then .error .badInterval
          else .error .openInterval
    if c = '\\' then
      match cs.head? with
      | none => .error .loneBackslash
      | some d =>
        if !extended && d = '\x7b' then braces 1 (part (.just d) 1)
        else match (if extended then none else signToken? d) with
          | some (.times least more, _) =>
            if fresh then part (.just d) 1 else put (.times least more) 1 false
          | some (token, fresh) => put token 1 fresh
          | none =>
            if d.isDigit && d ≠ '0' then part (.again (d.toNat - 48)) 1
            else part ((letterPart? d).getD (.just d)) 1
    else if c = '.' then part .anyChar 0
    else if c = '[' then
      match setBehind cs with
      | .ok (r, taken) => part r taken
      | .error e => .error e
    else if c = '^' && (extended || fresh) then put (.part (.border .textStart)) 0 true
    else if c = '$' && (extended || patternEnds extended cs) then part (.border .textEnd) 0
    else if c = '*' && !fresh then put (.times 0 none) 0 false
    else if extended && c = '\x7b' then braces 0 (part (.just c) 0)
    else match (if extended then signToken? c else none) with
      | some (.times least more, _) =>
        if fresh then part (.just c) 0 else put (.times least more) 0 false
      | some (token, fresh) => put token 0 fresh
      | none => part (.just c) 0

/-- Two patterns one after the other. -/
def Regular.before (first second : Regular) : Regular :=
  if second = .empty then first else if first = .empty then second else .sequence first second

/-- Reads a pattern up to a closing parenthesis: the pattern, the number of groups so far, and the
pieces left. `before` is what stands in front of the last part, and `last` that part. -/
def readRegular : Nat → Nat → Regular → Regular → List RegularToken →
    Regular × Nat × List RegularToken
  | 0, groups, before, last, ts => (before.before last, groups, ts)
  | limit + 1, groups, before, last, ts =>
    match ts with
    | [] => (before.before last, groups, [])
    | .part r :: rest => readRegular limit groups (before.before last) r rest
    | .times least more :: rest =>
      readRegular limit groups before (.repeated least more last) rest
    | .bar :: rest =>
      let (other, groups, rest) := readRegular limit groups .empty .empty rest
      (.choice (before.before last) other, groups, rest)
    | .opens :: rest =>
      let (inner, count, rest) := readRegular limit (groups + 1) .empty .empty rest
      readRegular limit count (before.before last) (.group (groups + 1) inner) (rest.drop 1)
    | .closes :: rest => (before.before last, groups, .closes :: rest)

/-- A pattern in which each parenthesis that closes nothing stands for itself, of whose parentheses
`depth` are open. -/
def withLiteralEnds : Nat → List RegularToken → List RegularToken
  | _, [] => []
  | depth, .opens :: ts => .opens :: withLiteralEnds (depth + 1) ts
  | 0, .closes :: ts => .part (.just ')') :: withLiteralEnds 0 ts
  | depth + 1, .closes :: ts => .closes :: withLiteralEnds depth ts
  | depth, t :: ts => t :: withLiteralEnds depth ts

/-- What is wrong with the parentheses of a pattern, of which `depth` are open. -/
def unpaired : Nat → List RegularToken → Option RegularProblem
  | 0, [] => none
  | _ + 1, [] => some .openGroup
  | depth, .opens :: ts => unpaired (depth + 1) ts
  | depth, .closes :: ts => if depth = 0 then some .closedGroup else unpaired (depth - 1) ts
  | depth, _ :: ts => unpaired depth ts

/-- The pattern that a text writes. A parenthesis that closes nothing may stand for itself. -/
def Regular.read (extended lenient : Bool) (cs : List Char) : Except RegularProblem Regular :=
  (regularTokens extended 0 true cs).bind fun ts =>
    let ts := if extended && lenient then withLiteralEnds 0 ts else ts
    let groups := ts.countP (· = .opens)
    let refers := ts.any fun t =>
      match t with
      | .part (.again index) => groups < index
      | _ => false
    match unpaired 0 ts with
    | some problem => .error problem
    | none =>
      if refers then .error .noSuchGroup
      else .ok (readRegular (ts.length + 1) 0 .empty .empty ts).1

/-- The pattern of a text that stands for itself. -/
def Regular.exactly (cs : List Char) : Regular :=
  cs.foldr (fun c r => (Regular.just c).before r) .empty

end ArtifactSync.Process
