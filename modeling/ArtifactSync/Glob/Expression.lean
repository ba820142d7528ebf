import ArtifactSync.Glob.Token

/-!
# Globs as expressions

Another spelling of a glob: a regular expression for the bytes it matches. Repetitions, classes,
groups, alternatives and rows of pieces each add a level of nesting, and an expression with more
than `maxNesting` levels is refused.
-/

namespace ArtifactSync.Glob

/-- The characters that an expression writes with a backslash in front. -/
def expressionMarks : List Char :=
  "\\.+*?()|[]\x7b\x7d^$#&-~".toList

/-- The piece of an expression that stands for one byte: bytes outside of ASCII are written by their
two digits. -/
def byteExpression (b : UInt8) : List Char :=
  let c := Char.ofNat b.toNat
  if b < 128 then if expressionMarks.contains c then ['\\', c] else [c]
  else ['\\', 'x'] ++ Nat.toDigits 16 b.toNat

/-- The piece of an expression that stands for one character. -/
def charExpression (c : Char) : List Char :=
  (String.utf8EncodeChar c).flatMap byteExpression

/-- A range of characters inside the brackets of a class. -/
def rangeExpression (range : Char × Char) : List Char :=
  if range.1 = range.2 then charExpression range.1
  else charExpression range.1 ++ '-' :: charExpression range.2

mutual

/-- The expression of a token. -/
def Token.expression : Token → List Char
  | .literal c => charExpression c
  | .any => "[^/]".toList
  | .star => "[^/]*".toList
  | .treeBefore => "(?:/?|.*/)".toList
  | .treeBetween => "(?:/|/.*/)".toList
  | .treeBehind => "/.*".toList
  | .byteClass negated ranges =>
    '[' :: (if negated then ['^'] else []) ++ ranges.flatMap rangeExpression ++ [']']
  | .choice branches =>
    if allVoid branches then []
    else "(?:".toList ++ ['|'].intercalate (choiceExpressions branches) ++ [')']

/-- The expression of a row of tokens. -/
def rowExpression : List Token → List Char
  | [] => []
  | t :: ts => t.expression ++ rowExpression ts

/-- The expressions of the rows that stand for something. -/
def choiceExpressions : List (List Token) → List (List Char)
  | [] => []
  | row :: rows =>
    if rowVoid row then choiceExpressions rows else rowExpression row :: choiceExpressions rows

end

/-- The expression of a glob, for bytes and from end to end. -/
def expression (glob : List Token) : List Char :=
  "(?-u)^".toList ++ (if isWholeTree glob then ['.', '*'] else rowExpression glob) ++ ['$']

/-! ## Nesting -/

/-- The number of pieces that a token gives an expression. -/
def Token.pieces : Token → Nat
  | .literal c => (String.utf8EncodeChar c).length
  | .treeBehind => 2
  | .choice branches => if allVoid branches then 0 else 1
  | _ => 1

/-- Whether a row of tokens has several pieces, and so adds a level. -/
def isCompound (row : List Token) : Bool :=
  1 < row.foldl (fun n t => n + t.pieces) 0

/-- Whether several of the rows of a choice stand for something. -/
def hasAlternatives (branches : List (List Token)) : Bool :=
  1 < (branches.filter fun row => !rowVoid row).length

mutual

/-- How deep the pieces of a token's expression stand inside each other. -/
def Token.nesting : Token → Nat
  | .literal _ => 0
  | .any => 1
  | .star => 2
  | .treeBefore => 4
  | .treeBetween => 4
  | .treeBehind => 1
  | .byteClass _ ranges => if (ranges.flatMap byteRanges).length = 1 then 1 else 2
  | .choice branches =>
    if allVoid branches then 0
    else choiceNesting branches + if hasAlternatives branches then 2 else 1

/-- The deepest nesting among the tokens of a row. -/
def rowNesting : List Token → Nat
  | [] => 0
  | t :: ts => max t.nesting (rowNesting ts)

/-- The deepest nesting among several rows. -/
def choiceNesting : List (List Token) → Nat
  | [] => 0
  | row :: rows =>
    max (rowNesting row + if isCompound row then 1 else 0) (choiceNesting rows)

end

/-- How deep the pieces of a glob's expression stand inside each other. -/
def nesting (glob : List Token) : Nat :=
  rowNesting glob + 1

/-- How deep the pieces of an expression may stand inside each other. -/
def maxNesting : Nat := 250

/-- Whether the expression of a glob is nested too deep. -/
def isTooDeep (glob : List Token) : Bool :=
  maxNesting < nesting glob

end ArtifactSync.Glob
