import ArtifactSync.Text.Utf8

/-!
# What globs match

A glob is a row of tokens and matches the bytes of a whole path. Matching keeps the set of all
places that the tokens so far can have reached, each as the bytes that remain, so a glob with many
wildcards takes no longer than the number of places allows.
-/

namespace ArtifactSync.Glob

/-- A piece of a glob. -/
inductive Token where
  /-- A character, by its bytes. -/
  | literal (c : Char)
  /-- One byte that is no separator. -/
  | any
  /-- Any bytes up to the next separator. -/
  | star
  /-- Nothing, a separator, or anything up to and with a separator. -/
  | treeBefore
  /-- A separator, or anything that begins and ends with one. -/
  | treeBetween
  /-- A separator and anything behind it. -/
  | treeBehind
  /-- One byte out of the ranges, or out of none of them. -/
  | byteClass (negated : Bool) (ranges : List (Char × Char))
  /-- One of several rows of tokens. -/
  | choice (branches : List (List Token))
  deriving Repr

/-- The byte of the separator. -/
def slash : UInt8 := 47

/-- Bytes without those of `start` in front, if they begin so. -/
def dropBytes? : List UInt8 → List UInt8 → Option (List UInt8)
  | [], bs => some bs
  | _ :: _, [] => none
  | a :: start, b :: bs => if a = b then dropBytes? start bs else none

/-- Bytes, and what is left behind each of the first ones up to a separator. -/
def behindStar : List UInt8 → List (List UInt8)
  | [] => [[]]
  | b :: bs => (b :: bs) :: if b = slash then [] else behindStar bs

/-- What is left behind each separator. -/
def behindSlashes : List UInt8 → List (List UInt8)
  | [] => []
  | b :: bs => if b = slash then bs :: behindSlashes bs else behindSlashes bs

/-- What is left behind any number of bytes. -/
def behindAny : List UInt8 → List (List UInt8)
  | [] => [[]]
  | b :: bs => (b :: bs) :: behindAny bs

/-- The ranges of bytes that a range of characters covers: characters longer than a byte put each of
theirs in, and the range runs from the last byte of one to the first byte of the other. -/
def byteRanges (range : Char × Char) : List (UInt8 × UInt8) :=
  let low := String.utf8EncodeChar range.1
  let high := String.utf8EncodeChar range.2
  if range.1 = range.2 then low.map fun b => (b, b)
  else
    low.dropLast.map (fun b => (b, b)) ++ [(low.getLastD 0, high.headD 0)]
      ++ high.tail.map fun b => (b, b)

/-- Whether a class takes a byte. -/
def classTakes (negated : Bool) (ranges : List (Char × Char)) (b : UInt8) : Bool :=
  negated != (ranges.flatMap byteRanges).any fun r => r.1 ≤ b && b ≤ r.2

mutual

/-- Whether a token stands for nothing at all: a choice among rows that all stand for nothing. -/
def Token.isVoid : Token → Bool
  | .choice branches => allVoid branches
  | _ => false

/-- Whether a row of tokens stands for nothing at all. -/
def rowVoid : List Token → Bool
  | [] => true
  | t :: ts => t.isVoid && rowVoid ts

/-- Whether all rows stand for nothing at all. -/
def allVoid : List (List Token) → Bool
  | [] => true
  | row :: rows => rowVoid row && allVoid rows

end

mutual

/-- What can be left of some bytes behind a token. A choice leaves out the rows that stand for
nothing, unless all of them do. -/
def Token.rests : Token → List UInt8 → List (List UInt8)
  | .literal c, bs => (dropBytes? (String.utf8EncodeChar c) bs).toList
  | .any, bs =>
    match bs with
    | [] => []
    | b :: rest => if b = slash then [] else [rest]
  | .star, bs => behindStar bs
  | .treeBefore, bs => bs :: behindSlashes bs
  | .treeBetween, bs =>
    match bs with
    | [] => []
    | b :: rest => if b = slash then rest :: behindSlashes rest else []
  | .treeBehind, bs =>
    match bs with
    | [] => []
    | b :: rest => if b = slash then behindAny rest else []
  | .byteClass negated ranges, bs =>
    match bs with
    | [] => []
    | b :: rest => if classTakes negated ranges b then [rest] else []
  | .choice branches, bs =>
    if allVoid branches then [bs] else choiceRests branches bs

/-- What can be left behind a row of tokens, from any of several places. -/
def rowRests : List Token → List (List UInt8) → List (List UInt8)
  | [], places => places
  | t :: ts, places => rowRests ts (places.flatMap fun bs => t.rests bs).eraseDups

/-- What can be left behind one of several rows of tokens. -/
def choiceRests : List (List Token) → List UInt8 → List (List UInt8)
  | [], _ => []
  | row :: rows, bs =>
    (if rowVoid row then [] else rowRests row [bs]) ++ choiceRests rows bs

end

/-- Whether a glob is the one token that stands for whole trees. -/
def isWholeTree : List Token → Bool
  | [.treeBefore] => true
  | _ => false

/-- Whether a token is a character that fits a test. -/
def Token.isLiteral (p : Char → Bool) : Token → Bool
  | .literal c => p c
  | _ => false

/-- Whether a glob is a fixed name in any directory. -/
def isFixedName : List Token → Bool
  | .treeBefore :: row => !row.isEmpty && row.all (Token.isLiteral (· ≠ '/'))
  | _ => false

/-- Whether a glob has fixed characters only, or a fixed path in any directory. -/
def isFixedPath : List Token → Bool
  | .treeBefore :: row => row.all (Token.isLiteral fun _ => true)
  | row => row.all (Token.isLiteral fun _ => true)

/-- Whether a glob ends in a point and fixed characters that are no separators. -/
def endsInExtension (glob : List Token) : Bool :=
  match glob.reverse.dropWhile (Token.isLiteral fun c => c ≠ '.' && c ≠ '/') with
  | .literal '.' :: _ => true
  | _ => false

/-- Whether a glob asks for the name of what it matches: for all of it, or for its extension. -/
def asksName (glob : List Token) : Bool :=
  isFixedName glob || (!isFixedPath glob && endsInExtension glob)

/-- Whether the bytes of a path end in a name: two points lead up, and name nothing. -/
def hasName (bs : List UInt8) : Bool :=
  bs.reverse.takeWhile (· ≠ slash) ≠ [46, 46]

/-- Whether a glob matches all of some bytes. A glob that is only a tree matches everything, and one
that asks for a name only what has one. -/
def isMatch (glob : List Token) (bs : List UInt8) : Bool :=
  isWholeTree glob || ((!asksName glob || hasName bs) && (rowRests glob [bs]).contains [])

end ArtifactSync.Glob
