import ArtifactSync.Process.Wildcard
import ArtifactSync.Proofs.Path.Names
import Mathlib.Data.List.Infix

/-!
# The rules of ignore lists

What the version control makes of an ignore list, as its documentation has it. Each line is a rule
or none. A rule has a pattern, and says of the paths that match it whether they are ignored. The
last rule that matches a path decides, and what is below an ignored directory is ignored, whatever
the rules say of itself.

Paths are rows of names below the root of the repository.
-/

namespace ArtifactSync.IgnoreRules

open Process (CharRange Marked bracketLength? inRanges rangesOf)

/-! ## Patterns -/

/-- A part of a pattern. -/
inductive Part where
  | char (c : Char)
  /-- One character that is no separator. -/
  | one
  /-- Any characters up to the next separator. -/
  | many
  /-- Any number of directories, each with its separator. -/
  | dirs
  /-- All that is left. -/
  | all
  /-- One character that is no separator, in some ranges or in none of them. -/
  | oneOf (negated : Bool) (ranges : List CharRange)
  deriving DecidableEq, Repr

/-- A text, and what is left of it behind each of the first characters up to a separator. -/
def behindMany : List Char → List (List Char)
  | [] => [[]]
  | c :: cs => (c :: cs) :: if c = '/' then [] else behindMany cs

/-- What is left behind each separator. -/
def behindSlashes : List Char → List (List Char)
  | [] => []
  | c :: cs => if c = '/' then cs :: behindSlashes cs else behindSlashes cs

/-- What can be left of a text behind a part. -/
def Part.rests : Part → List Char → List (List Char)
  | char c, cs => if cs.head? = some c then [cs.tail] else []
  | one, cs => if cs.head?.any (· ≠ '/') then [cs.tail] else []
  | many, cs => behindMany cs
  | dirs, cs => cs :: behindSlashes cs
  | all, _ => [[]]
  | oneOf negated ranges, cs =>
    if cs.head?.any fun c => c ≠ '/' && inRanges ranges c != negated then [cs.tail] else []

/-- Whether parts match a text as a whole. -/
def matchParts : List Part → List Char → Bool
  | [], cs => cs.isEmpty
  | part :: parts, cs => (part.rests cs).any (matchParts parts)

/-- The characters of a pattern, each with whether a backslash in front makes it stand for itself. A
backslash at the end has nothing to make so, and the pattern matches nothing. -/
def marks? : List Char → Option (List Marked)
  | [] => some []
  | ['\\'] => none
  | '\\' :: c :: cs => (marks? cs).map ((c, true) :: ·)
  | c :: cs => (marks? cs).map ((c, false) :: ·)

/-- The parts of a pattern; `none` if a bracket is not closed, as the pattern matches nothing then.
The first `skip` characters are already understood, and `front` says whether what comes then is at
the start or behind a separator: only there two stars stand for directories. -/
def parts? : Bool → Nat → List Marked → Option (List Part)
  | _, _, [] => some []
  | front, skip + 1, _ :: cs => parts? front skip cs
  | front, 0, (c, quoted) :: cs =>
    if quoted then (parts? (c == '/') 0 cs).map (.char c :: ·)
    else if c = '?' then (parts? false 0 cs).map (.one :: ·)
    else if c = '*' then
      let more := (cs.takeWhile (· = ('*', false))).length
      match cs.drop more with
      | [] => some [if front && 0 < more then .all else .many]
      | next :: _ =>
        if front && 0 < more && next = ('/', false) then
          (parts? true (more + 1) cs).map (.dirs :: ·)
        else (parts? false more cs).map (.many :: ·)
    else if c = '[' then
      let negated := cs.head? = some ('!', false) || cs.head? = some ('^', false)
      let start := if negated then 1 else 0
      (bracketLength? 0 true (cs.drop start)).bind fun length =>
        (parts? false (start + length + 1) cs).map
          (.oneOf negated (rangesOf 0 ((cs.drop start).take length)) :: ·)
    else (parts? (c == '/') 0 cs).map (.char c :: ·)

/-! ## Rules -/

/-- What a line says. -/
structure Rule where
  /-- Whether paths that match are taken back in. -/
  negated : Bool
  /-- Whether only directories match. -/
  dirOnly : Bool
  /-- Whether the pattern is one for the whole path, and not for the last name alone. -/
  anchored : Bool
  /-- The parts of the pattern, unless it matches nothing. -/
  parts : Option (List Part)
  deriving DecidableEq, Repr

/-- Whether a rule is about a path. -/
def Rule.matches (r : Rule) (names : List (List Char)) (isDir : Bool) : Bool :=
  (isDir || !r.dirOnly) && r.parts.any fun parts =>
    matchParts parts (if r.anchored then (Path.ofNames names).chars else names.getLast?.getD [])

/-- A line without the spaces at its end, up to one that a backslash makes stand for itself. -/
def trimSpaces : List Char → List Char
  | [] => []
  | ['\\'] => ['\\']
  | '\\' :: c :: cs => '\\' :: c :: trimSpaces cs
  | c :: cs => if (c :: cs).all (· == ' ') then [] else c :: trimSpaces cs

/-- The rule of a pattern. A separator at its end asks for a directory, and one anywhere else ties it
to the root. -/
def Rule.ofPattern (negated : Bool) (pattern : List Char) : Rule :=
  let dirOnly := pattern.getLast? = some '/'
  let pattern := if dirOnly then pattern.dropLast else pattern
  let path := if pattern.head? = some '/' then pattern.tail else pattern
  ⟨negated, dirOnly, pattern.contains '/', (marks? path).bind (parts? true 0)⟩

/-- The rule of a line. A comment and a line without a pattern have none. -/
def rule? (line : List Char) : Option Rule :=
  match trimSpaces (if line.getLast? = some '\r' then line.dropLast else line) with
  | [] => none
  | '#' :: _ => none
  | '!' :: pattern => some (.ofPattern true pattern)
  | pattern => some (.ofPattern false pattern)

/-- The rules of a list, in the order of its lines. -/
def rules (text : List Char) : List Rule :=
  let (first, later) := Text.split (· == '\n') text
  (first :: later).filterMap rule?

/-- What rules say of a path itself: whether it is ignored, if they say anything. -/
def verdict? (rules : List Rule) (names : List (List Char)) (isDir : Bool) : Option Bool :=
  (rules.reverse.find? fun r => r.matches names isDir).map fun r => !r.negated

/-- Whether a list ignores a file: the rules ignore it, or a directory above it. -/
def ignores (text : List Char) (names : List (List Char)) : Bool :=
  names.inits.any fun front =>
    front ≠ [] && verdict? (rules text) front (front ≠ names) == some true

example : ignores "/out/**/*.ts\n!keep.ts\n".toList ["out".toList, "a".toList, "b.ts".toList] = true := by
  decide

end ArtifactSync.IgnoreRules
