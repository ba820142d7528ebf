import ArtifactSync.Disk.Calls
import ArtifactSync.Process.CharClass

/-!
# Wildcards

The patterns that a shell compares names and values with: a star stands for any text, a question
mark for any character and brackets for one of several. A quoted character always stands for
itself.
-/

namespace ArtifactSync.Process

/-- A part of a pattern. -/
inductive Wild where
  | anyText
  | anyChar
  | char (c : Char)
  /-- One of the characters in some ranges, or one in none of them. -/
  | oneOf (negated : Bool) (ranges : List CharRange)
  deriving DecidableEq, Repr

/-- Whether a part stands for more than itself. -/
def Wild.isOpen : Wild → Bool
  | char _ => false
  | _ => true

/-- A character with whether it is quoted. -/
abbrev Marked := Char × Bool

/-- The ranges between brackets. The first `skip` characters are already understood. -/
def rangesOf : Nat → List Marked → List CharRange
  | _, [] => []
  | skip + 1, _ :: cs => rangesOf skip cs
  | 0, (c, quoted) :: cs =>
    match (if c = '[' && !quoted then className? (cs.map Prod.fst) else none) with
    | some name => (classRanges? name).getD [] ++ rangesOf (name.length + 3) cs
    | none =>
      match cs with
      | ('-', false) :: (d, _) :: _ => (c, d) :: rangesOf 2 cs
      | _ => (c, c) :: rangesOf 0 cs

/-- How many characters there are between a bracket and the one that closes it, if one does. One at
the very start is among them. The first `skip` characters are already understood. -/
def bracketLength? : Nat → Bool → List Marked → Option Nat
  | _, _, [] => none
  | skip + 1, _, _ :: cs => (bracketLength? skip false cs).map (· + 1)
  | 0, start, c :: cs =>
    if c = (']', false) && !start then some 0
    else
      let skip := match (if c = ('[', false) then className? (cs.map Prod.fst) else none) with
        | some name => name.length + 3
        | none => 0
      (bracketLength? skip false cs).map (· + 1)

/-- The parts of a pattern. The first `skip` characters are already understood. -/
def wilds : Nat → List Marked → List Wild
  | _, [] => []
  | skip + 1, _ :: cs => wilds skip cs
  | 0, (c, quoted) :: cs =>
    if quoted then .char c :: wilds 0 cs
    else if c = '*' then .anyText :: wilds 0 cs
    else if c = '?' then .anyChar :: wilds 0 cs
    else if c = '[' then
      let negated := cs.head? = some ('!', false) || cs.head? = some ('^', false)
      let start := if negated then 1 else 0
      match bracketLength? 0 true (cs.drop start) with
      | some length =>
        .oneOf negated (rangesOf 0 ((cs.drop start).take length)) :: wilds (start + length + 1) cs
      | none => .char c :: wilds 0 cs
    else .char c :: wilds 0 cs

/-- Whether a part that stands for one character stands for this one. -/
def Wild.admits (w : Wild) (c : Char) : Bool :=
  match w with
  | anyText => true
  | anyChar => true
  | char d => c == d
  | oneOf negated ranges => inRanges ranges c != negated

/-- Whether parts match a text as a whole. -/
def wildMatch : List Wild → List Char → Bool
  | [], text => text.isEmpty
  | .anyText :: ws, text => (List.range (text.length + 1)).any fun i => wildMatch ws (text.drop i)
  | w :: ws, text =>
    match text with
    | [] => false
    | c :: rest => w.admits c && wildMatch ws rest

/-- Cuts off the part of a text that a pattern matches, at its end or its start: as much or as
little as can be. -/
def trimWild (atEnd longest : Bool) (pattern : List Wild) (text : List Char) : List Char :=
  let lengths := List.range (text.length + 1)
  let cuts := if atEnd = longest then lengths else lengths.reverse
  let hit := fun i => wildMatch pattern (if atEnd then text.drop i else text.take i)
  match cuts.find? hit with
  | some i => if atEnd then text.take i else text.drop i
  | none => text

/-- The parts of a word between slashes. -/
def segments : List Marked → List (List Marked)
  | [] => [[]]
  | (c, quoted) :: cs =>
    match segments cs with
    | [] => [[(c, quoted)]]
    | first :: rest =>
      if c = '/' then [] :: first :: rest else ((c, quoted) :: first) :: rest

/-- The paths that begin with a text and go on as segments say. -/
def pathsBelow (d : Disk) (front : Word) : List (List Marked) → List Word
  | [] => [front]
  | segment :: rest =>
    let pattern := wilds 0 segment
    let names := if pattern.any Wild.isOpen then
        match d.stat (Word.path (if front = [] then ['.'] else front)) with
        | .ok node =>
          let own := if node.isDir && node.mayRead then [['.'], ['.', '.']] else []
          let names := if node.mayRead then node.entries.map fun e => Word.ofText e.1 else []
          (own ++ names).filter fun n =>
            (n.head? ≠ some '.' || segment.head?.map Prod.fst = some '.') && wildMatch pattern n
        | .error _ => []
      else [segment.map Prod.fst]
    names.flatMap fun n =>
      if rest.isEmpty then [front ++ n] else pathsBelow d (front ++ n ++ ['/']) rest

/-- The paths of the disk that a word stands for, in order, or the word itself. -/
def namesFor (d : Disk) (word : List Marked) : List Word :=
  let plain := word.map Prod.fst
  if !(wilds 0 word).any Wild.isOpen then [plain]
  else
    let isThere := fun (p : Word) => (d.resolve (Word.path p) false).toOption.any fun found =>
      match found with
      | .node _ _ => true
      | .missing _ _ => false
    let paths := (pathsBelow d [] (segments word)).filter isThere
    if paths.isEmpty then [plain] else paths.mergeSort Word.comesNoLater

end ArtifactSync.Process
