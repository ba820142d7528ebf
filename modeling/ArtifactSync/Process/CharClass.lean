import ArtifactSync.Process.Octets

/-!
# Classes of characters

The classes of characters that patterns name between brackets and colons, as ranges. They know the
characters of ASCII alone, because programs take any other character as bytes.
-/

namespace ArtifactSync.Process

/-- A range of characters, with both its ends. -/
abbrev CharRange := Char × Char

/-- Whether a character lies in one of some ranges. -/
def inRanges (ranges : List CharRange) (c : Char) : Bool :=
  ranges.any fun r => r.1.toNat ≤ c.toNat && c.toNat ≤ r.2.toNat

/-- The ranges of a class by its name. -/
def classRanges? (name : List Char) : Option (List CharRange) :=
  match String.ofList name with
  | "lower" => some [('a', 'z')]
  | "upper" => some [('A', 'Z')]
  | "digit" => some [('0', '9')]
  | "xdigit" => some [('0', '9'), ('A', 'F'), ('a', 'f')]
  | "alpha" => some [('A', 'Z'), ('a', 'z')]
  | "alnum" => some [('0', '9'), ('A', 'Z'), ('a', 'z')]
  | "space" => some [('\t', '\r'), (' ', ' ')]
  | "blank" => some [('\t', '\t'), (' ', ' ')]
  | "cntrl" => some [(Char.ofNat 0, Char.ofNat 31), (Char.ofNat 127, Char.ofNat 127)]
  | "print" => some [(' ', '~')]
  | "graph" => some [('!', '~')]
  | "punct" => some [('!', '/'), (':', '@'), ('[', Char.ofNat 96), ('\x7b', '~')]
  | _ => none

/-- The name of a class that stands between a colon at the start of a text and the next one with a
bracket behind it. -/
def className? : List Char → Option (List Char)
  | ':' :: rest =>
    let name := rest.takeWhile Char.isAlpha
    if [':', ']'].isPrefixOf (rest.drop name.length) then some name else none
  | _ => none

end ArtifactSync.Process
