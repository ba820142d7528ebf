/-!
# Blank characters

The characters with the Unicode property White_Space, and the three ways a text is cut at them:
`trim` drops them at both ends, `words` keeps the runs between them. A text is a list of characters
here, as in every module that reads one.
-/

namespace ArtifactSync.Text

/-- The characters with the Unicode property White_Space. -/
def isBlank (c : Char) : Bool :=
  let n := c.toNat
  (9 ≤ n && n ≤ 13) || n == 0x20 || n == 0x85 || n == 0xA0 || n == 0x1680
    || (0x2000 ≤ n && n ≤ 0x200A) || n == 0x2028 || n == 0x2029 || n == 0x202F || n == 0x205F
    || n == 0x3000

/-- Drops the characters of a class at the end of a text. -/
def dropEndWhile (p : Char → Bool) (cs : List Char) : List Char :=
  (cs.reverse.dropWhile p).reverse

/-- Drops blank characters at both ends. -/
def trim (cs : List Char) : List Char :=
  dropEndWhile isBlank (cs.dropWhile isBlank)

/-- Cuts a text at each character of a class: the piece before the first cut, and the later ones.
The characters cut at belong to no piece. -/
def split (p : Char → Bool) : List Char → List Char × List (List Char)
  | [] => ([], [])
  | c :: cs =>
    let (first, later) := split p cs
    if p c then ([], first :: later) else (c :: first, later)

/-- The runs of characters between blank ones. -/
def words (cs : List Char) : List (List Char) :=
  let (first, later) := split isBlank cs
  (first :: later).filter fun w => !w.isEmpty

/-- Each ASCII capital becomes its small letter. The Kelvin sign is the only other character whose
small form is a single ASCII letter, `k`, so a comparison with a word that has no `k` needs no more
than this. -/
def asciiLower (cs : List Char) : List Char :=
  cs.map Char.toLower

end ArtifactSync.Text
