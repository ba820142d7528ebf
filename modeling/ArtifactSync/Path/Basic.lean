import ArtifactSync.Text.Blank

/-!
# Paths

A path keeps the text it was written with, and is compared by its components: repeated separators,
a trailing separator and a `.` that does not lead the path make no component, and `..` is never
resolved. So two spellings can name one path without being equal texts, and `components` is the view
that every comparison goes through.
-/

namespace ArtifactSync

/-- A path, as it was written. -/
structure Path where
  chars : List Char
  deriving DecidableEq, Repr, Inhabited

/-- One step of a path. -/
inductive Component where
  /-- The leading separator. -/
  | root
  /-- A leading `.`. -/
  | here
  /-- `..`. -/
  | up
  /-- An ordinary name. -/
  | name (text : List Char)
  deriving DecidableEq, Repr

namespace Component

/-- The rank of a component followed by its characters: the root sorts first, then a leading `.`,
then `..`, then names by their characters. Code points sort as their UTF-8 bytes do. -/
def key : Component → List Nat
  | root => [0]
  | here => [1]
  | up => [2]
  | name text => 3 :: text.map Char.toNat

/-- The component that a piece of text between separators makes, if any. -/
def ofPiece? (piece : List Char) : Option Component :=
  if piece = [] ∨ piece = ['.'] then none
  else if piece = ['.', '.'] then some up
  else some (name piece)

/-- The text of an ordinary name. -/
def name? : Component → Option (List Char)
  | name text => some text
  | _ => none

end Component

namespace Path

/-- The path that a text spells. -/
def ofString (s : String) : Path := ⟨s.toList⟩

/-- The text of a path, unchanged. -/
def toString (p : Path) : String := String.ofList p.chars

instance : ToString Path := ⟨toString⟩

/-- The text in front of the first separator, and the pieces between the later ones. -/
def pieces (p : Path) : List Char × List (List Char) :=
  Text.split (· == '/') p.chars

/-- Puts pieces back together with separators. -/
def ofPieces (first : List Char) (later : List (List Char)) : Path :=
  ⟨first ++ later.flatMap ('/' :: ·)⟩

/-- The component in front of the first separator: a separator that leads the text is the root. -/
def leading (first : List Char) (later : List (List Char)) : List Component :=
  if first = [] then (if later = [] then [] else [.root])
  else if first = ['.'] then [.here]
  else (Component.ofPiece? first).toList

/-- The steps of a path. -/
def components (p : Path) : List Component :=
  let (first, later) := p.pieces
  leading first later ++ later.filterMap Component.ofPiece?

/-- The order of paths, component by component. -/
def key (p : Path) : List (List Nat) :=
  p.components.map Component.key

/-- Whether two texts spell one path. -/
def same (p q : Path) : Bool :=
  p.components == q.components

/-- Whether a path begins with a separator. -/
def isRooted (p : Path) : Bool :=
  p.chars.head? == some '/'

/-- Whether a piece of text between separators makes no component. -/
def isEmptyPiece (piece : List Char) : Bool :=
  piece = [] || piece = ['.']

/-- The later pieces up to the last one that makes a component. -/
def trimLater (later : List (List Char)) : List (List Char) :=
  (later.reverse.dropWhile isEmptyPiece).reverse

/-- The text of pieces without the ones at the end that make no component. -/
def ofTrimmed (first : List Char) (later : List (List Char)) : Path :=
  ofPieces first (trimLater later)

/-- The path in front of the last component; the root and the empty path have none. -/
def parent? (p : Path) : Option Path :=
  let (first, later) := p.pieces
  match later.reverse.dropWhile isEmptyPiece with
  | [] => if first = [] then none else some ⟨[]⟩
  | _ :: before =>
    let front := ofTrimmed first before.reverse
    if front.chars = [] then some ⟨['/']⟩ else some front

/-- The text in front of the last component, and that component's text; what stands behind it makes
no component. -/
def cutLast? (p : Path) : Option (List Char × List Char) :=
  let (first, later) := p.pieces
  match later.reverse.dropWhile isEmptyPiece with
  | [] => if first = [] then none else some ([], first)
  | last :: before => some ((ofPieces first before.reverse).chars ++ ['/'], last)

/-- The last component, if it is an ordinary name. -/
def fileName? (p : Path) : Option (List Char) :=
  p.components.getLast?.bind Component.name?

/-- Whether the components of `base` are the first ones of `p`. -/
def startsWith (p base : Path) : Bool :=
  base.components.isPrefixOf p.components

/-- Passes over pieces until `count` of them have made a component. -/
def dropPieces : Nat → List (List Char) → List (List Char)
  | 0, later => later
  | _ + 1, [] => []
  | count + 1, piece :: later =>
    if isEmptyPiece piece then dropPieces (count + 1) later else dropPieces count later

/-- The text of `p` behind the components of `base`, without separators and `.` at its ends; `none`
when `base` is no beginning of `p`. An empty `base` leaves a leading separator or `.` in place. -/
def stripPrefix? (p base : Path) : Option Path :=
  if !p.startsWith base then none
  else
    let (first, later) := p.pieces
    match base.components.length with
    | 0 =>
      let whole := ofTrimmed first later
      if whole.chars = [] ∧ p.isRooted then some ⟨['/']⟩ else some whole
    | count + 1 =>
      match trimLater ((dropPieces count later).dropWhile isEmptyPiece) with
      | [] => some ⟨[]⟩
      | piece :: rest => some (ofPieces piece rest)

/-- `p` read from inside `base`: a rooted path stands for itself, another one goes behind a
separator. -/
def join (base p : Path) : Path :=
  if p.isRooted then p
  else if base.chars = [] ∨ base.chars.getLast? = some '/' then ⟨base.chars ++ p.chars⟩
  else ⟨base.chars ++ '/' :: p.chars⟩

/-- The ordinary names of a path with a separator between them. Side files and headers show paths
so. -/
def toSlash (p : Path) : List Char :=
  match p.components.filterMap Component.name? with
  | [] => []
  | n :: ns => (ofPieces n ns).chars

/-- The text of a component in a path built from components. -/
def componentText : Component → List Char
  | .root => []
  | .here => ['.']
  | .up => ['.', '.']
  | .name text => text

/-- `path` as seen from `root`: a path that is not rooted loses its leading `.`, one below the root
loses the root, and any other has no such form. -/
def relativeTo? (root path : Path) : Option Path :=
  if path.isRooted then path.stripPrefix? root
  else match (path.components.filter (· ≠ .here)).map componentText with
    | [] => some ⟨[]⟩
    | first :: later => some (ofPieces first later)

end Path

end ArtifactSync
