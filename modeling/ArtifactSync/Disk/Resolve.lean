import ArtifactSync.Disk.Errno
import ArtifactSync.Disk.Node

/-!
# Finding what a path names

A path is walked from the top or from the working directory, one piece at a time, through
directories in which names may be looked for. A symbolic link in the middle of a path is replaced by
the pieces it points to, at most forty times; one at the end only if the caller wants that or the
path goes on with a separator. Whoever asks owns the whole disk.
-/

namespace ArtifactSync

/-- The directories entered on the way, innermost first, with their names. -/
abbrev Trail := List (Name × Node)

/-- What a path leads to. -/
inductive Found where
  /-- Something is there: how one gets to it, and what it is. -/
  | node (trail : Trail) (node : Node)
  /-- Its directory is there, but has no such name. -/
  | missing (trail : Trail) (name : Name)

namespace Disk

/-- The row of names from the top to the end of a trail. -/
def Trail.names (trail : Trail) : List Name :=
  (trail.map Prod.fst).reverse

/-- The node at the end of a trail. -/
def here (d : Disk) (trail : Trail) : Node :=
  (trail.head?.map Prod.snd).getD d.top

/-- Whether a piece is an ordinary name. -/
def isName (piece : Name) : Bool :=
  piece ≠ ['.'] && piece ≠ ['.', '.']

/-- The pieces of a text that are not empty. -/
def piecesOf (cs : List Char) : List Name :=
  let (first, later) := Text.split (· == '/') cs
  (first :: later).filter fun p => p ≠ []

/-- Whether a text ends in a separator. -/
def endsInSlash (cs : List Char) : Bool :=
  cs.getLast? == some '/'

/-- The longest name, in bytes. -/
def maxName : Nat := 255

/-- The longest path, in bytes. -/
def maxPath : Nat := 4095

/-- Where walking over pieces ends: at a place, or in front of a link that has to be followed, with
the pieces behind it. -/
inductive Stop where
  | place (found : Found)
  | atLink (trail : Trail) (target : List Char) (rest : List Name)

/-- Walks over pieces up to the end or to a link that has to be followed. -/
def walk (d : Disk) (followLast : Bool) (trail : Trail) : List Name → Except Errno Stop
  | [] => .ok (.place (.node trail (d.here trail)))
  | piece :: rest =>
    if !(d.here trail).isDir then .error .notDirectory
    else if !(d.here trail).mayEnter then .error .access
    else if piece = ['.'] then d.walk followLast trail rest
    else if piece = ['.', '.'] then d.walk followLast trail.tail rest
    else if (Text.bytes piece).length > maxName then .error .nameTooLong
    else match (d.here trail).child? piece with
      | none => if rest = [] then .ok (.place (.missing trail piece)) else .error .noEntry
      | some (.link target) =>
        if rest = [] ∧ !followLast then
          .ok (.place (.node ((piece, .link target) :: trail) (.link target)))
        else .ok (.atLink trail target rest)
      | some child => d.walk followLast ((piece, child) :: trail) rest

/-- Walks over pieces and follows links, at most `links` of them. -/
def follow (d : Disk) (followLast : Bool) : Nat → Trail → List Name → Except Errno Found
  | links, trail, pieces =>
    match d.walk followLast trail pieces with
    | .error e => .error e
    | .ok (.place found) => .ok found
    | .ok (.atLink trail target rest) =>
      match links with
      | 0 => .error .tooManyLinks
      | links + 1 =>
        let start := if target.head? = some '/' then [] else trail
        -- behind a separator at the end of a link, there must be a directory
        let toDir := rest = [] && endsInSlash target
        match d.follow (followLast || toDir) links start (piecesOf target ++ rest) with
        | .ok (.node trail node) =>
          if toDir && !node.isDir then .error .notDirectory else .ok (.node trail node)
        | answer => answer

/-- The trail to a row of names that all name directories. -/
def trailTo (d : Disk) (names : List Name) : Trail :=
  names.foldl (fun trail name =>
    match (d.here trail).child? name with
    | some child => (name, child) :: trail
    | none => trail) []

/-- Whether a text holds the character that ends texts for the operating system. -/
def holdsNul (cs : List Char) : Bool :=
  cs.any fun c => c.toNat = 0

/-- What a path leads to, a link at its end followed or not. Behind a separator at the end, there
must be a directory. -/
def resolve (d : Disk) (path : Path) (followLast : Bool) : Except Errno Found :=
  if holdsNul path.chars then .error .nulInPath
  else if path.chars = [] then .error .noEntry
  else if (Text.bytes path.chars).length > maxPath then .error .nameTooLong
  else
    let slash := endsInSlash path.chars
    let start := if path.isRooted then [] else d.trailTo d.cwd
    match d.follow (followLast || slash) 40 start (piecesOf path.chars) with
    | .ok (.node trail node) =>
      if slash && !node.isDir then .error .notDirectory else .ok (.node trail node)
    | answer => answer

/-- The node that a path leads to, links followed. -/
def stat (d : Disk) (path : Path) : Except Errno Node :=
  match d.resolve path true with
  | .error e => .error e
  | .ok (.missing _ _) => .error .noEntry
  | .ok (.node _ node) => .ok node

/-- Whether a path leads to anything. -/
def «exists» (d : Disk) (path : Path) : Bool :=
  match d.stat path with
  | .ok _ => true
  | .error _ => false

/-- Whether a path leads to a directory. -/
def isDir (d : Disk) (path : Path) : Bool :=
  match d.stat path with
  | .ok node => node.isDir
  | .error _ => false

/-- Whether a path leads to a file. -/
def isFile (d : Disk) (path : Path) : Bool :=
  match d.stat path with
  | .ok node => node.isFile
  | .error _ => false

/-- The path that goes from the top along a row of names. -/
def pathOf (names : List Name) : Path :=
  if names = [] then ⟨['/']⟩ else Path.ofPieces [] names

/-- The working directory as a path. -/
def cwdPath (d : Disk) : Path := pathOf d.cwd

/-- The path without links to what a path leads to. -/
def canonicalize (d : Disk) (path : Path) : Except Errno Path :=
  match d.resolve path true with
  | .error e => .error e
  | .ok (.missing _ _) => .error .noEntry
  | .ok (.node trail _) => .ok (pathOf (Trail.names trail))

end Disk

end ArtifactSync
