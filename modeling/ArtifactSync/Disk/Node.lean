import ArtifactSync.Path.Basic
import ArtifactSync.Text.Utf8

/-!
# Disk trees

A disk is a tree of directories, files and symbolic links. The entries of a directory are in the
order of their names.
-/

namespace ArtifactSync

/-- A name inside a directory. -/
abbrev Name := List Char

/-- What a name can stand for. -/
inductive Node where
  /-- A file: its bytes and its permission bits. -/
  | file (bytes : List UInt8) (mode : Nat)
  /-- A directory: its entries and its permission bits. -/
  | dir (entries : List (Name × Node)) (mode : Nat)
  /-- A symbolic link, with the text it points to. -/
  | link (target : List Char)

namespace Node

instance : Inhabited Node := ⟨.dir [] 0o755⟩

/-- Whether a node is a directory. -/
def isDir : Node → Bool
  | dir _ _ => true
  | _ => false

/-- Whether a node is a file. -/
def isFile : Node → Bool
  | file _ _ => true
  | _ => false

/-- The entries of a directory; other nodes have none. -/
def entries : Node → List (Name × Node)
  | dir entries _ => entries
  | _ => []

/-- The permission bits; those of a link are never asked for. -/
def mode : Node → Nat
  | file _ mode => mode
  | dir _ mode => mode
  | link _ => 0o777

/-- Whether the owner of a node may read what it holds. -/
def mayRead (node : Node) : Bool :=
  node.mode &&& 0o400 ≠ 0

/-- Whether the owner of a node may change what it holds. -/
def mayWrite (node : Node) : Bool :=
  node.mode &&& 0o200 ≠ 0

/-- Whether the owner of a node may run it; for a directory, look for names in it. -/
def mayEnter (node : Node) : Bool :=
  node.mode &&& 0o100 ≠ 0

/-- A node with other permission bits. -/
def setMode (node : Node) (mode : Nat) : Node :=
  match node with
  | file bytes _ => file bytes mode
  | dir entries _ => dir entries mode
  | link target => link target

/-- The entry of a directory with a name. -/
def child? (node : Node) (name : Name) : Option Node :=
  (node.entries.find? fun e => e.1 = name).map Prod.snd

/-- The key by which names are in order: that of their code points is that of their bytes. -/
def nameKey (name : Name) : List Nat :=
  name.map Char.toNat

/-- Puts an entry in its place. -/
def putEntry (name : Name) (node : Node) : List (Name × Node) → List (Name × Node)
  | [] => [(name, node)]
  | e :: es =>
    if e.1 = name then (name, node) :: es
    else if nameKey name < nameKey e.1 then (name, node) :: e :: es
    else e :: putEntry name node es

/-- Gives a name in a directory to a node, or takes it away. -/
def setChild (dirNode : Node) (name : Name) (new : Option Node) : Node :=
  match dirNode with
  | dir entries mode =>
    match new with
    | some node => dir (putEntry name node entries) mode
    | none => dir (entries.filter fun e => e.1 ≠ name) mode
  | other => other

/-- Changes what stands at the end of a row of names, which all but the last name directories. -/
def alter (change : Option Node → Option Node) : List Name → Node → Node
  | [], node => (change (some node)).getD node
  | [name], node => node.setChild name (change (node.child? name))
  | name :: names, node =>
    match node.child? name with
    | some child => node.setChild name (some (alter change names child))
    | none => node

/-- Directories along a row of names, with a node at its end. -/
def nest (leaf : Node) : List Name → Node
  | [] => leaf
  | name :: names => .dir [(name, nest leaf names)] 0o755

end Node

/-- A disk: the directory at its top, and the working directory, as a row of names from the top. -/
structure Disk where
  top : Node
  cwd : List Name

instance : Inhabited Disk := ⟨⟨.dir [] 0o755, []⟩⟩

end ArtifactSync
