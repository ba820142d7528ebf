import ArtifactSync.Path.Extension

/-!
# Sources and artifacts

Which files are sources, which file each of them produces, and the comment that opens every
produced file. Every other part asks `output`, so building, cleaning up and listing never disagree
about a name.
-/

namespace ArtifactSync

/-- The kind of TypeScript file that a build produces. -/
inductive OutputKind where
  /-- Plain TypeScript. -/
  | ts
  /-- TypeScript with embedded markup. -/
  | tsx
  deriving DecidableEq, Repr, Inhabited

/-- The kind that the `tsx` setting selects. -/
def OutputKind.ofTsx (tsx : Bool) : OutputKind :=
  if tsx then .tsx else .ts

/-- The extension of produced files, without its dot. -/
def OutputKind.extension : OutputKind → List Char
  | .ts => ['t', 's']
  | .tsx => ['t', 's', 'x']

/-- What one run produces and which side files it keeps: settled before anything is built. -/
structure Mode where
  kind : OutputKind
  /-- Whether the ignore list is kept. -/
  git : Bool
  /-- Whether the editor settings are kept. -/
  vscode : Bool
  deriving DecidableEq, Repr

instance : Inhabited Mode := ⟨⟨.ts, true, true⟩⟩

namespace Artifact

/-- The extension of sources, without its dot. -/
def sourceExtension : List Char := "civet".toList

/-- Whether a path carries the extension of sources. -/
def isSource (p : Path) : Bool :=
  p.extension? == some sourceExtension

/-- The file that a source produces. -/
def output (source : Path) (kind : OutputKind) : Path :=
  source.withExtension kind.extension

/-- The second line of every produced file. -/
def generatorLine : String := "// Generated by Civetman"

/-- Compiled text behind the comment that says where it came from. -/
def withHeader (source : Path) (compiled : String) : String :=
  "// Source: " ++ String.ofList source.toSlash ++ "\n" ++ generatorLine ++ "\n\n" ++ compiled

end Artifact

end ArtifactSync
