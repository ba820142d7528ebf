import ArtifactSync.Artifact
import ArtifactSync.Error

/-!
# Building one source

Read the source, compile it, put the header in front, write the output. Nothing is written before
the compiler has accepted the source, so a rejected source leaves its earlier output as it was. All
paths are seen from the project root.
-/

namespace ArtifactSync

/-- What a build works with: the project root, the kind of output, the files, and the compiler. -/
structure Executor (σ : Type) where
  root : Path
  kind : OutputKind
  files : FileSystem σ
  compiler : Compiler σ

namespace Executor

variable {σ : Type}

/-- The output of a source. -/
def outputFor (x : Executor σ) (source : Path) : Path :=
  Artifact.output source x.kind

/-- Builds a source and gives its output once that is written. -/
def build (x : Executor σ) (source : Path) (s : σ) : Except BuildError Path × σ :=
  match x.files.read (x.root.join source) s with
  | (.error cause, s) => (.error (.read source cause), s)
  | (.ok text, s) =>
    match x.compiler text source s with
    | (.error cause, s) => (.error (.compile source cause), s)
    | (.ok compiled, s) =>
      let output := x.outputFor source
      match x.files.write (x.root.join output) (Artifact.withHeader source compiled) s with
      | (.error cause, s) => (.error (.write source output cause), s)
      | (.ok _, s) => (.ok output, s)

/-- Deletes an output. -/
def removeOutput (x : Executor σ) (output : Path) (s : σ) : Except FsError Unit × σ :=
  x.files.remove (x.root.join output) s

end Executor

end ArtifactSync
