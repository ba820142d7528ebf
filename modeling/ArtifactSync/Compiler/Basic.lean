import ArtifactSync.Path.Basic
import ArtifactSync.Text.Lines

/-!
# Compilers

A compiler turns the text of a source into compiled text, or says why not. It may act on the world
it runs in, so it is a function on worlds; `Compiler.pure` is one that leaves the world alone.
-/

namespace ArtifactSync

/-- Why a compiler gave no text. -/
inductive CompileError where
  /-- The program could not be started or talked to. -/
  | unavailable (program message : String)
  /-- The program ran and did not accept the source. -/
  | rejected (message : String)
  /-- The program's output is not UTF-8. -/
  | invalidOutput
  deriving DecidableEq, Repr

/-- The text of an error. -/
def CompileError.toString : CompileError → String
  | unavailable program message => s!"compiler `{program}` could not be run: {message}"
  | rejected message => message
  | invalidOutput => "compiler produced non UTF-8 output"

instance : ToString CompileError := ⟨CompileError.toString⟩

/-- A compiler in worlds of type `σ`. The path is the source's, seen from the project root; it only
serves messages. -/
abbrev Compiler (σ : Type) :=
  String → Path → σ → Except CompileError String × σ

/-- A compiler that only looks at the source. -/
def Compiler.pure {σ : Type} (f : String → Path → Except CompileError String) : Compiler σ :=
  fun source path s => (f source path, s)

namespace Compiler

/-- Whether a text occurs in a source. -/
def mentions (source part : String) : Bool :=
  Text.contains part.toList source.toList

/-- A stand-in for a compiler: it puts a comment in front of a source, and sources that hold one of
three marks fail in one of three ways. -/
def marked (source : String) (path : Path) : Except CompileError String :=
  if mentions source "@@syntax error@@" then .error (.rejected s!"{path}: unexpected token")
  else if mentions source "@@unavailable@@" then .error (.unavailable "fake" "gone")
  else if mentions source "@@invalid output@@" then .error .invalidOutput
  else .ok ("/* ts */\n" ++ source)

end Compiler

end ArtifactSync
