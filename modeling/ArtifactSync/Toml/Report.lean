import ArtifactSync.Text.Lines
import ArtifactSync.Text.Utf8
import ArtifactSync.Toml.Value

/-!
# Reports about configuration text

A complaint about a stretch of a text shows the line it begins on, and marks the stretch below.
-/

namespace ArtifactSync.Toml

/-- A complaint about a stretch of a text. -/
structure Complaint where
  message : String
  span : Span
  deriving DecidableEq, Repr

/-- The characters of a text between two line feeds, around a place. -/
def lineAround (cs : List Char) (offset : Nat) : List Char :=
  let before := (cs.take offset).reverse.takeWhile (· ≠ '\n')
  before.reverse ++ (cs.drop offset).takeWhile (· ≠ '\n')

/-- The number of bytes in a text. -/
def byteLength (cs : List Char) : Nat :=
  (Text.bytes cs).length

/-- The text of a complaint. The mark has the width of the stretch in bytes, but does not go beyond
the line, and is never empty. -/
def Complaint.render (cs : List Char) (c : Complaint) : String :=
  let front := cs.take c.span.start
  let line := (front.filter (· = '\n')).length + 1
  let column := (front.reverse.takeWhile (· ≠ '\n')).length
  let content := lineAround cs c.span.start
  let width := byteLength ((cs.drop c.span.start).take (c.span.stop - c.span.start))
  let shown := max 1 (min width (byteLength content - column))
  let gutter := String.ofList (List.replicate ((toString line).length + 1) ' ')
  let indent := String.ofList (List.replicate (column + 1) ' ')
  let mark := String.ofList (List.replicate shown '^')
  s!"TOML parse error at line {line}, column {column + 1}\n"
    ++ s!"{gutter}|\n"
    ++ s!"{line} | {String.ofList content}\n"
    ++ s!"{gutter}|{indent}{mark}\n"
    ++ s!"{c.message}\n"

end ArtifactSync.Toml
