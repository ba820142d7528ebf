import ArtifactSync.Text.Lines
import ArtifactSync.Text.Utf8

/-!
# Unknown settings

A warning about each setting that does not exist: the line it may stand on, and the setting that may
have been meant, which is the first among those at the least edit distance, if that is at most two.
-/

namespace ArtifactSync

namespace Suggest

/-- One row of the table of edit distances from the row above it: the distances between one more
byte `a` of the first text and the beginnings of the second one. The row so far ends in `left`. -/
def nextRow (a : UInt8) : Nat → List Nat → List UInt8 → List Nat
  | left, diagonal :: above :: row, b :: bs =>
    let cost := if a = b then 0 else 1
    let here := min (min (above + 1) (left + 1)) (diagonal + cost)
    here :: nextRow a here (above :: row) bs
  | _, _, _ => []

/-- The table's rows one after another; the last one. -/
def lastRow (bs : List UInt8) : Nat → List Nat → List UInt8 → List Nat
  | _, row, [] => row
  | i, row, a :: as => lastRow bs (i + 1) ((i + 1) :: nextRow a (i + 1) row bs) as

/-- The edit distance of two texts, in bytes. -/
def editDistance (as bs : List UInt8) : Nat :=
  (lastRow bs 0 (List.range (bs.length + 1)) as).getLastD 0

/-- The names that settings have. -/
def candidates : List String :=
  ["build", "tsx", "sync", "git", "vscode", "debounce_ms", "compiler", "command", "args",
    "discovery", "exclude"]

/-- The distance of a name to a candidate. -/
def distanceTo (name : List Char) (candidate : String) : Nat :=
  editDistance (Text.bytes name) (Text.bytes candidate.toList)

/-- The first of the candidates at the least distance, with that distance. -/
def nearest? (name : List Char) (candidates : List String) : Option (String × Nat) :=
  candidates.foldl (fun best candidate =>
    let distance := distanceTo name candidate
    match best with
    | none => some (candidate, distance)
    | some (b, d) => if distance < d then some (candidate, distance) else some (b, d)) none

/-- The name that may have been meant. -/
def suggest? (name : List Char) : Option String :=
  (nearest? name candidates).bind fun (candidate, distance) =>
    if distance ≤ 2 then some candidate else none

/-- The number of the first line that mentions a name. -/
def lineOf? (cs name : List Char) : Option Nat :=
  ((Text.lines cs).findIdx? fun line => Text.contains name line).map (· + 1)

end Suggest

end ArtifactSync
