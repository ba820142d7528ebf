/-!
# Lines and pieces of a text

`linesWithEnds` cuts a text after each line feed and loses nothing; `lines` also drops the line
ends. `contains` and `replaceAll` look for one text inside another.
-/

namespace ArtifactSync.Text

/-- The lines of a text, each with its line feed. -/
def linesWithEnds : List Char → List (List Char)
  | [] => []
  | c :: cs =>
    if c = '\n' then [c] :: linesWithEnds cs
    else match linesWithEnds cs with
      | [] => [[c]]
      | line :: rest => (c :: line) :: rest

/-- Cutting into lines loses nothing. -/
theorem flatten_linesWithEnds (cs : List Char) : (linesWithEnds cs).flatten = cs := by
  induction cs with
  | nil => rfl
  | cons c cs ih =>
    rw [linesWithEnds]
    split
    · simp [ih]
    · split
      · next h => simp [h] at ih; simp [ih]
      · next h => simp [h] at ih; simp [ih]

/-- A line without its line feed, and without the carriage return in front of that. -/
def dropLineEnd (line : List Char) : List Char :=
  match line.reverse with
  | '\n' :: '\r' :: rest => rest.reverse
  | '\n' :: rest => rest.reverse
  | _ => line

/-- The lines of a text without their ends. -/
def lines (cs : List Char) : List (List Char) :=
  (linesWithEnds cs).map dropLineEnd

/-- Whether a text occurs in another one; the empty text occurs in every text. -/
def contains (part : List Char) : List Char → Bool
  | [] => part.isEmpty
  | c :: cs => part.isPrefixOf (c :: cs) || contains part cs

/-- Replaces the occurrences of `part`, from the left, while `skip` characters of one are left to
pass over. -/
def replaceFrom (part new : List Char) : Nat → List Char → List Char
  | _, [] => []
  | skip + 1, _ :: cs => replaceFrom part new skip cs
  | 0, c :: cs =>
    if part.isPrefixOf (c :: cs) then new ++ replaceFrom part new (part.length - 1) cs
    else c :: replaceFrom part new 0 cs

/-- Replaces every occurrence of `part`, which is not empty, from the left. -/
def replaceAll (part new cs : List Char) : List Char :=
  replaceFrom part new 0 cs

end ArtifactSync.Text
