import ArtifactSync.Path.Basic
import ArtifactSync.Text.Lines

/-!
# The ignore list

The version control's ignore list ends in a region that lists every artifact. Two comment lines
open it; what stands in front of them belongs to the user and is kept as it is. The first of the
two lines alone marks the region, wherever a line reads so.
-/

namespace ArtifactSync.IgnoreList

/-- The first line of the region. -/
def firstSentinel : List Char := "# Generated by Civetman".toList

/-- The second line of the region. -/
def secondSentinel : List Char := "# Do not edit below this line".toList

/-- Whether a line, with or without its end, opens the region. -/
def opensRegion (line : List Char) : Bool :=
  Text.dropEndWhile (fun c => c == '\n' || c == '\r') line == firstSentinel

/-- Whether a character is a wildcard or the escape of one in an ignore list. -/
def isSpecial (c : Char) : Bool :=
  c == '*' || c == '?' || c == '[' || c == '\\'

/-- A space at the end of a line counts only behind a backslash. -/
def protectLastSpace (line : List Char) : List Char :=
  if line.getLast? = some ' ' then line.dropLast ++ ['\\', ' '] else line

/-- The line that ignores one path below the root and nothing else. The leading separator anchors it
and keeps a first `#` or `!` from meaning something. -/
def entry (path : List Char) : List Char :=
  protectLastSpace ('/' :: path.flatMap fun c => if isSpecial c then ['\\', c] else [c])

/-- The user's text in front of the region: all of it, with a blank line behind it, if there is no
region yet. -/
def userPart (existing : List Char) : List Char :=
  let lines := Text.linesWithEnds existing
  if lines.any opensRegion then (lines.takeWhile fun line => !opensRegion line).flatten
  else if existing = [] then []
  else if ['\n', '\n'].isSuffixOf existing then existing
  else if existing.getLast? = some '\n' then existing ++ ['\n']
  else existing ++ ['\n', '\n']

/-- The region that lists the paths given. -/
def region (outputs : List Path) : List Char :=
  firstSentinel ++ '\n' :: secondSentinel ++ '\n' ::
    outputs.flatMap fun p => entry p.toSlash ++ ['\n']

/-- The ignore list with a region for exactly the outputs given. -/
def render (existing : List Char) (outputs : List Path) : List Char :=
  userPart existing ++ region outputs

end ArtifactSync.IgnoreList
