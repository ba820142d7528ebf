import ArtifactSync.Jsonc.Reader
import ArtifactSync.Path.Basic
import ArtifactSync.Text.Json

/-!
# The editor's exclude list

The editor hides the paths that the member `files.exclude` of its settings names. The artifacts are
listed there behind a marker; entries in front of the marker are the user's, and so is every other
character of the settings. Settings that cannot be read are reported and not changed.
-/

namespace ArtifactSync.EditorExclude

open Jsonc

/-- The name of the member that holds the exclude list. -/
def key : List Char := "files.exclude".toList

/-- The name of the entry behind which all entries are generated. -/
def marker : List Char := "civetman:generated".toList

/-- A line break and the blanks in front of the next member at the depth given. -/
def lineBreak (depth : Nat) : Lexeme :=
  .blank ('\n' :: List.replicate (2 * depth) ' ')

/-- A name as a JSON string. -/
def nameLexeme (name : List Char) : Lexeme :=
  .string (Json.quote name) name

/-- A colon and a blank. -/
def colon : List Lexeme := [.mark .colon, .blank [' ']]

/-- An entry that is switched on. -/
def entry (name : List Char) : Item :=
  .member (nameLexeme name) colon (.scalar (.constant "true".toList))

/-- Members, each on a line of its own, with commas between them. -/
def layOut (depth : Nat) : List Item → List Item
  | [] => []
  | [last] => [.gap (lineBreak depth), last]
  | item :: items => .gap (lineBreak depth) :: item :: .gap (.mark .comma) :: layOut depth items

/-- The exclude list: the user's entries, the marker, and the outputs. -/
def excludeObject (kept : List Item) (outputs : List (List Char)) : Value :=
  .object (layOut 2 (kept ++ entry marker :: outputs.map entry) ++ [.gap (lineBreak 1)])

/-- The member that holds the exclude list. -/
def excludeMember (outputs : List (List Char)) : Item :=
  .member (nameLexeme key) colon (excludeObject [] outputs)

/-- Settings that hold nothing but the exclude list. A name that occurs twice is written once. -/
def freshSettings (outputs : List (List Char)) : List Char :=
  let names := (outputs.filter (· ≠ marker)).foldl
    (fun seen name => if seen.contains name then seen else seen ++ [name]) []
  textOf (Value.object
    [.gap (lineBreak 1), excludeMember names, .gap (.blank ['\n'])]).lexemes ++ ['\n']

/-- The user's entries: the members in front of the marker. -/
def keptEntries (items : List Item) : List Item :=
  (items.filter Item.isMember).takeWhile fun item => !item.isNamed marker

/-- Puts an exclude list in place of the one that a member holds. -/
def replaceList (outputs : List (List Char)) : Item → Except String Item
  | .member name between (.object items) =>
    .ok (.member name between (excludeObject (keptEntries items) outputs))
  | _ => .error s!"`{String.ofList key}` is not a JSON object"

/-- Puts a member behind the last one of an object, or alone on a line of its own. -/
def addMember (member : Item) (items : List Item) : List Item :=
  match items.reverse.span fun item => !item.isMember with
  | (_, []) => .gap (lineBreak 1) :: member :: .gap (.blank ['\n']) :: items
  | (behind, last) =>
    last.reverse ++ .gap (.mark .comma) :: .gap (lineBreak 1) :: member :: behind.reverse

/-- The members of the settings with a new exclude list: in place of the last one, if there is
one. -/
def mergeItems (outputs : List (List Char)) (items : List Item) : Except String (List Item) :=
  match items.reverse.span fun item => !item.isNamed key with
  | (_, []) => .ok (addMember (excludeMember outputs) items)
  | (behind, current :: front) =>
    (replaceList outputs current).map fun item => front.reverse ++ item :: behind.reverse

/-- The settings with exactly the outputs given behind the marker. -/
def render (existing : List Char) (outputs : List Path) : Except String (List Char) :=
  let outputs := outputs.map Path.toSlash
  if existing.all Text.isBlank then .ok (freshSettings outputs)
  else match readDocument existing with
    | .error e => .error (e.describe existing)
    | .ok d =>
      match d.value with
      | none =>
        let front := if existing.getLast? = some '\n' then existing else existing ++ ['\n']
        .ok (front ++ freshSettings outputs)
      | some (.object items) =>
        (mergeItems outputs items).map fun items =>
          Document.text { d with value := some (.object items) }
      | some _ => .error "settings are not a JSON object"

end ArtifactSync.EditorExclude
