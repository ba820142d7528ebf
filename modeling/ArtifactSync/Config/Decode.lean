import ArtifactSync.Config.Types
import ArtifactSync.Text.Quoted
import ArtifactSync.Toml.Report

/-!
# From configuration values to settings

Takes the settings out of a configuration text's table, member by member in the order of the text.
The first member of a wrong type is complained about. Members that no setting has are passed over
and remembered. A section may also be an array, which gives its settings in their order.
-/

namespace ArtifactSync

open Toml

/-- The names of members that no setting has, in the order of the text. -/
abbrev Unknown := List (List Char)

/-- What decoding gives: a value and the names passed over, or a complaint. -/
abbrev Decoded (α : Type) := Except Complaint (α × Unknown)

namespace Decode

/-- How a complaint names a value. -/
def describe : Value → String
  | .scalar (.string text) _ =>
    let shown := String.ofList (Text.quoted text)
    s!"string {shown}"
  | .scalar (.integer n) _ => s!"integer `{n}`"
  | .scalar (.number n) _ => s!"floating point `{n}`"
  | .scalar (.boolean b) _ => s!"boolean `{b}`"
  | .scalar .date _ => "map"
  | .array _ _ => "sequence"
  | .table _ _ _ => "map"
  | .tables _ => "sequence"

/-- The complaint about a value of a wrong type. A value that stands in no one place is complained
about at the place given. -/
def wrongType {α : Type} (node : Value) (place : Span) (expected : String) : Except Complaint α :=
  .error ⟨s!"invalid type: {describe node}, expected {expected}", node.span?.getD place⟩

/-- A value of truth. -/
def bool (place : Span) : Value → Except Complaint Bool
  | .scalar (.boolean b) _ => .ok b
  | node => wrongType node place "a boolean"

/-- A number that is not negative. -/
def natural (place : Span) : Value → Except Complaint Nat
  | .scalar (.integer n) span =>
    if n < 0 then .error ⟨s!"invalid value: integer `{n}`, expected u64", span⟩ else .ok n.toNat
  | node => wrongType node place "u64"

/-- A text. -/
def text (place : Span) : Value → Except Complaint String
  | .scalar (.string s) _ => .ok (String.ofList s)
  | node => wrongType node place "a string"

/-- A row of texts. -/
def texts (place : Span) (node : Value) : Except Complaint (List String) :=
  match node with
  | .array items _ => items.mapM fun item => text ((item.span?).getD place) item
  | .tables items => items.mapM fun item => text ((item.span?).getD place) item
  | _ => wrongType node place "a sequence"

/-- How one setting is taken from a value that stands at a place. -/
structure Field (α : Type) where
  name : String
  set : α → Span → Value → Except Complaint α

/-- The member that dates have in the place of those of a table. -/
def dateMember : List Char := "$__toml_private_datetime".toList

/-- The last piece of a name with dots in it. -/
def lastPiece (name : List Char) : List Char :=
  (name.reverse.takeWhile (· ≠ '.')).reverse

/-- Takes settings from the members of a table. -/
def fromMembers {α : Type} (fields : List (Field α)) :
    α → List (Key × Value) → Decoded α
  | value, [] => .ok (value, [])
  | value, (key, node) :: rest =>
    match fields.find? fun f => f.name.toList = key.text with
    | none =>
      match fromMembers fields value rest with
      | .error e => .error e
      | .ok (value, unknown) => .ok (value, lastPiece key.text :: unknown)
    | some field =>
      match field.set value key.span node with
      | .error e => .error e
      | .ok value => fromMembers fields value rest

/-- Takes settings from the items of an array, one each; what is left over does not matter. -/
def fromItems {α : Type} (place : Span) : List (Field α) → α → List Value → Except Complaint α
  | [], value, _ => .ok value
  | _ :: _, value, [] => .ok value
  | field :: fields, value, item :: items =>
    match field.set value ((item.span?).getD place) item with
    | .error e => .error e
    | .ok value => fromItems place fields value items

/-- Takes a section from a value. -/
def fromSection {α : Type} (name : String) (fields : List (Field α)) (defaults : α) (place : Span)
    (node : Value) : Decoded α :=
  match node with
  | .table _ members _ => fromMembers fields defaults members
  | .array items _ => (fromItems place fields defaults items).map fun value => (value, [])
  | .tables items => (fromItems place fields defaults items).map fun value => (value, [])
  | .scalar .date _ => .ok (defaults, [dateMember])
  | _ => wrongType node place s!"struct {name}"

/-- The settings of the build section. -/
def buildFields : List (Field BuildConfig) := [
  ⟨"tsx", fun c place node => (bool place node).map fun v => { c with tsx := v }⟩]

/-- The settings of the section on side files. -/
def syncFields : List (Field SyncConfig) := [
  ⟨"git", fun c place node => (bool place node).map fun v => { c with git := v }⟩,
  ⟨"vscode", fun c place node => (bool place node).map fun v => { c with vscode := v }⟩,
  ⟨"debounce_ms", fun c place node => (natural place node).map fun v => { c with debounceMs := v }⟩]

/-- The settings of the compiler section. -/
def compilerFields : List (Field CompilerConfig) := [
  ⟨"command", fun c place node => (text place node).map fun v => { c with command := v }⟩,
  ⟨"args", fun c place node => (texts place node).map fun v => { c with args := v }⟩]

/-- The settings of the discovery section. -/
def discoveryFields : List (Field DiscoveryConfig) := [
  ⟨"exclude", fun c place node => (texts place node).map fun v => { c with exclude := v }⟩]

/-- Takes one section of the settings from a member of the table, if there is one of its name. -/
def member (c : Config) (key : Key) (node : Value) : Decoded Config :=
  let d := Config.defaults
  if key.text = "build".toList then
    (fromSection "BuildConfig" buildFields d.build key.span node).map fun (v, u) =>
      ({ c with build := v }, u)
  else if key.text = "sync".toList then
    (fromSection "SyncConfig" syncFields d.sync key.span node).map fun (v, u) =>
      ({ c with sync := v }, u)
  else if key.text = "compiler".toList then
    (fromSection "CompilerConfig" compilerFields d.compiler key.span node).map fun (v, u) =>
      ({ c with compiler := v }, u)
  else if key.text = "discovery".toList then
    (fromSection "DiscoveryConfig" discoveryFields d.discovery key.span node).map fun (v, u) =>
      ({ c with discovery := v }, u)
  else .ok (c, [lastPiece key.text])

/-- Takes the settings from the members of the table. -/
def members (c : Config) : List (Key × Value) → Decoded Config
  | [] => .ok (c, [])
  | (key, node) :: rest =>
    match member c key node with
    | .error e => .error e
    | .ok (c, unknown) =>
      match members c rest with
      | .error e => .error e
      | .ok (c, more) => .ok (c, unknown ++ more)

/-- The settings that a configuration text's table makes. -/
def config (top : Value) : Decoded Config :=
  members .defaults top.members

end Decode

end ArtifactSync
