import ArtifactSync.Toml.Number

/-!
# Configuration values

What a configuration text says, with the place in the text where it says so. Members of a table are
in the order in which they were first named.
-/

namespace ArtifactSync.Toml

/-- A stretch of a text, by the number of characters in front of its two ends. -/
structure Span where
  start : Nat
  stop : Nat
  deriving DecidableEq, Repr

/-- The name of a member, and where it stands. -/
structure Key where
  text : List Char
  span : Span
  deriving DecidableEq, Repr

/-- A value without parts. -/
inductive Scalar where
  | string (text : List Char)
  | integer (n : Int)
  | number (n : Number)
  | boolean (b : Bool)
  /-- A date, a time of day, or both. -/
  | date
  deriving DecidableEq, Repr

/-- How a table came to be. -/
inductive Form where
  /-- By a header of its own, or as the top of the text. -/
  | headed
  /-- By a header of a table inside it. -/
  | implied
  /-- By a name with dots. -/
  | dotted
  /-- By braces around its members. -/
  | inline
  deriving DecidableEq, Repr

/-- A table that only names of its members gave rise to, so that more may be added. -/
def Form.isOpen : Form → Bool
  | implied => true
  | dotted => true
  | _ => false

/-- A value. Tables that were not written in one piece have no place in the text. -/
inductive Value where
  | scalar (value : Scalar) (span : Span)
  | array (items : List Value) (span : Span)
  | table (form : Form) (members : List (Key × Value)) (span : Option Span)
  /-- The tables that headers in double brackets add one by one. -/
  | tables (items : List Value)

namespace Value

/-- Where a value stands, if it stands in one place. -/
def span? : Value → Option Span
  | scalar _ span => some span
  | array _ span => some span
  | table _ _ span => span
  | tables items =>
    match items.head?, items.getLast? with
    | some (table _ _ (some first)), some (table _ _ (some last)) => some ⟨first.start, last.stop⟩
    | _, _ => none

/-- Whether a value is a table of a form. -/
def hasForm (form : Form) : Value → Bool
  | table f _ _ => f = form
  | _ => false

/-- A table without members. -/
def emptyTable (form : Form) : Value :=
  table form [] none

/-- The members of a table; other values have none. -/
def members : Value → List (Key × Value)
  | table _ members _ => members
  | _ => []

/-- The member of a table with a name. -/
def member? (name : List Char) (node : Value) : Option Value :=
  (node.members.find? fun m => m.1.text = name).map Prod.snd

/-- Changes the members of a table. -/
def mapMembers (f : List (Key × Value) → List (Key × Value)) : Value → Value
  | table form members span => table form (f members) span
  | other => other

/-- Gives a member of a table a value, in its place or as the last one. -/
def setMember (node : Value) (key : Key) (value : Value) : Value :=
  node.mapMembers fun members =>
    if members.any fun m => m.1.text = key.text then
      members.map fun m => if m.1.text = key.text then (m.1, value) else m
    else members ++ [(key, value)]

/-- Takes a member of a table away. -/
def dropMember (name : List Char) (node : Value) : Value :=
  node.mapMembers fun members => members.filter fun m => m.1.text ≠ name

end Value

end ArtifactSync.Toml
