/-!
# JSON output

How events and settings write JSON: strings with the escapes that JSON demands and no others, and
objects on one line with their members in the order given.
-/

namespace ArtifactSync.Json

/-- A hexadecimal digit in its small form. -/
def hexDigit (n : Nat) : Char :=
  if n < 10 then Char.ofNat (48 + n) else Char.ofNat (87 + n)

/-- A character inside a JSON string. -/
def escapeChar (c : Char) : List Char :=
  if c = '"' then ['\\', '"']
  else if c = '\\' then ['\\', '\\']
  else if c = '\n' then ['\\', 'n']
  else if c = '\r' then ['\\', 'r']
  else if c = '\t' then ['\\', 't']
  else if c.toNat = 8 then ['\\', 'b']
  else if c.toNat = 12 then ['\\', 'f']
  else if c.toNat < 32 then ['\\', 'u', '0', '0', hexDigit (c.toNat / 16), hexDigit (c.toNat % 16)]
  else [c]

/-- A text as a JSON string. -/
def quote (cs : List Char) : List Char :=
  '"' :: cs.flatMap escapeChar ++ ['"']

/-- The values that events hold. -/
inductive Scalar where
  | text (s : String)
  | number (n : Nat)
  deriving DecidableEq, Repr

/-- A value as JSON. -/
def Scalar.render : Scalar → List Char
  | text s => quote s.toList
  | number n => (toString n).toList

/-- A member of an object as JSON. -/
def renderMember (m : String × Scalar) : List Char :=
  quote m.1.toList ++ ':' :: m.2.render

/-- An object as JSON, on one line. -/
def renderObject (members : List (String × Scalar)) : String :=
  String.ofList ('\x7b' :: (List.intercalate [','] (members.map renderMember)) ++ ['\x7d'])

end ArtifactSync.Json
