import ArtifactSync.Jsonc.Lexeme

/-!
# Settings documents

A document as a tree that keeps every lexeme, so printing it gives the text it was read from, and
changing one member leaves the characters of all others alone.
-/

namespace ArtifactSync.Jsonc

mutual

/-- A value as written. -/
inductive Value where
  /-- A string, a number or a constant. -/
  | scalar (lexeme : Lexeme)
  | array (items : List Item)
  | object (items : List Item)

/-- What stands between the marks of an array or an object. -/
inductive Item where
  /-- A comma, a comment or blank characters. -/
  | gap (lexeme : Lexeme)
  | element (value : Value)
  /-- A name, what is between it and its value, colon included, and the value. -/
  | member (name : Lexeme) (between : List Lexeme) (value : Value)

end

mutual

/-- The lexemes of a value. -/
def Value.lexemes : Value → List Lexeme
  | .scalar lexeme => [lexeme]
  | .array items => .mark .openBracket :: itemLexemes items ++ [.mark .closeBracket]
  | .object items => .mark .openBrace :: itemLexemes items ++ [.mark .closeBrace]

/-- The lexemes of one item. -/
def Item.lexemes : Item → List Lexeme
  | .gap lexeme => [lexeme]
  | .element value => value.lexemes
  | .member name between value => name :: between ++ value.lexemes

/-- The lexemes of items in a row. -/
def itemLexemes : List Item → List Lexeme
  | [] => []
  | item :: items => item.lexemes ++ itemLexemes items

end

/-- The name of a member. -/
def Item.name? : Item → Option (List Char)
  | .member name _ _ => name.name?
  | _ => none

/-- Whether an item is a member. -/
def Item.isMember : Item → Bool
  | .member _ _ _ => true
  | _ => false

/-- Whether an item is a member with a name. -/
def Item.isNamed (name : List Char) (item : Item) : Bool :=
  item.name? == some name

/-- A document: gaps, a value unless there are only gaps, and gaps behind it. -/
structure Document where
  before : List Lexeme
  value : Option Value
  after : List Lexeme

/-- The characters of lexemes in a row. -/
def textOf (lexemes : List Lexeme) : List Char :=
  lexemes.flatMap Lexeme.text

/-- The lexemes of a document. -/
def Document.lexemes (d : Document) : List Lexeme :=
  d.before ++ (d.value.map Value.lexemes).getD [] ++ d.after

/-- The text of a document. -/
def Document.text (d : Document) : List Char :=
  textOf d.lexemes

end ArtifactSync.Jsonc
