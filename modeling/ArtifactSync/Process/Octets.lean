import ArtifactSync.Path.Basic
import ArtifactSync.Text.Utf8

/-!
# Words as bytes

Programs take text as bytes and do not ask which characters those spell. A word of a command line is
a list of characters below 256, each of which stands for the byte of its number: the signs of a
script are written as the characters they are, and any other byte is kept as it is.
-/

namespace ArtifactSync.Process

/-- A word of a command line: its bytes, each as the character of its number. -/
abbrev Word := List Char

namespace Word

/-- Bytes as a word. -/
def ofBytes (bs : List UInt8) : Word :=
  bs.map fun b => Char.ofNat b.toNat

/-- The bytes of a word. -/
def bytes (w : Word) : List UInt8 :=
  w.map fun c => UInt8.ofNat c.toNat

/-- A byte is read back from the character of its number. -/
theorem byte_of_char (b : UInt8) : UInt8.ofNat (Char.ofNat b.toNat).toNat = b := by
  have valid : b.toNat.isValidChar := .inl (by have := b.toNat_lt; omega)
  have same : (Char.ofNat b.toNat).toNat = b.toNat := by
    rw [Char.ofNat, dif_pos valid]; rfl
  rw [same, UInt8.ofNat_toNat]

/-- Bytes are read back from the word they make. -/
theorem bytes_ofBytes (bs : List UInt8) : bytes (ofBytes bs) = bs := by
  simp [bytes, ofBytes, Function.comp_def, byte_of_char]

/-- A text as a word. -/
def ofText (cs : List Char) : Word :=
  ofBytes (Text.bytes cs)

/-- A word as a text, with a replacement character wherever it is none. -/
def text (w : Word) : List Char :=
  Text.lossy (bytes w)

/-- The path that a word names. -/
def path (w : Word) : Path := ⟨text w⟩

/-- Whether a byte is blank, as programs see it: a space, or one of the controls that move on. -/
def isBlank (c : Char) : Bool :=
  c == ' ' || (9 ≤ c.toNat && c.toNat ≤ 13)

/-- A word without the blanks at its start. -/
def trimStart (w : Word) : Word :=
  w.dropWhile isBlank

/-- A word without the blanks at its ends. -/
def trim (w : Word) : Word :=
  ((trimStart w).reverse.dropWhile isBlank).reverse

/-- The pieces of a word between characters of a class. -/
def pieces (isMark : Char → Bool) : Word → List Word
  | [] => [[]]
  | c :: cs =>
    match pieces isMark cs with
    | [] => [[c]]
    | first :: rest => if isMark c then [] :: first :: rest else (c :: first) :: rest

/-- The pieces of a word between its blanks. -/
def runs (w : Word) : List Word :=
  (pieces isBlank w).filter fun piece => !piece.isEmpty

/-- Whether a word comes no later than another one when their bytes are compared. -/
def comesNoLater (a b : Word) : Bool :=
  !decide (b.map Char.toNat < a.map Char.toNat)

end Word

end ArtifactSync.Process
