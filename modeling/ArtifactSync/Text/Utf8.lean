/-!
# UTF-8

The bytes of a text, the text of bytes that are UTF-8, and the text of bytes that may not be: there
each longest run that could have begun a character, and each byte that cannot begin one, becomes
one replacement character.
-/

namespace ArtifactSync.Text

/-- The UTF-8 bytes of a text. -/
def bytes (cs : List Char) : List UInt8 :=
  cs.flatMap String.utf8EncodeChar

/-- The text that a file's or a program's bytes spell, if they are UTF-8. -/
def ofBytes? (bs : List UInt8) : Option String :=
  String.fromUTF8? ⟨bs.toArray⟩

/-- The bytes of a text spell the text. -/
theorem ofBytes_bytes (text : String) : ofBytes? (bytes text.toList) = some text := by
  have hbytes : (⟨(bytes text.toList).toArray⟩ : ByteArray) = text.toByteArray := by
    rw [← String.utf8Encode_toList]
    exact ByteArray.ext List.data_toByteArray.symm
  rw [ofBytes?, hbytes, String.fromUTF8?, dif_pos text.isValidUTF8]
  rfl

/-- The character that stands for bytes which spell none. -/
def replacement : Char := '\uFFFD'

/-- What a first byte promises: how many bytes follow, the range of the next one, and its own bits
of the character. -/
structure Lead where
  tails : Nat
  low : UInt8
  high : UInt8
  bits : Nat

/-- The first bytes of characters longer than one byte. -/
def Lead.of? (b : UInt8) : Option Lead :=
  if 0xC2 ≤ b && b ≤ 0xDF then some ⟨1, 0x80, 0xBF, b.toNat - 0xC0⟩
  else if b == 0xE0 then some ⟨2, 0xA0, 0xBF, 0⟩
  else if b == 0xED then some ⟨2, 0x80, 0x9F, 13⟩
  else if 0xE1 ≤ b && b ≤ 0xEF then some ⟨2, 0x80, 0xBF, b.toNat - 0xE0⟩
  else if b == 0xF0 then some ⟨3, 0x90, 0xBF, 0⟩
  else if b == 0xF4 then some ⟨3, 0x80, 0x8F, 4⟩
  else if 0xF1 ≤ b && b ≤ 0xF3 then some ⟨3, 0x80, 0xBF, b.toNat - 0xF0⟩
  else none

/-- Reads the bytes after a first one; stops in front of the first that does not fit. -/
def takeTails : Nat → UInt8 → UInt8 → Nat → List UInt8 → Char × List UInt8
  | 0, _, _, bits, rest => (Char.ofNat bits, rest)
  | _ + 1, _, _, _, [] => (replacement, [])
  | n + 1, low, high, bits, b :: rest =>
    if low ≤ b && b ≤ high then takeTails n 0x80 0xBF (bits * 64 + b.toNat % 64) rest
    else (replacement, b :: rest)

/-- One character off the front of bytes that begin with `b`. -/
def takeChar (b : UInt8) (rest : List UInt8) : Char × List UInt8 :=
  if b < 0x80 then (Char.ofNat b.toNat, rest)
  else match Lead.of? b with
    | none => (replacement, rest)
    | some lead => takeTails lead.tails lead.low lead.high lead.bits rest

/-- Reads at most `limit` characters. -/
def lossyFrom : Nat → List UInt8 → List Char
  | 0, _ => []
  | _ + 1, [] => []
  | limit + 1, b :: rest =>
    let (c, rest) := takeChar b rest
    c :: lossyFrom limit rest

/-- The text of bytes, with a replacement character wherever they are not UTF-8. -/
def lossy (bs : List UInt8) : List Char :=
  lossyFrom bs.length bs

end ArtifactSync.Text
