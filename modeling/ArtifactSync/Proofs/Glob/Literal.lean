import ArtifactSync.Glob.Expression
import ArtifactSync.Glob.Reader
import Mathlib.Data.List.Basic

/-!
# Globs of fixed characters

A text with a backslash in front of each character is read as the row of its characters
(`parse_escape`), and such a row matches the bytes of the text and nothing else (`isMatch_fixed`).
-/

namespace ArtifactSync

namespace Text

/-- Texts with the same bytes are the same. -/
theorem bytes_injective : Function.Injective bytes := by
  intro cs cs' h
  have hspell (cs : List Char) : ofBytes? (bytes cs) = some (String.ofList cs) := by
    simpa using ofBytes_bytes (String.ofList cs)
  have hsame := hspell cs
  rw [h, hspell cs', Option.some.injEq] at hsame
  simpa using (congrArg String.toList hsame).symm

end Text

namespace Glob

/-- A text with a backslash in front of each character. -/
def escape (cs : List Char) : List Char :=
  cs.flatMap fun c => ['\\', c]

/-- The row of fixed characters that a text spells. -/
def fixed (cs : List Char) : List Token :=
  cs.map .literal

/-- An escaped text adds its characters to what has been read. -/
theorem readAll_escape (cs : List Char) (r : Reading) :
    ∃ last, Reading.readAll 0 r (escape cs) =
      .ok { r with row := (fixed cs).reverse ++ r.row, last := last } := by
  induction cs generalizing r with
  | nil => exact ⟨r.last, rfl⟩
  | cons c cs ih =>
    obtain ⟨last, hlast⟩ := ih { r with row := .literal c :: r.row, last := some c }
    refine ⟨last, ?_⟩
    rw [show escape (c :: cs) = '\\' :: c :: escape cs from rfl, Reading.readAll]
    simp [Reading.read, Reading.push, Reading.readAll, hlast, fixed]

/-- An escaped text is read as its characters. -/
theorem parse_escape (cs : List Char) : parse (escape cs) = .ok (fixed cs) := by
  obtain ⟨last, hlast⟩ := readAll_escape cs .start
  rw [parse, hlast]
  simp [Reading.start]

/-- What is left of bytes behind others that they begin with. -/
theorem dropBytes_eq_some_iff {start bs rest : List UInt8} :
    dropBytes? start bs = some rest ↔ bs = start ++ rest := by
  induction start generalizing bs with
  | nil => simp [dropBytes?]
  | cons a start ih =>
    cases bs with
    | nil => simp [dropBytes?]
    | cons b bs =>
      rw [dropBytes?]
      split
      · next heq => simp [ih, heq]
      · next hne => simp [Ne.symm hne]

/-- From nowhere a row leads nowhere. -/
theorem rowRests_nil (ts : List Token) : rowRests ts [] = [] := by
  induction ts with
  | nil => rw [rowRests]
  | cons t ts ih => simpa [rowRests] using ih

/-- What is left behind fixed characters is what stands behind their bytes. -/
theorem mem_rowRests_fixed {cs : List Char} {bs rest : List UInt8} :
    rest ∈ rowRests (fixed cs) [bs] ↔ bs = Text.bytes cs ++ rest := by
  -- on the characters, each of which takes its own bytes off the front
  induction cs generalizing bs with
  | nil => simp [fixed, rowRests, Text.bytes, eq_comm]
  | cons c cs ih =>
    have hrests : [bs].flatMap (Token.literal c).rests =
        (dropBytes? (String.utf8EncodeChar c) bs).toList := by
      simp [Token.rests]
    have hbytes : Text.bytes (c :: cs) = String.utf8EncodeChar c ++ Text.bytes cs := rfl
    rw [fixed, List.map_cons, rowRests, hrests, hbytes, List.append_assoc]
    cases hdrop : dropBytes? (String.utf8EncodeChar c) bs with
    | none =>
      rw [Option.toList_none, List.eraseDups_nil, rowRests_nil]
      refine ⟨nofun, fun heq => ?_⟩
      rw [dropBytes_eq_some_iff.mpr heq] at hdrop
      cases hdrop
    | some left =>
      rw [dropBytes_eq_some_iff.mp hdrop, List.append_right_inj]
      exact ih

/-- Fixed characters match their bytes, and nothing else. -/
theorem isMatch_fixed {cs : List Char} {bs : List UInt8} :
    isMatch (fixed cs) bs = true ↔ bs = Text.bytes cs := by
  -- none of the ways in which a row is matched otherwise applies
  have htree : isWholeTree (fixed cs) = false := by
    cases cs <;> rfl
  have hall : (fixed cs).all (Token.isLiteral fun _ => true) = true := by
    simp [fixed, Token.isLiteral]
  have hname : asksName (fixed cs) = false := by
    cases cs with
    | nil => rfl
    | cons c cs =>
      have hpath : isFixedPath (fixed (c :: cs)) = true := hall
      rw [asksName, hpath]
      rfl
  have hmem : [] ∈ rowRests (fixed cs) [bs] ↔ bs = Text.bytes cs ++ [] := mem_rowRests_fixed
  rw [List.append_nil] at hmem
  simp [isMatch, htree, hname, hmem]

/-- Fixed characters are not nested. -/
theorem isTooDeep_fixed (cs : List Char) : isTooDeep (fixed cs) = false := by
  have hrow : rowNesting (fixed cs) = 0 := by
    induction cs with
    | nil => rfl
    | cons c cs ih => rw [fixed, List.map_cons, rowNesting, ← fixed, ih]; rfl
  rw [isTooDeep, nesting, hrow]
  decide

end Glob

end ArtifactSync
