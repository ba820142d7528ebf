import ArtifactSync.Toml.Scanner

/-!
# Readers only advance

Whatever a reader of configuration text takes, the place it leaves behind is the place it started
from some characters further on (`Cursor.Ahead`). So a place is told by its offset alone: the
readers never look at a text other than the one they were started on. There is one lemma for each
reader of a thing without parts.
-/

namespace ArtifactSync.Toml

namespace Cursor

/-- A place some characters further on. -/
def Ahead (c c' : Cursor) : Prop :=
  ∃ n, c' = c.advance n

variable {c c' c'' : Cursor}

/-- Advancing twice is advancing once. -/
theorem advance_advance (c : Cursor) (m n : Nat) :
    (c.advance m).advance n = c.advance (m + n) := by
  simp [advance, Nat.add_assoc]

theorem Ahead.refl (c : Cursor) : Ahead c c :=
  ⟨0, by simp [advance]⟩

theorem Ahead.trans (h : Ahead c c') (h' : Ahead c' c'') : Ahead c c'' := by
  obtain ⟨m, rfl⟩ := h
  obtain ⟨n, rfl⟩ := h'
  exact ⟨m + n, advance_advance c m n⟩

theorem ahead_advance (c : Cursor) (n : Nat) : Ahead c (c.advance n) :=
  ⟨n, rfl⟩

/-- Ahead of a place that is ahead. -/
theorem Ahead.advance (h : Ahead c c') (n : Nat) : Ahead c (c'.advance n) :=
  h.trans (ahead_advance c' n)

/-- A place of a text is told by its offset. -/
theorem eq_of_ahead_start {cs : List Char} (h : Ahead (start cs) c) :
    c = (start cs).advance c.offset := by
  obtain ⟨n, rfl⟩ := h
  simp [start, Cursor.advance]

theorem ahead_takeWhile (c : Cursor) (p : Char → Bool) : Ahead c (c.takeWhile p).2 :=
  ⟨_, rfl⟩

theorem ahead_of_takeWhile {p : Char → Bool} {text : List Char}
    (h : c.takeWhile p = (text, c')) : Ahead c c' := by
  cases h
  exact ahead_takeWhile c p

theorem ahead_skipBlanks (c : Cursor) : Ahead c c.skipBlanks :=
  ahead_takeWhile c _

theorem ahead_skipComment (c : Cursor) : Ahead c c.skipComment := by
  rw [skipComment]
  split
  · exact ahead_takeWhile c _
  · exact .refl c

theorem ahead_of_skip {text : List Char} (h : c.skip? text = some c') : Ahead c c' := by
  simp only [skip?, Option.ite_none_right_eq_some, Option.some.injEq] at h
  exact ⟨_, h.2.symm⟩

theorem ahead_of_skipLineEnd (h : c.skipLineEnd? = some c') : Ahead c c' := by
  rw [skipLineEnd?] at h
  split at h
  · exact ⟨1, (Option.some.inj h).symm⟩
  · exact ⟨2, (Option.some.inj h).symm⟩
  · cases h

theorem ahead_of_endLine (h : c.endLine? = some c') : Ahead c c' := by
  have hrest := (ahead_skipBlanks c).trans (ahead_skipComment c.skipBlanks)
  rw [endLine?] at h
  split at h
  · exact Option.some.inj h ▸ hrest
  · exact hrest.trans (ahead_of_skipLineEnd h)

/-- Blanks, line ends and comments are passed over one line at a time. -/
theorem ahead_of_skipLinesWithin {limit : Nat} (h : skipLinesWithin limit c = some c') :
    Ahead c c' := by
  induction limit generalizing c with
  | zero => exact Option.some.inj h ▸ ahead_skipBlanks c
  | succ limit ih =>
    have hblanks := ahead_skipBlanks c
    simp only [skipLinesWithin] at h
    split at h
    · obtain ⟨c₁, hend, h⟩ := Option.bind_eq_some_iff.mp h
      exact hblanks.trans ((ahead_skipComment _).trans ((ahead_of_skipLineEnd hend).trans (ih h)))
    · obtain ⟨c₁, hend, h⟩ := Option.bind_eq_some_iff.mp h
      exact hblanks.trans ((ahead_of_skipLineEnd hend).trans (ih h))
    · obtain ⟨c₁, hend, h⟩ := Option.bind_eq_some_iff.mp h
      exact hblanks.trans ((ahead_of_skipLineEnd hend).trans (ih h))
    · exact Option.some.inj h ▸ hblanks

theorem ahead_of_skipLines (h : c.skipLines? = some c') : Ahead c c' :=
  ahead_of_skipLinesWithin h

end Cursor

/-- A reader leaves a place behind that is ahead of the one it started from. -/
def Reader.Advances {α : Type} (r : Reader α) : Prop :=
  ∀ ⦃c a c'⦄, r c = some (a, c') → c.Ahead c'

open Cursor

/-! ## Strings and names -/

theorem readLineString_advances (quote : Char) : (readLineString quote).Advances := by
  intro c s c' h
  rw [readLineString] at h
  split at h
  · obtain ⟨-, h⟩ := Option.ite_none_right_eq_some.mp h
    obtain ⟨⟨s, n⟩, -, h⟩ := Option.map_eq_some_iff.mp h
    cases h
    exact ahead_advance c (n + 1)
  · cases h

theorem readBlockString_advances (quote : Char) : (readBlockString quote).Advances := by
  intro c s c' h
  obtain ⟨c₁, hopen, h⟩ := Option.bind_eq_some_iff.mp h
  obtain ⟨⟨s, n⟩, -, h⟩ := Option.map_eq_some_iff.mp h
  cases h
  -- a line end behind the opening quotes is left out
  have hline : Ahead c₁ (c₁.skipLineEnd?.getD c₁) := by
    cases hend : c₁.skipLineEnd? with
    | none => exact .refl c₁
    | some c₂ => exact ahead_of_skipLineEnd hend
  exact ((ahead_of_skip hopen).trans hline).advance n

theorem readString_advances : readString.Advances := by
  intro c s c' h
  rw [readString] at h
  split at h
  · cases h
  · split at h
    · exact readBlockString_advances _ h
    · exact readLineString_advances _ h

theorem readName_advances : readName.Advances := by
  intro c key c' h
  rw [readName] at h
  split at h
  · cases h
  · split at h
    · obtain ⟨⟨text, after⟩, hread, h⟩ := Option.map_eq_some_iff.mp h
      cases h
      exact readLineString_advances _ hread
    · split at h
      · cases h
      · next htake =>
        cases h
        exact ahead_of_takeWhile htake

/-! ## Numbers -/

theorem readDigits_advances (isDigit : Char → Bool) : (readDigits isDigit).Advances := by
  intro c digits c' h
  obtain ⟨-, h⟩ := Option.ite_none_left_eq_some.mp h
  cases h
  exact ahead_takeWhile c _

theorem ahead_readSign (c : Cursor) : Ahead c (readSign c).2 := by
  rw [readSign]
  split
  · exact ahead_advance c 1
  · exact ahead_advance c 1
  · exact .refl c

theorem readWhole_advances : readWhole.Advances := by
  intro c digits c' h
  rw [readWhole] at h
  split at h
  · cases h
    exact ahead_advance c 1
  · exact readDigits_advances _ h

theorem readFraction_advances : readFraction.Advances := by
  intro c digits c' h
  rw [readFraction] at h
  split at h
  · exact (ahead_advance c 1).trans (readDigits_advances _ h)
  · cases h
    exact .refl c

theorem readExponent_advances : readExponent.Advances := by
  intro c exponent c' h
  rw [readExponent] at h
  split at h
  · obtain ⟨⟨digits, after⟩, hread, h⟩ := Option.map_eq_some_iff.mp h
    cases h
    exact ((ahead_advance c 1).trans (ahead_readSign _)).trans (readDigits_advances _ hread)
  · cases h
    exact .refl c

theorem readNamedNumber_advances (negative : Bool) : (readNamedNumber negative).Advances := by
  intro c value c' h
  rw [readNamedNumber] at h
  split at h
  · cases h
    exact ahead_advance c 3
  · split at h
    · cases h
      exact ahead_advance c 3
    · cases h

/-- A decimal is read part by part. -/
theorem readDecimal_advances : readDecimal.Advances := by
  intro c value c' h
  have hsign := ahead_readSign c
  simp only [readDecimal] at h
  split at h
  · next hnamed =>
    exact hsign.trans (readNamedNumber_advances _ (hnamed.trans h))
  · split at h
    · cases h
    · next hwhole =>
      split at h
      · cases h
      · next hfraction =>
        split at h
        · cases h
        · next hexponent =>
          have hafter := hsign.trans ((readWhole_advances hwhole).trans
            ((readFraction_advances hfraction).trans (readExponent_advances hexponent)))
          split at h
          · obtain ⟨-, h⟩ := Option.ite_none_right_eq_some.mp h
            cases h
            exact hafter
          · obtain ⟨-, h⟩ := Option.ite_none_left_eq_some.mp h
            cases h
            exact hafter

theorem readBased_advances (base : Nat) (isDigit : Char → Bool) :
    (readBased base isDigit).Advances := by
  intro c value c' h
  obtain ⟨⟨digits, after⟩, hread, h⟩ := Option.bind_eq_some_iff.mp h
  obtain ⟨-, h⟩ := Option.ite_none_right_eq_some.mp h
  cases h
  exact (ahead_advance c 2).trans (readDigits_advances _ hread)

/-! ## Dates -/

theorem readFixed_advances (count low high : Nat) : (readFixed count low high).Advances := by
  intro c n c' h
  obtain ⟨-, h⟩ := Option.ite_none_right_eq_some.mp h
  cases h
  exact ahead_advance c count

theorem ahead_of_skipDay {c c' : Cursor} (h : skipDay? c = some c') : Ahead c c' := by
  obtain ⟨⟨year, c₁⟩, hyear, h⟩ := Option.bind_eq_some_iff.mp h
  obtain ⟨c₂, hdash, h⟩ := Option.bind_eq_some_iff.mp h
  obtain ⟨⟨month, c₃⟩, hmonth, h⟩ := Option.bind_eq_some_iff.mp h
  obtain ⟨c₄, hdash', h⟩ := Option.bind_eq_some_iff.mp h
  obtain ⟨⟨day, c₅⟩, hday, rfl⟩ := Option.map_eq_some_iff.mp h
  exact (readFixed_advances _ _ _ hyear).trans ((ahead_of_skip hdash).trans
    ((readFixed_advances _ _ _ hmonth).trans ((ahead_of_skip hdash').trans
      (readFixed_advances _ _ _ hday))))

theorem ahead_of_skipTime {c c' : Cursor} (h : skipTime? c = some c') : Ahead c c' := by
  obtain ⟨⟨hour, c₁⟩, hhour, h⟩ := Option.bind_eq_some_iff.mp h
  obtain ⟨c₂, hcolon, h⟩ := Option.bind_eq_some_iff.mp h
  obtain ⟨⟨minute, c₃⟩, hminute, h⟩ := Option.bind_eq_some_iff.mp h
  obtain ⟨c₄, hcolon', h⟩ := Option.bind_eq_some_iff.mp h
  obtain ⟨⟨second, c₅⟩, hsecond, h⟩ := Option.bind_eq_some_iff.mp h
  have hclock := (readFixed_advances _ _ _ hhour).trans ((ahead_of_skip hcolon).trans
    ((readFixed_advances _ _ _ hminute).trans ((ahead_of_skip hcolon').trans
      (readFixed_advances _ _ _ hsecond))))
  dsimp only at h
  split at h
  · split at h
    · cases h
    · next htake =>
      cases h
      exact (hclock.advance 1).trans (ahead_of_takeWhile htake)
  · cases h
    exact hclock

theorem ahead_of_skipZone {c c' : Cursor} (h : skipZone? c = some c') : Ahead c c' := by
  -- both signs are followed by hours and minutes
  have hours {c c' : Cursor} (h : skipZone?.hours c = some c') : Ahead c c' := by
    obtain ⟨⟨hour, c₁⟩, hhour, h⟩ := Option.bind_eq_some_iff.mp h
    obtain ⟨c₂, hcolon, h⟩ := Option.bind_eq_some_iff.mp h
    obtain ⟨⟨minute, c₃⟩, hminute, rfl⟩ := Option.map_eq_some_iff.mp h
    exact (readFixed_advances _ _ _ hhour).trans ((ahead_of_skip hcolon).trans
      (readFixed_advances _ _ _ hminute))
  rw [skipZone?] at h
  split at h
  · exact Option.some.inj h ▸ ahead_advance c 1
  · exact Option.some.inj h ▸ ahead_advance c 1
  · exact (ahead_advance c 1).trans (hours h)
  · exact (ahead_advance c 1).trans (hours h)
  · exact Option.some.inj h ▸ .refl c

theorem ahead_of_skipDate {c c' : Cursor} (h : skipDate? c = some c') : Ahead c c' := by
  rw [skipDate?] at h
  split at h
  · exact ahead_of_skipTime h
  · next hday =>
    have hday := ahead_of_skipDay hday
    split at h
    · split at h
      · split at h
        · next hclock =>
          obtain ⟨c₁, htime, hzone⟩ := Option.bind_eq_some_iff.mp hclock
          cases h
          exact (hday.advance 1).trans ((ahead_of_skipTime htime).trans (ahead_of_skipZone hzone))
        · exact Option.some.inj h ▸ hday
      · exact Option.some.inj h ▸ hday
    · exact Option.some.inj h ▸ hday

theorem readNumberOrDate_advances : readNumberOrDate.Advances := by
  intro c value c' h
  rw [readNumberOrDate] at h
  split at h
  · next hdate =>
    cases h
    exact ahead_of_skipDate hdate
  · split at h
    · exact readBased_advances _ _ h
    · split at h
      · exact readBased_advances _ _ h
      · split at h
        · exact readBased_advances _ _ h
        · exact readDecimal_advances h

/-- Reading a value without parts advances. -/
theorem readScalar_advances : readScalar.Advances := by
  intro c value c' h
  rw [readScalar] at h
  split at h
  · cases h
  · split at h
    · obtain ⟨⟨s, after⟩, hread, h⟩ := Option.map_eq_some_iff.mp h
      cases h
      exact readString_advances hread
    · split at h
      · cases h
        exact ahead_advance c 4
      · split at h
        · cases h
          exact ahead_advance c 5
        · split at h
          · exact readNamedNumber_advances _ h
          · obtain ⟨-, h⟩ := Option.ite_none_right_eq_some.mp h
            exact readNumberOrDate_advances h

end ArtifactSync.Toml
