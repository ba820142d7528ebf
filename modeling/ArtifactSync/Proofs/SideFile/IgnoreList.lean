import ArtifactSync.SideFile.IgnoreList
import Mathlib.Data.List.TakeWhile
import Mathlib.Tactic.Common

/-!
# The ignore list, rewritten

A rewrite keeps what the user has written in front of the region, and that text ends its last line
(`userPart_ends`). So the region begins a line of its own, and the next rewrite finds it there and
keeps the same text (`userPart_render`): of several rewrites only the last one counts
(`render_of_render`).
-/

namespace ArtifactSync

namespace Text

/-- Every line but the last one ends in a line feed. -/
theorem getLast_of_mem_dropLast {cs line : List Char}
    (h : line ∈ (linesWithEnds cs).dropLast) : line.getLast? = some '\n' := by
  induction cs generalizing line with
  | nil => cases h
  | cons c cs ih =>
    rw [linesWithEnds] at h
    split at h
    · next hc =>
      cases hlines : linesWithEnds cs with
      | nil => simp [hlines] at h
      | cons first rest =>
        rw [hlines, List.dropLast_cons_cons, List.mem_cons] at h
        rcases h with rfl | h
        · simp [hc]
        · exact ih (hlines ▸ h)
    · split at h
      · simp at h
      · next first rest hlines =>
        cases rest with
        | nil => simp at h
        | cons second rest =>
          rw [List.dropLast_cons_cons, List.mem_cons] at h
          have hmem {line : List Char} (hline : line ∈ first :: (second :: rest).dropLast) :
              line.getLast? = some '\n' := ih (by rwa [hlines, List.dropLast_cons_cons])
          rcases h with rfl | h
          · rw [List.getLast?_cons, hmem List.mem_cons_self]; rfl
          · exact hmem (List.mem_cons_of_mem _ h)

/-- Behind a line feed the lines begin anew. -/
theorem linesWithEnds_append {a : List Char} (h : a = [] ∨ a.getLast? = some '\n') (b : List Char) :
    linesWithEnds (a ++ b) = linesWithEnds a ++ linesWithEnds b := by
  induction a with
  | nil => rfl
  | cons c cs ih =>
    have hlast := h.resolve_left (List.cons_ne_nil c cs)
    by_cases hc : c = '\n'
    · have hcs : cs = [] ∨ cs.getLast? = some '\n' := by
        cases cs with
        | nil => exact .inl rfl
        | cons d ds => exact .inr (by simpa using hlast)
      simp [linesWithEnds, hc, ih hcs]
    · have hne : cs ≠ [] := by
        rintro rfl
        exact hc (by simpa using hlast)
      rw [List.getLast?_cons_of_ne_nil hne] at hlast
      have hflat := flatten_linesWithEnds cs
      simp only [List.cons_append, linesWithEnds, if_neg hc, ih (.inr hlast)]
      cases hlines : linesWithEnds cs with
      | nil =>
        rw [hlines] at hflat
        exact absurd hflat.symm hne
      | cons line rest => rfl

/-- The first lines of a text are lines by themselves. -/
theorem linesWithEnds_take (cs : List Char) (n : Nat) :
    linesWithEnds ((linesWithEnds cs).take n).flatten = (linesWithEnds cs).take n := by
  induction cs generalizing n with
  | nil => simp [linesWithEnds]
  | cons c cs ih =>
    cases n with
    | zero => rfl
    | succ n =>
      by_cases hc : c = '\n'
      · simp [linesWithEnds, hc, ih n]
      · have hrest := ih (n + 1)
        cases hlines : linesWithEnds cs with
        | nil => simp [linesWithEnds, hc, hlines]
        | cons line rest =>
          rw [hlines, List.take_succ_cons, List.flatten_cons] at hrest
          simp [linesWithEnds, hc, hlines, hrest]

/-- A line feed behind a text that does not end in one goes to the last line. -/
theorem linesWithEnds_newline {cs : List Char} (hne : cs ≠ []) (h : cs.getLast? ≠ some '\n') :
    ∃ front last, linesWithEnds cs = front ++ [last] ∧
      linesWithEnds (cs ++ ['\n']) = front ++ [last ++ ['\n']] := by
  induction cs with
  | nil => exact absurd rfl hne
  | cons c cs ih =>
    rcases eq_or_ne cs [] with rfl | hcs
    · have hc : c ≠ '\n' := fun hc => h (by simp [hc])
      exact ⟨[], [c], by simp [linesWithEnds, hc], by simp [linesWithEnds, hc]⟩
    · rw [List.getLast?_cons_of_ne_nil hcs] at h
      obtain ⟨front, last, hlines, hends⟩ := ih hcs h
      by_cases hc : c = '\n'
      · exact ⟨[c] :: front, last, by simp [linesWithEnds, hc, hlines],
          by simp [linesWithEnds, hc, hends]⟩
      · cases front with
        | nil => exact ⟨[], c :: last, by simp [linesWithEnds, hc, hlines],
            by simp [linesWithEnds, hc, hends]⟩
        | cons first front => exact ⟨(c :: first) :: front, last, by simp [linesWithEnds, hc, hlines],
            by simp [linesWithEnds, hc, hends]⟩

end Text

namespace IgnoreList

/-- What is in front of the region ends its last line. -/
theorem userPart_ends (existing : List Char) :
    userPart existing = [] ∨ (userPart existing).getLast? = some '\n' := by
  unfold userPart
  simp only
  split
  · next hopens =>
    have hsplit := List.takeWhile_append_dropWhile (p := fun line => !opensRegion line)
      (l := Text.linesWithEnds existing)
    cases hdrop : (Text.linesWithEnds existing).dropWhile fun line => !opensRegion line with
    | nil =>
      obtain ⟨line, hline, hopen⟩ := List.any_eq_true.mp hopens
      have := List.dropWhile_eq_nil_iff.mp hdrop line hline
      simp [hopen] at this
    | cons first later =>
      rcases List.eq_nil_or_concat ((Text.linesWithEnds existing).takeWhile
        fun line => !opensRegion line) with hnil | ⟨front, last, hfront⟩
      · exact .inl (by rw [hnil]; rfl)
      · rw [hfront, List.concat_eq_append, hdrop] at hsplit
        rw [hfront, List.concat_eq_append]
        have hlast : last ∈ (Text.linesWithEnds existing).dropLast := by
          rw [← hsplit, List.dropLast_append_cons]
          simp
        exact .inr (by simp [List.getLast?_append, Text.getLast_of_mem_dropLast hlast])
  · split
    · exact .inl rfl
    · split
      · next hsuffix =>
        obtain ⟨front, rfl⟩ := List.isSuffixOf_iff_suffix.mp hsuffix
        exact .inr (by simp)
      · split <;> exact .inr (by simp)

/-- A line opens the region with a line feed at its end and without one. -/
theorem opensRegion_newline (line : List Char) :
    opensRegion (line ++ ['\n']) = opensRegion line := by
  simp [opensRegion, Text.dropEndWhile]

/-- No line in front of the region opens one. -/
theorem not_opensRegion_userPart (existing : List Char) :
    ∀ line ∈ Text.linesWithEnds (userPart existing), opensRegion line = false := by
  unfold userPart
  simp only
  split
  · -- the lines are the first ones, up to the one that opens the region
    rw [List.prefix_iff_eq_take.mp (List.takeWhile_prefix fun line => !opensRegion line),
      Text.linesWithEnds_take,
      ← List.prefix_iff_eq_take.mp (List.takeWhile_prefix fun line => !opensRegion line)]
    intro line hline
    simpa using List.mem_takeWhile_imp hline
  · next hnone =>
    have hall : ∀ line ∈ Text.linesWithEnds existing, opensRegion line = false := by
      simpa using hnone
    have hblank (a : List Char) (ha : a = [] ∨ a.getLast? = some '\n')
        (h : ∀ line ∈ Text.linesWithEnds a, opensRegion line = false) :
        ∀ line ∈ Text.linesWithEnds (a ++ ['\n']), opensRegion line = false := by
      rw [Text.linesWithEnds_append ha]
      intro line hline
      rcases List.mem_append.mp hline with hline | hline
      · exact h line hline
      · obtain rfl := List.mem_singleton.mp hline
        decide
    split
    · simp [Text.linesWithEnds]
    · next hne =>
      split
      · exact hall
      · split
        · next hend => exact hblank _ (.inr hend) hall
        · next hend =>
          obtain ⟨front, last, hlines, hends⟩ := Text.linesWithEnds_newline hne hend
          rw [show existing ++ ['\n', '\n'] = existing ++ ['\n'] ++ ['\n'] by simp]
          refine hblank _ (.inr (by simp)) fun line hline => ?_
          rw [hends] at hline
          rcases List.mem_append.mp hline with hline | hline
          · exact hall line (by simp [hlines, hline])
          · rw [List.mem_singleton.mp hline, opensRegion_newline]
            exact hall last (by simp [hlines])

/-- A rewrite finds the region of the last one and keeps what is in front of it. -/
theorem userPart_render (existing : List Char) (outputs : List Path) :
    userPart (render existing outputs) = userPart existing := by
  have hregion : ∃ rest, region outputs = firstSentinel ++ ['\n'] ++ rest := by
    simp [region]
  obtain ⟨rest, hrest⟩ := hregion
  have hfirst : Text.linesWithEnds (firstSentinel ++ ['\n']) = [firstSentinel ++ ['\n']] := by decide
  have hopens : opensRegion (firstSentinel ++ ['\n']) = true := by decide
  have hlines : Text.linesWithEnds (render existing outputs) =
      Text.linesWithEnds (userPart existing) ++
        (firstSentinel ++ ['\n']) :: Text.linesWithEnds rest := by
    rw [render, Text.linesWithEnds_append (userPart_ends existing), hrest,
      Text.linesWithEnds_append (.inr (by simp)), hfirst]
    rfl
  have hkept := not_opensRegion_userPart existing
  rw [userPart, hlines]
  simp only [List.any_append, List.any_cons, hopens, Bool.true_or, Bool.or_true, if_true]
  rw [List.takeWhile_append_of_pos (by simpa using hkept), List.takeWhile_cons_of_neg (by simp [hopens]),
    List.append_nil, Text.flatten_linesWithEnds]

/-- A rewrite of what a rewrite has left is the rewrite of what was there before. -/
theorem render_of_render (existing : List Char) (outputs later : List Path) :
    render (render existing outputs) later = render existing later := by
  rw [render, userPart_render, render]

end IgnoreList

end ArtifactSync
