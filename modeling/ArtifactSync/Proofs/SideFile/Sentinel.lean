import ArtifactSync.Proofs.SideFile.IgnoreList
import Mathlib.Order.Bounds.Basic

/-!
# Where the region of the ignore list begins

The region is documented as opened by two lines; the search for it looks at the first of them alone.
`OpenedAt` says where that is, in words of its own: the lines up to the first one that reads like
the first sentinel line, and the lines from there on. `userPart_of_openedAt` says what a rewrite
keeps then, and the rest follows from it.

- `render_laidOut`: a rewrite is the text in front of the region, the line breaks that separate it,
  the two sentinel lines and the entries; and a later rewrite sees no more of the earlier one.
- `keeps_existing_iff`: in a text that never has the two sentinel lines one behind the other, a
  rewrite keeps everything exactly if the first of them stands nowhere, or the text breaks off
  inside the two lines.
-/

namespace ArtifactSync.IgnoreList

/-- A line reads like a sentinel line: carriage returns and line feeds at its end do not count. -/
def ReadsAs (sentinel line : List Char) : Prop :=
  sentinel <+: line ∧ ∀ c ∈ line.drop sentinel.length, c = '\r' ∨ c = '\n'

/-- The characters at the end are gone over one by one. -/
instance (sentinel line : List Char) : Decidable (ReadsAs sentinel line) :=
  decidable_of_iff (sentinel <+: line ∧
      (line.drop sentinel.length).all (fun c => c = '\r' || c = '\n') = true) <| by
    simp [ReadsAs]

theorem readsAs_iff {sentinel line : List Char} :
    ReadsAs sentinel line ↔ ∃ ends, line = sentinel ++ ends ∧ ∀ c ∈ ends, c = '\r' ∨ c = '\n' := by
  constructor
  · rintro ⟨⟨ends, rfl⟩, hends⟩
    exact ⟨ends, rfl, by simpa using hends⟩
  · rintro ⟨ends, rfl, hends⟩
    exact ⟨List.prefix_append _ _, by simpa using hends⟩

/-- The search opens the region at the lines that read like the first sentinel line. -/
theorem opensRegion_iff {line : List Char} :
    opensRegion line = true ↔ ReadsAs firstSentinel line := by
  let isEnd (c : Char) : Bool := c == '\n' || c == '\r'
  have hcut : (line.reverse.takeWhile isEnd) ++ line.reverse.dropWhile isEnd = line.reverse :=
    List.takeWhile_append_dropWhile
  rw [opensRegion, beq_iff_eq, readsAs_iff]
  constructor
  · intro hread
    refine ⟨(line.reverse.takeWhile isEnd).reverse, ?_, fun c hc => ?_⟩
    · rw [← hread, Text.dropEndWhile, ← List.reverse_append, hcut, List.reverse_reverse]
    · have hend : isEnd c = true := List.mem_takeWhile_imp (List.mem_reverse.mp hc)
      simpa [isEnd, or_comm] using hend
  · rintro ⟨ends, rfl, hends⟩
    have hall : ∀ c ∈ ends.reverse, isEnd c = true := fun c hc => by
      simpa [isEnd, or_comm] using hends c (List.mem_reverse.mp hc)
    -- the sentinel itself ends in a letter, so nothing of it is taken off
    have hletter : firstSentinel.reverse.dropWhile isEnd = firstSentinel.reverse := by decide
    rw [Text.dropEndWhile, List.reverse_append, List.dropWhile_append_of_pos hall, hletter,
      List.reverse_reverse]

/-- The lines of a text are `front ++ behind`, and `behind` begins with the first line that reads
like the first sentinel line. There is nothing in it if no line reads so. -/
structure OpenedAt (existing : List Char) (front behind : List (List Char)) : Prop where
  /-- The two make up the text. -/
  lines : Text.linesWithEnds existing = front ++ behind
  /-- No earlier line reads like the sentinel line. -/
  before : ∀ line ∈ front, ¬ ReadsAs firstSentinel line
  /-- The first of the later ones does. -/
  opens : ∀ line ∈ behind.head?, ReadsAs firstSentinel line

/-- Every text is cut in this way. -/
theorem exists_openedAt (existing : List Char) : ∃ front behind, OpenedAt existing front behind := by
  let lines := Text.linesWithEnds existing
  refine ⟨lines.takeWhile fun line => !opensRegion line, lines.dropWhile fun line => !opensRegion line,
    List.takeWhile_append_dropWhile.symm, fun line hline hread => ?_, fun line hline => ?_⟩
  · have hkept := List.mem_takeWhile_imp hline
    rw [opensRegion_iff.mpr hread] at hkept
    cases hkept
  · have hstop := List.head?_dropWhile_not (fun line => !opensRegion line) lines
    rw [Option.mem_def.mp hline] at hstop
    exact opensRegion_iff.mp (by simpa using hstop)

/-- How many line feeds end the last line of a text and leave a blank one behind it, at least. -/
def BlankLeft (text : List Char) (breaks : Nat) : Prop :=
  IsLeast {n | ['\n', '\n'] <:+ text ++ List.replicate n '\n'} breaks

namespace OpenedAt

variable {existing : List Char} {front behind : List (List Char)}

/-- The text is what its lines come to. -/
theorem flatten (h : OpenedAt existing front behind) :
    existing = front.flatten ++ behind.flatten := by
  rw [← List.flatten_append, ← h.lines, Text.flatten_linesWithEnds]

/-- There is only one cut. -/
theorem takeWhile_eq (h : OpenedAt existing front behind) :
    (Text.linesWithEnds existing).takeWhile (fun line => !opensRegion line) = front := by
  have hfront : ∀ line ∈ front, (!opensRegion line) = true := fun line hline => by
    simpa [← opensRegion_iff] using h.before line hline
  rw [h.lines, List.takeWhile_append_of_pos hfront]
  cases behind with
  | nil => simp
  | cons line rest =>
    have hopen : opensRegion line = true := opensRegion_iff.mpr (h.opens line rfl)
    simp [hopen]

/-- Some line opens the region exactly if there are lines behind the cut. -/
theorem any_iff (h : OpenedAt existing front behind) :
    (Text.linesWithEnds existing).any opensRegion = true ↔ behind ≠ [] := by
  constructor
  · rintro hany rfl
    obtain ⟨line, hline, hopen⟩ := List.any_eq_true.mp hany
    rw [h.lines, List.append_nil] at hline
    exact h.before line hline (opensRegion_iff.mp hopen)
  · intro hne
    obtain ⟨line, rest, rfl⟩ := List.exists_cons_of_ne_nil hne
    rw [List.any_eq_true]
    exact ⟨line, by simp [h.lines], opensRegion_iff.mpr (h.opens line rfl)⟩

/-- In front of a region a rewrite keeps what is there. -/
theorem userPart_of_ne_nil (h : OpenedAt existing front behind) (hne : behind ≠ []) :
    userPart existing = front.flatten := by
  simp only [userPart]
  rw [if_pos (h.any_iff.mpr hne), h.takeWhile_eq]

end OpenedAt

/-- A text without a region is kept, with a blank line behind it. -/
theorem userPart_of_no_region {existing : List Char} {front : List (List Char)}
    (h : OpenedAt existing front []) (hne : existing ≠ []) :
    ∃ breaks, userPart existing = existing ++ List.replicate breaks '\n' ∧
      BlankLeft existing breaks := by
  have hnone : ¬ (Text.linesWithEnds existing).any opensRegion = true := by
    rw [h.any_iff]
    exact fun hne => hne rfl
  simp only [userPart]
  rw [if_neg hnone, if_neg hne]
  by_cases htwo : ['\n', '\n'] <:+ existing
  · rw [if_pos (List.isSuffixOf_iff_suffix.mpr htwo)]
    exact ⟨0, by simp, by simpa using htwo, fun n _ => n.zero_le⟩
  rw [if_neg (mt List.isSuffixOf_iff_suffix.mp htwo)]
  have hpos {n : Nat} (hn : ['\n', '\n'] <:+ existing ++ List.replicate n '\n') : 1 ≤ n := by
    rcases n with _ | n
    · exact absurd (by simpa using hn) htwo
    · omega
  by_cases hone : existing.getLast? = some '\n'
  · rw [if_pos hone]
    obtain ⟨shorter, rfl⟩ := List.getLast?_eq_some_iff.mp hone
    exact ⟨1, rfl, ⟨shorter, by simp⟩, fun n hn => hpos hn⟩
  · rw [if_neg hone]
    refine ⟨2, rfl, ⟨existing, rfl⟩, fun n hn => ?_⟩
    have hge := hpos hn
    -- a single line feed would leave the last line's own end in front of it
    have hsingle : n ≠ 1 := by
      rintro rfl
      obtain ⟨shorter, hshorter⟩ := hn
      have hboth : shorter ++ ['\n'] ++ ['\n'] = existing ++ ['\n'] := by simpa using hshorter
      have hfront : shorter ++ ['\n'] = existing := List.append_cancel_right hboth
      exact hone (by simp [← hfront])
    omega

/-- What a rewrite keeps: the text up to the cut, with the line breaks that leave a blank line
behind it if there was no region. -/
theorem userPart_of_openedAt {existing : List Char} {front behind : List (List Char)}
    (h : OpenedAt existing front behind) :
    ∃ breaks, userPart existing = front.flatten ++ List.replicate breaks '\n' ∧
      (behind ≠ [] ∨ existing = [] → breaks = 0) ∧
      (behind = [] → existing ≠ [] → BlankLeft existing breaks) := by
  rcases eq_or_ne behind [] with rfl | hbehind
  · have hall : front.flatten = existing := by simpa using h.flatten.symm
    rcases eq_or_ne existing [] with rfl | hne
    · exact ⟨0, by rw [hall]; rfl, fun _ => rfl, fun _ hne => absurd rfl hne⟩
    · obtain ⟨breaks, hkept, hblank⟩ := userPart_of_no_region h hne
      exact ⟨breaks, by rw [hkept, hall], fun hor => absurd hor (by simp [hne]), fun _ _ => hblank⟩
  · exact ⟨0, by simp [h.userPart_of_ne_nil hbehind], fun _ => rfl, fun hnil => absurd hnil hbehind⟩

/-- A rewrite is the text in front of the first line that reads like the first sentinel line, as it
was, or all of the text if no line does; behind it line breaks, none in front of a region that was
there and behind nothing, else just those that end the last line and leave a blank one; and then
the two sentinel lines and one entry for each output. Of an earlier rewrite a later one keeps
nothing. -/
theorem render_laidOut (existing : List Char) (outputs later : List Path) :
    ∃ front behind breaks, OpenedAt existing front behind ∧
      render existing outputs =
        front.flatten ++ List.replicate breaks '\n' ++
          (firstSentinel ++ ['\n'] ++ (secondSentinel ++ ['\n']) ++
            outputs.flatMap fun p => entry p.toSlash ++ ['\n']) ∧
      (behind ≠ [] ∨ existing = [] → breaks = 0) ∧
      (behind = [] → existing ≠ [] → BlankLeft existing breaks) ∧
      render (render existing outputs) later = render existing later := by
  obtain ⟨front, behind, hopened⟩ := exists_openedAt existing
  obtain ⟨breaks, hkept, hnone, hblank⟩ := userPart_of_openedAt hopened
  have hregion : region outputs = firstSentinel ++ ['\n'] ++ (secondSentinel ++ ['\n']) ++
      outputs.flatMap fun p => entry p.toSlash ++ ['\n'] := by
    simp [region]
  have hrender : render existing outputs = front.flatten ++ List.replicate breaks '\n' ++
      region outputs := by
    rw [render, hkept]
  exact ⟨front, behind, breaks, hopened, hregion ▸ hrender, hnone, hblank,
    render_of_render existing outputs later⟩

/-- The two sentinel lines stand in a text, the second one right behind the first. -/
def HoldsSentinel (existing : List Char) : Prop :=
  ∃ pair ∈ (Text.linesWithEnds existing).zip (Text.linesWithEnds existing).tail,
    ReadsAs firstSentinel pair.1 ∧ ReadsAs secondSentinel pair.2

instance (existing : List Char) : Decidable (HoldsSentinel existing) :=
  inferInstanceAs (Decidable (∃ pair ∈ List.zip _ _, _ ∧ _))

/-- Two lines of which one follows the other are found as a pair. -/
theorem mem_zip_tail {α : Type} (front behind : List α) (first second : α) :
    (first, second) ∈
      (front ++ first :: second :: behind).zip (front ++ first :: second :: behind).tail := by
  induction front with
  | nil => exact List.mem_cons_self
  | cons a front ih =>
    cases front with
    | nil => exact List.mem_cons_of_mem _ List.mem_cons_self
    | cons b front => exact List.mem_cons_of_mem _ ih

/-- The two sentinel lines as they are written, the end of the second one left off. -/
def sentinel : List Char :=
  firstSentinel ++ ['\n'] ++ secondSentinel

theorem region_eq (outputs : List Path) :
    region outputs = sentinel ++
      '\n' :: outputs.flatMap fun p => entry p.toSlash ++ ['\n'] := by
  simp [region, sentinel]

/-- Where the first line stands in full at the beginning of a line, and the second one right behind it
with nothing but line breaks at its end, both are found. -/
theorem holdsSentinel_of_lines {front behind ends rest : List Char}
    (hfront : front = [] ∨ front.getLast? = some '\n')
    (hends : Text.linesWithEnds (secondSentinel ++ behind) =
      (secondSentinel ++ ends) :: Text.linesWithEnds rest)
    (hall : ∀ c ∈ ends, c = '\r' ∨ c = '\n') : HoldsSentinel (front ++ (sentinel ++ behind)) := by
  have hfirst : Text.linesWithEnds (firstSentinel ++ ['\n']) = [firstSentinel ++ ['\n']] := by decide
  have hreads : ReadsAs firstSentinel (firstSentinel ++ ['\n']) := by decide
  have hcut : Text.linesWithEnds (front ++ (sentinel ++ behind)) = Text.linesWithEnds front ++
      (firstSentinel ++ ['\n']) :: (secondSentinel ++ ends) :: Text.linesWithEnds rest := by
    rw [sentinel, List.append_assoc (firstSentinel ++ ['\n']), Text.linesWithEnds_append hfront,
      Text.linesWithEnds_append (.inr (by simp)), hfirst, hends]
    rfl
  refine ⟨(firstSentinel ++ ['\n'], secondSentinel ++ ends), ?_, hreads,
    readsAs_iff.mpr ⟨ends, rfl, hall⟩⟩
  rw [hcut]
  exact mem_zip_tail _ _ _ _

/-- So they are where the text ends behind them or goes on with a line break. -/
theorem holdsSentinel_of_append {front behind : List Char}
    (hfront : front = [] ∨ front.getLast? = some '\n')
    (hbehind : behind = [] ∨ behind.head? = some '\n') :
    HoldsSentinel (front ++ (sentinel ++ behind)) := by
  cases behind with
  | nil =>
    have hlast : Text.linesWithEnds (secondSentinel ++ []) =
        (secondSentinel ++ []) :: Text.linesWithEnds [] := by decide
    exact holdsSentinel_of_lines hfront hlast (by simp)
  | cons c rest =>
    obtain rfl : c = '\n' := by simpa using hbehind
    have hsecond : Text.linesWithEnds (secondSentinel ++ ['\n']) = [secondSentinel ++ ['\n']] := by
      decide
    have hends : Text.linesWithEnds (secondSentinel ++ '\n' :: rest) =
        (secondSentinel ++ ['\n']) :: Text.linesWithEnds rest := by
      rw [List.append_cons, Text.linesWithEnds_append (.inr (by simp)), hsecond]
      rfl
    exact holdsSentinel_of_lines hfront hends (by simp)

/-- A rewrite drops nothing exactly if what stands from the cut on is written again. -/
theorem prefix_render_iff {existing : List Char} {front behind : List (List Char)}
    (h : OpenedAt existing front behind) (outputs : List Path) :
    existing <+: render existing outputs ↔ behind.flatten <+: region outputs := by
  rcases eq_or_ne behind [] with rfl | hbehind
  · obtain ⟨breaks, hkept, -, -⟩ := userPart_of_openedAt h
    have hall : front.flatten = existing := by simpa using h.flatten.symm
    have hprefix : existing <+: render existing outputs := by
      rw [render, hkept, hall, List.append_assoc]
      exact List.prefix_append _ _
    simpa using hprefix
  · rw [render, h.userPart_of_ne_nil hbehind]
    conv_lhs => rw [h.flatten]
    exact List.prefix_append_right_inj _

/-- In a text that never has the two sentinel lines one behind the other, a rewrite keeps the whole
text as it was exactly if no line reads like the first of them, or all that stands from the first
such line on is a beginning of the two. -/
theorem keeps_existing_iff {existing : List Char} (h : ¬ HoldsSentinel existing)
    (outputs : List Path) :
    existing <+: render existing outputs ↔
      ∃ front behind, OpenedAt existing front behind ∧ behind.flatten <+: sentinel := by
  have hsentinel : sentinel <+: region outputs := region_eq outputs ▸ List.prefix_append _ _
  constructor
  · intro hkept
    obtain ⟨front, behind, hopened⟩ := exists_openedAt existing
    refine ⟨front, behind, hopened, ?_⟩
    have hagain := (prefix_render_iff hopened outputs).mp hkept
    rcases List.prefix_or_prefix_of_prefix hagain hsentinel with hshort | ⟨more, hmore⟩
    · exact hshort
    -- the text goes on behind the two lines as the region does, so it has both of them
    rw [← hmore, region_eq] at hagain
    have hgoesOn := (List.prefix_append_right_inj sentinel).mp hagain
    have hne : behind ≠ [] := by
      intro hnil
      have hnone : sentinel ++ more = [] := by rw [hmore, hnil, List.flatten_nil]
      exact absurd (List.append_eq_nil_iff.mp hnone).1 (by decide +kernel)
    have hfront := userPart_ends existing
    rw [hopened.userPart_of_ne_nil hne] at hfront
    have hmoreEnds : more = [] ∨ more.head? = some '\n' := by
      cases more with
      | nil => exact .inl rfl
      | cons c more => exact .inr (by rw [(List.cons_prefix_cons.mp hgoesOn).1]; rfl)
    have hholds := holdsSentinel_of_append hfront hmoreEnds
    rw [hmore, ← hopened.flatten] at hholds
    exact absurd hholds h
  · rintro ⟨front, behind, hopened, hshort⟩
    exact (prefix_render_iff hopened outputs).mpr (hshort.trans hsentinel)

/-- The lines in the wrong order, the first one at the end of the text: all of it is kept. -/
theorem keeps_existing_swapped :
    ¬ HoldsSentinel "# Do not edit below this line\n# Generated by Civetman".toList ∧
      "# Do not edit below this line\n# Generated by Civetman".toList <+:
        render "# Do not edit below this line\n# Generated by Civetman".toList [⟨"a.ts".toList⟩] := by
  have hnone :
      ¬ HoldsSentinel "# Do not edit below this line\n# Generated by Civetman".toList := by
    decide +kernel
  refine ⟨hnone, (keeps_existing_iff hnone _).mpr
    ⟨["# Do not edit below this line\n".toList], ["# Generated by Civetman".toList], ?_, ?_⟩⟩
  · have hread : ReadsAs firstSentinel "# Generated by Civetman".toList := by decide +kernel
    exact ⟨by decide +kernel, List.forall_mem_singleton.mpr (by decide +kernel),
      fun line hline => Option.mem_some.mp hline ▸ hread⟩
  · decide +kernel

/-- A text in which the first sentinel line stands alone loses the user's rule behind it. -/
theorem not_keeps_existing_alone :
    ¬ ∀ (existing : List Char) (outputs : List Path), ¬ HoldsSentinel existing →
      existing <+: render existing outputs := by
  intro hkeeps
  have hkept := hkeeps "# Generated by Civetman\nnode_modules/\n".toList [⟨"a.ts".toList⟩]
    (by decide +kernel)
  revert hkept
  decide +kernel

end ArtifactSync.IgnoreList
