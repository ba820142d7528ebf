import ArtifactSync.Proofs.SideFile.EditorExclude
import ArtifactSync.Proofs.SideFile.IgnoreList
import ArtifactSync.SideFile.Basic

/-!
# What rewrites leave in a side file

A rewrite leaves in a side file what rendering makes of the text before, and leaves the file alone
if it cannot be rendered (`SideFileKind.left`). That a file cannot be rendered does not depend on the
outputs, so of several rewrites only the last one counts (`left_left`), in a file that there was as
in one that there was not.
-/

namespace ArtifactSync.SideFileKind

open EditorExclude

/-- What a rewrite for some outputs leaves in a side file, given what the file held before. -/
def left (kind : SideFileKind) (before : Option String) (outputs : List Path) : Option String :=
  match kind.render (before.getD "") outputs with
  | .ok text => some text
  | .error _ => before

/-- An ignore list is always rewritten. -/
theorem left_ignoreList (before : Option String) (outputs : List Path) :
    ignoreList.left before outputs =
      some (String.ofList (IgnoreList.render (before.getD "").toList outputs)) := rfl

/-- Settings that can be rewritten are. -/
theorem left_of_render {before : Option String} {outputs : List Path} {text : List Char}
    (h : EditorExclude.render (before.getD "").toList outputs = .ok text) :
    editorExclude.left before outputs = some (String.ofList text) := by
  simp [left, SideFileKind.render, h, Except.map]

/-- Settings that cannot be rewritten are left alone. -/
theorem left_of_error {before : Option String} {outputs : List Path} {message : String}
    (h : EditorExclude.render (before.getD "").toList outputs = .error message) :
    editorExclude.left before outputs = before := by
  simp [left, SideFileKind.render, h, Except.map]

/-- Of two rewrites for artifacts only the last one counts. -/
theorem left_left (kind : SideFileKind) (before : Option String) {outputs later : List Path}
    (houtputs : Listable (outputs.map Path.toSlash)) (hlater : Listable (later.map Path.toSlash)) :
    kind.left (kind.left before outputs) later = kind.left before later := by
  cases kind with
  | ignoreList =>
    simp only [left_ignoreList, Option.getD_some, String.toList_ofList,
      IgnoreList.render_of_render]
  | editorExclude =>
    rcases hfirst : EditorExclude.render (before.getD "").toList outputs with message | text
    · rw [left_of_error hfirst]
    · have hagain := render_of_render houtputs hlater hfirst
      rw [left_of_render hfirst]
      rcases hsecond : EditorExclude.render (before.getD "").toList later with message | text'
      · -- what cannot be rewritten for some outputs cannot be for others
        obtain ⟨message', herror⟩ := (exists_error_iff _ outputs).mpr
          ((exists_error_iff _ later).mp ⟨message, hsecond⟩)
        rw [hfirst] at herror
        cases herror
      · rw [left_of_render hsecond]
        refine left_of_render ?_
        rw [Option.getD_some, String.toList_ofList, hagain, hsecond]

/-- The settings that an empty project writes into a file of its own. -/
def emptySettings : String :=
  String.ofList (freshSettings [])

/-- A file of its own and a rewrite of the settings of an empty project agree only on outputs that
can be listed as they are: the rewrite lists the others again. -/
theorem listable_of_left_eq {outputs : List Path}
    (h : editorExclude.left (some emptySettings) outputs = editorExclude.left none outputs) :
    Listable (outputs.map Path.toSlash) := by
  have hfits : (freshPlace []).Fits := fits_freshPlace_nil
  have hempty : Listable [] := ⟨List.nodup_nil, by simp⟩
  have hagain : EditorExclude.render ((some emptySettings).getD "").toList outputs =
      .ok ((freshPlace []).fill (excludeObject [] (outputs.map Path.toSlash))).text := by
    rw [Option.getD_some, emptySettings, String.toList_ofList, freshSettings_eq hempty]
    exact hfits.render_excludeObject (by simp [Kept]) [] outputs
  have hfresh : EditorExclude.render ((none : Option String).getD "").toList outputs =
      .ok ((freshPlace []).fill (excludeObject [] (listed (outputs.map Path.toSlash)))).text := by
    rw [← freshSettings_listed]
    rfl
  rw [left_of_render hagain, left_of_render hfresh, Option.some.injEq] at h
  have htext := congrArg String.toList h
  rw [String.toList_ofList, String.toList_ofList] at htext
  rw [hfits.names_eq htext]
  exact listable_listed _

end ArtifactSync.SideFileKind
