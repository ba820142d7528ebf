import ArtifactSync.Proofs.Discovery.Listed
import ArtifactSync.Proofs.Watch.Normalize

/-!
# The excludes answer every question of a watcher's event

The matcher of the excludes cuts the text of its root off a path and refuses what is still rooted
(`Excludes.Takes`). It works on texts, while a path is seen from a root by its components, so what
matters is the spelling that is left: it is empty, in which case nobody asks about it, or tidy, and a
tidy path has no text in front that the matcher could cut off (`Excludes.takes_tidy`). Hence every
event stands for some changes, however its paths are spelled, and every change names a tidy path
(`normalize_answered`).
-/

namespace ArtifactSync

open Path

/-- The matcher takes a path: it is not rooted once the texts in front have been cut off. -/
def Excludes.Takes (x : Excludes) (p : Path) : Prop :=
  (Path.mk (x.strip p.chars)).isRooted = false

/-- A matcher with a rooted root takes every tidy path. -/
theorem Excludes.takes_tidy {x : Excludes} {p : Path} (hx : x.root.head? = some '/') (h : p.Tidy) :
    x.Takes p := by
  rw [Takes, strip_tidy hx h]
  exact h.isRooted

/-- A tidy path has no leading `.`. -/
theorem Path.Tidy.head_ne_here {p : Path} (h : p.Tidy) : p.components.head? ≠ some .here :=
  fun hhead => (h.ne_here_of_mem (List.mem_of_head? hhead)).1 rfl

section Rooted

variable {d : Disk} {root : Path} {x : Excludes} (hroot : root.isRooted = true)
include hroot

/-- A source that is found in a directory strictly below the root is not the root itself. -/
theorem Discovery.ne_nil_of_mem_walkFrom (proper : d.top.Proper) {start p : Path}
    (hstart : start.stripPrefix? root = some p) (hne : p.chars ≠ []) {found : List Path}
    (h : walkFrom d root start x = .ok found) {s : Path} (hs : s ∈ found) : s.chars ≠ [] := by
  have hrootne := chars_ne_nil_of_isRooted hroot
  obtain ⟨node, hnode⟩ : ∃ node, d.stat start = .ok node := by
    unfold walkFrom at h
    split at h
    · cases h
    · next node hnode => exact ⟨node, hnode⟩
  obtain ⟨place, hplace⟩ := Disk.exists_at_of_stat hnode
  obtain ⟨files, hfiles, hmem⟩ := mem_walkFrom_iff hnode h
  obtain ⟨q, hq, -, hstrip⟩ := (hmem s).mp hs
  obtain ⟨names, hfile, rfl, -⟩ := (mem_filesIn_iff hfiles).mp hq
  have hnames := hfile.isName (proper.at hplace)
  -- the components of the directory and the names behind it all stand behind those of the root
  have hbehind : s.components = p.components ++ names.map .name := by
    have hjoined : (start.joinAll names).components = start.components ++ names.map .name := by
      by_cases hnil : names = []
      · simp [hnil, joinAll]
      · rw [joinAll_eq hnames hnil, components_join (chars_ne_nil_of_stat hnode)
          (isRooted_ofNames hnames), steps_eq (isRooted_ofNames hnames), components_ofNames hnames]
        simp
    rw [components_stripPrefix hrootne hstrip, components_stripPrefix hrootne hstart,
      List.append_assoc] at hjoined
    exact List.append_cancel_left hjoined
  have hp := ((stripPrefix_tidy hrootne hstart).resolve_left hne).components_ne_nil
  intro hnil
  rw [show s = ⟨[]⟩ from congrArg Path.mk hnil] at hbehind
  exact hp (List.append_eq_nil_iff.mp hbehind.symm).1

variable (hx : x.root.head? = some '/') (proper : d.top.Proper)
include hx proper

/-- Every change that an event stands for names a tidy path. -/
theorem WatcherEvent.tidy_of_mem_normalize {e : WatcherEvent} {changes : List Change}
    (h : e.normalize d root x = .ok changes) {c : Change} (hc : c ∈ changes) : c.path.Tidy := by
  obtain ⟨⟨kind, path⟩, -, own, hown, hc⟩ := (mem_changesOfAll_iff h).mp hc
  rcases mem_changesOf hroot hx hown hc with
    ⟨-, htidy, -⟩ | ⟨⟨p, hp, hne⟩, hdir, -, found, hfound, hmem⟩
  · exact htidy
  · obtain ⟨q, -, hstrip, -⟩ := Discovery.verdict_of_mem_walkFrom hroot hx hfound hdir hmem
    exact (stripPrefix_tidy (chars_ne_nil_of_isRooted hroot) hstrip).resolve_left
      (Discovery.ne_nil_of_mem_walkFrom hroot proper hp hne hfound hmem)

end Rooted

/-- In a project with a rooted root, with excludes made from any patterns for this root or another
rooted one, the matcher takes every path that an event and the walks it leads to ask about, however
the paths are spelled. So every event stands for some changes, and each of them names a path that is
not empty and has no leading `.`. -/
theorem WatcherEvent.normalize_answered {base root : Path} {patterns : List String} {x : Excludes}
    {d : Disk} (hx : Excludes.ofPatterns base patterns = .ok x) (hbase : base.isRooted = true)
    (hroot : root.isRooted = true) (proper : d.top.Proper) (e : WatcherEvent) :
    (∀ path p : Path, root.relativeTo? path = some p → p.chars ≠ [] → x.Takes p) ∧
      (∀ path p : Path, path.stripPrefix? root = some p → p.chars ≠ [] → x.Takes p) ∧
      ∃ changes, e.normalize d root x = .ok changes ∧
        ∀ c ∈ changes, c.path.chars ≠ [] ∧ c.path.components.head? ≠ some .here := by
  have hxroot := Excludes.head_ofPatterns hx hbase
  refine ⟨fun path p hp hne => ?_, fun path p hp hne => ?_, ?_⟩
  · exact Excludes.takes_tidy hxroot ((relativeTo_tidy hroot hp).resolve_left hne)
  · have htidy := stripPrefix_tidy (chars_ne_nil_of_isRooted hroot) hp
    exact Excludes.takes_tidy hxroot (htidy.resolve_left hne)
  · obtain ⟨changes, hchanges⟩ := normalize_ok hroot hxroot (d := d) e
    refine ⟨changes, hchanges, fun c hc => ?_⟩
    have htidy := tidy_of_mem_normalize hroot hxroot proper hchanges hc
    exact ⟨htidy.chars_ne_nil, htidy.head_ne_here⟩

/-- An event whose paths are spelled in every way: the root, a directory that appears, a file
outside, and names behind `.` and doubled separators. -/
def spelledEvent : WatcherEvent :=
  ⟨.create, [.ofString "/p/.", .ofString "//p/.//a/", .ofString "/q/x.civet",
    .ofString ".//.//p/x.civet", .ofString "/p//..//./y.civet"]⟩

/-- The changes that this event stands for in a project. -/
theorem WatcherEvent.normalize_answered_spelled :
    ∃ x, Excludes.ofPatterns (.ofString "/p") ["out/"] = .ok x ∧
      (Path.ofString "/p").isRooted = true ∧ Discovery.mixedDisk.top.Proper ∧
      x.Takes (.ofString "p/x.civet") ∧ x.Takes (.ofString "..//./y.civet") ∧
      spelledEvent.normalize Discovery.mixedDisk (.ofString "/p") x =
        .ok [⟨.add, .ofString "a/b.civet"⟩, ⟨.add, .ofString "p/x.civet"⟩,
          ⟨.add, .ofString "..//./y.civet"⟩] ∧
      ∀ c ∈ [Change.mk .add (.ofString "a/b.civet"), ⟨.add, .ofString "p/x.civet"⟩,
          ⟨.add, .ofString "..//./y.civet"⟩],
        c.path.chars ≠ [] ∧ c.path.components.head? ≠ some .here := by
  have hrun : (Excludes.ofPatterns (.ofString "/p") ["out/"]).toOption.map
      (spelledEvent.normalize Discovery.mixedDisk (.ofString "/p")) =
      some (.ok [⟨.add, .ofString "a/b.civet"⟩, ⟨.add, .ofString "p/x.civet"⟩,
          ⟨.add, .ofString "..//./y.civet"⟩]) := by decide +kernel
  obtain ⟨x, hx, hnormal⟩ := exists_ok_of_map hrun
  have hroot : (Path.ofString "/p").isRooted = true := by decide
  obtain ⟨hevent, hwalk, changes, hchanges, hnames⟩ :=
    normalize_answered hx hroot hroot Discovery.proper_mixedDisk spelledEvent
  rw [hnormal] at hchanges
  cases hchanges
  exact ⟨x, hx, hroot, Discovery.proper_mixedDisk,
    hevent (.ofString ".//.//p/x.civet") _ (by decide) (by decide),
    hwalk (.ofString "/p//..//./y.civet") _ (by decide) (by decide), hnormal, hnames⟩

end ArtifactSync
