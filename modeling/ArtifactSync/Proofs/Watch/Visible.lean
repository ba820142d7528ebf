import ArtifactSync.Proofs.Disk.Resolve
import ArtifactSync.Proofs.Watch.Normalize

/-!
# Files that discovery and the watcher see

Discovery asks the excludes about every directory on the way to a file and about the file, and the
watcher asks them about the file alone (`discovered_iff`, `addedBy_create_iff`). So the two agree
about a file exactly when the excludes leave the file out, or the walk goes through and they let in
every directory on the way. A pattern that takes a file back in below an excluded directory parts
them.
-/

namespace ArtifactSync

open Path

/-- Discovery finds a path. -/
def Discovered (d : Disk) (root : Path) (x : Excludes) (p : Path) : Prop :=
  ∃ found, Discovery.sources d root x = .ok found ∧ p ∈ found

/-- A watcher's event adds a path. -/
def AddedBy (e : WatcherEvent) (d : Disk) (root : Path) (x : Excludes) (p : Path) : Prop :=
  ∃ changes, e.normalize d root x = .ok changes ∧ ⟨.add, p⟩ ∈ changes

open Artifact

section Visible

variable {root : Path} {x : Excludes} {d : Disk} {tree : Node} {names : List Name}
  (hroot : root.isRooted = true) (hx : x.root.head? = some '/') (htree : d.stat root = .ok tree)
  (proper : tree.Proper) (hfile : tree.HasFile names) (hs : isSource (ofNames names) = true)
include hroot hx htree proper hfile hs

omit hroot hx htree proper hfile in
/-- A source has a name. -/
theorem names_ne_nil_of_isSource : names ≠ [] := by
  rintro rfl
  exact chars_ne_nil_of_isSource hs rfl

/-- Discovery finds a file when it goes through and nothing on the way to the file is excluded. -/
theorem discovered_iff : Discovered d root x (ofNames names) ↔
    (∃ found, Discovery.sources d root x = .ok found) ∧ ∀ front behind, names = front ++ behind →
      front ≠ [] → x.verdict (ofNames front) (!behind.isEmpty) = false := by
  constructor
  · rintro ⟨found, hfound, hmem⟩
    exact ⟨⟨found, hfound⟩,
      (Discovery.mem_sources_iff hroot hx htree proper hfound hfile hs).mp hmem⟩
  · rintro ⟨⟨found, hfound⟩, hverdicts⟩
    exact ⟨found, hfound,
      (Discovery.mem_sources_iff hroot hx htree proper hfound hfile hs).mpr hverdicts⟩

/-- A watcher's event adds a file when the file is not excluded. -/
theorem addedBy_create_iff :
    AddedBy ⟨.create, [root.join (ofNames names)]⟩ d root x (ofNames names) ↔
      x.verdict (ofNames names) false = false := by
  have hne := names_ne_nil_of_isSource hs
  have htidy := tidy_ofNames (hfile.isName proper) hne
  have hnormalize : WatcherEvent.normalize d root x ⟨.create, [root.join (ofNames names)]⟩ =
      .ok (if x.verdict (ofNames names) false = true then [] else [⟨.add, ofNames names⟩]) :=
    WatcherEvent.normalize_tidy hx rfl (relativeTo_join hroot htidy) htidy fun _ =>
      Disk.isDir_join hroot htree proper hfile hne
  unfold AddedBy
  rw [hnormalize]
  cases x.verdict (ofNames names) false <;> simp

end Visible

/-- Discovery and a watcher that reports a file as created agree about the file exactly when the
excludes leave it out, or when discovery goes through and they let in every directory on the way to
the file. -/
theorem visible_iff {root : Path} {patterns : List String} {x : Excludes} {d : Disk} {tree : Node}
    {names : List Name} (hx : Excludes.ofPatterns root patterns = .ok x)
    (hroot : root.isRooted = true) (htree : d.stat root = .ok tree) (proper : tree.Proper)
    (hfile : tree.HasFile names) (hs : isSource (ofNames names) = true) :
    (Discovered d root x (ofNames names) ↔
        AddedBy ⟨.create, [root.join (ofNames names)]⟩ d root x (ofNames names)) ↔
      (x.isExcluded (ofNames names) false = .ok true ∨
        ((∃ found, Discovery.sources d root x = .ok found) ∧
          ∀ front behind, names = front ++ behind → front ≠ [] → behind ≠ [] →
            x.isExcluded (ofNames front) true = .ok false)) := by
  have hxroot := Excludes.head_ofPatterns hx hroot
  have hne := names_ne_nil_of_isSource hs
  have hverdict {front : List Name} (hnames : ∀ n ∈ front, IsName n) (hfront : front ≠ [])
      (isDir : Bool) : x.isExcluded (ofNames front) isDir = .ok (x.verdict (ofNames front) isDir) :=
    Excludes.isExcluded_tidy hxroot (tidy_ofNames hnames hfront) isDir
  rw [discovered_iff hroot hxroot htree proper hfile hs,
    addedBy_create_iff hroot hxroot htree proper hfile hs,
    hverdict (hfile.isName proper) hne false, Except.ok.injEq]
  by_cases hout : x.verdict (ofNames names) false = true
  · -- the file is excluded, so neither sees it
    have hnot : ¬∀ front behind, names = front ++ behind → front ≠ [] →
        x.verdict (ofNames front) (!behind.isEmpty) = false := by
      intro h
      have hself := h names [] (by simp) hne
      rw [List.isEmpty_nil, Bool.not_true, hout] at hself
      cases hself
    simp [hout, hnot]
  · have hin : x.verdict (ofNames names) false = false := by simpa using hout
    -- the watcher sees the file, so what counts are the directories on the way
    have hway : (∀ front behind, names = front ++ behind → front ≠ [] →
          x.verdict (ofNames front) (!behind.isEmpty) = false) ↔
        ∀ front behind, names = front ++ behind → front ≠ [] → behind ≠ [] →
          x.isExcluded (ofNames front) true = .ok false := by
      refine forall₂_congr fun front behind => forall₂_congr fun heq hfront => ?_
      have hnames : ∀ n ∈ front, IsName n := fun n hn =>
        hfile.isName proper n (by rw [heq]; exact List.mem_append_left _ hn)
      rw [hverdict hnames hfront]
      by_cases hbehind : behind = []
      · rw [hbehind, List.append_nil] at heq
        subst heq
        simp [hbehind, hin]
      · have hsome : (!behind.isEmpty) = true := by simpa using hbehind
        rw [hsome]
        simp [hbehind]
    rw [hway, hin]
    simp

/-- The files of a project with one source in a directory. -/
def vendorTree : Node :=
  .dir [("vendor".toList, .dir [("keep.civet".toList, .file [] 0o644)] 0o755)] 0o755

/-- A disk that holds the project. -/
def vendorDisk : Disk :=
  ⟨.dir [("p".toList, vendorTree)] 0o755, []⟩

/-- The tree of the project is a proper one. -/
theorem proper_vendorTree : vendorTree.Proper := by
  refine .dir (by decide) (List.pairwise_singleton ..) fun e he => ?_
  rw [List.mem_singleton] at he
  subst he
  refine .dir (by decide) (List.pairwise_singleton ..) fun e he => ?_
  rw [List.mem_singleton] at he
  subst he
  exact .file _ _

/-- The source of the project. -/
theorem hasFile_vendorTree : vendorTree.HasFile ["vendor".toList, "keep.civet".toList] :=
  .inside (.head _) (.inside (.head _) (.here _ _))

/-- Without patterns, discovery and the watcher agree about the source. -/
theorem visible_without_patterns :
    Discovered vendorDisk (.ofString "/p") ⟨"/p".toList, []⟩
        (ofNames ["vendor".toList, "keep.civet".toList]) ↔
      AddedBy ⟨.create, [(Path.ofString "/p").join (ofNames ["vendor".toList, "keep.civet".toList])]⟩
        vendorDisk (.ofString "/p") ⟨"/p".toList, []⟩
        (ofNames ["vendor".toList, "keep.civet".toList]) := by
  have hx : Excludes.ofPatterns (.ofString "/p") [] = .ok ⟨"/p".toList, []⟩ := rfl
  refine (visible_iff hx (by decide) rfl proper_vendorTree hasFile_vendorTree (by decide)).mpr
    (.inr ⟨?_, ?_⟩)
  · exact ⟨[.ofString "vendor/keep.civet"], by decide +kernel⟩
  · intro front behind _ _ _
    rfl

/-- A pattern that takes a source back in below an excluded directory shows it to the watcher and
not to discovery. -/
theorem not_visible_keep :
    ∃ x, Excludes.ofPatterns (.ofString "/p") ["vendor/", "!vendor/keep.civet"] = .ok x ∧
      ¬(Discovered vendorDisk (.ofString "/p") x (.ofString "vendor/keep.civet") ↔
        AddedBy ⟨.create, [.ofString "/p/vendor/keep.civet"]⟩ vendorDisk (.ofString "/p") x
          (.ofString "vendor/keep.civet")) := by
  have hrun : (Excludes.ofPatterns (.ofString "/p") ["vendor/", "!vendor/keep.civet"]).toOption.map
      (fun x => (Discovery.sources vendorDisk (.ofString "/p") x,
        WatcherEvent.normalize vendorDisk (.ofString "/p") x
          ⟨.create, [.ofString "/p/vendor/keep.civet"]⟩)) =
      some (.ok [], .ok [⟨.add, .ofString "vendor/keep.civet"⟩]) := by decide +kernel
  cases hx : Excludes.ofPatterns (.ofString "/p") ["vendor/", "!vendor/keep.civet"] with
  | error e =>
    rw [hx] at hrun
    cases hrun
  | ok x =>
    rw [hx] at hrun
    obtain ⟨hfound, hchanges⟩ := Prod.mk.inj (Option.some.inj hrun)
    refine ⟨x, rfl, fun h => ?_⟩
    obtain ⟨found, hfound', hmem⟩ := h.mpr ⟨_, hchanges, by simp⟩
    rw [hfound] at hfound'
    cases hfound'
    cases hmem

end ArtifactSync
