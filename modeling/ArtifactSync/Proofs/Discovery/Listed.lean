import ArtifactSync.Proofs.Discovery.Order
import ArtifactSync.Proofs.Disk.Later

/-!
# What discovery lists

Discovery lists the visible sources of a project in the order of their paths: every file with the
extension of sources that no link leads to, unless the excludes leave out the file itself or a
directory on the way to it (`sources_visible`).
-/

namespace ArtifactSync

open Path

/-- A result that shows something is there. -/
theorem exists_ok_of_map {ε α β : Type} {result : Except ε α} {shown : α → β} {b : β}
    (h : result.toOption.map shown = some b) : ∃ a, result = .ok a ∧ shown a = b := by
  cases result with
  | error e => cases h
  | ok a => exact ⟨a, rfl, Option.some.inj h⟩

namespace Discovery

/-- A walk in a directory lists sources in the order of their paths. -/
theorem SeenAt.pairwise_walkFrom {d : Disk} {root start : Path} {x : Excludes} {names : List Name}
    {node : Node} {found : List Path} (hseen : SeenAt root start names)
    (hnames : ∀ n ∈ names, IsName n) (hnode : d.stat start = .ok node) (hdir : node.isDir = true)
    (proper : node.Proper) (ordered : node.Ordered) (h : walkFrom d root start x = .ok found) :
    found.Pairwise before := by
  unfold walkFrom at h
  rw [hnode] at h
  simp only at h
  cases hfiles : filesIn (leavesOut root x) (fun path => refusal root path .access) true start
    node with
  | error e => rw [hfiles] at h; cases h
  | ok files =>
    obtain ⟨rows, hrows⟩ := exists_rows proper ordered hfiles
    have hwalk := hrows.walks _ (fun path => refusal root path .access) start fun _ _ _ _ => rfl
    rw [hfiles, Except.ok.injEq] at hwalk
    rw [hfiles] at h
    cases h
    subst hwalk
    have hrowNames {row : List Name} (hrow : row ∈ rows) : row ≠ [] ∧ ∀ n ∈ row, IsName n := by
      have hfile := hrows.files row hrow
      refine ⟨?_, hfile.isName proper⟩
      rintro rfl
      cases hfile
      cases hdir
    -- what is found are the rows behind the names of the directory, which keeps their order
    rw [List.pairwise_filterMap]
    refine List.Pairwise.filter _ (List.pairwise_map.mpr ?_)
    refine hrows.increasing.imp_of_mem fun {a b} ha hb hlt p hp q hq => ?_
    obtain ⟨hane, haNames⟩ := hrowNames ha
    obtain ⟨hbne, hbNames⟩ := hrowNames hb
    rw [hseen a hane haNames, Option.some.injEq] at hp
    rw [hseen b hbne hbNames, Option.some.injEq] at hq
    rw [← hp, ← hq]
    exact (before_ofNames_append hnames haNames hbNames).mpr hlt

section Root

variable {d : Disk} {root : Path} {x : Excludes}

/-- No walk in a directory is refused an answer about what stands there. -/
theorem SeenAt.walkFrom_ne_rooted {start : Path} {names : List Name} {node : Node}
    (hseen : SeenAt root start names) (hnames : ∀ n ∈ names, IsName n)
    (hnode : d.stat start = .ok node) (proper : node.Proper) (e : RootedPath) :
    walkFrom d root start x ≠ .error (.rooted e) := by
  intro h
  unfold walkFrom at h
  rw [hnode] at h
  simp only at h
  cases hfiles : filesIn (leavesOut root x) (fun path => refusal root path .access) true start
    node with
  | ok files => rw [hfiles] at h; cases h
  | error e' =>
    rw [hfiles] at h
    cases h
    rcases filesIn_error hfiles with ⟨p, hp⟩ | ⟨below, isDir, hne, hbelow, hout⟩
    · cases hp
    · -- the excludes are asked about a row of names, and such a row they never refuse
      have hall := List.forall_mem_append.mpr ⟨hnames, hbelow proper⟩
      obtain ⟨v, hv⟩ := Excludes.isExcluded_ofNames hall x isDir
      rw [(hseen.leavesOut_iff hnames hne (hbelow proper)).mpr hv] at hout
      cases hout

/-- The tree has a source under some names, and the excludes leave out neither the file nor a
directory on the way to it. -/
structure Visible (x : Excludes) (tree : Node) (names : List Name) : Prop where
  file : tree.HasFile names
  source : Artifact.isSource (ofNames names) = true
  itself : x.isExcluded (ofNames names) false = .ok false
  above : ∀ front behind, names = front ++ behind → front ≠ [] → behind ≠ [] →
    x.isExcluded (ofNames front) true = .ok false

/-- What is visible in a project are the sources along whose names no test leaves anything out. -/
theorem visible_iff_passes {tree : Node} (hroot : root.chars ≠ []) (proper : tree.Proper)
    {names : List Name} (hne : names ≠ []) : Visible x tree names ↔ tree.HasFile names ∧
      Artifact.isSource (ofNames names) = true ∧ Passes (leavesOut root x) root names := by
  have hpasses (hfile : tree.HasFile names) :=
    (seenAt_root hroot).passes_iff (x := x) (by simp) (hfile.isName proper)
  constructor
  · intro h
    refine ⟨h.file, h.source, (hpasses h.file).mpr fun front behind heq hfront => ?_⟩
    cases behind with
    | nil =>
      rw [List.append_nil] at heq
      subst heq
      exact h.itself
    | cons next rest => exact h.above front (next :: rest) heq hfront (by simp)
  · rintro ⟨hfile, hsource, hp⟩
    have hin := (hpasses hfile).mp hp
    refine ⟨hfile, hsource, hin names [] (by simp) hne, fun front behind heq hfront hbehind => ?_⟩
    cases behind with
    | nil => exact absurd rfl hbehind
    | cons next rest => exact hin front (next :: rest) heq hfront

/-- What is found is visible, and what is visible is found. -/
theorem mem_sources_iff_visible {tree : Node} {found : List Path} (htree : d.stat root = .ok tree)
    (proper : tree.Proper) (h : sources d root x = .ok found) {s : Path} :
    s ∈ found ↔ ∃ names, Visible x tree names ∧ s = ofNames names := by
  have hroot := chars_ne_nil_of_stat htree
  rw [mem_sources htree proper h]
  constructor
  · rintro ⟨names, hne, hfile, rfl, hsource, hp⟩
    exact ⟨names, (visible_iff_passes hroot proper hne).mpr ⟨hfile, hsource, hp⟩, rfl⟩
  · rintro ⟨names, hvisible, rfl⟩
    have hne : names ≠ [] := by
      rintro rfl
      exact Artifact.chars_ne_nil_of_isSource hvisible.source rfl
    obtain ⟨hfile, hsource, hp⟩ := (visible_iff_passes hroot proper hne).mp hvisible
    exact ⟨names, hne, hfile, rfl, hsource, hp⟩

/-- Discovery that goes through has walked in a directory. -/
theorem walkFrom_of_sources {found : List Path} (h : sources d root x = .ok found) :
    ∃ tree, d.stat root = .ok tree ∧ tree.isDir = true ∧ walkFrom d root root x = .ok found := by
  unfold sources at h
  split at h
  · next hdir =>
    unfold Disk.isDir at hdir
    split at hdir
    · next tree htree => exact ⟨tree, htree, hdir, h⟩
    · cases hdir
  · cases h

/-- Discovery is never refused an answer by the excludes. -/
theorem sources_ne_rooted (proper : d.top.Proper) (e : RootedPath) :
    sources d root x ≠ .error (.rooted e) := by
  intro h
  unfold sources at h
  split at h
  · next hdir =>
    unfold Disk.isDir at hdir
    split at hdir
    · next tree htree =>
      obtain ⟨names, hat⟩ := Disk.exists_at_of_stat htree
      exact (seenAt_root (chars_ne_nil_of_stat htree)).walkFrom_ne_rooted (by simp) htree
        (proper.at hat) e h
    · cases hdir
  · cases h

/-- It lists sources in the order of their paths. -/
theorem pairwise_sources (proper : d.top.Proper) (ordered : d.top.Ordered) {found : List Path}
    (h : sources d root x = .ok found) : found.Pairwise before := by
  obtain ⟨tree, htree, hdir, hwalk⟩ := walkFrom_of_sources h
  obtain ⟨names, hat⟩ := Disk.exists_at_of_stat htree
  exact (seenAt_root (chars_ne_nil_of_stat htree)).pairwise_walkFrom (by simp) htree hdir
    (proper.at hat) (ordered.at hat) hwalk

/-- What it lists are sources. -/
theorem isSource_of_mem_sources (proper : d.top.Proper) {found : List Path}
    (h : sources d root x = .ok found) {s : Path} (hs : s ∈ found) :
    Artifact.isSource s = true := by
  obtain ⟨tree, htree, -⟩ := walkFrom_of_sources h
  obtain ⟨names, hat⟩ := Disk.exists_at_of_stat htree
  obtain ⟨row, hvisible, rfl⟩ := (mem_sources_iff_visible htree (proper.at hat) h).mp hs
  exact hvisible.source

/-- Discovery lists exactly the visible sources, each once and in the order of their paths, which is
the order in which a set lists them. It is never refused an answer by the excludes. -/
theorem sources_visible (proper : d.top.Proper) (ordered : d.top.Ordered) :
    (∀ e, sources d root x ≠ .error (.rooted e)) ∧ ∀ found, sources d root x = .ok found →
      ∃ tree, d.stat root = .ok tree ∧
        (∀ s, s ∈ found ↔ ∃ names, Visible x tree names ∧ s = ofNames names) ∧
        found.Pairwise before ∧ (PathSet.ofList found).paths = found := by
  refine ⟨sources_ne_rooted proper, fun found h => ?_⟩
  obtain ⟨tree, htree, -⟩ := walkFrom_of_sources h
  obtain ⟨names, hat⟩ := Disk.exists_at_of_stat htree
  have hincreasing := pairwise_sources proper ordered h
  exact ⟨tree, htree, fun s => mem_sources_iff_visible htree (proper.at hat) h, hincreasing,
    PathSet.paths_ofList hincreasing⟩

end Root

/-- A project whose names are in another order than the texts of its paths, with a link and with a
directory for what is left out. -/
def mixedDisk : Disk :=
  ⟨.dir [("p".toList, .dir [("a".toList, .dir [("b.civet".toList, .file [] 0o644)] 0o755),
    ("a-b.civet".toList, .file [] 0o644), ("l.civet".toList, .link "a-b.civet".toList),
    ("out".toList, .dir [("b.civet".toList, .file [] 0o644)] 0o755)] 0o755)] 0o755, []⟩

/-- The names on that disk are in order. -/
theorem ordered_mixedDisk : mixedDisk.top.Ordered := by
  have hinner : Node.Ordered (.dir [("b.civet".toList, .file [] 0o644)] 0o755) :=
    .dir (List.pairwise_singleton ..) (List.forall_mem_singleton.mpr (.file _ _))
  refine .dir (List.pairwise_singleton ..) (List.forall_mem_singleton.mpr (.dir (by decide) ?_))
  simp only [List.forall_mem_cons]
  exact ⟨hinner, .file _ _, .link _, hinner, by simp⟩

/-- They are ordinary ones. -/
theorem proper_mixedDisk : mixedDisk.top.Proper := by
  have hinner : Node.Proper (.dir [("b.civet".toList, .file [] 0o644)] 0o755) :=
    .dir (by decide) (List.pairwise_singleton ..) (List.forall_mem_singleton.mpr (.file _ _))
  refine .dir (by decide) (List.pairwise_singleton ..)
    (List.forall_mem_singleton.mpr (.dir (by decide) (by decide) ?_))
  simp only [List.forall_mem_cons]
  exact ⟨hinner, .file _ _, .link _, hinner, by simp⟩

/-- In that project discovery lists the two sources that are visible. -/
theorem sources_visible_mixed :
    ∃ x, Excludes.ofPatterns (.ofString "/p") ["out/"] = .ok x ∧
      sources mixedDisk (.ofString "/p") x =
        .ok [.ofString "a/b.civet", .ofString "a-b.civet"] ∧
      ∃ tree, mixedDisk.stat (.ofString "/p") = .ok tree ∧
        (∃ names, Visible x tree names ∧ .ofString "a/b.civet" = ofNames names) ∧
        ¬∃ names, Visible x tree names ∧ .ofString "out/b.civet" = ofNames names := by
  have hrun : (Excludes.ofPatterns (.ofString "/p") ["out/"]).toOption.map
      (sources mixedDisk (.ofString "/p")) =
      some (.ok [.ofString "a/b.civet", .ofString "a-b.civet"]) := by decide +kernel
  obtain ⟨x, hx, hfound⟩ := exists_ok_of_map hrun
  obtain ⟨tree, htree, hmem, -, -⟩ :=
    (sources_visible proper_mixedDisk ordered_mixedDisk).2 _ hfound
  refine ⟨x, hx, hfound, tree, htree, (hmem _).mp (by decide), fun h => ?_⟩
  exact absurd ((hmem _).mpr h) (by decide)

end Discovery

end ArtifactSync
