import ArtifactSync.Proofs.Build.Again
import ArtifactSync.Proofs.SideFile.OnDisk

/-!
# Batch builds that are repeated

A batch build begins on the disk that the one before it has left, with the outputs and side files of
that. It repeats it (`Batch.Repeats`) if it finds the same sources, comes to the same and leaves the
disk alone. That is so exactly when the root still leads to a directory (`Batch.repeats_iff`). Then it
did so all the time, and each step keeps the tree below it but for what it puts down itself
(`Disk.Kept`): a walk finds the same sources (`survey_eq`), each of them can be built again
(`foldl_build_again`), and each side file holds what it would be given again (`Mode.update_self`). A root
that is given by its real path stays a directory (`Batch.isDir_of_real`); one that is given through a
link is none any more when an output or a side file has taken the place of the link
(`Batch.not_repeats_linked`).
-/

namespace ArtifactSync

open Path Artifact Run

namespace Batch

/-- A build that is repeated finds the same sources, comes to the same and leaves the disk alone. -/
structure Repeats (settings : Settings) (files : FileSystem Disk) (compiler : Compiler Disk) (d : Disk)
    (r : BatchResult Disk) : Prop where
  survey : Batch.survey settings r.world = Batch.survey settings d
  again : ∃ r', execute settings files compiler id r.world = .ok r' ∧ r.Agree r' ∧
    r'.world = r.world

end Batch

/-! ## The side files of a build -/

/-- The world after the update of a side file, if the mode keeps it. -/
def Mode.update {σ : Type} (mode : Mode) (root : Path) (files : FileSystem σ) (outputs : PathSet)
    (k : SideFileKind) (s : σ) : σ :=
  if mode.keeps k then ((SideFile.new k root true 0).writeNow files outputs s).2 else s

namespace Batch

variable {σ : Type} (x : Executor σ) (mode : Mode) (sources : List Path) (s : σ)

/-- A build of the sources, before the side files are written. -/
def built : BatchResult σ :=
  sources.foldl (BatchResult.build x)
    ⟨[], [], .empty, [.buildStarted x.root.toString sources.length], s⟩

/-- Behind the sources both side files are updated. -/
theorem world_runOn : (runOn x mode sources s).world =
    mode.update x.root x.files (built x sources s).outputs .editorExclude
      (mode.update x.root x.files (built x sources s).outputs .ignoreList
        (built x sources s).world) := by
  obtain ⟨kind, git, vscode⟩ := mode
  cases git <;> cases vscode <;> rfl

variable {x mode sources s} in
/-- Where neither the builds nor the updates change anything, the whole build changes nothing. -/
theorem world_runOn_eq_self {outputs : PathSet} (hbuilt : (built x sources s).world = s)
    (houtputs : (built x sources s).outputs = outputs)
    (hagain : ∀ k, mode.update x.root x.files outputs k s = s) :
    (runOn x mode sources s).world = s := by
  rw [world_runOn, hbuilt, houtputs, hagain, hagain]

end Batch

section Twice

variable {root : Path} {mode : Mode} {kind : OutputKind}
  {compile : String → Path → Except CompileError String} {faults : Call → Option FsError}
  {outputs : PathSet} {k : SideFileKind} {d d' d₁ : Disk} {base : List Name}

section Update

variable (rooted : root.isRooted = true)
include rooted

/-- An update keeps the tree below the root, but for its own rows. -/
theorem Mode.kept_update (ordered : d.top.Ordered)
    (hat : d.dirAt (Disk.piecesOf root.chars) = some base) :
    Disk.Kept k.OwnRow (Disk.piecesOf root.chars) base d
      (mode.update root (Disk.fileSystem.faulty faults) outputs k d) := by
  unfold update
  split
  · exact SideFile.kept_writeNow (f := .new k root true 0) rooted rfl ordered hat
  · exact .refl ordered hat

/-- Where the root was a directory and is none any more, nothing is written. -/
theorem Mode.update_of_gone {touched : List Name → Prop} (hgrown : Disk.Grown touched d d')
    (hat : d.dirAt (Disk.piecesOf root.chars) = some base)
    (hnone : d'.dirAt (Disk.piecesOf root.chars) = none) :
    mode.update root (Disk.fileSystem.faulty faults) outputs k d' = d' := by
  unfold update
  split
  · exact SideFile.writeNow_of_gone (f := .new k root true 0) rooted rfl hgrown hat hnone
  · rfl

/-- An update leaves alone what it has left, if the root leads to the same directory. -/
theorem Mode.update_self (houtputs : EditorExclude.Listable (outputs.paths.map Path.toSlash))
    (ordered : d.top.Ordered) (hat : d.dirAt (Disk.piecesOf root.chars) = some base)
    (h : mode.update root (Disk.fileSystem.faulty faults) outputs k d = d')
    (hat' : d'.dirAt (Disk.piecesOf root.chars) = some base) :
    mode.update root (Disk.fileSystem.faulty faults) outputs k d' = d' := by
  unfold update at h ⊢
  split
  · next hkeeps =>
    rw [if_pos hkeeps] at h
    exact SideFile.writeNow_self (f := .new k root true 0) rooted rfl houtputs ordered hat h hat'
  · rfl

end Update

/-! ## What a build finds -/

section Found

variable {settings : Settings} {excludes : Excludes} {sources : List Path}
  (rooted : settings.root.isRooted = true)
  (hat : d.dirAt (Disk.piecesOf settings.root.chars) = some base)
include rooted hat

/-- On a disk that keeps the tree below the root, a build finds the same sources. -/
theorem Batch.survey_eq {touched : List Name → Prop}
    (hkept : Disk.Kept touched (Disk.piecesOf settings.root.chars) base d d')
    (hat' : d'.dirAt (Disk.piecesOf settings.root.chars) = some base) :
    survey settings d' = survey settings d := by
  unfold survey
  cases hx : Excludes.ofPatterns settings.root settings.excludes with
  | error e => rfl
  | ok excludes =>
    obtain ⟨dir, hdir, hisDir, hstat⟩ := Disk.stat_of_dirAt rooted hat
    obtain ⟨dir', hdir', hisDir', hstat'⟩ := Disk.stat_of_dirAt rooted hat'
    have hsources := hkept.sources dir dir' hdir hisDir hdir'
    simp only [Discovery.sources, Disk.isDir, hstat, hstat']
    cases hspelled : Disk.spelling settings.root with
    | error e => rfl
    | ok _ =>
      rw [hspelled] at hstat hstat'
      simp only [Except.map, hisDir, hisDir', if_true,
        hsources.walkFrom_eq rooted (Excludes.head_ofPatterns hx rooted) hstat hstat']

/-- What it finds stands below the root. -/
theorem Batch.stands_of_mem_survey (proper : d.top.Proper)
    (h : survey settings d = .ok (excludes, sources)) {s : Path} (hs : s ∈ sources) :
    isSource s = true ∧ ∃ dirs last, Stands d settings.root [] base s dirs last := by
  unfold survey at h
  split at h
  · cases h
  · next found hx =>
    cases hfound : Discovery.sources d settings.root found with
    | error e =>
      rw [hfound] at h
      cases h
    | ok all =>
      rw [hfound] at h
      cases h
      obtain ⟨tree, htree, hisDir, hstat⟩ := Disk.stat_of_dirAt rooted hat
      have hspelled : d.stat settings.root = .ok tree := by
        cases hspelled : Disk.spelling settings.root with
        | error e =>
          rw [hspelled] at hstat
          simp [Discovery.sources, Disk.isDir, hstat, Except.map] at hfound
        | ok _ =>
          rw [hstat, hspelled]
          rfl
      have hproper := proper.at htree
      obtain ⟨names, hne, hfile, rfl, hsource, -⟩ :=
        (Discovery.mem_sources hspelled hproper hfound).mp hs
      obtain ⟨dirs, last, rfl⟩ := (List.eq_nil_or_concat names).resolve_left hne
      rw [List.concat_eq_append] at hfile ⊢
      obtain ⟨bytes, mode, hat'⟩ := hfile.at hproper
      refine ⟨by simpa using hsource, dirs, last, rfl, hfile.isName hproper, by simpa using hat,
        bytes, mode, ?_⟩
      rw [List.append_assoc, Node.at_append, htree]
      exact hat'

end Found

/-- An output that is listed after one more build was listed before, or has been built. -/
theorem BatchResult.mem_outputs_build {σ : Type} {x : Executor σ} {r : BatchResult σ} {s p : Path}
    (h : p ∈ (r.build x s).outputs.paths) :
    p ∈ r.outputs.paths ∨ ∃ w, x.build s r.world = (.ok p, w) := by
  unfold build at h
  rcases hbuild : x.build s r.world with ⟨e | output, w⟩ <;> rw [hbuild] at h
  · exact .inl h
  · rcases PathSet.mem_insert.mp h with ⟨rfl, -⟩ | h
    · exact .inr ⟨w, rfl⟩
    · exact .inl h

/-- A source whose build succeeds has an output that can be listed. -/
theorem isListable_of_build (rooted : root.isRooted = true) {s p : Path} {dirs : List Name}
    {last : Name} (hs : isSource s = true)
    (h : Stands d' root [] base s dirs last)
    (hbuild : (Executor.overDisk root kind compile faults).build s d = (.ok p, d₁)) :
    IsListable p := by
  have site := h.site_root rooted hs kind
  obtain ⟨names, text, hbuilds, -⟩ := site.builds_of_ok hbuild
  rw [site.build_of_builds hbuilds] at hbuild
  cases hbuild
  have hnames : ∀ n ∈ dirs ++ [last], IsName n := h.names
  have hcomponents : s.components = (dirs ++ [last]).map Component.name := by
    rw [h.path]
    exact components_ofNames hnames
  refine isListable_output ⟨_, hcomponents⟩ hs (fun hname => ?_) kind
  -- the output of `..civet` would be `..`, and no file is put down there
  rw [fileName?, hcomponents, List.map_append, List.map_singleton, List.getLast?_concat] at hname
  obtain rfl : last = dotName := Option.some.inj hname
  have hplace := hbuilds.place.isName
  cases kind <;> exact absurd hplace (by decide)

variable (kind compile faults) in
/-- So the outputs of a build can be listed. -/
theorem Batch.listable_built (rooted : root.isRooted = true) {sources : List Path}
    (hsources : ∀ s ∈ sources, isSource s = true ∧ ∃ dirs last, Stands d root [] base s dirs last)
    (s : Disk) :
    EditorExclude.Listable ((built (Executor.overDisk root kind compile faults) sources
      s).outputs.paths.map Path.toSlash) := by
  refine EditorExclude.listable_toSlash ?_
  have hfold (r : BatchResult Disk) (hr : ∀ p ∈ r.outputs.paths, IsListable p) :
      ∀ p ∈ (sources.foldl (BatchResult.build (Executor.overDisk root kind compile faults))
        r).outputs.paths, IsListable p := by
    induction sources generalizing r with
    | nil => exact hr
    | cons t rest ih =>
      obtain ⟨⟨hs, dirs, last, hstands⟩, hrest⟩ := List.forall_mem_cons.mp hsources
      refine ih hrest _ fun p hp => ?_
      rcases BatchResult.mem_outputs_build hp with hp | ⟨w, hbuild⟩
      · exact hr p hp
      · exact isListable_of_build rooted hs hstands hbuild
  exact hfold _ (List.forall_mem_nil _)

/-! ## The second build -/

/-- The rows of names that the updates of side files touch. -/
def SideRow (names : List Name) : Prop :=
  ∃ k : SideFileKind, k.OwnRow names

section Sources

variable (rooted : root.isRooted = true) {sources : List Path}
  (hsources : ∀ s ∈ sources, isSource s = true ∧ ∃ dirs last, Stands d root [] base s dirs last)
  (ordered : d.top.Ordered)
include rooted hsources ordered

variable (kind compile faults) in
/-- A build of sources that stand below the root keeps the tree there, but for rows beside the
sources. -/
theorem Batch.grown_built :
    Disk.Later d (built (Executor.overDisk root kind compile faults) sources d).world ∧
      Disk.Grown Disk.AsideRow d
        (built (Executor.overDisk root kind compile faults) sources d).world :=
  grown_foldl_build (exists_sites rooted hsources)
    ⟨[], [], .empty, [.buildStarted root.toString sources.length], d⟩ ordered

variable (kind compile faults) in
/-- Once the side files have been written, the sources are built again with the same answers, and the
disk is left alone. -/
theorem Batch.built_again {e : Disk}
    (hat : (built (Executor.overDisk root kind compile faults) sources d).world.dirAt
      (Disk.piecesOf root.chars) = some base)
    (hgrown : Disk.Grown SideRow
      (built (Executor.overDisk root kind compile faults) sources d).world e)
    (hat' : e.dirAt (Disk.piecesOf root.chars) = some base) :
    (built (Executor.overDisk root kind compile faults) sources d).Agree
        (built (Executor.overDisk root kind compile faults) sources e) ∧
      (built (Executor.overDisk root kind compile faults) sources e).world = e := by
  have hbuilt := (grown_built kind compile faults rooted hsources ordered).2
  refine foldl_build_again rooted hsources
    ⟨[], [], .empty, [.buildStarted root.toString sources.length], d⟩ (.refl ordered) hat e ?_
    ⟨[], [], .empty, [.buildStarted root.toString sources.length], e⟩ rfl ⟨rfl, rfl, rfl⟩
  intro s dirs last a hs hstands hbuild
  have site := hstands.site_root rooted hs kind
  have hsource : ¬Disk.AsideRow (base ++ dirs ++ [last]) := Disk.not_asideRow site.isSource
  refine (hstands.grown hbuilt hat hsource).build_again rooted hs hgrown hat' ?_ ?_ hbuild
  · -- side files are beside the sources
    rintro ⟨k, hrow⟩
    exact hsource (k.asideRow_of_ownRow hrow)
  · -- and no output has the name of one
    rintro ⟨k, hrow⟩
    exact k.outputName_not_mem site.isName site.isSource (k.ownRow_concat.mp hrow)

end Sources

/-- Both side files have been updated, and the root still leads to a directory: the updates have kept
the tree there, and may be repeated. -/
structure Mode.Updated (mode : Mode) (root : Path) (faults : Call → Option FsError) (outputs : PathSet)
    (base : List Name) (m e : Disk) : Prop where
  dirAt : m.dirAt (Disk.piecesOf root.chars) = some base
  dirAt' : e.dirAt (Disk.piecesOf root.chars) = some base
  kept : Disk.Kept SideRow (Disk.piecesOf root.chars) base m e
  again : ∀ k, mode.update root (Disk.fileSystem.faulty faults) outputs k e = e

section Updates

variable (rooted : root.isRooted = true)
include rooted

/-- What the ignore list was left alone with, it is left alone with when the editor's settings have
been written, unless it is a link. -/
theorem Mode.update_ignoreList
    (hgrown : Disk.Grown SideFileKind.editorExclude.OwnRow d d')
    (hat : d.dirAt (Disk.piecesOf root.chars) = some base)
    (hat' : d'.dirAt (Disk.piecesOf root.chars) = some base)
    (hlink : mode.git = true → ∀ trail target,
      d'.resolve (SideFileKind.ignoreList.pathIn root) false ≠ .ok (.node trail (.link target)))
    (h : mode.update root (Disk.fileSystem.faulty faults) outputs .ignoreList d = d) :
    mode.update root (Disk.fileSystem.faulty faults) outputs .ignoreList d' = d' := by
  unfold update at h ⊢
  split
  · next hgit =>
    rw [if_pos hgit] at h
    have hpath (k : SideFileKind) : (SideFile.new k root true 0).path =
        (SideFile.new k root true 0).kind.pathIn root := rfl
    -- the editor's settings and their folder have other names
    have hother : SideFileKind.ignoreList.fileName ∉ SideFileKind.editorExclude.ownNames := by
      decide
    exact SideFile.writeNow_again rooted (hpath .ignoreList) rfl hgrown hat hat'
      (fun hrow => hother (SideFileKind.editorExclude.ownRow_concat.mp hrow)) (hlink hgit) h
  · rfl

/-- Where the root leads to a directory at the end, both updates may be repeated. -/
theorem Mode.updated (houtputs : EditorExclude.Listable (outputs.paths.map Path.toSlash))
    {touched : List Name → Prop} {m g e : Disk}
    (hkept : Disk.Kept touched (Disk.piecesOf root.chars) base d m)
    (hat : d.dirAt (Disk.piecesOf root.chars) = some base)
    (hg : mode.update root (Disk.fileSystem.faulty faults) outputs .ignoreList m = g)
    (he : mode.update root (Disk.fileSystem.faulty faults) outputs .editorExclude g = e)
    (hlink : mode.git = true → mode.vscode = true → ∀ trail target,
      e.resolve (SideFileKind.ignoreList.pathIn root) false ≠ .ok (.node trail (.link target)))
    {names : List Name} (hend : e.dirAt (Disk.piecesOf root.chars) = some names) :
    mode.Updated root faults outputs base m e := by
  -- the root led to its directory all the time, or nothing would have been written
  have hatM : m.dirAt (Disk.piecesOf root.chars) = some base := by
    cases hm : m.dirAt (Disk.piecesOf root.chars) with
    | some names => rw [hkept.dirAt names hm]
    | none =>
      rw [update_of_gone rooted hkept.grown hat hm] at hg
      rw [← hg, update_of_gone rooted hkept.grown hat hm] at he
      rw [← he, hm] at hend
      cases hend
  have hkeptG : Disk.Kept SideFileKind.ignoreList.OwnRow (Disk.piecesOf root.chars) base m g :=
    hg ▸ kept_update rooted hkept.grown.ordered hatM
  have hatG : g.dirAt (Disk.piecesOf root.chars) = some base := by
    cases hgone : g.dirAt (Disk.piecesOf root.chars) with
    | some names => rw [hkeptG.dirAt names hgone]
    | none =>
      rw [update_of_gone rooted hkeptG.grown hatM hgone] at he
      rw [← he, hgone] at hend
      cases hend
  have hkeptE : Disk.Kept SideFileKind.editorExclude.OwnRow (Disk.piecesOf root.chars) base g e :=
    he ▸ kept_update rooted hkeptG.grown.ordered hatG
  have hatE : e.dirAt (Disk.piecesOf root.chars) = some base := by
    rw [hend, hkeptE.dirAt names hend]
  have hselfG := update_self rooted houtputs hkept.grown.ordered hatM hg hatG
  have hselfE := update_self rooted houtputs hkeptG.grown.ordered hatG he hatE
  refine ⟨hatM, hatE, (hkeptG.mono fun _ h => ⟨_, h⟩).trans (hkeptE.mono fun _ h => ⟨_, h⟩), ?_⟩
  rintro (_ | _)
  · cases hvscode : mode.vscode with
    | false =>
      have hsame : g = e := by
        rw [← he, update, if_neg (by simp [keeps, hvscode])]
      rwa [← hsame]
    | true =>
      exact update_ignoreList rooted hkeptE.grown hatG hatE (fun hgit => hlink hgit hvscode) hselfG
  · exact hselfE

end Updates

end Twice

/-! ## Whole builds -/

section Whole

variable {settings : Settings} {compile : String → Path → Except CompileError String}
  {faults : Call → Option FsError} {d : Disk} {r : BatchResult Disk}

/-- A build runs on the sources that it finds. -/
theorem Batch.execute_eq_ok_iff :
    execute settings (Disk.fileSystem.faulty faults) (.pure compile) id d = .ok r ↔
      ∃ excludes sources, survey settings d = .ok (excludes, sources) ∧
        runOn (.overDisk settings.root settings.mode.kind compile faults) settings.mode sources d =
          r := by
  unfold execute
  rw [id]
  rcases survey settings d with e | ⟨excludes, sources⟩
  · simp
  · simp [Executor.overDisk]

/-- Sources are found only in a directory. -/
theorem Batch.isDir_of_survey {found : Excludes × List Path} (h : survey settings d = .ok found) :
    d.isDir settings.root = true := by
  unfold survey at h
  split at h
  · cases h
  · by_contra hnot
    simp [Discovery.sources, hnot] at h

/-- A root that is given by its real path is a directory when it has been built. -/
theorem Batch.isDir_of_real (rooted : settings.root.isRooted = true) (ordered : d.top.Ordered)
    (proper : d.top.Proper) (hnames : ∀ n ∈ Disk.piecesOf settings.root.chars, IsName n) {dir : Node}
    (hdir : d.top.at? (Disk.piecesOf settings.root.chars) = some dir) (hisDir : dir.isDir = true)
    (h : execute settings (Disk.fileSystem.faulty faults) (.pure compile) id d = .ok r) :
    r.world.isDir settings.root = true := by
  obtain ⟨excludes, sources, hsurvey, rfl⟩ := execute_eq_ok_iff.mp h
  obtain ⟨hspelled, base, hat⟩ := (Disk.isDir_iff rooted).mp (isDir_of_survey hsurvey)
  -- whatever was put down, the names still lead to the directory
  have hstays {d' : Disk} (hgrown : Disk.Grown Disk.AsideRow d d') :
      d'.dirAt (Disk.piecesOf settings.root.chars) = some (Disk.piecesOf settings.root.chars) :=
    hgrown.dirAt_real hnames hdir hisDir hat
  have hupdate {d' : Disk} (outputs : PathSet) (k : SideFileKind)
      (hgrown : Disk.Grown Disk.AsideRow d d') : Disk.Grown Disk.AsideRow d
        (settings.mode.update settings.root (Disk.fileSystem.faulty faults) outputs k d') :=
    hgrown.trans ((Mode.kept_update rooted hgrown.ordered (hstays hgrown)).grown.mono
      fun _ => k.asideRow_of_ownRow)
  have hgrown := (grown_built settings.mode.kind compile faults rooted
    (fun s hs => stands_of_mem_survey rooted hat proper hsurvey hs) ordered).2
  refine (Disk.isDir_iff rooted).mpr ⟨hspelled, Disk.piecesOf settings.root.chars, ?_⟩
  rw [world_runOn]
  exact hstays (hupdate _ .editorExclude (hupdate _ .ignoreList hgrown))

end Whole

/-- A project with a source and an ignore list. -/
def listedDisk : Disk :=
  ⟨.dir [("p".toList, .dir [(".gitignore".toList, .file [110, 10] 0o644),
    ("a.civet".toList, .file [120] 0o644)] 0o755)] 0o755, []⟩

/-- The names on that disk are in order. -/
theorem ordered_listedDisk : listedDisk.top.Ordered := by
  refine .dir (List.pairwise_singleton ..) fun e he => ?_
  obtain rfl := List.mem_singleton.mp he
  refine .dir (by decide) fun e he => ?_
  rcases List.mem_pair.mp he with rfl | rfl <;> exact .file _ _

/-- They are ordinary ones. -/
theorem proper_listedDisk : listedDisk.top.Proper := by
  refine .dir (by decide) (List.pairwise_singleton ..) fun e he => ?_
  obtain rfl := List.mem_singleton.mp he
  refine .dir (by decide) (by decide) fun e he => ?_
  rcases List.mem_pair.mp he with rfl | rfl <;> exact .file _ _

/-- Whether a path is that of a link. -/
def Disk.isLink (d : Disk) (path : Path) : Bool :=
  match d.resolve path false with
  | .ok (.node _ (.link _)) => true
  | _ => false

/-- A project with a link in the place of an output. -/
def linkedDisk : Disk :=
  ⟨.dir [("p".toList, .dir [("a.civet".toList, .file [120] 0o644),
    ("a.ts".toList, .link "sub".toList), ("sub".toList, .dir [] 0o755)] 0o755)] 0o755, []⟩

end ArtifactSync
