import ArtifactSync.Build.Batch
import ArtifactSync.Proofs.Disk.Again
import ArtifactSync.Proofs.Watch.OnDisk

/-!
# Builds that are made again

Building a source once more right away gives the same answer and leaves the disk alone (`build_self`):
a build that fails has written nothing, and one that succeeds finds its own file in place of the output.
That stays so while other sources are built (`build_other`), since every source of a project has an
output of its own. So when all sources of a project have been built, in any disk that has grown
elsewhere they can be built again with the same answers and no change (`foldl_build_again`).
-/

namespace ArtifactSync

open Path Artifact Run

section Again

variable {root : Path} {kind : OutputKind}
  {compile : String → Path → Except CompileError String} {faults : Call → Option FsError}

/-- A build puts at most a file down beside the sources. -/
theorem Site.grown_build {source : Path} {ps : List Name} {last : Name} {d : Disk}
    (site : Site root kind source ps last) (ordered : d.top.Ordered) :
    Disk.Grown Disk.AsideRow d ((Executor.overDisk root kind compile faults).build source d).2 := by
  rcases site.build_cases compile faults d with ⟨names, text, hbuilds⟩ | ⟨e, he⟩
  · obtain ⟨trail, -, hon, hisDir, rfl⟩ := Disk.dirAt_eq_some_iff.mp hbuilds.dirAt
    rw [site.build_of_builds hbuilds]
    refine (Disk.Grown.putFile ordered hon.at_names hisDir hbuilds.place.free _ _).mono ?_
    exact fun names hnames => ⟨_, _, hnames, site.isAside hbuilds.place⟩
  · rw [he]
    exact .refl ordered

variable (root kind compile faults) in
/-- What a build does depends on what it reads: it fails, or has a text to write. -/
theorem build_of_readText (source : Path) (d : Disk) :
    (∃ e, ∀ d' : Disk, d'.readText (root.join source) = d.readText (root.join source) →
        (Executor.overDisk root kind compile faults).build source d' = (.error e, d')) ∨
      (∃ content, d.readText (root.join source) = .ok content) ∧
        ∃ text, ∀ d' : Disk, d'.readText (root.join source) = d.readText (root.join source) →
          (Executor.overDisk root kind compile faults).build source d' =
            match (Disk.fileSystem.faulty faults).write (root.join (output source kind)) text d' with
            | (.error cause, s) => (.error (.write source (output source kind) cause), s)
            | (.ok _, s) => (.ok (output source kind), s) := by
  simp only [Executor.build, Executor.overDisk, Compiler.pure, Executor.outputFor]
  cases hfault : faults (.read (root.join source)) with
  | some cause =>
    have hread (d' : Disk) : (Disk.fileSystem.faulty faults).read (root.join source) d' =
        (.error cause, d') := by
      simp only [FileSystem.faulty, Disk.fileSystem, hfault]
    exact .inl ⟨.read source cause, fun d' _ => by simp only [hread]⟩
  | none =>
    have hread (d' : Disk) : (Disk.fileSystem.faulty faults).read (root.join source) d' =
        (d'.readText (root.join source), d') := by
      simp only [FileSystem.faulty, Disk.fileSystem, hfault]
    simp only [hread]
    cases hcontent : d.readText (root.join source) with
    | error cause => exact .inl ⟨.read source cause, fun d' h => by rw [h]⟩
    | ok content =>
      cases hcompile : compile content source with
      | error cause => exact .inl ⟨.compile source cause, fun d' h => by rw [h]; simp only [hcompile]⟩
      | ok compiled =>
        refine .inr ⟨⟨content, rfl⟩, withHeader source compiled, fun d' h => ?_⟩
        rw [h]
        simp only [hcompile]
        rcases (Disk.fileSystem.faulty faults).write (root.join (output source kind))
          (withHeader source compiled) d' with ⟨_ | _, _⟩ <;> rfl

variable (rooted : root.isRooted = true) {d d' : Disk} {base : List Name} {s : Path}
  {dirs : List Name} {last : Name}

section Stands

variable (h : Stands d root [] base s dirs last)
include h

/-- The root of a source's tree. -/
theorem Run.Stands.root_dirAt : d.dirAt (Disk.piecesOf root.chars) = some base := by
  simpa using h.dirAt

/-- The directory of a source. -/
theorem Run.Stands.exists_dir : ∃ dir, d.top.at? (base ++ dirs) = some dir ∧ dir.isDir = true := by
  obtain ⟨bytes, mode, hfile⟩ := h.file
  exact Node.isDir_of_at (List.cons_ne_nil last []) hfile

/-- The names of its directories are ordinary. -/
theorem Run.Stands.dirs_names : ∀ n ∈ dirs, IsName n :=
  fun n hn => h.names n (by simp [hn])

/-- A source stands where it stood when the disk has grown beside the sources. -/
theorem Run.Stands.grown {touched : List Name → Prop} (hgrown : Disk.Grown touched d d')
    (hat' : d'.dirAt (Disk.piecesOf root.chars) = some base)
    (hsource : ¬touched (base ++ dirs ++ [last])) : Stands d' root [] base s dirs last := by
  refine ⟨h.path, h.names, by simpa using hat', ?_⟩
  obtain ⟨bytes, mode, hfile⟩ := h.file
  have houtline : d.top.outline (base ++ dirs ++ [last]) = some (.file bytes mode) :=
    Disk.outline_eq_some_iff.mpr ⟨_, hfile, rfl⟩
  rw [← hgrown.outline_eq hsource] at houtline
  obtain ⟨node, hnode, hemptied⟩ := Disk.outline_eq_some_iff.mp houtline
  exact ⟨bytes, mode, by rw [hnode, Node.eq_of_emptied hemptied rfl]⟩

include rooted

/-- Its place below the root. -/
theorem Run.Stands.site_root (hs : isSource s = true) (kind : OutputKind) :
    Site root kind s (Disk.piecesOf root.chars ++ dirs) last :=
  h.site rooted hs kind

/-- What is read of it is what was read, and its directory is where it was unless nothing is read. -/
theorem Run.Stands.read_again (hs : isSource s = true) {touched : List Name → Prop}
    (hgrown : Disk.Grown touched d d') (hat' : d'.dirAt (Disk.piecesOf root.chars) = some base)
    (hsource : ¬touched (base ++ dirs ++ [last])) :
    d'.readText (root.join s) = d.readText (root.join s) ∧
      ((∃ e, d.readText (root.join s) = .error e) ∨
        d.dirAt (Disk.piecesOf root.chars ++ dirs) = some (base ++ dirs) ∧
          d'.dirAt (Disk.piecesOf root.chars ++ dirs) = some (base ++ dirs)) := by
  obtain ⟨dir, hdir, hisDir⟩ := h.exists_dir
  obtain ⟨bytes, mode, hfile⟩ := h.file
  have site := h.site_root rooted hs .ts
  have hlast := Disk.isName_of_isName site.isName
  constructor
  · refine Disk.readText_of_stat_eq (hgrown.stat h.root_dirAt hat' site.read h.dirs_names hlast hdir
      hisDir (hgrown.outline_eq hsource) fun target htarget => ?_)
    rw [Node.outline, hfile] at htarget
    cases htarget
  · refine (hgrown.way h.root_dirAt hat' h.dirs_names hdir hisDir).imp_left ?_
    rintro ⟨e, he, -⟩
    refine Disk.readText_of_stat (Disk.stat_of_dirAt_none site.read.rooted site.read.slash
      site.read.pieces (List.cons_ne_nil last []) ?_)
    rw [Disk.dirAt, he]

/-- A build puts at most its output down. -/
theorem Run.Stands.grown_build (hs : isSource s = true) (ordered : d.top.Ordered) :
    Disk.Grown (· = base ++ dirs ++ [outputName kind last]) d
      ((Executor.overDisk root kind compile faults).build s d).2 := by
  have site := h.site_root rooted hs kind
  rcases site.build_cases compile faults d with ⟨names, text, hbuilds⟩ | ⟨e, he⟩
  · obtain ⟨trail, -, hon, hisDir, rfl⟩ := Disk.dirAt_eq_some_iff.mp hbuilds.dirAt
    rw [site.build_of_builds hbuilds, ← h.names_eq (.refl ordered) hbuilds.dirAt]
    exact .putFile ordered hon.at_names hisDir hbuilds.place.free _ _
  · rw [he]
    exact .refl ordered

/-- A build that left the disk alone has the same answer on a disk that has grown elsewhere, and leaves
that alone. -/
theorem Run.Stands.build_again (hs : isSource s = true) {touched : List Name → Prop}
    (hgrown : Disk.Grown touched d d') (hat' : d'.dirAt (Disk.piecesOf root.chars) = some base)
    (hsource : ¬touched (base ++ dirs ++ [last]))
    (hout : ¬touched (base ++ dirs ++ [outputName kind last])) {a : Except BuildError Path}
    (hbuild : (Executor.overDisk root kind compile faults).build s d = (a, d)) :
    (Executor.overDisk root kind compile faults).build s d' = (a, d') := by
  have site := h.site_root rooted hs kind
  obtain ⟨hread, hway⟩ := h.read_again rooted hs hgrown hat' hsource
  rcases build_of_readText root kind compile faults s d with
    ⟨e, he⟩ | ⟨⟨content, hcontent⟩, text, htext⟩
  · rw [he d rfl] at hbuild
    rw [he d' hread, (Prod.mk.inj hbuild).1]
  · obtain ⟨hat, hat'⟩ := hway.resolve_left fun ⟨e, he⟩ => by rw [hcontent] at he; cases he
    rw [htext d rfl] at hbuild
    rw [htext d' hread]
    simp only [FileSystem.faulty, Disk.fileSystem] at hbuild ⊢
    cases hfault : faults (.write (root.join (output s kind)) text) with
    | some cause =>
      simp only [hfault] at hbuild ⊢
      rw [(Prod.mk.inj hbuild).1]
    | none =>
      simp only [hfault] at hbuild ⊢
      have hsame : (d.writeText (root.join (output s kind)) text).2 = d := by
        rcases hwrite : d.writeText (root.join (output s kind)) text with ⟨cause | _, d₁⟩ <;>
          rw [hwrite] at hbuild <;> exact (Prod.mk.inj hbuild).2
      rw [Disk.writeText_again site.written site.makes hat hat' hgrown (hgrown.outline_eq hout) hsame]
      rcases hwrite : d.writeText (root.join (output s kind)) text with ⟨cause | _, d₁⟩ <;>
        rw [hwrite] at hbuild <;> simp only [(Prod.mk.inj hbuild).1]

/-- To build a source once more gives the same answer and leaves the disk alone. -/
theorem Run.Stands.build_self (hs : isSource s = true) (ordered : d.top.Ordered)
    {a : Except BuildError Path}
    (hbuild : (Executor.overDisk root kind compile faults).build s d = (a, d'))
    (hat' : d'.dirAt (Disk.piecesOf root.chars) = some base) :
    (Executor.overDisk root kind compile faults).build s d' = (a, d') := by
  have site := h.site_root rooted hs kind
  cases ha : a with
  | error e =>
    rw [ha] at hbuild
    rwa [← site.eq_of_error hbuild] at hbuild ⊢
  | ok written =>
    have hgrown : Disk.Grown Disk.AsideRow d d' := by
      have hgrown : Disk.Grown Disk.AsideRow d
          ((Executor.overDisk root kind compile faults).build s d).2 := site.grown_build ordered
      rwa [hbuild] at hgrown
    obtain ⟨hread, hway⟩ := h.read_again rooted hs hgrown hat' (Disk.not_asideRow site.isSource)
    rw [ha] at hbuild
    rcases build_of_readText root kind compile faults s d with
      ⟨e, he⟩ | ⟨⟨content, hcontent⟩, text, htext⟩
    · rw [he d rfl] at hbuild
      cases (Prod.mk.inj hbuild).1
    · obtain ⟨hat, hat'⟩ := hway.resolve_left fun ⟨e, he⟩ => by rw [hcontent] at he; cases he
      rw [htext d rfl] at hbuild
      rw [htext d' hread]
      simp only [FileSystem.faulty, Disk.fileSystem] at hbuild ⊢
      cases hfault : faults (.write (root.join (output s kind)) text) with
      | some cause =>
        simp only [hfault] at hbuild
        cases (Prod.mk.inj hbuild).1
      | none =>
        simp only [hfault] at hbuild ⊢
        rcases hwrite : d.writeText (root.join (output s kind)) text with ⟨cause | _, d₁⟩ <;>
          rw [hwrite] at hbuild
        · cases (Prod.mk.inj hbuild).1
        · obtain rfl := (Prod.mk.inj hbuild).2
          rw [(Disk.writeText_self site.written site.makes hat hat' ordered hwrite).2]
          exact congrArg (·, d₁) (Prod.mk.inj hbuild).1

/-- A build that left the disk alone has the same answer when another source has been built. -/
theorem Run.Stands.build_other {t : Path} {dirs' : List Name} {last' : Name}
    (ht : Stands d root [] base t dirs' last') (hs : isSource s = true) (hsT : isSource t = true)
    (ordered : d.top.Ordered) {a : Except BuildError Path}
    (hbuild : (Executor.overDisk root kind compile faults).build s d = (a, d))
    (hat' : ((Executor.overDisk root kind compile faults).build t d).2.dirAt
      (Disk.piecesOf root.chars) = some base) :
    (Executor.overDisk root kind compile faults).build s
        ((Executor.overDisk root kind compile faults).build t d).2 =
      (a, ((Executor.overDisk root kind compile faults).build t d).2) := by
  by_cases hst : s = t
  · rw [← hst, hbuild]
    exact hbuild
  have site := h.site_root rooted hs kind
  have site' := ht.site_root rooted hsT kind
  refine h.build_again rooted hs (ht.grown_build rooted hsT ordered) hat' (fun heq => ?_)
    (fun heq => ?_) hbuild
  · -- the output of another source is not a source
    obtain ⟨-, hlast⟩ := List.append_inj' heq rfl
    have hname := (List.cons.inj hlast).1
    have haside := site'.aside (by rw [← hname]; exact site.isName.notUp)
    rw [← hname] at haside
    have hsource := site.isSource
    rw [haside.notSource] at hsource
    cases hsource
  · -- different sources have outputs of their own
    obtain ⟨hfront, hlast⟩ := List.append_inj' heq rfl
    have hdirs := List.append_cancel_left hfront
    have hlasts := outputName_injective site.isName site'.isName site.isSource site'.isSource
      (List.cons.inj hlast).1
    exact hst (by rw [h.path, ht.path, hdirs, hlasts])

end Stands

/-! ## All sources of a project -/

/-- Two results say the same about the sources. -/
structure BatchResult.Agree {σ : Type} (r r' : BatchResult σ) : Prop where
  built : r'.built = r.built
  failed : r'.failed = r.failed
  outputs : r'.outputs = r.outputs

/-- One more source is built in the world. -/
theorem BatchResult.build_world {σ : Type} (x : Executor σ) (r : BatchResult σ) (source : Path) :
    (r.build x source).world = (x.build source r.world).2 := by
  unfold BatchResult.build
  rcases x.build source r.world with ⟨_ | _, _⟩ <;> rfl

/-- What is said about one more source depends on the answer of its build. -/
theorem BatchResult.Agree.build {σ : Type} {x : Executor σ} {r r' : BatchResult σ} (h : Agree r r')
    {source : Path} (hbuild : (x.build source r'.world).1 = (x.build source r.world).1) :
    Agree (r.build x source) (r'.build x source) := by
  unfold BatchResult.build
  rcases hr : x.build source r.world with ⟨_ | _, _⟩ <;>
    rcases hr' : x.build source r'.world with ⟨_ | _, _⟩ <;> rw [hr, hr'] at hbuild <;>
    cases hbuild
  · exact ⟨h.built, by rw [h.failed], h.outputs⟩
  · exact ⟨by rw [h.built], h.failed, by rw [h.outputs]⟩

/-- Builds of sources that have their places lead to a later disk, on which files came beside the
sources. -/
theorem grown_foldl_build {sources : List Path}
    (hsites : ∀ t ∈ sources, ∃ ps last, Site root kind t ps last) (r : BatchResult Disk)
    (ordered : r.world.top.Ordered) :
    Disk.Later r.world
        (sources.foldl (BatchResult.build (Executor.overDisk root kind compile faults)) r).world ∧
      Disk.Grown Disk.AsideRow r.world
        (sources.foldl (BatchResult.build (Executor.overDisk root kind compile faults)) r).world := by
  induction sources generalizing r with
  | nil => exact ⟨.refl ordered, .refl ordered⟩
  | cons t rest ih =>
    obtain ⟨⟨ps, last, site⟩, hrest⟩ := List.forall_mem_cons.mp hsites
    have hlater : Disk.Later r.world
        (r.build (Executor.overDisk root kind compile faults) t).world := by
      rw [BatchResult.build_world]
      exact later_build ordered site
    have hgrown : Disk.Grown Disk.AsideRow r.world
        (r.build (Executor.overDisk root kind compile faults) t).world := by
      rw [BatchResult.build_world]
      exact site.grown_build ordered
    obtain ⟨hlaterRest, hgrownRest⟩ := ih hrest _ hlater.ordered
    exact ⟨hlater.trans hlaterRest, hgrown.trans hgrownRest⟩

section Fold

variable {sources : List Path} (hsources : ∀ t ∈ sources, isSource t = true ∧
    ∃ dirs last, Stands d root [] base t dirs last)
  (r : BatchResult Disk) (hgrown : Disk.Grown Disk.AsideRow d r.world)
  (hend : (sources.foldl (BatchResult.build (Executor.overDisk root kind compile faults))
    r).world.dirAt (Disk.piecesOf root.chars) = some base)
include rooted hsources

/-- The sources have their places. -/
theorem exists_sites : ∀ t ∈ sources, ∃ ps last, Site root kind t ps last := by
  intro t ht
  obtain ⟨hs, dirs, last, hstands⟩ := hsources t ht
  exact ⟨_, last, hstands.site_root rooted hs kind⟩

include hgrown

/-- When one source and then others are built and the root is there at the end, it was there on the
way. -/
theorem fold_step {t : Path} {ps : List Name} {last : Name} (site : Site root kind t ps last)
    (hend : (sources.foldl (BatchResult.build (Executor.overDisk root kind compile faults))
      (r.build (Executor.overDisk root kind compile faults) t)).world.dirAt
        (Disk.piecesOf root.chars) = some base) :
    Disk.Grown Disk.AsideRow d (r.build (Executor.overDisk root kind compile faults) t).world ∧
      r.world.dirAt (Disk.piecesOf root.chars) = some base ∧
      (r.build (Executor.overDisk root kind compile faults) t).world.dirAt
        (Disk.piecesOf root.chars) = some base := by
  have hlater : Disk.Later r.world
      (r.build (Executor.overDisk root kind compile faults) t).world := by
    rw [BatchResult.build_world]
    exact later_build hgrown.ordered site
  have hnext : Disk.Grown Disk.AsideRow r.world
      (r.build (Executor.overDisk root kind compile faults) t).world := by
    rw [BatchResult.build_world]
    exact site.grown_build hgrown.ordered
  have hat' := (grown_foldl_build (exists_sites rooted hsources)
    (r.build (Executor.overDisk root kind compile faults) t) hlater.ordered).1.dirAt hend
  exact ⟨hgrown.trans hnext, hlater.dirAt hat', hat'⟩

include hend

/-- A build that leaves the disk alone has the same answer when all sources have been built. -/
theorem Run.Stands.build_foldl (h : Stands d root [] base s dirs last) (hs : isSource s = true)
    {a : Except BuildError Path}
    (hbuild : (Executor.overDisk root kind compile faults).build s r.world = (a, r.world)) :
    (Executor.overDisk root kind compile faults).build s
        (sources.foldl (BatchResult.build (Executor.overDisk root kind compile faults)) r).world =
      (a, (sources.foldl (BatchResult.build (Executor.overDisk root kind compile faults))
        r).world) := by
  induction sources generalizing r with
  | nil => exact hbuild
  | cons t rest ih =>
    obtain ⟨⟨hsT, dirs', last', hstandsT⟩, hrest⟩ := List.forall_mem_cons.mp hsources
    have site := h.site_root rooted hs kind
    have siteT := hstandsT.site_root rooted hsT kind
    obtain ⟨hnext, hat, hat'⟩ := fold_step rooted hrest r hgrown siteT hend
    refine ih hrest _ hnext hend ?_
    rw [BatchResult.build_world] at hat' ⊢
    exact (h.grown hgrown hat (Disk.not_asideRow site.isSource)).build_other rooted
      (hstandsT.grown hgrown hat (Disk.not_asideRow siteT.isSource)) hs hsT hgrown.ordered hbuild hat'

/-- Where sources can be built again as they can be once all of them have been built, to build all
gives the same answers and leaves the disk alone. -/
theorem foldl_build_again (e : Disk)
    (hagain : ∀ s dirs last a, isSource s = true → Stands d root [] base s dirs last →
      (Executor.overDisk root kind compile faults).build s
          (sources.foldl (BatchResult.build (Executor.overDisk root kind compile faults)) r).world =
        (a, (sources.foldl (BatchResult.build (Executor.overDisk root kind compile faults))
          r).world) →
      (Executor.overDisk root kind compile faults).build s e = (a, e))
    (r' : BatchResult Disk) (hworld : r'.world = e) (hagree : r.Agree r') :
    (sources.foldl (BatchResult.build (Executor.overDisk root kind compile faults)) r).Agree
        (sources.foldl (BatchResult.build (Executor.overDisk root kind compile faults)) r') ∧
      (sources.foldl (BatchResult.build (Executor.overDisk root kind compile faults)) r').world =
        e := by
  induction sources generalizing r r' with
  | nil => exact ⟨hagree, hworld⟩
  | cons t rest ih =>
    obtain ⟨⟨hsT, dirs', last', hstandsT⟩, hrest⟩ := List.forall_mem_cons.mp hsources
    have site := hstandsT.site_root rooted hsT kind
    obtain ⟨hnext, hat, hat'⟩ := fold_step rooted hrest r hgrown site hend
    -- the source can be built again at once, so it can be at the end
    have hself : (Executor.overDisk root kind compile faults).build t
        (r.build (Executor.overDisk root kind compile faults) t).world =
          (((Executor.overDisk root kind compile faults).build t r.world).1,
            (r.build (Executor.overDisk root kind compile faults) t).world) := by
      rw [BatchResult.build_world] at hat' ⊢
      exact (hstandsT.grown hgrown hat (Disk.not_asideRow site.isSource)).build_self rooted hsT
        hgrown.ordered rfl hat'
    have hlast := hagain t dirs' last' _ hsT hstandsT
      (hstandsT.build_foldl rooted hrest _ hnext hend hsT hself)
    refine ih hrest _ hnext hend hagain _ ?_ (hagree.build ?_)
    · rw [BatchResult.build_world, hworld, hlast]
    · rw [hworld, hlast]

end Fold

end Again

end ArtifactSync
