import ArtifactSync.Proofs.Watch.Normalize
import ArtifactSync.Proofs.Watch.Tracking
import ArtifactSync.Proofs.Watch.Visible
import ArtifactSync.Watch.Poll

/-!
# Directories that leave the project

A watch begins with the sources that discovery finds and goes on with the changes that watcher
events stand for (`Watched`). It tracks only sources that are not excluded, by tidy paths, and lists
only outputs of sources that it tracks (`Sound`).

When an event says that a directory is gone, the excludes are asked about it as if it was a file.
If they let that pass, the sources below the directory are dropped with their outputs
(`drops_of_passing`); if not, what was tracked below it stays (`not_drops`), unless the excludes
leave out every source there (`drops_of_left_out`). So a directory that is excluded by its name and
taken back in as a directory keeps its sources when it is gone.
-/

namespace ArtifactSync

open Path Artifact

/-- A class of paths in which sources are spelled tidily spells alike. -/
theorem spelledAlike_tidy : SpelledAlike fun p => isSource p = true → p.Tidy := by
  intro p q hp hq hs hpq hname
  have hsq : isSource q = true := by rw [← isSource_eq_of_same hpq, hs]
  have htidy {p : Path} (hp : p.Tidy) (hname : p.fileName? = some dotName) :
      dotName <:+ p.chars := by
    obtain ⟨front, behind, hcut, rfl, -⟩ := exists_cut_of_fileName hname
    rw [dotName_suffix_iff hcut]
    -- a tidy path ends in a piece that makes a component, and those behind the name make none
    by_contra hne
    obtain ⟨last, hlast⟩ := Option.ne_none_iff_exists'.mp
      (fun hnone => hne (List.getLast?_eq_none_iff.mp hnone))
    have hmakes := hp.last last (by
      rw [allPieces_ofCut hcut, List.getLast?_append_of_ne_nil _ (by simp),
        List.getLast?_cons_of_ne_nil hne, hlast])
    rw [hcut.behind_empty last (List.mem_of_getLast? hlast)] at hmakes
    cases hmakes
  exact ⟨fun _ => htidy (hq hsq) (by rw [← fileName_eq_of_same hpq, hname]),
    fun _ => htidy (hp hs) hname⟩

namespace Run

variable {σ : Type}

/-- Applies changes, one after another. -/
def apply (x : Executor σ) (now : Nat) (r : Run σ) (changes : List Change) : Run σ :=
  changes.foldl (fun r change => (r.handle x change now).2) r

/-- A watch that looks again applies changes so. -/
theorem applyChanges_eq (x : Executor Disk) (now : Nat) (r : Run Disk) (changes : List Change) :
    Watch.applyChanges x now r changes = r.apply x now changes := rfl

/-- Runs of a watch that began with the sources found and handled the changes of watcher events,
whatever the disk was when they came. -/
inductive Watched (x : Executor σ) (excludes : Excludes) (found : List Path) : Run σ → Prop
  /-- The watch begins. -/
  | start (sideFiles : SideFiles) (s : σ) (events : List WatchEvent) (now : Nat) :
    Watched x excludes found (Run.start ⟨.new sideFiles, s, events⟩ x found now)
  /-- A watcher's event comes in. -/
  | event {r : Run σ} (h : Watched x excludes found r) (d : Disk) (e : WatcherEvent)
    {changes : List Change} (hn : e.normalize d x.root excludes = .ok changes) (now : Nat) :
    Watched x excludes found (r.apply x now changes)
  /-- Updates of the side files come due. -/
  | tick {r : Run σ} (h : Watched x excludes found r) (now : Nat) :
    Watched x excludes found (r.tick x now)
  /-- Somebody else changes the world. -/
  | outside {r : Run σ} (h : Watched x excludes found r) (s : σ) :
    Watched x excludes found { r with world := s }

/-- What is true of a watch all the time. -/
structure Sound (x : Executor σ) (excludes : Excludes) (r : Run σ) : Prop where
  watching : r.session.phase = .watching
  /-- What is tracked are sources of the project that are not excluded. -/
  sources : ∀ s ∈ r.session.sources.paths, isSource s = true ∧
    (∃ q, x.root.relativeTo? q = some s) ∧ excludes.verdict s false = false
  /-- What is listed are outputs of what is tracked. -/
  consistent : ∃ built, Consistent x.kind (fun p => isSource p = true → p.Tidy)
    r.session.sources r.session.outputs built

/-! ## Changes one after another -/

section Apply

variable {x : Executor σ} {now : Nat} {changes : List Change} {r : Run σ}

/-- What holds of the tracked sources and of those that are added holds of all that are tracked
after the changes. -/
theorem sources_apply {holds : Path → Prop}
    (hadded : ∀ c ∈ changes, c.kind = .add → isSource c.path = true → holds c.path)
    (h : ∀ s ∈ r.session.sources.paths, holds s) :
    ∀ s ∈ (r.apply x now changes).session.sources.paths, holds s := by
  induction changes generalizing r with
  | nil => exact h
  | cons c rest ih =>
    exact ih (fun d hd => hadded d (List.mem_cons_of_mem c hd))
      (sources_handle (hadded c (List.mem_cons_self ..)) h)

/-- Changes do not move a session to another phase. -/
theorem phase_apply : (r.apply x now changes).session.phase = r.session.phase := by
  induction changes generalizing r with
  | nil => rfl
  | cons c rest ih => exact ih.trans (phase_handle x c now r)

end Apply

/-! ## What is true all the time -/

section Sound

variable {x : Executor σ} {excludes : Excludes} {r : Run σ} {d : Disk} {e : WatcherEvent}
  {changes : List Change} (hroot : x.root.isRooted = true) (hx : excludes.root.head? = some '/')
include hroot hx

/-- The changes of an event keep what is listed in agreement with what is tracked. -/
theorem consistent_apply (hn : e.normalize d x.root excludes = .ok changes) {later : List Change}
    (hlater : ∀ c ∈ later, c ∈ changes) {now : Nat} (h : ∃ built, Consistent x.kind
      (fun p => isSource p = true → p.Tidy) r.session.sources r.session.outputs built) :
    ∃ built, Consistent x.kind (fun p => isSource p = true → p.Tidy)
      (r.apply x now later).session.sources (r.apply x now later).session.outputs built := by
  induction later generalizing r with
  | nil => exact h
  | cons c rest ih =>
    obtain ⟨built, hbuilt⟩ := h
    refine ih (fun d hd => hlater d (List.mem_cons_of_mem c hd)) ⟨_, consistent_handle
      spelledAlike_tidy (fun hs => ?_) hbuilt⟩
    exact (WatcherEvent.change_spec hroot hx hn (hlater c (List.mem_cons_self ..)) hs).1

/-- The changes of an event keep a watch sound. -/
theorem Sound.event (h : Sound x excludes r)
    (hn : e.normalize d x.root excludes = .ok changes) (now : Nat) :
    Sound x excludes (r.apply x now changes) where
  watching := by rw [phase_apply, h.watching]
  sources := sources_apply (fun c hc hadd hs =>
    ⟨hs, (WatcherEvent.change_spec hroot hx hn hc hs).2 hadd⟩) h.sources
  consistent := consistent_apply hroot hx hn (fun _ hc => hc) h.consistent

/-- A watch is sound all the time, if what it began with are sources that are not excluded. -/
theorem sound_of_watched {found : List Path} (hfound : ∀ s ∈ found, isSource s = true ∧
      (∃ q, x.root.relativeTo? q = some s) ∧ excludes.verdict s false = false)
    (h : Watched x excludes found r) : Sound x excludes r := by
  induction h with
  | start sideFiles s events now =>
    refine ⟨by simp [Run.start, Session.new, enter], ?_, ?_⟩
    · exact sources_call (c := .start found now) hfound (fun p hp _ => hfound p hp)
        (by simp [Session.new, PathSet.empty])
    · have hempty : Consistent x.kind (fun p => isSource p = true → p.Tidy) .empty .empty
          fun _ => False := .empty _ _ fun _ hb => hb
      refine ⟨_, consistent_call (c := .start found now) (r := ⟨.new sideFiles, s, events⟩)
        spelledAlike_tidy (fun p hp hs => ?_) (fun p hp => (hfound p hp).1) hempty⟩
      obtain ⟨q, hq⟩ := (hfound p hp).2.1
      exact (relativeTo_tidy hroot hq).resolve_left (chars_ne_nil_of_isSource hs)
  | event h d e hn now ih => exact ih.event hroot hx hn now
  | tick h now ih =>
    refine ⟨?_, ?_, ?_⟩
    · simpa [tick, reportSyncs_session] using ih.watching
    · simpa [tick, reportSyncs_session] using ih.sources
    · simpa [tick, reportSyncs_session] using ih.consistent
  | outside h s ih => exact ⟨ih.watching, ih.sources, ih.consistent⟩

end Sound

/-! ## A directory that is gone -/

/-- Behind some changes nothing is left of a directory but what they add themselves. -/
structure Cleared (x : Executor σ) (r : Run σ) (dir : Path) (changes : List Change) : Prop where
  /-- A source that is tracked below the directory is one that a change has added. -/
  sources : ∀ s ∈ r.session.sources.paths, s.startsWith dir = true →
    ∃ c ∈ changes, c.kind = .add ∧ c.path.same s = true
  /-- So is a source below the directory whose output is listed. -/
  outputs : ∀ s, isSource s = true → s.startsWith dir = true →
    r.session.outputs.contains (x.outputFor s) = true →
    ∃ c ∈ changes, c.kind = .add ∧ c.path.same s = true

/-- When a path that is not tracked disappears, no source below it is tracked any more. -/
theorem sources_unlink {x : Executor σ} {r : Run σ} {dir : Path} (now : Nat)
    (watching : r.session.phase = .watching) (named : dir.chars ≠ [])
    (untracked : r.session.sources.contains dir = false) :
    ∀ s ∈ (r.handle x ⟨.unlink, dir⟩ now).2.session.sources.paths, s.startsWith dir = false := by
  intro s hs
  by_contra hbelow
  rw [Bool.not_eq_false] at hbelow
  simp only [handle, watching, ne_eq, not_true_eq_false, if_false, untracked, Bool.not_false,
    if_true, onUnlinkTree, named] at hs
  split at hs
  · next hnone =>
    have hmem : s ∈ r.session.sources.paths.filter (·.startsWith dir) :=
      List.mem_filter.mpr ⟨hs, hbelow⟩
    rw [hnone] at hmem
    cases hmem
  · obtain ⟨hs, hdropped⟩ := mem_foldl_onUnlink_iff.mp hs
    have hself := hdropped s (List.mem_filter.mpr ⟨hs, hbelow⟩)
    rw [same_refl] at hself
    cases hself

section Cleared

variable {x : Executor σ} {excludes : Excludes} {r : Run σ} {dir : Path} {changes : List Change}

/-- Where the sources below a directory are gone, so are their outputs. -/
theorem cleared_of_sources (h : Sound x excludes r)
    (hsources : ∀ s ∈ r.session.sources.paths, s.startsWith dir = true →
      ∃ c ∈ changes, c.kind = .add ∧ c.path.same s = true) : Cleared x r dir changes := by
  refine ⟨hsources, fun s hs hbelow hlisted => ?_⟩
  obtain ⟨built, hbuilt⟩ := h.consistent
  -- a listed output is that of a tracked source, which is this one
  obtain ⟨t, ht, hout, -⟩ := (hbuilt.outputs_iff _).mp hlisted
  have hts := same_of_output_same (hbuilt.isSource t ht) hs hout
  have hbelow' : t.startsWith dir = true := by
    rwa [startsWith, same_iff.mp hts]
  obtain ⟨c, hc, hadd, hct⟩ := hsources t ht hbelow'
  exact ⟨c, hc, hadd, same_trans hct hts⟩

/-- A path that is not tracked is not tracked after changes that do not add it. -/
theorem untracked_apply {now : Nat} (untracked : r.session.sources.contains dir = false)
    (hnew : ∀ c ∈ changes, c.kind = .add → c.path.same dir = false) :
    ∀ s ∈ (r.apply x now changes).session.sources.paths, s.same dir = false :=
  sources_apply (fun c hc hadd _ => hnew c hc hadd) (PathSet.contains_eq_false_iff.mp untracked)

/-- Changes among which a directory disappears leave nothing of it, unless they add the directory's
own path. -/
theorem sources_of_unlink {now : Nat} (watching : r.session.phase = .watching)
    (named : dir.chars ≠ []) (untracked : r.session.sources.contains dir = false)
    (hgone : ⟨.unlink, dir⟩ ∈ changes)
    (hnew : ∀ c ∈ changes, c.kind = .add → c.path.same dir = false) :
    ∀ s ∈ (r.apply x now changes).session.sources.paths, s.startsWith dir = true →
      ∃ c ∈ changes, c.kind = .add ∧ c.path.same s = true := by
  obtain ⟨before, after, rfl⟩ := List.append_of_mem hgone
  -- when the directory's turn comes it is not tracked, and what comes later only adds sources
  have huntracked : (r.apply x now before).session.sources.contains dir = false :=
    PathSet.contains_eq_false_iff.mpr (untracked_apply untracked fun c hc =>
      hnew c (List.mem_append_left _ hc))
  have hunlinked := sources_unlink (x := x) now (by rw [phase_apply, watching]) named huntracked
  have hsplit : r.apply x now (before ++ ⟨.unlink, dir⟩ :: after) =
      (((r.apply x now before).handle x ⟨.unlink, dir⟩ now).2).apply x now after := by
    simp [apply, List.foldl_append]
  rw [hsplit]
  refine sources_apply (fun c hc hadd _ _ => ⟨c, by simp [hc], hadd, same_refl _⟩) ?_
  intro s hs hbelow
  rw [hunlinked s hs] at hbelow
  cases hbelow

end Cleared

/-- Every event of a watch that says that a path is gone which is not tracked leaves nothing of it,
unless the event adds the path itself. -/
def Drops (x : Executor σ) (excludes : Excludes) (found : List Path) (gone dir : Path) : Prop :=
  ∀ r, Watched x excludes found r → r.session.sources.contains dir = false →
    ∀ (d : Disk) (e : WatcherEvent) (now : Nat), (.unlink, gone) ∈ e.tagged d →
      ∃ changes, e.normalize d x.root excludes = .ok changes ∧
        ((∀ c ∈ changes, c.kind = .add → c.path.same dir = false) →
          Cleared x (r.apply x now changes) dir changes)

/-- A source that appears and builds is tracked. -/
theorem contains_of_add {x : Executor σ} {r : Run σ} {source output : Path} {s : σ} (now : Nat)
    (watching : r.session.phase = .watching) (hs : isSource source = true)
    (hb : x.build source r.world = (.ok output, s)) :
    (r.handle x ⟨.add, source⟩ now).2.session.sources.contains source = true := by
  simp only [handle, watching, ne_eq, not_true_eq_false, if_false, hs, Bool.not_true,
    Bool.false_eq_true]
  by_cases tracked : r.session.sources.contains source = true
  · simp only [tracked, if_true, onChange, Run.build, hb]
    split
    · exact tracked
    · exact tracked
  · simp only [tracked, onAdd, Run.build, hb]
    exact PathSet.contains_insert.mpr (.inl (same_refl source))

section Drops

variable {x : Executor σ} {gone dir : Path} {excludes : Excludes} {found : List Path}
  (hroot : x.root.isRooted = true) (hx : excludes.root.head? = some '/')
  (hfound : ∀ s ∈ found, isSource s = true ∧ (∃ q, x.root.relativeTo? q = some s) ∧
    excludes.verdict s false = false)
include hroot hx hfound

/-- A watch drops what is below a directory if the excludes let the directory's name pass as that
of a file. -/
theorem drops_of_passing (hgone : x.root.relativeTo? gone = some dir) (hdir : dir.Tidy)
    (hpass : excludes.verdict dir false = false) : Drops x excludes found gone dir := by
  intro r hr untracked d e now htag
  have hsound := sound_of_watched hroot hx hfound hr
  obtain ⟨changes, hn⟩ := WatcherEvent.normalize_ok (d := d) hroot hx e
  refine ⟨changes, hn, fun hnew => ?_⟩
  have hunlink : ⟨.unlink, dir⟩ ∈ changes := by
    refine (WatcherEvent.mem_changesOfAll_iff hn).mpr ⟨_, htag, [⟨.unlink, dir⟩], ?_, by simp⟩
    rw [WatcherEvent.changesOf_tidy hx hgone hdir (by simp), hpass]
    rfl
  exact cleared_of_sources (hsound.event hroot hx hn now)
    (sources_of_unlink hsound.watching hdir.chars_ne_nil untracked hunlink hnew)

/-- A watch has nothing to drop below a directory if the excludes leave out every source there. -/
theorem drops_of_left_out (hout : ∀ q p, x.root.relativeTo? q = some p → isSource p = true →
      p.startsWith dir = true → p.same dir = false → excludes.verdict p false = true) :
    Drops x excludes found gone dir := by
  intro r hr untracked d e now _
  -- what is tracked below the directory would be a source that is not excluded
  have hsound := sound_of_watched hroot hx hfound hr
  obtain ⟨changes, hn⟩ := WatcherEvent.normalize_ok (d := d) hroot hx e
  refine ⟨changes, hn, fun hnew => ?_⟩
  have hsound' := hsound.event hroot hx hn now
  refine cleared_of_sources hsound' fun s hs hbelow => ?_
  obtain ⟨hsource, ⟨q, hq⟩, hin⟩ := hsound'.sources s hs
  rw [hout q s hq hsource hbelow (untracked_apply untracked hnew s hs)] at hin
  cases hin

end Drops

/-- A watch that starts with the sources found and in which another source appears keeps that source
when an excluded directory above it is gone. -/
theorem not_drops {root gone dir p : Path} {excludes : Excludes} {found : List Path}
    (hroot : root.isRooted = true) (hx : excludes.root.head? = some '/')
    (hgone : root.relativeTo? gone = some dir) (hdir : dir.Tidy)
    (hout : excludes.verdict dir false = true) (hfound : ∀ s ∈ found, s.same dir = false)
    (hp : p.Tidy) (hs : isSource p = true) (hbelow : p.startsWith dir = true)
    (hne : p.same dir = false) (hin : excludes.verdict p false = false) :
    ¬Drops (.steady root .ts) excludes found gone dir := by
  intro h
  let x : Executor Unit := .steady root .ts
  let started : Run Unit := Run.start ⟨.new (.new root false false 0), (), []⟩ x found 0
  -- any disk does for the event that adds the source, if no directory is in its place
  have hadd : WatcherEvent.normalize ⟨.file [] 0, []⟩ root excludes ⟨.create, [root.join p]⟩ =
      .ok [⟨.add, p⟩] := by
    rw [WatcherEvent.normalize_tidy hx rfl (relativeTo_join hroot hp) hp fun _ =>
      Disk.isDir_file (isRooted_join hroot p), hin]
    rfl
  have hstarted : Watched x excludes found started := .start _ () [] 0
  have hsources : ∀ s ∈ started.session.sources.paths, s.same dir = false :=
    sources_call (c := .start found 0) hfound (fun s hs _ => hfound s hs)
      (by simp [Session.new, PathSet.empty])
  have huntracked : (started.apply x 0 [⟨.add, p⟩]).session.sources.contains dir = false := by
    refine PathSet.contains_eq_false_iff.mpr (untracked_apply
      (PathSet.contains_eq_false_iff.mpr hsources) fun c hc _ => ?_)
    rw [List.mem_singleton.mp hc, hne]
  -- the directory is excluded, so its event stands for no change
  have hnone : WatcherEvent.normalize ⟨.file [] 0, []⟩ root excludes ⟨.remove, [gone]⟩ =
      .ok [] := by
    rw [WatcherEvent.normalize_tidy hx rfl hgone hdir (by simp), hout]
    rfl
  obtain ⟨changes, hn, hcleared⟩ := h _ (hstarted.event _ _ hadd 0) huntracked ⟨.file [] 0, []⟩
    ⟨.remove, [gone]⟩ 0 (by simp [WatcherEvent.tagged])
  obtain rfl : [] = changes := Except.ok.inj (hnone.symm.trans hn)
  have htracked : (started.apply x 0 [⟨.add, p⟩]).session.sources.contains p = true :=
    contains_of_add 0 (by simp [started, Run.start, Session.new, enter]) hs rfl
  obtain ⟨s, hmem, hsame⟩ := PathSet.contains_iff.mp htracked
  have hsbelow : s.startsWith dir = true := by
    rwa [startsWith, same_iff.mp hsame]
  obtain ⟨c, hc, -⟩ := (hcleared (by simp)).sources s hmem hsbelow
  cases hc

/-- Every watch of a project drops what is below a directory that is gone, exactly when the excludes
let the directory's name pass as that of a file or leave out every source below it. -/
theorem cleared_iff {root gone : Path} {patterns : List String} {excludes : Excludes} {d : Disk}
    {tree : Node} {found : List Path} {names : List Name}
    (hx : Excludes.ofPatterns root patterns = .ok excludes) (hroot : root.isRooted = true)
    (htree : d.stat root = .ok tree) (proper : tree.Proper)
    (hfound : Discovery.sources d root excludes = .ok found)
    (hnames : ∀ n ∈ names, IsName n) (hne : names ≠ [])
    (hgone : root.relativeTo? gone = some (ofNames names)) :
    (∀ (σ : Type) (x : Executor σ), x.root = root → Drops x excludes found gone (ofNames names)) ↔
      (excludes.isExcluded (ofNames names) false = .ok false ∨
        ∀ q p, root.relativeTo? q = some p → isSource p = true →
          p.startsWith (ofNames names) = true → p.same (ofNames names) = false →
          excludes.isExcluded p false = .ok true) := by
  have hxroot := Excludes.head_ofPatterns hx hroot
  have hdir : (ofNames names).Tidy := tidy_ofNames hnames hne
  have hbelow {q p : Path} (hq : root.relativeTo? q = some p) (hs : isSource p = true) : p.Tidy :=
    (relativeTo_tidy hroot hq).resolve_left (chars_ne_nil_of_isSource hs)
  have hspec := fun s hs =>
    Discovery.spec_of_mem_sources hroot hxroot htree proper hfound (s := s) hs
  have hsource : ∀ s ∈ found, isSource s = true ∧ (∃ q, root.relativeTo? q = some s) ∧
      excludes.verdict s false = false := by
    intro s hs
    obtain ⟨hsource, hin, own, hown, hisName, rfl⟩ := hspec s hs
    exact ⟨hsource, ⟨_, relativeTo_join hroot (tidy_ofNames hisName hown)⟩, hin⟩
  rw [Excludes.isExcluded_tidy hxroot hdir, Except.ok.injEq]
  constructor
  · intro h
    by_contra hcond
    push Not at hcond
    obtain ⟨hout, q, p, hq, hs, hunder, hother, hin⟩ := hcond
    rw [ne_eq, Bool.not_eq_false] at hout
    rw [Excludes.isExcluded_tidy hxroot (hbelow hq hs), ne_eq, Except.ok.injEq,
      Bool.not_eq_true] at hin
    refine not_drops hroot hxroot hgone hdir hout (fun s hs => ?_) (hbelow hq hs) hs hunder hother
      hin (h Unit _ rfl)
    -- what was found is spelled by its names, so it would be the directory's path and excluded
    obtain ⟨-, hin, own, -, hisName, rfl⟩ := hspec s hs
    by_contra hsame
    rw [Bool.not_eq_false, same_iff] at hsame
    rw [ofNames_inj hisName hnames hsame, hout] at hin
    cases hin
  · rintro (hpass | hout) σ x rfl
    · exact drops_of_passing hroot hxroot hsource hgone hdir hpass
    · refine drops_of_left_out hroot hxroot hsource fun q p hq hs hunder hother => ?_
      have hp := hout q p hq hs hunder hother
      rwa [Excludes.isExcluded_tidy hxroot (hbelow hq hs), Except.ok.injEq] at hp

/-- Without patterns, a watch drops what is below a directory that is gone. -/
theorem drops_without_patterns :
    Drops (.steady (.ofString "/p") .ts) ⟨"/p".toList, []⟩ [.ofString "vendor/keep.civet"]
      (.ofString "/p/vendor") (ofNames ["vendor".toList]) := by
  have hx : Excludes.ofPatterns (.ofString "/p") [] = .ok ⟨"/p".toList, []⟩ := rfl
  have hfound : Discovery.sources vendorDisk (.ofString "/p") ⟨"/p".toList, []⟩ =
      .ok [.ofString "vendor/keep.civet"] := by decide +kernel
  exact (cleared_iff hx (by decide) rfl proper_vendorTree hfound (by decide) (by decide)
    (by decide +kernel)).mpr (.inl rfl) Unit _ rfl

/-- The disk once the project's directory is gone. -/
def emptiedDisk : Disk :=
  ⟨.dir [("p".toList, .dir [] 0o755)] 0o755, []⟩

/-- A directory that is taken back in, but only as a directory, leaves its source tracked and its
output listed when it is gone. -/
theorem not_cleared_vendor :
    ∃ excludes found changes,
      Excludes.ofPatterns (.ofString "/p") ["vendor", "!vendor/"] = .ok excludes ∧
      Discovery.sources vendorDisk (.ofString "/p") excludes = .ok found ∧
      WatcherEvent.normalize emptiedDisk (.ofString "/p") excludes
        ⟨.remove, [.ofString "/p/vendor"]⟩ = .ok changes ∧
      ¬Cleared (.steady (.ofString "/p") .ts)
        ((Run.start ⟨.new (.new (.ofString "/p") false false 0), (), []⟩
          (.steady (.ofString "/p") .ts) found 0).apply (.steady (.ofString "/p") .ts) 1 changes)
        (.ofString "vendor") changes := by
  have hrun : (Excludes.ofPatterns (.ofString "/p") ["vendor", "!vendor/"]).toOption.map
      (fun x => (Discovery.sources vendorDisk (.ofString "/p") x,
        WatcherEvent.normalize emptiedDisk (.ofString "/p") x
          ⟨.remove, [.ofString "/p/vendor"]⟩)) =
      some (.ok [.ofString "vendor/keep.civet"], .ok []) := by decide +kernel
  cases hx : Excludes.ofPatterns (.ofString "/p") ["vendor", "!vendor/"] with
  | error e =>
    rw [hx] at hrun
    cases hrun
  | ok x =>
    rw [hx] at hrun
    obtain ⟨hfound, hchanges⟩ := Prod.mk.inj (Option.some.inj hrun)
    refine ⟨x, _, _, rfl, hfound, hchanges, fun h => ?_⟩
    obtain ⟨c, hc, -⟩ := h.sources (.ofString "vendor/keep.civet") (.head _) (by decide +kernel)
    cases hc

end Run

end ArtifactSync
