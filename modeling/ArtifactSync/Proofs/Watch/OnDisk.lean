import ArtifactSync.Proofs.Disk.Build
import ArtifactSync.Proofs.Watch.Gone
import ArtifactSync.Proofs.Watch.Log

/-!
# Watches on a disk

Runs that differ only in what they have reported go on alike (`Alike.apply`). A source is settled in
a run if adding it again changes nothing (`Settled`): its build fails, or it leaves the disk as it is
and the source is tracked with its output listed. On a disk every change leads to a later disk
(`later_apply`), and once sources that stand in one tree were added, they are settled
(`settled_apply_add`). For an output of one of them is in nobody else's way: it is a file beside the
sources, with a name of its own, and it stays until the session deletes it.
-/

namespace ArtifactSync.Run

open Path Artifact

/-! ## Runs that go on alike -/

section Alike

variable {σ : Type}

/-- The runs differ at most in what they have reported. -/
structure Alike (r r' : Run σ) : Prop where
  session : r'.session = r.session
  world : r'.world = r.world

namespace Alike

variable {r r' r'' : Run σ}

/-- A run is like itself. -/
theorem refl (r : Run σ) : Alike r r := ⟨rfl, rfl⟩

/-- Likeness goes both ways. -/
theorem symm (h : Alike r r') : Alike r' r := ⟨h.session.symm, h.world.symm⟩

/-- Likeness is passed on. -/
theorem trans (h : Alike r r') (h' : Alike r' r'') : Alike r r'' :=
  ⟨h'.session.trans h.session, h'.world.trans h.world⟩

/-- A build in runs that are alike comes to the same. -/
theorem build (h : Alike r r') (x : Executor σ) (source : Path) (trigger : Trigger) :
    (r'.build x source trigger).1 = (r.build x source trigger).1 ∧
      Alike (r.build x source trigger).2 (r'.build x source trigger).2 := by
  unfold Run.build
  rw [h.world]
  rcases x.build source r.world with ⟨_ | _, s⟩ <;> exact ⟨rfl, h.session, rfl⟩

/-- An output is deleted alike. -/
theorem onUnlink (h : Alike r r') (x : Executor σ) (now : Nat) (source : Path) :
    Alike (onUnlink x now r source) (onUnlink x now r' source) := by
  refine ⟨by rw [onUnlink_session, onUnlink_session, h.session], ?_⟩
  simp only [Run.onUnlink, requestSync, emit, deleteOutput_world, drop, h.world]

/-- So are several. -/
theorem foldl_onUnlink (h : Alike r r') (x : Executor σ) (now : Nat) (sources : List Path) :
    Alike (sources.foldl (Run.onUnlink x now) r) (sources.foldl (Run.onUnlink x now) r') := by
  induction sources generalizing r r' with
  | nil => exact h
  | cons source rest ih => exact ih (h.onUnlink x now source)

/-- An output is listed alike. -/
theorem list (h : Alike r r') (output : Path) (now : Nat) :
    Alike ((r.list output).requestSync now) ((r'.list output).requestSync now) :=
  ⟨by simp only [requestSync, Run.list, h.session], h.world⟩

/-- A source that appears does the same in runs that are alike. -/
theorem onAdd (h : Alike r r') (x : Executor σ) (source : Path) (now : Nat) :
    Alike (r.onAdd x source now).2 (r'.onAdd x source now).2 := by
  obtain ⟨hanswer, hrun⟩ := h.build x source .add
  unfold Run.onAdd
  rcases hb : r.build x source .add with ⟨output, s⟩
  rcases hb' : r'.build x source .add with ⟨output', s'⟩
  rw [hb, hb'] at hanswer hrun
  obtain rfl : output' = output := hanswer
  replace hrun : Alike s s' := hrun
  cases output' with
  | none => exact hrun
  | some output =>
    have htrack : Alike (s.track source) (s'.track source) :=
      ⟨by simp only [track, hrun.session], hrun.world⟩
    exact htrack.list output now

/-- So does one that is built again. -/
theorem onChange (h : Alike r r') (x : Executor σ) (source : Path) (now : Nat) :
    Alike (r.onChange x source now).2 (r'.onChange x source now).2 := by
  obtain ⟨hanswer, hrun⟩ := h.build x source .change
  unfold Run.onChange
  rcases hb : r.build x source .change with ⟨output, s⟩
  rcases hb' : r'.build x source .change with ⟨output', s'⟩
  rw [hb, hb'] at hanswer hrun
  obtain rfl : output' = output := hanswer
  replace hrun : Alike s s' := hrun
  cases output' with
  | none => exact hrun
  | some output =>
    simp only [hrun.session]
    by_cases hlisted : s.session.outputs.contains output = true
    · rw [if_pos hlisted, if_pos hlisted]
      exact hrun
    · rw [if_neg hlisted, if_neg hlisted]
      exact hrun.list output now

/-- So does a path that disappears. -/
theorem onUnlinkTree (h : Alike r r') (x : Executor σ) (dir : Path) (now : Nat) :
    Alike (r.onUnlinkTree x dir now).2 (r'.onUnlinkTree x dir now).2 := by
  unfold Run.onUnlinkTree
  rw [h.session]
  simp only
  generalize (if dir.chars = [] then [] else
    r.session.sources.paths.filter (·.startsWith dir)) = below
  by_cases hbelow : below = []
  · rw [if_pos hbelow, if_pos hbelow]
    exact h
  · rw [if_neg hbelow, if_neg hbelow]
    exact h.foldl_onUnlink x now below

/-- A change does the same in runs that are alike. -/
theorem handle (h : Alike r r') (x : Executor σ) (c : Change) (now : Nat) :
    Alike (r.handle x c now).2 (r'.handle x c now).2 := by
  have hadd := h.onAdd x c.path now
  have hchange := h.onChange x c.path now
  have htree := h.onUnlinkTree x c.path now
  have hunlink := h.onUnlink x now c.path
  unfold Run.handle
  simp only [h.session]
  -- both runs ask the same of the session, so they take the same way
  by_cases hphase : r.session.phase = .watching
  · simp only [hphase, ne_eq, not_true_eq_false, if_false]
    cases c.kind with
    | unlink =>
      cases r.session.sources.contains c.path <;> cases isSource c.path
      all_goals first | exact htree | exact hunlink | exact h
    | add =>
      cases r.session.sources.contains c.path <;> cases isSource c.path
      all_goals first | exact hadd | exact hchange | exact h
    | change =>
      cases r.session.sources.contains c.path <;> cases isSource c.path
      all_goals first | exact hchange | exact h
  · simpa only [ne_eq, hphase, not_false_eq_true, if_true] using h

/-- So do several. -/
theorem apply (h : Alike r r') (x : Executor σ) (now : Nat) (changes : List Change) :
    Alike (r.apply x now changes) (r'.apply x now changes) := by
  induction changes generalizing r r' with
  | nil => exact h
  | cons c rest ih => exact ih (h.handle x c now)

end Alike

/-- Changes behind others are applied to what these lead to. -/
theorem apply_append (x : Executor σ) (now : Nat) (r : Run σ) (before after : List Change) :
    r.apply x now (before ++ after) = (r.apply x now before).apply x now after :=
  List.foldl_append

/-! ## Sources that are added -/

/-- What becomes of a run when a path is added. -/
inductive AddedTo (x : Executor σ) (r : Run σ) (source : Path) (r' : Run σ) : Prop
  /-- The path is none of a source. -/
  | ignored (other : isSource source = false) (same : r' = r)
  /-- The build fails. -/
  | failed (named : isSource source = true) (e : BuildError)
      (build : x.build source r.world = (.error e, r'.world))
      (session : r'.session = r.session)
  /-- The build goes through. -/
  | built (named : isSource source = true)
      (build : x.build source r.world = (.ok (x.outputFor source), r'.world))
      (sources : r'.session.sources = r.session.sources.insert source)
      (outputs : r'.session.outputs = r.session.outputs.insert (x.outputFor source))
      (known : r.session.sources.contains source = true →
        r.session.outputs.contains (x.outputFor source) = true → r'.session = r.session)

/-- There is nothing else that can become of it. -/
theorem addedTo_handle {r : Run σ} (watching : r.session.phase = .watching) (x : Executor σ)
    (source : Path) (now : Nat) :
    AddedTo x r source (r.handle x ⟨.add, source⟩ now).2 := by
  by_cases hs : isSource source = true
  swap
  · refine .ignored (by simpa using hs) ?_
    simp [handle, watching, hs]
  have hbuild (trigger : Trigger) :
      (∃ e, x.build source r.world = (.error e, (r.build x source trigger).2.world) ∧
        (r.build x source trigger).1 = none) ∨
      (x.build source r.world = (.ok (x.outputFor source), (r.build x source trigger).2.world) ∧
        (r.build x source trigger).1 = some (x.outputFor source)) := by
    unfold Run.build
    rcases hb : x.build source r.world with ⟨e | output, s⟩
    · exact .inl ⟨e, rfl, rfl⟩
    · obtain rfl := Executor.build_ok hb
      exact .inr ⟨rfl, rfl⟩
  by_cases htracked : r.session.sources.contains source = true
  · -- a source that is tracked is built again
    have hhandle : (r.handle x ⟨.add, source⟩ now).2 = (r.onChange x source now).2 := by
      simp [handle, watching, hs, htracked]
    rw [hhandle]
    have hsources : r.session.sources = r.session.sources.insert source :=
      (PathSet.insert_of_contains htracked).symm
    rcases hb : r.build x source .change with ⟨answer, s⟩
    have hsession := session_of_build hb
    have hcases := hbuild .change
    rw [hb] at hcases
    unfold onChange
    rw [hb]
    rcases hcases with ⟨e, herror, hanswer⟩ | ⟨hok, hanswer⟩
    · obtain rfl : answer = none := hanswer
      exact .failed hs e herror hsession
    · obtain rfl : answer = some (x.outputFor source) := hanswer
      by_cases hlisted : s.session.outputs.contains (x.outputFor source) = true
      · simp only [if_pos hlisted]
        refine .built hs hok (by rw [hsession, ← hsources]) ?_ fun _ _ => hsession
        rw [hsession] at hlisted ⊢
        exact (PathSet.insert_of_contains hlisted).symm
      · simp only [if_neg hlisted]
        refine .built hs hok ?_ ?_ fun _ hknown => ?_
        · rw [requestSync_sources, list_sources, hsession, ← hsources]
        · rw [requestSync_outputs, list_outputs, hsession]
        · rw [hsession] at hlisted
          exact absurd hknown hlisted
  · -- any other source is new
    have hhandle : (r.handle x ⟨.add, source⟩ now).2 = (r.onAdd x source now).2 := by
      simp [handle, watching, hs, htracked]
    rw [hhandle]
    rcases hb : r.build x source .add with ⟨answer, s⟩
    have hsession := session_of_build hb
    have hcases := hbuild .add
    rw [hb] at hcases
    unfold onAdd
    rw [hb]
    rcases hcases with ⟨e, herror, hanswer⟩ | ⟨hok, hanswer⟩
    · obtain rfl : answer = none := hanswer
      exact .failed hs e herror hsession
    · obtain rfl : answer = some (x.outputFor source) := hanswer
      refine .built hs hok ?_ ?_ fun hknown _ => absurd hknown htracked
      · rw [requestSync_sources, list_sources, track_sources, hsession]
      · rw [requestSync_outputs, list_outputs, track_outputs, hsession]

/-- To add the path again changes nothing. -/
def Settled (x : Executor σ) (r : Run σ) (source : Path) : Prop :=
  isSource source = true →
    (∃ e, x.build source r.world = (.error e, r.world)) ∨
      (x.build source r.world = (.ok (x.outputFor source), r.world) ∧
        r.session.sources.contains source = true ∧
        r.session.outputs.contains (x.outputFor source) = true)

/-- It is settled in every run that is alike. -/
theorem Settled.congr {x : Executor σ} {r r' : Run σ} {source : Path} (h : Settled x r source)
    (halike : Alike r r') : Settled x r' source := by
  intro hs
  rw [halike.world, halike.session]
  exact h hs

/-- What is settled may be added, and nothing changes. -/
theorem Settled.handle {x : Executor σ} {r : Run σ} {source : Path} (h : Settled x r source)
    (watching : r.session.phase = .watching) (now : Nat) :
    Alike r (r.handle x ⟨.add, source⟩ now).2 := by
  cases addedTo_handle watching x source now with
  | ignored other same => rw [same]; exact .refl r
  | failed named e build session =>
    refine ⟨session, ?_⟩
    rcases h named with ⟨e', herror⟩ | ⟨hok, -, -⟩
    · rw [herror] at build
      exact (Prod.mk.inj build).2.symm
    · rw [hok] at build
      cases (Prod.mk.inj build).1
  | built named build sources outputs known =>
    rcases h named with ⟨e', herror⟩ | ⟨hok, htracked, hlisted⟩
    · rw [herror] at build
      cases (Prod.mk.inj build).1
    · rw [hok] at build
      exact ⟨known htracked hlisted, (Prod.mk.inj build).2.symm⟩

/-- So may several. -/
theorem alike_apply_of_settled {x : Executor σ} {r : Run σ} {changes : List Change}
    (watching : r.session.phase = .watching)
    (h : ∀ c ∈ changes, c.kind = .add ∧ Settled x r c.path) (now : Nat) :
    Alike r (r.apply x now changes) := by
  induction changes generalizing r with
  | nil => exact .refl r
  | cons c rest ih =>
    obtain ⟨⟨hkind, hsettled⟩, hrest⟩ := List.forall_mem_cons.mp h
    have hc : c = ⟨.add, c.path⟩ := by rw [← hkind]
    have hfirst : Alike r (r.handle x c now).2 := by
      rw [hc]
      exact hsettled.handle watching now
    refine hfirst.trans (ih (by rw [hfirst.session, watching]) fun d hd => ?_)
    exact ⟨(hrest d hd).1, (hrest d hd).2.congr hfirst⟩

end Alike

/-! ## Changes lead to later disks -/

section Later

variable {root : Path} {kind : OutputKind}
  {compile : String → Path → Except CompileError String} {faults : Call → Option FsError}
  (rooted : root.isRooted = true)
include rooted

/-- A source that disappears leads to a later disk: at most its output goes. -/
theorem later_onUnlink {r : Run Disk} (ordered : r.world.top.Ordered) {source : Path}
    (hs : isSource source = true) (now : Nat) :
    Disk.Later r.world
      (onUnlink (Executor.overDisk root kind compile faults) now r source).world := by
  have hworld : (onUnlink (Executor.overDisk root kind compile faults) now r source).world =
      ((Disk.fileSystem.faulty faults).remove (root.join (output source kind)) r.world).2 :=
    deleteOutput_world _ _ _
  rw [hworld]
  simp only [FileSystem.faulty, Disk.fileSystem]
  cases faults (.remove (root.join (output source kind))) with
  | some e => exact .refl ordered
  | none =>
    obtain ⟨ps, name, hends, haside⟩ := exists_endsIn_output rooted hs kind
    rcases Disk.unlink_cases hends r.world with ⟨e, he⟩ | ⟨hname, names, hat, hold, hok⟩
    · simp only [he, Disk.answer]
      exact .refl ordered
    · simp only [hok, Disk.answer]
      have hup : name ≠ ['.', '.'] := by
        rintro rfl
        cases hname
      obtain ⟨trail, -, hon, hdir, rfl⟩ := Disk.dirAt_eq_some_iff.mp hat
      have hfile (c : Node) (hc : none = some c) : c.isFile = true := by
        cases hc
      exact .putAt ordered (haside hup) hon.at_names hdir hold hfile

/-- So do several. -/
theorem later_foldl_onUnlink {r : Run Disk} (ordered : r.world.top.Ordered) {sources : List Path}
    (hs : ∀ s ∈ sources, isSource s = true) (now : Nat) :
    Disk.Later r.world
      (sources.foldl (onUnlink (Executor.overDisk root kind compile faults) now) r).world := by
  induction sources generalizing r with
  | nil => exact .refl ordered
  | cons source rest ih =>
    obtain ⟨hfirst, hrest⟩ := List.forall_mem_cons.mp hs
    have hlater : Disk.Later r.world
        (onUnlink (Executor.overDisk root kind compile faults) now r source).world :=
      later_onUnlink rooted ordered hfirst now
    exact hlater.trans (ih hlater.ordered hrest)

omit rooted in
/-- So does a build. -/
theorem later_build {d : Disk} (ordered : d.top.Ordered) {source : Path} {ps : List Name}
    {last : Name} (site : Site root kind source ps last) :
    Disk.Later d ((Executor.overDisk root kind compile faults).build source d).2 := by
  rcases site.build_cases compile faults d with ⟨names, text, hbuilds⟩ | ⟨e, he⟩
  · rw [site.build_of_builds hbuilds]
    exact site.later_of_builds ordered hbuilds
  · rw [he]
    exact .refl ordered

/-- A change leads to a later disk, if the source that it names has its place. -/
theorem later_handle {r : Run Disk} (ordered : r.world.top.Ordered)
    (htracked : ∀ s ∈ r.session.sources.paths, isSource s = true) {c : Change}
    (hc : isSource c.path = true → ∃ ps last, Site root kind c.path ps last) (now : Nat) :
    Disk.Later r.world
      (r.handle (Executor.overDisk root kind compile faults) c now).2.world := by
  have hhandled := handled (Executor.overDisk root kind compile faults) c now r
  generalize r.handle (Executor.overDisk root kind compile faults) c now = answer at hhandled ⊢
  obtain ⟨outcome, r'⟩ := answer
  dsimp only at hhandled ⊢
  have hbuild {r' : Run Disk} {trigger : Trigger} {output : Option Path}
      (hs : isSource c.path = true)
      (hb : r.build (Executor.overDisk root kind compile faults) c.path trigger = (output, r')) :
      Disk.Later r.world r'.world := by
    obtain ⟨ps, last, site⟩ := hc hs
    rw [(world_of_build hb).1]
    exact later_build ordered site
  cases hhandled with
  | ignored => exact .refl ordered
  | failed trigger watching source build => exact hbuild source build
  | added appeared watching source fresh build =>
    have hlater := hbuild source build
    exact hlater
  | rebuilt watching source tracked build listed => exact hbuild source build
  | mended watching source tracked build unlisted =>
    have hlater := hbuild source build
    exact hlater
  | removed watching source tracked => exact later_onUnlink rooted ordered source now
  | removedBelow watching named untracked =>
    exact later_foldl_onUnlink rooted ordered
      (fun s hs => htracked s (List.mem_of_mem_filter hs)) now

/-- So do several. -/
theorem later_apply {r : Run Disk} (ordered : r.world.top.Ordered)
    (htracked : ∀ s ∈ r.session.sources.paths, isSource s = true) {changes : List Change}
    (hchanges : ∀ c ∈ changes, isSource c.path = true → ∃ ps last, Site root kind c.path ps last)
    (now : Nat) :
    Disk.Later r.world
      (r.apply (Executor.overDisk root kind compile faults) now changes).world := by
  induction changes generalizing r with
  | nil => exact .refl ordered
  | cons c rest ih =>
    obtain ⟨hc, hrest⟩ := List.forall_mem_cons.mp hchanges
    have hlater : Disk.Later r.world
        (r.handle (Executor.overDisk root kind compile faults) c now).2.world :=
      later_handle rooted ordered htracked hc now
    exact hlater.trans (ih hlater.ordered (sources_handle (fun _ hs => hs) htracked) hrest)

end Later

/-! ## Sources in one tree -/

/-- On a disk, a source stands some directories below a place that pieces lead to. -/
structure Stands (d : Disk) (root : Path) (front base : List Name) (source : Path)
    (dirs : List Name) (last : Name) : Prop where
  path : source = ofNames (front ++ dirs ++ [last])
  names : ∀ n ∈ front ++ dirs ++ [last], IsName n
  dirAt : d.dirAt (Disk.piecesOf root.chars ++ front) = some base
  file : ∃ bytes mode, d.top.at? (base ++ dirs ++ [last]) = some (.file bytes mode)

namespace Stands

variable {d d' : Disk} {root : Path} {front base : List Name} {source : Path} {dirs : List Name}
  {last : Name} (h : Stands d root front base source dirs last)
include h

/-- It has its place. -/
theorem site (rooted : root.isRooted = true) (hs : isSource source = true) (kind : OutputKind) :
    Site root kind source (Disk.piecesOf root.chars ++ (front ++ dirs)) last := by
  have hsite := site_ofNames rooted h.names (by rwa [← h.path]) kind
  rwa [← h.path] at hsite

variable (later : Disk.Later d d')
include later

/-- On a later disk its directory is there under the same names, or cannot be reached. -/
theorem names_eq {names : List Name}
    (hat : d'.dirAt (Disk.piecesOf root.chars ++ (front ++ dirs)) = some names) :
    names = base ++ dirs := by
  obtain ⟨bytes, mode, hfile⟩ := h.file
  have hbefore := later.dirAt hat
  rw [← List.append_assoc] at hbefore
  exact Disk.dirAt_append h.dirAt (fun n hn => h.names n (by simp [hn])) (List.cons_ne_nil last [])
    hfile hbefore

/-- On a later disk it is still there. -/
theorem real (hs : isSource ⟨last⟩ = true) (names : List Name)
    (hat : d'.dirAt (Disk.piecesOf root.chars ++ (front ++ dirs)) = some names) :
    ∃ bytes mode, d'.top.at? (names ++ [last]) = some (.file bytes mode) := by
  obtain ⟨bytes, mode, hfile⟩ := h.file
  obtain rfl := h.names_eq later hat
  have houtline : d'.top.outline (base ++ dirs ++ [last]) = some (.file bytes mode) := by
    rw [later.outline_source hs, Disk.outline_eq_some_iff]
    exact ⟨_, hfile, rfl⟩
  obtain ⟨node, hnode, hemptied⟩ := Disk.outline_eq_some_iff.mp houtline
  exact ⟨bytes, mode, by rw [hnode, Node.eq_of_emptied hemptied rfl]⟩

end Stands

section Settle

variable {root : Path} {kind : OutputKind}
  {compile : String → Path → Except CompileError String} {faults : Call → Option FsError}
  {front base : List Name} (rooted : root.isRooted = true) {d : Disk} {r : Run Disk}
  (later : Disk.Later d r.world) (watching : r.session.phase = .watching)
include rooted later watching

/-- Once a source was added it is settled. -/
theorem settled_self {source : Path} {dirs : List Name} {last : Name}
    (h : Stands d root front base source dirs last) (now : Nat) :
    Settled (Executor.overDisk root kind compile faults)
      (r.handle (Executor.overDisk root kind compile faults) ⟨.add, source⟩ now).2 source := by
  intro hs
  have site := h.site rooted hs kind
  have hadded := addedTo_handle watching (Executor.overDisk root kind compile faults) source now
  generalize (r.handle (Executor.overDisk root kind compile faults) ⟨.add, source⟩ now).2 = r'
    at hadded ⊢
  cases hadded with
  | ignored other same =>
    rw [hs] at other
    cases other
  | failed named e build session =>
    -- a build that fails leaves the disk alone, so it fails again
    have hworld := site.eq_of_error build
    rw [hworld] at build ⊢
    exact .inl ⟨e, build⟩
  | built named build sources outputs known =>
    obtain ⟨names, text, hbuilds, hworld⟩ := site.builds_of_ok build
    have hlater := site.later_of_builds later.ordered hbuilds
    obtain ⟨trail, -, hon, hdir, rfl⟩ := Disk.dirAt_eq_some_iff.mp hbuilds.dirAt
    have hthere := Disk.at_putAt hon.at_names hdir (outputName kind last)
      (some (built root kind source r.world text))
    rw [← hworld] at hlater hthere
    rcases rebuild site hlater (h.real later site.isSource) hbuilds hthere with herror | hok
    · exact .inl herror
    · refine .inr ⟨hok, ?_, ?_⟩
      · rw [sources, PathSet.contains_insert]
        exact .inl (same_refl _)
      · rw [outputs, PathSet.contains_insert]
        exact .inl (same_refl _)

omit rooted later watching in
/-- What is settled stays so on a later disk, as long as its output stays where it is and the session
forgets nothing. -/
theorem Settled.of_later {r' : Run Disk} {source : Path} {ps : List Name} {last : Name}
    (h : Settled (Executor.overDisk root kind compile faults) r source)
    (site : Site root kind source ps last) (later : Disk.Later r.world r'.world)
    (real : ∀ names, r.world.dirAt ps = some names →
      ∃ bytes mode, r.world.top.at? (names ++ [last]) = some (.file bytes mode))
    (stays : ∀ names c, r.world.dirAt ps = some names → c.isDir = false →
      r.world.top.at? (names ++ [outputName kind last]) = some c →
        r'.world.top.at? (names ++ [outputName kind last]) = some c)
    (sources : r.session.sources.contains source = true →
      r'.session.sources.contains source = true)
    (outputs : r.session.outputs.contains (output source kind) = true →
      r'.session.outputs.contains (output source kind) = true) :
    Settled (Executor.overDisk root kind compile faults) r' source := by
  intro hs
  rcases h hs with ⟨e, herror⟩ | ⟨hok, htracked, hlisted⟩
  · -- a build that fails on the disk fails on a later one
    rcases site.build_cases compile faults r'.world with ⟨names, text, hbuilds⟩ | herror'
    · have hbefore := hbuilds.of_later site later real
      rw [site.build_of_builds hbefore] at herror
      cases (Prod.mk.inj herror).1
    · exact .inl herror'
  · -- one that goes through has put its file down before, and finds it there
    obtain ⟨names, text, hbuilds, hself⟩ := site.builds_of_ok hok
    obtain ⟨trail, -, hon, hdir, rfl⟩ := Disk.dirAt_eq_some_iff.mp hbuilds.dirAt
    have hthere := Disk.at_putAt hon.at_names hdir (outputName kind last)
      (some (built root kind source r.world text))
    rw [← hself] at hthere
    rcases rebuild site later real hbuilds (stays _ _ hbuilds.dirAt rfl hthere) with
      herror | hok'
    · exact .inl herror
    · exact .inr ⟨hok', sources htracked, outputs hlisted⟩

/-- What is settled stays so when another source of the tree is added. -/
theorem settled_other {s t : Path} {dirs dirs' : List Name} {last last' : Name}
    (hs : Stands d root front base s dirs last) (ht : Stands d root front base t dirs' last')
    (hne : s ≠ t) (h : Settled (Executor.overDisk root kind compile faults) r t) (now : Nat) :
    Settled (Executor.overDisk root kind compile faults)
      (r.handle (Executor.overDisk root kind compile faults) ⟨.add, s⟩ now).2 t := by
  have hadded := addedTo_handle watching (Executor.overDisk root kind compile faults) s now
  generalize (r.handle (Executor.overDisk root kind compile faults) ⟨.add, s⟩ now).2 = r'
    at hadded ⊢
  cases hadded with
  | ignored other same => rwa [same]
  | failed named e build session =>
    have site := hs.site rooted named kind
    exact h.congr ⟨session, site.eq_of_error build⟩
  | built named build sources outputs known =>
    intro hsource
    have site := hs.site rooted named kind
    have site' := ht.site rooted hsource kind
    obtain ⟨names, text, hbuilds, hworld⟩ := site.builds_of_ok build
    have hlater := site.later_of_builds later.ordered hbuilds
    rw [← hworld] at hlater
    refine h.of_later site' hlater (ht.real later site'.isSource) (fun names' c hat hdir hc => ?_)
      (fun htracked => ?_) (fun hlisted => ?_) hsource
    · -- the two outputs have places of their own, as the sources have
      have hplaces : names' ++ [outputName kind last'] ≠ names ++ [outputName kind last] := by
        intro heq
        obtain ⟨hnames, hlast⟩ := List.append_inj' heq rfl
        rw [hs.names_eq later hbuilds.dirAt, ht.names_eq later hat] at hnames
        have hdirs := List.append_cancel_left hnames
        have hlasts := outputName_injective site'.isName site.isName site'.isSource site.isSource
          (List.cons.inj hlast).1
        exact hne (by rw [hs.path, ht.path, hdirs, hlasts])
      have hnew : ∀ c, some (built root kind s r.world text) = some c → c.isDir = false := by
        rintro c hc
        cases hc
        rfl
      have houtline : r'.world.top.outline (names' ++ [outputName kind last']) = some c := by
        rw [hworld, Disk.putAt, Node.outline_alter
          (fun c hc => .of_not_isDir (hbuilds.place.free c hc))
          (fun c hc => .of_not_isDir (hnew c hc)) hplaces, Disk.outline_eq_some_iff]
        exact ⟨c, hc, Node.emptied_of_not_isDir hdir⟩
      obtain ⟨node, hnode, hemptied⟩ := Disk.outline_eq_some_iff.mp houtline
      rw [hnode, Node.eq_of_emptied hemptied hdir]
    · rw [sources, PathSet.contains_insert]
      exact .inr htracked
    · rw [outputs, PathSet.contains_insert]
      exact .inr hlisted

/-- Once changes have added sources of the tree, these are settled, and what was settled before
is. -/
theorem settled_apply_add {changes : List Change}
    (hchanges : ∀ c ∈ changes, c.kind = .add ∧ (isSource c.path = true →
      ∃ dirs last, Stands d root front base c.path dirs last))
    (htracked : ∀ s ∈ r.session.sources.paths, isSource s = true) (now : Nat) {t : Path}
    {dirs : List Name} {last : Name} (ht : Stands d root front base t dirs last)
    (h : Settled (Executor.overDisk root kind compile faults) r t ∨ ∃ c ∈ changes, c.path = t) :
    Settled (Executor.overDisk root kind compile faults)
      (r.apply (Executor.overDisk root kind compile faults) now changes) t := by
  induction changes generalizing r with
  | nil => exact h.resolve_right (by simp)
  | cons c rest ih =>
    obtain ⟨⟨hkind, hstands⟩, hrest⟩ := List.forall_mem_cons.mp hchanges
    have hc : c = ⟨.add, c.path⟩ := by rw [← hkind]
    have hlater : Disk.Later r.world
        (r.handle (Executor.overDisk root kind compile faults) c now).2.world := by
      refine later_handle rooted later.ordered htracked (fun hs => ?_) now
      obtain ⟨dirs, last, hstands⟩ := hstands hs
      exact ⟨_, last, hstands.site rooted hs kind⟩
    refine ih (later.trans hlater) ?_ hrest (sources_handle (fun _ hs => hs) htracked) ?_
    · rw [phase_handle, watching]
    by_cases hself : c.path = t
    · -- the source is the one that is added here
      refine .inl ?_
      rw [hc, hself]
      exact settled_self rooted later watching ht now
    · refine h.imp (fun h => ?_) fun ⟨c', hmem, hpath⟩ => ?_
      · by_cases hs : isSource c.path = true
        · obtain ⟨dirs', last', hstands⟩ := hstands hs
          rw [hc]
          exact settled_other rooted later watching hstands ht hself h now
        · have hsame : (r.handle (Executor.overDisk root kind compile faults) c now).2 = r := by
            rw [hc]
            simp [handle, watching, hs]
          show Settled _ (r.handle (Executor.overDisk root kind compile faults) c now).2 t
          rwa [hsame]
      · rcases List.mem_cons.mp hmem with rfl | hmem
        · exact absurd hpath hself
        · exact ⟨c', hmem, hpath⟩

end Settle

end ArtifactSync.Run
