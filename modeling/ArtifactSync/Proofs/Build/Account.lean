import ArtifactSync.CommandLine.Run
import ArtifactSync.Proofs.Build.Repeat
import ArtifactSync.Proofs.Discovery.Listed
import ArtifactSync.Proofs.Watch.Atomic
import ArtifactSync.Proofs.Watch.Log
import Mathlib.Data.List.Forall2

/-!
# What a batch build accounts for

A batch build keeps four accounts of its sources: those that were built, those that failed, the set
of outputs, and the events. They agree (`BatchResult.Counts`, `BatchResult.Tells`) after every
source, and no file was changed but the outputs of sources that were built (`BatchResult.SoFar`); one
more source keeps that up (`SoFar.build`), so it holds behind all of them (`soFar_built`). Different
sources have different outputs, so the set has as many members as sources were built. Behind the
sources each side file that is kept is given that set, once (`BatchResult.Updates`).

A build that cannot begin (`Refused`) ends the program with a complaint before anything was done.
-/

namespace ArtifactSync

open Path Artifact

variable {σ τ : Type}

/-! ## Accounts -/

namespace BatchResult

/-- The lists of a result take the sources apart, in their order, and its set is made of the outputs
of those that were built. -/
structure Counts (x : Executor σ) (sources : List Path) (r : BatchResult τ) : Prop where
  built : r.built.Sublist sources
  failed : (r.failed.map Prod.fst).Sublist sources
  /-- Every source is in one of the lists, once. -/
  once : ∀ p ∈ sources, r.built.count p + (r.failed.map Prod.fst).count p = 1
  outputs : ∀ p, p ∈ r.outputs.paths ↔ ∃ q ∈ r.built, p = x.outputFor q
  size : r.outputs.size = r.built.length

/-- An event tells what has become of a source. -/
inductive Tells (x : Executor σ) (r : BatchResult τ) (source : Path) : BuildEvent → Prop
  | built (done : source ∈ r.built) : Tells x r source (.built source (x.outputFor source))
  | failed (cause : BuildError) (about : cause.source = source)
      (listed : (source, cause.toString) ∈ r.failed) : Tells x r source (.ofError cause)

/-- What a result says after some sources, before the side files are updated. -/
structure SoFar (x : Executor σ) (started : BuildEvent) (s : Logged σ) (done : List Path)
    (r : BatchResult (Logged σ)) : Prop extends Counts x done r where
  told : ∃ events, r.events = started :: events ∧ List.Forall₂ (Tells x r) done events
  /-- Only outputs of sources that were built have been changed. -/
  does : x.Does (Permitted x done r.built .empty fun _ => False) s r.world

/-- One more source was built, or it failed and nothing was written. -/
theorem build_cases (x : Executor σ) (r : BatchResult σ) (p : Path) :
    ((x.build p r.world).1 = .ok (x.outputFor p) ∧ r.build x p =
        { r with
          built := r.built ++ [p]
          outputs := r.outputs.insert (x.outputFor p)
          events := r.events ++ [.built p (x.outputFor p)]
          world := (x.build p r.world).2 }) ∨
      ∃ e, (x.build p r.world).1 = .error e ∧ e.source = p ∧ r.build x p =
        { r with
          failed := r.failed ++ [(p, e.toString)]
          events := r.events ++ [.ofError e]
          world := (x.build p r.world).2 } := by
  unfold BatchResult.build
  rcases hbuild : x.build p r.world with ⟨e | output, s⟩
  · obtain ⟨steps, hfails⟩ := Executor.build_eq_error_iff.mp hbuild
    exact .inr ⟨e, rfl, hfails.source_eq, rfl⟩
  · obtain rfl := Executor.build_ok hbuild
    exact .inl ⟨rfl, rfl⟩

/-- An event tells the same when more sources are listed. -/
theorem Tells.mono {x : Executor σ} {r r' : BatchResult τ} {source : Path} {e : BuildEvent}
    (h : Tells x r source e) (hbuilt : r.built ⊆ r'.built) (hfailed : r.failed ⊆ r'.failed) :
    Tells x r' source e := by
  cases h with
  | built done => exact .built (hbuilt done)
  | failed cause about listed => exact .failed cause about (hfailed listed)

section More

variable {x : Executor σ} {done : List Path} {p : Path} {r : BatchResult τ}
  (hfresh : ∀ q ∈ done, q.same p = false)
include hfresh

/-- Two lists that take the sources apart take one more source apart when it is added to one of
them. -/
theorem once_append {built failed built' failed' : List Path} (hbuilt : built.Sublist done)
    (hfailed : failed.Sublist done) (once : ∀ q ∈ done, built.count q + failed.count q = 1)
    (hone : ∀ q, built'.count q + failed'.count q = built.count q + failed.count q + [p].count q) :
    ∀ q ∈ done ++ [p], built'.count q + failed'.count q = 1 := by
  have hp : p ∉ done := by
    intro hp
    have hne := hfresh p hp
    rw [same_refl] at hne
    cases hne
  intro q hq
  rw [hone]
  rcases List.mem_append.mp hq with hq | hq
  · have hne : q ∉ [p] := by
      rintro hqp
      exact hp (List.mem_singleton.mp hqp ▸ hq)
    rw [once q hq, List.count_eq_zero.mpr hne]
  · obtain rfl := List.mem_singleton.mp hq
    rw [List.count_eq_zero.mpr fun h => hp (hbuilt.subset h),
      List.count_eq_zero.mpr fun h => hp (hfailed.subset h), List.count_singleton_self]

variable (h : r.Counts x done)
include h

/-- One more source failed. -/
theorem Counts.addFailed (text : String) (events : List BuildEvent) (s : τ) :
    Counts x (done ++ [p])
      { r with
        failed := r.failed ++ [(p, text)]
        events := events
        world := s } where
  built := h.built.trans (List.sublist_append_left done [p])
  failed := by
    rw [List.map_append]
    exact h.failed.append (.refl [p])
  once := once_append hfresh h.built h.failed h.once fun q => by
    simp only [List.map_append, List.count_append, List.map_cons, List.map_nil, Nat.add_assoc]
  outputs := h.outputs
  size := h.size

variable (hsources : ∀ q ∈ done ++ [p], isSource q = true)
include hsources

/-- The output of one more source is not listed, for different sources have different outputs. -/
theorem Counts.contains_outputFor : r.outputs.contains (x.outputFor p) = false := by
  rw [PathSet.contains_eq_false_iff]
  intro output houtput
  obtain ⟨q, hq, rfl⟩ := (h.outputs output).mp houtput
  have hdone := h.built.subset hq
  -- an output that is listed already would be that of the same source
  by_contra hsame
  rw [Bool.not_eq_false] at hsame
  have hqp := same_of_output_same (hsources q (by simp [hdone])) (hsources p (by simp)) hsame
  rw [hfresh q hdone] at hqp
  cases hqp

/-- One more source was built. -/
theorem Counts.addBuilt (events : List BuildEvent) (s : τ) :
    Counts x (done ++ [p])
      { r with
        built := r.built ++ [p]
        outputs := r.outputs.insert (x.outputFor p)
        events := events
        world := s } where
  built := h.built.append (.refl [p])
  failed := h.failed.trans (List.sublist_append_left done [p])
  once := once_append hfresh h.built h.failed h.once fun q => by
    rw [List.count_append, Nat.add_right_comm]
  outputs := by
    intro output
    rw [PathSet.mem_insert, h.outputs, h.contains_outputFor hfresh hsources]
    simp [or_and_right, exists_or, or_comm]
  size := by
    rw [PathSet.size_insert (h.contains_outputFor hfresh hsources), h.size, List.length_append]
    rfl

end More

section Loop

variable {x : Executor σ} {started : BuildEvent} {s : Logged σ} {done : List Path}
  {r : BatchResult (Logged σ)}

/-- One more source leaves the accounts in order. -/
theorem SoFar.build (h : r.SoFar x started s done) {p : Path}
    (hfresh : ∀ q ∈ done, q.same p = false) (hsources : ∀ q ∈ done ++ [p], isSource q = true) :
    (r.build x.logged p).SoFar x started s (done ++ [p]) := by
  obtain ⟨events, hevents, htold⟩ := h.told
  have hdone : done ⊆ done ++ [p] := List.subset_append_left done [p]
  have hdoes {built : List Path} (hbuilt : r.built ⊆ built)
      (hp : succeeded (x.logged.build p r.world).1 = true → p ∈ built) :
      x.Does (Permitted x (done ++ [p]) built .empty fun _ => False) s
        (x.logged.build p r.world).2 :=
    (h.does.mono fun e => Permitted.mono hdone hbuilt fun _ => id).trans
      (does_build (by simp) (hsources p (by simp)) hp)
  rcases build_cases x.logged r p with ⟨hok, hbuild⟩ | ⟨e, herror, habout, hbuild⟩
  · -- the lists only grow, so the events in front still tell the same
    have hmore : r.built ⊆ r.built ++ [p] := List.subset_append_left r.built [p]
    rw [hbuild]
    refine ⟨h.toCounts.addBuilt hfresh hsources _ _, ⟨_, by rw [hevents]; rfl, ?_⟩,
      hdoes hmore fun _ => by simp⟩
    exact List.rel_append (htold.imp fun _ _ ht => ht.mono hmore (List.Subset.refl _))
      (.cons (.built (by simp)) .nil)
  · have hmore : r.failed ⊆ r.failed ++ [(p, e.toString)] := List.subset_append_left ..
    rw [hbuild]
    refine ⟨h.toCounts.addFailed hfresh _ _ _, ⟨_, by rw [hevents]; rfl, ?_⟩,
      hdoes (List.Subset.refl _) fun hok => ?_⟩
    · exact List.rel_append (htold.imp fun _ _ ht => ht.mono (List.Subset.refl _) hmore)
        (.cons (.failed e habout (by simp)) .nil)
    · rw [herror] at hok
      cases hok

/-- So do all of them, one after another. -/
theorem SoFar.foldl {sources : List Path} (h : r.SoFar x started s done)
    (hapart : (done ++ sources).Pairwise fun q p => q.same p = false)
    (hsources : ∀ q ∈ done ++ sources, isSource q = true) :
    (sources.foldl (BatchResult.build x.logged) r).SoFar x started s (done ++ sources) := by
  -- on the sources that are left, with those that are done in front
  induction sources generalizing done r with
  | nil => simpa using h
  | cons p rest ih =>
    rw [List.append_cons] at hapart hsources ⊢
    have hfirst := List.pairwise_append.mp (List.pairwise_append.mp hapart).1
    exact ih (h.build (fun q hq => hfirst.2.2 q hq p (by simp))
      fun q hq => hsources q (List.mem_append_left rest hq)) hapart hsources

/-- Behind all sources of a build the accounts are in order. -/
theorem soFar_built {sources : List Path} (hapart : sources.Pairwise fun q p => q.same p = false)
    (hsources : ∀ q ∈ sources, isSource q = true) (s : Logged σ) :
    (Batch.built x.logged sources s).SoFar x (.buildStarted x.root.toString sources.length) s
      sources := by
  -- in front of the first source nothing has been counted or told
  have hnone : SoFar x (.buildStarted x.root.toString sources.length) s []
      ⟨[], [], .empty, [.buildStarted x.root.toString sources.length], s⟩ := by
    refine ⟨⟨.slnil, .slnil, List.forall_mem_nil _, fun p => ?_, rfl⟩, ⟨[], rfl, .nil⟩, .refl ..⟩
    simp [PathSet.empty]
  exact hnone.foldl hapart hsources

end Loop

end BatchResult

/-! ## Side files -/

/-- Attempts on side files that were made one after another lead from one world to another. -/
inductive Consecutive (files : FileSystem σ) (s : σ) : List (Rewrite σ) → σ → Prop
  | nil : Consecutive files s [] s
  | snoc {done : List (Rewrite σ)} (a : Rewrite σ) (before : Consecutive files s done a.world) :
      Consecutive files s (done ++ [a]) (a.run files).2

/-- Each side file that is kept was given the outputs of a result: once, at its place, and last of
all. -/
structure BatchResult.Updates (x : Executor σ) (mode : Mode) (r : BatchResult σ)
    (attempts : List (Rewrite σ)) : Prop where
  kinds : attempts.map (·.file.kind) = [.ignoreList, .editorExclude].filter mode.keeps
  path : ∀ a ∈ attempts, a.file.path = a.file.kind.pathIn x.root
  outputs : ∀ a ∈ attempts, a.outputs = r.outputs
  consecutive : ∃ s, Consecutive x.files s attempts r.world

namespace Batch

/-- The attempts on side files behind the sources of a build. -/
def updates (x : Executor σ) (mode : Mode) (r : BatchResult σ) : List (Rewrite σ) :=
  ((SideFiles.new x.root mode.git mode.vscode 0).request r.outputs 0).rewrites x.files (·.take)
    r.world

/-- A build goes through its sources and then makes its attempts on the side files. -/
theorem runOn_eq (x : Executor σ) (mode : Mode) (sources : List Path) (s : σ) :
    runOn x mode sources s =
      let r := built x sources s
      let attempts := updates x mode r
      { r with
        events := r.events ++ attempts.map (fun a => .ofSync (a.run x.files).1) ++
          [.buildComplete r.built.length r.failed.length]
        world := SideFiles.worldBehind x.files r.world attempts } := by
  have hflush := ((SideFiles.new x.root mode.git mode.vscode 0).request (built x sources s).outputs
    0).flush_eq x.files (built x sources s).world
  unfold runOn
  simp only [built] at hflush ⊢
  rw [hflush, List.map_map]
  rfl

/-- The attempts are on side files that the mode keeps, with the outputs of all sources. -/
theorem mem_updates {x : Executor σ} {mode : Mode} {r : BatchResult σ} {a : Rewrite σ}
    (h : a ∈ updates x mode r) : a.file.path = a.file.kind.pathIn x.root ∧
      mode.keeps a.file.kind = true ∧ a.outputs = r.outputs := by
  have hready := (ready_new x.root mode 0 (σ := σ)).request r.outputs 0
  obtain ⟨hfile, hkeeps⟩ := (hready.toReady.take isTake_take x.files r.world).attempted a h
  refine ⟨hfile.path, hkeeps, ?_⟩
  obtain ⟨k, hk, htake⟩ := SideFiles.mem_rewrites h
  have hkind : a.file.kind = k := by rw [hk, SideFiles.get_taken, (hready.isOf k).kind]
  rcases hready.current k (hkind ▸ hkeeps) with ⟨since, hpending⟩ | ⟨-, b, hlast, -⟩
  · simp only [Debouncer.take, hpending, Option.map_some, Option.some.injEq] at htake
    exact htake.symm
  · cases hlast

/-- There is one on each of these, the ignore list's first. -/
theorem kinds_updates (x : Executor σ) (mode : Mode) (r : BatchResult σ) :
    (updates x mode r).map (·.file.kind) = [.ignoreList, .editorExclude].filter mode.keeps := by
  obtain ⟨kind, git, vscode⟩ := mode
  cases git <;> cases vscode <;> rfl

/-- They are made one after another. -/
theorem consecutive_updates (x : Executor σ) (mode : Mode) (r : BatchResult σ) :
    Consecutive x.files r.world (updates x mode r)
      (SideFiles.worldBehind x.files r.world (updates x mode r)) :=
  SideFiles.rewrites_induction x.files (·.take) (Consecutive x.files r.world) _ r.world
    (fun _ a _ hbefore => .snoc a hbefore) [] .nil

end Batch

/-! ## The whole build -/

/-- A result says which paths may have been changed. -/
def BatchResult.MayChange (x : Executor σ) (mode : Mode) (r : BatchResult τ) (p : Path) : Prop :=
  (∃ q ∈ r.built, (x.root.join (x.outputFor q)).same p = true) ∨
    ∃ k, mode.keeps k = true ∧ (SideFileKind.pathIn k x.root).same p = true

/-- What a permitted call changes is the output of a source that was built, or a side file. -/
theorem Permitted.changed {x : Executor σ} {told built : List Path} {rewritten : Path → Prop}
    {e : LoggedCall} (he : Permitted x told built .empty rewritten e) {p : Path}
    (hp : e.Changed p) : (∃ q ∈ built, (x.root.join (x.outputFor q)).same p = true) ∨
      ∃ q, rewritten q ∧ q.same p = true := by
  obtain ⟨call, done⟩ := e
  obtain ⟨hdone, htarget⟩ := hp
  cases call with
  | read q => cases htarget
  | createDirs q => cases htarget
  | remove q =>
    obtain ⟨s, -, htracked, -⟩ := he
    cases htracked
  | write q text =>
    have hsame : q.same p = true := by simpa [Call.target?] using htarget
    rcases he with ⟨s, -, -, rfl, hbuilt⟩ | hq
    · exact .inl ⟨s, hbuilt hdone, hsame⟩
    · exact .inr ⟨q, hq, hsame⟩

/-- The accounts of a build are in order: the lists take the sources apart, the events tell of the
start, of each source, of each attempt on a side file, and of the end, and nothing else was
changed. -/
structure BatchResult.AccountsFor (x : Executor σ) (mode : Mode) (sources : List Path)
    (s : Logged σ) (r : BatchResult (Logged σ)) : Prop extends Counts x sources r where
  told : ∃ events attempts, List.Forall₂ (Tells x r) sources events ∧
    Updates x.logged mode r attempts ∧
    r.events = [.buildStarted x.root.toString sources.length] ++ events ++
      attempts.map (fun a => .ofSync (a.run x.logged.files).1) ++
      [.buildComplete r.built.length r.failed.length]
  /-- No call has changed another file, -/
  changed : ∃ new, r.world.calls = s.calls ++ new ∧
    ∀ e ∈ new, ∀ p, e.Changed p → MayChange x mode r p
  /-- so other files hold what they held. -/
  kept : ∀ {text?}, x.Confined text? → ∀ p, text? p r.world.world ≠ text? p s.world →
    MayChange x mode r p

namespace Batch

/-- The attempts on side files change no other file. -/
theorem does_updates {x : Executor σ} (mode : Mode) {sources : List Path} {s : Logged σ}
    {r : BatchResult (Logged σ)}
    (h : x.Does (Permitted x sources r.built .empty fun _ => False) s r.world) :
    x.Does (Permitted x sources r.built .empty fun p =>
        ∃ k, mode.keeps k = true ∧ p = k.pathIn x.root) s
      (SideFiles.worldBehind x.logged.files r.world (updates x.logged mode r)) := by
  refine SideFiles.rewrites_induction x.logged.files (·.take) (fun _ => x.Does _ s) _ r.world
    (fun done a ha hbefore => hbefore.trans (does_rewrite ?_)) []
    (h.mono fun e => Permitted.mono (List.Subset.refl _) (List.Subset.refl _)
      fun p hp => hp.elim)
  obtain ⟨hpath, hkeeps, -⟩ := mem_updates ha
  exact ⟨_, hkeeps, hpath⟩

/-- The accounts of a build of different sources are in order. -/
theorem accountsFor_runOn (x : Executor σ) (mode : Mode) {sources : List Path}
    (hapart : sources.Pairwise fun q p => q.same p = false)
    (hsources : ∀ q ∈ sources, isSource q = true) (s : Logged σ) :
    (runOn x.logged mode sources s).AccountsFor x mode sources s := by
  have hfar := BatchResult.soFar_built (x := x) hapart hsources s
  rw [runOn_eq]
  generalize built x.logged sources s = r at hfar ⊢
  obtain ⟨events, hevents, htold⟩ := hfar.told
  obtain ⟨new, hdid, hnew⟩ := does_updates mode hfar.does
  -- whatever was called, outputs of built sources and side files are all that was written
  have hchanged : ∀ e ∈ new, ∀ p, e.Changed p → r.MayChange x mode p := by
    intro e he p hp
    refine (hnew e he).changed hp |>.imp_right ?_
    rintro ⟨q, ⟨k, hkeeps, rfl⟩, hsame⟩
    exact ⟨k, hkeeps, hsame⟩
  refine ⟨⟨hfar.built, hfar.failed, hfar.once, hfar.outputs, hfar.size⟩,
    ⟨events, updates x.logged mode r, ?_, ?_, ?_⟩, ⟨new, hdid.calls, hchanged⟩, ?_⟩
  · exact htold.imp fun _ _ ht => ht.mono (List.Subset.refl _) (List.Subset.refl _)
  · exact ⟨kinds_updates .., fun a ha => (mem_updates ha).1, fun a ha => (mem_updates ha).2.2,
      _, consecutive_updates ..⟩
  · simp only [hevents, List.cons_append, List.nil_append]
  · intro text? hx p hne
    by_contra hp
    exact hne (hdid.kept text? hx p fun e he hchange => hp (hchanged e he p hchange))

/-! ## Builds that cannot begin -/

/-- A build cannot begin, because its excludes are refused or its sources cannot be found. -/
inductive Refused (settings : Settings) (d : Disk) : StartError → Prop
  | excludes {cause : ExcludeError}
      (refused : Excludes.ofPatterns settings.root settings.excludes = .error cause) :
      Refused settings d (.run (.exclude cause))
  | discovery {excludes : Excludes} {cause : DiscoveryError}
      (accepted : Excludes.ofPatterns settings.root settings.excludes = .ok excludes)
      (failed : Discovery.sources d settings.root excludes = .error cause) :
      Refused settings d (.ofDiscovery cause)

/-- These are the errors of a survey. -/
theorem survey_eq_error_iff {settings : Settings} {d : Disk} {e : StartError} :
    survey settings d = .error e ↔ Refused settings d e := by
  unfold survey
  constructor
  · intro h
    split at h
    · next cause hx =>
      cases h
      exact .excludes hx
    · next excludes hx =>
      split at h
      · next cause hfound =>
        cases h
        exact .discovery hx hfound
      · cases h
  · intro h
    cases h with
    | excludes refused => rw [refused]
    | discovery accepted failed => simp only [accepted, failed]

/-- It is a failure of the run that is told to the user. -/
theorem Refused.exists_cause {settings : Settings} {d : Disk} {e : StartError}
    (h : Refused settings d e) (proper : d.top.Proper) : ∃ cause, e = .run cause := by
  cases h with
  | excludes refused => exact ⟨_, rfl⟩
  | @discovery excludes cause accepted failed =>
    cases cause with
    | rootNotFound path => exact ⟨_, rfl⟩
    | walk root message => exact ⟨_, rfl⟩
    | rooted path => exact absurd failed (Discovery.sources_ne_rooted proper path)

/-- A survey that succeeds has accepted the excludes and found the sources. -/
theorem ok_of_survey {settings : Settings} {d : Disk} {excludes : Excludes}
    {sources : List Path} (h : survey settings d = .ok (excludes, sources)) :
    Excludes.ofPatterns settings.root settings.excludes = .ok excludes ∧
      Discovery.sources d settings.root excludes = .ok sources := by
  unfold survey at h
  split at h
  · cases h
  · next hx =>
    split at h
    · cases h
    · next hfound =>
      cases h
      exact ⟨hx, hfound⟩

end Batch

namespace CommandLine

/-- What is printed before a build begins: the header, and the warnings about settings. -/
def Printer.opening (w : Printer) (p : Project) : Printed :=
  p.warnings.foldl (fun printed warning => w.buildEvent printed (.warning warning.toString))
    (w.header (Terminal.buildHeader p.settings.root.toString p.settings.mode))

/-- A build that cannot begin ends the program with a complaint, and the disk is as it was. -/
theorem runBuild_of_refused {s : Surroundings} {p : Project} {e : StartError} (w : Printer)
    (proper : s.disk.top.Proper) (h : Batch.Refused p.settings s.disk e) :
    ∃ cause, e = .run cause ∧
      runBuild w s p = .ended failureCode (w.failure s (w.opening p) cause) s.disk := by
  obtain ⟨cause, rfl⟩ := h.exists_cause proper
  refine ⟨cause, rfl, ?_⟩
  simp only [runBuild, Batch.execute, id, Batch.survey_eq_error_iff.mpr h]
  rfl

end CommandLine

namespace Batch

/-- A batch build accounts for every source that is discovered, whatever its compiler and its files
do. One that cannot begin does nothing: the program ends with a complaint, no event of the build is
printed, and the disk is as it was. -/
theorem execute_accounts (settings : Settings) (files : FileSystem σ) (compiler : Compiler σ)
    (view : σ → Disk) (s : Logged σ) (proper : (view s.world).top.Proper)
    (ordered : (view s.world).top.Ordered) :
    let x : Executor σ := ⟨settings.root, settings.mode.kind, files, compiler⟩
    let answer := execute settings x.logged.files x.logged.compiler (fun s => view s.world) s
    (∀ r, answer = .ok r → ∃ excludes sources,
      Excludes.ofPatterns settings.root settings.excludes = .ok excludes ∧
        Discovery.sources (view s.world) settings.root excludes = .ok sources ∧
        r.AccountsFor x settings.mode sources s) ∧
      (∀ e, answer = .error e ↔ Refused settings (view s.world) e) ∧
      ∀ (w : CommandLine.Printer) (around : CommandLine.Surroundings) (p : CommandLine.Project) e,
        around.disk.top.Proper → Refused p.settings around.disk e → ∃ cause, e = .run cause ∧
          CommandLine.runBuild w around p =
            .ended CommandLine.failureCode (w.failure around (w.opening p) cause) around.disk := by
  intro x answer
  have hanswer : answer = (survey settings (view s.world)).map fun found =>
      runOn x.logged settings.mode found.2 s := by
    unfold answer execute
    cases survey settings (view s.world) <;> rfl
  refine ⟨fun r hr => ?_, fun e => ?_, fun w around p e hproper h =>
    CommandLine.runBuild_of_refused w hproper h⟩
  · rw [hanswer] at hr
    cases hsurvey : survey settings (view s.world) with
    | error e =>
      rw [hsurvey] at hr
      cases hr
    | ok found =>
      rw [hsurvey] at hr
      cases hr
      obtain ⟨hx, hfound⟩ := ok_of_survey hsurvey
      have hincreasing := Discovery.pairwise_sources proper ordered hfound
      refine ⟨found.1, found.2, hx, hfound, accountsFor_runOn x _ (hincreasing.imp ?_) ?_ s⟩
      · intro p q hbefore
        by_contra hsame
        exact not_before_of_same (by simpa using hsame) hbefore
      · exact fun q hq => Discovery.isSource_of_mem_sources proper hfound hq
  · rw [hanswer, ← survey_eq_error_iff]
    cases survey settings (view s.world) <;> simp [Except.map]

/-- A project with two sources, of which one may not be read: it is listed as failed, and the other
one as built. -/
theorem execute_accounts_mixed :
    let settings : Settings := ⟨.ofString "/p", ⟨.ts, true, false⟩, ["out/"]⟩
    let x : Executor Disk := .overDisk settings.root .ts Compiler.marked fun call =>
      if call = .read (.ofString "/p/a-b.civet") then some (.io "boom") else none
    ∃ r, execute settings x.logged.files x.logged.compiler (fun s => s.world)
        ⟨Discovery.mixedDisk, []⟩ = .ok r ∧
      r.built = [.ofString "a/b.civet"] ∧ r.failed.map Prod.fst = [.ofString "a-b.civet"] ∧
      r.events.length = 5 ∧ r.world.calls.length = 6 ∧
      ∃ sources, r.AccountsFor x settings.mode sources ⟨Discovery.mixedDisk, []⟩ := by
  intro settings x
  have hrun : (execute settings x.logged.files x.logged.compiler (fun s => s.world)
      ⟨Discovery.mixedDisk, []⟩).toOption.map (fun r =>
        (r.built, r.failed.map Prod.fst, r.events.length, r.world.calls.length)) =
      some ([.ofString "a/b.civet"], [.ofString "a-b.civet"], 5, 6) := by decide +kernel
  obtain ⟨r, hr, hshown⟩ := exists_ok_of_map hrun
  simp only [Prod.mk.injEq] at hshown
  obtain ⟨hbuilt, hfailed, hevents, hcalls⟩ := hshown
  obtain ⟨-, sources, -, -, haccounts⟩ := (execute_accounts settings x.files x.compiler id
    ⟨Discovery.mixedDisk, []⟩ Discovery.proper_mixedDisk Discovery.ordered_mixedDisk).1 r hr
  exact ⟨r, hr, hbuilt, hfailed, hevents, hcalls, sources, haccounts⟩

end Batch

end ArtifactSync
