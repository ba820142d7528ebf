import ArtifactSync.Proofs.Artifact
import ArtifactSync.Proofs.FileSystem.Confined
import ArtifactSync.Proofs.Path.Join
import ArtifactSync.Proofs.Watch.SideFiles
import ArtifactSync.Proofs.Watch.Tracking

/-!
# What a session does to files

`Executor.logged` is an executor in a world that records the calls on its files. What was done from
one world to another is the row of calls recorded in between (`Executor.Did`); as long as calls reach
one file only, the files that none of them changed hold what they held. A step of a session makes
only calls that are `Permitted`: on the sources it is told of and on their outputs, on the outputs of
sources it tracked, and on the side files it rewrites (`does_call`). None of the former is a side
file (`source_ne_pathIn`, `output_ne_pathIn`), so a side file that is not rewritten is left alone
(`leftAlone_call`).
-/

namespace ArtifactSync

open Path Artifact

variable {σ : Type}

/-- The file that a call reads, writes or removes. -/
def Call.file? : Call → Option Path
  | read path => some path
  | write path _ => some path
  | remove path => some path
  | createDirs _ => none

/-- The file that a call writes or removes. -/
def Call.target? : Call → Option Path
  | read _ => none
  | write path _ => some path
  | remove path => some path
  | createDirs _ => none

/-- The call wrote or removed the file at a path. -/
def LoggedCall.Changed (e : LoggedCall) (p : Path) : Prop :=
  e.succeeded = true ∧ e.call.target?.any (·.same p) = true

instance (e : LoggedCall) (p : Path) : Decidable (e.Changed p) :=
  inferInstanceAs (Decidable (_ ∧ _))

/-- No recorded call has read, written or removed a file. -/
def Untouched (p : Path) (s : Logged σ) : Prop :=
  ∀ c ∈ s.calls, ∀ q, c.call.file? = some q → q.same p = false

/-- The same executor in a world that records the calls on files. The compiler makes none. -/
def Executor.logged (x : Executor σ) : Executor (Logged σ) where
  root := x.root
  kind := x.kind
  files := x.files.logged
  compiler text source s :=
    let (answer, world) := x.compiler text source s.world
    (answer, ⟨world, s.calls⟩)

/-! ## From one world to another -/

namespace Executor

/-- The calls recorded from one world to another, and what they have left alone. -/
structure Did (x : Executor σ) (new : List LoggedCall) (s s' : Logged σ) : Prop where
  calls : s'.calls = s.calls ++ new
  /-- A file that no call has changed holds what it held. -/
  kept : ∀ text?, x.Confined text? → ∀ p, (∀ e ∈ new, ¬e.Changed p) →
    text? p s'.world = text? p s.world

variable {x : Executor σ} {s s' s'' : Logged σ}

/-- Nothing was done. -/
theorem Did.nil (x : Executor σ) (s : Logged σ) : x.Did [] s s :=
  ⟨by simp, fun _ _ _ _ => rfl⟩

/-- One thing was done after another. -/
theorem Did.append {new later : List LoggedCall} (h : x.Did new s s') (h' : x.Did later s' s'') :
    x.Did (new ++ later) s s'' where
  calls := by rw [h'.calls, h.calls, List.append_assoc]
  kept := by
    intro text? hx p hp
    rw [h'.kept text? hx p fun e he => hp e (List.mem_append_right _ he),
      h.kept text? hx p fun e he => hp e (List.mem_append_left _ he)]

/-- A file was read. -/
theorem did_read (x : Executor σ) (p : Path) (s : Logged σ) :
    x.Did [⟨.read p, succeeded (x.files.read p s.world).1⟩] s (x.logged.files.read p s).2 :=
  ⟨rfl, fun _ hx q _ => hx.files.read_keeps p q s.world⟩

/-- Directories were made. -/
theorem did_createDirs (x : Executor σ) (p : Path) (s : Logged σ) :
    x.Did [⟨.createDirs p, succeeded (x.files.createDirs p s.world).1⟩] s
      (x.logged.files.createDirs p s).2 :=
  ⟨rfl, fun _ hx q _ => hx.files.createDirs_keeps p q s.world⟩

/-- A text was compiled. -/
theorem did_compile (x : Executor σ) (text : String) (p : Path) (s : Logged σ) :
    x.Did [] s (x.logged.compiler text p s).2 :=
  ⟨by simp [logged], fun _ hx q _ => hx.compiler_keeps text p q s.world⟩

/-- What a call that did not change a file must have been: on another file, or a failure. -/
theorem ne_or_failed {call : Call} {p q : Path} {done : Bool} (hp : call.target? = some p)
    (h : ∀ e ∈ [(⟨call, done⟩ : LoggedCall)], ¬e.Changed q) : p.same q = false ∨ done = false := by
  by_contra hboth
  rw [not_or, Bool.not_eq_false, Bool.not_eq_false] at hboth
  exact h _ (List.mem_singleton_self _) ⟨hboth.2, by simp [hp, hboth.1]⟩

/-- A file was written. -/
theorem did_write (x : Executor σ) (p : Path) (text : String) (s : Logged σ) :
    x.Did [⟨.write p text, succeeded (x.files.write p text s.world).1⟩] s
      (x.logged.files.write p text s).2 :=
  ⟨rfl, fun _ hx _ h => hx.files.write_keeps (ne_or_failed rfl h)⟩

/-- A file was removed. -/
theorem did_remove (x : Executor σ) (p : Path) (s : Logged σ) :
    x.Did [⟨.remove p, succeeded (x.files.remove p s.world).1⟩] s (x.logged.files.remove p s).2 :=
  ⟨rfl, fun _ hx _ h => hx.files.remove_keeps (ne_or_failed rfl h)⟩

/-- Only calls that are allowed lead from one world to another. -/
def Does (x : Executor σ) (allowed : LoggedCall → Prop) (s s' : Logged σ) : Prop :=
  ∃ new, x.Did new s s' ∧ ∀ e ∈ new, allowed e

variable {allowed : LoggedCall → Prop}

/-- Nothing is always allowed. -/
theorem Does.refl (x : Executor σ) (allowed : LoggedCall → Prop) (s : Logged σ) :
    x.Does allowed s s :=
  ⟨[], .nil x s, by simp⟩

/-- One thing may be done after another. -/
theorem Does.trans (h : x.Does allowed s s') (h' : x.Does allowed s' s'') :
    x.Does allowed s s'' := by
  obtain ⟨new, hdid, hnew⟩ := h
  obtain ⟨later, hdid', hlater⟩ := h'
  refine ⟨new ++ later, hdid.append hdid', fun e he => ?_⟩
  rcases List.mem_append.mp he with he | he
  · exact hnew e he
  · exact hlater e he

/-- More may be allowed. -/
theorem Does.mono {allowed' : LoggedCall → Prop} (h : x.Does allowed s s')
    (himp : ∀ e, allowed e → allowed' e) : x.Does allowed' s s' := by
  obtain ⟨new, hdid, hnew⟩ := h
  exact ⟨new, hdid, fun e he => himp e (hnew e he)⟩

/-- What was done by one call is allowed if the call is. -/
theorem Did.does {e : LoggedCall} (h : x.Did [e] s s') (he : allowed e) : x.Does allowed s s' :=
  ⟨[e], h, by simpa using he⟩

/-- Compiling is always allowed. -/
theorem Does.compile (h : x.Does allowed s s') (text : String) (p : Path) :
    x.Does allowed s (x.logged.compiler text p s').2 :=
  h.trans ⟨[], did_compile x text p s', by simp⟩

/-- What only calls on other files have been done to leaves a file alone. -/
theorem Does.untouched (h : x.Does allowed s s') {p : Path} (hs : Untouched p s)
    (hothers : ∀ e, allowed e → ∀ q, e.call.file? = some q → q.same p = false) :
    Untouched p s' := by
  obtain ⟨new, hdid, hnew⟩ := h
  intro e he
  rw [hdid.calls] at he
  rcases List.mem_append.mp he with he | he
  · exact hs e he
  · exact hothers e (hnew e he)

end Executor

/-! ## What is permitted -/

/-- A call on files that a session may make: of the sources in `told` it builds those in `built`, the
sources in `tracked` may be dropped, and the side files in `rewritten` are rewritten. -/
def Permitted (x : Executor σ) (told built : List Path) (tracked : PathSet)
    (rewritten : Path → Prop) (e : LoggedCall) : Prop :=
  match e.call with
  | .read p => (∃ s ∈ told, isSource s = true ∧ p = x.root.join s) ∨ rewritten p
  | .write p _ => (∃ s ∈ told, isSource s = true ∧ p = x.root.join (x.outputFor s) ∧
      (e.succeeded = true → s ∈ built)) ∨ rewritten p
  | .remove p => ∃ s, isSource s = true ∧ tracked.contains s = true ∧
      p = x.root.join (x.outputFor s)
  | .createDirs p => ∃ q, rewritten q ∧ q.parent? = some p

section Permitted

variable {x : Executor σ} {told built : List Path} {tracked : PathSet} {rewritten : Path → Prop}

/-- A permitted call is on a source, an output, or a side file. -/
theorem Permitted.file {e : LoggedCall} (he : Permitted x told built tracked rewritten e)
    {p : Path} (hp : e.call.file? = some p) :
    (∃ s, isSource s = true ∧ (p = x.root.join s ∨ p = x.root.join (x.outputFor s))) ∨
      rewritten p := by
  obtain ⟨call, done⟩ := e
  cases call with
  | read q =>
    cases hp
    exact he.imp_left fun ⟨s, _, hs, heq⟩ => ⟨s, hs, .inl heq⟩
  | write q text =>
    cases hp
    exact he.imp_left fun ⟨s, _, hs, heq, _⟩ => ⟨s, hs, .inr heq⟩
  | remove q =>
    cases hp
    obtain ⟨s, hs, -, heq⟩ := he
    exact .inl ⟨s, hs, .inr heq⟩
  | createDirs q => cases hp

/-- What is permitted with some sources is permitted with more of them. -/
theorem Permitted.mono {told' built' : List Path} {rewritten' : Path → Prop} (htold : told ⊆ told')
    (hbuilt : built ⊆ built') (hrewritten : ∀ p, rewritten p → rewritten' p) {e : LoggedCall}
    (he : Permitted x told built tracked rewritten e) :
    Permitted x told' built' tracked rewritten' e := by
  obtain ⟨call, done⟩ := e
  cases call with
  | read p => exact he.imp (fun ⟨s, hs, h⟩ => ⟨s, htold hs, h⟩) (hrewritten p)
  | write p text =>
    exact he.imp (fun ⟨s, hs, hsource, hp, hdone⟩ =>
      ⟨s, htold hs, hsource, hp, fun hok => hbuilt (hdone hok)⟩) (hrewritten p)
  | remove p => exact he
  | createDirs p => exact he.imp fun q ⟨hq, hp⟩ => ⟨hrewritten q hq, hp⟩

/-- A source that the session is told of may be built. -/
theorem does_build {source : Path} (htold : source ∈ told) (hs : isSource source = true)
    {s : Logged σ} (hbuilt : succeeded (x.logged.build source s).1 = true → source ∈ built) :
    x.Does (Permitted x told built tracked rewritten) s (x.logged.build source s).2 := by
  have hread : x.Does (Permitted x told built tracked rewritten) s
      (x.logged.files.read (x.logged.root.join source) s).2 :=
    (x.did_read _ s).does (.inl ⟨source, htold, hs, rfl⟩)
  unfold Executor.build at hbuilt ⊢
  split
  · next cause s₁ hr => rwa [hr] at hread
  · next text s₁ hr =>
    rw [hr] at hread hbuilt
    have hcompiled := hread.compile text source
    dsimp only at hbuilt
    split
    · next cause s₂ hc => rwa [hc] at hcompiled
    · next compiled s₂ hc =>
      rw [hc] at hcompiled hbuilt
      refine hcompiled.trans ?_
      have hwrite := x.did_write (x.root.join (x.outputFor source)) (withHeader source compiled) s₂
      -- the build succeeds if the writing does
      have hdone : succeeded (x.files.write (x.root.join (x.outputFor source))
          (withHeader source compiled) s₂.world).1 = true → source ∈ built := by
        intro hok
        refine hbuilt ?_
        rw [show succeeded (x.files.write (x.root.join (x.outputFor source))
          (withHeader source compiled) s₂.world).1 = succeeded (x.logged.files.write
            (x.logged.root.join (x.logged.outputFor source)) (withHeader source compiled) s₂).1
          from rfl] at hok
        dsimp only
        split
        · next hw =>
          rw [hw] at hok
          cases hok
        · rfl
      have hdoes : x.Does (Permitted x told built tracked rewritten) s₂ _ :=
        hwrite.does (.inl ⟨source, htold, hs, rfl, hdone⟩)
      dsimp only
      split
      · next hw => exact (congrArg Prod.snd hw) ▸ hdoes
      · next hw => exact (congrArg Prod.snd hw) ▸ hdoes

/-- A side file that is to be rewritten may be rewritten. -/
theorem does_rewrite {a : Rewrite (Logged σ)} (ha : rewritten a.file.path) :
    x.Does (Permitted x told built tracked rewritten) a.world (a.run x.logged.files).2 := by
  have hprepare : x.Does (Permitted x told built tracked rewritten) a.world
      (a.file.prepare x.logged.files a.world).2 := by
    unfold SideFile.prepare
    split
    · next parent hparent => exact (x.did_createDirs _ _).does ⟨_, ha, hparent⟩
    · exact .refl ..
  unfold Rewrite.run SideFile.writeNow
  split
  · next hp => rwa [hp] at hprepare
  · next s₁ hp =>
    rw [hp] at hprepare
    have hread : x.Does (Permitted x told built tracked rewritten) a.world
        (x.logged.files.read a.file.path s₁).2 :=
      hprepare.trans ((x.did_read a.file.path s₁).does (.inr ha))
    have hexisting : x.Does (Permitted x told built tracked rewritten) a.world
        (a.file.existing x.logged.files s₁).2 := by
      unfold SideFile.existing
      split
      · next hr =>
        rw [hr] at hread
        split
        · exact hread
        · exact hread
      · exact hread
    split
    · next he => rwa [he] at hexisting
    · next existing s₂ he =>
      rw [he] at hexisting
      split
      · exact hexisting
      · next text _ =>
        have hwrite : x.Does (Permitted x told built tracked rewritten) a.world
            (x.logged.files.write a.file.path text s₂).2 :=
          hexisting.trans ((x.did_write a.file.path text s₂).does (.inr ha))
        split
        · next hw => rwa [hw] at hwrite
        · next hw => rwa [hw] at hwrite

end Permitted

/-! ## Sources and outputs are no side files -/

/-- The name of a side file. -/
def SideFileKind.fileName : SideFileKind → List Char
  | .ignoreList => ".gitignore".toList
  | .editorExclude => "settings.json".toList

/-- A side file has its name in every project. -/
theorem getLast_pathIn (k : SideFileKind) (root : Path) :
    (k.pathIn root).components.getLast? = some (.name k.fileName) := by
  refine getLast_join ?_ (by simp)
  cases k <;> decide

/-- A path that ends in something else is no side file. -/
theorem ne_pathIn {k : SideFileKind} {root p : Path} {c : Component}
    (h : p.components.getLast? = some c) (hc : c ≠ .name k.fileName) :
    p.same (k.pathIn root) = false := by
  by_contra hsame
  rw [Bool.not_eq_false, same_iff] at hsame
  rw [hsame, getLast_pathIn] at h
  exact hc (Option.some.inj h).symm

/-- No name with the extension of sources or of outputs is that of a side file. -/
theorem append_ne_fileName {stem extension : List Char} (hstem : stem ≠ [])
    (hextension : extension ∈ [sourceExtension, OutputKind.ts.extension, OutputKind.tsx.extension])
    (k : SideFileKind) : stem ++ '.' :: extension ≠ k.fileName := by
  intro h
  -- a name has one stem and one extension, and those of the side files are others
  have hdots : ∀ e ∈ [sourceExtension, OutputKind.ts.extension, OutputKind.tsx.extension],
      '.' ∉ e := by decide
  have hdot := hdots extension hextension
  have hup : stem ++ '.' :: extension ≠ ['.', '.'] := by
    rw [h]
    cases k <;> decide
  have hsplit := splitName_append hstem hdot hup
  rw [h] at hsplit
  have hsecond := congrArg Prod.snd hsplit
  simp only at hsecond
  simp only [List.mem_cons, List.not_mem_nil, or_false] at hextension
  rcases hextension with rfl | rfl | rfl <;> cases k <;> revert hsecond <;> decide

/-- A source is no side file. -/
theorem source_ne_pathIn {p root : Path} (h : isSource p = true) (k : SideFileKind) :
    (root.join p).same (k.pathIn root) = false := by
  obtain ⟨stem, hstem, hlast⟩ := getLast_source h
  refine ne_pathIn (getLast_join hlast (by simp)) fun hname => ?_
  exact append_ne_fileName hstem (by simp) k (Component.name.inj hname)

/-- Neither is the output of a source. -/
theorem output_ne_pathIn {p root : Path} (h : isSource p = true) (kind : OutputKind)
    (k : SideFileKind) : (root.join (output p kind)).same (k.pathIn root) = false := by
  rcases getLast_output h kind with hlast | ⟨stem, hstem, hlast⟩
  · exact ne_pathIn (getLast_join hlast (by simp)) (by simp)
  · have hextension : kind.extension ∈
        [sourceExtension, OutputKind.ts.extension, OutputKind.tsx.extension] := by
      cases kind
      · exact .tail _ (.head _)
      · exact .tail _ (.tail _ (.head _))
    exact ne_pathIn (getLast_join hlast (by simp)) fun heq =>
      append_ne_fileName hstem hextension k (Component.name.inj heq)

/-- A side file does not carry the extension of sources. -/
theorem isSource_pathIn (k : SideFileKind) (root : Path) : isSource (k.pathIn root) = false := by
  by_contra hsource
  obtain ⟨stem, hstem, hlast⟩ := getLast_source (by simpa using hsource)
  rw [getLast_pathIn] at hlast
  exact append_ne_fileName hstem (by simp) k (Component.name.inj (Option.some.inj hlast)).symm

/-- Different side files are different files. -/
theorem pathIn_ne {k l : SideFileKind} (h : k ≠ l) (root : Path) :
    (k.pathIn root).same (l.pathIn root) = false := by
  refine ne_pathIn (getLast_pathIn k root) fun hname => ?_
  cases k with
  | ignoreList =>
    cases l with
    | ignoreList => exact h rfl
    | editorExclude => exact absurd hname (by decide)
  | editorExclude =>
    cases l with
    | ignoreList => exact absurd hname (by decide)
    | editorExclude => exact h rfl

/-! ## Runs -/

namespace Run

variable {x : Executor σ} {k : SideFileKind} {told built : List Path} {tracked : PathSet}
  {rewritten : Path → Prop}

/-- A build takes the world to the one that the executor leaves, and succeeds with it. -/
theorem world_of_build {x : Executor σ} {r r' : Run σ} {source : Path} {trigger : Trigger}
    {output : Option Path} (h : r.build x source trigger = (output, r')) :
    r'.world = (x.build source r.world).2 ∧
      succeeded (x.build source r.world).1 = output.isSome := by
  unfold Run.build at h
  split at h
  · next hb =>
    cases h
    rw [hb]
    exact ⟨rfl, rfl⟩
  · next hb =>
    cases h
    rw [hb]
    exact ⟨rfl, rfl⟩

/-- The world behind the deletion of an output. -/
theorem deleteOutput_world (r : Run σ) (x : Executor σ) (output : Path) :
    (r.deleteOutput x output).world = (x.removeOutput output r.world).2 := by
  unfold deleteOutput
  split
  · next hr => rw [hr]
  · next hr =>
    rw [hr]
    split <;> rfl

/-- The build of a source that the session is told of is permitted. -/
theorem does_of_build {r r' : Run (Logged σ)} {source : Path} {trigger : Trigger}
    {output : Option Path} (htold : source ∈ told) (hs : isSource source = true)
    (hbuilt : output.isSome = true → source ∈ built)
    (hb : r.build x.logged source trigger = (output, r')) :
    x.Does (Permitted x told built tracked rewritten) r.world r'.world := by
  obtain ⟨hworld, hdone⟩ := world_of_build hb
  rw [hworld]
  exact does_build htold hs fun hok => hbuilt (by rw [← hdone, hok])

/-- So are the builds of the sources in a list. -/
theorem does_buildAll {sources : List Path} (htold : ∀ p ∈ sources, p ∈ told)
    (hs : ∀ p ∈ sources, isSource p = true) {r : Run (Logged σ)}
    (hbuilt : ∀ p ∈ x.logged.builtAmong sources r.world, p ∈ built) :
    x.Does (Permitted x told built tracked rewritten) r.world
      (buildAll x.logged sources r).2.2.world := by
  induction sources generalizing r with
  | nil => exact .refl ..
  | cons source rest ih =>
    have ih := fun {r} => ih (fun p hp => htold p (List.mem_cons_of_mem source hp))
      (fun p hp => hs p (List.mem_cons_of_mem source hp)) (r := r)
    have hstep : (succeeded (x.logged.build source r.world).1 = true → source ∈ built) →
        x.Does (Permitted x told built tracked rewritten) r.world
          (x.logged.build source r.world).2 :=
      does_build (htold source (by simp)) (hs source (by simp))
    rcases hb : x.logged.build source r.world with ⟨_ | output, w⟩
    · simp only [Executor.builtAmong, hb] at hbuilt
      simp only [hb] at hstep
      simp only [buildAll, Run.build, hb]
      refine (hstep (by simp [succeeded])).trans ?_
      exact ih (r := (Run.emit ⟨r.session, w, r.events⟩ _).track source) hbuilt
    · simp only [Executor.builtAmong, hb, List.forall_mem_cons] at hbuilt
      simp only [hb] at hstep
      simp only [buildAll, Run.build, hb]
      refine (hstep fun _ => hbuilt.1).trans ?_
      exact ih (r := ((Run.emit ⟨r.session, w, r.events⟩ _).list output).track source) hbuilt.2

/-- Tracked sources may be dropped one after another. -/
theorem does_foldl_onUnlink {now : Nat} {sources : List Path}
    (hs : ∀ p ∈ sources, isSource p = true ∧ tracked.contains p = true) {r : Run (Logged σ)} :
    x.Does (Permitted x told built tracked rewritten) r.world
      (sources.foldl (onUnlink x.logged now) r).world := by
  induction sources generalizing r with
  | nil => exact .refl ..
  | cons source rest ih =>
    obtain ⟨hsource, htracked⟩ := hs source (by simp)
    have hworld : (onUnlink x.logged now r source).world =
        (x.logged.removeOutput (x.outputFor source) r.world).2 :=
      deleteOutput_world _ _ _
    have hstep : x.Does (Permitted x told built tracked rewritten) r.world
        (onUnlink x.logged now r source).world := by
      rw [hworld]
      exact (x.did_remove (x.root.join (x.outputFor source)) r.world).does
        ⟨source, hsource, htracked, rfl⟩
    exact hstep.trans (ih fun p hp => hs p (List.mem_cons_of_mem source hp))

/-- Attempts on side files that are to be rewritten are permitted. -/
theorem does_rewrites {f : SideFiles} {s : Logged σ}
    {take : Debouncer PathSet → Option PathSet × Debouncer PathSet}
    (h : ∀ a ∈ f.rewrites x.logged.files take s, rewritten a.file.path) :
    x.Does (Permitted x told built tracked rewritten) s
      (SideFiles.worldBehind x.logged.files s (f.rewrites x.logged.files take s)) :=
  SideFiles.rewrites_induction x.logged.files take
    (fun _ s' => x.Does (Permitted x told built tracked rewritten) s s') f s
    (fun _ a ha hdone => hdone.trans (does_rewrite (h a ha))) [] (.refl ..)

/-- What a change does is permitted. -/
theorem does_handle {r : Run (Logged σ)} (change : Change) (now : Nat)
    (hsources : ∀ p ∈ r.session.sources.paths, isSource p = true) :
    x.Does (Permitted x [change.path] (r.builtBy x.logged (.handle change now)) r.session.sources
      rewritten) r.world (r.handle x.logged change now).2.world := by
  have hhandled := handled x.logged change now r
  simp only [builtBy]
  generalize r.handle x.logged change now = answer at hhandled ⊢
  obtain ⟨outcome, r'⟩ := answer
  dsimp only at hhandled ⊢
  have htold : change.path ∈ [change.path] := List.mem_singleton_self _
  cases hhandled with
  | ignored => exact .refl ..
  | failed trigger watching source build => exact does_of_build htold source (by simp) build
  | @added r' appeared watching source fresh build =>
    rw [if_pos rfl]
    have hstep : x.Does (Permitted x [change.path] [change.path] r.session.sources rewritten)
        r.world r'.world := does_of_build htold source (fun _ => htold) build
    exact hstep
  | rebuilt watching source tracked build listed =>
    exact does_of_build htold source (by simp) build
  | @mended r' watching source tracked build unlisted =>
    rw [if_pos rfl]
    have hstep : x.Does (Permitted x [change.path] [change.path] r.session.sources rewritten)
        r.world r'.world := does_of_build htold source (fun _ => htold) build
    exact hstep
  | removed watching source tracked =>
    have hall : ∀ p ∈ [change.path], isSource p = true ∧ r.session.sources.contains p = true := by
      simpa using ⟨source, tracked⟩
    exact does_foldl_onUnlink hall
  | removedBelow watching named untracked =>
    refine does_foldl_onUnlink fun p hp => ?_
    have hmem := (List.mem_filter.mp hp).1
    exact ⟨hsources p hmem, PathSet.contains_of_mem hmem⟩

/-- Reports leave the world alone. -/
theorem reportSyncs_world (r : Run σ) (results : List SyncResult) :
    (r.reportSyncs results).world = r.world := by
  induction results generalizing r with
  | nil => rfl
  | cons result rest ih => exact ih _

/-- What a call does is permitted, in a session that tracks and is started with nothing but
sources. -/
theorem does_call {r : Run (Logged σ)} {c : SessionCall}
    (hinitial : ∀ p ∈ c.initial, isSource p = true)
    (hsources : ∀ p ∈ r.session.sources.paths, isSource p = true)
    (hrewritten : ∀ a ∈ r.rewritesBy x.logged c, rewritten a.file.path) :
    x.Does (Permitted x c.paths (r.builtBy x.logged c) r.session.sources rewritten) r.world
      (r.call x.logged c).world := by
  cases c with
  | start sources now =>
    simp only [call, start, builtBy]
    by_cases hidle : r.session.phase = .idle
    · simp only [hidle, ne_eq, not_true_eq_false, if_false]
      exact does_buildAll (fun p hp => hp) hinitial fun p hp => hp
    · simp only [hidle, ne_eq, not_false_eq_true, if_true]
      exact .refl ..
  | handle change now => exact does_handle change now hsources
  | tick now =>
    simp only [call, tick, SideFiles.poll_eq, reportSyncs_world]
    exact does_rewrites hrewritten
  | close =>
    by_cases hclosed : r.session.phase = .closed
    · simp only [call, close, if_pos hclosed]
      exact .refl ..
    · simp only [call, close, if_neg hclosed, SideFiles.flush_eq, enter, emit, reportSyncs_world]
      simp only [rewritesBy, if_neg hclosed] at hrewritten
      exact does_rewrites hrewritten

/-- A side file in a run that left it alone and tracks nothing but sources. -/
structure LeftAlone (x : Executor σ) (k : SideFileKind) (r : Run (Logged σ)) : Prop where
  untouched : Untouched (k.pathIn x.root) r.world
  sources : ∀ p ∈ r.session.sources.paths, isSource p = true

/-- A call that makes no attempt on a side file leaves it alone. -/
theorem leftAlone_call {r : Run (Logged σ)} {c : SessionCall}
    (hinitial : ∀ p ∈ c.initial, isSource p = true)
    (hothers : ∀ a ∈ r.rewritesBy x.logged c, a.file.path.same (k.pathIn x.root) = false)
    (h : LeftAlone x k r) : LeftAlone x k (r.call x.logged c) := by
  refine ⟨?_, sources_call hinitial (fun _ _ hs => hs) h.sources⟩
  have hdoes : x.Does (Permitted x c.paths (r.builtBy x.logged c) r.session.sources
      fun p => p.same (k.pathIn x.root) = false) r.world (r.call x.logged c).world :=
    does_call hinitial h.sources hothers
  refine hdoes.untouched h.untouched fun e he q hq => ?_
  rcases he.file hq with ⟨s, hs, rfl | rfl⟩ | hother
  · exact source_ne_pathIn hs k
  · exact output_ne_pathIn hs x.kind k
  · exact hother

/-- Calls that make no attempt on a side file leave it alone. -/
theorem leftAlone_calls {cs : List SessionCall} {r : Run (Logged σ)}
    (hinitial : ∀ c ∈ cs, ∀ p ∈ c.initial, isSource p = true)
    (hothers : ∀ a ∈ r.rewritesIn x.logged cs, a.file.path.same (k.pathIn x.root) = false)
    (h : LeftAlone x k r) : LeftAlone x k (r.calls x.logged cs) := by
  induction cs generalizing r with
  | nil => exact h
  | cons c cs ih =>
    refine ih (fun d hd => hinitial d (List.mem_cons_of_mem c hd))
      (fun a ha => hothers a (List.mem_append_right _ ha)) ?_
    exact leftAlone_call (hinitial c (List.mem_cons_self ..))
      (fun a ha => hothers a (List.mem_append_left _ ha)) h

end Run

end ArtifactSync
