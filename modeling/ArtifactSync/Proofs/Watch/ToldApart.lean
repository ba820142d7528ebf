import ArtifactSync.Proofs.Watch.Converge
import Mathlib.Data.List.Nodup

/-!
# What convergence takes

Watched projects whose sources belong to a class converge exactly when the sources of the class are
told apart (`converged_iff_toldApart`). That they converge then is `Scenario.Valid.converged`. If they
are not told apart, a small project does not converge: one with a single source that is deleted or
modified under another spelling (`Scenario.lone`), or one that begins without sources, so that the
settings are written once before the sources appear (`Scenario.growing`). A source named `..civet`
is enough for the latter (`not_converged_marker`).
-/

namespace ArtifactSync

open Path Artifact

/-- When a session without side files is closed, nothing is written. -/
theorem Run.world_close {σ : Type} {root : Path} {mode : Mode} {quiet : Nat} {r : Run σ}
    {attempts : List (Rewrite σ)} (hsynced : r.Synced root mode quiet attempts)
    (hopen : r.session.phase ≠ .closed) (hmode : ∀ k, mode.keeps k = false) (x : Executor σ) :
    (r.close x).world = r.world := by
  have hnone : r.session.sideFiles.rewrites x.files (·.take) r.world = [] := by
    refine List.eq_nil_iff_forall_not_mem.mpr fun a ha => ?_
    obtain ⟨k, -, htaken⟩ := SideFiles.mem_rewrites ha
    rw [Debouncer.take, hsynced.idle k (hmode k)] at htaken
    cases htaken
  rw [(Run.close_eq hopen x).1, hnone]
  rfl

namespace Scenario

/-- The root of the projects below. -/
def projectRoot : Path := .ofString "/project"

/-! ## One source under two spellings -/

/-- A project with one source and no side files, and one edit. -/
def lone (kind : OutputKind) (p : Path) (text : String) (e : SourceEdit) : Scenario where
  root := projectRoot
  mode := ⟨kind, false, false⟩
  quiet := 0
  memory := Memory.empty.put (projectRoot.join p) text
  sources := [p]
  now := 0
  script := [.edit e [] 0]

section Lone

variable (kind : OutputKind) (compile : String → Path → String) {named : Path → Prop} {p q : Path}
  (hp : SourceIn named p) (text : String) (e : SourceEdit)
include hp

/-- The files of such a project are its source. -/
theorem lookup_lone {p' : Path} (hp' : p'.IsPlain) :
    (lone kind p text e).memory.lookup? (projectRoot.join p') =
      if p.same p' = true then some text else none := by
  rw [lone]
  rcases Bool.eq_false_or_eq_true (p.same p') with hsame | hne
  · rw [if_pos hsame, ← Memory.lookup_congr _ ((hp.same_join hp' _).trans hsame), Memory.lookup_put]
  · rw [if_neg (by simp [hne]), Memory.lookup_put_of_ne _ ((hp.same_join hp' _).trans hne)]
    rfl

/-- Its session starts with the source tracked and built. -/
theorem started_lone : ((lone kind p text e).started compile).session.sources.paths = [p] ∧
    ((lone kind p text e).started compile).session.phase = .watching ∧
    ((lone kind p text e).started compile).world = (lone kind p text e).memory.put
      (projectRoot.join (output p kind)) (withHeader p (compile text p)) := by
  have htext := lookup_lone kind hp text e hp.plain
  rw [if_pos (same_refl p)] at htext
  obtain ⟨r, hbuild, hsession, hworld⟩ := Run.build_present projectRoot kind compile
    (show (lone kind p text e).idle.world.faults = [] from rfl) htext .initial
  have hbuild' : (lone kind p text e).idle.build ((lone kind p text e).executor compile) p .initial =
      (some (output p kind), r) := hbuild
  have hphase : (lone kind p text e).idle.session.phase = .idle := rfl
  have hsources : (lone kind p text e).sources = [p] := rfl
  simp only [started, Run.start, hphase, ne_eq, not_true_eq_false, if_false, hsources, Run.buildAll,
    hbuild']
  refine ⟨?_, rfl, hworld⟩
  change (r.session.sources.insert p).paths = [p]
  rw [hsession]
  rfl

variable {e} (hq : SourceIn named q) (hsame : p.same q = true)
include hq hsame

/-- When the source is edited under some spelling, the project is one that a script is about. -/
theorem valid_lone (he : e.path = q) : (lone kind p text e).Valid compile named where
  faultless := rfl
  sourceIn := by
    intro p' hp'
    simp only [paths, lone, ScriptStep.paths, he, List.flatMap_cons, List.flatMap_nil,
      List.append_nil, List.mem_append, List.mem_singleton] at hp'
    rcases hp' with rfl | rfl
    · exact hp
    · exact hq
  complete := by
    intro p' hp' _
    refine (congrArg (·.isSome = true) (lookup_lone kind hp text e hp')).to_iff.trans ?_
    simp only [lone, List.mem_singleton, exists_eq_left]
    rcases Bool.eq_false_or_eq_true (p.same p') with hsame | hne
    · rw [if_pos hsame, hsame, Option.isSome_some]
    · rw [if_neg (by simp [hne]), hne, Option.isSome_none]
  possible := by
    refine ⟨?_, trivial⟩
    have hthere : (((lone kind p text e).started compile).world.lookup?
        (projectRoot.join q)).isSome = true := by
      rw [(started_lone kind compile hp text e).2.2, Memory.lookup_put_of_ne _
        (join_output_ne_join hp.source hq.source kind _), lookup_lone kind hp text e hq.plain,
        if_pos hsame]
      rfl
    cases e with
    | create path text' => trivial
    | modify path text' =>
      obtain rfl : path = q := he
      exact hthere
    | delete path =>
      obtain rfl : path = q := he
      exact hthere

omit hsame in
/-- The session when the edit has been made, and what its end leaves of the news of it. -/
theorem edited_lone (he : e.path = q) : ∃ r : Run Memory,
    r.session.sources.paths = [p] ∧ r.session.phase = .watching ∧ r.world.faults = [] ∧
      r.world.lookup? (projectRoot.join (output p kind)) = some (withHeader p (compile text p)) ∧
      r.world = e.apply projectRoot ((lone kind p text e).started compile).world ∧
      let told := (r.handle (.inMemory projectRoot kind compile) e.change 0).2
      ((lone kind p text e).closed compile).session.sources = told.session.sources ∧
        ((lone kind p text e).closed compile).world = told.world := by
  obtain ⟨hsources, hphase, hworld⟩ := started_lone kind compile hp text e
  have hsynced : ((lone kind p text e).started compile).Synced projectRoot ⟨kind, false, false⟩ 0 [] :=
    Run.synced_start _ _ _ _ _ _
  let x := Executor.inMemory projectRoot kind compile
  have hclosed : (lone kind p text e).closed compile =
      ((((lone kind p text e).started compile).edited x e).handle x e.change 0).2.close x := rfl
  have hfaults : (lone kind p text e).memory.faults = [] := rfl
  -- nothing below needs to know how the session has started
  rw [hclosed]
  generalize (lone kind p text e).started compile = r at *
  have htold := Run.synced_call (x := x) (.handle e.change 0) (hsynced.edited e x)
  have hopen : ((r.edited x e).handle x e.change 0).2.session.phase ≠ .closed := by
    rw [Run.phase_handle]
    exact fun hend => by cases hphase.symm.trans hend
  refine ⟨r.edited x e, hsources, hphase, ?_, (e.lookup_apply_of_ne projectRoot ?_).trans ?_, rfl,
    (Run.close_eq hopen x).2.1, Run.world_close htold hopen (fun k => by cases k <;> rfl) x⟩
  · rw [Run.edited, e.faults_apply, hworld]
    exact hfaults
  · rw [he, same_comm]
    exact join_output_ne_join hp.source hq.source kind projectRoot
  · rw [hworld, Memory.lookup_put]

/-- A source that is deleted under another spelling leaves no output behind. -/
theorem output_same_of_converged (h : (lone kind p "" (.delete q)).Converged compile) :
    (output p kind).same (output q kind) = true := by
  obtain ⟨r, hsources, hphase, hfaults, houtput, -, hclosed, hworld⟩ :=
    edited_lone kind compile hp "" hq (show (SourceEdit.delete q).path = q from rfl)
  have htracked : r.session.sources.contains q = true :=
    PathSet.contains_iff.mpr ⟨p, by simp [hsources], hsame⟩
  obtain ⟨herased, -, -, hfiles⟩ := Run.handle_gone projectRoot kind compile
    hfaults hphase 0 hq.source htracked
  have hstarted : p ∈ ((lone kind p "" (.delete q)).after compile []).session.sources.paths :=
    (congrArg (p ∈ ·) (started_lone kind compile hp _ _).1).mpr (List.mem_singleton_self p)
  have hdropped : ((lone kind p "" (.delete q)).closed compile).session.sources.contains p =
      false := by
    rw [hclosed]
    refine Bool.eq_false_iff.mpr fun hcontains => ?_
    have hne := (PathSet.contains_erase.mp ((congrArg (·.contains p) herased).symm.trans hcontains)).2
    rw [same_comm, hsame] at hne
    cases hne
  have hcleared : ((lone kind p "" (.delete q)).closed compile).world.lookup?
      (projectRoot.join (output p kind)) = none :=
    h.cleared [] List.nil_prefix p hstarted hdropped
  -- the session has deleted the output of the second spelling, so that of the first has to be it
  rw [hworld] at hcleared
  replace hcleared := (hfiles _).symm.trans hcleared
  rw [houtput] at hcleared
  by_contra hne
  rw [Path.same_join (isInner_output hq.plain hq.source kind) (isInner_output hp.plain hp.source kind),
    same_comm, if_neg hne] at hcleared
  cases hcleared

/-- A source that is modified under another spelling is compiled as under the first one. -/
theorem compile_eq_of_converged (halike : (output p kind).same (output q kind) = true)
    (h : (lone kind p text (.modify q text)).Converged compile) :
    compile text p = compile text q := by
  obtain ⟨r, hsources, hphase, hfaults, houtput, hedited, hclosed, hworld⟩ :=
    edited_lone kind compile hp text hq (show (SourceEdit.modify q text).path = q from rfl)
  have htracked : r.session.sources.contains q = true :=
    PathSet.contains_iff.mpr ⟨p, by simp [hsources], hsame⟩
  have htext : r.world.lookup? (projectRoot.join q) = some text := by
    rw [hedited]
    exact Memory.lookup_put _ _ _
  obtain ⟨hinserted, -, hbuilt⟩ := Run.handle_present projectRoot kind compile
    hfaults hphase 0 hq.source htext (.inr ⟨rfl, htracked⟩)
  have hend : ((lone kind p text (.modify q text)).closed compile).world =
      r.world.put (projectRoot.join (output q kind)) (withHeader q (compile text q)) :=
    hworld.trans hbuilt
  have hmem : p ∈ ((lone kind p text (.modify q text)).closed compile).session.sources.paths := by
    rw [hclosed]
    refine (congrArg (p ∈ ·.paths) hinserted).mpr ?_
    rw [PathSet.insert_of_contains htracked, hsources]
    exact List.mem_singleton_self p
  -- the session has compiled the second spelling, and a build compiles the first, which is tracked
  obtain ⟨m, hm, hsameText⟩ := h.built p hmem
  rw [hend] at hm hsameText
  have hsource : (r.world.put (projectRoot.join (output q kind))
      (withHeader q (compile text q))).lookup? (projectRoot.join p) = some text := by
    rw [Memory.lookup_put_of_ne _ (join_output_ne_join hq.source hp.source kind projectRoot),
      Memory.lookup_congr _ ((hp.same_join hq.plain projectRoot).trans hsame), htext]
  have hfaults' : (r.world.put (projectRoot.join (output q kind))
      (withHeader q (compile text q))).faults = [] := hfaults
  have hbuild := (build_inMemory projectRoot kind compile hfaults' hsource).symm.trans hm
  obtain rfl := (Prod.mk.inj hbuild).2
  replace hsameText : (r.world.put (projectRoot.join (output q kind))
      (withHeader q (compile text q))).lookup? (projectRoot.join (output p kind)) =
      some (withHeader p (compile text p)) := hsameText.trans (Memory.lookup_put _ _ _)
  have hplace : (projectRoot.join (output p kind)).same (projectRoot.join (output q kind)) = true :=
    (Path.same_join (isInner_output hp.plain hp.source kind)
      (isInner_output hq.plain hq.source kind) projectRoot).trans halike
  rw [Memory.lookup_congr _ hplace, Memory.lookup_put, ← withHeader_eq_of_same hsame,
    Option.some.injEq] at hsameText
  exact (withHeader_inj hsameText).symm

end Lone

/-! ## Sources that appear one after another -/

/-- A script that creates sources. -/
def creates (ps : List Path) : List ScriptStep :=
  ps.map fun p => .edit (.create p "") [] 0

/-- The outputs of sources. -/
def outputsOf (kind : OutputKind) (ps : List Path) : PathSet :=
  ps.foldl (fun outputs p => outputs.insert (output p kind)) .empty

/-- A project that begins without sources and with the settings switched on: when some appear, the
settings have been written for none. -/
def growing (kind : OutputKind) (ps : List Path) : Scenario where
  root := projectRoot
  mode := ⟨kind, false, true⟩
  quiet := 0
  memory := .empty
  sources := []
  now := 0
  script := .tick 0 :: creates ps

section Growing

variable (kind : OutputKind) (compile : String → Path → String) {named : Path → Prop}
  {ps : List Path}

/-- It is a project that a script is about. -/
theorem valid_growing (hin : ∀ p ∈ ps, SourceIn named p) :
    (growing kind ps).Valid compile named where
  faultless := rfl
  sourceIn := by
    have hpaths : (growing kind ps).paths = ps := by
      simp [paths, growing, creates, List.flatMap_map, ScriptStep.paths, SourceEdit.path]
    rwa [hpaths]
  complete := by
    intro p _ _
    simp only [growing, List.not_mem_nil, false_and, exists_false, iff_false, Bool.not_eq_true,
      Option.isSome_eq_false_iff]
    rfl
  possible := by
    have hcreates (ps : List Path) (r : Run Memory) :
        r.CanFollow ((growing kind ps).executor compile) (creates ps) := by
      induction ps generalizing r with
      | nil => trivial
      | cons p ps ih => exact ⟨trivial, ih _⟩
    have hscript : (growing kind ps).script = .tick 0 :: creates ps := rfl
    rw [hscript, Run.CanFollow]
    exact hcreates ps _

/-- Creating sources lists their outputs, and does not attempt to rewrite side files. -/
theorem follow_creates {root : Path} {mode : Mode} {quiet : Nat}
    {attempts : List (Rewrite Memory)} {r : Run Memory} (hfaults : r.world.faults = [])
    (hphase : r.session.phase = .watching) (hsynced : r.Synced root mode quiet attempts)
    (hs : ∀ p ∈ ps, isSource p = true) :
    let r' := r.follow (.inMemory root kind compile) (creates ps)
    r'.world.faults = [] ∧ r'.session.phase = .watching ∧ r'.Synced root mode quiet attempts ∧
      r'.session.outputs =
        ps.foldl (fun outputs p => outputs.insert (output p kind)) r.session.outputs ∧
      ∀ k : SideFileKind, r'.world.lookup? (k.pathIn root) = r.world.lookup? (k.pathIn root) := by
  induction ps generalizing r with
  | nil => exact ⟨hfaults, hphase, hsynced, rfl, fun k => rfl⟩
  | cons p ps ih =>
    let e : SourceEdit := .create p ""
    let r₁ := r.edited (.inMemory root kind compile) e
    have hsource := hs p List.mem_cons_self
    have htold := Run.synced_call (x := .inMemory root kind compile) (.handle ⟨.add, p⟩ 0)
      (hsynced.edited e (.inMemory root kind compile))
    rw [Run.rewritesBy, List.append_nil] at htold
    obtain ⟨-, houtputs, hworld⟩ := Run.handle_present root kind compile
      (show r₁.world.faults = [] from hfaults) hphase 0 hsource (Memory.lookup_put _ _ _)
      (.inl rfl)
    obtain ⟨hfaults', hphase', hsynced', houtputs', hside⟩ := ih
      (r := (r₁.handle (.inMemory root kind compile) ⟨.add, p⟩ 0).2)
      ((congrArg Memory.faults hworld).trans hfaults)
      ((Run.phase_handle ..).trans hphase) htold (fun q hq => hs q (List.mem_cons_of_mem p hq))
    refine ⟨hfaults', hphase', hsynced', houtputs'.trans ?_, fun k => (hside k).trans ?_⟩
    · rw [houtputs]
      rfl
    · rw [hworld, Memory.lookup_put_of_ne _ (output_ne_pathIn hsource kind k)]
      exact e.lookup_apply_of_ne root (source_ne_pathIn hsource k)

/-- When the side files have been written once, the settings are those of an empty project. -/
theorem ticked_growing (ps : List Path) :
    let r := ((growing kind ps).started compile).tick ((growing kind ps).executor compile) 0
    r.world.faults = [] ∧ r.session.phase = .watching ∧ r.session.outputs = .empty ∧
      (∃ attempts : List (Rewrite Memory), r.Synced projectRoot ⟨kind, false, true⟩ 0 attempts ∧
        ∀ a ∈ attempts, a.outputs = .empty) ∧
      r.world.lookup? (SideFileKind.editorExclude.pathIn projectRoot) =
        some SideFileKind.emptySettings := by
  have hsynced : ((growing kind ps).started compile).Synced projectRoot ⟨kind, false, true⟩ 0 [] :=
    Run.synced_start _ _ _ _ _ _
  have hticked := Run.synced_call (x := (growing kind ps).executor compile) (.tick 0) hsynced
  obtain ⟨hfaults, hleft, -⟩ := SideFiles.lookup_rewrites (·.poll 0) hsynced.get_eq
    (show ((growing kind ps).started compile).world.faults = [] from rfl)
  have hworld : (((growing kind ps).started compile).tick ((growing kind ps).executor compile)
      0).world = SideFiles.worldBehind Memory.fileSystem ((growing kind ps).started compile).world
        (((growing kind ps).started compile).session.sideFiles.rewrites Memory.fileSystem
          (·.poll 0) ((growing kind ps).started compile).world) := by
    simp only [Run.tick, SideFiles.poll_eq, Run.reportSyncs_world]
    rfl
  have hsession : (((growing kind ps).started compile).tick ((growing kind ps).executor compile)
      0).session.phase = .watching ∧ (((growing kind ps).started compile).tick
        ((growing kind ps).executor compile) 0).session.outputs = .empty := by
    simp only [Run.tick, Run.reportSyncs_session]
    exact ⟨rfl, rfl⟩
  refine ⟨by rw [hworld, hfaults], hsession.1, hsession.2, ⟨_, hticked, fun a ha => ?_⟩, ?_⟩
  · exact hsynced.toInSync.outputs_of_mem (isTake_poll 0) ha
  · rw [hworld, hleft, leftBy_rewrites fun k => (hsynced.get_eq k).1]
    rfl

/-- At the end of the script the outputs are listed, and the settings are still those of an empty
project. -/
theorem after_growing (hs : ∀ p ∈ ps, isSource p = true) :
    let r := (growing kind ps).after compile (growing kind ps).script
    r.world.faults = [] ∧ r.session.phase = .watching ∧ r.session.outputs = outputsOf kind ps ∧
      (∃ attempts : List (Rewrite Memory), r.Synced projectRoot ⟨kind, false, true⟩ 0 attempts ∧
        ∀ a ∈ attempts, a.outputs = .empty) ∧
      r.world.lookup? (SideFileKind.editorExclude.pathIn projectRoot) =
        some SideFileKind.emptySettings := by
  obtain ⟨hfaults, hphase, hnone, ⟨attempts, hsynced, hattempts⟩, hsettings⟩ :=
    ticked_growing kind compile ps
  obtain ⟨hfaults', hphase', hsynced', houtputs, hside⟩ :=
    follow_creates kind compile hfaults hphase hsynced hs
  rw [hnone] at houtputs
  exact ⟨hfaults', hphase', houtputs, ⟨attempts, hsynced', hattempts⟩, (hside _).trans hsettings⟩

/-- If such a project converges, the outputs can be listed as they are. -/
theorem listable_of_converged (hs : ∀ p ∈ ps, isSource p = true)
    (h : (growing kind ps).Converged compile) :
    EditorExclude.Listable ((outputsOf kind ps).paths.map Path.toSlash) := by
  obtain ⟨hfaults, hphase, houtputs, ⟨attempts, hsynced, hattempts⟩, hsettings⟩ :=
    after_growing kind compile hs
  obtain ⟨-, hleft, -⟩ := SideFiles.lookup_rewrites (·.take) hsynced.get_eq hfaults
  have hopen : ((growing kind ps).after compile (growing kind ps).script).session.phase ≠ .closed :=
    by simp [hphase]
  obtain ⟨hworld, -, hclosed, -⟩ := Run.close_eq hopen ((growing kind ps).executor compile)
  have hlater : ((growing kind ps).closed compile).world.lookup?
      (SideFileKind.editorExclude.pathIn projectRoot) =
      SideFileKind.editorExclude.left none (outputsOf kind ps).paths := by
    have hsame : ((growing kind ps).closed compile).session.outputs = outputsOf kind ps :=
      hclosed.trans houtputs
    refine (h.rewritten .editorExclude).trans ?_
    rw [hsame, lookup_rewrittenFor _ rfl]
    rfl
  have hend := (congrArg (fun m : Memory => m.lookup? (SideFileKind.editorExclude.pathIn projectRoot))
    hworld).trans (hleft .editorExclude)
  replace hend := hlater.symm.trans hend
  rw [leftBy_rewrites fun k => (hsynced.get_eq k).1, hsettings] at hend
  -- the end rewrites the settings of an empty project, and one rewrite makes a file of its own
  rcases hsynced.current .editorExclude rfl with ⟨since, hpending⟩ | ⟨-, a, ha, hlisted⟩
  · rw [Debouncer.take, hpending, houtputs] at hend
    exact SideFileKind.listable_of_left_eq hend.symm
  · -- nothing was asked for behind the first rewrite, so nothing is listed
    rw [← houtputs, ← hlisted, hattempts a (lastRewrite_mem ha).1]
    exact ⟨List.nodup_nil, by simp [PathSet.empty]⟩

end Growing

end Scenario

section Listable

variable {outputs : PathSet} (h : EditorExclude.Listable (outputs.paths.map Path.toSlash)) {p : Path}
  (hp : outputs.contains p = true)
include h hp

/-- Outputs that can be listed as they are are shown differently. -/
theorem same_of_listable {q : Path} (hq : outputs.contains q = true)
    (heq : p.toSlash = q.toSlash) : p.same q = true := by
  obtain ⟨o, ho, hop⟩ := PathSet.contains_iff.mp hp
  obtain ⟨o', ho', hoq⟩ := PathSet.contains_iff.mp hq
  rw [← toSlash_eq_of_same hop, ← toSlash_eq_of_same hoq] at heq
  obtain rfl := List.inj_on_of_nodup_map h.nodup ho ho' heq
  exact same_trans (by rwa [same_comm]) hoq

/-- None of them is shown as the marker. -/
theorem toSlash_ne_of_listable : p.toSlash ≠ EditorExclude.marker := by
  obtain ⟨o, ho, hop⟩ := PathSet.contains_iff.mp hp
  rw [← toSlash_eq_of_same hop]
  exact fun hmarker => h.marker (hmarker ▸ List.mem_map_of_mem ho)

end Listable

/-- Watched projects whose sources belong to a class converge exactly when the sources of the class
are told apart. -/
theorem converged_iff_toldApart (kind : OutputKind) (compile : String → Path → String)
    (named : Path → Prop) :
    (∀ w : Scenario, w.mode.kind = kind → w.Valid compile named → w.Converged compile) ↔
      ToldApart kind compile (SourceIn named) := by
  constructor
  · intro h
    have halike (p q : Path) (hp : SourceIn named p) (hq : SourceIn named q)
        (hsame : p.same q = true) : (output p kind).same (output q kind) = true :=
      Scenario.output_same_of_converged kind compile hp hq hsame
        (h _ rfl (Scenario.valid_lone kind compile hp "" hq hsame rfl))
    have hlistable (ps : List Path) (hps : ∀ p ∈ ps, SourceIn named p) :
        EditorExclude.Listable ((Scenario.outputsOf kind ps).paths.map Path.toSlash) :=
      Scenario.listable_of_converged kind compile (fun p hp => (hps p hp).source)
        (h _ rfl (Scenario.valid_growing kind compile hps))
    refine ⟨fun p q hp hq hs hsame => ?_, fun p q text hp hq hsame => ?_, fun p q hp hq heq => ?_,
      fun p hp => ?_⟩
    · exact (output_same_iff hs hsame).mp (halike p q hp hq hsame)
    · exact Scenario.compile_eq_of_converged kind compile hp text hq hsame (halike p q hp hq hsame)
        (h _ rfl (Scenario.valid_lone kind compile hp text hq hsame rfl))
    · have hlisted := hlistable [p, q] (by simp [hp, hq])
      refine same_of_output_same hp.source hq.source (same_of_listable hlisted ?_ ?_ heq)
      · exact PathSet.contains_insert.mpr (.inr (PathSet.contains_insert.mpr (.inl (same_refl _))))
      · exact PathSet.contains_insert.mpr (.inl (same_refl _))
    · have hlisted := hlistable [p] (by simp [hp])
      exact toSlash_ne_of_listable hlisted (PathSet.contains_insert.mpr (.inl (same_refl _)))
  · rintro hapart w rfl hvalid
    exact hvalid.converged hapart

/-- A source with the name `..civet` in a directory that is called like the marker: its output ends
in `..` and is shown as the marker, so the settings list the marker once more than one rewrite
does. -/
theorem not_converged_marker :
    (Scenario.growing .ts [.ofString "civetman:generated/..civet"]).Valid (fun text _ => text)
        (fun _ => True) ∧
      ¬(Scenario.growing .ts [.ofString "civetman:generated/..civet"]).Converged
        fun text _ => text := by
  have hsource : SourceIn (fun _ => True) (.ofString "civetman:generated/..civet") :=
    ⟨trivial, ⟨["civetman:generated".toList, "..civet".toList], by decide⟩, by decide⟩
  refine ⟨Scenario.valid_growing _ _ (by simp [hsource]), fun h => ?_⟩
  have hlistable := Scenario.listable_of_converged _ _ (by simp [hsource.source]) h
  exact hlistable.marker (by decide)

end ArtifactSync
