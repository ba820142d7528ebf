import ArtifactSync.Proofs.Watch.Mirror

/-!
# A watched project converges to its batch build

Sources that are told apart converge (`Scenario.Valid.converged`), and sources of which none has the
name `..civet` are told apart (`toldApart_of_fileName_ne`). The session tends the project (`Tended`):
it mirrors it, and each side file is what the attempts to rewrite it have made of it. The start makes
it so (`tended_started`), and every step of a script keeps it so (`Tended.step`). An edit makes its
path stale (`Tended.edited`), the side files may be rewritten before the session hears of it
(`Tended.tick`), and the news of it mends what was stale (`Tended.handle_present`,
`Tended.handle_gone`). Of several rewrites only the last one counts (`leftBy_eq`), so the end leaves
in each side file what one rewrite makes of the text from before the session (`Tended.close`).
-/

namespace ArtifactSync

open Path Artifact

/-! ## Side files -/

section SideFiles

variable {σ : Type} {root : Path} {mode : Mode} {quiet : Nat} {f : SideFiles} {outputs : PathSet}
  {attempts : List (Rewrite σ)} (h : InSync root mode quiet f outputs attempts)
include h

/-- What is taken are the outputs listed. -/
theorem InSync.outputs_of_mem {take : Debouncer PathSet → Option PathSet × Debouncer PathSet}
    (htake : IsTake take) {files : FileSystem σ} {s : σ} {a : Rewrite σ}
    (ha : a ∈ f.rewrites files take s) : a.outputs = outputs := by
  obtain ⟨k, -, houtputs⟩ := SideFiles.mem_rewrites ha
  have htaken : (f.get k).pending.pending.map Prod.fst = some a.outputs := by
    rcases htake (f.get k).pending with hd | hd
    · rwa [hd] at houtputs
    · rw [hd] at houtputs
      cases houtputs
  by_cases hk : mode.keeps k = true
  · rcases h.current k hk with ⟨since, hp⟩ | ⟨hp, -⟩
    · rw [hp] at htaken
      exact (Option.some.inj htaken).symm
    · rw [hp] at htaken
      cases htaken
  · rw [h.idle k (by simpa using hk)] at htaken
    cases htaken

/-- When nothing waits, each side file that is kept is what one rewrite for the outputs listed makes
of it, and one that is not kept is what it was. -/
theorem InSync.leftBy_eq (hnone : ∀ k, (f.get k).pending.pending = none)
    (hlistable : ∀ a ∈ attempts, EditorExclude.Listable (a.outputs.paths.map Path.toSlash))
    (k : SideFileKind) (before : Option String) : leftBy k before attempts =
      if mode.keeps k = true then k.left before outputs.paths else before := by
  rw [ArtifactSync.leftBy_eq k before hlistable]
  by_cases hk : mode.keeps k = true
  · rcases h.current k hk with ⟨since, hp⟩ | ⟨-, a, ha, houtputs⟩
    · rw [hnone k] at hp
      cases hp
    · rw [ha, if_pos hk, ← houtputs]
      rfl
  · rw [if_neg hk]
    cases ha : lastRewrite k attempts with
    | none => rfl
    | some a =>
      obtain ⟨hmem, hkind⟩ := lastRewrite_mem ha
      rw [← hkind, (h.attempted a hmem).2] at hk
      exact absurd rfl hk

end SideFiles

/-- The side files know where they are. -/
theorem Ready.get_eq {σ : Type} {root : Path} {mode : Mode} {quiet : Nat} {f : SideFiles}
    {attempts : List (Rewrite σ)} (h : Ready root mode quiet f attempts) (k : SideFileKind) :
    (f.get k).kind = k ∧ (f.get k).path = k.pathIn root :=
  ⟨(h.isOf k).kind, (h.isOf k).path⟩

/-- Sources that are told apart have outputs that can be listed as they are. -/
theorem Consistent.listable {kind : OutputKind} {compile : String → Path → String}
    {named : Path → Prop} {sources outputs : PathSet} {built : Path → Prop}
    (h : Consistent kind named sources outputs built) (hapart : ToldApart kind compile named) :
    EditorExclude.Listable (outputs.paths.map Path.toSlash) := by
  have hsource (o : Path) (ho : o ∈ outputs.paths) :
      ∃ s ∈ sources.paths, (output s kind).same o = true := by
    obtain ⟨s, hs, hso, -⟩ := (h.outputs_iff o).mp (PathSet.contains_of_mem ho)
    exact ⟨s, hs, hso⟩
  constructor
  · refine List.pairwise_map.mpr (outputs.increasing.imp_of_mem fun hp hq hbefore heq => ?_)
    obtain ⟨s, hs, hsp⟩ := hsource _ hp
    obtain ⟨t, ht, htq⟩ := hsource _ hq
    rw [← toSlash_eq_of_same hsp, ← toSlash_eq_of_same htq] at heq
    have hst := hapart.shown s t (h.named s hs) (h.named t ht) heq
    obtain rfl := PathSet.eq_of_same hs ht hst
    exact not_before_of_same (same_trans (by rwa [same_comm]) htq) hbefore
  · intro hmem
    obtain ⟨o, ho, hmarker⟩ := List.mem_map.mp hmem
    obtain ⟨s, hs, hso⟩ := hsource o ho
    exact hapart.unmarked s (h.named s hs) (by rw [toSlash_eq_of_same hso, hmarker])

/-! ## What every step keeps -/

/-- A watched project: the session mirrors it, and each side file is what the attempts to rewrite it
have made of it. -/
structure Tended (w : Scenario) (compile : String → Path → String) (named stale : Path → Prop)
    (ever : List Path) (r : Run Memory) (attempts : List (Rewrite Memory)) : Prop where
  mirrors : Mirrors w.root w.mode.kind compile named stale ever r.session.sources
    r.session.outputs r.world
  watching : r.session.phase = .watching
  synced : r.Synced w.root w.mode w.quiet attempts
  left : ∀ k : SideFileKind, r.world.lookup? (k.pathIn w.root) =
    leftBy k (w.memory.lookup? (k.pathIn w.root)) attempts
  listable : ∀ a ∈ attempts, EditorExclude.Listable (a.outputs.paths.map Path.toSlash)

namespace Tended

variable {w : Scenario} {compile : String → Path → String} {named stale : Path → Prop}
  {ever : List Path} {r : Run Memory} {attempts : List (Rewrite Memory)}
  (h : Tended w compile named stale ever r attempts)
  (hapart : ToldApart w.mode.kind compile (SourceIn named))
include h hapart

/-- Attempts on the side files leave the rest of the project alone. -/
theorem rewrites {take : Debouncer PathSet → Option PathSet × Debouncer PathSet}
    (htake : IsTake take) :
    let later := r.session.sideFiles.rewrites Memory.fileSystem take r.world
    let m := SideFiles.worldBehind Memory.fileSystem r.world later
    Mirrors w.root w.mode.kind compile named stale ever r.session.sources r.session.outputs m ∧
      (∀ k : SideFileKind, m.lookup? (k.pathIn w.root) =
        leftBy k (w.memory.lookup? (k.pathIn w.root)) (attempts ++ later)) ∧
      (∀ a ∈ attempts ++ later, EditorExclude.Listable (a.outputs.paths.map Path.toSlash)) ∧
      ∀ p, isSource p = true → m.lookup? (w.root.join p) = r.world.lookup? (w.root.join p) := by
  obtain ⟨hfaults, hleft, helse⟩ := SideFiles.lookup_rewrites take h.synced.get_eq
    h.mirrors.faultless
  -- side files are neither sources nor outputs, so what is written there is written beside those
  have hsource (p : Path) (hs : isSource p = true) := helse (w.root.join p) fun k => by
    rw [same_comm, source_ne_pathIn hs k]
  refine ⟨h.mirrors.congr hfaults (fun p _ hs => hsource p hs) fun p hin => ?_, fun k => ?_,
    fun a ha => ?_, hsource⟩
  · exact helse _ fun k => by rw [same_comm, output_ne_pathIn hin.source]
  · rw [hleft k, h.left k]
    exact (List.foldl_append ..).symm
  · rcases List.mem_append.mp ha with ha | ha
    · exact h.listable a ha
    · rw [h.synced.toInSync.outputs_of_mem htake ha]
      exact h.mirrors.sets.listable hapart

/-- Time passes. -/
theorem tick (now : Nat) :
    (∃ attempts', Tended w compile named stale ever (r.tick (w.executor compile) now) attempts') ∧
      (r.tick (w.executor compile) now).session.sources = r.session.sources ∧
      ∀ p, isSource p = true → (r.tick (w.executor compile) now).world.lookup? (w.root.join p) =
        r.world.lookup? (w.root.join p) := by
  obtain ⟨hmirrors, hleft, hlistable, hsource⟩ := h.rewrites hapart (isTake_poll now)
  have hsynced := Run.synced_call (x := w.executor compile) (.tick now) h.synced
  have hworld : (r.tick (w.executor compile) now).world =
      SideFiles.worldBehind Memory.fileSystem r.world
        (r.session.sideFiles.rewrites Memory.fileSystem (·.poll now) r.world) := by
    simp only [Run.tick, SideFiles.poll_eq, Run.reportSyncs_world]
    rfl
  have hsession : (r.tick (w.executor compile) now).session.sources = r.session.sources ∧
      (r.tick (w.executor compile) now).session.outputs = r.session.outputs ∧
      (r.tick (w.executor compile) now).session.phase = r.session.phase := by
    simp [Run.tick, Run.reportSyncs_session]
  refine ⟨⟨_, ?_, ?_, hsynced, ?_, hlistable⟩, hsession.1, ?_⟩
  · rw [hsession.1, hsession.2.1, hworld]
    exact hmirrors
  · rw [hsession.2.2, h.watching]
  · rw [hworld]
    exact hleft
  · rw [hworld]
    exact hsource

/-- Time passes several times. -/
theorem ticks (instants : List Nat) :
    (∃ attempts', Tended w compile named stale ever (r.ticks (w.executor compile) instants)
      attempts') ∧
      (r.ticks (w.executor compile) instants).session.sources = r.session.sources ∧
      ∀ p, isSource p = true → (r.ticks (w.executor compile) instants).world.lookup?
        (w.root.join p) = r.world.lookup? (w.root.join p) := by
  induction instants generalizing r attempts with
  | nil => exact ⟨⟨attempts, h⟩, rfl, fun p _ => rfl⟩
  | cons now instants ih =>
    obtain ⟨⟨attempts', h'⟩, hsources, hfiles⟩ := h.tick hapart now
    obtain ⟨hrest, hsources', hfiles'⟩ := ih h'
    exact ⟨hrest, hsources'.trans hsources, fun p hs => (hfiles' p hs).trans (hfiles p hs)⟩

variable {p : Path} (hp : SourceIn named p)
include hp

/-- The session is told of a source that is there. -/
theorem handle_present {what : ChangeKind}
    (hwhat : what = .add ∨ what = .change ∧ r.session.sources.contains p = true) (text : String)
    (htext : r.world.lookup? (w.root.join p) = some text) (now : Nat) :
    ∃ attempts', Tended w compile named (fun q => stale q ∧ p.same q = false)
      (ever ++ [p]) (r.handle (w.executor compile) ⟨what, p⟩ now).2 attempts' := by
  obtain ⟨hsources, houtputs, hworld⟩ := Run.handle_present w.root w.mode.kind
    compile h.mirrors.faultless h.watching now hp.source htext hwhat
  have hsynced := Run.synced_call (x := w.executor compile) (.handle ⟨what, p⟩ now) h.synced
  refine ⟨_, ?_, ?_, hsynced, fun k => ?_, ?_⟩
  · rw [Scenario.executor, hsources, houtputs, hworld]
    exact h.mirrors.build hapart hp htext
  · rw [Run.phase_handle, h.watching]
  · rw [Scenario.executor, hworld, Run.rewritesBy, List.append_nil, ← h.left k]
    exact Memory.lookup_put_of_ne _ (output_ne_pathIn hp.source _ k) _
  · rw [Run.rewritesBy, List.append_nil]
    exact h.listable

/-- The session is told of a source that is gone. -/
theorem handle_gone (htracked : r.session.sources.contains p = true)
    (hgone : r.world.lookup? (w.root.join p) = none) (now : Nat) :
    ∃ attempts', Tended w compile named (fun q => stale q ∧ p.same q = false)
      (ever ++ [p]) (r.handle (w.executor compile) ⟨.unlink, p⟩ now).2 attempts' := by
  obtain ⟨hsources, houtputs, hfaults, hfiles⟩ := Run.handle_gone w.root w.mode.kind
    compile h.mirrors.faultless h.watching now hp.source htracked
  have hsynced := Run.synced_call (x := w.executor compile) (.handle ⟨.unlink, p⟩ now) h.synced
  refine ⟨_, ?_, ?_, hsynced, fun k => ?_, ?_⟩
  · rw [Scenario.executor, hsources, houtputs]
    exact h.mirrors.drop hapart hp hgone hfaults hfiles
  · rw [Run.phase_handle, h.watching]
  · rw [Run.rewritesBy, List.append_nil, ← h.left k, Scenario.executor, hfiles,
      if_neg (by simp [output_ne_pathIn hp.source])]
  · rw [Run.rewritesBy, List.append_nil]
    exact h.listable

end Tended

section Edit

variable (root : Path) (e : SourceEdit) {m : Memory}

/-- An edit makes no faults. -/
theorem SourceEdit.faults_apply : (e.apply root m).faults = m.faults := by
  cases e <;> rfl

/-- An edit touches one file. -/
theorem SourceEdit.lookup_apply_of_ne {q : Path} (h : (root.join e.path).same q = false) :
    (e.apply root m).lookup? q = m.lookup? q := by
  cases e with
  | create path text => exact m.lookup_put_of_ne h text
  | modify path text => exact m.lookup_put_of_ne h text
  | delete path => exact m.lookup_delete_of_ne h

/-- The session does not know of it. -/
theorem Run.Synced.edited {root : Path} {mode : Mode} {quiet : Nat} {r : Run Memory}
    {attempts : List (Rewrite Memory)} (h : r.Synced root mode quiet attempts)
    (x : Executor Memory) : (r.edited x e).Synced root mode quiet attempts :=
  ⟨h.toInSync, h.started, h.ended⟩

end Edit

/-- No path is stale. -/
def Settled : Path → Prop :=
  fun _ => False

namespace Tended

variable {w : Scenario} {compile : String → Path → String} {named : Path → Prop}
  {ever : List Path} {r : Run Memory} {attempts : List (Rewrite Memory)}
  (h : Tended w compile named Settled ever r attempts)
include h

/-- A source is edited, and the session does not know of it yet. -/
theorem edited {e : SourceEdit} (hin : SourceIn named e.path) :
    Tended w compile named (fun q => Settled q ∨ e.path.same q = true) ever
      (r.edited (w.executor compile) e) attempts where
  mirrors := h.mirrors.edit hin ((e.faults_apply w.root).trans h.mirrors.faultless) fun _ hq =>
    e.lookup_apply_of_ne w.root hq
  watching := h.watching
  synced := h.synced.edited e _
  left := fun k =>
    (e.lookup_apply_of_ne w.root (source_ne_pathIn hin.source k)).trans (h.left k)
  listable := h.listable

variable (hapart : ToldApart w.mode.kind compile (SourceIn named))
include hapart

/-- Every step of a script is made up for: a source is edited, time passes, and the session is told
of the edit. -/
theorem step {s : ScriptStep} (hin : ∀ p ∈ s.paths, SourceIn named p)
    (hpossible : r.CanFollow (w.executor compile) [s]) :
    ∃ attempts', Tended w compile named Settled (ever ++ s.paths)
      (r.step (w.executor compile) s) attempts' := by
  cases s with
  | tick now =>
    rw [ScriptStep.paths, List.append_nil]
    exact (h.tick hapart now).1
  | edit e instants now =>
    have hsource := hin e.path (by simp [ScriptStep.paths])
    obtain ⟨⟨attempts', h'⟩, hsources, hfiles⟩ := (h.edited hsource).ticks hapart instants
    have hfile := hfiles e.path hsource.source
    have hsettled : ∃ attempts'', Tended w compile named
        (fun q => (Settled q ∨ e.path.same q = true) ∧ e.path.same q = false) (ever ++ [e.path])
        (r.step (w.executor compile) (.edit e instants now)) attempts'' := by
      have htracked := h.mirrors.present e.path hsource.plain hsource.source id
      cases e with
      | create path text =>
        refine h'.handle_present hapart hsource (.inl rfl) text ?_ now
        exact hfile.trans (Memory.lookup_put _ _ _)
      | modify path text =>
        refine h'.handle_present hapart hsource (.inr ⟨rfl, ?_⟩) text ?_ now
        · exact (congrArg (·.contains path) hsources).trans (htracked.mpr hpossible.1)
        · exact hfile.trans (Memory.lookup_put _ _ _)
      | delete path =>
        refine h'.handle_gone hapart hsource ?_ ?_ now
        · exact (congrArg (·.contains path) hsources).trans (htracked.mpr hpossible.1)
        · exact hfile.trans (Memory.lookup_delete _ _)
    obtain ⟨attempts'', h''⟩ := hsettled
    refine ⟨attempts'', ⟨?_, h''.watching, h''.synced, h''.left, h''.listable⟩⟩
    refine h''.mirrors.mono ?_
    rintro q ⟨hstale | hsame, hne⟩
    · exact hstale
    · rw [hsame] at hne
      cases hne

/-- So is every script. -/
theorem follow {script : List ScriptStep}
    (hin : ∀ p ∈ script.flatMap ScriptStep.paths, SourceIn named p)
    (hpossible : r.CanFollow (w.executor compile) script) :
    ∃ attempts', Tended w compile named Settled (ever ++ script.flatMap ScriptStep.paths)
      (r.follow (w.executor compile) script) attempts' := by
  induction script generalizing r ever attempts with
  | nil =>
    rw [List.flatMap_nil, List.append_nil]
    exact ⟨attempts, h⟩
  | cons s script ih =>
    have hfirst : r.CanFollow (w.executor compile) [s] ∧
        (r.step (w.executor compile) s).CanFollow (w.executor compile) script := by
      cases s with
      | tick now => exact ⟨trivial, hpossible⟩
      | edit e instants now => exact ⟨⟨hpossible.1, trivial⟩, hpossible.2⟩
    obtain ⟨attempts', h'⟩ := h.step hapart
      (fun p hp => hin p (List.mem_flatMap.mpr ⟨s, by simp, hp⟩)) hfirst.1
    rw [List.flatMap_cons, ← List.append_assoc]
    exact ih h' (fun p hp => hin p (by simp_all)) hfirst.2

end Tended

/-! ## The beginning and the end -/

/-- Sources that are there are built one after another. -/
theorem mirrors_buildAll {root : Path} {kind : OutputKind} {compile : String → Path → String}
    {named : Path → Prop} (hapart : ToldApart kind compile (SourceIn named)) {sources : List Path}
    (hin : ∀ p ∈ sources, SourceIn named p) {ever : List Path} {r : Run Memory}
    (hthere : ∀ p ∈ sources, ∃ text, r.world.lookup? (root.join p) = some text)
    (h : Mirrors root kind compile named (fun q => ∃ s ∈ sources, s.same q = true) ever
      r.session.sources r.session.outputs r.world) :
    let r' := (Run.buildAll (.inMemory root kind compile) sources r).2.2
    Mirrors root kind compile named Settled (ever ++ sources) r'.session.sources
        r'.session.outputs r'.world ∧
      ∀ k : SideFileKind, r'.world.lookup? (k.pathIn root) = r.world.lookup? (k.pathIn root) := by
  induction sources generalizing r ever with
  | nil =>
    rw [List.append_nil]
    refine ⟨h.mono ?_, fun k => rfl⟩
    rintro q ⟨s, hs, -⟩
    cases hs
  | cons source rest ih =>
    have hsource := hin source (by simp)
    have hrest := fun p hp => hin p (List.mem_cons_of_mem source hp)
    obtain ⟨text, htext⟩ := hthere source (by simp)
    obtain ⟨r', hbuild, hsession, hworld⟩ := Run.build_present root kind compile
      h.faultless htext .initial
    -- the sources that are still to be built are the ones that are stale
    have hstep : Mirrors root kind compile named (fun q => ∃ s ∈ rest, s.same q = true)
        (ever ++ [source]) (r'.session.sources.insert source)
        (r'.session.outputs.insert (output source kind)) r'.world := by
      rw [hsession, hworld]
      refine (h.build hapart hsource htext).mono ?_
      rintro q ⟨⟨s, hs, hsame⟩, hne⟩
      rcases List.mem_cons.mp hs with rfl | hs
      · rw [hsame] at hne
        cases hne
      · exact ⟨s, hs, hsame⟩
    have hlater : ∀ p ∈ rest, ∃ text, r'.world.lookup? (root.join p) = some text := by
      intro p hp
      obtain ⟨text', htext'⟩ := hthere p (List.mem_cons_of_mem source hp)
      have hplain := hrest p hp
      refine ⟨text', ?_⟩
      rw [hworld, Memory.lookup_put_of_ne _ (join_output_ne_join hsource.source hplain.source
        kind root), htext']
    simp only [Run.buildAll, hbuild]
    rw [List.append_cons]
    obtain ⟨hmirrors, hside⟩ :=
      ih (r := (r'.list (output source kind)).track source) hrest hlater hstep
    refine ⟨hmirrors, fun k => (hside k).trans ?_⟩
    change r'.world.lookup? _ = _
    rw [hworld, Memory.lookup_put_of_ne _ (output_ne_pathIn hsource.source kind k)]

/-- A session that starts with all sources there are tends the project. -/
theorem tended_started {w : Scenario} {compile : String → Path → String} {named : Path → Prop}
    (hapart : ToldApart w.mode.kind compile (SourceIn named)) (hvalid : w.Valid compile named) :
    Tended w compile named Settled w.sources (w.started compile) [] := by
  have hin : ∀ p ∈ w.sources, SourceIn named p := fun p hp =>
    hvalid.sourceIn p (List.mem_append_left _ hp)
  have hthere : ∀ p ∈ w.sources, ∃ text, w.memory.lookup? (w.root.join p) = some text :=
    fun p hp => Option.isSome_iff_exists.mp
      ((hvalid.complete p (hin p hp).plain (hin p hp).source).mpr ⟨p, hp, same_refl p⟩)
  -- before the start every source is stale, and nothing is tracked yet
  have hbefore : Mirrors w.root w.mode.kind compile named (fun q => ∃ s ∈ w.sources, s.same q = true)
      [] .empty .empty w.memory := {
    faultless := hvalid.faultless
    sets := Consistent.empty _ _ (by simp)
    known := by simp [PathSet.empty]
    present := by
      intro p hp hs hfresh
      rw [hvalid.complete p hp hs]
      simpa using hfresh
    built := by simp [PathSet.empty]
    cleared := by simp }
  obtain ⟨hmirrors, hside⟩ := mirrors_buildAll (r := w.idle) hapart hin hthere hbefore
  refine ⟨hmirrors, rfl, ?_, hside, by simp⟩
  exact Run.synced_start (w.executor compile) w.mode w.quiet w.memory w.sources w.now

/-- What the end of a session makes of a run. -/
theorem Run.close_eq {σ : Type} {r : Run σ} (h : r.session.phase ≠ .closed) (x : Executor σ) :
    (r.close x).world = SideFiles.worldBehind x.files r.world
        (r.session.sideFiles.rewrites x.files (·.take) r.world) ∧
      (r.close x).session.sources = r.session.sources ∧
      (r.close x).session.outputs = r.session.outputs ∧
      (r.close x).session.phase = .closed := by
  simp [close, if_neg h, SideFiles.flush_eq, enter, emit, reportSyncs_world, reportSyncs_session]

/-- The end of a session leaves the project as it is, and each side file as one rewrite for the
outputs listed leaves it. -/
theorem Tended.close {w : Scenario} {compile : String → Path → String} {named stale : Path → Prop}
    {ever : List Path} {r : Run Memory} {attempts : List (Rewrite Memory)}
    (h : Tended w compile named stale ever r attempts)
    (hapart : ToldApart w.mode.kind compile (SourceIn named)) :
    let r' := r.close (w.executor compile)
    Mirrors w.root w.mode.kind compile named stale ever r'.session.sources r'.session.outputs
        r'.world ∧
      ∀ k : SideFileKind, r'.world.lookup? (k.pathIn w.root) =
        if w.mode.keeps k = true then
          k.left (w.memory.lookup? (k.pathIn w.root)) r'.session.outputs.paths
        else w.memory.lookup? (k.pathIn w.root) := by
  obtain ⟨hmirrors, hleft, hlistable, -⟩ := h.rewrites hapart isTake_take
  have hsynced := Run.synced_call (x := w.executor compile) .close h.synced
  have hopen : r.session.phase ≠ .closed := by simp [h.watching]
  obtain ⟨hworld, hsources, houtputs, hphase⟩ := Run.close_eq hopen (w.executor compile)
  simp only [Run.call, Run.rewritesBy, if_neg hopen] at hsynced
  simp only [hworld]
  refine ⟨?_, fun k => ?_⟩
  · rw [hsources, houtputs]
    exact hmirrors
  · refine (hleft k).trans ?_
    exact hsynced.toInSync.leftBy_eq (hsynced.ended hphase) hlistable k _

/-- One rewrite of each side file that is kept. -/
theorem Scenario.lookup_rewrittenFor (w : Scenario) (hfaults : w.memory.faults = [])
    (outputs : PathSet) (k : SideFileKind) :
    (w.rewrittenFor outputs).lookup? (k.pathIn w.root) =
      if w.mode.keeps k = true then k.left (w.memory.lookup? (k.pathIn w.root)) outputs.paths
      else w.memory.lookup? (k.pathIn w.root) := by
  have hrequest := (ready_new (σ := Memory) w.root w.mode 0).request outputs 0
  obtain ⟨-, hleft, -⟩ := SideFiles.lookup_rewrites (·.take) hrequest.get_eq hfaults
  rw [rewrittenFor, SideFiles.flush_eq, hleft k, leftBy_rewrites fun k => (hrequest.get_eq k).1]
  by_cases hk : w.mode.keeps k = true
  · rcases hrequest.current k hk with ⟨since, hp⟩ | ⟨-, a, ha, -⟩
    · rw [if_pos hk, Debouncer.take, hp]
      rfl
    · cases ha
  · rw [if_neg hk, Debouncer.take, hrequest.idle k (by simpa using hk)]
    rfl

/-- The beginning of a script can be followed if all of it can. -/
theorem Run.canFollow_of_prefix {x : Executor Memory} {before script : List ScriptStep}
    (h : before <+: script) {r : Run Memory} (hscript : r.CanFollow x script) :
    r.CanFollow x before := by
  obtain ⟨rest, rfl⟩ := h
  induction before generalizing r with
  | nil => trivial
  | cons s before ih =>
    cases s with
    | tick now => exact ih hscript
    | edit e instants now => exact ⟨hscript.1, ih hscript.2⟩

/-- Sources that are told apart converge. -/
theorem Scenario.Valid.converged {w : Scenario} {compile : String → Path → String}
    {named : Path → Prop} (hvalid : w.Valid compile named)
    (hapart : ToldApart w.mode.kind compile (SourceIn named)) : w.Converged compile := by
  have hin (before : List ScriptStep) (hbefore : before <+: w.script) :
      ∀ p ∈ before.flatMap ScriptStep.paths, p ∈ w.script.flatMap ScriptStep.paths := by
    intro p hp
    obtain ⟨s, hs, hps⟩ := List.mem_flatMap.mp hp
    exact List.mem_flatMap.mpr ⟨s, hbefore.subset hs, hps⟩
  have htended (before : List ScriptStep) (hbefore : before <+: w.script) :
      ∃ attempts, Tended w compile named Settled (w.sources ++ before.flatMap ScriptStep.paths)
        (w.after compile before) attempts :=
    (tended_started hapart hvalid).follow hapart
      (fun p hp => hvalid.sourceIn p (List.mem_append_right _ (hin before hbefore p hp)))
      (Run.canFollow_of_prefix hbefore hvalid.possible)
  obtain ⟨attempts, hend⟩ := htended w.script (List.prefix_refl _)
  obtain ⟨hmirrors, hside⟩ := hend.close hapart
  refine ⟨fun p hp hs => hmirrors.present p hp hs id, fun s hs => ?_, ?_, fun k => ?_⟩
  · obtain ⟨text, htext, houtput⟩ := hmirrors.built s hs id
    refine ⟨_, build_inMemory w.root w.mode.kind compile hmirrors.faultless htext, ?_⟩
    rw [Memory.lookup_put]
    exact houtput
  · -- what was tracked after some steps was named by then, so it is named by the whole script
    intro before hbefore s hs hout
    obtain ⟨attempts', hbegun⟩ := htended before hbefore
    have hknown : s ∈ w.paths := by
      rcases List.mem_append.mp (hbegun.mirrors.known s hs) with hs | hs
      · exact List.mem_append_left _ hs
      · exact List.mem_append_right _ (hin before hbefore s hs)
    exact hmirrors.cleared s hknown (hvalid.sourceIn s hknown) hout
  · exact (hside k).trans
      (w.lookup_rewrittenFor hvalid.faultless _ k).symm

section Names

variable {compile : String → Path → String} {named : Path → Prop}
  (hnames : ∀ p, named p → p.fileName? ≠ some dotName)
  (hcompile : ∀ p q text, p.same q = true → compile text p = compile text q)
include hnames hcompile

/-- Sources of which none has the name `..civet` are told apart by a compiler that does not see how
they are spelled. -/
theorem toldApart_of_fileName_ne (kind : OutputKind) : ToldApart kind compile (SourceIn named) where
  alike := fun p _ hp _ _ _ hname => absurd hname (hnames p hp.named)
  compiled := fun p q text _ _ hsame => hcompile p q text hsame
  shown := by
    intro p q hp hq heq
    have hplain (p : Path) (hp : SourceIn named p) : (output p kind).IsPlain :=
      (isListable_output hp.plain hp.source (hnames p hp.named) kind).plain
    exact same_of_output_same hp.source hq.source
      (same_of_toSlash_eq (hplain p hp) (hplain q hq) heq)
  unmarked := fun p hp => EditorExclude.toSlash_ne_marker
    (isListable_output hp.plain hp.source (hnames p hp.named) kind)

/-- Watched projects without sources of that name converge. -/
theorem Scenario.Valid.converged_of_fileName_ne {w : Scenario} (hvalid : w.Valid compile named) :
    w.Converged compile :=
  hvalid.converged (toldApart_of_fileName_ne hnames hcompile w.mode.kind)

end Names

end ArtifactSync
