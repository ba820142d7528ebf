import ArtifactSync.Proofs.FileSystem.Confined
import ArtifactSync.Proofs.Watch.Frame
import ArtifactSync.Proofs.Watch.Mirror

/-!
# The last good output

What a session has built is a history of sources and of the texts that the compiler returned for
them. As long as an output is listed, its file holds the last of these texts (`LastGood`), and a call
that neither builds nor drops a source leaves the file of its output alone (`Spared`).

Every call does to outputs one of two things: it builds sources (`Builds`), each of which replaces
the file of one output, or it drops some (`text_foldl_onUnlink`, `outputs_foldl_onUnlink`). Different
sources have outputs at different places, no side file is one of them, and neither is a source that
is edited from outside. What is needed of the sources is that they are spelled alike, and no less
will do (`lastGood_iff_spelledAlike`).
-/

namespace ArtifactSync

open Path Artifact

variable {σ : Type}

/-! ## What was built -/

/-- The text that the compiler returns in a build of a source, if the build gets that far. -/
def Executor.compiled? (x : Executor σ) (source : Path) (s : σ) : Option String :=
  match x.files.read (x.root.join source) s with
  | (.error _, _) => none
  | (.ok text, s) =>
    match (x.compiler text source s).1 with
    | .error _ => none
    | .ok compiled => some compiled

/-- The sources among those in a list that are built when they are built one after another, with the
texts that the compiler returns. -/
def Executor.madeAmong (x : Executor σ) : List Path → σ → List (Path × String)
  | [], _ => []
  | source :: rest, s =>
    match x.build source s with
    | (.ok _, s') => ((x.compiled? source s).map (source, ·)).toList ++ x.madeAmong rest s'
    | (.error _, s') => x.madeAmong rest s'

namespace Run

/-- The sources that a call builds with the texts that the compiler returns. -/
def madeBy (x : Executor σ) (r : Run σ) : SessionCall → List (Path × String)
  | .start sources _ => if r.session.phase ≠ .idle then [] else x.madeAmong sources r.world
  | .handle change now =>
    if (r.handle x change now).1 = .built then
      ((x.compiled? change.path r.world).map (change.path, ·)).toList
    else []
  | .tick _ => []
  | .close => []

/-- The sources that a turn builds. -/
def madeInTurn (x : Executor σ) (r : Run σ) : Turn σ → List (Path × String)
  | .call c => r.madeBy x c
  | .outside _ => []

/-- The sources that turns build, one after another. -/
def madeIn (x : Executor σ) (r : Run σ) : List (Turn σ) → List (Path × String)
  | [] => []
  | t :: ts => r.madeInTurn x t ++ (r.turn x t).madeIn x ts

/-- The last turn builds last. -/
theorem madeIn_concat (x : Executor σ) (r : Run σ) (ts : List (Turn σ)) (t : Turn σ) :
    r.madeIn x (ts ++ [t]) = r.madeIn x ts ++ (r.turns x ts).madeInTurn x t := by
  induction ts generalizing r with
  | nil => simp [madeIn, turns]
  | cons u ts ih =>
    rw [List.cons_append, madeIn, madeIn, ih, List.append_assoc]
    rfl

end Run

/-- What the compiler returned in the last build of a source, under any spelling. -/
def lastMade (source : Path) (made : List (Path × String)) : Option String :=
  ((made.filter fun m => m.1.same source).getLast?).map Prod.snd

/-- Later builds come last. -/
theorem lastMade_append (source : Path) (made later : List (Path × String)) :
    lastMade source (made ++ later) = (lastMade source later).or (lastMade source made) := by
  rw [lastMade, List.filter_append, List.getLast?_append, lastMade, lastMade]
  cases (later.filter fun m => m.1.same source).getLast? <;> rfl

/-- A source was built last as the one build says. -/
theorem lastMade_singleton (source p : Path) (compiled : String) :
    lastMade source [(p, compiled)] = if p.same source = true then some compiled else none := by
  cases h : p.same source <;> simp [lastMade, h]

/-- A source was not built if nothing that was built spells it. -/
theorem lastMade_eq_none {source : Path} {made : List (Path × String)}
    (h : ∀ m ∈ made, m.1.same source = false) : lastMade source made = none := by
  have hfilter : made.filter (fun m => m.1.same source) = [] := by
    rw [List.filter_eq_nil_iff]
    intro m hm
    simp [h m hm]
  rw [lastMade, hfilter]
  rfl

namespace Run

/-- The file of every listed output holds what the last build of its source made of it. -/
def LastGood (x : Executor σ) (text? : Path → σ → Option String) (named : Path → Prop)
    (r : Run σ) (made : List (Path × String)) : Prop :=
  ∀ s, SourceIn named s → r.session.outputs.contains (x.outputFor s) = true →
    ∃ compiled, lastMade s made = some compiled ∧
      text? (x.root.join (x.outputFor s)) r.world = some (withHeader s compiled)

/-- A call leaves the outputs alone whose sources it neither builds nor drops. -/
def Spared (x : Executor σ) (text? : Path → σ → Option String) (named : Path → Prop) (r : Run σ)
    (c : SessionCall) : Prop :=
  ∀ s, SourceIn named s → (∀ m ∈ r.madeBy x c, m.1.same s = false) →
    (r.session.sources.contains s = true → (r.call x c).session.sources.contains s = true) →
    text? (x.root.join (x.outputFor s)) (r.call x c).world =
      text? (x.root.join (x.outputFor s)) r.world

end Run

/-! ## What becomes of texts -/

section Texts

variable {x : Executor σ} {text? : Path → σ → Option String}

/-- A build that fails changes no text, and one that succeeds puts the header and the compiled text
into the file of the output, and changes no other. -/
theorem Executor.Exact.build (hx : x.Exact text?) (source : Path) (s : σ) :
    match x.build source s with
    | (.error _, s') => ∀ q, text? q s' = text? q s
    | (.ok _, s') => ∃ compiled, x.compiled? source s = some compiled ∧
        ∀ q, text? q s' = if (x.root.join (x.outputFor source)).same q = true
          then some (withHeader source compiled) else text? q s := by
  have hread := fun q => hx.files.read_keeps (x.root.join source) q s
  simp only [Executor.build, Executor.compiled?]
  rcases hr : x.files.read (x.root.join source) s with ⟨_ | text, s₁⟩
  · simpa only [hr] using hread
  · rw [hr] at hread
    have hcompile := fun q => (hx.compiler_keeps text source q s₁).trans (hread q)
    rcases hc : x.compiler text source s₁ with ⟨_ | compiled, s₂⟩
    · simpa only [hc] using hcompile
    · rw [hc] at hcompile
      rcases hw : x.files.write (x.root.join (x.outputFor source)) (withHeader source compiled) s₂
        with ⟨_ | done, s₃⟩
      · simp only [hc, hw]
        intro q
        have hfailed : text? q (x.files.write (x.root.join (x.outputFor source))
            (withHeader source compiled) s₂).2 = text? q s₂ :=
          hx.files.write_keeps (.inr (congrArg (succeeded ·.1) hw))
        rw [hw] at hfailed
        exact hfailed.trans (hcompile q)
      · simp only [hc, hw]
        refine ⟨compiled, rfl, fun q => ?_⟩
        split
        · next hsame =>
          have hwritten := hx.files.write_ok hsame (congrArg (succeeded ·.1) hw)
          rwa [hw] at hwritten
        · next hne =>
          rw [Bool.not_eq_true] at hne
          have hother : text? q (x.files.write (x.root.join (x.outputFor source))
              (withHeader source compiled) s₂).2 = text? q s₂ := hx.files.write_keeps (.inl hne)
          rw [hw] at hother
          exact hother.trans (hcompile q)

/-- An attempt to rewrite a side file changes no other text. -/
theorem FileSystem.Confined.writeNow {files : FileSystem σ} (hfiles : files.Confined text?)
    (f : SideFile) (outputs : PathSet) (s : σ) {q : Path} (hq : f.path.same q = false) :
    text? q (f.writeNow files outputs s).2 = text? q s := by
  exact SideFile.writeNow_keeps (fun p s' h => (hfiles.createDirs_keeps p q s').trans h)
    (fun p s' h => (hfiles.read_keeps p q s').trans h)
    (fun text s' h => (hfiles.write_keeps (.inl hq)).trans h) rfl outputs

/-- Attempts on side files change no other text. -/
theorem FileSystem.Confined.rewrites {files : FileSystem σ} (hfiles : files.Confined text?)
    {root : Path} {f : SideFiles} (hf : ∀ k, (f.get k).path = k.pathIn root)
    (take : Debouncer PathSet → Option PathSet × Debouncer PathSet) (s : σ) {q : Path}
    (hq : ∀ k : SideFileKind, (k.pathIn root).same q = false) :
    text? q (SideFiles.worldBehind files s (f.rewrites files take s)) = text? q s := by
  refine SideFiles.rewrites_induction files take (fun _ s' => text? q s' = text? q s) f s
    (fun done a ha hdone => ?_) [] rfl
  obtain ⟨k, hfile, -⟩ := SideFiles.mem_rewrites ha
  refine (hfiles.writeNow a.file a.outputs a.world ?_).trans hdone
  rw [hfile, SideFiles.get_taken]
  exact (congrArg (·.same q) (hf k)).trans (hq k)

end Texts

namespace Run

variable {x : Executor σ} {text? : Path → σ → Option String} {named : Path → Prop}

/-! ## Builds -/

/-- A build that is reported is one of the executor. -/
theorem executor_build_of_built {r r' : Run σ} {source output : Path} {trigger : Trigger}
    (h : r.build x source trigger = (some output, r')) :
    x.build source r.world = (.ok output, r'.world) := by
  unfold Run.build at h
  split at h
  · next hb =>
    cases h
    exact hb
  · cases h

/-- So is a failure. -/
theorem executor_build_of_failed {r r' : Run σ} {source : Path} {trigger : Trigger}
    (h : r.build x source trigger = (none, r')) :
    ∃ e, x.build source r.world = (.error e, r'.world) := by
  unfold Run.build at h
  split at h
  · cases h
  · next e s hb =>
    cases h
    exact ⟨e, hb⟩

/-- What builds do to outputs, given what was built. -/
structure Builds (x : Executor σ) (text? : Path → σ → Option String) (named : Path → Prop)
    (made : List (Path × String)) (r r' : Run σ) : Prop where
  /-- What was built last is in the file of the output. -/
  holds : ∀ s compiled, SourceIn named s → lastMade s made = some compiled →
    text? (x.root.join (x.outputFor s)) r'.world = some (withHeader s compiled)
  /-- The other outputs are left alone. -/
  kept : ∀ s, SourceIn named s → lastMade s made = none →
    text? (x.root.join (x.outputFor s)) r'.world = text? (x.root.join (x.outputFor s)) r.world
  /-- They are not listed anew. -/
  listed : ∀ s, SourceIn named s → lastMade s made = none →
    r'.session.outputs.contains (x.outputFor s) = true →
      r.session.outputs.contains (x.outputFor s) = true
  /-- Nothing is dropped. -/
  grows : ∀ s, r.session.sources.contains s = true → r'.session.sources.contains s = true

/-- Where nothing is built, texts and listed outputs stay as they are. -/
theorem Builds.none {r r' : Run σ}
    (htext : ∀ s, SourceIn named s → text? (x.root.join (x.outputFor s)) r'.world =
      text? (x.root.join (x.outputFor s)) r.world)
    (houtputs : r'.session.outputs = r.session.outputs)
    (hgrows : ∀ s, r.session.sources.contains s = true → r'.session.sources.contains s = true) :
    Builds x text? named [] r r' where
  holds := by simp [lastMade]
  kept := fun s hs _ => htext s hs
  listed := fun s _ _ h => by rwa [houtputs] at h
  grows := hgrows

/-- Builds come one after another. -/
theorem Builds.trans {made later : List (Path × String)} {r r' r'' : Run σ}
    (h : Builds x text? named made r r') (h' : Builds x text? named later r' r'') :
    Builds x text? named (made ++ later) r r'' where
  holds := by
    intro s compiled hs hlast
    rw [lastMade_append] at hlast
    cases hlater : lastMade s later with
    | none =>
      rw [hlater, Option.none_or] at hlast
      rw [h'.kept s hs hlater]
      exact h.holds s compiled hs hlast
    | some compiled' =>
      rw [hlater, Option.some_or] at hlast
      exact h'.holds s compiled hs (hlater.trans hlast)
  kept := by
    intro s hs hlast
    rw [lastMade_append, Option.or_eq_none_iff] at hlast
    rw [h'.kept s hs hlast.1, h.kept s hs hlast.2]
  listed := by
    intro s hs hlast houtput
    rw [lastMade_append, Option.or_eq_none_iff] at hlast
    exact h.listed s hs hlast.2 (h'.listed s hs hlast.1 houtput)
  grows := fun s hs => h'.grows s (h.grows s hs)

section Builds

variable (hx : x.Exact text?) (alike : SpelledAlike (SourceIn named))
include hx

/-- A build that fails changes no output. -/
theorem builds_of_failed {r r' : Run σ} {source : Path} {s' : σ} {e : BuildError}
    (hb : x.build source r.world = (.error e, s')) (hworld : r'.world = s')
    (houtputs : r'.session.outputs = r.session.outputs)
    (hgrows : ∀ s, r.session.sources.contains s = true → r'.session.sources.contains s = true) :
    Builds x text? named [] r r' := by
  have htexts := hx.build source r.world
  rw [hb] at htexts
  exact .none (fun s _ => by rw [hworld]; exact htexts _) houtputs hgrows

include alike

/-- A build that succeeds replaces the file of one output. -/
theorem builds_of_built {r r' : Run σ} {source output : Path} {s' : σ}
    (hsource : SourceIn named source) (hb : x.build source r.world = (.ok output, s'))
    (hworld : r'.world = s')
    (houtputs : r'.session.outputs = r.session.outputs.insert (x.outputFor source))
    (hgrows : ∀ s, r.session.sources.contains s = true → r'.session.sources.contains s = true) :
    Builds x text? named ((x.compiled? source r.world).map (source, ·)).toList r r' := by
  have htexts := hx.build source r.world
  rw [hb] at htexts
  obtain ⟨compiled, hcompiled, htexts⟩ := htexts
  rw [hcompiled, Option.map_some, Option.toList_some]
  refine ⟨fun s text hs hlast => ?_, fun s hs hlast => ?_, fun s hs hlast houtput => ?_, hgrows⟩
  · rw [lastMade_singleton] at hlast
    split at hlast
    · next hsame =>
      cases hlast
      have hplace : (x.root.join (x.outputFor source)).same (x.root.join (x.outputFor s)) = true :=
        hsource.output_same_output alike hs hsame x.kind x.root
      rw [hworld, htexts, if_pos hplace, withHeader_eq_of_same hsame]
    · cases hlast
  · rw [lastMade_singleton] at hlast
    have hne : source.same s = false := by
      by_contra hsame
      simp [Bool.not_eq_false _ ▸ hsame] at hlast
    rw [hworld, htexts, if_neg]
    rw [Bool.not_eq_true]
    exact hsource.output_ne_output hs hne x.kind x.root
  · rw [lastMade_singleton] at hlast
    rw [houtputs, PathSet.contains_insert] at houtput
    refine houtput.resolve_left fun hsame => ?_
    rw [if_pos (same_of_output_same hsource.source hs.source hsame)] at hlast
    cases hlast

/-- The sources in a list are built one after another. -/
theorem builds_buildAll {sources : List Path} (hsources : ∀ p ∈ sources, SourceIn named p)
    (r : Run σ) : Builds x text? named (x.madeAmong sources r.world) r
      (buildAll x sources r).2.2 := by
  induction sources generalizing r with
  | nil => exact .none (fun _ _ => rfl) rfl fun _ hs => hs
  | cons source rest ih =>
    have ih := ih fun p hp => hsources p (List.mem_cons_of_mem source hp)
    have hgrows (s : Path) (hs : r.session.sources.contains s = true) :
        (r.session.sources.insert source).contains s = true :=
      PathSet.contains_insert.mpr (.inr hs)
    rcases hb : x.build source r.world with ⟨e | output, s'⟩
    · simp only [buildAll, Run.build, hb, Executor.madeAmong]
      have hfirst : Builds x text? named [] r
          ((Run.emit ⟨r.session, s', r.events⟩ (.ofError e)).track source) :=
        builds_of_failed hx hb rfl rfl hgrows
      exact hfirst.trans (ih ((Run.emit ⟨r.session, s', r.events⟩ (.ofError e)).track source))
    · have houtput := Executor.build_ok hb
      simp only [buildAll, Run.build, hb, Executor.madeAmong]
      have hrest := ih (((Run.emit ⟨r.session, s', r.events⟩
        (.built source output .initial)).list output).track source)
      refine Builds.trans ?_ hrest
      exact builds_of_built hx alike (hsources source (by simp)) hb rfl (by rw [houtput]; rfl)
        hgrows

end Builds

/-! ## Drops -/

section Drops

variable {gone : List Path} (now : Nat) (r : Run σ)

/-- The outputs that are listed after sources were dropped are those that were, without theirs. -/
theorem outputs_foldl_onUnlink {o : Path} :
    (gone.foldl (onUnlink x now) r).session.outputs.contains o = true ↔
      r.session.outputs.contains o = true ∧ ∀ g ∈ gone, (x.outputFor g).same o = false := by
  induction gone generalizing r with
  | nil => simp
  | cons source rest ih =>
    rw [List.foldl_cons, ih, onUnlink_session, PathSet.contains_erase, List.forall_mem_cons,
      and_assoc]

/-- Dropping sources leaves the outputs of others alone. -/
theorem text_foldl_onUnlink (hx : x.Confined text?) (hgone : ∀ g ∈ gone, SourceIn named g) {s : Path}
    (hs : SourceIn named s) (hne : ∀ g ∈ gone, g.same s = false) :
    text? (x.root.join (x.outputFor s)) (gone.foldl (onUnlink x now) r).world =
      text? (x.root.join (x.outputFor s)) r.world := by
  induction gone generalizing r with
  | nil => rfl
  | cons source rest ih =>
    obtain ⟨hsource, hrest⟩ := List.forall_mem_cons.mp hgone
    rw [List.forall_mem_cons] at hne
    have hworld : (onUnlink x now r source).world =
        (x.removeOutput (x.outputFor source) r.world).2 := deleteOutput_world _ _ _
    rw [List.foldl_cons, ih _ hrest hne.2, hworld]
    exact hx.files.remove_keeps (.inl (hsource.output_ne_output hs hne.1 x.kind x.root))

end Drops

/-! ## Calls -/

/-- What a call does to outputs, given what it built. -/
structure Tends (x : Executor σ) (text? : Path → σ → Option String) (named : Path → Prop)
    (made : List (Path × String)) (r r' : Run σ) : Prop where
  /-- What was built last is in the file of the output. -/
  holds : ∀ s compiled, SourceIn named s → lastMade s made = some compiled →
    text? (x.root.join (x.outputFor s)) r'.world = some (withHeader s compiled)
  /-- The other outputs are left alone, unless their sources are dropped. -/
  kept : ∀ s, SourceIn named s → lastMade s made = none →
    (r.session.sources.contains s = true → r'.session.sources.contains s = true) →
    text? (x.root.join (x.outputFor s)) r'.world = text? (x.root.join (x.outputFor s)) r.world
  /-- Those of sources that are dropped are not listed any more, and none is listed anew. -/
  listed : ∀ s, SourceIn named s → lastMade s made = none →
    r'.session.outputs.contains (x.outputFor s) = true →
      r.session.outputs.contains (x.outputFor s) = true ∧
        (r.session.sources.contains s = true → r'.session.sources.contains s = true)

/-- Builds drop nothing. -/
theorem Builds.tends {made : List (Path × String)} {r r' : Run σ}
    (h : Builds x text? named made r r') : Tends x text? named made r r' where
  holds := h.holds
  kept := fun s hs hnone _ => h.kept s hs hnone
  listed := fun s hs hnone hlisted => ⟨h.listed s hs hnone hlisted, h.grows s⟩

section Calls

variable (hx : x.Exact text?) (alike : SpelledAlike (SourceIn named))
include hx

/-- Tracked sources are dropped one after another. -/
theorem tends_foldl_onUnlink (alike : SpelledAlike (SourceIn named)) {gone : List Path} (now : Nat)
    {r : Run σ} (hgone : ∀ g ∈ gone, SourceIn named g)
    (htracked : ∀ g ∈ gone, r.session.sources.contains g = true) :
    Tends x text? named [] r (gone.foldl (onUnlink x now) r) where
  holds := by simp [lastMade]
  kept := by
    intro s hs _ hstays
    refine text_foldl_onUnlink now r hx.confined hgone hs fun g hg => ?_
    by_contra hsame
    rw [Bool.not_eq_false] at hsame
    -- the source was tracked as it spells a dropped one, so it must be tracked still
    have hstill := hstays (PathSet.contains_of_same (htracked g hg) hsame)
    obtain ⟨q, hq, hqs⟩ := PathSet.contains_iff.mp hstill
    have hqg := (mem_foldl_onUnlink_iff.mp hq).2 g hg
    rw [same_trans hqs (by rwa [same_comm])] at hqg
    cases hqg
  listed := by
    intro s hs _ hlisted
    obtain ⟨hbefore, hothers⟩ := (outputs_foldl_onUnlink now r).mp hlisted
    refine ⟨hbefore, fun hin => ?_⟩
    obtain ⟨q, hq, hqs⟩ := PathSet.contains_iff.mp hin
    refine PathSet.contains_iff.mpr ⟨q, mem_foldl_onUnlink_iff.mpr ⟨hq, fun g hg => ?_⟩, hqs⟩
    by_contra hqg
    rw [Bool.not_eq_false, same_comm] at hqg
    have hout := hothers g hg
    rw [Executor.outputFor, Executor.outputFor, alike.output_same (hgone g hg) hs
      (hgone g hg).source (same_trans hqg hqs)] at hout
    cases hout

include alike

/-- A change tends to outputs. -/
theorem tends_handle {r : Run σ} {change : Change} (now : Nat)
    (hpath : isSource change.path = true → SourceIn named change.path)
    (hsources : ∀ p ∈ r.session.sources.paths, SourceIn named p) :
    Tends x text? named (r.madeBy x (.handle change now)) r (r.handle x change now).2 := by
  have hhandled := handled x change now r
  simp only [madeBy]
  generalize r.handle x change now = answer at hhandled ⊢
  obtain ⟨outcome, r'⟩ := answer
  dsimp only at hhandled ⊢
  have hkept (s : Path) (h : r.session.sources.contains s = true) :
      r.session.sources.contains s = true := h
  cases hhandled with
  | ignored => exact (Builds.none (fun _ _ => rfl) rfl hkept).tends
  | failed trigger watching source build =>
    have hsession := session_of_build build
    obtain ⟨e, hb⟩ := executor_build_of_failed build
    exact (builds_of_failed hx hb rfl (by rw [hsession]) (by rwa [hsession])).tends
  | @added r' appeared watching source fresh build =>
    have hsession := session_of_build build
    rw [if_pos rfl]
    refine Builds.tends ?_
    refine builds_of_built hx alike (hpath source) (executor_build_of_built build) rfl ?_ ?_
    · rw [requestSync_outputs, list_outputs, track_outputs, hsession]
    · intro s hs
      rw [requestSync_sources, list_sources, track_sources, hsession]
      exact PathSet.contains_insert.mpr (.inr hs)
  | rebuilt watching source tracked build listed =>
    have hsession := session_of_build build
    rw [if_pos rfl]
    refine Builds.tends ?_
    refine builds_of_built hx alike (hpath source) (executor_build_of_built build) rfl ?_ ?_
    · rw [hsession, PathSet.insert_of_contains listed]
    · rwa [hsession]
  | @mended r' watching source tracked build unlisted =>
    have hsession := session_of_build build
    rw [if_pos rfl]
    refine Builds.tends ?_
    refine builds_of_built hx alike (hpath source) (executor_build_of_built build) rfl ?_ ?_
    · rw [requestSync_outputs, list_outputs, hsession]
    · rwa [requestSync_sources, list_sources, hsession]
  | removed watching source tracked =>
    have hgone : ∀ g ∈ [change.path], SourceIn named g := by simpa using hpath source
    exact tends_foldl_onUnlink hx alike now hgone (by simpa using tracked)
  | removedBelow watching named untracked =>
    have hmem : ∀ p ∈ r.below change.path, p ∈ r.session.sources.paths :=
      fun p hp => (List.mem_filter.mp hp).1
    exact tends_foldl_onUnlink hx alike now (fun p hp => hsources p (hmem p hp))
      fun p hp => PathSet.contains_of_mem (hmem p hp)

/-- Every call tends to outputs. -/
theorem tends_call {r : Run σ} {c : SessionCall} (hinitial : ∀ p ∈ c.initial, SourceIn named p)
    (hpaths : ∀ p ∈ c.paths, isSource p = true → SourceIn named p)
    (hsources : ∀ p ∈ r.session.sources.paths, SourceIn named p)
    (hsideFiles : ∀ k, (r.session.sideFiles.get k).path = k.pathIn x.root) :
    Tends x text? named (r.madeBy x c) r (r.call x c) := by
  have hrewrites (take) (s : Path) (hs : SourceIn named s) :
      text? (x.root.join (x.outputFor s)) (SideFiles.worldBehind x.files r.world
        (r.session.sideFiles.rewrites x.files take r.world)) =
      text? (x.root.join (x.outputFor s)) r.world := by
    refine hx.files.toConfined.rewrites hsideFiles take r.world fun k => ?_
    rw [same_comm]
    exact output_ne_pathIn hs.source x.kind k
  cases c with
  | start sources now =>
    simp only [call, start, madeBy]
    by_cases hidle : r.session.phase = .idle
    · simp only [hidle, ne_eq, not_true_eq_false, if_false]
      have hall := builds_buildAll hx alike hinitial r
      refine Builds.tends ?_
      exact ⟨hall.holds, hall.kept, hall.listed, hall.grows⟩
    · simp only [hidle, ne_eq, not_false_eq_true, if_true]
      exact (Builds.none (fun _ _ => rfl) rfl fun _ hs => hs).tends
  | handle change now => exact tends_handle hx alike now (hpaths _ (by simp [SessionCall.paths])) hsources
  | tick now =>
    refine (Builds.none (fun s hs => ?_) ?_ ?_).tends
    · simp only [call, tick, SideFiles.poll_eq, reportSyncs_world]
      exact hrewrites _ s hs
    · simp [call, tick, reportSyncs_session]
    · simp [call, tick, reportSyncs_session]
  | close =>
    by_cases hclosed : r.session.phase = .closed
    · simp only [call, close, if_pos hclosed, madeBy]
      exact (Builds.none (fun _ _ => rfl) rfl fun _ hs => hs).tends
    · refine (Builds.none (fun s hs => ?_) ?_ ?_).tends
      · simp only [call, close, if_neg hclosed, SideFiles.flush_eq, enter, emit, reportSyncs_world]
        exact hrewrites _ s hs
      · simp [call, close, hclosed, reportSyncs_session, enter, emit]
      · simp [call, close, hclosed, reportSyncs_session, enter, emit]

end Calls

/-! ## Runs -/

/-- What holds of a session in a run whose sources belong to a class. -/
structure Good (x : Executor σ) (text? : Path → σ → Option String) (named : Path → Prop)
    (mode : Mode) (quiet : Nat) (r : Run σ) (made : List (Path × String)) : Prop where
  regular : Regular x.root mode quiet r
  sources : ∀ p ∈ r.session.sources.paths, SourceIn named p
  outputs : LastGood x text? named r made

section Good

variable {mode : Mode} {quiet : Nat} {r : Run σ} {made : List (Path × String)}

/-- A new session has no outputs. -/
theorem good_fresh (x : Executor σ) (text? : Path → σ → Option String) (named : Path → Prop)
    (mode : Mode) (quiet : Nat) (s : σ) :
    Good x text? named mode quiet (fresh (.new x.root mode.git mode.vscode quiet) s) [] where
  regular := regular_fresh x.root mode quiet s
  sources := by simp [fresh, Session.new, PathSet.empty]
  outputs := by simp [LastGood, fresh, Session.new]

variable (hx : x.Exact text?) (alike : SpelledAlike (SourceIn named))
  (h : Good x text? named mode quiet r made)
include hx alike h

/-- What a call on such a session does to outputs. -/
theorem Good.tends {c : SessionCall} (hinitial : ∀ p ∈ c.initial, SourceIn named p)
    (hpaths : ∀ p ∈ c.paths, isSource p = true → SourceIn named p) :
    Tends x text? named (r.madeBy x c) r (r.call x c) :=
  tends_call hx alike hinitial hpaths h.sources fun k => (h.regular.ready.isOf k).path

/-- A call spares the outputs of the sources that it neither builds nor drops. -/
theorem Good.spared {c : SessionCall} (hinitial : ∀ p ∈ c.initial, SourceIn named p)
    (hpaths : ∀ p ∈ c.paths, isSource p = true → SourceIn named p) : Spared x text? named r c :=
  fun s hs hmade hstays =>
    (h.tends hx alike hinitial hpaths).kept s hs (lastMade_eq_none hmade) hstays

/-- A call keeps the session good. -/
theorem Good.call {c : SessionCall} (hinitial : ∀ p ∈ c.initial, SourceIn named p)
    (hpaths : ∀ p ∈ c.paths, isSource p = true → SourceIn named p) :
    Good x text? named mode quiet (r.call x c) (made ++ r.madeBy x c) where
  regular := regular_call (fun p hp => (hinitial p hp).source) h.regular
  sources := sources_call hinitial hpaths h.sources
  outputs := by
    have htends := h.tends hx alike hinitial hpaths
    intro s hs hlisted
    rw [lastMade_append]
    cases hlast : lastMade s (r.madeBy x c) with
    | some compiled => exact ⟨compiled, rfl, htends.holds s compiled hs hlast⟩
    | none =>
      obtain ⟨hbefore, hstays⟩ := htends.listed s hs hlast hlisted
      rw [Option.none_or, htends.kept s hs hlast hstays]
      exact h.outputs s hs hbefore

omit hx alike in
/-- So does what happens outside, as long as it leaves everything alone but sources. -/
theorem Good.outside {change : σ → σ}
    (houtside : ∀ s p, isSource p = false → text? p (change s) = text? p s) :
    Good x text? named mode quiet { r with world := change r.world } made where
  regular := ⟨h.regular.sources, h.regular.ready⟩
  sources := h.sources
  outputs := by
    intro s hs hlisted
    obtain ⟨compiled, hlast, htext⟩ := h.outputs s hs hlisted
    refine ⟨compiled, hlast, ?_⟩
    exact (houtside _ _ (isSource_join_output hs.source x.kind x.root)).trans htext

end Good

/-- Turns of a watched project whose sources belong to a class: from outside only sources are
edited. -/
structure Proper (named : Path → Prop) (text? : Path → σ → Option String) (ts : List (Turn σ)) :
    Prop where
  initial : ∀ t ∈ ts, ∀ p ∈ t.initial, SourceIn named p
  paths : ∀ t ∈ ts, ∀ p ∈ t.paths, isSource p = true → SourceIn named p
  outside : ∀ change, .outside change ∈ ts →
    ∀ s p, isSource p = false → text? p (change s) = text? p s

/-- The first turns are proper. -/
theorem Proper.left {ts us : List (Turn σ)} (h : Proper named text? (ts ++ us)) :
    Proper named text? ts where
  initial := fun t ht => h.initial t (List.mem_append_left us ht)
  paths := fun t ht => h.paths t (List.mem_append_left us ht)
  outside := fun change hc => h.outside change (List.mem_append_left us hc)

/-- Proper turns keep a session good. -/
theorem good_turns (hx : x.Exact text?) (alike : SpelledAlike (SourceIn named)) (mode : Mode)
    (quiet : Nat) (s : σ) {ts : List (Turn σ)} (h : Proper named text? ts) :
    Good x text? named mode quiet
      ((fresh (.new x.root mode.git mode.vscode quiet) s).turns x ts)
      ((fresh (.new x.root mode.git mode.vscode quiet) s).madeIn x ts) := by
  induction ts using List.reverseRecOn with
  | nil => exact good_fresh x text? named mode quiet s
  | append_singleton ts t ih =>
    have hgood := ih h.left
    rw [turns_concat, madeIn_concat]
    cases t with
    | call c =>
      exact hgood.call hx alike (h.initial (.call c) (by simp)) (h.paths (.call c) (by simp))
    | outside change =>
      rw [madeInTurn, List.append_nil]
      exact hgood.outside (h.outside change (by simp))

/-! ## One source under two spellings -/

section Respelled

/-- A project whose root is that of the file system, compiled to the text it has. -/
def copying (kind : OutputKind) : Executor Memory :=
  .inMemory ⟨['/']⟩ kind fun text _ => text

/-- Its files are exact. -/
theorem exact_copying (kind : OutputKind) : (copying kind).Exact fun p m => m.lookup? p :=
  .of_pure Memory.exact _ _ _

/-- A source that is there is copied. -/
theorem build_copying (kind : OutputKind) {source : Path} {text : String} (m : Memory)
    (h : m.faults = []) (htext : m.lookup? (Path.join ⟨['/']⟩ source) = some text) :
    (copying kind).compiled? source m = some text ∧
      (copying kind).build source m = (.ok (output source kind),
        m.put (Path.join ⟨['/']⟩ (output source kind)) (withHeader source text)) := by
  refine ⟨?_, build_inMemory ⟨['/']⟩ kind (fun text _ => text) h htext⟩
  simp [Executor.compiled?, copying, Executor.inMemory, Memory.read_eq h, htext, Compiler.pure]

/-- A session that is started with one source which is built. -/
theorem start_singleton {x : Executor σ} {r : Run σ} {source output : Path} {s : σ}
    (hidle : r.session.phase = .idle) (hb : x.build source r.world = (.ok output, s)) (now : Nat) :
    (r.start x [source] now).session.sources = r.session.sources.insert source ∧
      (r.start x [source] now).session.outputs = r.session.outputs.insert output ∧
      (r.start x [source] now).session.phase = .watching ∧
      (r.start x [source] now).world = s := by
  simp only [start, hidle, ne_eq, not_true_eq_false, if_false, buildAll, Run.build, hb]
  exact ⟨rfl, rfl, rfl, rfl⟩

/-- A change of a tracked source that is built. -/
theorem outcome_of_change {x : Executor σ} {r : Run σ} {source output : Path} {s : σ} (now : Nat)
    (watching : r.session.phase = .watching) (hs : isSource source = true)
    (tracked : r.session.sources.contains source = true)
    (hb : x.build source r.world = (.ok output, s)) :
    (r.handle x ⟨.change, source⟩ now).1 = .built := by
  simp only [handle, watching, ne_eq, not_true_eq_false, if_false, hs, tracked, Bool.and_self,
    if_true, onChange, Run.build, hb]
  split <;> rfl

/-- The session is started with a source, the source is edited, and the session is told so under
another spelling. -/
def respelled (p q : Path) : List (Turn Memory) :=
  [.call (.start [p] 0), .outside fun m => m.put (Path.join ⟨['/']⟩ p) "b",
    .call (.handle ⟨.change, q⟩ 0)]

/-- Before that the source holds another text. -/
def unedited (p : Path) : Memory :=
  Memory.empty.put (Path.join ⟨['/']⟩ p) "a"

variable {kind : OutputKind} {named : Path → Prop} {p q : Path}

/-- Only the source is edited from outside. -/
theorem proper_respelled (hp : SourceIn named p) (hq : SourceIn named q) :
    Proper named (fun p (m : Memory) => m.lookup? p) (respelled p q) where
  initial := by simp [respelled, Turn.initial, SessionCall.initial, hp]
  paths := by simp [respelled, Turn.paths, SessionCall.paths, hp, hq]
  outside := by
    intro change hchange m o ho
    have hchange : change = fun m => m.put (Path.join ⟨['/']⟩ p) "b" := by
      simpa [respelled] using hchange
    rw [hchange]
    refine Memory.lookup_put_of_ne m ?_ "b"
    by_contra hsame
    rw [Bool.not_eq_false] at hsame
    obtain ⟨stem, -, hlast⟩ := getLast_source hp.source
    rw [← isSource_eq_of_same hsame, isSource_join hlast (by simp), hp.source] at ho
    cases ho

/-- In the end the first output is listed, the last build is that of the edited text, and the file of
the first output holds the text before the edit, unless it is that of the second one. -/
theorem turns_respelled (kind : OutputKind) (hp : SourceIn named p) (hq : SourceIn named q)
    (hpq : p.same q = true) :
    let r := (fresh (.new ⟨['/']⟩ false false 0) (unedited p)).turns (copying kind) (respelled p q)
    r.session.outputs.contains (output p kind) = true ∧
      lastMade p ((fresh (.new ⟨['/']⟩ false false 0) (unedited p)).madeIn (copying kind)
        (respelled p q)) = some "b" ∧
      ((output p kind).same (output q kind) = false →
        r.world.lookup? (Path.join ⟨['/']⟩ (output p kind)) = some (withHeader p "a")) := by
  intro r
  have hplace : (Path.join ⟨['/']⟩ p).same (Path.join ⟨['/']⟩ q) = true :=
    (hp.same_join hq.plain _).trans hpq
  -- the session when it has started
  obtain ⟨hcompiled, hbuild⟩ := build_copying kind (unedited p) rfl (Memory.lookup_put ..)
  generalize hstarted : (fresh (.new ⟨['/']⟩ false false 0) (unedited p)).start (copying kind) [p] 0 =
    started
  obtain ⟨hsources, houtputs, hphase, hworld⟩ :=
    start_singleton (r := fresh (.new ⟨['/']⟩ false false 0) (unedited p)) rfl hbuild 0
  rw [hstarted] at hsources houtputs hphase hworld
  -- the session when the source is edited
  generalize hedited : ({ started with world := started.world.put (Path.join ⟨['/']⟩ p) "b" } :
    Run Memory) = edited
  have htext : edited.world.lookup? (Path.join ⟨['/']⟩ q) = some "b" := by
    rw [← Memory.lookup_congr _ hplace, ← hedited]
    exact Memory.lookup_put ..
  have hfaults : edited.world.faults = [] := by
    rw [← hedited, hworld]
    rfl
  have htracked : edited.session.sources.contains q = true := by
    rw [← hedited]
    exact hsources ▸ PathSet.contains_insert.mpr (.inl hpq)
  have hwatching : edited.session.phase = .watching := by rw [← hedited]; exact hphase
  obtain ⟨hcompiled', hbuild'⟩ := build_copying kind edited.world hfaults htext
  have houtcome : (edited.handle (copying kind) ⟨.change, q⟩ 0).1 = .built :=
    outcome_of_change 0 hwatching hq.source htracked hbuild'
  obtain ⟨-, houtputs', hworld'⟩ := handle_present ⟨['/']⟩ kind (fun text _ => text) hfaults
    hwatching 0 hq.source htext (.inr ⟨rfl, htracked⟩)
  have hr : r = (edited.handle (copying kind) ⟨.change, q⟩ 0).2 := by
    rw [← hedited, ← hstarted]
    rfl
  refine ⟨?_, ?_, fun hne => ?_⟩
  · rw [hr, copying, houtputs', PathSet.contains_insert, ← hedited]
    right
    exact houtputs ▸ PathSet.contains_insert.mpr (.inl (same_refl _))
  · have hlast : edited.madeBy (copying kind) (.handle ⟨.change, q⟩ 0) = [(q, "b")] := by
      simp [madeBy, houtcome, hcompiled']
    have hmade : (fresh (.new ⟨['/']⟩ false false 0) (unedited p)).madeIn (copying kind)
        (respelled p q) = (fresh (.new ⟨['/']⟩ false false 0) (unedited p)).madeIn (copying kind)
          [.call (.start [p] 0), .outside fun m => m.put (Path.join ⟨['/']⟩ p) "b"] ++
            edited.madeBy (copying kind) (.handle ⟨.change, q⟩ 0) := by
      rw [← hedited, ← hstarted]
      exact madeIn_concat (copying kind) _ [_, _] _
    rw [hmade, lastMade_append, hlast, lastMade_singleton, if_pos (by rwa [same_comm])]
    rfl
  · have hne' : (Path.join ⟨['/']⟩ (output q kind)).same (Path.join ⟨['/']⟩ (output p kind)) =
        false := by
      rw [same_comm, Path.same_join (isInner_output hp.plain hp.source kind)
        (isInner_output hq.plain hq.source kind), hne]
    have hsource : (Path.join ⟨['/']⟩ p).same (Path.join ⟨['/']⟩ (output p kind)) = false := by
      rw [same_comm]
      exact join_output_ne_join hp.source hp.source kind _
    rw [hr, copying, hworld', Memory.lookup_put_of_ne _ hne', ← hedited,
      Memory.lookup_put_of_ne _ hsource, hworld]
    exact Memory.lookup_put ..

end Respelled

/-- In all runs whose sources belong to a class, the file of every listed output holds the text that
the last build of its source made, and no call touches the output of a source that it neither builds
nor drops, exactly when the sources of the class are spelled alike. -/
theorem lastGood_iff_spelledAlike (kind : OutputKind) (named : Path → Prop) :
    (∀ (σ : Type) (x : Executor σ) (text? : Path → σ → Option String) (mode : Mode) (quiet : Nat)
      (s : σ) (ts : List (Turn σ)), x.kind = kind → x.Exact text? → Proper named text? ts →
      LastGood x text? named ((fresh (.new x.root mode.git mode.vscode quiet) s).turns x ts)
          ((fresh (.new x.root mode.git mode.vscode quiet) s).madeIn x ts) ∧
        ∀ before c after, ts = before ++ .call c :: after → Spared x text? named
          ((fresh (.new x.root mode.git mode.vscode quiet) s).turns x before) c) ↔
    SpelledAlike (SourceIn named) := by
  constructor
  · intro h p q hp hq hs hpq
    obtain ⟨hlisted, hlast, htext⟩ := turns_respelled kind hp hq hpq
    have hsame : (output p kind).same (output q kind) = true := by
      by_contra hne
      rw [Bool.not_eq_true] at hne
      -- the file of the first output should hold the edited text
      obtain ⟨compiled, hlast', htext'⟩ := (h Memory (copying kind) (fun p m => m.lookup? p)
        ⟨kind, false, false⟩ 0 (unedited p) (respelled p q) rfl (exact_copying kind)
        (proper_respelled hp hq)).1 p hp hlisted
      have hcompiled : compiled = "b" := Option.some.inj (hlast'.symm.trans hlast)
      have hheld := Option.some.inj ((htext hne).symm.trans htext')
      exact absurd ((withHeader_inj hheld).trans hcompiled) (by decide)
    exact (output_same_iff hs hpq).mp hsame
  · rintro alike σ x text? mode quiet s ts - hx hproper
    refine ⟨(good_turns hx alike mode quiet s hproper).outputs, ?_⟩
    rintro before c after rfl
    refine (good_turns hx alike mode quiet s hproper.left).spared hx alike ?_ ?_
    · exact hproper.initial (.call c) (by simp)
    · exact hproper.paths (.call c) (by simp)

/-- A source is built under two spellings of the name `..civet`: its first output is listed, but does
not hold what the last build made of it. -/
theorem not_lastGood_dotName :
    ¬LastGood (copying .ts) (fun p m => m.lookup? p) (fun _ => True)
      ((fresh (.new ⟨['/']⟩ false false 0) (unedited (.ofString "..civet/"))).turns (copying .ts)
        (respelled (.ofString "..civet/") (.ofString "..civet")))
      ((fresh (.new ⟨['/']⟩ false false 0) (unedited (.ofString "..civet/"))).madeIn (copying .ts)
        (respelled (.ofString "..civet/") (.ofString "..civet"))) := by
  intro h
  have hin (p : Path) (hp : p.components = [.name dotName]) : SourceIn (fun _ => True) p :=
    ⟨trivial, ⟨[dotName], hp⟩, by simp [isSource, extension?, fileName?, hp]; decide⟩
  have hp := hin (.ofString "..civet/") (by decide)
  obtain ⟨hlisted, hlast, htext⟩ := turns_respelled .ts hp (hin (.ofString "..civet") (by decide))
    (by decide)
  obtain ⟨compiled, hlast', htext'⟩ := h (.ofString "..civet/") hp hlisted
  have hcompiled : compiled = "b" := Option.some.inj (hlast'.symm.trans hlast)
  have hheld := Option.some.inj ((htext (by decide)).symm.trans htext')
  exact absurd ((withHeader_inj hheld).trans hcompiled) (by decide)

end Run

end ArtifactSync
