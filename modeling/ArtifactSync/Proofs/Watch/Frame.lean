import ArtifactSync.Proofs.Path.Inner
import ArtifactSync.Proofs.Watch.Log

/-!
# The frame of a session

Whatever a session is told and whatever fails, each of its calls changes nothing but the outputs of
the sources it builds, the outputs of tracked sources it drops, and the side files that are switched
on (`Framed`). No source is ever written or removed, and all other files hold what they held.
-/

namespace ArtifactSync

open Path Artifact

variable {σ : Type}

/-- What a permitted call writes or removes is no source. -/
theorem Permitted.isSource_target {x : Executor σ} {told built : List Path} {tracked : PathSet}
    {rewritten : Path → Prop} (hrewritten : ∀ p, rewritten p → isSource p = false)
    {e : LoggedCall} (he : Permitted x told built tracked rewritten e) {p : Path}
    (hp : e.call.target? = some p) : isSource p = false := by
  obtain ⟨call, done⟩ := e
  cases call with
  | read q => cases hp
  | write q text =>
    cases hp
    rcases he with ⟨s, -, hs, rfl, -⟩ | he
    · exact isSource_join_output hs x.kind x.root
    · exact hrewritten p he
  | remove q =>
    cases hp
    obtain ⟨s, hs, -, rfl⟩ := he
    exact isSource_join_output hs x.kind x.root
  | createDirs q => cases hp

/-- The same turn in a world that records the calls on files: what happens outside is no call. -/
def Turn.logged : Turn σ → Turn (Logged σ)
  | call c => .call c
  | outside change => .outside fun s => ⟨change s.world, s.calls⟩

namespace Run

/-- What a call on a session has done to files, given the calls on files that were recorded. -/
structure Framed (x : Executor σ) (mode : Mode) (r : Run (Logged σ)) (c : SessionCall)
    (new : List LoggedCall) : Prop where
  /-- These calls were made, and files that none of them changed hold what they held. -/
  did : x.Did new r.world (r.call x.logged c).world
  /-- A file that is written is the output of a source that the session is told of, and builds if the
  writing succeeds, or a side file that is switched on. A file that is removed is the output of a
  source that was tracked. -/
  permitted : ∀ e ∈ new, Permitted x c.paths (r.builtBy x.logged c) r.session.sources
    (fun p => ∃ k : SideFileKind, mode.keeps k = true ∧ p = k.pathIn x.root) e
  /-- No source is written or removed. -/
  spared : ∀ e ∈ new, ∀ p, e.call.target? = some p → isSource p = false

section Regular

variable {x : Executor σ} {root : Path} {mode : Mode} {quiet : Nat}

/-- A session that tracks nothing but sources, with the side files as the mode has them. -/
structure Regular (root : Path) (mode : Mode) (quiet : Nat) (r : Run σ) : Prop where
  sources : ∀ p ∈ r.session.sources.paths, isSource p = true
  ready : Ready root mode quiet r.session.sideFiles ([] : List (Rewrite σ))

/-- A new session is regular. -/
theorem regular_fresh (root : Path) (mode : Mode) (quiet : Nat) (s : σ) :
    Regular root mode quiet (fresh (.new root mode.git mode.vscode quiet) s) :=
  ⟨by simp [fresh, Session.new, PathSet.empty], ready_new root mode quiet⟩

/-- Every call leaves a session regular. -/
theorem regular_call {r : Run σ} {c : SessionCall} (hinitial : ∀ p ∈ c.initial, isSource p = true)
    (h : Regular root mode quiet r) : Regular root mode quiet (r.call x c) where
  sources := sources_call hinitial (fun _ _ hs => hs) h.sources
  ready :=
    have hready := ready_call (x := x) c h.ready
    ⟨hready.isOf, hready.idle, by simp⟩

/-- Turns leave a session regular, whatever happens outside. -/
theorem regular_turns {r : Run σ} {ts : List (Turn σ)}
    (hinitial : ∀ t ∈ ts, ∀ p ∈ t.initial, isSource p = true)
    (h : Regular root mode quiet r) : Regular root mode quiet (r.turns x ts) := by
  induction ts generalizing r with
  | nil => exact h
  | cons t ts ih =>
    refine ih (fun u hu => hinitial u (List.mem_cons_of_mem t hu)) ?_
    cases t with
    | call c => exact regular_call (hinitial _ (List.mem_cons_self ..)) h
    | outside change => exact ⟨h.sources, h.ready⟩

/-- A call on a regular session is framed. -/
theorem framed_call {r : Run (Logged σ)} {c : SessionCall}
    (hinitial : ∀ p ∈ c.initial, isSource p = true) (h : Regular x.root mode quiet r) :
    ∃ new, Framed x mode r c new := by
  have hrewritten : ∀ a ∈ r.rewritesBy x.logged c,
      ∃ k : SideFileKind, mode.keeps k = true ∧ a.file.path = k.pathIn x.root := by
    intro a ha
    obtain ⟨hisOf, hkeeps⟩ := (ready_call (x := x.logged) c h.ready).attempted a ha
    exact ⟨a.file.kind, hkeeps, hisOf.path⟩
  obtain ⟨new, hdid, hnew⟩ : x.Does (Permitted x c.paths (r.builtBy x.logged c) r.session.sources
      fun p => ∃ k : SideFileKind, mode.keeps k = true ∧ p = k.pathIn x.root)
      r.world (r.call x.logged c).world := does_call hinitial h.sources hrewritten
  refine ⟨new, hdid, hnew, fun e he p hp => (hnew e he).isSource_target ?_ hp⟩
  rintro q ⟨k, -, rfl⟩
  exact isSource_pathIn k x.root

end Regular

/-- A session from its beginning through some turns, in a world that records its calls on files. -/
def recorded (x : Executor σ) (mode : Mode) (quiet : Nat) (s : σ) (ts : List (Turn σ)) :
    Run (Logged σ) :=
  (fresh (.new x.root mode.git mode.vscode quiet) ⟨s, []⟩).turns x.logged (ts.map Turn.logged)

/-- The last turn of a recorded session comes after the others. -/
theorem recorded_concat (x : Executor σ) (mode : Mode) (quiet : Nat) (s : σ) (ts : List (Turn σ))
    (t : Turn σ) : recorded x mode quiet s (ts ++ [t]) =
      (recorded x mode quiet s ts).turn x.logged t.logged := by
  rw [recorded, List.map_append]
  exact turns_concat ..

/-- Recording changes nothing about who starts with what. -/
theorem initial_logged (t : Turn σ) : t.logged.initial = t.initial := by
  cases t <;> rfl

/-- A recorded session is regular. -/
theorem regular_recorded {x : Executor σ} {mode : Mode} {quiet : Nat} {s : σ} {ts : List (Turn σ)}
    (hinitial : ∀ t ∈ ts, ∀ p ∈ t.initial, isSource p = true) :
    Regular x.root mode quiet (recorded x mode quiet s ts) := by
  refine regular_turns ?_ (regular_fresh x.root mode quiet _)
  rw [List.forall_mem_map]
  intro t ht p hp
  exact hinitial t ht p (by rwa [initial_logged] at hp)

/-- In every run, whatever happens outside, each call changes nothing but the outputs of the sources
it builds and of tracked sources, and the side files that are switched on. No source is ever written
or removed. A file that is never changed, neither by a call nor from outside, holds in the end what
it held at first. -/
theorem framed_turns (x : Executor σ) (mode : Mode) (quiet : Nat) (s : σ) (ts : List (Turn σ))
    (hinitial : ∀ t ∈ ts, ∀ p ∈ t.initial, isSource p = true) :
    (∀ before c after, ts = before ++ .call c :: after →
        ∃ new, Framed x mode (recorded x mode quiet s before) c new) ∧
      ∀ text?, x.Confined text? → ∀ p,
        (∀ change, .outside change ∈ ts → ∀ s, text? p (change s) = text? p s) →
        (∀ e ∈ (recorded x mode quiet s ts).world.calls, ¬e.Changed p) →
        text? p (recorded x mode quiet s ts).world.world = text? p s := by
  refine ⟨?_, fun text? hx p houtside hcalls => ?_⟩
  · rintro before c after rfl
    refine framed_call (hinitial (.call c) (by simp)) (regular_recorded fun t ht => ?_)
    exact hinitial t (by simp [ht])
  · induction ts using List.reverseRecOn with
    | nil => rfl
    | append_singleton ts t ih =>
      have hbefore := fun u hu => hinitial u (List.mem_append_left [t] hu)
      have ih := ih hbefore fun change hchange => houtside change (List.mem_append_left [t] hchange)
      rw [recorded_concat] at hcalls ⊢
      cases t with
      | call c =>
        obtain ⟨new, hframed⟩ : ∃ new, Framed x mode (recorded x mode quiet s ts) c new :=
          framed_call (hinitial (.call c) (by simp)) (regular_recorded hbefore)
        simp only [turn, Turn.logged, hframed.did.calls, List.mem_append] at hcalls ⊢
        rw [hframed.did.kept text? hx p fun e he => hcalls e (.inr he)]
        exact ih fun e he => hcalls e (.inl he)
      | outside change =>
        exact (houtside change (by simp) _).trans (ih hcalls)

/-- A source is built and removed while someone edits it. The removal is framed, and another file is
never changed. -/
theorem framed_turns_unlink :
    let x : Executor Memory := ⟨⟨['/']⟩, .ts, Memory.fileSystem, .pure fun text _ => .ok text⟩
    let source : Path := .ofString "a.civet"
    let note : Path := .ofString "/note"
    let s : Memory := ⟨[(.ofString "/a.civet", "x"), (note, "y")], []⟩
    let before : List (Turn Memory) :=
      [.call (.start [source] 0), .outside fun m => m.delete (.ofString "/a.civet")]
    (∀ t ∈ before ++ [.call (.handle ⟨.unlink, source⟩ 1)], ∀ p ∈ t.initial, isSource p = true) ∧
      (∃ new, Framed x ⟨.ts, false, false⟩ (recorded x ⟨.ts, false, false⟩ 0 s before)
        (.handle ⟨.unlink, source⟩ 1) new) ∧
      (recorded x ⟨.ts, false, false⟩ 0 s
        (before ++ [.call (.handle ⟨.unlink, source⟩ 1)])).world.world.lookup? note = some "y" := by
  intro x source note s before
  have hinitial : ∀ t ∈ before ++ [.call (.handle ⟨.unlink, source⟩ 1)],
      ∀ p ∈ t.initial, isSource p = true := by
    simp only [before, List.cons_append, List.nil_append, List.forall_mem_cons]
    refine ⟨?_, by simp [Turn.initial], by simp [Turn.initial, SessionCall.initial], by simp⟩
    rw [Turn.initial, SessionCall.initial, List.forall_mem_singleton]
    decide
  obtain ⟨hframed, hkept⟩ := framed_turns x ⟨.ts, false, false⟩ 0 s _ hinitial
  refine ⟨hinitial, hframed before _ [] rfl, ?_⟩
  refine (hkept _ (Executor.Exact.of_pure Memory.exact _ _ _).confined note ?_ ?_).trans rfl
  · intro change hchange m
    have hchange : change = fun m => m.delete (.ofString "/a.civet") := by simpa [before] using hchange
    rw [hchange]
    exact m.lookup_delete_of_ne (by decide)
  · decide

end Run

end ArtifactSync
