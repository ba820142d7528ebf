import ArtifactSync.Proofs.Watch.Frame

/-!
# Echoes

A watcher reports what the session does to files back to it. Nothing that a session writes or
removes is a source (`sparesSources_turns`), and a change of what is no source is ignored as long
as no tracked source lies below it (`handle_of_not_isSource`). So such an echo (`IsEcho`) leaves the
run as it is, and echoes may be put into any row of turns or taken out of it (`Echoing`): the same is
done with them and without them. A session never keeps itself going.
-/

namespace ArtifactSync

open Path Artifact

variable {σ : Type}

/-- A path, as it is or as seen from the root, is that of a file. -/
def Path.LeadsTo (root p file : Path) : Prop :=
  p.same file = true ∨ (root.join p).same file = true

/-- What leads to a file that is no source is none itself. -/
theorem isSource_of_leadsTo {root p file : Path} (h : root.LeadsTo p file)
    (hfile : isSource file = false) : isSource p = false := by
  rcases h with hsame | hsame
  · rw [isSource_eq_of_same hsame, hfile]
  · -- a source would end in the same name behind the root
    by_contra hs
    rw [Bool.not_eq_false] at hs
    obtain ⟨stem, -, hlast⟩ := getLast_source hs
    have hjoin : isSource (root.join p) = true := by rw [isSource_join hlast (by simp), hs]
    rw [isSource_eq_of_same hsame, hfile] at hjoin
    cases hjoin

namespace Run

/-- A change that tells a session of a file that it has written or removed itself. If the file is
said to be gone, no tracked source lies below its path. -/
structure IsEcho (x : Executor σ) (r : Run (Logged σ)) (c : Change) : Prop where
  touched : ∃ e ∈ r.world.calls, ∃ file, e.call.target? = some file ∧ x.root.LeadsTo c.path file
  alone : c.kind = .unlink → r.below c.path = []

/-- A change of what is no source is ignored, unless it says that something is gone which tracked
sources lay below. -/
theorem handle_of_not_isSource {x : Executor σ} {r : Run σ} {c : Change} (now : Nat)
    (hsources : ∀ p ∈ r.session.sources.paths, isSource p = true) (hc : isSource c.path = false)
    (halone : c.kind = .unlink → r.below c.path = []) : r.handle x c now = (.ignored, r) := by
  have huntracked : r.session.sources.contains c.path = false := by
    refine PathSet.contains_eq_false_iff.mpr fun p hp => ?_
    by_contra hsame
    rw [Bool.not_eq_false] at hsame
    rw [← isSource_eq_of_same hsame, hsources p hp] at hc
    cases hc
  unfold handle
  simp only [huntracked, hc]
  split
  · rfl
  · cases hkind : c.kind with
    | unlink =>
      have hbelow : (if c.path.chars = [] then []
          else r.session.sources.paths.filter (·.startsWith c.path)) = [] := by
        split
        · rfl
        · exact halone hkind
      simp [onUnlinkTree, hbelow]
    | add => rfl
    | change => rfl

/-! ## What a session leaves alone -/

/-- No recorded call has written or removed a source. -/
def SparesSources (s : Logged σ) : Prop :=
  ∀ e ∈ s.calls, ∀ file, e.call.target? = some file → isSource file = false

section Recorded

variable {x : Executor σ} {mode : Mode} {quiet : Nat}

/-- A turn of a regular session writes and removes no source. -/
theorem sparesSources_turn {r : Run (Logged σ)} {t : Turn σ}
    (hinitial : ∀ p ∈ t.initial, isSource p = true) (hr : Regular x.root mode quiet r)
    (h : SparesSources r.world) : SparesSources (r.turn x.logged t.logged).world := by
  cases t with
  | outside change => exact h
  | call c =>
    obtain ⟨new, hnew⟩ : ∃ new, Framed x mode r c new := framed_call hinitial hr
    intro e he
    have he : e ∈ (r.call x.logged c).world.calls := he
    rw [hnew.did.calls] at he
    rcases List.mem_append.mp he with he | he
    · exact h e he
    · exact hnew.spared e he

/-- A turn leaves a session regular. -/
theorem regular_turn {r : Run (Logged σ)} {t : Turn σ}
    (hinitial : ∀ p ∈ t.initial, isSource p = true) (hr : Regular x.root mode quiet r) :
    Regular x.root mode quiet (r.turn x.logged t.logged) := by
  have hone : ∀ u ∈ [t.logged], ∀ p ∈ u.initial, isSource p = true := by
    simpa [initial_logged] using hinitial
  exact regular_turns hone hr

/-- The turns of a session write and remove no source. -/
theorem sparesSources_turns {ts : List (Turn σ)}
    (hinitial : ∀ t ∈ ts, ∀ p ∈ t.initial, isSource p = true) {r : Run (Logged σ)}
    (hr : Regular x.root mode quiet r) (h : SparesSources r.world) :
    SparesSources (r.turns x.logged (ts.map Turn.logged)).world := by
  induction ts generalizing r with
  | nil => exact h
  | cons t ts ih =>
    have ht := hinitial t (List.mem_cons_self ..)
    exact ih (fun u hu => hinitial u (List.mem_cons_of_mem t hu)) (regular_turn ht hr)
      (sparesSources_turn ht hr h)

/-- An echo leaves a session as it is that tracks nothing but sources and has spared them. -/
theorem handle_of_isEcho {r : Run (Logged σ)} {c : Change} (now : Nat)
    (hr : Regular x.root mode quiet r) (hspares : SparesSources r.world) (h : IsEcho x r c) :
    r.handle x.logged c now = (.ignored, r) := by
  obtain ⟨e, he, file, htarget, hleads⟩ := h.touched
  exact handle_of_not_isSource now hr.sources
    (isSource_of_leadsTo hleads (hspares e he file htarget)) h.alone

end Recorded

/-! ## Runs with echoes in them -/

/-- From a run on, the turns in `full` are those in `plain` with echoes between them: each of what the
session has written or removed by then. -/
inductive Echoing (x : Executor σ) : Run (Logged σ) → List (Turn σ) → List (Turn σ) → Prop
  | done (r : Run (Logged σ)) : Echoing x r [] []
  | turn {r : Run (Logged σ)} (t : Turn σ) {full plain : List (Turn σ)}
    (rest : Echoing x (r.turn x.logged t.logged) full plain) :
    Echoing x r (t :: full) (t :: plain)
  | echo {r : Run (Logged σ)} {c : Change} (h : IsEcho x r c) (now : Nat)
    {full plain : List (Turn σ)} (rest : Echoing x (r.call x.logged (.handle c now)) full plain) :
    Echoing x r (.call (.handle c now) :: full) plain

/-- Turns come to the same with echoes and without them. -/
theorem turns_of_echoing {x : Executor σ} {mode : Mode} {quiet : Nat} {r : Run (Logged σ)}
    {full plain : List (Turn σ)} (h : Echoing x r full plain)
    (hinitial : ∀ t ∈ plain, ∀ p ∈ t.initial, isSource p = true)
    (hr : Regular x.root mode quiet r) (hspares : SparesSources r.world) :
    r.turns x.logged (full.map Turn.logged) = r.turns x.logged (plain.map Turn.logged) := by
  induction h with
  | done r => rfl
  | turn t rest ih =>
    have ht := hinitial t (List.mem_cons_self ..)
    exact ih (fun u hu => hinitial u (List.mem_cons_of_mem t hu)) (regular_turn ht hr)
      (sparesSources_turn ht hr hspares)
  | @echo r c h now full plain rest ih =>
    have hself : r.call x.logged (.handle c now) = r :=
      congrArg Prod.snd (handle_of_isEcho now hr hspares h)
    rw [hself] at ih
    have hfirst : r.turns x.logged ((Turn.call (.handle c now) :: full).map Turn.logged) =
        (r.call x.logged (.handle c now)).turns x.logged (full.map Turn.logged) := rfl
    rw [hfirst, hself, ih hinitial hr hspares]

/-- A session ignores every change of what it has written or removed by then, and is left as it is:
no build, no call on files, no request, no report. So a run with any echoes between its turns comes
to the same as without them, with the same calls on files. -/
theorem ignores_echoes (x : Executor σ) (mode : Mode) (quiet : Nat) (s : σ) (ts : List (Turn σ))
    (hinitial : ∀ t ∈ ts, ∀ p ∈ t.initial, isSource p = true) :
    (∀ c now, IsEcho x (recorded x mode quiet s ts) c →
      (recorded x mode quiet s ts).handle x.logged c now =
        (.ignored, recorded x mode quiet s ts)) ∧
    ∀ full, Echoing x (fresh (.new x.root mode.git mode.vscode quiet) ⟨s, []⟩) full ts →
      recorded x mode quiet s full = recorded x mode quiet s ts := by
  have hfresh : Regular x.root mode quiet
      (fresh (.new x.root mode.git mode.vscode quiet) (⟨s, []⟩ : Logged σ)) :=
    regular_fresh x.root mode quiet _
  have hnone : SparesSources (⟨s, []⟩ : Logged σ) := fun e he => by cases he
  constructor
  · intro c now hecho
    exact handle_of_isEcho now (regular_recorded hinitial)
      (sparesSources_turns hinitial hfresh hnone) hecho
  · intro full hechoing
    exact turns_of_echoing hechoing hinitial hfresh hnone

/-- A session builds a source and writes the ignore list. The watcher reports both files back, the
output as changed and the list as new. -/
theorem ignores_echoes_output :
    let x : Executor Memory := ⟨⟨['/']⟩, .ts, Memory.fileSystem, .pure fun text _ => .ok text⟩
    let mode : Mode := ⟨.ts, true, false⟩
    let s : Memory := ⟨[(.ofString "/a.civet", "x")], []⟩
    let start : Turn Memory := .call (.start [.ofString "a.civet"] 0)
    let tick : Turn Memory := .call (.tick 2)
    let full := [start, .call (.handle ⟨.change, .ofString "a.ts"⟩ 1), tick,
      .call (.handle ⟨.add, .ofString ".gitignore"⟩ 3)]
    (∀ t ∈ [start, tick], ∀ p ∈ t.initial, isSource p = true) ∧
      Echoing x (fresh (.new x.root mode.git mode.vscode 0) ⟨s, []⟩) full [start, tick] ∧
      recorded x mode 0 s full = recorded x mode 0 s [start, tick] := by
  intro x mode s start tick full
  have hinitial : ∀ t ∈ [start, tick], ∀ p ∈ t.initial, isSource p = true := by
    simp only [List.forall_mem_cons]
    refine ⟨?_, by simp [tick, Turn.initial, SessionCall.initial], by simp⟩
    rw [Turn.initial, SessionCall.initial, List.forall_mem_singleton]
    decide
  have hechoing : Echoing x (fresh (.new x.root mode.git mode.vscode 0) ⟨s, []⟩) full
      [start, tick] := by
    -- the calls are a reading and a writing of the build, and three of the update
    have houtput : IsEcho x ((fresh (.new x.root mode.git mode.vscode 0) ⟨s, []⟩).turn x.logged
        start.logged) ⟨.change, .ofString "a.ts"⟩ :=
      ⟨⟨_, .tail _ (.head _), _, rfl, .inr (by decide)⟩, fun h => by cases h⟩
    have hlist : IsEcho x ((fresh (.new x.root mode.git mode.vscode 0) ⟨s, []⟩).turns x.logged
        [start.logged, tick.logged]) ⟨.add, .ofString ".gitignore"⟩ :=
      ⟨⟨_, .tail _ (.tail _ (.tail _ (.tail _ (.head _)))), _, rfl, .inr (by decide)⟩,
        fun h => by cases h⟩
    exact .turn _ (.echo houtput 1 (.turn _ (.echo hlist 3 (.done _))))
  exact ⟨hinitial, hechoing, (ignores_echoes x mode 0 s _ hinitial).2 full hechoing⟩

end Run

end ArtifactSync
