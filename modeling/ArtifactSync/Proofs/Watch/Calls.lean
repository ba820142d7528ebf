import ArtifactSync.Proofs.Path.Set
import ArtifactSync.Watch.Session
import Mathlib.Tactic.Common

/-!
# Calls on a session

A session is driven by calls (`SessionCall`), and a run of calls takes one `Run` to another. A
change that is handled does one of seven things, which `Handled` lists with the states they end in,
and `handled` shows that there are no others. Every later proof about changes goes by these cases.
-/

namespace ArtifactSync

/-- One call on a session. -/
inductive SessionCall where
  | start (sources : List Path) (now : Nat)
  | handle (change : Change) (now : Nat)
  | tick (now : Nat)
  | close

/-- The paths that a call names. -/
def SessionCall.paths : SessionCall → List Path
  | start sources _ => sources
  | handle change _ => [change.path]
  | tick _ => []
  | close => []

/-- The sources that a call would start a session with. -/
def SessionCall.initial : SessionCall → List Path
  | start sources _ => sources
  | _ => []

/-- A build that succeeds gives the output of its source. -/
theorem Executor.build_ok {σ : Type} {x : Executor σ} {source output : Path} {s s' : σ}
    (h : x.build source s = (.ok output, s')) : output = x.outputFor source := by
  unfold Executor.build at h
  split at h
  · cases h
  · split at h
    · cases h
    · simp only at h
      split at h
      · cases h
      · cases h
        rfl

namespace Run

variable {σ : Type}

/-- A run whose session has not started. -/
def fresh (sideFiles : SideFiles) (s : σ) : Run σ :=
  ⟨.new sideFiles, s, []⟩

/-- What a call makes of a run. -/
def call (x : Executor σ) (r : Run σ) : SessionCall → Run σ
  | .start sources now => r.start x sources now
  | .handle change now => (r.handle x change now).2
  | .tick now => r.tick x now
  | .close => r.close x

/-- What calls make of a run, one after another. -/
def calls (x : Executor σ) (r : Run σ) (cs : List SessionCall) : Run σ :=
  cs.foldl (call x) r

/-- The last of several calls comes after the others. -/
theorem calls_concat (x : Executor σ) (r : Run σ) (cs : List SessionCall) (c : SessionCall) :
    r.calls x (cs ++ [c]) = (r.calls x cs).call x c := by
  simp [calls]

end Run

/-- What happens next to a run: a call on the session, or something that changes the world from
outside. -/
inductive Turn (σ : Type) where
  | call (c : SessionCall)
  | outside (change : σ → σ)

/-- The paths that a turn names. -/
def Turn.paths {σ : Type} : Turn σ → List Path
  | call c => c.paths
  | outside _ => []

/-- The sources that a turn would start a session with. -/
def Turn.initial {σ : Type} : Turn σ → List Path
  | call c => c.initial
  | outside _ => []

namespace Run

variable {σ : Type}

/-- What a turn makes of a run. -/
def turn (x : Executor σ) (r : Run σ) : Turn σ → Run σ
  | .call c => r.call x c
  | .outside change => { r with world := change r.world }

/-- What turns make of a run, one after another. -/
def turns (x : Executor σ) (r : Run σ) (ts : List (Turn σ)) : Run σ :=
  ts.foldl (turn x) r

/-- The last of several turns comes after the others. -/
theorem turns_concat (x : Executor σ) (r : Run σ) (ts : List (Turn σ)) (t : Turn σ) :
    r.turns x (ts ++ [t]) = (r.turns x ts).turn x t := by
  simp [turns]

/-! ## The two sets -/

section Sets

variable (r : Run σ) (p : Path) (now : Nat)

/-- Asking for an update leaves the sources alone. -/
@[simp] theorem requestSync_sources :
    (r.requestSync now).session.sources = r.session.sources := rfl

/-- Asking for an update leaves the outputs alone. -/
@[simp] theorem requestSync_outputs :
    (r.requestSync now).session.outputs = r.session.outputs := rfl

/-- Listing an output leaves the sources alone. -/
@[simp] theorem list_sources : (r.list p).session.sources = r.session.sources := rfl

/-- Listing an output. -/
@[simp] theorem list_outputs : (r.list p).session.outputs = r.session.outputs.insert p := rfl

/-- Taking in a source. -/
@[simp] theorem track_sources : (r.track p).session.sources = r.session.sources.insert p := rfl

/-- Taking in a source leaves the outputs alone. -/
@[simp] theorem track_outputs : (r.track p).session.outputs = r.session.outputs := rfl

end Sets

/-! ## Builds -/

/-- A build leaves the session alone. -/
theorem build_session (r : Run σ) (x : Executor σ) (source : Path) (trigger : Trigger) :
    (r.build x source trigger).2.session = r.session := by
  unfold build
  split <;> rfl

/-- The session behind a build is the one in front of it. -/
theorem session_of_build {r r' : Run σ} {x : Executor σ} {source : Path} {trigger : Trigger}
    {output : Option Path} (h : r.build x source trigger = (output, r')) :
    r'.session = r.session := by
  rw [← build_session r x source trigger, h]

/-- A build that succeeds gives the output of its source. -/
theorem build_some {r r' : Run σ} {x : Executor σ} {source output : Path} {trigger : Trigger}
    (h : r.build x source trigger = (some output, r')) : output = x.outputFor source := by
  unfold build at h
  split at h
  · next hb =>
    cases h
    exact Executor.build_ok hb
  · cases h

/-- A build that fails is reported with its error, and nothing else changes but the world. -/
theorem build_none {r r' : Run σ} {x : Executor σ} {source : Path} {trigger : Trigger}
    (h : r.build x source trigger = (none, r')) :
    ∃ e s, x.build source r.world = (.error e, s) ∧
      r' = { r with world := s }.emit (.ofError e) := by
  unfold build at h
  split at h
  · cases h
  · next e s hb =>
    cases h
    exact ⟨e, s, hb, rfl⟩

/-! ## Changes -/

/-- Deleting an output leaves the session alone. -/
theorem deleteOutput_session (r : Run σ) (x : Executor σ) (output : Path) :
    (r.deleteOutput x output).session = r.session := by
  unfold deleteOutput
  split
  · rfl
  · split <;> rfl

/-- The session after a tracked source disappeared. -/
theorem onUnlink_session (x : Executor σ) (now : Nat) (r : Run σ) (source : Path) :
    (onUnlink x now r source).session =
      let outputs := r.session.outputs.erase (x.outputFor source)
      { r.session with
        sources := r.session.sources.erase source
        outputs := outputs
        sideFiles := r.session.sideFiles.request outputs now } := by
  simp only [onUnlink, requestSync, emit, deleteOutput_session, drop]

/-- The tracked sources below a directory. -/
def below (r : Run σ) (dir : Path) : List Path :=
  r.session.sources.paths.filter (·.startsWith dir)

/-- What a change can do to a run, with the outcome. Only a watching session does anything. -/
inductive Handled (x : Executor σ) (change : Change) (now : Nat) (r : Run σ) :
    Outcome → Run σ → Prop
  /-- The change is none of the session's business. -/
  | ignored : Handled x change now r .ignored r
  /-- A source is built and fails. -/
  | failed {r' : Run σ} (trigger : Trigger) (watching : r.session.phase = .watching)
      (source : Artifact.isSource change.path = true)
      (build : r.build x change.path trigger = (none, r')) : Handled x change now r .failed r'
  /-- A new source is built. -/
  | added {r' : Run σ} (appeared : change.kind = .add) (watching : r.session.phase = .watching)
      (source : Artifact.isSource change.path = true)
      (fresh : r.session.sources.contains change.path = false)
      (build : r.build x change.path .add = (some (x.outputFor change.path), r')) :
      Handled x change now r .built
        (((r'.track change.path).list (x.outputFor change.path)).requestSync now)
  /-- A tracked source whose output is listed is built. -/
  | rebuilt {r' : Run σ} (watching : r.session.phase = .watching)
      (source : Artifact.isSource change.path = true)
      (tracked : r.session.sources.contains change.path = true)
      (build : r.build x change.path .change = (some (x.outputFor change.path), r'))
      (listed : r.session.outputs.contains (x.outputFor change.path) = true) :
      Handled x change now r .built r'
  /-- A tracked source whose output is not listed is built. -/
  | mended {r' : Run σ} (watching : r.session.phase = .watching)
      (source : Artifact.isSource change.path = true)
      (tracked : r.session.sources.contains change.path = true)
      (build : r.build x change.path .change = (some (x.outputFor change.path), r'))
      (unlisted : r.session.outputs.contains (x.outputFor change.path) = false) :
      Handled x change now r .built ((r'.list (x.outputFor change.path)).requestSync now)
  /-- A tracked source disappears. -/
  | removed (watching : r.session.phase = .watching)
      (source : Artifact.isSource change.path = true)
      (tracked : r.session.sources.contains change.path = true) :
      Handled x change now r .removed (onUnlink x now r change.path)
  /-- A directory disappears with the tracked sources below it. -/
  | removedBelow (watching : r.session.phase = .watching) (named : change.path.chars ≠ [])
      (untracked : r.session.sources.contains change.path = false) :
      Handled x change now r .removed ((r.below change.path).foldl (onUnlink x now) r)

/-- What becomes of a tracked source that is built again. -/
theorem handled_onChange {x : Executor σ} {change : Change} {now : Nat} {r : Run σ}
    (watching : r.session.phase = .watching) (source : Artifact.isSource change.path = true)
    (tracked : r.session.sources.contains change.path = true) :
    Handled x change now r (r.onChange x change.path now).1 (r.onChange x change.path now).2 := by
  unfold onChange
  split
  · next output r' hb =>
    have hsession := session_of_build hb
    obtain rfl := build_some hb
    split
    · next hl => exact .rebuilt watching source tracked hb (by rwa [hsession] at hl)
    · next hl =>
      rw [hsession] at hl
      exact .mended watching source tracked hb (by simpa using hl)
  · next hb => exact .failed .change watching source hb

/-- A change does one of the things that `Handled` lists. -/
theorem handled (x : Executor σ) (change : Change) (now : Nat) (r : Run σ) :
    Handled x change now r (r.handle x change now).1 (r.handle x change now).2 := by
  unfold handle
  simp only
  split
  · exact .ignored
  · next hphase =>
    have watching : r.session.phase = .watching := by simpa using hphase
    split
    · -- a path was removed
      split
      · next htracked =>
        unfold onUnlinkTree
        simp only
        split
        · exact .ignored
        · next named =>
          split
          · exact .ignored
          · exact .removedBelow watching named (by simpa using htracked)
      · next htracked =>
        have tracked : r.session.sources.contains change.path = true := by simpa using htracked
        split
        · exact .ignored
        · next hs => exact .removed watching (by simpa using hs) tracked
    · -- a path was added
      rename_i appeared
      split
      · exact .ignored
      · next hs =>
        have source : Artifact.isSource change.path = true := by simpa using hs
        split
        · next tracked => exact handled_onChange watching source tracked
        · next htracked =>
          unfold onAdd
          split
          · next output r' hb =>
            obtain rfl := build_some hb
            exact .added appeared watching source (by simpa using htracked) hb
          · next hb => exact .failed .add watching source hb
    · -- a path was changed
      split
      · next hs =>
        rw [Bool.and_eq_true] at hs
        exact handled_onChange watching hs.1 hs.2
      · exact .ignored

/-- A change does not move a session to another phase. -/
theorem phase_handle (x : Executor σ) (change : Change) (now : Nat) (r : Run σ) :
    (r.handle x change now).2.session.phase = r.session.phase := by
  have hfold (sources : List Path) (r : Run σ) :
      (sources.foldl (onUnlink x now) r).session.phase = r.session.phase := by
    induction sources generalizing r with
    | nil => rfl
    | cons source rest ih => rw [List.foldl_cons, ih, onUnlink_session]
  have hhandled := handled x change now r
  generalize r.handle x change now = answer at hhandled ⊢
  obtain ⟨outcome, r'⟩ := answer
  dsimp only at hhandled ⊢
  cases hhandled with
  | ignored => rfl
  | failed trigger watching source build => rw [session_of_build build]
  | @added r' appeared watching source fresh build =>
    rw [← session_of_build build]
    rfl
  | rebuilt watching source tracked build listed => rw [session_of_build build]
  | @mended r' watching source tracked build unlisted =>
    rw [← session_of_build build]
    rfl
  | removed watching source tracked => rw [onUnlink_session]
  | removedBelow watching named untracked => exact hfold _ _

/-! ## What is tracked -/

/-- Reports of updates leave the session alone. -/
theorem reportSyncs_session (r : Run σ) (results : List SyncResult) :
    (r.reportSyncs results).session = r.session := by
  induction results generalizing r with
  | nil => rfl
  | cons result rest ih => exact ih _

/-- What holds of the tracked sources and of a list of sources holds of all that are tracked once
the list is built. -/
theorem sources_buildAll {x : Executor σ} {holds : Path → Prop} {sources : List Path}
    (hs : ∀ p ∈ sources, holds p) {r : Run σ} (h : ∀ p ∈ r.session.sources.paths, holds p) :
    ∀ p ∈ (buildAll x sources r).2.2.session.sources.paths, holds p := by
  induction sources generalizing r with
  | nil => exact h
  | cons source rest ih =>
    have htrack : ∀ p ∈ (r.session.sources.insert source).paths, holds p := by
      intro p hp
      rcases PathSet.mem_insert.mp hp with ⟨rfl, -⟩ | hp
      · exact hs p (by simp)
      · exact h p hp
    have hrest := fun p hp => hs p (List.mem_cons_of_mem source hp)
    rcases hb : x.build source r.world with ⟨_ | output, s⟩
    · simp only [buildAll, Run.build, hb]
      exact ih hrest htrack
    · simp only [buildAll, Run.build, hb]
      exact ih hrest htrack

/-- What is tracked after sources were dropped is what was tracked before, without them. -/
theorem mem_foldl_onUnlink_iff {x : Executor σ} {now : Nat} {sources : List Path} {r : Run σ}
    {p : Path} : p ∈ (sources.foldl (onUnlink x now) r).session.sources.paths ↔
      p ∈ r.session.sources.paths ∧ ∀ s ∈ sources, p.same s = false := by
  induction sources generalizing r with
  | nil => simp
  | cons source rest ih =>
    rw [List.foldl_cons, ih, onUnlink_session, PathSet.mem_erase, List.forall_mem_cons, and_assoc]

/-- The outputs that are listed after sources were dropped. -/
theorem mem_outputs_foldl_onUnlink_iff {x : Executor σ} {now : Nat} {gone : List Path} {r : Run σ}
    {o : Path} :
    o ∈ (gone.foldl (onUnlink x now) r).session.outputs.paths ↔
      o ∈ r.session.outputs.paths ∧ ∀ t ∈ gone, o.same (x.outputFor t) = false := by
  induction gone generalizing r with
  | nil => simp
  | cons t rest ih =>
    rw [List.foldl_cons, ih, onUnlink_session, PathSet.mem_erase, List.forall_mem_cons, and_assoc]

/-- What is tracked under some spelling after sources were dropped was tracked before. -/
theorem contains_of_foldl_onUnlink {x : Executor σ} {now : Nat} {sources : List Path} {r : Run σ}
    {p : Path} (h : (sources.foldl (onUnlink x now) r).session.sources.contains p = true) :
    r.session.sources.contains p = true := by
  obtain ⟨q, hq, hsame⟩ := PathSet.contains_iff.mp h
  exact PathSet.contains_iff.mpr ⟨q, (mem_foldl_onUnlink_iff.mp hq).1, hsame⟩

/-- What holds of the tracked sources and of a source that appears holds of all that are tracked
after the change. -/
theorem sources_handle {x : Executor σ} {holds : Path → Prop} {r : Run σ} {change : Change}
    {now : Nat} (hc : change.kind = .add → Artifact.isSource change.path = true → holds change.path)
    (h : ∀ p ∈ r.session.sources.paths, holds p) :
    ∀ p ∈ (r.handle x change now).2.session.sources.paths, holds p := by
  have hhandled := handled x change now r
  generalize r.handle x change now = answer at hhandled ⊢
  obtain ⟨outcome, r'⟩ := answer
  dsimp only at hhandled ⊢
  intro p hp
  cases hhandled with
  | ignored => exact h p hp
  | failed trigger watching source build => exact h p (by rwa [session_of_build build] at hp)
  | added appeared watching source fresh build =>
    rw [requestSync_sources, list_sources, track_sources, session_of_build build] at hp
    rcases PathSet.mem_insert.mp hp with ⟨rfl, -⟩ | hp
    · exact hc appeared source
    · exact h p hp
  | rebuilt watching source tracked build listed => exact h p (by rwa [session_of_build build] at hp)
  | mended watching source tracked build unlisted =>
    rw [requestSync_sources, list_sources, session_of_build build] at hp
    exact h p hp
  | removed watching source tracked =>
    rw [onUnlink_session] at hp
    exact h p (PathSet.mem_erase.mp hp).1
  | removedBelow watching named untracked => exact h p (mem_foldl_onUnlink_iff.mp hp).1

/-- What holds of the tracked sources and of the sources that a call names holds of all that are
tracked after the call. -/
theorem sources_call {x : Executor σ} {holds : Path → Prop} {r : Run σ} {c : SessionCall}
    (hinitial : ∀ p ∈ c.initial, holds p)
    (hpaths : ∀ p ∈ c.paths, Artifact.isSource p = true → holds p)
    (h : ∀ p ∈ r.session.sources.paths, holds p) :
    ∀ p ∈ (r.call x c).session.sources.paths, holds p := by
  cases c with
  | start sources now =>
    simp only [call, start]
    by_cases hidle : r.session.phase = .idle
    · rw [if_neg (by simpa using hidle)]
      exact sources_buildAll hinitial h
    · rw [if_pos hidle]
      exact h
  | handle change now =>
    exact sources_handle (fun _ hs => hpaths _ (by simp [SessionCall.paths]) hs) h
  | tick now =>
    simpa [call, tick, reportSyncs_session] using h
  | close =>
    by_cases hclosed : r.session.phase = .closed
    · simpa [call, close, hclosed] using h
    · simpa [call, close, hclosed, reportSyncs_session, enter, emit] using h

end Run

end ArtifactSync
