import ArtifactSync.Proofs.Watch.Log
import ArtifactSync.Proofs.Watch.Reported

/-!
# The life of a session

A session is idle, watches, and is closed, in this order and once each (`OneWay`). It reports two
things of its own life: the end of the initial build when it begins to watch, and its end when it is
closed (`Milestones`). While it does not watch, nothing waits for its side files, so that ticks find
nothing to do although they never ask for the phase: every call leaves everything alone but the
phase and the word of the end (`still_call`). That nothing waits then is the invariant that each
call has to keep (`Lived.call`): changes ask for updates while the session watches only, and closing
takes all that is pending.
-/

namespace ArtifactSync

variable {σ : Type}

/-- Whether a call is a start. -/
def SessionCall.isStart : SessionCall → Bool
  | start .. => true
  | _ => false

/-! ## What a session reports of its own life -/

namespace WatchEvent

/-- Whether an event reports the end of the initial build. -/
def isInitialEnd : WatchEvent → Bool
  | initialBuildComplete .. => true
  | _ => false

/-- Whether an event is about the session's own life. -/
def isMilestone : WatchEvent → Bool
  | initialBuildComplete .. => true
  | shutdown => true
  | _ => false

/-- Events about single files are not. -/
theorem not_milestone_of_isOfFile {e : WatchEvent} (h : e.isOfFile = true) :
    e.isMilestone = false := by
  cases e with
  | fileBuilt | fileFailed | fileRemoved | warning => rfl
  | watchStarted | initialBuildComplete | sideFileSynced | error | shutdown => cases h

/-- Neither are updates of side files. -/
theorem not_milestone_of_rewrites (rewrites : List (Rewrite σ)) (files : FileSystem σ) :
    ∀ e ∈ rewrites.map fun a => ofSync (a.run files).1, e.isMilestone = false := by
  intro e he
  obtain ⟨a, -, rfl⟩ := List.mem_map.mp he
  cases (a.run files).1 with
  | ok report => rfl
  | error e => cases e <;> rfl

/-- Other events make no difference to the milestones. -/
theorem filter_isMilestone_append {events new : List WatchEvent}
    (h : ∀ e ∈ new, e.isMilestone = false) :
    (events ++ new).filter isMilestone = events.filter isMilestone := by
  have hnone : new.filter isMilestone = [] :=
    List.filter_eq_nil_iff.mpr fun e he => by simp [h e he]
  rw [List.filter_append, hnone, List.append_nil]

end WatchEvent

open WatchEvent

/-- What a session has reported of its own life, by the phase it is in. -/
inductive Milestones : Phase → List WatchEvent → Prop
  | idle : Milestones .idle []
  | watching (built failed : Nat) : Milestones .watching [.initialBuildComplete built failed]
  /-- It was closed without having started. -/
  | unused : Milestones .closed [.shutdown]
  | closed (built failed : Nat) : Milestones .closed [.initialBuildComplete built failed, .shutdown]

namespace Milestones

variable {phase : Phase} {events : List WatchEvent}

/-- The end of the initial build is reported once at most. -/
theorem initialEnd_le (h : Milestones phase (events.filter isMilestone)) :
    events.countP isInitialEnd ≤ 1 := by
  have hcount : events.countP isInitialEnd = (events.filter isMilestone).countP isInitialEnd := by
    rw [List.countP_filter]
    refine List.countP_congr fun e _ => ?_
    cases e <;> simp [isInitialEnd, isMilestone]
  rw [hcount]
  generalize events.filter isMilestone = milestones at h
  cases h with
  | idle | unused => simp [isInitialEnd]
  | watching | closed => exact Nat.le_refl 1

/-- The end of the session is reported once at most. -/
theorem count_shutdown_le (h : Milestones phase (events.filter isMilestone)) :
    events.count .shutdown ≤ 1 := by
  have hcount : (events.filter isMilestone).count .shutdown = events.count .shutdown :=
    List.count_filter rfl
  rw [← hcount]
  generalize events.filter isMilestone = milestones at h
  cases h with
  | idle => simp
  | watching | closed => simp
  | unused => simp

/-- Before a session is closed its end is not reported. -/
theorem not_mem_shutdown (h : Milestones phase (events.filter isMilestone))
    (hphase : phase ≠ .closed) : .shutdown ∉ events := by
  intro hmem
  have hmilestone : .shutdown ∈ events.filter isMilestone := List.mem_filter.mpr ⟨hmem, rfl⟩
  generalize events.filter isMilestone = milestones at h hmilestone
  cases h with
  | idle | watching => simp at hmilestone
  | unused | closed => exact hphase rfl

end Milestones

/-! ## While a session does not watch -/

namespace SideFiles

variable {f : SideFiles} {take : Debouncer PathSet → Option PathSet × Debouncer PathSet}

/-- Where nothing is pending, nothing is rewritten. -/
theorem rewrites_eq_nil (htake : IsTake take) (h : ∀ k, (f.get k).pending.pending = none)
    (files : FileSystem σ) (s : σ) : f.rewrites files take s = [] := by
  refine List.eq_nil_iff_forall_not_mem.mpr fun a ha => ?_
  obtain ⟨k, since, hpending⟩ := Run.pending_of_mem_rewrites htake ha
  rw [h k] at hpending
  cases hpending

/-- Taking it changes nothing, then. -/
theorem taken_eq_self (htake : IsTake take) (h : ∀ k, (f.get k).pending.pending = none) :
    f.taken take = f := by
  have hone {d : Debouncer PathSet} (hd : d.pending = none) : (take d).2 = d := by
    rcases htake d with htaken | htaken
    · rw [htaken, Debouncer.take, ← hd]
    · rw [htaken]
  have hignore : (take f.ignoreList.pending).2 = f.ignoreList.pending := hone (h .ignoreList)
  have hexclude : (take f.editorExclude.pending).2 = f.editorExclude.pending :=
    hone (h .editorExclude)
  rw [taken, hignore, hexclude]

end SideFiles

namespace Run

/-- A run has gone on with the world, both sets and the side files as they were. -/
structure Still (r r' : Run σ) : Prop where
  world : r'.world = r.world
  sources : r'.session.sources = r.session.sources
  outputs : r'.session.outputs = r.session.outputs
  sideFiles : r'.session.sideFiles = r.session.sideFiles

/-- Nothing has happened. -/
theorem Still.refl (r : Run σ) : Still r r :=
  ⟨rfl, rfl, rfl, rfl⟩

section Still

variable {r : Run σ} (hnone : ∀ k, (r.session.sideFiles.get k).pending.pending = none)
include hnone

/-- A tick that finds nothing pending leaves the run as it is. -/
theorem tick_eq_self (x : Executor σ) (now : Nat) : r.tick x now = r := by
  have hrewrites := SideFiles.rewrites_eq_nil (isTake_poll now) hnone x.files r.world
  have htaken := SideFiles.taken_eq_self (isTake_poll now) hnone
  simp only [tick, SideFiles.poll_eq, hrewrites, htaken]
  rfl

/-- Closing a session for which nothing is pending changes its phase and reports the end. -/
theorem close_eq_of_none (x : Executor σ) (hphase : r.session.phase ≠ .closed) :
    r.close x = (r.enter .closed).emit .shutdown := by
  have hrewrites := SideFiles.rewrites_eq_nil isTake_take hnone x.files r.world
  have htaken := SideFiles.taken_eq_self isTake_take hnone
  simp only [close, if_neg hphase, SideFiles.flush_eq, enter, hrewrites, htaken]
  rfl

/-- A session that does not watch and has nothing pending stays as it is, whatever is called, unless
it is an idle one that starts. -/
theorem still_call (x : Executor σ) {c : SessionCall} (hphase : r.session.phase ≠ .watching)
    (hstart : r.session.phase = .idle → c.isStart = false) : Still r (r.call x c) := by
  cases c with
  | start sources now =>
    have hidle : r.session.phase ≠ .idle := fun hidle => by cases hstart hidle
    rw [call, start, if_pos hidle]
    exact .refl r
  | handle change now =>
    rw [call, handle, if_pos hphase]
    exact .refl r
  | tick now =>
    rw [call, tick_eq_self hnone]
    exact .refl r
  | close =>
    by_cases hclosed : r.session.phase = .closed
    · rw [call, close, if_pos hclosed]
      exact .refl r
    · rw [call, close_eq_of_none hnone x hclosed]
      exact ⟨rfl, rfl, rfl, rfl⟩

end Still

/-- A call does nothing: it leaves the world, both sets and the side files alone, and asks for no
update. In a world that records the calls on files this means that none is made. -/
structure Silent (x : Executor σ) (r : Run σ) (c : SessionCall) : Prop extends
    Still r (r.call x c) where
  asks : r.asks x c = false

/-- Such a session does not ask for updates either, not even of side files that are switched off. -/
theorem silent_call {r : Run σ} (hnone : ∀ k, (r.session.sideFiles.get k).pending.pending = none)
    (x : Executor σ) {c : SessionCall} (hphase : r.session.phase ≠ .watching)
    (hstart : r.session.phase = .idle → c.isStart = false) : Silent x r c := by
  -- with both side files switched on and nothing pending the session would be as still
  let probe := r.withSideFiles (.new x.root true true 0)
  have hprobe : ∀ k, (probe.session.sideFiles.get k).pending.pending = none := by
    intro k
    cases k <;> rfl
  refine ⟨still_call hnone x hphase hstart, ?_⟩
  have hstill : Still probe (probe.call x c) := still_call hprobe x hphase hstart
  rw [asks, hstill.sideFiles]
  exact hasPending_of_pending_none hprobe

/-! ## One call after another -/

/-- What the calls made so far have made of a session. -/
structure Lived (cs : List SessionCall) (r : Run σ) : Prop where
  /-- It is idle until it is started or closed. -/
  idle_iff : r.session.phase = .idle ↔ .close ∉ cs ∧ ∀ c ∈ cs, c.isStart = false
  closed_iff : r.session.phase = .closed ↔ .close ∈ cs
  milestones : Milestones r.session.phase (r.events.filter isMilestone)
  /-- Once it is closed, its end is the last that was reported. -/
  last : r.session.phase = .closed → r.events.getLast? = some .shutdown
  /-- Unless it watches, nothing is pending. -/
  resting : r.session.phase ≠ .watching → ∀ k, (r.session.sideFiles.get k).pending.pending = none

/-- A new session has not lived. -/
theorem lived_fresh (root : Path) (mode : Mode) (quiet : Nat) (s : σ) :
    Lived [] (fresh (.new root mode.git mode.vscode quiet) s) where
  idle_iff := by simp [fresh, Session.new]
  closed_iff := by simp [fresh, Session.new]
  milestones := .idle
  last := fun h => by cases h
  resting := by
    intro _ k
    cases k <;> rfl

section Lived

variable {r : Run σ} {cs : List SessionCall} (h : Lived cs r)
include h

/-- A call that leaves a run as it is comes to nothing. -/
theorem Lived.concat_self {c : SessionCall} (hstart : r.session.phase = .idle → c.isStart = false)
    (hclose : c = .close → r.session.phase = .closed) : Lived (cs ++ [c]) r where
  idle_iff := by
    rw [h.idle_iff]
    simp only [List.mem_append, List.mem_singleton, not_or, or_imp, forall_and, forall_eq]
    constructor
    · rintro ⟨hnot, hnone⟩
      have hidle := h.idle_iff.mpr ⟨hnot, hnone⟩
      refine ⟨⟨hnot, fun heq => ?_⟩, hnone, hstart hidle⟩
      rw [hclose heq.symm] at hidle
      cases hidle
    · exact fun hboth => ⟨hboth.1.1, hboth.2.1⟩
  closed_iff := by
    rw [h.closed_iff, List.mem_append, List.mem_singleton]
    constructor
    · exact .inl
    · rintro (hmem | heq)
      · exact hmem
      · exact h.closed_iff.mp (hclose heq.symm)
  milestones := h.milestones
  last := h.last
  resting := h.resting

/-- A session goes on watching and reports nothing of its own life. -/
theorem Lived.goesOn {r' : Run σ} {c : SessionCall} {new : List WatchEvent}
    (watching : r.session.phase = .watching) (hphase : r'.session.phase = .watching)
    (hevents : r'.events = r.events ++ new) (hnew : ∀ e ∈ new, e.isMilestone = false)
    (hstart : c.isStart = false) (hclose : c ≠ .close) : Lived (cs ++ [c]) r' := by
  have hself := h.concat_self (c := c) (fun _ => hstart) fun heq => absurd heq hclose
  constructor
  · rw [hphase, ← watching]
    exact hself.idle_iff
  · rw [hphase, ← watching]
    exact hself.closed_iff
  · rw [hphase, ← watching, hevents, filter_isMilestone_append hnew]
    exact h.milestones
  · rw [hphase]
    exact fun hclosed => by cases hclosed
  · exact fun hnot => absurd hphase hnot

/-- Nothing is reported behind the end of the session. -/
theorem Lived.shutdown_last {before after : List WatchEvent}
    (hevents : r.events = before ++ .shutdown :: after) : after = [] := by
  have hclosed : r.session.phase = .closed := by
    by_contra hphase
    exact h.milestones.not_mem_shutdown hphase (by simp [hevents])
  have hlast := h.last hclosed
  have hcount := h.milestones.count_shutdown_le
  rcases List.eq_nil_or_concat after with hnil | ⟨front, e, rfl⟩
  · exact hnil
  -- the last event would be the end of the session a second time
  · have happend : r.events = (before ++ .shutdown :: front) ++ [e] := by simp [hevents]
    obtain rfl : e = .shutdown := by simpa [happend, -List.append_assoc] using hlast
    simp only [happend, List.count_append, List.count_cons_self, List.count_nil] at hcount
    omega

/-- An idle session starts to watch, and reports the end of the initial build. -/
theorem Lived.start (x : Executor σ) (sources : List Path) (now : Nat)
    (hidle : r.session.phase = .idle) :
    Lived (cs ++ [.start sources now]) (r.start x sources now) := by
  obtain ⟨new, hevents, hnew, -⟩ := events_buildAll x sources r
  obtain ⟨hopen, -⟩ := h.idle_iff.mp hidle
  have hphase : (r.start x sources now).session.phase = .watching := by
    simp [Run.start, hidle, enter]
  have hmilestones : (r.start x sources now).events.filter isMilestone =
      [.initialBuildComplete (r.buildAll x sources).1 (r.buildAll x sources).2.1] := by
    have hbefore := h.milestones
    rw [hidle] at hbefore
    generalize hfilter : r.events.filter isMilestone = milestones at hbefore
    cases hbefore
    simp only [Run.start, hidle, ne_eq, not_true_eq_false, if_false, enter, requestSync, emit,
      hevents]
    rw [List.filter_append,
      filter_isMilestone_append fun e he => not_milestone_of_isOfFile (hnew e he), hfilter]
    rfl
  constructor
  · rw [hphase]
    simp [SessionCall.isStart]
  · rw [hphase]
    simpa using hopen
  · rw [hphase, hmilestones]
    exact .watching _ _
  · rw [hphase]
    exact fun hclosed => by cases hclosed
  · exact fun hnot => absurd hphase hnot

/-- A session that is closed has nothing pending, and reports its end behind all else. -/
theorem Lived.close (x : Executor σ) (hopen : r.session.phase ≠ .closed) :
    Lived (cs ++ [.close]) (r.close x) := by
  have hphase : (r.close x).session.phase = .closed := by
    simp [Run.close, hopen, enter, emit]
  have hevents := events_close hopen x
  constructor
  · rw [hphase]
    simp
  · rw [hphase]
    simp
  · rw [hphase, hevents, ← List.append_assoc, List.filter_append,
      filter_isMilestone_append (not_milestone_of_rewrites _ x.files)]
    have hbefore := h.milestones
    generalize r.session.phase = phase at hbefore hopen
    generalize r.events.filter isMilestone = milestones at hbefore
    cases hbefore with
    | idle => exact .unused
    | watching built failed => exact .closed built failed
    | unused | closed => exact absurd rfl hopen
  · intro _
    rw [hevents, ← List.append_assoc]
    exact List.getLast?_concat ..
  · intro _ k
    simp only [Run.close, if_neg hopen, SideFiles.flush_eq, enter, emit, reportSyncs_session,
      SideFiles.get_taken, Debouncer.take]

/-- Every call keeps to the course of a life. -/
theorem Lived.call (x : Executor σ) (c : SessionCall) : Lived (cs ++ [c]) (r.call x c) := by
  cases c with
  | start sources now =>
    by_cases hidle : r.session.phase = .idle
    · exact h.start x sources now hidle
    · rw [Run.call, Run.start, if_pos hidle]
      exact h.concat_self (fun hphase => absurd hphase hidle) fun heq => by cases heq
  | handle change now =>
    by_cases watching : r.session.phase = .watching
    · obtain ⟨new, hevents, hnew⟩ := events_handle x change now r
      exact h.goesOn watching ((phase_handle x change now r).trans watching) hevents
        (fun e he => not_milestone_of_isOfFile (hnew e he)) rfl (by simp)
    · rw [Run.call, handle, if_pos watching]
      exact h.concat_self (fun _ => rfl) fun heq => by cases heq
  | tick now =>
    by_cases watching : r.session.phase = .watching
    · have hphase : (r.tick x now).session.phase = r.session.phase := by
        simp only [tick, reportSyncs_session]
      exact h.goesOn watching (hphase.trans watching) (events_tick r x now)
        (not_milestone_of_rewrites _ x.files) rfl (by simp)
    · rw [Run.call, tick_eq_self (h.resting watching)]
      exact h.concat_self (fun _ => rfl) fun heq => by cases heq
  | close =>
    by_cases hclosed : r.session.phase = .closed
    · rw [Run.call, Run.close, if_pos hclosed]
      exact h.concat_self (fun _ => rfl) fun _ => hclosed
    · exact h.close x hclosed

end Lived

/-- So do all calls together. -/
theorem lived_calls (x : Executor σ) (mode : Mode) (quiet : Nat) (s : σ) (cs : List SessionCall) :
    Lived cs ((fresh (.new x.root mode.git mode.vscode quiet) s).calls x cs) := by
  induction cs using List.reverseRecOn with
  | nil => exact lived_fresh x.root mode quiet s
  | append_singleton cs c ih =>
    rw [calls_concat]
    exact ih.call x c

/-- The life of a session goes one way, as the calls made on it so far have it. -/
structure OneWay (x : Executor σ) (cs : List SessionCall) (r : Run σ) : Prop where
  /-- A start has an effect exactly if no start and no close came before it. -/
  starts : ∀ sources now, r.start x sources now ≠ r ↔
    .close ∉ cs ∧ ∀ c ∈ cs, c.isStart = false
  /-- The end of the initial build is reported once at most. -/
  builtOnce : r.events.countP isInitialEnd ≤ 1
  /-- The end of the session is the last that is reported, and so it is reported once at most. -/
  endsLast : ∀ before after, r.events = before ++ .shutdown :: after → after = []
  /-- Until a start takes effect and after a close, calls do nothing. -/
  silent : ∀ c, .close ∈ cs ∨ (∀ d ∈ cs ++ [c], d.isStart = false) → Silent x r c
  /-- After a close nothing waits for a tick. -/
  atRest : .close ∈ cs → r.session.sideFiles.hasPending = false

/-- Whatever is called on a session, in whatever order, it starts once at most and only before it is
closed, is silent in front of that and after its end, and reports both once at most. -/
theorem oneWay_calls (x : Executor σ) (mode : Mode) (quiet : Nat) (s : σ)
    (cs : List SessionCall) :
    OneWay x.logged cs
      ((fresh (.new x.root mode.git mode.vscode quiet) ⟨s, []⟩).calls x.logged cs) := by
  have h := lived_calls x.logged mode quiet ⟨s, []⟩ cs
  rw [show x.logged.root = x.root from rfl] at h
  generalize (fresh (.new x.root mode.git mode.vscode quiet) ⟨s, []⟩).calls x.logged cs = r at h ⊢
  constructor
  · intro sources now
    rw [← h.idle_iff]
    constructor
    · intro heffect
      by_contra hidle
      exact heffect (by rw [start, if_pos hidle])
    · intro hidle heq
      have hphase : (r.start x.logged sources now).session.phase = .watching := by
        simp [start, hidle, enter]
      rw [heq, hidle] at hphase
      cases hphase
  · exact h.milestones.initialEnd_le
  · exact fun before after => h.shutdown_last
  · intro c hc
    rcases hc with hclose | hnone
    · have hclosed := h.closed_iff.mpr hclose
      have hphase : r.session.phase ≠ .watching := by simp [hclosed]
      exact silent_call (h.resting hphase) _ hphase fun hidle => by simp [hclosed] at hidle
    · rw [List.forall_mem_append] at hnone
      by_cases hclose : .close ∈ cs
      · have hclosed := h.closed_iff.mpr hclose
        have hphase : r.session.phase ≠ .watching := by simp [hclosed]
        exact silent_call (h.resting hphase) _ hphase fun _ => hnone.2 c (by simp)
      · have hidle := h.idle_iff.mpr ⟨hclose, hnone.1⟩
        have hphase : r.session.phase ≠ .watching := by simp [hidle]
        exact silent_call (h.resting hphase) _ hphase fun _ => hnone.2 c (by simp)
  · intro hclose
    have hclosed := h.closed_iff.mpr hclose
    exact hasPending_of_pending_none (h.resting (by simp [hclosed]))

end Run

end ArtifactSync
