import ArtifactSync.Proofs.Watch.SideFiles
import Mathlib.Data.Finset.Basic
import Mathlib.Data.List.Induction

/-!
# What calls report, and when they ask for updates

Events are the one thing that a session shows to others. Replayed from the start they give a set of
outputs (`WatchEvent.replayed`), and the end of the initial build gives two numbers
(`WatchEvent.Counted`). For each call this module says which events it adds: one for each source that
is built, dropped or fails (`events_handle`, `events_buildAll`), and one for each side file that was
waiting (`synced_of_call`).

A call asks for an update when it would leave a side file waiting that is switched on and waited for
nothing (`asks`). Side files have no say in that (`asking_handle`), so every call either asks, with the
outputs that are listed behind it, or leaves the outputs alone (`asks_cases`).
-/

namespace ArtifactSync

open Path Artifact

/-! ## What can be read off the events -/

namespace WatchEvent

/-- What an event makes of the outputs that were replayed before it. -/
def replay (outputs : Finset String) : WatchEvent → Finset String
  | fileBuilt _ output _ => insert output outputs
  | fileRemoved _ output => outputs.erase output
  | _ => outputs

/-- The outputs that are listed according to the events. -/
def replayed (events : List WatchEvent) : Finset String :=
  events.foldl replay ∅

/-- Whether an event reports that a source was built. -/
def isBuilt : WatchEvent → Bool
  | fileBuilt .. => true
  | _ => false

/-- Whether an event reports that a source failed. -/
def isFailed : WatchEvent → Bool
  | fileFailed .. => true
  | _ => false

/-- Whether an event is about a single source or its output. -/
def isOfFile : WatchEvent → Bool
  | fileBuilt .. => true
  | fileFailed .. => true
  | fileRemoved .. => true
  | warning .. => true
  | _ => false

/-- Whether an event is about side files or the end of the session. -/
def isOfSideFiles : WatchEvent → Bool
  | sideFileSynced .. => true
  | warning .. => true
  | error .. => true
  | shutdown => true
  | _ => false

/-- Such an event makes no difference to what is replayed or counted. -/
theorem still_of_isOfSideFiles {e : WatchEvent} (h : e.isOfSideFiles = true) :
    (∀ outputs, replay outputs e = outputs) ∧ e.isBuilt = false ∧ e.isFailed = false ∧
      ∀ built failed, e ≠ .initialBuildComplete built failed := by
  cases e with
  | sideFileSynced | warning | error | shutdown =>
    exact ⟨fun _ => rfl, rfl, rfl, fun _ _ h => by cases h⟩
  | watchStarted | fileBuilt | fileFailed | fileRemoved | initialBuildComplete => cases h

/-- The last of several events comes after the others. -/
theorem replayed_concat (events : List WatchEvent) (e : WatchEvent) :
    replayed (events ++ [e]) = replay (replayed events) e := by
  simp [replayed]

/-- Events that report neither builds nor removals make no difference. -/
theorem replayed_append_of_still {events new : List WatchEvent}
    (h : ∀ e ∈ new, ∀ outputs, replay outputs e = outputs) :
    replayed (events ++ new) = replayed events := by
  induction new using List.reverseRecOn with
  | nil => rw [List.append_nil]
  | append_singleton new e ih =>
    rw [← List.append_assoc, replayed_concat, h e (by simp)]
    exact ih fun e he => h e (by simp [he])

/-- The end of an initial build counts the builds and failures that were reported before it. -/
def Counted (events : List WatchEvent) : Prop :=
  ∀ before built failed after, events = before ++ .initialBuildComplete built failed :: after →
    built = before.countP isBuilt ∧ failed = before.countP isFailed

/-- One more event counts right if it counts nothing, or what is there. -/
theorem Counted.concat {events : List WatchEvent} (h : Counted events) {e : WatchEvent}
    (he : ∀ built failed, e = .initialBuildComplete built failed →
      built = events.countP isBuilt ∧ failed = events.countP isFailed) :
    Counted (events ++ [e]) := by
  intro before built failed after hsplit
  rcases List.eq_nil_or_concat after with rfl | ⟨front, last, rfl⟩
  · obtain ⟨rfl, hlast⟩ := List.append_inj' hsplit rfl
    exact he built failed (List.singleton_inj.mp hlast)
  · rw [List.concat_eq_append, ← List.cons_append, ← List.append_assoc] at hsplit
    exact h before built failed front (List.append_inj_left' hsplit rfl)

/-- So do several that count nothing. -/
theorem Counted.append {events new : List WatchEvent} (h : Counted events)
    (hnew : ∀ e ∈ new, ∀ built failed, e ≠ .initialBuildComplete built failed) :
    Counted (events ++ new) := by
  induction new using List.reverseRecOn with
  | nil => rwa [List.append_nil]
  | append_singleton new e ih =>
    rw [← List.append_assoc]
    refine (ih fun e he => hnew e (by simp [he])).concat fun built failed he => ?_
    exact absurd he (hnew e (by simp) built failed)

end WatchEvent

open WatchEvent

/-! ## What a call reports -/

namespace Run

variable {σ : Type} {x : Executor σ}

/-- A build that succeeds is reported. -/
theorem events_of_build {r r' : Run σ} {source output : Path} {trigger : Trigger}
    (h : r.build x source trigger = (some output, r')) :
    r'.events = r.events ++ [.built source output trigger] := by
  unfold Run.build at h
  split at h
  · cases h
    rfl
  · cases h

/-- A build that fails is reported. -/
theorem events_of_build_none {r r' : Run σ} {source : Path} {trigger : Trigger}
    (h : r.build x source trigger = (none, r')) : ∃ e, r'.events = r.events ++ [.ofError e] := by
  obtain ⟨e, s, -, rfl⟩ := build_none h
  exact ⟨e, rfl⟩

/-- A source that is dropped is reported, behind a warning if its output could not be deleted. -/
theorem events_onUnlink (x : Executor σ) (now : Nat) (r : Run σ) (source : Path) :
    ∃ warnings, (∀ e ∈ warnings, ∃ message, e = .warning message) ∧
      (onUnlink x now r source).events = r.events ++ (warnings ++
        [.fileRemoved (String.ofList source.toSlash) (String.ofList (x.outputFor source).toSlash)]) := by
  simp only [onUnlink, requestSync, emit, deleteOutput]
  split
  · exact ⟨[], by simp, rfl⟩
  · split
    · exact ⟨[], by simp, rfl⟩
    · next e s _ _ =>
      let message := s!"could not delete {String.ofList (x.outputFor source).toSlash}: {e}"
      refine ⟨[.warning message], List.forall_mem_singleton.mpr ⟨message, rfl⟩, ?_⟩
      simp only [drop, List.append_assoc, message]

/-- A change is reported by events about single files. -/
theorem events_handle (x : Executor σ) (change : Change) (now : Nat) (r : Run σ) :
    ∃ new, (r.handle x change now).2.events = r.events ++ new ∧ ∀ e ∈ new, e.isOfFile = true := by
  have hhandled := handled x change now r
  generalize r.handle x change now = answer at hhandled ⊢
  obtain ⟨outcome, r'⟩ := answer
  dsimp only at hhandled ⊢
  have hbuilt {r' : Run σ} {trigger : Trigger}
      (hb : r.build x change.path trigger = (some (x.outputFor change.path), r')) :
      ∃ new, r'.events = r.events ++ new ∧ ∀ e ∈ new, e.isOfFile = true :=
    ⟨_, events_of_build hb, List.forall_mem_singleton.mpr rfl⟩
  have hdropped (gone : List Path) (r : Run σ) :
      ∃ new, (gone.foldl (onUnlink x now) r).events = r.events ++ new ∧
        ∀ e ∈ new, e.isOfFile = true := by
    induction gone generalizing r with
    | nil => exact ⟨[], by simp, by simp⟩
    | cons source rest ih =>
      obtain ⟨warnings, hwarnings, hevents⟩ := events_onUnlink x now r source
      obtain ⟨new, hrest, hnew⟩ := ih (onUnlink x now r source)
      refine ⟨_, by rw [List.foldl_cons, hrest, hevents, List.append_assoc], fun e he => ?_⟩
      rcases List.mem_append.mp he with he | he
      · rcases List.mem_append.mp he with he | he
        · obtain ⟨message, rfl⟩ := hwarnings e he
          rfl
        · rw [List.mem_singleton.mp he]
          rfl
      · exact hnew e he
  cases hhandled with
  | ignored => exact ⟨[], by simp, by simp⟩
  | failed trigger watching source build =>
    obtain ⟨e, he⟩ := events_of_build_none build
    exact ⟨_, he, List.forall_mem_singleton.mpr rfl⟩
  | @added r' appeared watching source fresh build =>
    have hevents := hbuilt build
    exact hevents
  | rebuilt watching source tracked build listed => exact hbuilt build
  | @mended r' watching source tracked build unlisted =>
    have hevents := hbuilt build
    exact hevents
  | removed watching source tracked => exact hdropped [change.path] r
  | removedBelow watching named untracked => exact hdropped _ r

/-- The initial builds are reported one by one, and counted. -/
theorem events_buildAll (x : Executor σ) (sources : List Path) (r : Run σ) :
    ∃ new, (buildAll x sources r).2.2.events = r.events ++ new ∧ (∀ e ∈ new, e.isOfFile = true) ∧
      (buildAll x sources r).1 = new.countP isBuilt ∧
      (buildAll x sources r).2.1 = new.countP isFailed := by
  induction sources generalizing r with
  | nil => exact ⟨[], by simp [buildAll], by simp, rfl, rfl⟩
  | cons source rest ih =>
    rcases hb : r.build x source .initial with ⟨_ | output, r'⟩
    · obtain ⟨e, hevent⟩ := events_of_build_none hb
      obtain ⟨new, hevents, hnew, hbuilt, hfailed⟩ := ih (r'.track source)
      replace hevents : _ = r'.events ++ new := hevents
      simp only [buildAll, hb]
      refine ⟨.ofError e :: new, ?_, List.forall_mem_cons.mpr ⟨rfl, hnew⟩, ?_, ?_⟩
      · rw [hevents, hevent, List.append_assoc, List.singleton_append]
      · rw [hbuilt, List.countP_cons_of_neg (by simp [isBuilt, WatchEvent.ofError])]
      · rw [hfailed, List.countP_cons_of_pos (by rfl)]
    · have hevent := events_of_build hb
      obtain ⟨new, hevents, hnew, hbuilt, hfailed⟩ := ih ((r'.list output).track source)
      replace hevents : _ = r'.events ++ new := hevents
      simp only [buildAll, hb]
      refine ⟨.built source output .initial :: new, ?_, List.forall_mem_cons.mpr ⟨rfl, hnew⟩, ?_, ?_⟩
      · rw [hevents, hevent, List.append_assoc, List.singleton_append]
      · rw [hbuilt, List.countP_cons_of_pos (by rfl)]
      · rw [hfailed, List.countP_cons_of_neg (by simp [isFailed, WatchEvent.built])]

/-- Updates are reported by an event each. -/
theorem events_reportSyncs (r : Run σ) (results : List SyncResult) :
    (r.reportSyncs results).events = r.events ++ results.map .ofSync := by
  induction results generalizing r with
  | nil => simp [reportSyncs]
  | cons result rest ih =>
    have hfirst := ih (r.emit (.ofSync result))
    rw [emit, List.append_assoc, List.singleton_append] at hfirst
    exact hfirst

/-- An update is reported as done with as many entries as it was given outputs, or as failed. -/
theorem ofSync_cases (a : Rewrite σ) (files : FileSystem σ) :
    (WatchEvent.ofSync (a.run files).1).isOfSideFiles = true ∧
      ∀ file entries, WatchEvent.ofSync (a.run files).1 = .sideFileSynced file entries →
        entries = a.outputs.size := by
  have hreport {report : SyncReport} (h : (a.run files).1 = .ok report) :
      report.entries = a.outputs.size := by
    simp only [Rewrite.run, SideFile.writeNow] at h
    repeat' split at h
    all_goals cases h
    rfl
  cases hresult : (a.run files).1 with
  | ok report =>
    refine ⟨rfl, fun file entries h => ?_⟩
    rw [← hreport hresult]
    exact (WatchEvent.sideFileSynced.inj h).2.symm
  | error e => cases e <;> exact ⟨rfl, fun file entries h => by cases h⟩

/-- Polling reports the updates that were due. -/
theorem events_tick (r : Run σ) (x : Executor σ) (now : Nat) : (r.tick x now).events = r.events ++
    (r.session.sideFiles.rewrites x.files (·.poll now) r.world).map
      fun a => .ofSync (a.run x.files).1 := by
  simp only [tick, SideFiles.poll_eq, events_reportSyncs, List.map_map]
  rfl

/-- Closing reports the updates that were pending, and the end. -/
theorem events_close {r : Run σ} (h : r.session.phase ≠ .closed) (x : Executor σ) :
    (r.close x).events = r.events ++
      ((r.session.sideFiles.rewrites x.files (·.take) r.world).map
        (fun a => .ofSync (a.run x.files).1) ++ [.shutdown]) := by
  simp only [close, if_neg h, SideFiles.flush_eq, emit, enter, events_reportSyncs, List.map_map,
    List.append_assoc]
  rfl

/-- So a tick reports on side files only. -/
theorem quiet_tick (r : Run σ) (x : Executor σ) (now : Nat) :
    ∃ new, (r.tick x now).events = r.events ++ new ∧ ∀ e ∈ new, e.isOfSideFiles = true := by
  refine ⟨_, events_tick r x now, fun e he => ?_⟩
  obtain ⟨a, -, rfl⟩ := List.mem_map.mp he
  exact (ofSync_cases a x.files).1

/-- The end of a session is reported with side files only. -/
theorem quiet_close (r : Run σ) (x : Executor σ) :
    ∃ new, (r.close x).events = r.events ++ new ∧ ∀ e ∈ new, e.isOfSideFiles = true := by
  by_cases hclosed : r.session.phase = .closed
  · exact ⟨[], by simp [close, hclosed], by simp⟩
  · refine ⟨_, events_close hclosed x, fun e he => ?_⟩
    rcases List.mem_append.mp he with he | he
    · obtain ⟨a, -, rfl⟩ := List.mem_map.mp he
      exact (ofSync_cases a x.files).1
    · rw [List.mem_singleton.mp he]
      rfl

/-- What is taken was pending. -/
theorem pending_of_mem_rewrites {f : SideFiles} {files : FileSystem σ}
    {take : Debouncer PathSet → Option PathSet × Debouncer PathSet} (htake : IsTake take) {s : σ}
    {a : Rewrite σ} (h : a ∈ f.rewrites files take s) :
    ∃ k since, (f.get k).pending.pending = some (a.outputs, since) := by
  obtain ⟨k, -, htaken⟩ := SideFiles.mem_rewrites h
  rcases htake (f.get k).pending with hd | hd
  · rw [hd, Debouncer.take] at htaken
    obtain ⟨⟨outputs, since⟩, hpending, rfl⟩ := Option.map_eq_some_iff.mp htaken
    exact ⟨k, since, hpending⟩
  · rw [hd] at htaken
    cases htaken

/-- A call reports no updates but those that were pending, with as many entries. -/
theorem synced_of_call (x : Executor σ) (r : Run σ) (c : SessionCall) :
    ∃ new, (r.call x c).events = r.events ++ new ∧
      ∀ file entries, .sideFileSynced file entries ∈ new →
        ∃ k outputs since, (r.session.sideFiles.get k).pending.pending = some (outputs, since) ∧
          entries = outputs.size := by
  have hnone {new : List WatchEvent} (hnew : ∀ e ∈ new, e.isOfFile = true) {file : String}
      {entries : Nat} (h : .sideFileSynced file entries ∈ new) : False := by
    have hfile := hnew _ h
    cases hfile
  have htaken {take : Debouncer PathSet → Option PathSet × Debouncer PathSet} (htake : IsTake take)
      {file : String} {entries : Nat} (h : .sideFileSynced file entries ∈
        (r.session.sideFiles.rewrites x.files take r.world).map
          fun a => WatchEvent.ofSync (a.run x.files).1) :
      ∃ k outputs since, (r.session.sideFiles.get k).pending.pending = some (outputs, since) ∧
        entries = outputs.size := by
    obtain ⟨a, ha, hevent⟩ := List.mem_map.mp h
    obtain ⟨k, since, hpending⟩ := pending_of_mem_rewrites htake ha
    exact ⟨k, a.outputs, since, hpending, (ofSync_cases a x.files).2 file entries hevent⟩
  cases c with
  | start sources now =>
    by_cases hidle : r.session.phase = .idle
    · obtain ⟨new, hevents, hnew, -⟩ := events_buildAll x sources r
      simp only [call, start, hidle, ne_eq, not_true_eq_false, if_false, enter, requestSync, emit,
        hevents, List.append_assoc]
      refine ⟨_, rfl, fun file entries h => ?_⟩
      rcases List.mem_append.mp h with h | h
      · exact (hnone hnew h).elim
      · cases List.mem_singleton.mp h
    · exact ⟨[], by simp [call, start, hidle], by simp⟩
  | handle change now =>
    obtain ⟨new, hevents, hnew⟩ := events_handle x change now r
    exact ⟨new, hevents, fun file entries h => (hnone hnew h).elim⟩
  | tick now => exact ⟨_, events_tick r x now, fun file entries h => htaken (isTake_poll now) h⟩
  | close =>
    by_cases hclosed : r.session.phase = .closed
    · exact ⟨[], by simp [call, close, hclosed], by simp⟩
    · refine ⟨_, events_close hclosed x, fun file entries h => ?_⟩
      rcases List.mem_append.mp h with h | h
      · exact htaken isTake_take h
      · cases List.mem_singleton.mp h

/-! ## When an update is asked for -/

/-- The run with other side files. -/
def withSideFiles (r : Run σ) (f : SideFiles) : Run σ :=
  { r with session := { r.session with sideFiles := f } }

/-- Whether a call asks for an update of the side files: if both are switched on and wait for nothing,
they wait for something behind it. -/
def asks (x : Executor σ) (r : Run σ) (c : SessionCall) : Bool :=
  ((r.withSideFiles (.new x.root true true 0)).call x c).session.sideFiles.hasPending

/-- The run as the last call left it that asked for an update. -/
def lastAsked (x : Executor σ) : Run σ → List SessionCall → Option (Run σ)
  | _, [] => none
  | r, c :: cs =>
    (lastAsked x (r.call x c) cs).or (if r.asks x c then some (r.call x c) else none)

/-- The last of several calls is the last one to ask, if it does. -/
theorem lastAsked_concat (x : Executor σ) (r : Run σ) (cs : List SessionCall) (c : SessionCall) :
    r.lastAsked x (cs ++ [c]) =
      if (r.calls x cs).asks x c then some ((r.calls x cs).call x c) else r.lastAsked x cs := by
  induction cs generalizing r with
  | nil => exact Option.none_or
  | cons d cs ih =>
    have hcalls : (r.call x d).calls x cs = r.calls x (d :: cs) := rfl
    rw [List.cons_append, lastAsked, ih, lastAsked, hcalls]
    cases (r.calls x (d :: cs)).asks x c with
    | true => rfl
    | false => rfl

/-- A change asks for an update, or leaves outputs and side files alone. -/
inductive Asking (now : Nat) (r r' : Run σ) (f f' : SideFiles) : Prop
  | silent (outputs : r'.session.outputs = r.session.outputs)
      (sideFiles : r'.session.sideFiles = r.session.sideFiles) (others : f' = f)
  | asked (sideFiles : r'.session.sideFiles = r.session.sideFiles.request r'.session.outputs now)
      (outputs : PathSet) (others : f' = f.request outputs now)

section Asking

variable (r : Run σ) (f : SideFiles) (x : Executor σ) (now : Nat)

/-- A build does not look at the side files. -/
theorem build_withSideFiles (source : Path) (trigger : Trigger) :
    (r.withSideFiles f).build x source trigger =
      ((r.build x source trigger).1, (r.build x source trigger).2.withSideFiles f) := by
  have hworld : (r.withSideFiles f).world = r.world := rfl
  unfold Run.build
  rw [hworld]
  rcases x.build source r.world with ⟨_ | _, s⟩ <;> rfl

theorem asking_onAdd (source : Path) : Asking now r (r.onAdd x source now).2 f
    ((r.withSideFiles f).onAdd x source now).2.session.sideFiles := by
  rcases hb : r.build x source .add with ⟨answer, s⟩
  have hsession := session_of_build hb
  unfold onAdd
  rw [build_withSideFiles, hb]
  cases answer with
  | none => exact .silent (by rw [hsession]) (by rw [hsession]) rfl
  | some output => exact .asked (by rw [← hsession]; rfl) _ rfl

theorem asking_onChange (source : Path) : Asking now r (r.onChange x source now).2 f
    ((r.withSideFiles f).onChange x source now).2.session.sideFiles := by
  rcases hb : r.build x source .change with ⟨answer, s⟩
  have hsession := session_of_build hb
  have houtputs : (s.withSideFiles f).session.outputs = s.session.outputs := rfl
  unfold onChange
  rw [build_withSideFiles, hb]
  cases answer with
  | none => exact .silent (by rw [hsession]) (by rw [hsession]) rfl
  | some output =>
    simp only [houtputs]
    split
    · exact .silent (by rw [hsession]) (by rw [hsession]) rfl
    · exact .asked (by rw [← hsession]; rfl) _ rfl

theorem asking_onUnlink (source : Path) : Asking now r (onUnlink x now r source) f
    (onUnlink x now (r.withSideFiles f) source).session.sideFiles := by
  rw [onUnlink_session]
  exact .asked (by rw [onUnlink_session]) _ rfl

theorem asking_onUnlinkTree (dir : Path) : Asking now r (r.onUnlinkTree x dir now).2 f
    ((r.withSideFiles f).onUnlinkTree x dir now).2.session.sideFiles := by
  have hsources : (r.withSideFiles f).session.sources = r.session.sources := rfl
  unfold onUnlinkTree
  rw [hsources]
  simp only
  generalize (if dir.chars = [] then [] else
    r.session.sources.paths.filter (·.startsWith dir)) = below
  by_cases hbelow : below = []
  · rw [if_pos hbelow, if_pos hbelow]
    exact .silent rfl rfl rfl
  · rw [if_neg hbelow, if_neg hbelow]
    have hr := (sideFiles_foldl_onUnlink x now below r).resolve_left hbelow
    have hf := (sideFiles_foldl_onUnlink x now below (r.withSideFiles f)).resolve_left hbelow
    exact .asked hr _ hf

theorem asking_handle (c : Change) : Asking now r (r.handle x c now).2 f
    ((r.withSideFiles f).handle x c now).2.session.sideFiles := by
  have hadd := asking_onAdd r f x now c.path
  have hchange := asking_onChange r f x now c.path
  have htree := asking_onUnlinkTree r f x now c.path
  have hunlink := asking_onUnlink r f x now c.path
  have hsilent : Asking now r r f f := .silent rfl rfl rfl
  have hsources : (r.withSideFiles f).session.sources = r.session.sources := rfl
  have hphases : (r.withSideFiles f).session.phase = r.session.phase := rfl
  unfold Run.handle
  simp only [hsources, hphases]
  -- both runs ask the same of the session, so they take the same way
  by_cases hphase : r.session.phase = .watching
  · simp only [hphase, ne_eq, not_true_eq_false, if_false]
    cases c.kind with
    | unlink =>
      cases r.session.sources.contains c.path <;> cases isSource c.path
      all_goals first | exact htree | exact hunlink | exact hsilent
    | add =>
      cases r.session.sources.contains c.path <;> cases isSource c.path
      all_goals first | exact hadd | exact hchange | exact hsilent
    | change =>
      cases r.session.sources.contains c.path <;> cases isSource c.path
      all_goals first | exact hchange | exact hsilent
  · simp only [hphase, ne_eq, not_false_eq_true, if_true]
    exact hsilent

end Asking

/-- A call that asks for an update leaves side files that wait for the outputs listed behind it. One
that does not leaves the outputs alone, and no side file waits for anything new. -/
theorem asks_cases (x : Executor σ) (r : Run σ) (c : SessionCall) :
    (r.asks x c = true ∧ ∃ now, (r.call x c).session.sideFiles =
        r.session.sideFiles.request (r.call x c).session.outputs now) ∨
      (r.asks x c = false ∧ (r.call x c).session.outputs = r.session.outputs ∧
        ∀ k, ((r.call x c).session.sideFiles.get k).pending.pending =
            (r.session.sideFiles.get k).pending.pending ∨
          ((r.call x c).session.sideFiles.get k).pending.pending = none) := by
  let probe := SideFiles.new x.root true true 0
  have hprobe : ∀ k, (probe.get k).pending.pending = none := by
    intro k
    cases k <;> rfl
  have htaken {take : Debouncer PathSet → Option PathSet × Debouncer PathSet} (htake : IsTake take) :
      (probe.taken take).hasPending = false := by
    refine hasPending_of_pending_none fun k => ?_
    rcases htake.pending_taken probe k with hsame | hnone
    · rw [hsame, hprobe]
    · exact hnone
  cases c with
  | start sources now =>
    by_cases hidle : r.session.phase = .idle
    · left
      simp only [asks, call, start, withSideFiles, hidle, ne_eq, not_true_eq_false, if_false]
      refine ⟨?_, now, ?_⟩
      · simp only [enter, requestSync, emit, sideFiles_buildAll]
        rfl
      · simp only [enter, requestSync, emit, sideFiles_buildAll]
    · right
      simp only [asks, call, start, withSideFiles, hidle, ne_eq, not_false_eq_true, if_true]
      exact ⟨hasPending_of_pending_none hprobe, trivial, fun k => .inl trivial⟩
  | handle change now =>
    cases asking_handle r probe x now change with
    | silent outputs sideFiles others =>
      right
      simp only [asks, call]
      exact ⟨by rw [others]; exact hasPending_of_pending_none hprobe, outputs, fun k => .inl (by rw [sideFiles])⟩
    | asked sideFiles outputs others =>
      left
      simp only [asks, call]
      exact ⟨by rw [others]; rfl, now, sideFiles⟩
  | tick now =>
    right
    simp only [asks, call, tick, withSideFiles, SideFiles.poll_eq, reportSyncs_session]
    exact ⟨htaken (isTake_poll now), trivial, (isTake_poll now).pending_taken _⟩
  | close =>
    right
    by_cases hclosed : r.session.phase = .closed
    · simp only [asks, call, close, withSideFiles, hclosed, if_true]
      exact ⟨hasPending_of_pending_none hprobe, trivial, fun k => .inl trivial⟩
    · simp only [asks, call, close, withSideFiles, hclosed, if_false, SideFiles.flush_eq, enter, emit,
        reportSyncs_session]
      exact ⟨htaken isTake_take, trivial, isTake_take.pending_taken _⟩

end Run

end ArtifactSync
