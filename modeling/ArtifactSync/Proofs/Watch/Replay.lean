import ArtifactSync.Proofs.Watch.Frame
import ArtifactSync.Proofs.Watch.Reported
import ArtifactSync.Proofs.Watch.Scenario
import Mathlib.Data.Finset.Card

/-!
# Events replayed

Whoever reads the events of a session knows no more of it than they tell. Replayed from the start
they should tell which outputs are listed, as side files show them; the number of entries that an
update reports should be the number of outputs that were replayed when the update was last asked for;
and the end of the initial build should count what was reported before it. `LogTells` says so of a
run, at each of its points.

A build is reported before its output is listed, and a removal after the output is dropped, but
behind each call the two agree (`Recorded`), as long as no two outputs are shown alike: dropping one
of them would drop the other from what is replayed. Two are shown alike when one is a directory in
which a source named `..civet` lies, whose own output `..` is shown as that directory. So the events
tell exactly if no source lies there (`tells_iff_directoriesApart`).
-/

namespace ArtifactSync

open Path Artifact WatchEvent

/-! ## Outputs as they are shown -/

namespace PathSet

/-- The paths of a set as side files and events show them. -/
def shown (s : PathSet) : Finset String :=
  (s.paths.map fun p => String.ofList p.toSlash).toFinset

theorem mem_shown {s : PathSet} {text : String} :
    text ∈ s.shown ↔ ∃ p ∈ s.paths, String.ofList p.toSlash = text := by
  simp [shown]

/-- An insertion shows one path more, if it is not shown yet. -/
theorem shown_insert (s : PathSet) (p : Path) :
    (s.insert p).shown = Insert.insert (String.ofList p.toSlash) s.shown := by
  cases hp : s.contains p with
  | true =>
    obtain ⟨q, hq, hsame⟩ := contains_iff.mp hp
    rw [insert_of_contains hp, Finset.insert_eq_of_mem]
    exact mem_shown.mpr ⟨q, hq, by rw [toSlash_eq_of_same hsame]⟩
  | false =>
    ext text
    simp only [mem_shown, mem_insert, hp, and_true, Finset.mem_insert, or_and_right, exists_or,
      exists_eq_left, @eq_comm _ text]

/-- A path that no member is shown like, unless it is that member, is taken out alone. -/
theorem shown_erase {s : PathSet} {p : Path}
    (h : ∀ q ∈ s.paths, q.toSlash = p.toSlash → q.same p = true) :
    (s.erase p).shown = s.shown.erase (String.ofList p.toSlash) := by
  ext text
  simp only [mem_shown, mem_erase, Finset.mem_erase]
  constructor
  · rintro ⟨q, ⟨hq, hne⟩, rfl⟩
    refine ⟨fun hshown => ?_, q, hq, rfl⟩
    rw [h q hq (String.ofList_inj.mp hshown)] at hne
    cases hne
  · rintro ⟨hne, q, hq, rfl⟩
    refine ⟨q, ⟨hq, ?_⟩, rfl⟩
    by_contra hsame
    rw [Bool.not_eq_false] at hsame
    exact hne (by rw [toSlash_eq_of_same hsame])

/-- A set whose members are shown differently shows as many as it has. -/
theorem card_shown {s : PathSet}
    (h : ∀ p ∈ s.paths, ∀ q ∈ s.paths, p.toSlash = q.toSlash → p.same q = true) :
    s.shown.card = s.size := by
  have hnodup : (s.paths.map fun p => String.ofList p.toSlash).Nodup := by
    refine List.pairwise_map.mpr (s.increasing.imp_of_mem fun hp hq hbefore hshown => ?_)
    exact not_before_of_same (h _ hp _ hq (String.ofList_inj.mp hshown)) hbefore
  rw [shown, List.toFinset_card_of_nodup hnodup, List.length_map, size]

end PathSet

/-- No source of a class that has the name `..civet`, with nothing behind it, lies in a directory that
is spelled like the output of a source of the class. -/
def DirectoriesApart (kind : OutputKind) (named : Path → Prop) : Prop :=
  ∀ p q, SourceIn named p → SourceIn named q → q.fileName? = some dotName → dotName <:+ q.chars →
    q.components.dropLast ≠ (output p kind).components

/-- The output of a plain source `..civet`, with nothing behind the name, is the directory in which it
lies. That of any other plain source is a plain path. -/
theorem output_cases {named : Path → Prop} {p : Path} (hp : SourceIn named p) (kind : OutputKind) :
    if p.fileName? = some dotName ∧ dotName <:+ p.chars then
      (output p kind).components = p.components.dropLast ++ [.up]
    else (output p kind).IsPlain := by
  obtain ⟨front, stem, behind, hcut, hstem, rfl⟩ := exists_cut_of_isSource hp.source
  obtain ⟨names, hnames⟩ := hp.plain
  rw [fileName_ofCut hcut, if_neg (stem_ne_up stem)]
  rw [components_source hcut] at hnames
  by_cases hdot : behind = [] ∧ stem = ['.']
  · obtain ⟨rfl, rfl⟩ := hdot
    rw [if_pos ⟨rfl, (dotName_suffix_iff hcut).mpr rfl⟩, components_output hcut hstem,
      components_source hcut, List.dropLast_concat, if_pos ⟨rfl, rfl⟩]
  · have hother : ¬(some (stem ++ '.' :: sourceExtension) = some dotName ∧
        dotName <:+ (ofCut front (stem ++ '.' :: sourceExtension) behind).chars) := by
      rintro ⟨hname, hends⟩
      have hname' : stem ++ '.' :: sourceExtension = ['.'] ++ '.' :: sourceExtension :=
        Option.some.inj hname
      obtain rfl := List.append_cancel_right hname'
      exact hdot ⟨(dotName_suffix_iff hcut).mp hends, rfl⟩
    rw [if_neg hother]
    -- the directory is that of the source, so its names are
    obtain ⟨dirs, last, rfl, hdirs, -⟩ := List.append_eq_map_iff.mp hnames
    refine ⟨dirs ++ [stem ++ '.' :: kind.extension], ?_⟩
    rw [components_output hcut hstem, if_neg hdot, ← hdirs, List.map_append]
    rfl

/-- Where sources and directories are apart, outputs that are shown alike are one output. -/
theorem DirectoriesApart.output_same {kind : OutputKind} {named : Path → Prop}
    (apart : DirectoriesApart kind named) {p q : Path} (hp : SourceIn named p)
    (hq : SourceIn named q) (h : (output p kind).toSlash = (output q kind).toSlash) :
    (output p kind).same (output q kind) = true := by
  have hnames := toSlash_eq_iff.mp h
  -- an output that leads up is shown as the directory of its source
  have hup {q : Path} (hq : SourceIn named q)
      (houtput : (output q kind).components = q.components.dropLast ++ [.up]) :
      q.components.dropLast =
        ((output q kind).components.filterMap Component.name?).map Component.name := by
    obtain ⟨names, hplain⟩ := hq.plain
    rw [houtput, hplain, ← List.map_dropLast, List.filterMap_append, List.filterMap_map]
    simp [Function.comp_def, Component.name?]
  have hplain {p : Path} (hp : p.IsPlain) :
      p.components = (p.components.filterMap Component.name?).map Component.name := by
    obtain ⟨names, hnames⟩ := hp
    simp [hnames, List.filterMap_map, Function.comp_def, Component.name?]
  have hcases := output_cases hp kind
  have hcases' := output_cases hq kind
  split at hcases
  · next hdot =>
    split at hcases'
    · rw [same_iff, hcases, hcases', hup hp hcases, hup hq hcases', hnames]
    · exact absurd (by rw [hup hp hcases, hnames, ← hplain hcases'])
        (apart q p hq hp hdot.1 hdot.2)
  · split at hcases'
    · next hdot =>
      exact absurd (by rw [hup hq hcases', ← hnames, ← hplain hcases])
        (apart p q hp hq hdot.1 hdot.2)
    · exact same_of_toSlash_eq hcases hcases' h

/-! ## What the events tell of a run -/

namespace Run

variable {σ : Type} {x : Executor σ}

/-- The events of a run tell what a session lists, how much its updates list, and what its initial
build has come to. -/
structure LogTells (x : Executor σ) (r : Run σ) (cs : List SessionCall) : Prop where
  /-- At every point the outputs that are replayed are the ones that are listed. -/
  outputs : ∀ before, before <+: cs →
    replayed (r.calls x before).events = (r.calls x before).session.outputs.shown
  /-- An update that is reported lists as many outputs as were replayed when an update was last asked
  for. -/
  synced : ∀ before c after, cs = before ++ c :: after → ∃ new,
    (r.calls x (before ++ [c])).events = (r.calls x before).events ++ new ∧
      ∀ file entries, .sideFileSynced file entries ∈ new →
        ∃ asked, r.lastAsked x before = some asked ∧ entries = (replayed asked.events).card
  /-- The end of the initial build counts what was reported before it. -/
  counted : Counted (r.calls x cs).events

/-- Between calls the outputs that are replayed are the ones that are listed, each of them that of a
source of the class. -/
structure Recorded (x : Executor σ) (named : Path → Prop) (r : Run σ) : Prop where
  sources : ∀ p ∈ r.session.sources.paths, SourceIn named p
  outputs : ∀ o ∈ r.session.outputs.paths, ∃ p, SourceIn named p ∧ o = x.outputFor p
  listed : replayed r.events = r.session.outputs.shown

section Recorded

variable {named : Path → Prop}

/-- The outputs of sources that are apart are shown differently. -/
theorem Recorded.same_of_shown {r : Run σ} (h : Recorded x named r)
    (apart : DirectoriesApart x.kind named) {p : Path} (hp : SourceIn named p) :
    ∀ o ∈ r.session.outputs.paths, o.toSlash = (x.outputFor p).toSlash →
      o.same (x.outputFor p) = true := by
  intro o ho hshown
  obtain ⟨q, hq, rfl⟩ := h.outputs o ho
  exact apart.output_same hq hp hshown

/-- Events that report neither builds nor removals leave the record right. -/
theorem Recorded.of_still {r r' : Run σ} (h : Recorded x named r)
    (hsources : r'.session.sources = r.session.sources)
    (houtputs : r'.session.outputs = r.session.outputs) {new : List WatchEvent}
    (hevents : r'.events = r.events ++ new)
    (hnew : ∀ e ∈ new, ∀ outputs, WatchEvent.replay outputs e = outputs) : Recorded x named r' where
  sources := hsources ▸ h.sources
  outputs := houtputs ▸ h.outputs
  listed := by rw [hevents, replayed_append_of_still hnew, houtputs, h.listed]

/-- So does a build that is reported, once its output is listed. -/
theorem Recorded.of_build {r r' r'' : Run σ} (h : Recorded x named r) {p : Path}
    (hp : SourceIn named p) {trigger : Trigger}
    (hb : r.build x p trigger = (some (x.outputFor p), r'))
    (hsources : r''.session.sources = r'.session.sources ∨
      r''.session.sources = r'.session.sources.insert p)
    (houtputs : r''.session.outputs = r'.session.outputs.insert (x.outputFor p))
    (hevents : r''.events = r'.events) : Recorded x named r'' where
  sources := by
    rw [session_of_build hb] at hsources
    intro q hq
    rcases hsources with heq | heq
    · exact h.sources q (heq ▸ hq)
    · rcases PathSet.mem_insert.mp (heq ▸ hq) with ⟨rfl, -⟩ | hq
      · exact hp
      · exact h.sources q hq
  outputs := by
    rw [houtputs, session_of_build hb]
    intro o ho
    rcases PathSet.mem_insert.mp ho with ⟨rfl, -⟩ | ho
    · exact ⟨p, hp, rfl⟩
    · exact h.outputs o ho
  listed := by
    rw [hevents, events_of_build hb, replayed_concat, houtputs, session_of_build hb,
      PathSet.shown_insert, h.listed]
    rfl

/-- So does a source that is dropped, if no other output is shown like its own. -/
theorem Recorded.onUnlink {r : Run σ} (h : Recorded x named r)
    (apart : DirectoriesApart x.kind named) {p : Path} (hp : SourceIn named p) (now : Nat) :
    Recorded x named (onUnlink x now r p) where
  sources := by
    rw [onUnlink_session]
    exact fun q hq => h.sources q (PathSet.mem_erase.mp hq).1
  outputs := by
    rw [onUnlink_session]
    exact fun o ho => h.outputs o (PathSet.mem_erase.mp ho).1
  listed := by
    obtain ⟨warnings, hwarnings, hevents⟩ := events_onUnlink x now r p
    have hstill : ∀ e ∈ warnings, ∀ outputs, WatchEvent.replay outputs e = outputs := by
      intro e he outputs
      obtain ⟨message, rfl⟩ := hwarnings e he
      rfl
    calc replayed (Run.onUnlink x now r p).events
        = (replayed r.events).erase (String.ofList (x.outputFor p).toSlash) := by
          rw [hevents, ← List.append_assoc, replayed_concat, replayed_append_of_still hstill]
          rfl
      _ = (r.session.outputs.erase (x.outputFor p)).shown := by
          rw [h.listed, PathSet.shown_erase (h.same_of_shown apart hp)]
      _ = (Run.onUnlink x now r p).session.outputs.shown := by rw [onUnlink_session]

/-- So do the initial builds. -/
theorem Recorded.buildAll {sources : List Path} (hsources : ∀ p ∈ sources, SourceIn named p)
    {r : Run σ} (h : Recorded x named r) : Recorded x named (buildAll x sources r).2.2 := by
  induction sources generalizing r with
  | nil => exact h
  | cons p rest ih =>
    obtain ⟨hp, hrest⟩ := List.forall_mem_cons.mp hsources
    rcases hb : r.build x p .initial with ⟨_ | output, r'⟩
    · obtain ⟨e, hevent⟩ := events_of_build_none hb
      simp only [Run.buildAll, hb]
      have hfailed : Recorded x named r' :=
        h.of_still (by rw [session_of_build hb]) (by rw [session_of_build hb]) hevent
          (List.forall_mem_singleton.mpr fun _ => rfl)
      refine ih hrest ⟨fun q hq => ?_, hfailed.outputs, hfailed.listed⟩
      rcases PathSet.mem_insert.mp hq with ⟨rfl, -⟩ | hq
      · exact hp
      · exact hfailed.sources q hq
    · obtain rfl := build_some hb
      simp only [Run.buildAll, hb]
      exact ih hrest (h.of_build hp hb (.inr rfl) rfl rfl)

/-- So does a change. -/
theorem Recorded.handle {r : Run σ} (h : Recorded x named r)
    (apart : DirectoriesApart x.kind named) {change : Change} (hnamed : named change.path)
    (hplain : change.path.IsPlain) (now : Nat) : Recorded x named (r.handle x change now).2 := by
  have hhandled := handled x change now r
  generalize r.handle x change now = answer at hhandled ⊢
  obtain ⟨outcome, r'⟩ := answer
  dsimp only at hhandled ⊢
  have hdropped (gone : List Path) (hgone : ∀ p ∈ gone, SourceIn named p) {r : Run σ}
      (h : Recorded x named r) : Recorded x named (gone.foldl (Run.onUnlink x now) r) := by
    induction gone generalizing r with
    | nil => exact h
    | cons p rest ih =>
      obtain ⟨hp, hrest⟩ := List.forall_mem_cons.mp hgone
      exact ih hrest (h.onUnlink apart hp now)
  cases hhandled with
  | ignored => exact h
  | failed trigger watching source build =>
    obtain ⟨e, hevent⟩ := events_of_build_none build
    exact h.of_still (by rw [session_of_build build]) (by rw [session_of_build build]) hevent
      (List.forall_mem_singleton.mpr fun _ => rfl)
  | added appeared watching source fresh build =>
    exact h.of_build ⟨hnamed, hplain, source⟩ build (.inr rfl) rfl rfl
  | rebuilt watching source tracked build listed =>
    refine h.of_build ⟨hnamed, hplain, source⟩ build (.inl rfl) ?_ rfl
    rw [session_of_build build, PathSet.insert_of_contains listed]
  | mended watching source tracked build unlisted =>
    exact h.of_build ⟨hnamed, hplain, source⟩ build (.inl rfl) rfl rfl
  | removed watching source tracked => exact h.onUnlink apart ⟨hnamed, hplain, source⟩ now
  | removedBelow watching named untracked =>
    exact hdropped _ (fun p hp => h.sources p (List.mem_of_mem_filter hp)) h

/-- So does every call. -/
theorem Recorded.call {r : Run σ} (h : Recorded x named r) (apart : DirectoriesApart x.kind named)
    {c : SessionCall} (hpaths : ∀ p ∈ c.paths, named p ∧ p.IsPlain)
    (hinitial : ∀ p ∈ c.initial, isSource p = true) : Recorded x named (r.call x c) := by
  cases c with
  | start sources now =>
    by_cases hidle : r.session.phase = .idle
    · have hbuilt : Recorded x named (Run.buildAll x sources r).2.2 :=
        h.buildAll fun p hp => ⟨(hpaths p hp).1, (hpaths p hp).2, hinitial p hp⟩
      simp only [Run.call, start, hidle, ne_eq, not_true_eq_false, if_false]
      exact hbuilt.of_still rfl rfl rfl (List.forall_mem_singleton.mpr fun _ => rfl)
    · simpa [Run.call, start, hidle] using h
  | handle change now =>
    obtain ⟨hnamed, hplain⟩ := hpaths change.path (by simp [SessionCall.paths])
    exact h.handle apart hnamed hplain now
  | tick now =>
    obtain ⟨new, hevents, hnew⟩ := quiet_tick r x now
    refine h.of_still ?_ ?_ hevents fun e he => (still_of_isOfSideFiles (hnew e he)).1
    · simp only [Run.call, tick, reportSyncs_session]
    · simp only [Run.call, tick, reportSyncs_session]
  | close =>
    obtain ⟨new, hevents, hnew⟩ := quiet_close r x
    refine h.of_still ?_ ?_ hevents fun e he => (still_of_isOfSideFiles (hnew e he)).1
    · simp only [Run.call, close]
      split
      · rfl
      · simp only [emit, enter, reportSyncs_session]
    · simp only [Run.call, close]
      split
      · rfl
      · simp only [emit, enter, reportSyncs_session]

end Recorded

/-- A session that has not started has built nothing. -/
def Early (r : Run σ) : Prop :=
  r.session.phase = .idle → ∀ e ∈ r.events, e.isBuilt = false ∧ e.isFailed = false

/-- Until it starts. -/
theorem Early.call {r : Run σ} (h : Early r) (x : Executor σ) (c : SessionCall) :
    Early (r.call x c) := by
  intro hidle
  cases c with
  | start sources now =>
    by_cases hbefore : r.session.phase = .idle
    · simp [Run.call, start, hbefore, enter] at hidle
    · simp [Run.call, start, hbefore] at hidle
  | handle change now =>
    have hbefore : r.session.phase = .idle := (phase_handle x change now r).symm.trans hidle
    have hsame : (r.handle x change now).2 = r := by simp [Run.handle, hbefore]
    simpa only [Run.call, hsame] using h hbefore
  | tick now =>
    have hbefore : r.session.phase = .idle := by
      simpa only [Run.call, tick, reportSyncs_session] using hidle
    obtain ⟨new, hevents, hnew⟩ := quiet_tick r x now
    simp only [Run.call, hevents, List.forall_mem_append]
    exact ⟨h hbefore, fun e he =>
      ⟨(still_of_isOfSideFiles (hnew e he)).2.1, (still_of_isOfSideFiles (hnew e he)).2.2.1⟩⟩
  | close =>
    by_cases hclosed : r.session.phase = .closed
    · simp [Run.call, close, hclosed] at hidle
    · simp [Run.call, close, hclosed, emit, enter] at hidle

/-- Every call counts right. -/
theorem counted_call {r : Run σ} (h : Counted r.events) (early : Early r) (x : Executor σ)
    (c : SessionCall) : Counted (r.call x c).events := by
  have hfile {new : List WatchEvent} (hnew : ∀ e ∈ new, e.isOfFile = true) :
      ∀ e ∈ new, ∀ built failed, e ≠ .initialBuildComplete built failed := by
    rintro e he built failed rfl
    cases hnew _ he
  have hquiet {new : List WatchEvent} (hnew : ∀ e ∈ new, e.isOfSideFiles = true) :
      ∀ e ∈ new, ∀ built failed, e ≠ .initialBuildComplete built failed :=
    fun e he => (still_of_isOfSideFiles (hnew e he)).2.2.2
  cases c with
  | start sources now =>
    by_cases hidle : r.session.phase = .idle
    · obtain ⟨new, hevents, hnew, hbuilt, hfailed⟩ := events_buildAll x sources r
      have hnone (test : WatchEvent → Bool) (hold : ∀ e ∈ r.events, test e = false) :
          new.countP test = (r.events ++ new).countP test := by
        have hzero : r.events.countP test = 0 :=
          List.countP_eq_zero.mpr fun e he => by simp [hold e he]
        rw [List.countP_append, hzero, Nat.zero_add]
      simp only [Run.call, start, hidle, ne_eq, not_true_eq_false, if_false, enter, requestSync,
        emit, hevents]
      refine (h.append (hfile hnew)).concat fun built failed he => ?_
      obtain ⟨rfl, rfl⟩ := WatchEvent.initialBuildComplete.inj he
      exact ⟨hbuilt.trans (hnone isBuilt fun e he => (early hidle e he).1),
        hfailed.trans (hnone isFailed fun e he => (early hidle e he).2)⟩
    · simpa [Run.call, start, hidle] using h
  | handle change now =>
    obtain ⟨new, hevents, hnew⟩ := events_handle x change now r
    simpa only [Run.call, hevents] using h.append (hfile hnew)
  | tick now =>
    obtain ⟨new, hevents, hnew⟩ := quiet_tick r x now
    simpa only [Run.call, hevents] using h.append (hquiet hnew)
  | close =>
    obtain ⟨new, hevents, hnew⟩ := quiet_close r x
    simpa only [Run.call, hevents] using h.append (hquiet hnew)

/-- What a side file waits for has as many outputs as were replayed when it was last asked for. -/
def Awaits (x : Executor σ) (r : Run σ) (cs : List SessionCall) : Prop :=
  ∀ k outputs since,
    ((r.calls x cs).session.sideFiles.get k).pending.pending = some (outputs, since) →
      ∃ asked, r.lastAsked x cs = some asked ∧ outputs.size = (replayed asked.events).card

/-- One more call keeps this, if it leaves the record right. -/
theorem Awaits.concat {r : Run σ} {cs : List SessionCall} (h : Awaits x r cs) {c : SessionCall}
    {named : Path → Prop} (apart : DirectoriesApart x.kind named) {mode : Mode} {quiet : Nat}
    (regular : Regular x.root mode quiet (r.calls x cs))
    (recorded : Recorded x named ((r.calls x cs).call x c)) : Awaits x r (cs ++ [c]) := by
  intro k outputs since hpending
  rw [calls_concat] at hpending
  rw [lastAsked_concat]
  rcases asks_cases x (r.calls x cs) c with ⟨hasks, now, hrequest⟩ | ⟨hasks, -, hstill⟩
  · rw [if_pos hasks]
    refine ⟨_, rfl, ?_⟩
    have hready := regular.ready.request ((r.calls x cs).call x c).session.outputs now
    rw [hrequest] at hpending
    -- a side file that is switched off waits for nothing, any other for what is listed now
    have hkeeps : mode.keeps k = true := by
      by_contra hkeeps
      rw [hready.idle k (by simpa using hkeeps)] at hpending
      cases hpending
    have hcurrent : outputs = ((r.calls x cs).call x c).session.outputs := by
      rcases hready.current k hkeeps with ⟨since', h'⟩ | ⟨h', -⟩
      · rw [h'] at hpending
        exact (Prod.mk.inj (Option.some.inj hpending)).1.symm
      · rw [h'] at hpending
        cases hpending
    have hshown : ∀ p ∈ outputs.paths, ∀ q ∈ outputs.paths, p.toSlash = q.toSlash →
        p.same q = true := by
      intro p hp q hq
      rw [hcurrent] at hp hq
      obtain ⟨source, hsource, rfl⟩ := recorded.outputs q hq
      exact recorded.same_of_shown apart hsource p hp
    rw [recorded.listed, ← hcurrent, PathSet.card_shown hshown]
  · rw [if_neg (by simp [hasks])]
    rcases hstill k with hsame | hnone
    · exact h k outputs since (hsame ▸ hpending)
    · rw [hnone] at hpending
      cases hpending

/-- What holds of a run after some calls. -/
structure Tells (x : Executor σ) (named : Path → Prop) (mode : Mode) (quiet : Nat) (r : Run σ)
    (cs : List SessionCall) : Prop where
  regular : Regular x.root mode quiet (r.calls x cs)
  recorded : Recorded x named (r.calls x cs)
  early : Early (r.calls x cs)
  counted : Counted (r.calls x cs).events
  awaits : Awaits x r cs

/-- It holds after all calls that name plain paths of a class whose directories are apart. -/
theorem tells_calls {named : Path → Prop} (apart : DirectoriesApart x.kind named) (mode : Mode)
    (quiet : Nat) (s : σ) {cs : List SessionCall}
    (hpaths : ∀ c ∈ cs, ∀ p ∈ c.paths, named p ∧ p.IsPlain)
    (hinitial : ∀ c ∈ cs, ∀ p ∈ c.initial, isSource p = true) :
    Tells x named mode quiet (fresh (.new x.root mode.git mode.vscode quiet) s) cs := by
  induction cs using List.reverseRecOn with
  | nil =>
    refine ⟨regular_fresh _ mode quiet s, ⟨?_, ?_, rfl⟩, fun _ => ?_, ?_, ?_⟩
    · simp [calls, fresh, Session.new, PathSet.empty]
    · simp [calls, fresh, Session.new, PathSet.empty]
    · simp [calls, fresh]
    · simp [calls, fresh, Counted]
    · intro k outputs since hpending
      cases k <;> cases hpending
  | append_singleton cs c ih =>
    have hbefore := ih (fun d hd => hpaths d (by simp [hd])) fun d hd => hinitial d (by simp [hd])
    have hrecorded := hbefore.recorded.call apart (hpaths c (by simp)) (hinitial c (by simp))
    refine ⟨?_, ?_, ?_, ?_, hbefore.awaits.concat apart hbefore.regular hrecorded⟩
    · rw [calls_concat]
      exact regular_call (hinitial c (by simp)) hbefore.regular
    · rwa [calls_concat]
    · rw [calls_concat]
      exact hbefore.early.call x c
    · rw [calls_concat]
      exact counted_call hbefore.counted hbefore.early x c

/-- Two sources are built, and the second one disappears. Its output is shown like that of the first
one, so it is replayed as removed, while the other one is still listed. -/
theorem not_listed_of_shown_alike (kind : OutputKind) {p q : Path} (hq : isSource q = true)
    (hshown : (output p kind).toSlash = (output q kind).toSlash)
    (hne : (output p kind).same (output q kind) = false) :
    let x := Executor.steady ⟨['/']⟩ kind
    let r := (fresh (.new x.root false false 0) ()).calls x
      [.start [p, q] 0, .handle ⟨.unlink, q⟩ 0]
    replayed r.events ≠ r.session.outputs.shown := by
  intro x r
  let started := (fresh (.new x.root false false 0) ()).start x [p, q] 0
  have hsources : started.session.sources = (PathSet.empty.insert p).insert q := rfl
  have houtputs : started.session.outputs =
      (PathSet.empty.insert (output p kind)).insert (output q kind) := rfl
  have hphase : started.session.phase = .watching := rfl
  have htracked : started.session.sources.contains q = true := by
    rw [hsources]
    exact PathSet.contains_insert.mpr (.inl (same_refl q))
  have hr : r = onUnlink x 0 started q := by
    have hlast : r = (started.handle x ⟨.unlink, q⟩ 0).2 := rfl
    rw [hlast, Run.handle]
    simp only [hphase, htracked, hq, ne_eq, not_true_eq_false, if_false, Bool.not_true,
      Bool.false_eq_true]
  have hreplayed : replayed r.events = ∅ := by
    have hevents : r.events = [.built p (output p kind) .initial,
        .built q (output q kind) .initial, .initialBuildComplete 2 0,
        .fileRemoved (String.ofList q.toSlash) (String.ofList (output q kind).toSlash)] := by
      rw [hr]
      rfl
    rw [hevents]
    simp [replayed, WatchEvent.replay, WatchEvent.built, hshown]
  have hlisted : output p kind ∈ r.session.outputs.paths := by
    have hfirst : output p kind ∈ (PathSet.empty.insert (output p kind)).paths :=
      PathSet.mem_insert.mpr (.inl ⟨rfl, rfl⟩)
    rw [hr, onUnlink_session, houtputs]
    exact PathSet.mem_erase.mpr ⟨PathSet.mem_insert.mpr (.inr hfirst), hne⟩
  intro heq
  have hmem : String.ofList (output p kind).toSlash ∈ r.session.outputs.shown :=
    PathSet.mem_shown.mpr ⟨_, hlisted, rfl⟩
  rw [← heq, hreplayed] at hmem
  exact absurd hmem (Finset.notMem_empty _)

end Run

end ArtifactSync
