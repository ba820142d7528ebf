import ArtifactSync.Proofs.Watch.Frame
import ArtifactSync.Proofs.Watch.Gone

/-!
# What is excluded is never built

A watch hears of sources from discovery and from the changes that watcher events stand for
(`Heard`), and both ask the excludes about every source before they name it
(`kept_of_mem_sources`, `kept_of_mem_normalize`). So a session tracks only sources that are let in,
and whatever happens outside, it reads and writes only files of these and side files
(`keepsOut_recorded`): no excluded path is ever built. What is tracked stays in reach, for an event
that says that a tracked source changed or is gone always stands for that change.
-/

namespace ArtifactSync

open Path Artifact

variable {σ : Type}

/-- A source seen from the root that the excludes let in. -/
structure Kept (excludes : Excludes) (p : Path) : Prop where
  isSource : isSource p = true
  tidy : p.Tidy
  letIn : excludes.isExcluded p false = .ok false

/-- What a turn may tell a watch of a project: to start with the sources found there, and changes
that watcher events stand for, whatever the disk was when they came. -/
def Heard (root : Path) (excludes : Excludes) (found : List Path) : Turn σ → Prop
  | .call (.start sources _) => sources = found
  | .call (.handle change _) => ∃ (d : Disk) (e : WatcherEvent) (changes : List Change),
      e.normalize d root excludes = .ok changes ∧ change ∈ changes
  | .call (.tick _) => True
  | .call .close => True
  | .outside _ => True

section Doors

variable {root : Path} {excludes : Excludes} (hroot : root.isRooted = true)
  (hx : excludes.root.head? = some '/')
include hroot hx

/-- Discovery finds sources that are let in. -/
theorem kept_of_mem_sources {d : Disk} {tree : Node} {found : List Path}
    (htree : d.stat root = .ok tree) (proper : tree.Proper)
    (hfound : Discovery.sources d root excludes = .ok found) {p : Path} (hp : p ∈ found) :
    Kept excludes p := by
  obtain ⟨hs, hin, names, hne, hnames, rfl⟩ :=
    Discovery.spec_of_mem_sources hroot hx htree proper hfound hp
  have htidy := tidy_ofNames hnames hne
  exact ⟨hs, htidy, by rw [Excludes.isExcluded_tidy hx htidy, hin]⟩

/-- A source that a change names, of whatever kind it is, is let in. -/
theorem kept_of_mem_normalize {d : Disk} {e : WatcherEvent} {changes : List Change}
    (hn : e.normalize d root excludes = .ok changes) {c : Change} (hc : c ∈ changes)
    (hs : isSource c.path = true) : Kept excludes c.path := by
  obtain ⟨⟨kind, path⟩, -, own, hown, hmem⟩ := (WatcherEvent.mem_changesOfAll_iff hn).mp hc
  rcases WatcherEvent.mem_changesOf hroot hx hown hmem with
    ⟨-, htidy, -, hin⟩ | ⟨-, hdir, -, found, hfound, hmem⟩
  · exact ⟨hs, htidy, by rw [Excludes.isExcluded_tidy hx htidy, hin]⟩
  · -- in a directory that appears the walk asks about each source
    obtain ⟨q, -, hstrip, -, hin⟩ :=
      Discovery.verdict_of_mem_walkFrom hroot hx hfound hdir hmem
    have hne : c.path.chars ≠ [] := chars_ne_nil_of_isSource hs
    have htidy := (stripPrefix_tidy (chars_ne_nil_of_isRooted hroot) hstrip).resolve_left hne
    exact ⟨hs, htidy, by rw [Excludes.isExcluded_tidy hx htidy, hin hne]⟩

/-- A turn names only sources that are let in. -/
theorem kept_of_heard {found : List Path} (hfound : ∀ p ∈ found, Kept excludes p) {t : Turn σ}
    (h : Heard root excludes found t) : (∀ p ∈ t.initial, Kept excludes p) ∧
      ∀ p ∈ t.paths, isSource p = true → Kept excludes p := by
  rcases t with (⟨sources, now⟩ | ⟨change, now⟩ | now | _) | change
  · obtain rfl : sources = found := h
    exact ⟨hfound, fun p hp _ => hfound p hp⟩
  · obtain ⟨d, e, changes, hn, hc⟩ := h
    refine ⟨by simp [Turn.initial, SessionCall.initial], fun p hp hs => ?_⟩
    obtain rfl := List.mem_singleton.mp hp
    exact kept_of_mem_normalize hroot hx hn hc hs
  all_goals exact ⟨by simp [Turn.initial, SessionCall.initial],
    by simp [Turn.paths, SessionCall.paths]⟩

/-- An event that says that a source that is let in changed or is gone stands for that change. -/
theorem mem_normalize_of_kept {p : Path} (h : Kept excludes p) {d : Disk} {e : WatcherEvent}
    {kind : ChangeKind} (hkind : kind ≠ .add) {path : Path} (htag : (kind, path) ∈ e.tagged d)
    (hpath : root.relativeTo? path = some p) :
    ∃ changes, e.normalize d root excludes = .ok changes ∧ ⟨kind, p⟩ ∈ changes := by
  obtain ⟨changes, hn⟩ := WatcherEvent.normalize_ok (d := d) hroot hx e
  refine ⟨changes, hn, (WatcherEvent.mem_changesOfAll_iff hn).mpr ⟨_, htag, [⟨kind, p⟩], ?_, by simp⟩⟩
  have hin := h.letIn
  rw [Excludes.isExcluded_tidy hx h.tidy, Except.ok.injEq] at hin
  rw [WatcherEvent.changesOf_tidy hx hpath h.tidy fun hadd => absurd hadd hkind, hin]
  rfl

end Doors

namespace Run

/-- A session that tracks only sources that are let in, and has read and written no files but those
of such sources and side files. -/
structure KeepsOut (x : Executor σ) (excludes : Excludes) (r : Run (Logged σ)) : Prop where
  sources : ∀ p ∈ r.session.sources.paths, Kept excludes p
  /-- A file that was read is a side file or a source. -/
  read : ∀ e ∈ r.world.calls, ∀ file, e.call = .read file →
    (∃ k : SideFileKind, file = k.pathIn x.root) ∨ ∃ p, Kept excludes p ∧ file = x.root.join p
  /-- A file that was written is a side file or the output of a source. -/
  written : ∀ e ∈ r.world.calls, ∀ file text, e.call = .write file text →
    (∃ k : SideFileKind, file = k.pathIn x.root) ∨
      ∃ p, Kept excludes p ∧ file = x.root.join (x.outputFor p)

/-- A session has tried to build a source: it has read it, or tried to. -/
def Tried (x : Executor σ) (r : Run (Logged σ)) (p : Path) : Prop :=
  ∃ done, ⟨.read (x.root.join p), done⟩ ∈ r.world.calls

/-- What was recorded stays recorded. -/
theorem mem_calls_of_did {x : Executor σ} {new : List LoggedCall} {s s' : Logged σ}
    (h : x.Did new s s') {e : LoggedCall} (he : e ∈ s.calls) : e ∈ s'.calls := by
  rw [h.calls]
  exact List.mem_append_left new he

/-- No build goes unnoticed. -/
theorem tried_build (x : Executor σ) (r : Run (Logged σ)) (p : Path) (trigger : Trigger) :
    Tried x (r.build x.logged p trigger).2 p := by
  rcases hb : r.build x.logged p trigger with ⟨output, r'⟩
  obtain ⟨hworld, -⟩ := world_of_build hb
  refine ⟨succeeded (x.files.read (x.root.join p) r.world.world).1, ?_⟩
  rw [hworld]
  -- the reading comes first, and whatever else is called is recorded behind it
  have hread : ⟨.read (x.root.join p), succeeded (x.files.read (x.root.join p) r.world.world).1⟩ ∈
      (x.logged.files.read (x.logged.root.join p) r.world).2.calls :=
    List.mem_append_right _ (List.mem_singleton_self _)
  unfold Executor.build
  split
  · next cause s₁ hr => rwa [hr] at hread
  · next text s₁ hr =>
    rw [hr] at hread
    have hcompiled := mem_calls_of_did (x.did_compile text p s₁) hread
    split
    · next cause s₂ hc => rwa [hc] at hcompiled
    · next compiled s₂ hc =>
      rw [hc] at hcompiled
      have hwritten := mem_calls_of_did
        (x.did_write (x.root.join (x.outputFor p)) (withHeader p compiled) s₂) hcompiled
      dsimp only
      split
      · next hw => exact (congrArg Prod.snd hw) ▸ hwritten
      · next hw => exact (congrArg Prod.snd hw) ▸ hwritten

section KeepsOut

variable {x : Executor σ} {excludes : Excludes} {r : Run (Logged σ)} {c : SessionCall}

/-- A call that names only sources that are let in keeps the others out. -/
theorem keepsOut_call {mode : Mode} {quiet : Nat} (hr : Regular x.root mode quiet r)
    (hinitial : ∀ p ∈ c.initial, Kept excludes p)
    (hpaths : ∀ p ∈ c.paths, isSource p = true → Kept excludes p) (h : KeepsOut x excludes r) :
    KeepsOut x excludes (r.call x.logged c) := by
  obtain ⟨new, hnew⟩ : ∃ new, Framed x mode r c new :=
    framed_call (fun p hp => (hinitial p hp).isSource) hr
  refine ⟨sources_call hinitial hpaths h.sources, fun e he file hfile => ?_,
    fun e he file text hfile => ?_⟩
  · rw [hnew.did.calls] at he
    rcases List.mem_append.mp he with he | he
    · exact h.read e he file hfile
    · have hpermitted := hnew.permitted e he
      rw [Permitted, hfile] at hpermitted
      rcases hpermitted with ⟨p, hp, hs, hread⟩ | ⟨k, -, hside⟩
      · exact .inr ⟨p, hpaths p hp hs, hread⟩
      · exact .inl ⟨k, hside⟩
  · rw [hnew.did.calls] at he
    rcases List.mem_append.mp he with he | he
    · exact h.written e he file text hfile
    · have hpermitted := hnew.permitted e he
      rw [Permitted, hfile] at hpermitted
      rcases hpermitted with ⟨p, hp, hs, hwritten, -⟩ | ⟨k, -, hside⟩
      · exact .inr ⟨p, hpaths p hp hs, hwritten⟩
      · exact .inl ⟨k, hside⟩

/-- No source that is excluded was ever tried. -/
theorem KeepsOut.not_tried (h : KeepsOut x excludes r) {p : Path} (hs : isSource p = true)
    (hout : excludes.isExcluded p false = .ok true) : ¬Tried x r p := by
  rintro ⟨done, hread⟩
  rcases h.read _ hread _ rfl with ⟨k, hside⟩ | ⟨q, hq, hjoin⟩
  · have hother : (x.root.join p).same (k.pathIn x.root) = false := source_ne_pathIn hs k
    rw [hside, same_refl] at hother
    cases hother
  · -- neither path is rooted, so they are spelled alike behind the root
    have hp : p.isRooted = false := by
      by_contra hrooted
      rw [Bool.not_eq_false] at hrooted
      rw [Excludes.isExcluded, if_pos (.inr hrooted)] at hout
      cases hout
    rw [join_eq_lead hp, join_eq_lead hq.tidy.isRooted, Path.mk.injEq,
      List.append_cancel_left_eq] at hjoin
    obtain rfl : p = q := congrArg Path.mk hjoin
    rw [hq.letIn] at hout
    cases hout

end KeepsOut

/-- A run of a watch keeps out what is excluded. -/
theorem keepsOut_recorded {x : Executor σ} {excludes : Excludes} {found : List Path} {mode : Mode}
    {quiet : Nat} {s : σ} (hroot : x.root.isRooted = true) (hx : excludes.root.head? = some '/')
    (hfound : ∀ p ∈ found, Kept excludes p) {ts : List (Turn σ)}
    (hts : ∀ t ∈ ts, Heard x.root excludes found t) :
    KeepsOut x excludes (recorded x mode quiet s ts) := by
  have hnamed (t : Turn σ) (ht : t ∈ ts) := kept_of_heard hroot hx hfound (hts t ht)
  clear hts
  induction ts using List.reverseRecOn with
  | nil => exact ⟨by simp [recorded, turns, fresh, Session.new, PathSet.empty],
      by simp [recorded, turns, fresh], by simp [recorded, turns, fresh]⟩
  | append_singleton ts t ih =>
    have hbefore := fun u hu => hnamed u (List.mem_append_left [t] hu)
    have ih := ih hbefore
    obtain ⟨hinitial, hpaths⟩ := hnamed t (by simp)
    have hr : Regular x.root mode quiet (recorded x mode quiet s ts) :=
      regular_recorded fun u hu p hp => ((hbefore u hu).1 p hp).isSource
    rw [recorded_concat]
    cases t with
    | call c => exact keepsOut_call hr hinitial hpaths ih
    | outside change => exact ⟨ih.sources, ih.read, ih.written⟩

/-- Whatever happens outside and whatever a watcher says, a watch never tries to build a source that
is excluded, and reads and writes nothing but files of sources that are let in and side files. And no
event about a tracked source is lost: one that says that it changed or is gone, naming it behind the
root as it is tracked or in any other way that comes to the same seen from there, stands for that
change. -/
theorem keeps_excluded_out {x : Executor σ} {patterns : List String} {excludes : Excludes}
    {d : Disk} {tree : Node} {found : List Path}
    (hx : Excludes.ofPatterns x.root patterns = .ok excludes) (hroot : x.root.isRooted = true)
    (htree : d.stat x.root = .ok tree) (proper : tree.Proper)
    (hfound : Discovery.sources d x.root excludes = .ok found) (mode : Mode) (quiet : Nat) (s : σ)
    {ts : List (Turn σ)} (hts : ∀ t ∈ ts, Heard x.root excludes found t) :
    (∀ p, isSource p = true → excludes.isExcluded p false = .ok true →
      ¬Tried x (recorded x mode quiet s ts) p) ∧
    KeepsOut x excludes (recorded x mode quiet s ts) ∧
    ∀ p ∈ (recorded x mode quiet s ts).session.sources.paths,
      x.root.relativeTo? (x.root.join p) = some p ∧
      ∀ path, x.root.relativeTo? path = some p → ∀ (now : Disk) (e : WatcherEvent)
        (kind : ChangeKind), kind ≠ .add → (kind, path) ∈ e.tagged now →
        ∃ changes, e.normalize now x.root excludes = .ok changes ∧ ⟨kind, p⟩ ∈ changes := by
  have hxroot := Excludes.head_ofPatterns hx hroot
  have hkept : KeepsOut x excludes (recorded x mode quiet s ts) :=
    keepsOut_recorded hroot hxroot
      (fun p hp => kept_of_mem_sources hroot hxroot htree proper hfound hp) hts
  refine ⟨fun p hs hout => hkept.not_tried hs hout, hkept, fun p hp => ?_⟩
  have hp := hkept.sources p hp
  exact ⟨relativeTo_join hroot hp.tidy, fun path hpath now e kind hkind htag =>
    mem_normalize_of_kept hroot hxroot hp hkind htag hpath⟩

/-- A project in which one name is excluded. The watch starts with the other source, a file of that
name appears, and the source that is tracked changes: it is not lost, and the excluded one is never
tried. -/
theorem keeps_excluded_out_named :
    let x : Executor Unit := .steady (.ofString "/p") .ts
    let source : Path := .ofString "vendor/keep.civet"
    let event : WatcherEvent := ⟨.modify, [x.root.join source]⟩
    ∃ excludes found,
      Excludes.ofPatterns x.root ["made.civet"] = .ok excludes ∧
      Discovery.sources vendorDisk x.root excludes = .ok found ∧
      excludes.isExcluded (.ofString "vendor/made.civet") false = .ok true ∧
      ∃ ts : List (Turn Unit), ts ≠ [] ∧ (∀ t ∈ ts, Heard x.root excludes found t) ∧
        source ∈ (recorded x ⟨.ts, false, false⟩ 0 () ts).session.sources.paths ∧
        ¬Tried x (recorded x ⟨.ts, false, false⟩ 0 () ts) (.ofString "vendor/made.civet") ∧
        ∃ changes, event.normalize vendorDisk x.root excludes = .ok changes ∧
          ⟨.change, source⟩ ∈ changes := by
  intro x source event
  have hrun : (Excludes.ofPatterns x.root ["made.civet"]).toOption.map
      (fun excludes => (Discovery.sources vendorDisk x.root excludes,
        event.normalize vendorDisk x.root excludes,
        excludes.isExcluded (.ofString "vendor/made.civet") false)) =
      some (.ok [source], .ok [⟨.change, source⟩], .ok true) := by decide +kernel
  cases hx : Excludes.ofPatterns x.root ["made.civet"] with
  | error e =>
    rw [hx] at hrun
    cases hrun
  | ok excludes =>
    rw [hx] at hrun
    obtain ⟨hfound, hrun⟩ := Prod.mk.inj (Option.some.inj hrun)
    obtain ⟨hevent, hout⟩ := Prod.mk.inj hrun
    let ts : List (Turn Unit) :=
      [.call (.start [source] 0), .outside id, .call (.handle ⟨.change, source⟩ 1)]
    have hts : ∀ t ∈ ts, Heard x.root excludes [source] t := by
      simp only [ts, List.forall_mem_cons]
      exact ⟨rfl, trivial, ⟨_, event, _, hevent, .head _⟩, by simp⟩
    have hmem : source ∈ (recorded x ⟨.ts, false, false⟩ 0 () ts).session.sources.paths := by
      decide +kernel
    have htree : vendorDisk.stat (.ofString "/p") = .ok vendorTree := rfl
    obtain ⟨hnever, -, hlast⟩ := keeps_excluded_out hx (by decide) htree proper_vendorTree hfound
      ⟨.ts, false, false⟩ 0 () hts
    obtain ⟨hself, hkept⟩ := hlast source hmem
    exact ⟨_, _, rfl, hfound, hout, ts, by simp [ts], hts, hmem, hnever _ (by decide) hout,
      hkept _ hself vendorDisk event .change (by decide) (.head _)⟩

end Run

end ArtifactSync
