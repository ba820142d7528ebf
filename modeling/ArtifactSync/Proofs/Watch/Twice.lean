import ArtifactSync.Proofs.Build.Again
import ArtifactSync.Proofs.Watch.Independent
import ArtifactSync.Proofs.Watch.Mirror

/-!
# Changes that come twice

Watchers report a change more than once, so to handle it again right away should come to nothing: the
session and the world are left as they are. A source that is gone is not tracked any more, and no
tracked source lies below it (`unlink_twice`); a source that was built is settled, if its build may be
repeated (`Executor.Repeats`). In memory every build may be, since no output takes the place of a
source (`repeats_overMemory`).

On a disk a source may be a link. Where it leads to the place of its own output, a build replaces the
text that the next build reads (`ReadsOwnOutput`), and the output is compiled as if it was the source.
So a change that comes twice comes to nothing unless it has such a source built (`handle_twice_iff`). A
source that is a file itself is none of those.
-/

namespace ArtifactSync

open Path Artifact

/-- To build a source again right after a build leaves the world as that build left it. A build that
fails leaves it alone. -/
structure Executor.Repeats {σ : Type} (x : Executor σ) (source : Path) (s : σ) : Prop where
  failed : ∀ e s', x.build source s = (.error e, s') → s' = s
  built : ∀ o s', x.build source s = (.ok o, s') → (x.build source s').2 = s'

/-- A build that fails and leaves the world alone may be repeated. -/
theorem Executor.repeats_of_error {σ : Type} {x : Executor σ} {source : Path} {s : σ}
    (h : ∃ e, x.build source s = (.error e, s)) : x.Repeats source s := by
  obtain ⟨e, he⟩ := h
  constructor
  · intro e' s' h
    exact (Prod.mk.inj (he.symm.trans h)).2.symm
  · intro o s' h
    cases (Prod.mk.inj (he.symm.trans h)).1

namespace Run

/-! ## Any executor -/

section Handled

variable {σ : Type} {x : Executor σ} {r : Run σ} {c : Change}

/-- No tracked source lies below another one. -/
def Flat (r : Run σ) : Prop :=
  ∀ s ∈ r.session.sources.paths, ∀ t ∈ r.session.sources.paths, s.startsWith t = true →
    s.same t = true

/-- A session that tracks one source is among those. -/
theorem exists_flat (source : Path) (s : σ) : ∃ r : Run σ, r.world = s ∧
    r.session.phase = .watching ∧ r.Flat ∧ r.session.sources.contains source = true := by
  refine ⟨⟨⟨PathSet.empty.insert source, .empty, .new source false false 0, .watching⟩, s, []⟩,
    rfl, rfl, ?_, PathSet.contains_insert.mpr (.inl (same_refl _))⟩
  intro a ha b hb _
  obtain rfl : a = source := List.mem_singleton.mp ha
  obtain rfl : b = a := List.mem_singleton.mp hb
  exact same_refl _

/-- Where no tracked source lies at or below a path, it may disappear. -/
theorem handle_unlink_of_below (hkind : c.kind = .unlink) (h : r.below c.path = []) (now : Nat) :
    (r.handle x c now).2 = r := by
  have huntracked : r.session.sources.contains c.path = false := by
    refine PathSet.contains_eq_false_iff.mpr fun s hs => ?_
    by_contra hsame
    rw [Bool.not_eq_false] at hsame
    have hbelow : s.startsWith c.path = true := by
      rw [startsWith, same_iff.mp hsame]
      exact List.isPrefixOf_iff_prefix.mpr (List.prefix_refl _)
    exact absurd h (List.ne_nil_of_mem (List.mem_filter.mpr ⟨hs, hbelow⟩))
  have hnone : (if c.path.chars = [] then [] else r.session.sources.paths.filter
      (·.startsWith c.path)) = [] := by
    split
    · rfl
    · exact h
  unfold handle
  split
  · rfl
  · simp [hkind, huntracked, onUnlinkTree, hnone]

/-- What disappears is no business of the session, or it is dropped with all that lies below it. -/
theorem handle_unlink_cases (hkind : c.kind = .unlink) (x : Executor σ) (r : Run σ) (now : Nat) :
    (r.handle x c now).2 = r ∨
      (r.session.sources.contains c.path = true ∧
        (r.handle x c now).2 = onUnlink x now r c.path) ∨
      (r.handle x c now).2 = (r.below c.path).foldl (onUnlink x now) r := by
  unfold handle
  split
  · exact .inl rfl
  simp only [hkind]
  cases htracked : r.session.sources.contains c.path with
  | true =>
    cases isSource c.path with
    | true => exact .inr (.inl ⟨rfl, rfl⟩)
    | false => exact .inl rfl
  | false =>
    simp only [Bool.not_false, if_true, onUnlinkTree]
    split
    · exact .inl rfl
    · split
      · exact .inl rfl
      · exact .inr (.inr rfl)

/-- What disappears twice is gone after the first time. -/
theorem unlink_twice (flat : r.Flat) (hkind : c.kind = .unlink) (now : Nat) :
    ((r.handle x c now).2.handle x c now).2 = (r.handle x c now).2 := by
  rcases handle_unlink_cases hkind x r now with hsame | ⟨htracked, hdropped⟩ | hdropped
  · rw [hsame, hsame]
  · rw [hdropped]
    refine handle_unlink_of_below hkind (List.filter_eq_nil_iff.mpr fun s hs hbelow => ?_) now
    rw [onUnlink_session] at hs
    obtain ⟨hs, hne⟩ := PathSet.mem_erase.mp hs
    -- what lies below a tracked source is that source
    obtain ⟨t, ht, htsame⟩ := PathSet.contains_iff.mp htracked
    have hst : s.same t = true := flat s hs t ht (by rwa [startsWith, same_iff.mp htsame])
    rw [same_trans hst htsame] at hne
    cases hne
  · rw [hdropped]
    refine handle_unlink_of_below hkind (List.filter_eq_nil_iff.mpr fun s hs hbelow => ?_) now
    obtain ⟨hs, hne⟩ := mem_foldl_onUnlink_iff.mp hs
    have hself := hne s (List.mem_filter.mpr ⟨hs, hbelow⟩)
    rw [same_refl] at hself
    cases hself

/-- A source that is added is settled, if its build may be repeated. -/
theorem settled_handle_add (watching : r.session.phase = .watching) {source : Path}
    (repeats : isSource source = true → x.Repeats source r.world) (now : Nat) :
    Settled x (r.handle x ⟨.add, source⟩ now).2 source := by
  intro hs
  have hadded := addedTo_handle watching x source now
  generalize (r.handle x ⟨.add, source⟩ now).2 = r' at hadded ⊢
  cases hadded with
  | ignored other same =>
    rw [hs] at other
    cases other
  | failed named e build session =>
    have hworld := (repeats hs).failed e _ build
    rw [hworld] at build ⊢
    exact .inl ⟨e, build⟩
  | built named build sources outputs known =>
    have hworld := (repeats hs).built _ _ build
    rcases hagain : x.build source r'.world with ⟨e | output, s⟩
    · rw [hagain] at hworld
      exact .inl ⟨e, by rw [← hworld]⟩
    · obtain rfl := Executor.build_ok hagain
      rw [hagain] at hworld
      refine .inr ⟨by rw [← hworld], ?_, ?_⟩
      · rw [sources, PathSet.contains_insert]
        exact .inl (same_refl _)
      · rw [outputs, PathSet.contains_insert]
        exact .inl (same_refl _)

/-- A source that changes is added again if it is tracked, and ignored otherwise. -/
theorem handle_change (x : Executor σ) (r : Run σ) (source : Path) (now : Nat) :
    r.handle x ⟨.change, source⟩ now =
      if r.session.sources.contains source = true then r.handle x ⟨.add, source⟩ now
      else (.ignored, r) := by
  unfold handle
  split
  · split <;> rfl
  · cases isSource source <;> cases r.session.sources.contains source <;> rfl

/-- A source that is added is built. -/
theorem world_handle_add (watching : r.session.phase = .watching) (x : Executor σ) {source : Path}
    (hs : isSource source = true) (now : Nat) :
    (r.handle x ⟨.add, source⟩ now).2.world = (x.build source r.world).2 := by
  cases addedTo_handle watching x source now with
  | ignored other same =>
    rw [hs] at other
    cases other
  | failed named e build session => rw [build]
  | built named build sources outputs known => rw [build]

/-- It stays tracked if it was. -/
theorem tracked_handle_add (watching : r.session.phase = .watching) (x : Executor σ) {source : Path}
    (htracked : r.session.sources.contains source = true) (now : Nat) :
    (r.handle x ⟨.add, source⟩ now).2.session.sources.contains source = true := by
  cases addedTo_handle watching x source now with
  | ignored other same => rwa [same]
  | failed named e build session => rwa [session]
  | built named build sources outputs known => rwa [sources, PathSet.insert_of_contains htracked]

/-- Where a change of a tracked source may come twice, its build leaves the world as the build before
did. -/
theorem build_world_of_alike (watching : r.session.phase = .watching)
    (hs : isSource c.path = true) (htracked : r.session.sources.contains c.path = true)
    (hkind : c.kind ≠ .unlink) {now : Nat}
    (h : Alike (r.handle x c now).2 ((r.handle x c now).2.handle x c now).2) :
    (x.build c.path (x.build c.path r.world).2).2 = (x.build c.path r.world).2 := by
  have hadd {r : Run σ} (htracked : r.session.sources.contains c.path = true) :
      r.handle x c now = r.handle x ⟨.add, c.path⟩ now := by
    obtain ⟨kind, source⟩ := c
    cases kind with
    | unlink => exact absurd rfl hkind
    | add => rfl
    | change => rw [handle_change, if_pos htracked]
  have hworld := h.world
  rw [hadd htracked, hadd (tracked_handle_add watching x htracked now)] at hworld
  rwa [world_handle_add (by rw [phase_handle, watching]) x hs, world_handle_add watching x hs]
    at hworld

/-- A change that is handled twice comes to what it came to the first time, if it has no source built
whose build may not be repeated. -/
theorem alike_twice (flat : r.Flat)
    (repeats : c.kind ≠ .unlink → isSource c.path = true → x.Repeats c.path r.world) (now : Nat) :
    Alike (r.handle x c now).2 ((r.handle x c now).2.handle x c now).2 := by
  have hadd (hkind : c.kind ≠ .unlink) :
      Alike (r.handle x ⟨.add, c.path⟩ now).2
        ((r.handle x ⟨.add, c.path⟩ now).2.handle x ⟨.add, c.path⟩ now).2 := by
    by_cases watching : r.session.phase = .watching
    · exact (settled_handle_add watching (repeats hkind) now).handle
        (by rw [phase_handle, watching]) now
    · have hignored : r.handle x ⟨.add, c.path⟩ now = (.ignored, r) := if_pos watching
      rw [hignored, hignored]
      exact .refl r
  obtain ⟨kind, source⟩ := c
  cases kind with
  | unlink =>
    rw [unlink_twice flat rfl]
    exact .refl _
  | add => exact hadd (by simp)
  | change =>
    cases htracked : r.session.sources.contains source with
    | false =>
      have hignored : r.handle x ⟨.change, source⟩ now = (.ignored, r) := by
        rw [handle_change, htracked, if_neg Bool.false_ne_true]
      rw [hignored, hignored]
      exact .refl r
    | true =>
      rw [handle_change x r, htracked, if_pos rfl, handle_change]
      split
      · exact hadd (by simp)
      · exact .refl _

end Handled

end Run

/-! ## Files in memory -/

/-- Builds in memory may be repeated, since no output takes the place of a source. -/
theorem repeats_overMemory (root : Path) (kind : OutputKind)
    (compile : String → Path → Except CompileError String) {source : Path}
    (hs : isSource source = true) (m : Memory) :
    (Executor.overMemory root kind compile).Repeats source m := by
  have hbuild (m : Memory) := build_overMemory root kind compile source m
  have hm := hbuild m
  cases htext : writtenText? root kind compile source m with
  | none =>
    rw [htext] at hm
    exact Executor.repeats_of_error hm
  | some text =>
    rw [htext] at hm
    refine ⟨fun e s' h => ?_, fun o s' h => ?_⟩
    · cases (Prod.mk.inj (hm.symm.trans h)).1
    obtain rfl := (Prod.mk.inj (hm.symm.trans h)).2
    have hread : (m.put (root.join (output source kind)) text).lookup? (root.join source) =
        m.lookup? (root.join source) :=
      m.lookup_put_of_ne (join_output_ne_join hs hs kind root) text
    have htext' : writtenText? root kind compile source
        (m.put (root.join (output source kind)) text) = some text := by
      rw [← htext]
      exact writtenText_congr rfl hread
    have hagain := hbuild (m.put (root.join (output source kind)) text)
    rw [htext'] at hagain
    rw [hagain, Memory.put_put]

/-! ## Sources that lead to their outputs -/

/-- A source leads to its own output: it can be read, the output can be written, and whatever is
written there is read as the source. -/
structure ReadsOwnOutput (root : Path) (kind : OutputKind) (source : Path) (d : Disk) : Prop where
  read : ∃ text, d.readText (root.join source) = .ok text
  written : ∃ text d', d.writeText (root.join (output source kind)) text = (.ok (), d')
  leads : d.LeadsTo (root.join source) (root.join (output source kind))

section OnDisk

variable {root : Path} {kind : OutputKind}
  {compile : String → Path → Except CompileError String} {faults : Call → Option FsError}
  {source : Path} {ps : List Name} {last : Name} {d : Disk} {names : List Name} {text : String}

/-- Where a source can be read, its directory is there. -/
theorem Site.exists_dirAt (site : Site root kind source ps last)
    (hread : d.readText (root.join source) = .ok text) : ∃ names, d.dirAt ps = some names := by
  cases hat : d.dirAt ps with
  | none =>
    obtain ⟨e, he⟩ := Disk.readText_of_stat (Disk.stat_of_dirAt_none site.read.rooted
      site.read.slash site.read.pieces (List.cons_ne_nil last []) hat)
    rw [he] at hread
    cases hread
  | some names => exact ⟨names, rfl⟩

/-- Where it can be read after a build, its directory is where it was. -/
theorem Site.dirAt_of_read (site : Site root kind source ps last) (ordered : d.top.Ordered)
    (h : Builds root kind compile faults source ps last d names text) {d' : Disk}
    (hd' : d' = d.putAt names (outputName kind last) (some (built root kind source d text)))
    {read : String} (hread : d'.readText (root.join source) = .ok read) :
    d'.dirAt ps = some names := by
  obtain ⟨names', hat'⟩ := site.exists_dirAt hread
  have hlater : Disk.Later d d' := hd' ▸ site.later_of_builds ordered h
  rw [hat', ← hlater.dirAt hat', h.dirAt]

/-- A source that leads to its own output is built, if its text is left as it is. -/
theorem Site.builds_of_readsOwnOutput (site : Site root kind source ps last)
    (h : ReadsOwnOutput root kind source d) :
    ∃ content, d.readText (root.join source) = .ok content ∧ ∃ names,
      Builds root kind (fun text _ => .ok text) (fun _ => none) source ps last d names
        (withHeader source content) := by
  obtain ⟨content, hcontent⟩ := h.read
  obtain ⟨names, hat⟩ := site.exists_dirAt hcontent
  obtain ⟨text, d', hwrite⟩ := h.written
  obtain ⟨⟨hplace, hspelled⟩, -⟩ :=
    (Disk.writeText_eq_ok_iff site.written site.makes hat).mp hwrite
  exact ⟨content, hcontent, names, hat,
    textFor_eq_some_iff.mpr ⟨rfl, content, hcontent, content, rfl, rfl⟩, rfl, hplace, hspelled⟩

/-- A source that is a file leads to no output. -/
theorem Site.not_readsOwnOutput (site : Site root kind source ps last) (ordered : d.top.Ordered)
    (real : ∀ names, d.dirAt ps = some names →
      ∃ bytes mode, d.top.at? (names ++ [last]) = some (.file bytes mode)) :
    ¬ReadsOwnOutput root kind source d := by
  intro h
  obtain ⟨content, hcontent, names, hbuilds⟩ := site.builds_of_readsOwnOutput h
  have hread := h.leads _ _ (site.write_of_builds hbuilds)
  rcases (site.later_of_builds ordered hbuilds).stat_source site.read
    (Disk.isName_of_isName site.isName) site.isSource real with herror | ⟨-, -, hstat⟩
  · obtain ⟨e, he⟩ := Disk.readText_of_stat herror
    rw [he] at hread
    cases hread
  · -- it would read as before, and as the text with its header
    rw [Disk.readText_congr hstat, hcontent, Except.ok.injEq] at hread
    exact withHeader_ne source content hread.symm

variable (rooted : root.isRooted = true) (ordered : d.top.Ordered) (hs : isSource source = true)
include rooted ordered hs

/-- Where a source does not lead to its output, its build may be repeated. -/
theorem repeats_overDisk (h : ¬ReadsOwnOutput root kind source d) :
    (Executor.overDisk root kind compile faults).Repeats source d := by
  rcases exists_site_or_unread rooted hs kind with ⟨ps, last, site⟩ | hunread
  swap
  · -- what is never read is never built
    exact Executor.repeats_of_error (build_of_textFor_none (textFor_of_readText (hunread d)))
  refine ⟨fun e d' => site.eq_of_error, fun o d' hbuild => ?_⟩
  obtain rfl := Executor.build_ok hbuild
  obtain ⟨names, text, hbuilds, hd'⟩ := site.builds_of_ok hbuild
  have hwrite := site.write_of_builds hbuilds
  rw [← hd'] at hwrite
  cases hread : d'.readText (root.join source) with
  | error e =>
    have hnone : textFor? root compile faults source d' = none := textFor_of_readText ⟨e, hread⟩
    obtain ⟨e', he'⟩ :
        ∃ e', (Executor.overDisk root kind compile faults).build source d' = (.error e', d') :=
      build_of_textFor_none hnone
    rw [he']
  | ok read =>
    rcases Disk.readText_of_writeText site.written site.makes hbuilds.dirAt site.read.rooted hwrite
      hread with hsame | hleads
    · -- the same is read, so the same is written where it stands
      have hmade : textFor? root compile faults source d' = some text := by
        rw [textFor_eq_of_readText (hread.trans hsame.symm), hbuilds.made]
      rw [build_world_of_textFor hmade hbuilds.passes, (Disk.writeText_self site.written site.makes
        hbuilds.dirAt (site.dirAt_of_read ordered hbuilds hd' hread) ordered hwrite).2]
    · obtain ⟨-, content, hcontent, -⟩ := textFor_eq_some_iff.mp hbuilds.made
      exact absurd ⟨⟨content, hcontent⟩, ⟨text, d', hwrite⟩, hleads⟩ h

/-- Where it does, a second build puts one more header in front of a text that is left as it is. -/
theorem build_ne (h : ReadsOwnOutput root kind source d) :
    let x := Executor.overDisk root kind (fun text _ => .ok text) fun _ => none
    (x.build source (x.build source d).2).2 ≠ (x.build source d).2 := by
  rcases exists_site_or_unread rooted hs kind with ⟨ps, last, site⟩ | hunread
  swap
  · obtain ⟨text, htext⟩ := h.read
    obtain ⟨e, he⟩ := hunread d
    rw [he] at htext
    cases htext
  obtain ⟨content, -, names, hbuilds⟩ := site.builds_of_readsOwnOutput h
  have hwrite := site.write_of_builds hbuilds
  generalize hd' : d.putAt names (outputName kind last)
    (some (built root kind source d (withHeader source content))) = d' at hwrite
  have hread := h.leads _ _ hwrite
  have hmade : textFor? root (fun text _ => .ok text) (fun _ => none) source d' =
      some (withHeader source (withHeader source content)) :=
    textFor_eq_some_iff.mpr ⟨rfl, _, hread, _, rfl, rfl⟩
  intro x hsecond
  rw [site.build_of_builds hbuilds, hd', build_world_of_textFor hmade rfl] at hsecond
  have hsame := (Disk.writeText_over site.written site.makes hbuilds.dirAt
    (site.dirAt_of_read ordered hbuilds hd'.symm hread) ordered hwrite _).2 hsecond
  exact withHeader_ne source _ hsame

end OnDisk

namespace Run

/-- A change that comes twice comes to what it came to the first time, whatever fails: in memory
always, and on a disk unless it has a source built that leads to its own output. A source that stands
in the project as a file does not. -/
theorem handle_twice_iff (root : Path) (kind : OutputKind) (c : Change) :
    (∀ (compile : String → Path → Except CompileError String) (r : Run Memory) (now : Nat), r.Flat →
      let x := Executor.overMemory root kind compile
      Alike (r.handle x c now).2 ((r.handle x c now).2.handle x c now).2) ∧
    ∀ d : Disk, root.isRooted = true → d.top.Ordered →
      ((∀ (compile : String → Path → Except CompileError String) (faults : Call → Option FsError)
        (r : Run Disk) (now : Nat), r.world = d → r.Flat →
          let x := Executor.overDisk root kind compile faults
          Alike (r.handle x c now).2 ((r.handle x c now).2.handle x c now).2) ↔
        ¬(c.kind ≠ .unlink ∧ isSource c.path = true ∧ ReadsOwnOutput root kind c.path d)) ∧
      ∀ front base dirs last, Stands d root front base c.path dirs last →
        isSource c.path = true → ¬ReadsOwnOutput root kind c.path d := by
  refine ⟨fun compile r now flat => ?_, fun d rooted ordered =>
    ⟨⟨?_, ?_⟩, fun front base dirs last hstands hs => ?_⟩⟩
  · exact alike_twice flat (fun _ hs => repeats_overMemory root kind compile hs r.world) now
  · rintro htwice ⟨hkind, hs, hreads⟩
    obtain ⟨r, rfl, watching, flat, htracked⟩ := exists_flat c.path d
    exact build_ne rooted ordered hs hreads (build_world_of_alike watching hs htracked hkind
      (htwice _ _ r 0 rfl flat))
  · rintro hnot compile faults r now rfl flat
    exact alike_twice flat (fun hkind hs => repeats_overDisk rooted ordered hs
      fun hreads => hnot ⟨hkind, hs, hreads⟩) now
  · have site := hstands.site rooted hs kind
    exact site.not_readsOwnOutput ordered (hstands.real (.refl ordered) site.isSource)

end Run

/-- A project with a source that is a link to its own output. -/
def ownOutputDisk : Disk :=
  ⟨.dir [("p".toList, .dir [("a.civet".toList, .link "a.ts".toList),
    ("a.ts".toList, .file [120] 0o644)] 0o755)] 0o755, []⟩

/-- When a session is told twice that this source was added, it compiles the output that it has
written the first time. -/
theorem Run.not_alike_linked :
    let x := Executor.overDisk (.ofString "/p") .ts (fun text _ => .ok text) fun _ => none
    let r := start ⟨.new (.new (.ofString "/p") false false 0), ownOutputDisk, []⟩ x [] 0
    r.session.phase = .watching ∧ r.Flat ∧
      ¬Alike (r.handle x ⟨.add, .ofString "a.civet"⟩ 1).2
        ((r.handle x ⟨.add, .ofString "a.civet"⟩ 1).2.handle x ⟨.add, .ofString "a.civet"⟩ 1).2 := by
  intro x r
  refine ⟨rfl, fun s hs => absurd hs (List.not_mem_nil), fun halike => ?_⟩
  have hread := congrArg (fun d : Disk => (d.readText (.ofString "/p/a.ts")).toOption) halike.world
  revert hread
  decide +kernel

end ArtifactSync
