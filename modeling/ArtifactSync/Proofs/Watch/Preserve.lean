import ArtifactSync.Proofs.Watch.Frame

/-!
# What a session keeps true of a world

A session reaches the world through few kinds of calls on files: it reads, it makes directories, it
writes outputs behind their headers and side files, and it removes outputs of sources that it drops.
What each of these keeps true (`Executor.Preserves`) stays true through every call on the session
(`preserves_call`). So a property of worlds is shown to survive a session call by call on files, and
how the session goes about it is opened only here.
-/

namespace ArtifactSync

open Path Artifact

variable {σ : Type}

/-- What the calls on files of a session keep true of a world, when it builds and drops only certain
sources. -/
structure Executor.Preserves (x : Executor σ) (builds drops : Path → Prop) (holds : σ → Prop) :
    Prop where
  read : ∀ p s, holds s → holds (x.files.read p s).2
  createDirs : ∀ p s, holds s → holds (x.files.createDirs p s).2
  compile : ∀ text p s, holds s → holds (x.compiler text p s).2
  /-- An output is written behind the header of its source. -/
  output : ∀ p compiled s, builds p → holds s →
    holds (x.files.write (x.root.join (x.outputFor p)) (withHeader p compiled) s).2
  sideFile : ∀ (k : SideFileKind) text s, holds s →
    holds (x.files.write (k.pathIn x.root) text s).2
  remove : ∀ p s, drops p → holds s →
    holds (x.files.remove (x.root.join (x.outputFor p)) s).2

namespace Run

/-- A call makes a session drop a source: it was tracked and is not any more, and the call said that
the source, or something above it, is gone. -/
structure Dropped (r r' : Run σ) (c : SessionCall) (p : Path) : Prop where
  source : isSource p = true
  tracked : r.session.sources.contains p = true
  untracked : r'.session.sources.contains p = false
  told : ∃ change now, c = .handle change now ∧ p.startsWith change.path = true

section Preserves

variable {x : Executor σ} {builds drops : Path → Prop} {holds : σ → Prop}
  (h : x.Preserves builds drops holds)
include h

/-- A build keeps what its calls keep. -/
theorem preserves_build {source : Path} (hsource : builds source) {s : σ} (hs : holds s) :
    holds (x.build source s).2 := by
  have hread := h.read (x.root.join source) s hs
  unfold Executor.build
  split
  · next hr => rwa [hr] at hread
  · next text s₁ hr =>
    rw [hr] at hread
    have hcompiled := h.compile text source s₁ hread
    split
    · next hc => rwa [hc] at hcompiled
    · next compiled s₂ hc =>
      rw [hc] at hcompiled
      have hwritten := h.output source compiled s₂ hsource hcompiled
      dsimp only
      split
      · next hw => rwa [hw] at hwritten
      · next hw => rwa [hw] at hwritten

/-- So does a build that is reported. -/
theorem preserves_of_build {r r' : Run σ} {source : Path} {trigger : Trigger}
    {output : Option Path} (hb : r.build x source trigger = (output, r')) (hsource : builds source)
    (hr : holds r.world) : holds r'.world := by
  rw [(world_of_build hb).1]
  exact preserves_build h hsource hr

/-- So do builds one after another. -/
theorem preserves_buildAll {sources : List Path} (hsources : ∀ p ∈ sources, builds p) {r : Run σ}
    (hr : holds r.world) : holds (buildAll x sources r).2.2.world := by
  induction sources generalizing r with
  | nil => exact hr
  | cons source rest ih =>
    obtain ⟨hsource, hrest⟩ := List.forall_mem_cons.mp hsources
    rcases hb : r.build x source .initial with ⟨_ | output, r'⟩
    · have hr' : holds r'.world := preserves_of_build h hb hsource hr
      simp only [buildAll, hb]
      exact ih hrest hr'
    · have hr' : holds r'.world := preserves_of_build h hb hsource hr
      simp only [buildAll, hb]
      exact ih hrest hr'

/-- Dropping sources keeps what its calls keep. -/
theorem preserves_foldl_onUnlink {gone : List Path} (hgone : ∀ p ∈ gone, drops p) (now : Nat)
    {r : Run σ} (hr : holds r.world) : holds (gone.foldl (onUnlink x now) r).world := by
  induction gone generalizing r with
  | nil => exact hr
  | cons source rest ih =>
    obtain ⟨hsource, hrest⟩ := List.forall_mem_cons.mp hgone
    refine ih hrest ?_
    have hworld : (onUnlink x now r source).world =
        (x.removeOutput (x.outputFor source) r.world).2 := deleteOutput_world _ _ _
    rw [hworld]
    exact h.remove source r.world hsource hr

/-- Attempts on side files keep what their calls keep. -/
theorem preserves_rewrites {f : SideFiles} (hf : ∀ k, (f.get k).path = k.pathIn x.root)
    (take : Debouncer PathSet → Option PathSet × Debouncer PathSet) {s : σ} (hs : holds s) :
    holds (SideFiles.worldBehind x.files s (f.rewrites x.files take s)) := by
  refine SideFiles.rewrites_induction x.files take (fun _ s => holds s) f s
    (fun done a ha hdone => ?_) [] hs
  obtain ⟨k, hfile, -⟩ := SideFiles.mem_rewrites ha
  have hpath : a.file.path = k.pathIn x.root := by
    rw [hfile, SideFiles.get_taken]
    exact hf k
  refine SideFile.writeNow_keeps h.createDirs h.read (fun text s hs => ?_) hdone a.outputs
  rw [hpath]
  exact h.sideFile k text s hs

/-- A change keeps what its calls keep. -/
theorem preserves_handle {r : Run σ} (change : Change) (now : Nat)
    (hsources : ∀ p ∈ r.session.sources.paths, isSource p = true)
    (hbuilds : isSource change.path = true → builds change.path)
    (hdrops : ∀ p, Dropped r (r.handle x change now).2 (.handle change now) p → drops p)
    (hr : holds r.world) : holds (r.handle x change now).2.world := by
  have hhandled := handled x change now r
  generalize r.handle x change now = answer at hhandled hdrops ⊢
  obtain ⟨outcome, r'⟩ := answer
  dsimp only at hhandled hdrops ⊢
  have huntracked (gone : List Path) (p : Path) (hp : p ∈ gone) :
      (gone.foldl (onUnlink x now) r).session.sources.contains p = false :=
    PathSet.contains_eq_false_iff.mpr fun q hq => (mem_foldl_onUnlink_iff.mp hq).2 p hp
  cases hhandled with
  | ignored => exact hr
  | failed trigger watching source build => exact preserves_of_build h build (hbuilds source) hr
  | @added r' appeared watching source fresh build =>
    have hr' : holds r'.world := preserves_of_build h build (hbuilds source) hr
    exact hr'
  | rebuilt watching source tracked build listed =>
    exact preserves_of_build h build (hbuilds source) hr
  | @mended r' watching source tracked build unlisted =>
    have hr' : holds r'.world := preserves_of_build h build (hbuilds source) hr
    exact hr'
  | removed watching source tracked =>
    have hself : change.path.startsWith change.path = true := by
      simp [startsWith]
    have hgone : ∀ p ∈ [change.path], drops p := by
      rw [List.forall_mem_singleton]
      exact hdrops _ ⟨source, tracked, huntracked [change.path] _ (List.mem_singleton_self _), _, _,
        rfl, hself⟩
    exact preserves_foldl_onUnlink h hgone now hr
  | removedBelow watching named untracked =>
    refine preserves_foldl_onUnlink h (fun p hp => ?_) now hr
    obtain ⟨hmem, hbelow⟩ := List.mem_filter.mp hp
    exact hdrops p ⟨hsources p hmem, PathSet.contains_of_mem hmem, huntracked _ p hp, _, _, rfl,
      hbelow⟩

/-- A call on a session keeps what its calls on files keep. -/
theorem preserves_call {mode : Mode} {quiet : Nat} {r : Run σ} {c : SessionCall}
    (hr : Regular x.root mode quiet r) (hinitial : ∀ p ∈ c.initial, isSource p = true)
    (hbuilds : ∀ p ∈ c.paths, isSource p = true → builds p)
    (hdrops : ∀ p, Dropped r (r.call x c) c p → drops p) (hs : holds r.world) :
    holds (r.call x c).world := by
  have hsideFiles (k : SideFileKind) : (r.session.sideFiles.get k).path = k.pathIn x.root :=
    (hr.ready.isOf k).path
  cases c with
  | start sources now =>
    simp only [call, start]
    by_cases hidle : r.session.phase = .idle
    · simp only [hidle, ne_eq, not_true_eq_false, if_false]
      exact preserves_buildAll h (fun p hp => hbuilds p hp (hinitial p hp)) hs
    · simp only [hidle, ne_eq, not_false_eq_true, if_true]
      exact hs
  | handle change now =>
    exact preserves_handle h change now hr.sources (hbuilds _ (by simp [SessionCall.paths])) hdrops
      hs
  | tick now =>
    simp only [call, tick, SideFiles.poll_eq, reportSyncs_world]
    exact preserves_rewrites h hsideFiles _ hs
  | close =>
    by_cases hclosed : r.session.phase = .closed
    · simp only [call, close, if_pos hclosed]
      exact hs
    · simp only [call, close, if_neg hclosed, SideFiles.flush_eq, enter, emit, reportSyncs_world]
      exact preserves_rewrites h hsideFiles _ hs

end Preserves

end Run

end ArtifactSync
