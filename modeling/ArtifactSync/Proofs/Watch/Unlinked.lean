import ArtifactSync.Proofs.Path.Inner
import ArtifactSync.Proofs.Path.SetEdit
import ArtifactSync.Proofs.Watch.Log
import Mathlib.Data.List.Forall2

/-!
# What disappears

A path that disappears takes tracked sources with it (`Run.lost`): itself if it is tracked, and
otherwise the sources properly below it. `Run.handle_unlink_eq` says that these are dropped one after
another, and the sections behind it say what that does to the two sets and to the files.

A tracked source is dropped in the spelling of the change, and its output is the one of that
spelling. Nearly always that is the output of the spelling that is tracked, too, and then what
disappears takes exactly what it should (`UnlinksExactly`). The one exception is the file name
`..civet` (`unlinksExactly_iff`, `not_unlinksExactly_dotName`).
-/

namespace ArtifactSync

open Path Artifact

variable {σ : Type}

namespace Run

/-! ## What is lost -/

/-- Whether a source is lost when a path disappears: if the path is tracked, that one alone, and
otherwise every source properly below it. -/
def Loses (r : Run σ) (p s : Path) : Prop :=
  if r.session.sources.contains p then s.same p = true
  else p.chars ≠ [] ∧ p.components <+: s.components ∧ p.components ≠ s.components

instance (r : Run σ) (p s : Path) : Decidable (r.Loses p s) :=
  inferInstanceAs (Decidable (if r.session.sources.contains p then s.same p = true
    else p.chars ≠ [] ∧ p.components <+: s.components ∧ p.components ≠ s.components))

/-- The tracked sources that are lost when a path disappears, in the order of the set. -/
def lost (r : Run σ) (p : Path) : List Path :=
  r.session.sources.paths.filter fun s => r.Loses p s

/-- The same sources as they are dropped: a tracked path in its own spelling. -/
def dropped (r : Run σ) (p : Path) : List Path :=
  if r.session.sources.contains p then [p] else r.lost p

section Lost

variable {x : Executor σ} {r : Run σ} {p : Path}

/-- The sources that are lost are in the order of the set. -/
theorem lost_increasing (r : Run σ) (p : Path) : (r.lost p).Pairwise Path.before :=
  r.session.sources.increasing.filter _

/-- What is lost was tracked. -/
theorem mem_of_mem_lost {s : Path} (h : s ∈ r.lost p) : s ∈ r.session.sources.paths :=
  (List.mem_filter.mp h).1

/-- What is dropped are the sources that are lost, one for one. -/
theorem lost_dropped (r : Run σ) (p : Path) : List.Forall₂
    (fun s t => s ∈ r.session.sources.paths ∧ s.same t = true ∧ (t = s ∨ t = p))
    (r.lost p) (r.dropped p) := by
  cases htracked : r.session.sources.contains p with
  | false =>
    rw [dropped, htracked]
    exact List.forall₂_same.mpr fun s hs => ⟨mem_of_mem_lost hs, same_refl s, .inl rfl⟩
  | true =>
    rw [dropped, htracked, if_pos rfl]
    obtain ⟨s, hs, hsame⟩ := PathSet.contains_iff.mp htracked
    have hall : ∀ t ∈ r.lost p, t.same p = true := by
      intro t ht
      simpa [Loses, htracked] using (List.mem_filter.mp ht).2
    have hmem : s ∈ r.lost p := List.mem_filter.mpr ⟨hs, by simpa [Loses, htracked] using hsame⟩
    -- a set holds one spelling of a path
    have hone : ∀ t ∈ r.lost p, t = s := fun t ht =>
      PathSet.eq_of_same (mem_of_mem_lost ht) hs (same_trans (hall t ht) (by rwa [same_comm]))
    have hincreasing := lost_increasing r p
    rcases hlost : r.lost p with _ | ⟨t, _ | ⟨u, rest⟩⟩
    · rw [hlost] at hmem
      cases hmem
    · rw [hlost] at hone
      obtain rfl : t = s := hone t (List.mem_singleton_self t)
      exact .cons ⟨hs, hsame, .inr rfl⟩ .nil
    · rw [hlost] at hone hincreasing
      have hbefore : t.before u := (List.pairwise_cons.mp hincreasing).1 u (by simp)
      rw [hone t (by simp), hone u (by simp)] at hbefore
      exact absurd hbefore (not_before_of_same (same_refl s))

/-- What is dropped is tracked, and no path twice. -/
theorem dropped_distinct (r : Run σ) (p : Path) :
    (∀ t ∈ r.dropped p, r.session.sources.contains t = true) ∧
      (r.dropped p).Pairwise fun s t => s.same t = false := by
  unfold dropped
  split
  · next htracked => exact ⟨by simpa using htracked, List.pairwise_singleton _ _⟩
  · refine ⟨fun t ht => PathSet.contains_of_mem (mem_of_mem_lost ht),
      (lost_increasing r p).imp fun {s t} hbefore => ?_⟩
    by_contra hsame
    rw [Bool.not_eq_false] at hsame
    exact not_before_of_same hsame hbefore

/-- A source is lost if it is dropped under some spelling. -/
theorem loses_iff {s : Path} (hs : s ∈ r.session.sources.paths) :
    r.Loses p s ↔ ∃ t ∈ r.dropped p, s.same t = true := by
  unfold dropped
  cases htracked : r.session.sources.contains p with
  | true => simp [Loses, htracked]
  | false =>
    simp only [Bool.false_eq_true, if_false]
    constructor
    · intro h
      exact ⟨s, List.mem_filter.mpr ⟨hs, by simpa using h⟩, same_refl s⟩
    · rintro ⟨t, ht, hst⟩
      obtain ⟨ht, hloses⟩ := List.mem_filter.mp ht
      rw [PathSet.eq_of_same hs ht hst]
      simpa using hloses

/-- What disappears is dropped with all that is lost. -/
theorem handle_unlink_eq (x : Executor σ) (watching : r.session.phase = .watching)
    (hsources : ∀ s ∈ r.session.sources.paths, isSource s = true) (p : Path) (now : Nat) :
    r.handle x ⟨.unlink, p⟩ now =
      if r.lost p = [] then (.ignored, r) else (.removed, (r.dropped p).foldl (onUnlink x now) r) := by
  have hlength := (lost_dropped r p).length_eq
  cases htracked : r.session.sources.contains p with
  | true =>
    have hsource : isSource p = true := by
      obtain ⟨s, hs, hsame⟩ := PathSet.contains_iff.mp htracked
      rw [← isSource_eq_of_same hsame, hsources s hs]
    have hdropped : r.dropped p = [p] := by rw [dropped, htracked, if_pos rfl]
    have hlost : r.lost p ≠ [] := by
      intro hnil
      rw [hnil, hdropped] at hlength
      cases hlength
    rw [if_neg hlost, hdropped]
    simp [handle, watching, htracked, hsource]
  | false =>
    have hdropped : r.dropped p = r.lost p := by
      rw [dropped, htracked]
      rfl
    -- a path that is not tracked has only sources properly below it
    have hlost : r.lost p =
        if p.chars = [] then [] else r.session.sources.paths.filter (·.startsWith p) := by
      split
      · next hempty => simp [lost, Loses, htracked, hempty]
      · next hne =>
        refine List.filter_congr fun s hs => ?_
        have hother : p.components ≠ s.components := by
          intro hsame
          have hfalse := PathSet.contains_eq_false_iff.mp htracked s hs
          rw [same_iff.mpr hsame.symm] at hfalse
          cases hfalse
        rw [Bool.eq_iff_iff, decide_eq_true_iff, startsWith_iff]
        simp [Loses, htracked, hne, hother]
    rw [hdropped]
    simp [handle, watching, htracked, onUnlinkTree, ← hlost]

/-- The run once a path has disappeared. -/
def unlinked (x : Executor σ) (now : Nat) (r : Run σ) (p : Path) : Run σ :=
  (r.handle x ⟨.unlink, p⟩ now).2

/-- It has dropped what is lost. -/
theorem unlinked_eq (x : Executor σ) (watching : r.session.phase = .watching)
    (hsources : ∀ s ∈ r.session.sources.paths, isSource s = true) (p : Path) (now : Nat) :
    r.unlinked x now p = (r.dropped p).foldl (onUnlink x now) r := by
  rw [unlinked, handle_unlink_eq x watching hsources]
  split
  · next hlost =>
    have hlength := (lost_dropped r p).length_eq
    rw [hlost, List.length_nil, eq_comm, List.length_eq_zero_iff] at hlength
    rw [hlength, List.foldl_nil]
  · rfl

/-- Sources that disappear one by one are dropped one by one. -/
theorem foldl_unlinked {gone : List Path} (watching : r.session.phase = .watching)
    (hsources : ∀ s ∈ r.session.sources.paths, isSource s = true)
    (htracked : ∀ t ∈ gone, r.session.sources.contains t = true)
    (hdistinct : gone.Pairwise fun s t => s.same t = false) (now : Nat) :
    gone.foldl (unlinked x now) r = gone.foldl (onUnlink x now) r := by
  induction gone generalizing r with
  | nil => rfl
  | cons t rest ih =>
    have hfirst : r.unlinked x now t = onUnlink x now r t := by
      have hdropped : r.dropped t = [t] := by rw [dropped, if_pos (htracked t (by simp))]
      rw [unlinked_eq x watching hsources, hdropped, List.foldl_cons, List.foldl_nil]
    obtain ⟨hother, hrest⟩ := List.pairwise_cons.mp hdistinct
    rw [List.foldl_cons, List.foldl_cons, hfirst]
    -- the others are still tracked once the first is dropped
    refine ih ?_ ?_ ?_ hrest
    · rw [onUnlink_session]
      exact watching
    · intro s hs
      rw [onUnlink_session] at hs
      exact hsources s (PathSet.mem_erase.mp hs).1
    · intro u hu
      rw [onUnlink_session, PathSet.contains_erase]
      exact ⟨htracked u (List.mem_cons_of_mem t hu), by rw [hother u hu]⟩

end Lost

/-- Of every source that is dropped the output is deleted, or tried to be. -/
theorem did_foldl_onUnlink (x : Executor σ) (now : Nat) (gone : List Path) (r : Run (Logged σ)) :
    ∃ new, x.Did new r.world (gone.foldl (onUnlink x.logged now) r).world ∧
      new.map (·.call) = gone.map fun t => .remove (x.root.join (x.outputFor t)) := by
  induction gone generalizing r with
  | nil => exact ⟨[], .nil x _, rfl⟩
  | cons t rest ih =>
    have hworld : (onUnlink x.logged now r t).world =
        (x.logged.removeOutput (x.outputFor t) r.world).2 := deleteOutput_world _ _ _
    have hfirst := x.did_remove (x.root.join (x.outputFor t)) r.world
    obtain ⟨new, hdid, hnew⟩ := ih (onUnlink x.logged now r t)
    rw [hworld] at hdid
    exact ⟨_, hfirst.append hdid, by rw [List.map_append, hnew]; rfl⟩

/-! ## Nothing more and nothing less -/

/-- What disappears takes the sources with it that it should, with their outputs, and nothing
else. -/
structure UnlinksExactly (x : Executor σ) (r : Run (Logged σ)) (p : Path) (now : Nat) : Prop where
  sources : (r.unlinked x.logged now p).session.sources =
    r.session.sources.filter fun s => !r.Loses p s
  outputs : (r.unlinked x.logged now p).session.outputs =
    r.session.outputs.filter fun o => (r.lost p).all fun s => !(x.outputFor s).same o
  phase : (r.unlinked x.logged now p).session.phase = r.session.phase
  /-- The output of each source that is lost is deleted, or tried to be, in the order of the set and
  whether the ones before could be deleted or not. No other calls are made. -/
  deleted : ∃ new, x.Did new r.world (r.unlinked x.logged now p).world ∧ List.Forall₂
    (fun s call => ∃ place, call = .remove place ∧
      place.same (x.root.join (x.outputFor s)) = true) (r.lost p) (new.map (·.call))
  /-- No two of these outputs are one. -/
  distinct : (r.lost p).Pairwise fun s t => (x.outputFor s).same (x.outputFor t) = false
  /-- All other files hold what they held. -/
  kept : ∀ text?, x.Confined text? → ∀ q,
    (∀ s ∈ r.lost p, (x.root.join (x.outputFor s)).same q = false) →
    text? q (r.unlinked x.logged now p).world.world = text? q r.world.world
  /-- All is as if the sources had disappeared one by one. -/
  oneByOne : r.unlinked x.logged now p = (r.dropped p).foldl (unlinked x.logged now) r
  ignored : (r.handle x.logged ⟨.unlink, p⟩ now).1 = .ignored ↔ r.lost p = []

/-- What holds of the elements of one list holds of those of another that are paired with them. -/
theorem forall_mem_iff_of_forall₂ {α β : Type} {holds : α → Prop} {holds' : β → Prop}
    {l : List α} {m : List β} (h : List.Forall₂ (fun a b => holds a ↔ holds' b) l m) :
    (∀ a ∈ l, holds a) ↔ ∀ b ∈ m, holds' b := by
  induction h with
  | nil => simp
  | cons hab _ ih => rw [List.forall_mem_cons, List.forall_mem_cons, hab, ih]

section Exactly

variable {x : Executor σ} {r : Run (Logged σ)} (watching : r.session.phase = .watching)
  (hsources : ∀ s ∈ r.session.sources.paths, isSource s = true)
include watching hsources

/-- Where all spellings of the path have one output, it takes with it what it should. -/
theorem unlinksExactly_of_output_same {p : Path}
    (hp : ∀ s ∈ r.session.sources.paths, s.same p = true →
      (x.outputFor s).same (x.outputFor p) = true) (now : Nat) : UnlinksExactly x r p now := by
  have heq := unlinked_eq x.logged watching hsources p now
  obtain ⟨new, hdid, hcalls⟩ := did_foldl_onUnlink x now (r.dropped p) r
  rw [← heq] at hdid
  have houtputs : List.Forall₂ (fun s t => (x.outputFor s).same (x.outputFor t) = true)
      (r.lost p) (r.dropped p) := by
    refine (lost_dropped r p).imp ?_
    rintro s t ⟨hs, hsame, rfl | rfl⟩
    · exact same_refl _
    · exact hp s hs hsame
  have hplaces : List.Forall₂ (fun s t =>
      (x.root.join (x.outputFor s)).same (x.root.join (x.outputFor t)) = true)
      (r.lost p) (r.dropped p) := houtputs.imp fun s t => same_join_of_same x.root
  -- what is the same as one of two spellings is the same as the other
  have hiff {a b q : Path} (hab : a.same b = true) : a.same q = false ↔ b.same q = false := by
    rw [← Bool.not_eq_true, ← Bool.not_eq_true, same_iff, same_iff, same_iff.mp hab]
  refine {
    sources := PathSet.ext_mem fun s => ?_
    outputs := PathSet.ext_mem fun o => ?_
    phase := phase_handle x.logged ⟨.unlink, p⟩ now r
    deleted := ⟨new, hdid, ?_⟩
    distinct := ?_
    kept := fun text? hx q hq => hdid.kept text? hx q fun e he hchanged => ?_
    oneByOne := heq.trans (foldl_unlinked watching hsources
      (dropped_distinct r p).1 (dropped_distinct r p).2 now).symm
    ignored := ?_ }
  · rw [heq, mem_foldl_onUnlink_iff, PathSet.filter, List.mem_filter]
    refine and_congr_right fun hs => ?_
    rw [Bool.not_eq_true', decide_eq_false_iff_not, loses_iff hs]
    simp only [not_exists, not_and, Bool.not_eq_true]
  · rw [heq, mem_outputs_foldl_onUnlink_iff, PathSet.filter, List.mem_filter, List.all_eq_true]
    refine and_congr_right fun _ => (forall_mem_iff_of_forall₂ (houtputs.imp ?_)).symm
    intro s t hst
    rw [Bool.not_eq_true', hiff hst, same_comm]
    rfl
  · rw [hcalls, List.forall₂_map_right_iff]
    refine hplaces.imp fun s t hst => ⟨_, rfl, ?_⟩
    rwa [same_comm]
  · refine (lost_increasing r p).imp_of_mem fun hs ht hbefore => ?_
    by_contra hsame
    rw [Bool.not_eq_false] at hsame
    exact not_before_of_same (same_of_output_same (hsources _ (mem_of_mem_lost hs))
      (hsources _ (mem_of_mem_lost ht)) hsame) hbefore
  · -- the only files that were changed are outputs of sources that are lost
    have hother := (forall_mem_iff_of_forall₂ (hplaces.imp fun s t hst => hiff (q := q) hst)).mp hq
    have hcall : e.call ∈ new.map (·.call) := List.mem_map_of_mem he
    rw [hcalls] at hcall
    obtain ⟨t, ht, hremove⟩ := List.mem_map.mp hcall
    have htarget := hchanged.2
    rw [← hremove] at htarget
    simp [Call.target?, hother t ht] at htarget
  · rw [handle_unlink_eq x.logged watching hsources]
    split
    · next hlost => simp [hlost]
    · next hlost => simp [hlost]

/-- What disappears takes with it what it should, unless it is tracked in another spelling that has
another output: a source with the name `..civet` of which only one of the two spellings ends in
that. -/
theorem unlinksExactly_iff (p : Path) (now : Nat) : UnlinksExactly x r p now ↔
    ∀ s ∈ r.session.sources.paths, s.same p = true → s.fileName? = some dotName →
      (dotName <:+ s.chars ↔ dotName <:+ p.chars) := by
  constructor
  · intro h s hs hsame
    suffices houtput : (x.outputFor s).same (x.outputFor p) = true from
      (output_same_iff (hsources s hs) hsame).mp houtput
    have htracked : r.session.sources.contains p = true := PathSet.contains_iff.mpr ⟨s, hs, hsame⟩
    have hdropped : r.dropped p = [p] := by rw [dropped, if_pos htracked]
    -- it is lost under the spelling that is tracked, and dropped under its own
    have hlost : r.lost p = [s] := by
      have hpairs := lost_dropped r p
      rw [hdropped] at hpairs
      obtain ⟨u, us, ⟨hu, hup, -⟩, hrest, hcons⟩ := List.forall₂_cons_right_iff.mp hpairs
      rw [hcons, List.forall₂_nil_right_iff.mp hrest,
        PathSet.eq_of_same hu hs (same_trans hup (by rwa [same_comm]))]
    -- so the one call that was made is for the outputs of both
    obtain ⟨new, hdid, hdeleted⟩ := h.deleted
    obtain ⟨new', hdid', hcalls⟩ := did_foldl_onUnlink x now (r.dropped p) r
    rw [← unlinked_eq x.logged watching hsources] at hdid'
    obtain rfl : new = new' := List.append_cancel_left (hdid.calls.symm.trans hdid'.calls)
    rw [hcalls, hdropped, hlost, List.map_singleton] at hdeleted
    obtain ⟨⟨place, hplace, hjoin⟩, -⟩ := List.forall₂_cons.mp hdeleted
    obtain rfl := Call.remove.inj hplace
    exact output_same_of_join (hsources s hs) hsame (by rwa [same_comm] at hjoin)
  · intro hp
    refine unlinksExactly_of_output_same watching hsources (fun s hs hsame => ?_) now
    exact (output_same_iff (hsources s hs) hsame).mpr (hp s hs hsame)

end Exactly

/-- A directory disappears with one of the two sources that are tracked. -/
theorem unlinksExactly_folder :
    let x : Executor Unit := .steady ⟨['/']⟩ .ts
    let r := (fresh (.new x.root true true 0) ⟨(), []⟩).start x.logged
      [.ofString "pkg/a.civet", .ofString "pkg2/a.civet"] 0
    r.session.phase = .watching ∧ (∀ s ∈ r.session.sources.paths, isSource s = true) ∧
      UnlinksExactly x r (.ofString "pkg") 1 ∧ r.lost (.ofString "pkg") = [.ofString "pkg/a.civet"] := by
  intro x r
  have hwatching : r.session.phase = .watching := rfl
  have hsources : ∀ s ∈ r.session.sources.paths, isSource s = true := by decide
  refine ⟨hwatching, hsources, (unlinksExactly_iff hwatching hsources _ 1).mpr ?_, by decide⟩
  decide

/-- The source `..civet/` is tracked, and `..civet` disappears: its output is `..`, and `..ts` stays
listed. -/
theorem not_unlinksExactly_dotName :
    let x : Executor Unit := .steady ⟨['/']⟩ .ts
    let r := (fresh (.new x.root false false 0) ⟨(), []⟩).start x.logged [.ofString "..civet/"] 0
    ¬UnlinksExactly x r (.ofString "..civet") 1 := by
  intro x r h
  exact absurd h.outputs (by decide)

end Run

end ArtifactSync
