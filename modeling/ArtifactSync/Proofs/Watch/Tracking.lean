import ArtifactSync.Proofs.Path.Set
import ArtifactSync.Proofs.Watch.Calls
import Mathlib.Data.List.Induction

/-!
# Tracked sources and listed outputs

A session keeps two sets, the sources it tracks and the outputs it lists, and changes them in
different places. `SetsAgree` says how they belong together: an output is listed exactly when it is
that of a tracked source that was built since it was last taken in (`BuiltSince`), and no two
tracked sources share an output.

`Consistent` is the invariant behind it, kept by the four things that happen to the sets: a source
is built, taken in unbuilt, dropped, or left alone. It needs that paths which spell one source have
one output (`SpelledAlike`), and that is all it needs: with it all runs keep the sets in agreement,
and without it some run does not.
-/

namespace ArtifactSync

open Path Artifact

/-! ## What calls build -/

/-- The sources among those in a list that are built when they are built one after another. -/
def Executor.builtAmong {σ : Type} (x : Executor σ) : List Path → σ → List Path
  | [], _ => []
  | source :: rest, s =>
    match x.build source s with
    | (.ok _, s) => source :: x.builtAmong rest s
    | (.error _, s) => x.builtAmong rest s

namespace Run

variable {σ : Type}

/-- The sources that a call builds, as far as they are built. -/
def builtBy (x : Executor σ) (r : Run σ) : SessionCall → List Path
  | .start sources _ => if r.session.phase ≠ .idle then [] else x.builtAmong sources r.world
  | .handle change now => if (r.handle x change now).1 = .built then [change.path] else []
  | .tick _ => []
  | .close => []

/-- Whether a path is tracked after the first calls of a run, as many as `count` says. -/
def tracksAfter (x : Executor σ) (r : Run σ) (cs : List SessionCall) (count : Nat) (p : Path) :
    Bool :=
  (r.calls x (cs.take count)).session.sources.contains p

/-- The source was built by a call of the run, and that was not before the call that last took it
in: it was not tracked before call `i`, it is tracked ever since, and call `j` built it. -/
def BuiltSince (x : Executor σ) (r : Run σ) (cs : List SessionCall) (source : Path) : Prop :=
  ∃ i j c, i ≤ j ∧ cs[j]? = some c ∧ r.tracksAfter x cs i source = false ∧
    (∀ k, i < k → k ≤ cs.length → r.tracksAfter x cs k source = true) ∧
    ∃ t ∈ (r.calls x (cs.take j)).builtBy x c, t.same source = true

/-- The two sets of a session belong together. -/
structure SetsAgree (x : Executor σ) (r : Run σ) (built : Path → Prop) : Prop where
  /-- Every tracked path carries the extension of sources. -/
  isSource : ∀ s ∈ r.session.sources.paths, isSource s = true
  /-- The listed outputs are those of the tracked sources that were built. -/
  outputs_iff : ∀ o, r.session.outputs.contains o = true ↔
    ∃ s ∈ r.session.sources.paths, (x.outputFor s).same o = true ∧ built s
  /-- Tracked sources that differ have outputs that differ. -/
  apart : ∀ s ∈ r.session.sources.paths, ∀ t ∈ r.session.sources.paths,
    (x.outputFor s).same (x.outputFor t) = true → s = t
  /-- A listed output is that of exactly one tracked source. -/
  one : ∀ o ∈ r.session.outputs.paths,
    ∃! s, s ∈ r.session.sources.paths ∧ (x.outputFor s).same o = true

/-! ## Histories -/

/-- A path that is tracked now and was not at first was last taken in by some call. -/
theorem exists_taken_in {x : Executor σ} {r : Run σ} {cs : List SessionCall} {p : Path} :
    ∀ {n : Nat}, r.tracksAfter x cs 0 p = false → r.tracksAfter x cs n p = true →
      ∃ i, i < n ∧ r.tracksAfter x cs i p = false ∧
        ∀ k, i < k → k ≤ n → r.tracksAfter x cs k p = true
  | 0, h, hn => by rw [h] at hn; cases hn
  | n + 1, h, hn => by
    by_cases hp : r.tracksAfter x cs n p = true
    · obtain ⟨i, hi, hout, hin⟩ := exists_taken_in h hp
      refine ⟨i, by omega, hout, fun k hik hk => ?_⟩
      by_cases hkn : k ≤ n
      · exact hin k hik hkn
      · rwa [show k = n + 1 by omega]
    · exact ⟨n, by omega, by simpa using hp, fun k hik hk => by rwa [show k = n + 1 by omega]⟩

/-- The first calls of a run do not depend on the last one. -/
theorem tracksAfter_concat {x : Executor σ} {r : Run σ} {cs : List SessionCall} {c : SessionCall}
    {n : Nat} {p : Path} (h : n ≤ cs.length) :
    r.tracksAfter x (cs ++ [c]) n p = r.tracksAfter x cs n p := by
  rw [tracksAfter, tracksAfter, List.take_append_of_le_length h]

/-- All calls of a run. -/
theorem tracksAfter_length (x : Executor σ) (r : Run σ) (cs : List SessionCall) (p : Path) :
    r.tracksAfter x cs cs.length p = (r.calls x cs).session.sources.contains p := by
  rw [tracksAfter, List.take_length]

/-- A source that was built since it was taken in is tracked. -/
theorem BuiltSince.tracked {x : Executor σ} {r : Run σ} {cs : List SessionCall} {s : Path}
    (h : BuiltSince x r cs s) : (r.calls x cs).session.sources.contains s = true := by
  obtain ⟨i, j, c, hij, hc, -, hin, -⟩ := h
  have hj : j < cs.length := (List.getElem?_eq_some_iff.mp hc).1
  rw [← tracksAfter_length]
  exact hin cs.length (by omega) (le_refl _)

/-- After one more call, the sources that were built since they were taken in are the tracked ones
that this call built or that were so before. -/
theorem builtSince_concat {x : Executor σ} {r : Run σ} {cs : List SessionCall} {c : SessionCall}
    {s : Path} (hr : r.session.sources.contains s = false) :
    BuiltSince x r (cs ++ [c]) s ↔
      ((r.calls x cs).call x c).session.sources.contains s = true ∧
        ((∃ t ∈ (r.calls x cs).builtBy x c, t.same s = true) ∨ BuiltSince x r cs s) := by
  rw [← calls_concat]
  constructor
  · intro h
    refine ⟨h.tracked, ?_⟩
    obtain ⟨i, j, d, hij, hd, hout, hin, t, ht, hts⟩ := h
    have hj : j < (cs ++ [c]).length := (List.getElem?_eq_some_iff.mp hd).1
    rw [List.length_append, List.length_singleton] at hj hin
    -- what built it is the last call, or one of those before
    by_cases hlast : j = cs.length
    · subst hlast
      rw [List.getElem?_concat_length, Option.some.injEq] at hd
      subst hd
      rw [List.take_left' rfl] at ht
      exact .inl ⟨t, ht, hts⟩
    · have hjlt : j < cs.length := by omega
      rw [List.getElem?_append_left hjlt] at hd
      rw [List.take_append_of_le_length (by omega)] at ht
      rw [tracksAfter_concat (by omega)] at hout
      refine .inr ⟨i, j, d, hij, hd, hout, fun k hik hk => ?_, t, ht, hts⟩
      rw [← tracksAfter_concat (c := c) hk]
      exact hin k hik (by omega)
  · rintro ⟨htracked, hnow | ⟨i, j, d, hij, hd, hout, hin, hbuilt⟩⟩
    · -- whatever call took it in, the last one built it
      have hfirst : r.tracksAfter x (cs ++ [c]) 0 s = false := by
        simpa [tracksAfter, calls] using hr
      have hlen : (cs ++ [c]).length = cs.length + 1 := by simp
      rw [← tracksAfter_length] at htracked
      obtain ⟨i, hi, hout, hin⟩ := exists_taken_in hfirst htracked
      refine ⟨i, cs.length, c, by omega, List.getElem?_concat_length, hout, hin, ?_⟩
      rwa [List.take_left' rfl]
    · have hj : j < cs.length := (List.getElem?_eq_some_iff.mp hd).1
      refine ⟨i, j, d, hij, by rw [List.getElem?_append_left hj, hd], ?_, fun k hik hk => ?_, ?_⟩
      · rwa [tracksAfter_concat (by omega)]
      · by_cases hkl : k ≤ cs.length
        · rw [tracksAfter_concat hkl]
          exact hin k hik hkl
        · rw [show k = (cs ++ [c]).length by simp at hk ⊢; omega, tracksAfter_length]
          exact htracked
      · rwa [List.take_append_of_le_length (by omega)]

end Run

/-! ## The invariant -/

/-- Paths in the class that spell one source have one output: a source with the name `..civet` is
spelled with something behind the name always or never. -/
def SpelledAlike (named : Path → Prop) : Prop :=
  ∀ p q, named p → named q → isSource p = true → p.same q = true → p.fileName? = some dotName →
    (dotName <:+ p.chars ↔ dotName <:+ q.chars)

/-- Spellings of one source in such a class have the same output. -/
theorem SpelledAlike.output_same {named : Path → Prop} (h : SpelledAlike named) {p q : Path}
    {kind : OutputKind} (hp : named p) (hq : named q) (hs : isSource p = true)
    (hpq : p.same q = true) : (output p kind).same (output q kind) = true :=
  (output_same_iff hs hpq).mpr (h p q hp hq hs hpq)

/-- What every call preserves, of the tracked sources, the listed outputs, and the sources that were
built since they were taken in. -/
structure Consistent (kind : OutputKind) (named : Path → Prop) (sources outputs : PathSet)
    (built : Path → Prop) : Prop where
  named : ∀ s ∈ sources.paths, named s
  isSource : ∀ s ∈ sources.paths, isSource s = true
  tracked : ∀ s, built s → sources.contains s = true
  outputs_iff : ∀ o, outputs.contains o = true ↔
    ∃ s ∈ sources.paths, (output s kind).same o = true ∧ built s

namespace Consistent

variable {kind : OutputKind} {named : Path → Prop} {sources outputs : PathSet}
  {built : Path → Prop}

/-- Only the meaning of having been built counts. -/
theorem congr {built' : Path → Prop} (h : Consistent kind named sources outputs built)
    (hb : ∀ s, built' s ↔ built s) : Consistent kind named sources outputs built' := by
  rwa [show built' = built from funext fun s => propext (hb s)]

/-- Nothing is tracked at first. -/
theorem empty (kind : OutputKind) (named : Path → Prop) (hb : ∀ s, ¬built s) :
    Consistent kind named .empty .empty built where
  named := by simp [PathSet.empty]
  isSource := by simp [PathSet.empty]
  tracked := fun s hs => absurd hs (hb s)
  outputs_iff := by simp [PathSet.empty, PathSet.contains]

/-- A source that is taken in or was there is built. -/
theorem build (h : Consistent kind named sources outputs built) (alike : SpelledAlike named)
    {p : Path} (hn : named p) (hs : Artifact.isSource p = true) :
    Consistent kind named (sources.insert p) (outputs.insert (output p kind))
      (fun s => p.same s = true ∨ built s) where
  named := by
    intro s hmem
    rcases PathSet.mem_insert.mp hmem with ⟨rfl, -⟩ | hmem
    · exact hn
    · exact h.named s hmem
  isSource := by
    intro s hmem
    rcases PathSet.mem_insert.mp hmem with ⟨rfl, -⟩ | hmem
    · exact hs
    · exact h.isSource s hmem
  tracked := by
    rintro s (hps | hb)
    · exact PathSet.contains_insert.mpr (.inl hps)
    · exact PathSet.contains_insert.mpr (.inr (h.tracked s hb))
  outputs_iff := by
    intro o
    rw [PathSet.contains_insert, h.outputs_iff]
    constructor
    · rintro (ho | ⟨s, hmem, hso, hb⟩)
      · -- the output of the source just built belongs to the spelling of it that is listed
        obtain ⟨s, hmem, hsp⟩ := PathSet.contains_iff.mp
          (PathSet.contains_insert.mpr (.inl (same_refl p)) : (sources.insert p).contains p = true)
        refine ⟨s, hmem, ?_, .inl (by rwa [same_comm])⟩
        rcases PathSet.mem_insert.mp hmem with ⟨rfl, -⟩ | hmem
        · exact ho
        · exact same_trans
            (alike.output_same (h.named s hmem) hn (h.isSource s hmem) hsp) ho
      · exact ⟨s, PathSet.mem_insert.mpr (.inr hmem), hso, .inr hb⟩
    · rintro ⟨s, hmem, hso, hps | hb⟩
      · left
        rcases PathSet.mem_insert.mp hmem with ⟨rfl, -⟩ | hmem
        · exact hso
        · exact same_trans (alike.output_same hn (h.named s hmem) hs hps) hso
      · right
        rcases PathSet.mem_insert.mp hmem with ⟨rfl, hfresh⟩ | hmem
        · rw [h.tracked s hb] at hfresh
          cases hfresh
        · exact ⟨s, hmem, hso, hb⟩

/-- A source that does not build is taken in all the same. -/
theorem takeIn (h : Consistent kind named sources outputs built) {p : Path} (hn : named p)
    (hs : Artifact.isSource p = true) :
    Consistent kind named (sources.insert p) outputs built where
  named := by
    intro s hmem
    rcases PathSet.mem_insert.mp hmem with ⟨rfl, -⟩ | hmem
    · exact hn
    · exact h.named s hmem
  isSource := by
    intro s hmem
    rcases PathSet.mem_insert.mp hmem with ⟨rfl, -⟩ | hmem
    · exact hs
    · exact h.isSource s hmem
  tracked := fun s hb => PathSet.contains_insert.mpr (.inr (h.tracked s hb))
  outputs_iff := by
    intro o
    rw [h.outputs_iff]
    constructor
    · rintro ⟨s, hmem, hso, hb⟩
      exact ⟨s, PathSet.mem_insert.mpr (.inr hmem), hso, hb⟩
    · rintro ⟨s, hmem, hso, hb⟩
      rcases PathSet.mem_insert.mp hmem with ⟨rfl, hfresh⟩ | hmem
      · rw [h.tracked s hb] at hfresh
        cases hfresh
      · exact ⟨s, hmem, hso, hb⟩

/-- A source is dropped with its output. -/
theorem drop (h : Consistent kind named sources outputs built) (alike : SpelledAlike named)
    {p : Path} (hn : named p) (hs : Artifact.isSource p = true) :
    Consistent kind named (sources.erase p) (outputs.erase (output p kind))
      (fun s => (sources.erase p).contains s = true ∧ built s) where
  named := fun s hmem => h.named s (PathSet.mem_erase.mp hmem).1
  isSource := fun s hmem => h.isSource s (PathSet.mem_erase.mp hmem).1
  tracked := fun s hb => hb.1
  outputs_iff := by
    intro o
    rw [PathSet.contains_erase, h.outputs_iff]
    constructor
    · rintro ⟨⟨s, hmem, hso, hb⟩, hpo⟩
      have hsp : s.same p = false := by
        by_contra hsp
        rw [Bool.not_eq_false, same_comm] at hsp
        rw [same_trans (alike.output_same hn (h.named s hmem) hs hsp) hso] at hpo
        cases hpo
      have hmem' := PathSet.mem_erase.mpr ⟨hmem, hsp⟩
      exact ⟨s, hmem', hso, PathSet.contains_of_mem hmem', hb⟩
    · rintro ⟨s, hmem, hso, -, hb⟩
      obtain ⟨hmem, hsp⟩ := PathSet.mem_erase.mp hmem
      refine ⟨⟨s, hmem, hso, hb⟩, ?_⟩
      by_contra hpo
      rw [Bool.not_eq_false] at hpo
      rw [same_of_output_same (h.isSource s hmem) hs
        (same_trans hso (by rwa [same_comm]))] at hsp
      cases hsp

/-- What the invariant says about a session. -/
theorem setsAgree {σ : Type} {x : Executor σ} {r : Run σ}
    (h : Consistent x.kind named r.session.sources r.session.outputs built) :
    r.SetsAgree x built where
  isSource := h.isSource
  outputs_iff := h.outputs_iff
  apart := fun s hs t ht hst =>
    PathSet.eq_of_same hs ht (same_of_output_same (h.isSource s hs) (h.isSource t ht) hst)
  one := by
    intro o ho
    obtain ⟨s, hs, hso, -⟩ := (h.outputs_iff o).mp (PathSet.contains_of_mem ho)
    refine ⟨s, ⟨hs, hso⟩, ?_⟩
    rintro t ⟨ht, hto⟩
    refine PathSet.eq_of_same ht hs
      (same_of_output_same (h.isSource t ht) (h.isSource s hs) (same_trans hto ?_))
    rwa [same_comm]

end Consistent

namespace Run

variable {σ : Type} {x : Executor σ} {named : Path → Prop} {built : Path → Prop}

/-- The builds of the sources in a list keep the invariant. -/
theorem consistent_buildAll (alike : SpelledAlike named) {sources : List Path}
    (hn : ∀ p ∈ sources, named p) (hs : ∀ p ∈ sources, isSource p = true) {r : Run σ}
    (h : Consistent x.kind named r.session.sources r.session.outputs built) :
    Consistent x.kind named (buildAll x sources r).2.2.session.sources
      (buildAll x sources r).2.2.session.outputs
      (fun s => (∃ t ∈ x.builtAmong sources r.world, t.same s = true) ∨ built s) := by
  induction sources generalizing r built with
  | nil => exact h.congr (by simp [Executor.builtAmong])
  | cons p rest ih =>
    have hnp := hn p (by simp)
    have hsp := hs p (by simp)
    have ih := fun {r} {built} => @ih built (fun q hq => hn q (by simp [hq]))
      (fun q hq => hs q (by simp [hq])) r
    rcases hb : x.build p r.world with ⟨_ | output, w⟩
    · -- the source fails: it is taken in, and its output is not listed
      simp only [buildAll, Run.build, hb, Executor.builtAmong]
      exact ih (h.takeIn hnp hsp)
    · obtain rfl := Executor.build_ok hb
      simp only [buildAll, Run.build, hb, Executor.builtAmong]
      refine (ih (h.build alike hnp hsp)).congr fun s => ?_
      simp only [List.exists_mem_cons_iff, or_assoc]
      exact or_left_comm

/-- Dropping sources one after another keeps the invariant. -/
theorem consistent_foldl_onUnlink (alike : SpelledAlike named) (now : Nat) {sources : List Path}
    (hn : ∀ p ∈ sources, named p) (hs : ∀ p ∈ sources, isSource p = true) {r : Run σ}
    (h : Consistent x.kind named r.session.sources r.session.outputs built) :
    Consistent x.kind named (sources.foldl (onUnlink x now) r).session.sources
      (sources.foldl (onUnlink x now) r).session.outputs
      (fun s => (sources.foldl (onUnlink x now) r).session.sources.contains s = true ∧ built s) := by
  induction sources generalizing r built with
  | nil => exact h.congr fun s => ⟨fun hb => hb.2, fun hb => ⟨h.tracked s hb, hb⟩⟩
  | cons p rest ih =>
    have hstep : Consistent x.kind named (onUnlink x now r p).session.sources
        (onUnlink x now r p).session.outputs
        (fun s => (onUnlink x now r p).session.sources.contains s = true ∧ built s) := by
      rw [onUnlink_session]
      exact h.drop alike (hn p (by simp)) (hs p (by simp))
    rw [List.foldl_cons]
    refine (ih (fun q hq => hn q (by simp [hq])) (fun q hq => hs q (by simp [hq])) hstep).congr
      fun s => ⟨fun hb => ⟨hb.1, contains_of_foldl_onUnlink hb.1, hb.2⟩, fun hb => ⟨hb.1, hb.2.2⟩⟩

/-- A change keeps the invariant. -/
theorem consistent_handle (alike : SpelledAlike named) {r : Run σ} {change : Change} {now : Nat}
    (hn : named change.path)
    (h : Consistent x.kind named r.session.sources r.session.outputs built) :
    Consistent x.kind named (r.handle x change now).2.session.sources
      (r.handle x change now).2.session.outputs
      (fun s => (r.handle x change now).2.session.sources.contains s = true ∧
        ((∃ t ∈ r.builtBy x (.handle change now), t.same s = true) ∨ built s)) := by
  have hhandled := handled x change now r
  simp only [builtBy]
  generalize r.handle x change now = ans at hhandled ⊢
  obtain ⟨outcome, r'⟩ := ans
  dsimp only at hhandled ⊢
  -- what is built is tracked, so the first half of the predicate says nothing new
  have hbuild : isSource change.path = true → Consistent x.kind named
      (r.session.sources.insert change.path)
      (r.session.outputs.insert (x.outputFor change.path))
      (fun s => change.path.same s = true ∨ built s) := h.build alike hn
  cases hhandled with
  | ignored =>
    refine h.congr fun s => ?_
    simpa using h.tracked s
  | failed trigger watching source build =>
    simp only [session_of_build build]
    refine h.congr fun s => ?_
    simpa using h.tracked s
  | added appeared watching source fresh build =>
    simp only [requestSync_sources, requestSync_outputs, list_sources, list_outputs,
      track_sources, track_outputs, session_of_build build]
    refine (hbuild source).congr fun s => ?_
    simpa using (hbuild source).tracked s
  | rebuilt watching source tracked build listed =>
    have hb := hbuild source
    rw [PathSet.insert_of_contains tracked, PathSet.insert_of_contains listed] at hb
    simp only [session_of_build build]
    refine hb.congr fun s => ?_
    simpa using hb.tracked s
  | mended watching source tracked build unlisted =>
    have hb := hbuild source
    rw [PathSet.insert_of_contains tracked] at hb
    simp only [requestSync_sources, requestSync_outputs, list_sources, list_outputs,
      session_of_build build]
    refine hb.congr fun s => ?_
    simpa using hb.tracked s
  | removed watching source tracked =>
    have hdrop := h.drop alike hn source
    simp only [onUnlink_session]
    refine hdrop.congr fun s => ?_
    simp
  | removedBelow watching named untracked =>
    have hmem : ∀ p ∈ r.below change.path, p ∈ r.session.sources.paths :=
      fun p hp => (List.mem_filter.mp hp).1
    refine (consistent_foldl_onUnlink alike now (fun p hp => h.named p (hmem p hp))
      (fun p hp => h.isSource p (hmem p hp)) h).congr fun s => ?_
    simp

/-- Every call keeps the invariant. -/
theorem consistent_call (alike : SpelledAlike named) {r : Run σ} {c : SessionCall}
    (hn : ∀ p ∈ c.paths, named p) (hs : ∀ p ∈ c.initial, isSource p = true)
    (h : Consistent x.kind named r.session.sources r.session.outputs built) :
    Consistent x.kind named (r.call x c).session.sources (r.call x c).session.outputs
      (fun s => (r.call x c).session.sources.contains s = true ∧
        ((∃ t ∈ r.builtBy x c, t.same s = true) ∨ built s)) := by
  have hsame : Consistent x.kind named r.session.sources r.session.outputs
      (fun s => r.session.sources.contains s = true ∧ built s) :=
    h.congr fun s => ⟨fun hb => hb.2, fun hb => ⟨h.tracked s hb, hb⟩⟩
  cases c with
  | start sources now =>
    simp only [call, start, builtBy]
    by_cases hidle : r.session.phase = .idle
    · have hall := consistent_buildAll (x := x) alike hn hs h
      simp only [hidle, ne_eq, not_true_eq_false, if_false]
      exact hall.congr fun s => ⟨fun hb => hb.2, fun hb => ⟨hall.tracked s hb, hb⟩⟩
    · simpa [hidle] using hsame
  | handle change now => exact consistent_handle alike (hn _ (by simp [SessionCall.paths])) h
  | tick now =>
    simpa [call, tick, builtBy, reportSyncs_session] using hsame
  | close =>
    by_cases hclosed : r.session.phase = .closed
    · simpa [call, close, builtBy, hclosed] using hsame
    · simpa [call, close, builtBy, hclosed, reportSyncs_session, enter, emit] using hsame

/-- Every run from a new session keeps the invariant. -/
theorem consistent_calls (alike : SpelledAlike named) (sideFiles : SideFiles) (s : σ)
    {cs : List SessionCall} (hn : ∀ c ∈ cs, ∀ p ∈ c.paths, named p)
    (hs : ∀ c ∈ cs, ∀ p ∈ c.initial, isSource p = true) :
    Consistent x.kind named ((fresh sideFiles s).calls x cs).session.sources
      ((fresh sideFiles s).calls x cs).session.outputs
      (BuiltSince x (fresh sideFiles s) cs) := by
  induction cs using List.reverseRecOn with
  | nil => exact Consistent.empty _ _ fun s hb => Bool.false_ne_true hb.tracked
  | append_singleton cs c ih =>
    have hprev := ih (fun d hd => hn d (by simp [hd])) (fun d hd => hs d (by simp [hd]))
    have hstep := consistent_call alike (hn c (by simp)) (hs c (by simp)) hprev
    rw [calls_concat]
    exact hstep.congr fun p => builtSince_concat rfl

end Run

/-- An executor in whose world every call succeeds. -/
def Executor.steady (root : Path) (kind : OutputKind) : Executor Unit where
  root := root
  kind := kind
  files :=
    { read := fun _ s => (.ok "", s)
      write := fun _ _ s => (.ok (), s)
      remove := fun _ s => (.ok (), s)
      createDirs := fun _ s => (.ok (), s) }
  compiler := .pure fun text _ => .ok text

namespace Run

/-- A change of a tracked source that builds leaves its output listed, in the spelling of the change,
and takes nothing in. -/
theorem listed_of_change {x : Executor σ} {r : Run σ} {source output : Path} {s : σ} (now : Nat)
    (watching : r.session.phase = .watching) (hs : isSource source = true)
    (tracked : r.session.sources.contains source = true)
    (hb : x.build source r.world = (.ok output, s)) :
    (r.handle x ⟨.change, source⟩ now).2.session.sources = r.session.sources ∧
      (r.handle x ⟨.change, source⟩ now).2.session.outputs.contains (x.outputFor source) = true := by
  obtain rfl := Executor.build_ok hb
  simp only [handle, watching, ne_eq, not_true_eq_false, if_false, hs, tracked, Bool.and_self,
    if_true, onChange, Run.build, hb]
  split
  · next listed => exact ⟨rfl, listed⟩
  · exact ⟨rfl, PathSet.contains_insert.mpr (.inl (same_refl _))⟩

/-- The sets of a session agree in every run whose calls name paths of a class, exactly when the
class spells alike. -/
theorem agree_iff_spelledAlike (kind : OutputKind) (named : Path → Prop) :
    (∀ (σ : Type) (x : Executor σ) (sideFiles : SideFiles) (s : σ) (cs : List SessionCall),
      x.kind = kind → (∀ c ∈ cs, ∀ p ∈ c.paths, named p) →
      (∀ c ∈ cs, ∀ p ∈ c.initial, isSource p = true) →
      SetsAgree x ((fresh sideFiles s).calls x cs) (BuiltSince x (fresh sideFiles s) cs)) ↔
    SpelledAlike named := by
  constructor
  · intro h p q hp hq hs hpq
    let x := Executor.steady ⟨['/']⟩ kind
    let started := (fresh (.new x.root false false 0) ()).start x [p] 0
    have hsources : started.session.sources.paths = [p] := rfl
    have htracked : started.session.sources.contains q = true := by
      simpa [PathSet.contains, hsources] using hpq
    have hq' : isSource q = true := by rw [← isSource_eq_of_same hpq, hs]
    obtain ⟨hsame, hlisted⟩ := listed_of_change (x := x) (r := started) 0 rfl hq' htracked rfl
    have hagree := h Unit x (.new x.root false false 0) () [.start [p] 0, .handle ⟨.change, q⟩ 0]
      rfl (by simp [SessionCall.paths, hp, hq]) (by simp [SessionCall.initial, hs])
    -- the output of `q` is listed, so it is that of the one source that is tracked
    obtain ⟨s, hmem, hout, -⟩ := (hagree.outputs_iff _).mp hlisted
    have hmem' : s ∈ started.session.sources.paths := hsame ▸ hmem
    rw [hsources, List.mem_singleton] at hmem'
    subst hmem'
    exact (output_same_iff hs hpq).mp hout
  · intro alike σ x sideFiles s cs hkind hn hs
    exact (consistent_calls alike sideFiles s hn hs).setsAgree

/-- The output of a source is still listed after the source was removed under another spelling: of
`..civet/` it is `..ts`, and of `..civet` it is `..`. -/
theorem not_setsAgree_dotName :
    ¬SetsAgree (.steady ⟨['/']⟩ .ts)
      ((fresh (.new ⟨['/']⟩ false false 0) ()).calls (.steady ⟨['/']⟩ .ts)
        [.start [.ofString "..civet/"] 0, .handle ⟨.unlink, .ofString "..civet"⟩ 1])
      (BuiltSince (.steady ⟨['/']⟩ .ts) (fresh (.new ⟨['/']⟩ false false 0) ())
        [.start [.ofString "..civet/"] 0, .handle ⟨.unlink, .ofString "..civet"⟩ 1]) := by
  intro h
  have hnone : ((fresh (.new ⟨['/']⟩ false false 0) ()).calls (.steady ⟨['/']⟩ .ts)
      [.start [.ofString "..civet/"] 0,
        .handle ⟨.unlink, .ofString "..civet"⟩ 1]).session.sources.paths = [] := by decide
  obtain ⟨s, hs, -⟩ := (h.outputs_iff (.ofString "..ts")).mp (by decide)
  rw [hnone] at hs
  cases hs

end Run

end ArtifactSync
