import ArtifactSync.Proofs.Watch.Scenario

/-!
# Sessions that mirror a project

A session mirrors the project it watches (`Mirrors`) when it tracks the sources that are there, each
with the output that a build writes for it, and no output is left of the sources that were tracked
before. An edit makes one path stale (`Mirrors.edit`), and the news of it mends that: a source that
is there is built (`Mirrors.build`), and one that is gone is dropped with its output
(`Mirrors.drop`). None of this reaches the files of other sources, because different sources have
different outputs and none of them is a source. Files that are neither do not matter
(`Mirrors.congr`).
-/

namespace ArtifactSync

open Path Artifact

/-- What a session has made of a project, except for paths that are stale: those with an edit that
it was not told of yet. The sources that were tracked at some time are among those in `ever`. -/
structure Mirrors (root : Path) (kind : OutputKind) (compile : String → Path → String)
    (named stale : Path → Prop) (ever : List Path) (sources outputs : PathSet) (m : Memory) :
    Prop where
  faultless : m.faults = []
  sets : Consistent kind (SourceIn named) sources outputs fun s => sources.contains s = true
  known : ∀ s ∈ sources.paths, s ∈ ever
  /-- The sources that are tracked are those that are there. -/
  present : ∀ p, p.IsPlain → isSource p = true → ¬stale p →
    (sources.contains p = true ↔ (m.lookup? (root.join p)).isSome = true)
  /-- Each of them has its output. -/
  built : ∀ s ∈ sources.paths, ¬stale s → ∃ text, m.lookup? (root.join s) = some text ∧
    m.lookup? (root.join (output s kind)) = some (withHeader s (compile text s))
  /-- No output is left of the others. -/
  cleared : ∀ s ∈ ever, SourceIn named s → sources.contains s = false →
    m.lookup? (root.join (output s kind)) = none

section Places

variable {named : Path → Prop} {p q : Path}

/-- The place of a source inside a project. -/
theorem SourceIn.same_join (hp : SourceIn named p) (hq : q.IsPlain) (root : Path) :
    (root.join p).same (root.join q) = p.same q :=
  Path.same_join hp.plain.isInner hq.isInner root

/-- Outputs of different sources have different places. -/
theorem SourceIn.output_ne_output (hp : SourceIn named p) (hq : SourceIn named q)
    (hne : p.same q = false) (kind : OutputKind) (root : Path) :
    (root.join (output p kind)).same (root.join (output q kind)) = false := by
  rw [Path.same_join (isInner_output hp.plain hp.source kind)
    (isInner_output hq.plain hq.source kind)]
  by_contra hsame
  rw [same_of_output_same hp.source hq.source (by simpa using hsame)] at hne
  cases hne

/-- Outputs of one source have one place, if it is spelled alike. -/
theorem SourceIn.output_same_output (alike : SpelledAlike (SourceIn named))
    (hp : SourceIn named p) (hq : SourceIn named q) (h : p.same q = true) (kind : OutputKind)
    (root : Path) : (root.join (output p kind)).same (root.join (output q kind)) = true := by
  rw [Path.same_join (isInner_output hp.plain hp.source kind)
    (isInner_output hq.plain hq.source kind)]
  exact alike.output_same hp hq hp.source h

/-- Spellings of one source have the same header. -/
theorem withHeader_eq_of_same (h : p.same q = true) (compiled : String) :
    withHeader p compiled = withHeader q compiled := by
  unfold withHeader
  rw [toSlash_eq_of_same h]

/-- Different texts stay different behind a header. -/
theorem withHeader_inj {p : Path} {a b : String} (h : withHeader p a = withHeader p b) : a = b := by
  unfold withHeader at h
  have htexts := congrArg String.toList h
  simp only [String.toList_append] at htexts
  exact String.toList_inj.mp (List.append_cancel_left htexts)

/-- A header changes the text that it is put in front of. -/
theorem withHeader_ne (source : Path) (text : String) : withHeader source text ≠ text := by
  intro h
  have hlength := congrArg String.length h
  simp [withHeader, generatorLine] at hlength

end Places

namespace Mirrors

variable {root : Path} {kind : OutputKind} {compile : String → Path → String}
  {named stale : Path → Prop} {ever : List Path} {sources outputs : PathSet} {m m' : Memory}
  (h : Mirrors root kind compile named stale ever sources outputs m)
include h

/-- More paths may be stale. -/
theorem mono {stale' : Path → Prop} (hstale : ∀ p, stale p → stale' p) :
    Mirrors root kind compile named stale' ever sources outputs m where
  faultless := h.faultless
  sets := h.sets
  known := h.known
  present := fun p hp hs hfresh => h.present p hp hs fun hp => hfresh (hstale p hp)
  built := fun s hs hfresh => h.built s hs fun hp => hfresh (hstale s hp)
  cleared := h.cleared

/-- Only the files of sources and outputs count. -/
theorem congr (hfaults : m'.faults = [])
    (hsources : ∀ p, p.IsPlain → isSource p = true →
      m'.lookup? (root.join p) = m.lookup? (root.join p))
    (houtputs : ∀ p, SourceIn named p →
      m'.lookup? (root.join (output p kind)) = m.lookup? (root.join (output p kind))) :
    Mirrors root kind compile named stale ever sources outputs m' where
  faultless := hfaults
  sets := h.sets
  known := h.known
  present := by
    intro p hp hs hfresh
    rw [hsources p hp hs]
    exact h.present p hp hs hfresh
  built := by
    intro s hs hfresh
    have hin := h.sets.named s hs
    rw [hsources s hin.plain hin.source, houtputs s hin]
    exact h.built s hs hfresh
  cleared := by
    intro s hs hin hout
    rw [houtputs s hin]
    exact h.cleared s hs hin hout

/-- An edit makes the path stale and touches nothing else. -/
theorem edit {p : Path} (hp : SourceIn named p) (hfaults : m'.faults = [])
    (helse : ∀ q, (root.join p).same q = false → m'.lookup? q = m.lookup? q) :
    Mirrors root kind compile named (fun q => stale q ∨ p.same q = true) ever sources outputs m' where
  faultless := hfaults
  sets := h.sets
  known := h.known
  present := by
    intro q hq hs hfresh
    rw [not_or, Bool.not_eq_true] at hfresh
    rw [helse _ (by rw [hp.same_join hq, hfresh.2])]
    exact h.present q hq hs hfresh.1
  built := by
    intro s hs hfresh
    rw [not_or, Bool.not_eq_true] at hfresh
    have hin := h.sets.named s hs
    rw [helse _ (by rw [hp.same_join hin.plain, hfresh.2]),
      helse _ (by rw [same_comm, join_output_ne_join hin.source hp.source])]
    exact h.built s hs hfresh.1
  cleared := by
    intro s hs hin hout
    rw [helse _ (by rw [same_comm, join_output_ne_join hin.source hp.source])]
    exact h.cleared s hs hin hout

variable (hapart : ToldApart kind compile (SourceIn named)) {p : Path} (hp : SourceIn named p)
include hapart hp

/-- A source that is there is built. -/
theorem build {text : String} (htext : m.lookup? (root.join p) = some text) :
    Mirrors root kind compile named (fun q => stale q ∧ p.same q = false) (ever ++ [p])
      (sources.insert p) (outputs.insert (output p kind))
      (m.put (root.join (output p kind)) (withHeader p (compile text p))) := by
  have hsource (q : Path) (hq : q.IsPlain) (hs : isSource q = true) :
      (m.put (root.join (output p kind)) (withHeader p (compile text p))).lookup? (root.join q) =
        m.lookup? (root.join q) :=
    Memory.lookup_put_of_ne m (join_output_ne_join hp.source hs kind root) _
  -- what was written is the output of every spelling of the source
  have hown (s : Path) (hin : SourceIn named s) (hsame : p.same s = true) :
      ∃ now, (m.put (root.join (output p kind)) (withHeader p (compile text p))).lookup?
          (root.join s) = some now ∧
        (m.put (root.join (output p kind)) (withHeader p (compile text p))).lookup?
          (root.join (output s kind)) = some (withHeader s (compile now s)) := by
    refine ⟨text, ?_, ?_⟩
    · rw [hsource s hin.plain hin.source, ← htext]
      exact m.lookup_congr (by rw [same_comm, hp.same_join hin.plain, hsame])
    · rw [← Memory.lookup_congr _ (hp.output_same_output hapart.alike hin hsame kind root),
        Memory.lookup_put, withHeader_eq_of_same hsame,
        hapart.compiled p s text hp hin hsame]
  exact {
    faultless := h.faultless
    sets := (h.sets.build hapart.alike hp hp.source).congr fun s => PathSet.contains_insert
    known := by
      intro s hs
      rcases PathSet.mem_insert.mp hs with ⟨rfl, -⟩ | hs
      · simp
      · exact List.mem_append_left _ (h.known s hs)
    present := by
      intro q hq hs hfresh
      rw [PathSet.contains_insert, hsource q hq hs]
      rcases Bool.eq_false_or_eq_true (p.same q) with hsame | hne
      · rw [← m.lookup_congr ((hp.same_join hq root).trans hsame), htext]
        simp [hsame]
      · rw [or_iff_right (by simp [hne])]
        exact h.present q hq hs fun hstale => hfresh ⟨hstale, hne⟩
    built := by
      intro s hs hfresh
      rcases PathSet.mem_insert.mp hs with ⟨rfl, -⟩ | hs
      · exact hown s hp (same_refl s)
      · have hin := h.sets.named s hs
        rcases Bool.eq_false_or_eq_true (p.same s) with hsame | hne
        · exact hown s hin hsame
        · rw [hsource s hin.plain hin.source,
            Memory.lookup_put_of_ne m (hp.output_ne_output hin hne kind root)]
          exact h.built s hs fun hstale => hfresh ⟨hstale, hne⟩
    cleared := by
      intro s hs hin hout
      have hout' : ¬(p.same s = true ∨ sources.contains s = true) := by
        rw [← PathSet.contains_insert, hout]
        simp
      rw [not_or, Bool.not_eq_true, Bool.not_eq_true] at hout'
      rw [Memory.lookup_put_of_ne m (hp.output_ne_output hin hout'.1 kind root)]
      rcases List.mem_append.mp hs with hs | hs
      · exact h.cleared s hs hin hout'.2
      · rw [List.mem_singleton.mp hs, same_refl] at hout'
        cases hout'.1 }

/-- A source that is gone is dropped with its output. -/
theorem drop (hgone : m.lookup? (root.join p) = none) (hfaults : m'.faults = [])
    (hfiles : ∀ q, m'.lookup? q =
      if (root.join (output p kind)).same q = true then none else m.lookup? q) :
    Mirrors root kind compile named (fun q => stale q ∧ p.same q = false) (ever ++ [p])
      (sources.erase p) (outputs.erase (output p kind)) m' where
  faultless := hfaults
  sets := (h.sets.drop hapart.alike hp hp.source).congr fun s =>
    ⟨fun hs => ⟨hs, (PathSet.contains_erase.mp hs).1⟩, fun hs => hs.1⟩
  known := fun s hs => List.mem_append_left _ (h.known s (PathSet.mem_erase.mp hs).1)
  present := by
    intro q hq hs hfresh
    rw [PathSet.contains_erase, hfiles, if_neg (by simp [join_output_ne_join hp.source hs])]
    rcases Bool.eq_false_or_eq_true (p.same q) with hsame | hne
    · rw [← m.lookup_congr ((hp.same_join hq root).trans hsame), hgone]
      simp [hsame]
    · rw [and_iff_left hne]
      exact h.present q hq hs fun hstale => hfresh ⟨hstale, hne⟩
  built := by
    intro s hs hfresh
    obtain ⟨hs, hne⟩ := PathSet.mem_erase.mp hs
    rw [same_comm] at hne
    have hin := h.sets.named s hs
    rw [hfiles, if_neg (by simp [join_output_ne_join hp.source hin.source]), hfiles,
      if_neg (by simp [hp.output_ne_output hin hne])]
    exact h.built s hs fun hstale => hfresh ⟨hstale, hne⟩
  cleared := by
    intro s hs hin hout
    rw [hfiles]
    rcases Bool.eq_false_or_eq_true (p.same s) with hsame | hne
    · rw [if_pos (hp.output_same_output hapart.alike hin hsame kind root)]
    · have hout' : sources.contains s = false := by
        by_contra hin'
        rw [PathSet.contains_erase.mpr ⟨by simpa using hin', hne⟩] at hout
        cases hout
      split
      · rfl
      · rcases List.mem_append.mp hs with hs | hs
        · exact h.cleared s hs hin hout'
        · rw [List.mem_singleton.mp hs, same_refl] at hne
          cases hne

end Mirrors

end ArtifactSync
