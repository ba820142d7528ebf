import ArtifactSync.Proofs.FileSystem.Memory
import ArtifactSync.Proofs.Path.Inner
import ArtifactSync.Proofs.SideFile.Left
import ArtifactSync.Proofs.Watch.Log
import Mathlib.Data.List.Induction

/-!
# Sessions over files in memory

Over files in memory without faults, and with a compiler that accepts every source, it can be said
what each call of a session does to the files. A source that is there is built (`build_inMemory`), so
a change that says so ends with its output listed and written (`handle_present`), and one that says
that a tracked source is gone ends with its output gone (`handle_gone`). Attempts to rewrite side
files leave in each of them what its own attempts make of it, one after another, and touch no other
file (`lookup_rewrites`).
-/

namespace ArtifactSync

open Path Artifact

/-- An executor over files in memory whose compiler accepts every source. -/
def Executor.inMemory (root : Path) (kind : OutputKind) (compile : String → Path → String) :
    Executor Memory where
  root := root
  kind := kind
  files := Memory.fileSystem
  compiler := .pure fun text source => .ok (compile text source)

section Build

variable (root : Path) (kind : OutputKind) (compile : String → Path → String) {m : Memory}
  (h : m.faults = [])
include h

/-- A source that is there is built. -/
theorem build_inMemory {source : Path} {text : String}
    (htext : m.lookup? (root.join source) = some text) :
    (Executor.inMemory root kind compile).build source m = (.ok (output source kind),
      m.put (root.join (output source kind)) (withHeader source (compile text source))) := by
  simp only [Executor.build, Executor.inMemory, Memory.read_eq h, htext, Option.map_some,
    Option.getD_some, Compiler.pure, Memory.write_eq h, Executor.outputFor]

/-- An output that is deleted is gone, and every other file is left alone. -/
theorem lookup_removeOutput (p q : Path) :
    ((Executor.inMemory root kind compile).removeOutput p m).2.lookup? q =
        (if (root.join p).same q = true then none else m.lookup? q) ∧
      ((Executor.inMemory root kind compile).removeOutput p m).2.faults = [] := by
  simp only [Executor.removeOutput, Executor.inMemory, Memory.remove_eq h]
  split
  · refine ⟨?_, h⟩
    cases hsame : (root.join p).same q with
    | true => rw [← Memory.lookup_congr _ hsame, Memory.lookup_delete]; rfl
    | false => exact Memory.lookup_delete_of_ne m hsame
  · next hnone =>
    refine ⟨?_, h⟩
    cases hsame : (root.join p).same q with
    | true => simpa [m.lookup_congr hsame] using hnone
    | false => rfl

end Build

/-! ## Attempts to rewrite side files -/

/-- What attempts leave in the side file of a kind, one after another. -/
def leftBy {σ : Type} (kind : SideFileKind) (before : Option String)
    (attempts : List (Rewrite σ)) : Option String :=
  attempts.foldl (fun text a => if a.file.kind = kind then kind.left text a.outputs.paths else text)
    before

/-- One more attempt. -/
theorem leftBy_concat {σ : Type} (kind : SideFileKind) (before : Option String)
    (attempts : List (Rewrite σ)) (a : Rewrite σ) : leftBy kind before (attempts ++ [a]) =
      if a.file.kind = kind then kind.left (leftBy kind before attempts) a.outputs.paths
      else leftBy kind before attempts := by
  simp [leftBy]

/-- Of several attempts for artifacts only the last one counts. -/
theorem leftBy_eq {σ : Type} (kind : SideFileKind) (before : Option String)
    {attempts : List (Rewrite σ)}
    (h : ∀ a ∈ attempts, EditorExclude.Listable (a.outputs.paths.map Path.toSlash)) :
    leftBy kind before attempts =
      ((lastRewrite kind attempts).map fun a => kind.left before a.outputs.paths).getD before := by
  induction attempts using List.reverseRecOn with
  | nil => rfl
  | append_singleton attempts a ih =>
    have ih := ih fun b hb => h b (by simp [hb])
    rw [leftBy_concat, lastRewrite_append]
    by_cases hkind : a.file.kind = kind
    · have hlast : lastRewrite kind [a] = some a := by simp [lastRewrite, hkind]
      rw [if_pos hkind, hlast, ih]
      cases hbefore : lastRewrite kind attempts with
      | none => rfl
      | some b =>
        have hmem := (lastRewrite_mem hbefore).1
        exact kind.left_left before (h b (by simp [hmem])) (h a (by simp))
    · have hlast : lastRewrite kind [a] = none := by simp [lastRewrite, hkind]
      rw [if_neg hkind, hlast, ih]
      rfl

/-- Attempts of two side files leave in each what it has taken makes of it. -/
theorem leftBy_rewrites {σ : Type} {f : SideFiles} (hkind : ∀ k, (f.get k).kind = k)
    (files : FileSystem σ) (take : Debouncer PathSet → Option PathSet × Debouncer PathSet) (s : σ)
    (k : SideFileKind) (before : Option String) : leftBy k before (f.rewrites files take s) =
      ((take (f.get k).pending).1.map fun outputs => k.left before outputs.paths).getD before := by
  have hone (l : SideFileKind) (s : σ) (before : Option String) :
      leftBy k before (f.attempt? take l s).toList = if l = k then
        ((take (f.get k).pending).1.map fun outputs => k.left before outputs.paths).getD before
        else before := by
    have hfile : ((f.taken take).get l).kind = l := by rw [SideFiles.get_taken, hkind]
    by_cases hl : l = k
    · subst hl
      cases htake : (take (f.get l).pending).1 <;> simp [SideFiles.attempt?, htake, leftBy, hfile]
    · cases htake : (take (f.get l).pending).1 <;> simp [SideFiles.attempt?, htake, leftBy, hfile, hl]
  obtain ⟨s', hs'⟩ := f.rewrites_eq files take s
  rw [hs', leftBy, List.foldl_append, ← leftBy, ← leftBy, hone, hone]
  cases k <;> simp

/-- An attempt leaves in its file what rendering makes of it, and no trace elsewhere. -/
theorem SideFile.lookup_writeNow (f : SideFile) {m : Memory} (h : m.faults = [])
    (outputs : PathSet) :
    let m' := (f.writeNow Memory.fileSystem outputs m).2
    m'.faults = [] ∧ m'.lookup? f.path = f.kind.left (m.lookup? f.path) outputs.paths ∧
      ∀ q, f.path.same q = false → m'.lookup? q = m.lookup? q := by
  have hprepare : f.prepare Memory.fileSystem m = (.ok (), m) := by
    unfold SideFile.prepare
    split
    · exact Memory.createDirs_eq h _
    · rfl
  have hexisting : f.existing Memory.fileSystem m = (.ok ((m.lookup? f.path).getD ""), m) := by
    rw [SideFile.existing, Memory.read_eq h]
    cases m.lookup? f.path <;> rfl
  simp only [SideFile.writeNow, hprepare, hexisting, SideFileKind.left]
  cases f.kind.render ((m.lookup? f.path).getD "") outputs.paths with
  | error reason => exact ⟨h, rfl, fun q _ => rfl⟩
  | ok text =>
    simp only [Memory.write_eq h]
    exact ⟨h, Memory.lookup_put m _ _, fun q hq => Memory.lookup_put_of_ne m hq _⟩

namespace SideFiles

variable (take : Debouncer PathSet → Option PathSet × Debouncer PathSet)

/-- Attempts on the side files of a project leave in each of them what its own ones make of it, and
no trace elsewhere. -/
theorem lookup_rewrites {root : Path} {f : SideFiles}
    (hf : ∀ k, (f.get k).kind = k ∧ (f.get k).path = k.pathIn root) {m : Memory}
    (h : m.faults = []) :
    let attempts := f.rewrites Memory.fileSystem take m
    let m' := worldBehind Memory.fileSystem m attempts
    m'.faults = [] ∧
      (∀ k, m'.lookup? (k.pathIn root) = leftBy k (m.lookup? (k.pathIn root)) attempts) ∧
      ∀ q, (∀ k : SideFileKind, (k.pathIn root).same q = false) → m'.lookup? q = m.lookup? q := by
  refine rewrites_induction Memory.fileSystem take (fun done s => s.faults = [] ∧
    (∀ k, s.lookup? (k.pathIn root) = leftBy k (m.lookup? (k.pathIn root)) done) ∧
    ∀ q, (∀ k : SideFileKind, (k.pathIn root).same q = false) → s.lookup? q = m.lookup? q)
    f m ?_ [] ⟨h, fun k => rfl, fun q _ => rfl⟩
  rintro done a ha ⟨hfaults, hleft, helse⟩
  obtain ⟨l, hfile, -⟩ := mem_rewrites ha
  obtain ⟨hkind, hpath⟩ : a.file.kind = l ∧ a.file.path = l.pathIn root := by
    rw [hfile, get_taken]
    exact hf l
  obtain ⟨hfaults', hown, hothers⟩ := a.file.lookup_writeNow hfaults a.outputs
  rw [hpath] at hown hothers
  refine ⟨hfaults', fun k => ?_, fun q hq => ?_⟩
  · rw [leftBy_concat, hkind, ← hleft k]
    by_cases hlk : l = k
    · rw [if_pos hlk, ← hlk, Rewrite.run, hown, hkind]
    · rw [if_neg hlk]
      exact hothers _ (pathIn_ne hlk root)
  · rw [← helse q hq]
    exact hothers q (hq l)

end SideFiles

/-! ## Changes -/

namespace Run

section Change

variable (root : Path) (kind : OutputKind) (compile : String → Path → String) {r : Run Memory}
  (h : r.world.faults = []) (watching : r.session.phase = .watching) {p : Path} (now : Nat)
include h

/-- A source that is there is built, and nothing else happens to the files. -/
theorem build_present {text : String} (htext : r.world.lookup? (root.join p) = some text)
    (trigger : Trigger) : ∃ r', r.build (.inMemory root kind compile) p trigger =
      (some (output p kind), r') ∧ r'.session = r.session ∧
      r'.world = r.world.put (root.join (output p kind)) (withHeader p (compile text p)) := by
  simp only [Run.build, build_inMemory root kind compile h htext]
  exact ⟨_, rfl, rfl, rfl⟩

include watching

/-- When a source is there, a change that adds it, or that changes it while it is tracked, ends with
the source tracked and its output listed and written. -/
theorem handle_present (hs : isSource p = true) {text : String}
    (htext : r.world.lookup? (root.join p) = some text) {what : ChangeKind}
    (hwhat : what = .add ∨ what = .change ∧ r.session.sources.contains p = true) :
    let r' := (r.handle (.inMemory root kind compile) ⟨what, p⟩ now).2
    r'.session.sources = r.session.sources.insert p ∧
      r'.session.outputs = r.session.outputs.insert (output p kind) ∧
      r'.world = r.world.put (root.join (output p kind)) (withHeader p (compile text p)) := by
  have honChange (tracked : r.session.sources.contains p = true) :
      let r' := (r.onChange (.inMemory root kind compile) p now).2
      r'.session.sources = r.session.sources.insert p ∧
        r'.session.outputs = r.session.outputs.insert (output p kind) ∧
        r'.world = r.world.put (root.join (output p kind)) (withHeader p (compile text p)) := by
    obtain ⟨r', hb, hsession, hworld⟩ :=
      build_present root kind compile h htext .change
    simp only [onChange, hb]
    rw [PathSet.insert_of_contains tracked, ← hsession]
    split
    · next listed => exact ⟨rfl, (PathSet.insert_of_contains listed).symm, hworld⟩
    · exact ⟨rfl, rfl, hworld⟩
  rcases hwhat with rfl | ⟨rfl, tracked⟩
  · by_cases tracked : r.session.sources.contains p = true
    · simpa [handle, watching, hs, tracked] using honChange tracked
    · obtain ⟨r', hb, hsession, hworld⟩ :=
        build_present root kind compile h htext .add
      simp only [handle, watching, hs, tracked, onAdd, hb]
      rw [← hsession]
      exact ⟨rfl, rfl, hworld⟩
  · simpa [handle, watching, hs, tracked] using honChange tracked

/-- When a tracked source is gone, it is dropped and its output is deleted. -/
theorem handle_gone (hs : isSource p = true) (tracked : r.session.sources.contains p = true) :
    let r' := (r.handle (.inMemory root kind compile) ⟨.unlink, p⟩ now).2
    r'.session.sources = r.session.sources.erase p ∧
      r'.session.outputs = r.session.outputs.erase (output p kind) ∧ r'.world.faults = [] ∧
      ∀ q, r'.world.lookup? q =
        if (root.join (output p kind)).same q = true then none else r.world.lookup? q := by
  have hhandle : (r.handle (.inMemory root kind compile) ⟨.unlink, p⟩ now).2 =
      onUnlink (.inMemory root kind compile) now r p := by
    simp [handle, watching, hs, tracked]
  have hworld : (onUnlink (.inMemory root kind compile) now r p).world =
      ((Executor.inMemory root kind compile).removeOutput (output p kind) r.world).2 :=
    deleteOutput_world _ _ _
  simp only [hhandle, hworld]
  rw [onUnlink_session]
  exact ⟨rfl, rfl, (lookup_removeOutput root kind compile h _ p).2,
    fun q => (lookup_removeOutput root kind compile h _ q).1⟩

end Change

end Run

end ArtifactSync
