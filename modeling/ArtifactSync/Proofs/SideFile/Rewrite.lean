import ArtifactSync.SideFile.Basic
import Mathlib.Tactic.Common

/-!
# Rewrites of side files

A `Rewrite` is one attempt to rewrite a side file: the file, the outputs it is given, and the world
it begins in. `rewrites` lists the attempts that the two side files make when each of them takes
what it has pending, and `poll_eq` and `flush_eq` show that these are what polling and flushing do:
the answers are those of the attempts, and the world is the one behind the last of them.

An attempt that succeeds leaves in the file what rendering makes of the text that was in it
(`writeNow_left`). What that text is depends on the file system, so `FileSystem.Shows` says what is
asked of it.
-/

namespace ArtifactSync

variable {σ : Type}

/-- The texts in files can be looked up in a world, and calls deal with them as they should. A world
is honest if a file that cannot be found there is not there. -/
structure FileSystem.Shows (files : FileSystem σ) (honest : σ → Prop)
    (text? : Path → σ → Option String) : Prop where
  /-- What is read is the text of the file. -/
  read_ok : ∀ {p s text s'}, honest s → files.read p s = (.ok text, s') → text? p s = some text
  /-- A file that is not found has no text. -/
  read_missing : ∀ {p s e s'}, honest s → files.read p s = (.error e, s') →
    e.isNotFound = true → text? p s = none
  /-- What is written is the text of the file from then on. -/
  write_ok : ∀ {p text s s'}, honest s → files.write p text s = (.ok (), s') →
    text? p s' = some text
  /-- Reading leaves a world honest. -/
  read_honest : ∀ {s} p, honest s → honest (files.read p s).2
  /-- Making directories leaves a world honest. -/
  createDirs_honest : ∀ {s} p, honest s → honest (files.createDirs p s).2
  /-- Making directories leaves every text as it is. -/
  createDirs_text : ∀ {s} p q, honest s → text? q (files.createDirs p s).2 = text? q s

/-- One attempt to rewrite a side file. -/
structure Rewrite (σ : Type) where
  file : SideFile
  /-- The outputs that the file is to list. -/
  outputs : PathSet
  /-- The world in which the attempt begins. -/
  world : σ

namespace Rewrite

/-- Runs an attempt. -/
def run (a : Rewrite σ) (files : FileSystem σ) : SyncResult × σ :=
  a.file.writeNow files a.outputs a.world

end Rewrite

namespace SideFile

/-- What an attempt that succeeds has done: it read the file, or found that it is not there, and
wrote what rendering made of that. -/
theorem writeNow_ok {f : SideFile} {files : FileSystem σ} {outputs : PathSet} {s s' : σ}
    {report : SyncReport} (h : f.writeNow files outputs s = (.ok report, s')) :
    ∃ s₁ existing s₂ text, f.prepare files s = (.ok (), s₁) ∧
      f.existing files s₁ = (.ok existing, s₂) ∧ f.kind.render existing outputs.paths = .ok text ∧
      files.write f.path text s₂ = (.ok (), s') := by
  unfold writeNow at h
  split at h
  · cases h
  · next s₁ hprepare =>
    split at h
    · cases h
    · next existing s₂ hexisting =>
      split at h
      · cases h
      · next text hrender =>
        split at h
        · cases h
        · next s₃ hwrite =>
          cases h
          exact ⟨s₁, existing, s₂, text, hprepare, hexisting, hrender, hwrite⟩

/-- What every call that an attempt may make keeps is kept by the attempt. -/
theorem writeNow_keeps {f : SideFile} {files : FileSystem σ} {holds : σ → Prop}
    (createDirs : ∀ p s, holds s → holds (files.createDirs p s).2)
    (read : ∀ p s, holds s → holds (files.read p s).2)
    (write : ∀ text s, holds s → holds (files.write f.path text s).2) {s : σ} (h : holds s)
    (outputs : PathSet) : holds (f.writeNow files outputs s).2 := by
  have hprepare : holds (f.prepare files s).2 := by
    unfold SideFile.prepare
    split
    · exact createDirs _ _ h
    · exact h
  unfold SideFile.writeNow
  split
  · next hp => rwa [hp] at hprepare
  · next s₁ hp =>
    rw [hp] at hprepare
    have hexisting : holds (f.existing files s₁).2 := by
      have hread := read f.path s₁ hprepare
      unfold SideFile.existing
      split
      · next hr =>
        rw [hr] at hread
        split
        · exact hread
        · exact hread
      · exact hread
    split
    · next he => rwa [he] at hexisting
    · next existing s₂ he =>
      rw [he] at hexisting
      split
      · exact hexisting
      · next text _ =>
        have hwrite := write text s₂ hexisting
        split
        · next hw => rwa [hw] at hwrite
        · next hw => rwa [hw] at hwrite

section Shows

variable {files : FileSystem σ} {honest : σ → Prop} {text? : Path → σ → Option String}
  (hfiles : files.Shows honest text?) {f : SideFile} {s : σ} (hs : honest s)
include hfiles hs

/-- Making the directory of a side file leaves texts and honesty alone. -/
theorem prepare_keeps :
    honest (f.prepare files s).2 ∧ ∀ q, text? q (f.prepare files s).2 = text? q s := by
  unfold prepare
  split
  · exact ⟨hfiles.createDirs_honest _ hs, fun q => hfiles.createDirs_text _ q hs⟩
  · exact ⟨hs, fun q => rfl⟩

/-- What a side file holds is its text, or nothing if there is none. -/
theorem existing_ok {existing : String} {s' : σ} (h : f.existing files s = (.ok existing, s')) :
    existing = (text? f.path s).getD "" ∧ honest s' := by
  unfold SideFile.existing at h
  split at h
  · next cause s₁ hread =>
    split at h
    · next hmissing =>
      cases h
      refine ⟨by rw [hfiles.read_missing hs hread hmissing]; rfl, ?_⟩
      have := hfiles.read_honest f.path hs
      rwa [hread] at this
    · cases h
  · refine ⟨by rw [hfiles.read_ok hs h]; rfl, ?_⟩
    have := hfiles.read_honest f.path hs
    rwa [h] at this

/-- An attempt that succeeds leaves in the file what rendering makes of the text before it. -/
theorem writeNow_left {outputs : PathSet} {report : SyncReport} {s' : σ}
    (h : f.writeNow files outputs s = (.ok report, s')) :
    ∃ text, f.kind.render ((text? f.path s).getD "") outputs.paths = .ok text ∧
      text? f.path s' = some text := by
  obtain ⟨s₁, existing, s₂, text, hprepare, hexisting, hrender, hwrite⟩ := writeNow_ok h
  obtain ⟨hhonest, htext⟩ := prepare_keeps (f := f) hfiles hs
  rw [hprepare] at hhonest htext
  obtain ⟨rfl, hhonest⟩ := existing_ok hfiles hhonest hexisting
  rw [htext] at hrender
  exact ⟨text, hrender, hfiles.write_ok hhonest hwrite⟩

end Shows

/-- The attempts of side files that take what they have pending, one after another. -/
def rewrites (files : FileSystem σ)
    (take : Debouncer PathSet → Option PathSet × Debouncer PathSet) :
    List SideFile → σ → List (Rewrite σ)
  | [], _ => []
  | f :: rest, s =>
    match take f.pending with
    | (none, _) => rewrites files take rest s
    | (some outputs, pending) =>
      let a : Rewrite σ := ⟨{ f with pending := pending }, outputs, s⟩
      a :: rewrites files take rest (a.run files).2

end SideFile

namespace SideFiles

/-- The side file of a kind. -/
def get (f : SideFiles) : SideFileKind → SideFile
  | .ignoreList => f.ignoreList
  | .editorExclude => f.editorExclude

/-- Asking for an update asks each side file. -/
theorem get_request (f : SideFiles) (outputs : PathSet) (now : Nat) (kind : SideFileKind) :
    (f.request outputs now).get kind = (f.get kind).request outputs now := by
  cases kind <;> rfl

/-- The attempts of both side files that take what they have pending. -/
def rewrites (f : SideFiles) (files : FileSystem σ)
    (take : Debouncer PathSet → Option PathSet × Debouncer PathSet) (s : σ) : List (Rewrite σ) :=
  SideFile.rewrites files take [f.ignoreList, f.editorExclude] s

/-- The world behind attempts that were made one after another. -/
def worldBehind (files : FileSystem σ) (s : σ) (attempts : List (Rewrite σ)) : σ :=
  (attempts.getLast?.map fun a => (a.run files).2).getD s

/-- The side files behind the attempts: nothing that was taken is pending any more. -/
def taken (f : SideFiles) (take : Debouncer PathSet → Option PathSet × Debouncer PathSet) :
    SideFiles :=
  ⟨{ f.ignoreList with pending := (take f.ignoreList.pending).2 },
    { f.editorExclude with pending := (take f.editorExclude.pending).2 }⟩

/-- The side files behind the attempts, one by one. -/
theorem get_taken (f : SideFiles)
    (take : Debouncer PathSet → Option PathSet × Debouncer PathSet) (kind : SideFileKind) :
    (f.taken take).get kind = { f.get kind with pending := (take (f.get kind).pending).2 } := by
  cases kind <;> rfl

/-- Two side files that run what they have taken make these attempts. -/
theorem runTaken_eq (f : SideFiles) (files : FileSystem σ)
    (take : Debouncer PathSet → Option PathSet × Debouncer PathSet) (s : σ) :
    let (first, ignoreList, s₁) := f.ignoreList.runTaken files (take f.ignoreList.pending) s
    let (second, editorExclude, s₂) :=
      f.editorExclude.runTaken files (take f.editorExclude.pending) s₁
    (first.toList ++ second.toList, (⟨ignoreList, editorExclude⟩ : SideFiles), s₂) =
      ((f.rewrites files take s).map fun a => (a.run files).1, f.taken take,
        worldBehind files s (f.rewrites files take s)) := by
  rcases hi : take f.ignoreList.pending with ⟨_ | first, pending⟩
  · rcases he : take f.editorExclude.pending with ⟨_ | second, pending'⟩
    · simp [SideFile.runTaken, rewrites, SideFile.rewrites, taken, worldBehind, hi, he]
    · simp [SideFile.runTaken, rewrites, SideFile.rewrites, taken, worldBehind, Rewrite.run, hi, he]
  · rcases he : take f.editorExclude.pending with ⟨_ | second, pending'⟩
    · simp [SideFile.runTaken, rewrites, SideFile.rewrites, taken, worldBehind, Rewrite.run, hi, he]
    · simp [SideFile.runTaken, rewrites, SideFile.rewrites, taken, worldBehind, Rewrite.run, hi, he]

/-- Polling makes the attempts that are due, and no others. -/
theorem poll_eq (f : SideFiles) (files : FileSystem σ) (now : Nat) (s : σ) :
    f.poll files now s = ((f.rewrites files (·.poll now) s).map fun a => (a.run files).1,
      f.taken (·.poll now), worldBehind files s (f.rewrites files (·.poll now) s)) :=
  runTaken_eq f files (·.poll now) s

/-- Flushing makes the attempts that are pending, and no others. -/
theorem flush_eq (f : SideFiles) (files : FileSystem σ) (s : σ) :
    f.flush files s = ((f.rewrites files (·.take) s).map fun a => (a.run files).1,
      f.taken (·.take), worldBehind files s (f.rewrites files (·.take) s)) :=
  runTaken_eq f files (·.take) s

section Induction

variable (files : FileSystem σ)
  (take : Debouncer PathSet → Option PathSet × Debouncer PathSet)

/-- The world behind attempts is the one behind the later ones. -/
theorem worldBehind_cons (s : σ) (a : Rewrite σ) (attempts : List (Rewrite σ)) :
    worldBehind files s (a :: attempts) = worldBehind files (a.run files).2 attempts := by
  unfold worldBehind
  cases h : attempts.getLast? with
  | none => simp [List.getLast?_eq_none_iff.mp h]
  | some b => simp [List.getLast?_cons, h]

/-- What every attempt keeps is kept by all of them. -/
theorem rewrites_induction (holds : List (Rewrite σ) → σ → Prop) (f : SideFiles) (s : σ)
    (step : ∀ done a, a ∈ f.rewrites files take s → holds done a.world →
      holds (done ++ [a]) (a.run files).2) (before : List (Rewrite σ)) (h : holds before s) :
    holds (before ++ f.rewrites files take s)
      (worldBehind files s (f.rewrites files take s)) := by
  have hall (fs : List SideFile) (s : σ) (before : List (Rewrite σ)) (h : holds before s)
      (step : ∀ done a, a ∈ SideFile.rewrites files take fs s → holds done a.world →
        holds (done ++ [a]) (a.run files).2) :
      holds (before ++ SideFile.rewrites files take fs s)
        (worldBehind files s (SideFile.rewrites files take fs s)) := by
    induction fs generalizing s before with
    | nil => simpa [SideFile.rewrites, worldBehind] using h
    | cons f rest ih =>
      rcases htake : take f.pending with ⟨_ | outputs, pending⟩
      · simp only [SideFile.rewrites, htake] at step ⊢
        exact ih s before h step
      · simp only [SideFile.rewrites, htake] at step ⊢
        rw [worldBehind_cons, List.append_cons]
        exact ih _ _ (step before _ (List.mem_cons_self ..) h) fun done b hb =>
          step done b (List.mem_cons_of_mem _ hb)
  exact hall _ s before h step

end Induction

end SideFiles

/-! ## The last attempt on a file -/

/-- The last attempt on the side file of a kind. -/
def lastRewrite (kind : SideFileKind) (attempts : List (Rewrite σ)) : Option (Rewrite σ) :=
  (attempts.filter (·.file.kind = kind)).getLast?

/-- The last attempt is one on the file. -/
theorem lastRewrite_mem {kind : SideFileKind} {attempts : List (Rewrite σ)} {a : Rewrite σ}
    (h : lastRewrite kind attempts = some a) : a ∈ attempts ∧ a.file.kind = kind := by
  have hmem := List.mem_filter.mp (List.mem_of_getLast? h)
  exact ⟨hmem.1, by simpa using hmem.2⟩

/-- Later attempts come last. -/
theorem lastRewrite_append (kind : SideFileKind) (attempts later : List (Rewrite σ)) :
    lastRewrite kind (attempts ++ later) =
      (lastRewrite kind later).or (lastRewrite kind attempts) := by
  rw [lastRewrite, List.filter_append, List.getLast?_append]
  rfl

/-- The attempt of one side file in a world, if it has something to take. -/
def SideFiles.attempt? (f : SideFiles)
    (take : Debouncer PathSet → Option PathSet × Debouncer PathSet) (kind : SideFileKind) (s : σ) :
    Option (Rewrite σ) :=
  (take (f.get kind).pending).1.map fun outputs => ⟨(f.taken take).get kind, outputs, s⟩

/-- The attempts are those of the two side files, the ignore list's first. -/
theorem SideFiles.rewrites_eq (f : SideFiles) (files : FileSystem σ)
    (take : Debouncer PathSet → Option PathSet × Debouncer PathSet) (s : σ) :
    ∃ s', f.rewrites files take s =
      (f.attempt? take .ignoreList s).toList ++ (f.attempt? take .editorExclude s').toList := by
  rcases hi : take f.ignoreList.pending with ⟨_ | first, pending⟩
  · refine ⟨s, ?_⟩
    rcases he : take f.editorExclude.pending with ⟨_ | second, pending'⟩
    · simp [rewrites, SideFile.rewrites, attempt?, get, hi, he]
    · simp [rewrites, SideFile.rewrites, attempt?, get, taken, hi, he]
  · refine ⟨(Rewrite.run ⟨{ f.ignoreList with pending := pending }, first, s⟩ files).2, ?_⟩
    rcases he : take f.editorExclude.pending with ⟨_ | second, pending'⟩
    · simp [rewrites, SideFile.rewrites, attempt?, get, taken, hi, he]
    · simp [rewrites, SideFile.rewrites, attempt?, get, taken, hi, he]

/-- Every attempt is one of a side file that had something to take. -/
theorem SideFiles.mem_rewrites {f : SideFiles} {files : FileSystem σ}
    {take : Debouncer PathSet → Option PathSet × Debouncer PathSet} {s : σ} {a : Rewrite σ}
    (h : a ∈ f.rewrites files take s) :
    ∃ kind, a.file = (f.taken take).get kind ∧ (take (f.get kind).pending).1 = some a.outputs := by
  have of_attempt {kind : SideFileKind} {s' : σ} (ha : f.attempt? take kind s' = some a) :
      a.file = (f.taken take).get kind ∧ (take (f.get kind).pending).1 = some a.outputs := by
    obtain ⟨outputs, htake, rfl⟩ := Option.map_eq_some_iff.mp ha
    exact ⟨rfl, htake⟩
  obtain ⟨s', hs'⟩ := f.rewrites_eq files take s
  rw [hs', List.mem_append, Option.mem_toList, Option.mem_toList] at h
  rcases h with h | h
  · exact ⟨_, of_attempt h⟩
  · exact ⟨_, of_attempt h⟩

/-- The last attempt on a file among those of both is the one of that file. -/
theorem SideFiles.lastRewrite_rewrites {f : SideFiles} (hkind : ∀ kind, (f.get kind).kind = kind)
    (files : FileSystem σ) (take : Debouncer PathSet → Option PathSet × Debouncer PathSet) (s : σ)
    (kind : SideFileKind) :
    ∃ s', lastRewrite kind (f.rewrites files take s) = f.attempt? take kind s' := by
  have hfile (k : SideFileKind) : ((f.taken take).get k).kind = k := by rw [get_taken, hkind]
  have hfilter (k : SideFileKind) (s' : σ) :
      (f.attempt? take k s').toList.filter (·.file.kind = kind) =
        if k = kind then (f.attempt? take k s').toList else [] := by
    rcases htake : (take (f.get k).pending).1 with _ | outputs
    · simp [attempt?, htake]
    · by_cases hk : k = kind
      · simp [attempt?, hfile, hk]
      · simp [attempt?, htake, hfile, hk]
  have hlast (o : Option (Rewrite σ)) : o.toList.getLast? = o := by cases o <;> rfl
  obtain ⟨s', hs'⟩ := f.rewrites_eq files take s
  rw [lastRewrite, hs', List.filter_append, hfilter, hfilter]
  cases kind with
  | ignoreList => exact ⟨s, by simp [hlast]⟩
  | editorExclude => exact ⟨s', by simp [hlast]⟩

end ArtifactSync
