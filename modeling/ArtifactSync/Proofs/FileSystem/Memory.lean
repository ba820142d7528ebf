import ArtifactSync.FileSystem.Memory
import ArtifactSync.Proofs.Path.Set
import ArtifactSync.Proofs.SideFile.Rewrite

/-!
# Files in memory show their texts

What was put under a path is found under every spelling of it (`lookup_put`), and the files under
other paths are left alone (`lookup_put_of_ne`). So files in memory deal with texts as a file system
should, as long as no fault says of a file that it is not there (`shows`). Without faults every call
does what it is asked to.
-/

namespace ArtifactSync.Memory

open Path

/-- What was put into a table is found in it. -/
theorem find_putInto (path : Path) (text : String) (files : List (Path × String)) :
    ((putInto path text files).find? fun f => f.1.same path).map Prod.snd = some text := by
  induction files with
  | nil => simp [putInto, same_refl]
  | cons f fs ih =>
    unfold putInto
    split
    · next hsame => simp [hsame]
    · next hsame =>
      split
      · simp [same_refl]
      · simpa [hsame] using ih

/-- What was put under a path is found there. -/
theorem lookup_put (m : Memory) (path : Path) (text : String) :
    (m.put path text).lookup? path = some text :=
  find_putInto path text m.files

/-- The text that is put into a table last is the one that counts. -/
theorem putInto_putInto (path : Path) (old new : String) (files : List (Path × String)) :
    putInto path new (putInto path old files) = putInto path new files := by
  induction files with
  | nil => simp [putInto, same_refl]
  | cons f fs ih =>
    by_cases hsame : f.1.same path = true
    · simp only [putInto, if_pos hsame]
    · by_cases hkey : path.key < f.1.key
      · simp only [putInto, if_neg hsame, if_pos hkey, same_refl, if_true]
      · simp only [putInto, if_neg hsame, if_neg hkey, ih]

/-- A text may be put under a path twice. -/
theorem put_put (m : Memory) (path : Path) (text : String) :
    (m.put path text).put path text = m.put path text :=
  congrArg (Memory.mk · m.faults) (putInto_putInto path text text m.files)

/-- What was put into a table is found in it and nowhere else. -/
theorem find_putInto_of_ne {path q : Path} (h : path.same q = false) (text : String)
    (files : List (Path × String)) :
    (putInto path text files).find? (fun f => f.1.same q) = files.find? fun f => f.1.same q := by
  induction files with
  | nil => simp [putInto, h]
  | cons f fs ih =>
    unfold putInto
    split
    · next hsame =>
      have hne : f.1.same q = false := by
        by_contra hfq
        rw [Bool.not_eq_false] at hfq
        rw [same_trans (by rwa [same_comm]) hfq] at h
        cases h
      simp [hne]
    · split
      · simp [h]
      · rw [List.find?_cons, List.find?_cons, ih]

/-- A text under a path leaves the files under other paths alone. -/
theorem lookup_put_of_ne (m : Memory) {path q : Path} (h : path.same q = false) (text : String) :
    (m.put path text).lookup? q = m.lookup? q :=
  congrArg (Option.map Prod.snd) (find_putInto_of_ne h text m.files)

/-- Spellings of one path lead to one file. -/
theorem lookup_congr (m : Memory) {p q : Path} (h : p.same q = true) :
    m.lookup? p = m.lookup? q := by
  unfold lookup? same
  rw [same_iff.mp h]

/-- What was taken away is not found. -/
theorem lookup_delete (m : Memory) (path : Path) : (m.delete path).lookup? path = none := by
  have hnone : (m.files.filter fun f => !f.1.same path).find? (fun f => f.1.same path) = none := by
    rw [List.find?_eq_none]
    intro f hf hsame
    have hne := (List.mem_filter.mp hf).2
    rw [hsame] at hne
    cases hne
  rw [lookup?, delete, hnone]
  rfl

/-- Taking a file away leaves the files under other paths alone. -/
theorem lookup_delete_of_ne (m : Memory) {path q : Path} (h : path.same q = false) :
    (m.delete path).lookup? q = m.lookup? q := by
  have hkeep : ((m.files.filter fun f => !f.1.same path).find? fun f => f.1.same q) =
      m.files.find? fun f => f.1.same q := by
    rw [List.find?_filter]
    refine congrArg (m.files.find? ·) (funext fun f => ?_)
    cases hq : f.1.same q with
    | false => simp
    | true =>
      have hne : f.1.same path = false := by
        by_contra hp
        rw [Bool.not_eq_false, same_comm] at hp
        rw [same_trans hp hq] at h
        cases h
      simp [hne]
  rw [lookup?, delete, hkeep]
  rfl

/-- No fault says of a file that is to be read that it is not there. -/
def Honest (m : Memory) : Prop :=
  ∀ f ∈ m.faults, f.1.1 = .read → f.2 ≠ .notFound

/-- A call that a fault hits answers with the error of the fault, and another one runs. -/
theorem unlessFault_eq {α : Type} (kind : CallKind) (path : Path)
    (run : Memory → Except FsError α × Memory) (m : Memory) :
    (∃ f ∈ m.faults, f.1.1 = kind ∧ unlessFault kind path run m = (.error (f.2.error path), m)) ∨
      unlessFault kind path run m = run m := by
  unfold unlessFault
  split
  · next f hf =>
    refine .inl ⟨f, List.mem_of_find?_eq_some hf, ?_, rfl⟩
    have hkind := List.find?_some hf
    simp only [isFaultOf, Bool.and_eq_true, decide_eq_true_eq] at hkind
    exact hkind.1
  · exact .inr rfl

/-- A reading gives the text of the file, or says why not. -/
theorem read_cases (p : Path) (m : Memory) :
    (∃ f ∈ m.faults, f.1.1 = .read ∧ fileSystem.read p m = (.error (f.2.error p), m)) ∨
      fileSystem.read p m = (((m.lookup? p).map Except.ok).getD (.error (.notFound p)), m) := by
  simp only [fileSystem]
  refine (unlessFault_eq .read p _ m).imp_right fun h => h.trans ?_
  cases m.lookup? p with
  | none => rfl
  | some text => rfl

/-- What is read is the text of the file. -/
theorem read_ok {p : Path} {m m' : Memory} {text : String}
    (h : fileSystem.read p m = (.ok text, m')) : m.lookup? p = some text := by
  rcases read_cases p m with ⟨f, -, -, hread⟩ | hread
  · cases hread.symm.trans h
  · rw [hread] at h
    cases hlookup : m.lookup? p with
    | none => simp [hlookup] at h
    | some old =>
      simp only [hlookup, Option.map_some, Option.getD_some, Prod.mk.injEq, Except.ok.injEq] at h
      rw [h.1]

/-- Making directories changes nothing in memory. -/
theorem createDirs_world (p : Path) (m : Memory) : (fileSystem.createDirs p m).2 = m := by
  rcases unlessFault_eq .createDirs p (fun m => (Except.ok (), m)) m with ⟨f, -, -, h⟩ | h
  · exact congrArg Prod.snd h
  · exact congrArg Prod.snd h

/-- Files in memory show their texts. -/
theorem shows : fileSystem.Shows Honest fun path m => m.lookup? path where
  read_ok := fun _ h => read_ok h
  read_missing := by
    intro p s e s' hs h hmissing
    rcases read_cases p s with ⟨f, hf, hkind, hread⟩ | hread
    · rw [hread] at h
      cases h
      have hne := hs f hf hkind
      cases hfault : f.2 <;> simp_all [Fault.error, FsError.isNotFound]
    · rw [hread] at h
      cases hlookup : s.lookup? p with
      | none => rfl
      | some old => simp [hlookup] at h
  write_ok := by
    intro p text s s' _ h
    rcases unlessFault_eq .write p (fun m => (Except.ok (), m.put p text)) s with
      ⟨f, -, -, hwrite⟩ | hwrite
    · cases hwrite.symm.trans h
    · cases hwrite.symm.trans h
      exact lookup_put s p text
  read_honest := by
    intro s p hs
    rcases read_cases p s with ⟨f, -, -, hread⟩ | hread
    · rwa [hread]
    · rwa [hread]
  createDirs_honest := by
    intro s p hs
    rwa [createDirs_world]
  createDirs_text := by
    intro s p q _
    rw [createDirs_world]

/-! ## Calls without faults -/

section Faultless

variable {m : Memory} (h : m.faults = [])
include h

/-- Without faults every call runs. -/
theorem unlessFault_of_faultless {α : Type} (kind : CallKind) (path : Path)
    (run : Memory → Except FsError α × Memory) : unlessFault kind path run m = run m := by
  simp [unlessFault, h]

/-- A reading gives the text of the file. -/
theorem read_eq (p : Path) : fileSystem.read p m =
    (((m.lookup? p).map Except.ok).getD (.error (.notFound p)), m) := by
  simp only [fileSystem, unlessFault_of_faultless h]
  cases m.lookup? p <;> rfl

/-- A writing puts the text there. -/
theorem write_eq (p : Path) (text : String) :
    fileSystem.write p text m = (.ok (), m.put p text) := by
  simp only [fileSystem, unlessFault_of_faultless h]

/-- Making directories succeeds. -/
theorem createDirs_eq (p : Path) : fileSystem.createDirs p m = (.ok (), m) := by
  simp only [fileSystem, unlessFault_of_faultless h]

/-- A removal takes the file away, or says that it is not there. -/
theorem remove_eq (p : Path) : fileSystem.remove p m =
    if (m.lookup? p).isSome then (.ok (), m.delete p) else (.error (.notFound p), m) := by
  simp only [fileSystem, unlessFault_of_faultless h]
  cases m.lookup? p <;> rfl

end Faultless

end ArtifactSync.Memory
