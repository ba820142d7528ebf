import ArtifactSync.Proofs.Path.Slash
import ArtifactSync.Proofs.Watch.Atomic

/-!
# The header of an artifact

A build writes one text, which is the compiled one behind a header, and it writes nothing else
(`writesBehind_header`). So there is one header for each source, whatever is compiled
(`eq_header_of_writesBehind`). It is meant to be a comment, which in the generated language ends at
the first line terminator, and there are four of these.

The header copies the path of the source. No two separators stand side by side in a path that is
shown (`not_slashes_toSlash`), so whatever is behind a line terminator in a name begins no comment
of its own: it is code. So the header is nothing but comments exactly if no name has a line
terminator in it (`writesInert_iff`).
-/

namespace ArtifactSync

open Artifact

/-! ## What a build writes -/

namespace Executor

variable {σ : Type}

/-- Building a source gets as far as compiling it. -/
def Compiles (x : Executor σ) (source : Path) (s : σ) (compiled : String) : Prop :=
  ∃ text s₁ s₂, x.files.read (x.root.join source) s = (.ok text, s₁) ∧
    x.compiler text source s₁ = (.ok compiled, s₂)

/-- Building a source writes this text to a file, or tries to. -/
def Writes (x : Executor σ) (source : Path) (s : σ) (file : Path) (text : String) : Prop :=
  ∃ done, .file ⟨.write file text, done⟩ ∈ (x.traced.build source ⟨s, []⟩).2.steps

/-- A source that is compiled is written to its output behind the header, and no other is. -/
theorem writes_iff {x : Executor σ} {source file : Path} {s : σ} {text : String} :
    x.Writes source s file text ↔ file = x.root.join (x.outputFor source) ∧
      ∃ compiled, x.Compiles source s compiled ∧ text = withHeader source compiled := by
  -- what the traced build has done up to each stage, with the answer of that stage
  let reading (done : Bool) : Step := .file ⟨.read (x.root.join source), done⟩
  rcases hread : x.files.read (x.root.join source) s with ⟨cause | content, s₁⟩
  · have hread' : x.traced.files.read (x.traced.root.join source) ⟨s, []⟩ =
        (.error cause, ⟨s₁, [reading false]⟩) := traced_read_iff.mpr ⟨hread, rfl⟩
    simp [Writes, Compiles, build, hread, hread', reading]
  have hread' : x.traced.files.read (x.traced.root.join source) ⟨s, []⟩ =
      (.ok content, ⟨s₁, [reading true]⟩) := traced_read_iff.mpr ⟨hread, rfl⟩
  rcases hcompile : x.compiler content source s₁ with ⟨cause | compiled, s₂⟩
  · have hcompile' : x.traced.compiler content source ⟨s₁, [reading true]⟩ =
        (.error cause, ⟨s₂, [reading true, .compile content source false]⟩) :=
      traced_compiler_iff.mpr ⟨hcompile, rfl⟩
    simp [Writes, Compiles, build, hread, hread', hcompile, hcompile', reading]
  have hcompile' : x.traced.compiler content source ⟨s₁, [reading true]⟩ =
      (.ok compiled, ⟨s₂, [reading true, .compile content source true]⟩) :=
    traced_compiler_iff.mpr ⟨hcompile, rfl⟩
  let output := x.root.join (x.outputFor source)
  rcases hwrite : x.files.write output (withHeader source compiled) s₂ with ⟨answer, s₃⟩
  have hwrite' : x.traced.files.write (x.traced.root.join (x.traced.outputFor source))
      (withHeader source compiled) ⟨s₂, [reading true, .compile content source true]⟩ =
        (answer, ⟨s₃, [reading true, .compile content source true,
          .file ⟨.write output (withHeader source compiled), succeeded answer⟩]⟩) :=
    traced_write_iff.mpr ⟨hwrite, rfl⟩
  cases answer with
  | error cause =>
    simp [Writes, Compiles, build, hread, hread', hcompile, hcompile', hwrite', reading, output]
  | ok done =>
    simp [Writes, Compiles, build, hread, hread', hcompile, hcompile', hwrite', reading, output]

end Executor

/-- A text is a header of a source: whatever a build of the source writes is compiled text behind
it. -/
def WritesBehind (header : List Char) (source : Path) : Prop :=
  ∀ {σ : Type} (x : Executor σ) (s : σ) (file : Path) (text : String),
    x.Writes source s file text ↔ file = x.root.join (x.outputFor source) ∧
      ∃ compiled, x.Compiles source s compiled ∧ text.toList = header ++ compiled.toList

/-- The header of a source: its path, a line that is always the same, and an empty one. -/
def header (source : Path) : List Char :=
  "// Source: ".toList ++ source.toSlash ++ '\n' :: generatorLine.toList ++ ['\n', '\n']

/-- Compiled text is put behind it. -/
theorem toList_withHeader (source : Path) (compiled : String) :
    (withHeader source compiled).toList = header source ++ compiled.toList := by
  unfold withHeader header
  generalize source.toSlash = slash
  simp

/-- So this is the header that builds write. -/
theorem writesBehind_header (source : Path) : WritesBehind (header source) source := by
  intro σ x s file text
  rw [Executor.writes_iff]
  simp only [← toList_withHeader, String.toList_inj]

/-- And there is no other. -/
theorem eq_header_of_writesBehind {h : List Char} {source : Path} (hwrites : WritesBehind h source) :
    h = header source := by
  -- an executor in a world without state, for which every source compiles to nothing
  let x : Executor Unit :=
    { root := ⟨['/']⟩
      kind := .ts
      files := ⟨fun _ s => (.ok "", s), fun _ _ s => (.ok (), s), fun _ s => (.ok (), s),
        fun _ s => (.ok (), s)⟩
      compiler := fun _ _ s => (.ok "", s) }
  have hcompiles : x.Compiles source () "" := ⟨"", (), (), rfl, rfl⟩
  have hwritten : x.Writes source () (x.root.join (x.outputFor source)) (withHeader source "") :=
    Executor.writes_iff.mpr ⟨rfl, "", hcompiles, rfl⟩
  obtain ⟨-, compiled, ⟨text, s₁, s₂, hread, hcompile⟩, htext⟩ := (hwrites x () _ _).mp hwritten
  cases hcompile
  simpa [toList_withHeader] using htext.symm

/-! ## Line terminators -/

/-- The line terminators of the generated language. -/
def isLineEnd (c : Char) : Bool :=
  c == '\n' || c == '\r' || c.toNat == 0x2028 || c.toNat == 0x2029

/-- The lines of a text in that language. -/
def codeLines (text : List Char) : List (List Char) :=
  (Text.split isLineEnd text).1 :: (Text.split isLineEnd text).2

/-- A text is nothing but comments. -/
def Inert (text : List Char) : Prop :=
  ∀ line ∈ codeLines text, line = [] ∨ ['/', '/'] <+: line

instance (text : List Char) : Decidable (Inert text) :=
  inferInstanceAs (Decidable (∀ line ∈ codeLines text, line = [] ∨ ['/', '/'] <+: line))

/-- The lines of a header are those of the path, with some words in front of the first one, and the
fixed ones. -/
theorem codeLines_header (source : Path) : codeLines (header source) =
    ("// Source: ".toList ++ (Text.split isLineEnd source.toSlash).1) ::
      (Text.split isLineEnd source.toSlash).2 ++ [generatorLine.toList, [], []] := by
  have hwords : ∀ c ∈ "// Source: ".toList, isLineEnd c = false := by simp [isLineEnd]
  have hline : ∀ c ∈ generatorLine.toList, isLineEnd c = false := by simp [generatorLine, isLineEnd]
  have hcut (a b : List Char) := Text.split_append_cut (p := isLineEnd) (c := '\n') rfl a b
  unfold header
  generalize source.toSlash = slash
  rw [List.append_assoc, List.append_assoc, List.cons_append, codeLines,
    Text.split_append_of_free hwords, hcut, hcut, Text.split_of_free hline]
  rfl

/-- A header is inert if nothing but line terminators is behind the first one in the path. -/
theorem inert_header_iff {source : Path} : Inert (header source) ↔
    ∀ c ∈ source.toSlash.dropWhile fun c => !isLineEnd c, isLineEnd c = true := by
  rw [Inert, codeLines_header, ← Text.later_eq_nil_iff]
  constructor
  · intro h piece hpiece
    rcases h piece (by simp [hpiece]) with hnil | hslashes
    · exact hnil
    · exact absurd (hslashes.isInfix.trans (Text.infix_of_mem_split hpiece))
        (Path.not_slashes_toSlash source)
  · intro h line hline
    rcases List.mem_append.mp hline with hline | hfixed
    · rcases List.mem_cons.mp hline with rfl | hpiece
      · exact .inr ⟨_, rfl⟩
      · exact .inl (h line hpiece)
    · have hall : ∀ line ∈ [generatorLine.toList, [], []], line = [] ∨ ['/', '/'] <+: line := by
        decide
      exact hall line hfixed

/-- The path of a source ends in its extension, so behind a line terminator there is more. -/
theorem dropWhile_toSlash_iff {source : Path} (h : isSource source = true) :
    (∀ c ∈ source.toSlash.dropWhile fun c => !isLineEnd c, isLineEnd c = true) ↔
      ∀ c ∈ source.toSlash, isLineEnd c = false := by
  constructor
  · intro hbehind c hc
    by_contra hend
    have hne : (source.toSlash.dropWhile fun c => !isLineEnd c) ≠ [] := by
      rw [Ne, List.dropWhile_eq_nil_iff]
      exact fun hnone => hend (by simpa using hnone c hc)
    have hext : source.extension? = some sourceExtension := by simpa [isSource] using h
    obtain ⟨before, hslash⟩ := Path.exists_toSlash_of_extension hext
    have hlast : source.toSlash.getLast? = some 't' := by
      rw [hslash]
      simp [sourceExtension]
    have hsplit := List.takeWhile_append_dropWhile (p := fun c => !isLineEnd c) (l := source.toSlash)
    rw [← hsplit, List.getLast?_append_of_ne_nil _ hne] at hlast
    exact absurd (hbehind 't' (List.mem_of_getLast? hlast)) (by decide)
  · intro hnone
    have hnil : (source.toSlash.dropWhile fun c => !isLineEnd c) = [] :=
      List.dropWhile_eq_nil_iff.mpr fun c hc => by simp [hnone c hc]
    simp [hnil]

/-- Builds of a source write compiled text behind a header that is nothing but comments. -/
def WritesInert (source : Path) : Prop :=
  ∃ h, WritesBehind h source ∧ Inert h

/-- It is the header that counts. -/
theorem writesInert_iff_header {source : Path} : WritesInert source ↔ Inert (header source) := by
  constructor
  · rintro ⟨h, hwrites, hinert⟩
    rwa [← eq_header_of_writesBehind hwrites]
  · exact fun hinert => ⟨header source, writesBehind_header source, hinert⟩

/-- Builds of a path write nothing but comments in front of the compiled text exactly if nothing but
line terminators is behind the first one in the path, which for a source means that there is no
line terminator at all. -/
theorem writesInert_iff (source : Path) :
    (WritesInert source ↔
      ∀ c ∈ source.toSlash.dropWhile fun c => !isLineEnd c, isLineEnd c = true) ∧
    (isSource source = true →
      (WritesInert source ↔ ∀ c ∈ source.toSlash, isLineEnd c = false)) := by
  constructor
  · rw [writesInert_iff_header, inert_header_iff]
  · intro hsource
    rw [writesInert_iff_header, inert_header_iff, dropWhile_toSlash_iff hsource]

/-- A name with a line feed in it: the second line of the artifact is a call. -/
theorem not_writesInert_lineFeed : isSource (.ofString "a\nalert(1).civet") = true ∧
    ¬ WritesInert (.ofString "a\nalert(1).civet") := by
  refine ⟨by decide, fun h => ?_⟩
  have hinert := writesInert_iff_header.mp h "alert(1).civet".toList (by decide)
  exact absurd hinert (by decide)

end ArtifactSync
