import ArtifactSync.Proofs.Path.Pieces

/-!
# Joined paths

A path that is not rooted adds to the base it is joined to the components that its pieces make
(`components_join`). A `.` that led it is no component behind the base, and its last component stays
the last one (`getLast_join`).
-/

namespace ArtifactSync.Path

/-- The components that the pieces of a path make behind other pieces. -/
def steps (p : Path) : List Component :=
  p.allPieces.filterMap Component.ofPiece?

/-- The pieces of two texts with a separator between them. -/
theorem allPieces_append (a b : List Char) :
    (Path.mk (a ++ '/' :: b)).allPieces = (Path.mk a).allPieces ++ (Path.mk b).allPieces := by
  simp only [allPieces, pieces, Text.split_append_cut (p := (· == '/')) (c := '/') (by simp) a b]
  rfl

/-- Pieces behind others add the components they make. -/
theorem frontComponents_append {front : List (List Char)} (h : front ≠ [])
    (rest : List (List Char)) :
    frontComponents (front ++ rest) = frontComponents front ++ rest.filterMap Component.ofPiece? := by
  cases front with
  | nil => exact absurd rfl h
  | cons first later => simp [frontComponents, List.filterMap_append, List.append_assoc]

/-- The components of a text are those of its pieces, unless there is no text. -/
theorem components_eq_frontComponents {p : Path} (h : p.chars ≠ []) :
    p.components = frontComponents p.allPieces := by
  obtain ⟨cs⟩ := p
  have hone : (Path.mk cs).pieces.1 = [] → (Path.mk cs).pieces.2 ≠ [] := by
    intro hf hl
    have hwhole := ofPieces_pieces (Path.mk cs)
    rw [hf, hl] at hwhole
    exact h (congrArg Path.chars hwhole).symm
  rw [components, allPieces]
  simp only [leading, frontComponents]
  by_cases hf : (Path.mk cs).pieces.1 = []
  · simp [hf, hone hf]
  · simp [hf]

/-- A piece in the middle makes no root and no leading `.`. -/
theorem ofPiece_ne_here {piece : List Char} {c : Component} (h : Component.ofPiece? piece = some c) :
    c ≠ .here ∧ c ≠ .root := by
  unfold Component.ofPiece? at h
  split at h
  · cases h
  · split at h
    · cases h
      simp
    · cases h
      simp

/-- So pieces in the middle make neither. -/
theorem ne_here_of_mem {pieces : List (List Char)} {c : Component}
    (h : c ∈ pieces.filterMap Component.ofPiece?) : c ≠ .here ∧ c ≠ .root := by
  obtain ⟨piece, -, hpiece⟩ := List.mem_filterMap.mp h
  exact ofPiece_ne_here hpiece

/-- The components that a path without a root adds are its own, without a leading `.`. -/
theorem steps_eq {p : Path} (h : p.isRooted = false) :
    p.steps = p.components.filter (· ≠ .here) := by
  have hlater : (p.pieces.2.filterMap Component.ofPiece?).filter (· ≠ .here) =
      p.pieces.2.filterMap Component.ofPiece? := by
    rw [List.filter_eq_self]
    intro c hc
    simpa using (ne_here_of_mem hc).1
  rw [steps, allPieces, components]
  simp only [List.filter_append, hlater, leading]
  by_cases hf : p.pieces.1 = []
  · -- a text that begins with no separator and has no first piece is empty
    have hl : p.pieces.2 = [] := by
      by_contra hl
      have hwhole := ofPieces_pieces p
      obtain ⟨piece, later, hcons⟩ := List.exists_cons_of_ne_nil hl
      rw [hf, hcons] at hwhole
      rw [← hwhole] at h
      simp [isRooted, ofPieces] at h
    simp [hf, hl, Component.ofPiece?]
  · by_cases hd : p.pieces.1 = ['.']
    · simp [hd, Component.ofPiece?]
    · rw [if_neg hf, if_neg hd]
      cases hc : Component.ofPiece? p.pieces.1 with
      | none => simp [hc]
      | some c => simp [hc, (ofPiece_ne_here hc).1]

/-- A path begins with another one if its components do. -/
theorem startsWith_iff {p base : Path} :
    p.startsWith base = true ↔ base.components <+: p.components :=
  List.isPrefixOf_iff_prefix

/-- A rooted path stands for itself. -/
theorem join_of_isRooted {base p : Path} (h : p.isRooted = true) : base.join p = p := by
  simp [join, h]

/-- The text in front of a path that is joined to a base. -/
def lead (base : Path) : List Char :=
  if base.chars = [] ∨ base.chars.getLast? = some '/' then base.chars else base.chars ++ ['/']

/-- A path that is not rooted goes behind that text. -/
theorem join_eq_lead {base p : Path} (h : p.isRooted = false) :
    base.join p = ⟨base.lead ++ p.chars⟩ := by
  rw [join, if_neg (by simp [h]), lead]
  split
  · rfl
  · simp

/-- What is joined to a rooted path is rooted. -/
theorem isRooted_join {base : Path} (hb : base.isRooted = true) (p : Path) :
    (base.join p).isRooted = true := by
  by_cases hp : p.isRooted = true
  · rwa [join_of_isRooted hp]
  · rw [isRooted, beq_iff_eq, List.head?_eq_some_iff] at hb
    obtain ⟨cs, hcs⟩ := hb
    rw [join_eq_lead (by simpa using hp), lead, hcs]
    split <;> rfl

/-- That text ends in a separator, and the pieces in front of it are those of the base, perhaps
without an empty one at the end. -/
theorem exists_lead {base : Path} (h : base.chars ≠ []) : ∃ a, base.lead = a ++ ['/'] ∧
    (base.allPieces = (Path.mk a).allPieces ∨ base.allPieces = (Path.mk a).allPieces ++ [[]]) := by
  by_cases hend : base.chars.getLast? = some '/'
  · obtain ⟨a, ha⟩ := List.getLast?_eq_some_iff.mp hend
    refine ⟨a, by rw [lead, if_pos (.inr hend), ha], .inr ?_⟩
    rw [show base = ⟨a ++ '/' :: []⟩ from congrArg Path.mk ha, allPieces_append]
    rfl
  · exact ⟨base.chars, by rw [lead, if_neg (by simp [h, hend])], .inl rfl⟩

/-- The pieces of a path joined to a base. -/
theorem allPieces_join {base p : Path} {a : List Char} (h : p.isRooted = false)
    (ha : base.lead = a ++ ['/']) :
    (base.join p).allPieces = (Path.mk a).allPieces ++ p.allPieces := by
  rw [join_eq_lead h, ha, List.append_assoc]
  exact allPieces_append a p.chars

/-- Behind a base there stand the components of the base and those that the path adds. -/
theorem components_join {base p : Path} (hb : base.chars ≠ []) (h : p.isRooted = false) :
    (base.join p).components = base.components ++ p.steps := by
  obtain ⟨a, ha, hbase⟩ := exists_lead hb
  have hne : (base.join p).chars ≠ [] := by
    rw [join_eq_lead h, ha]
    simp
  have hfront : frontComponents base.allPieces = frontComponents (Path.mk a).allPieces := by
    rcases hbase with hbase | hbase
    · rw [hbase]
    · rw [hbase, frontComponents_append (by simp [allPieces])]
      simp [Component.ofPiece?]
  rw [components_eq_frontComponents hne, components_eq_frontComponents hb, hfront,
    allPieces_join h ha, frontComponents_append (by simp [allPieces])]
  rfl

/-- The last component of a path stays the last one behind a base. -/
theorem getLast_join {base p : Path} {c : Component} (h : p.components.getLast? = some c)
    (hc : c ≠ .here) : (base.join p).components.getLast? = some c := by
  by_cases hr : p.isRooted = true
  · rwa [join_of_isRooted hr]
  · by_cases hb : base.chars = []
    · rwa [join, if_neg hr, if_pos (.inl hb), hb]
    · obtain ⟨front, hfront⟩ := List.getLast?_eq_some_iff.mp h
      have hr : p.isRooted = false := by simpa using hr
      rw [components_join hb hr, steps_eq hr, hfront, List.filter_append,
        List.filter_cons_of_pos (by simpa using hc), List.filter_nil, ← List.append_assoc]
      exact List.getLast?_concat ..

end ArtifactSync.Path
