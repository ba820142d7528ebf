import ArtifactSync.Proofs.Path.Slash
import ArtifactSync.Proofs.Path.Strip

/-!
# Paths inside a project

A path without a root and without a leading `.` lies inside every base it is joined to, and two such
paths are different there exactly when they are different paths (`same_join`). A source of ordinary
names is one, and so is its output, wherever the output's name leads (`isInner_output`). No output
has the place of a source (`join_output_ne_join`). The output of a source of ordinary names can be
listed in a side file, unless the source has the name `..civet` (`isListable_output`).
-/

namespace ArtifactSync

namespace Path

/-- A path that lies inside the base it is joined to. -/
structure IsInner (p : Path) : Prop where
  root : .root ∉ p.components
  here : .here ∉ p.components

/-- Such a path is not rooted. -/
theorem IsInner.isRooted {p : Path} (h : p.IsInner) : p.isRooted = false := by
  by_contra hrooted
  rw [Bool.not_eq_false] at hrooted
  refine h.root ?_
  rw [(components_of_isRooted hrooted).2]
  exact List.mem_cons_self

/-- It adds its components to those of the base. -/
theorem IsInner.steps {p : Path} (h : p.IsInner) : p.steps = p.components := by
  rw [steps_eq h.isRooted, List.filter_eq_self]
  intro c hc
  simpa using fun heq : c = .here => h.here (heq ▸ hc)

/-- What is inside a base is spelled alike exactly when it is outside. -/
theorem same_join {p q : Path} (hp : p.IsInner) (hq : q.IsInner) (base : Path) :
    (base.join p).same (base.join q) = p.same q := by
  rw [Bool.eq_iff_iff, same_iff, same_iff]
  by_cases hb : base.chars = []
  · rw [join_eq_lead hp.isRooted, join_eq_lead hq.isRooted]
    simp [lead, hb]
  · rw [components_join hb hp.isRooted, components_join hb hq.isRooted, hp.steps, hq.steps]
    exact List.append_right_inj _

/-- A path is rooted if the root is one of its components. -/
theorem isRooted_iff_mem {p : Path} : p.isRooted = true ↔ .root ∈ p.components := by
  constructor
  · intro h
    rw [(components_of_isRooted h).2]
    exact List.mem_cons_self ..
  · intro h
    by_contra hr
    -- pieces make no root, so it would stand in front of a separator that leads the text
    have hlater : Component.root ∉ p.pieces.2.filterMap Component.ofPiece? :=
      fun hmem => (ne_here_of_mem hmem).2 rfl
    have hleading : Component.root ∈ leading p.pieces.1 p.pieces.2 :=
      (List.mem_append.mp h).resolve_right hlater
    have hwhole : ofPieces p.pieces.1 p.pieces.2 = p := ofPieces_pieces p
    unfold leading at hleading
    split at hleading
    · next hfirst =>
      split at hleading
      · cases hleading
      · next hne =>
        obtain ⟨piece, rest, hcons⟩ := List.exists_cons_of_ne_nil hne
        rw [hfirst, hcons] at hwhole
        rw [← hwhole] at hr
        simp [isRooted, ofPieces] at hr
    · split at hleading
      · cases List.mem_singleton.mp hleading
      · exact (ofPiece_ne_here (Option.mem_toList.mp hleading)).2 rfl

/-- Two spellings of a path are two spellings of one path behind a base. -/
theorem same_join_of_same (base : Path) {p q : Path} (h : p.same q = true) :
    (base.join p).same (base.join q) = true := by
  have hrooted : p.isRooted = q.isRooted := by
    rw [Bool.eq_iff_iff, isRooted_iff_mem, isRooted_iff_mem, same_iff.mp h]
  cases hp : p.isRooted with
  | true => rwa [join_of_isRooted hp, join_of_isRooted (hrooted ▸ hp)]
  | false =>
    have hq : q.isRooted = false := hrooted ▸ hp
    by_cases hb : base.chars = []
    · simpa [join, hp, hq, hb] using h
    · have hsteps : p.steps = q.steps := by rw [steps_eq hp, steps_eq hq, same_iff.mp h]
      rw [same_iff, components_join hb hp, components_join hb hq, hsteps]

/-- A path of ordinary names lies inside. -/
theorem IsPlain.isInner {p : Path} (h : p.IsPlain) : p.IsInner := by
  obtain ⟨names, hnames⟩ := h
  exact ⟨by simp [hnames], by simp [hnames]⟩

/-- A tidy path lies inside. -/
theorem Tidy.isInner {p : Path} (h : p.Tidy) : p.IsInner :=
  ⟨fun hmem => (h.ne_here_of_mem hmem).2 rfl, fun hmem => (h.ne_here_of_mem hmem).1 rfl⟩

/-- A new extension changes nothing in front of the last component, and leaves a name or `..` there. -/
theorem components_withExtension {p : Path} {name extension : List Char}
    (h : p.fileName? = some name) (hfree : '/' ∉ extension) :
    ∃ c, (p.withExtension extension).components = p.components.dropLast ++ [c] ∧
      c ≠ .here ∧ c ≠ .root := by
  obtain ⟨front, behind, hcut, rfl, hup⟩ := exists_cut_of_fileName h
  have hfront : (ofCut front name behind).components.dropLast = frontComponents front := by
    rw [components_ofCut hcut, ofPiece_of_ne hcut.last_makes hup]
    exact List.dropLast_concat
  rw [hfront]
  -- whatever the last piece is, it makes a component
  have hpiece {piece : List Char} (hslash : '/' ∉ piece) (hmakes : isEmptyPiece piece = false) :
      ∃ c, (ofCut front piece []).components = frontComponents front ++ [c] ∧
        c ≠ .here ∧ c ≠ .root := by
    cases hc : Component.ofPiece? piece with
    | none => simp [isEmptyPiece_iff.mpr hc] at hmakes
    | some c =>
      exact ⟨c, by rw [components_ofCut (hcut.replace hslash hmakes), hc]; rfl, ofPiece_ne_here hc⟩
  rcases hsplit : splitName name with ⟨stem, _ | old⟩
  · have hne : name ≠ [] := by
      rintro rfl
      cases hcut.last_makes
    rw [withExtension_ofCut_none hcut hup hsplit]
    exact hpiece (by simp [hcut.last_free, hfree]) (isEmptyPiece_append_dot hne)
  · obtain ⟨rfl, hstem, hdot, -⟩ := eq_of_splitName hsplit
    rw [withExtension_ofCut hcut hstem hdot hup]
    split
    · exact hpiece (by decide) (by decide)
    · have hslash := hcut.last_free
      simp only [List.mem_append, List.mem_cons, not_or] at hslash
      exact hpiece (by simp [hslash.1, hfree]) (isEmptyPiece_append_dot hstem)

/-- Spellings of one path are shown alike. -/
theorem toSlash_eq_of_same {p q : Path} (h : p.same q = true) : p.toSlash = q.toSlash := by
  rw [toSlash, toSlash, same_iff.mp h]

end Path

namespace Artifact

open Path

/-- What stands behind a base keeps its extension. -/
theorem isSource_join {base p : Path} {c : Component} (h : p.components.getLast? = some c)
    (hc : c ≠ .here) : isSource (base.join p) = isSource p := by
  rw [isSource, isSource, extension?, extension?, fileName?, fileName?, getLast_join h hc, h]

/-- The output of a path that ends in a name lies where the path does. -/
theorem components_output_of_name {p : Path} {name : List Char} (h : p.fileName? = some name)
    (kind : OutputKind) : ∃ c, (output p kind).components = p.components.dropLast ++ [c] ∧
      c ≠ .here ∧ c ≠ .root :=
  components_withExtension h (by cases kind <;> decide)

/-- A source ends in a name. -/
theorem exists_fileName_of_isSource {p : Path} (h : isSource p = true) :
    ∃ name, p.fileName? = some name := by
  obtain ⟨stem, -, hlast⟩ := getLast_source h
  exact ⟨_, by rw [fileName?, hlast]; rfl⟩

/-- The output of a path of ordinary names lies inside. -/
theorem isInner_output_of_name {p : Path} (hp : p.IsPlain) {name : List Char}
    (h : p.fileName? = some name) (kind : OutputKind) : (output p kind).IsInner := by
  obtain ⟨c, hc, hhere, hroot⟩ := components_output_of_name h kind
  have hfront (d : Component) (hd : d ∈ p.components.dropLast) : d ∈ p.components :=
    (List.dropLast_sublist _).subset hd
  constructor
  · rw [hc, List.mem_append, List.mem_singleton, not_or]
    exact ⟨fun hmem => hp.isInner.root (hfront _ hmem), hroot.symm⟩
  · rw [hc, List.mem_append, List.mem_singleton, not_or]
    exact ⟨fun hmem => hp.isInner.here (hfront _ hmem), hhere.symm⟩

/-- The output of a source of ordinary names lies inside. -/
theorem isInner_output {p : Path} (hp : p.IsPlain) (hs : isSource p = true) (kind : OutputKind) :
    (output p kind).IsInner := by
  obtain ⟨name, hname⟩ := exists_fileName_of_isSource hs
  exact isInner_output_of_name hp hname kind

/-- The output of a source is no source inside any base. -/
theorem isSource_join_output {p : Path} (h : isSource p = true) (kind : OutputKind) (base : Path) :
    isSource (base.join (output p kind)) = false := by
  rw [← isSource_output h kind]
  rcases getLast_output h kind with hlast | ⟨stem, -, hlast⟩
  · exact isSource_join hlast (by simp)
  · exact isSource_join hlast (by simp)

/-- So the place of an output inside a base is that of no source. -/
theorem join_output_ne_join {p q : Path} (hp : isSource p = true) (hq : isSource q = true)
    (kind : OutputKind) (base : Path) :
    (base.join (output p kind)).same (base.join q) = false := by
  obtain ⟨stem, -, hlast⟩ := getLast_source hq
  by_contra hsame
  rw [Bool.not_eq_false] at hsame
  have hsource := isSource_eq_of_same hsame
  rw [isSource_join_output hp, isSource_join hlast (by simp), hq] at hsource
  cases hsource

/-- Outputs of two spellings of a source that have one place are the same. -/
theorem output_same_of_join {p q base : Path} {kind : OutputKind} (hp : isSource p = true)
    (h : p.same q = true)
    (hjoin : (base.join (output p kind)).same (base.join (output q kind)) = true) :
    (output p kind).same (output q kind) = true := by
  obtain ⟨name, hname⟩ := exists_fileName_of_isSource hp
  have hname' : q.fileName? = some name := by rw [← fileName_eq_of_same h, hname]
  obtain ⟨c, hc, hhere, -⟩ := components_output_of_name hname kind
  obtain ⟨d, hd, hhere', -⟩ := components_output_of_name hname' kind
  -- the places end as the outputs end, and in front of that the outputs are alike
  have hlast : (base.join (output p kind)).components.getLast? = some c :=
    getLast_join (by rw [hc, List.getLast?_concat]) hhere
  have hlast' : (base.join (output q kind)).components.getLast? = some d :=
    getLast_join (by rw [hd, List.getLast?_concat]) hhere'
  rw [same_iff.mp hjoin, hlast', Option.some.injEq] at hlast
  rw [same_iff, hc, hd, hlast, same_iff.mp h]

/-- The output of a source of ordinary names can be listed, unless the source has the name
`..civet`. -/
theorem isListable_output {p : Path} (hp : p.IsPlain) (hs : isSource p = true)
    (hname : p.fileName? ≠ some dotName) (kind : OutputKind) : IsListable (output p kind) := by
  obtain ⟨front, stem, behind, hcut, hstem, rfl⟩ := exists_cut_of_isSource hs
  rw [fileName_ofCut hcut, if_neg (stem_ne_up stem)] at hname
  have hdot : stem ≠ ['.'] := by
    rintro rfl
    exact hname rfl
  have hlast := components_output hcut hstem kind
  rw [if_neg fun h => hdot h.2] at hlast
  constructor
  · obtain ⟨names, hnames⟩ := hp
    rw [components_source hcut] at hnames
    obtain ⟨before, last, -, hbefore, -⟩ := List.append_eq_map_iff.mp hnames
    exact ⟨before ++ [stem ++ '.' :: kind.extension], by rw [hlast, ← hbefore]; simp⟩
  · refine ⟨kind, ?_⟩
    have hsplit : splitName (stem ++ '.' :: kind.extension) = (stem, some kind.extension) := by
      refine splitName_append hstem ?_ fun hup => ?_
      · cases kind <;> decide
      · have hrest := (append_dot_eq_up hstem).mp hup
        cases kind <;> simp [OutputKind.extension] at hrest
    rw [extension?, fileName?, hlast, List.getLast?_concat]
    exact congrArg Prod.snd hsplit

end Artifact

end ArtifactSync
