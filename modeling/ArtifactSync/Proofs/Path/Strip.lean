import ArtifactSync.Proofs.Path.Names

/-!
# Paths as seen from a root

What is left of a path when a root is cut off its front is `Tidy`: it begins and ends with a piece
that makes a component (`stripPrefix_tidy`, `relativeTo_tidy`). Its components are those behind the
root's (`components_stripPrefix`), and a tidy path joined to a root is what is left again
(`stripPrefix_join`). A path without a root is seen as its steps with one separator between them
(`relativeTo_of_relative`).
-/

namespace ArtifactSync.Path

/-- A path that begins and ends with a piece that makes a component. -/
structure Tidy (p : Path) : Prop where
  first : isEmptyPiece p.pieces.1 = false
  last : ∀ piece, p.allPieces.getLast? = some piece → isEmptyPiece piece = false

/-- A tidy path has some text. -/
theorem Tidy.chars_ne_nil {p : Path} (h : p.Tidy) : p.chars ≠ [] := by
  intro hnil
  have hfirst := h.first
  rw [pieces, hnil] at hfirst
  cases hfirst

/-- A tidy path is not rooted. -/
theorem Tidy.isRooted {p : Path} (h : p.Tidy) : p.isRooted = false := by
  have hfirst := h.first
  cases hp : p.chars with
  | nil => rw [Path.isRooted, hp]; rfl
  | cons c cs =>
    have hc : c ≠ '/' := by
      rintro rfl
      rw [pieces, hp] at hfirst
      simp [Text.split, isEmptyPiece] at hfirst
    simpa [Path.isRooted, hp] using hc

/-- The components of a tidy path are those of its pieces. -/
theorem Tidy.components {p : Path} (h : p.Tidy) : p.components = p.steps := by
  have hfirst := h.first
  rw [isEmptyPiece, Bool.or_eq_false_iff, decide_eq_false_iff_not, decide_eq_false_iff_not] at hfirst
  rw [components_eq_frontComponents h.chars_ne_nil, allPieces, frontComponents, if_neg hfirst.1,
    if_neg hfirst.2, steps, allPieces]
  cases hc : Component.ofPiece? p.pieces.1 with
  | none => simp [hc]
  | some c => simp [hc]

/-- A tidy path has a component. -/
theorem Tidy.components_ne_nil {p : Path} (h : p.Tidy) : p.components ≠ [] := by
  rw [h.components, steps, allPieces]
  cases hc : Component.ofPiece? p.pieces.1 with
  | none => exact absurd h.first (by simp [isEmptyPiece_iff.mpr hc])
  | some c => simp [hc]

/-- A tidy path has no leading `.` and no root. -/
theorem Tidy.ne_here_of_mem {p : Path} (h : p.Tidy) {c : Component} (hc : c ∈ p.components) :
    c ≠ .here ∧ c ≠ .root := by
  rw [h.components] at hc
  exact Path.ne_here_of_mem hc

/-- A tidy path ends in a component that is no leading `.`. -/
theorem Tidy.exists_getLast {p : Path} (h : p.Tidy) :
    ∃ c, p.components.getLast? = some c ∧ c ≠ .here := by
  cases hlast : p.components.getLast? with
  | none => exact absurd (List.getLast?_eq_none_iff.mp hlast) h.components_ne_nil
  | some c =>
    exact ⟨c, rfl, (h.ne_here_of_mem (List.mem_of_getLast? hlast)).1⟩

/-- A tidy path has its file name behind every base. -/
theorem Tidy.fileName_join {p : Path} (h : p.Tidy) (base : Path) :
    (base.join p).fileName? = p.fileName? := by
  obtain ⟨c, hlast, hc⟩ := h.exists_getLast
  rw [fileName?, fileName?, hlast, getLast_join hlast hc]

/-- Pieces that begin and end with one that makes a component are those of a tidy path. -/
theorem tidy_ofPieces {pieces : List (List Char)} (hfree : ∀ piece ∈ pieces, '/' ∉ piece)
    (hne : pieces ≠ [])
    (hfirst : ∀ piece, pieces.head? = some piece → isEmptyPiece piece = false)
    (hlast : ∀ piece, pieces.getLast? = some piece → isEmptyPiece piece = false) :
    (ofNames pieces).Tidy := by
  have hpieces := allPieces_ofNames hfree hne
  refine ⟨hfirst _ ?_, fun piece hp => hlast piece ?_⟩
  · have hhead : pieces.head? = (ofNames pieces).allPieces.head? := by rw [hpieces]
    rw [hhead]
    rfl
  · rwa [hpieces] at hp

/-- A row of names is tidy. -/
theorem tidy_ofNames {names : List (List Char)} (h : ∀ n ∈ names, IsName n) (hne : names ≠ []) :
    (ofNames names).Tidy :=
  tidy_ofPieces (fun n hn => (h n hn).free) hne (fun n hn => (h n (List.mem_of_head? hn)).makes)
    fun n hn => (h n (List.mem_of_getLast? hn)).makes

/-! ## Pieces without the ones at their ends that make no component -/

/-- Dropping pieces at the front that make no component drops no component. -/
theorem filterMap_dropWhile (l : List (List Char)) :
    (l.dropWhile isEmptyPiece).filterMap Component.ofPiece? = l.filterMap Component.ofPiece? := by
  induction l with
  | nil => rfl
  | cons piece l ih =>
    by_cases hp : isEmptyPiece piece = true
    · rw [List.dropWhile_cons_of_pos hp, ih, List.filterMap_cons_none (isEmptyPiece_iff.mp hp)]
    · rw [List.dropWhile_cons_of_neg hp]

/-- Dropping them at the end does not either. -/
theorem filterMap_trimLater (l : List (List Char)) :
    (trimLater l).filterMap Component.ofPiece? = l.filterMap Component.ofPiece? := by
  rw [trimLater, List.filterMap_reverse, filterMap_dropWhile, ← List.filterMap_reverse,
    List.reverse_reverse]

/-- The last piece that is left at the end makes a component. -/
theorem getLast_trimLater {l : List (List Char)} {piece : List Char}
    (h : (trimLater l).getLast? = some piece) : isEmptyPiece piece = false := by
  rw [trimLater, List.getLast?_reverse] at h
  have hnot := List.head?_dropWhile_not isEmptyPiece l.reverse
  simpa [h] using hnot

/-- Pieces that end in one that makes a component stay. -/
theorem trimLater_eq_self {l : List (List Char)}
    (h : ∀ piece, l.getLast? = some piece → isEmptyPiece piece = false) : trimLater l = l := by
  have hdrop : l.reverse.dropWhile isEmptyPiece = l.reverse := by
    cases hr : l.reverse with
    | nil => rfl
    | cons piece rest =>
      have hlast : l.getLast? = some piece := by rw [← List.head?_reverse, hr, List.head?_cons]
      rw [List.dropWhile_cons_of_neg (by simp [h piece hlast])]
  rw [trimLater, hdrop, List.reverse_reverse]

/-- The path in front of the last name. -/
theorem parent_ofNames {names : List (List Char)} {name : List Char}
    (h : ∀ n ∈ names ++ [name], IsName n) :
    (ofNames (names ++ [name])).parent? = some (ofNames names) := by
  have hmakes : isEmptyPiece name = false := (h name (by simp)).makes
  cases names with
  | nil =>
    have hname := h name (by simp)
    have hpieces : (ofPieces name []).pieces = (name, []) := pieces_ofPieces hname.free (by simp)
    simp [parent?, ofNames, hpieces, hname.ne_nil]
  | cons first rest =>
    have hrest : trimLater rest = rest := trimLater_eq_self fun piece hpiece =>
      (h piece (by simp [List.mem_of_getLast? hpiece])).makes
    rw [parent?, List.cons_append, ofNames, pieces_ofPieces (h first (by simp)).free
      fun n hn => (h n (by simp [hn])).free]
    have hfirst := (h first (by simp)).ne_nil
    simp [hmakes, ofTrimmed, hrest, ofNames, ofPieces, hfirst]

/-- Passing over components. -/
theorem filterMap_dropPieces (count : Nat) (l : List (List Char)) :
    (dropPieces count l).filterMap Component.ofPiece? =
      (l.filterMap Component.ofPiece?).drop count := by
  induction l generalizing count with
  | nil => cases count <;> simp [dropPieces]
  | cons piece l ih =>
    cases count with
    | zero => simp [dropPieces]
    | succ count =>
      by_cases hp : isEmptyPiece piece = true
      · rw [dropPieces, if_pos hp, ih, List.filterMap_cons_none (isEmptyPiece_iff.mp hp)]
      · obtain ⟨c, hc⟩ := Option.ne_none_iff_exists'.mp fun hn => hp (isEmptyPiece_iff.mpr hn)
        rw [dropPieces, if_neg hp, ih, List.filterMap_cons_some hc, List.drop_succ_cons]

/-- Passing over all components of the pieces in front leaves what stands behind them. -/
theorem dropPieces_append {front : List (List Char)} {count : Nat}
    (h : (front.filterMap Component.ofPiece?).length = count) (l : List (List Char)) :
    (dropPieces count (front ++ l)).dropWhile isEmptyPiece = l.dropWhile isEmptyPiece := by
  -- pieces that make no component may be left in front, and those are dropped on both sides
  induction front generalizing count with
  | nil => subst h; simp [dropPieces]
  | cons piece front ih =>
    by_cases hp : isEmptyPiece piece = true
    · rw [List.filterMap_cons_none (isEmptyPiece_iff.mp hp)] at h
      cases count with
      | zero =>
        have hzero := ih h
        rw [dropPieces] at hzero
        rw [dropPieces, List.cons_append, List.dropWhile_cons_of_pos hp, hzero]
      | succ count => rw [List.cons_append, dropPieces, if_pos hp, ih h]
    · obtain ⟨c, hc⟩ := Option.ne_none_iff_exists'.mp fun hn => hp (isEmptyPiece_iff.mpr hn)
      rw [List.filterMap_cons_some hc, List.length_cons] at h
      subst h
      rw [List.cons_append, dropPieces, if_neg hp, ih rfl]

/-- As long as there are components to pass over, what stands behind the pieces stays. -/
theorem dropPieces_append_of_le {front : List (List Char)} {count : Nat}
    (h : count ≤ (front.filterMap Component.ofPiece?).length) (l : List (List Char)) :
    dropPieces count (front ++ l) = dropPieces count front ++ l := by
  induction front generalizing count with
  | nil =>
    obtain rfl : count = 0 := by simpa using h
    simp [dropPieces]
  | cons piece front ih =>
    cases count with
    | zero => simp [dropPieces]
    | succ count =>
      rw [List.cons_append, dropPieces, dropPieces]
      by_cases hp : isEmptyPiece piece = true
      · rw [List.filterMap_cons_none (isEmptyPiece_iff.mp hp)] at h
        rw [if_pos hp, if_pos hp, ih h]
      · obtain ⟨c, hc⟩ := Option.ne_none_iff_exists'.mp fun hn => hp (isEmptyPiece_iff.mpr hn)
        rw [List.filterMap_cons_some hc, List.length_cons, Nat.add_le_add_iff_right] at h
        rw [if_neg hp, if_neg hp, ih h]

/-- What is passed over is gone, and the rest is as it was. -/
theorem mem_of_mem_dropPieces {count : Nat} {l : List (List Char)} {piece : List Char}
    (h : piece ∈ dropPieces count l) : piece ∈ l := by
  induction l generalizing count with
  | nil => cases count <;> simp [dropPieces] at h
  | cons first l ih =>
    cases count with
    | zero => exact h
    | succ count =>
      rw [dropPieces] at h
      split at h
      · exact List.mem_cons_of_mem first (ih h)
      · exact List.mem_cons_of_mem first (ih h)

/-! ## Cutting off a root -/

/-- The components of a rooted path. -/
theorem components_of_isRooted {p : Path} (h : p.isRooted = true) :
    p.pieces.1 = [] ∧ p.components = .root :: p.pieces.2.filterMap Component.ofPiece? := by
  obtain ⟨cs⟩ := p
  cases cs with
  | nil => cases h
  | cons c cs =>
    have hc : c = '/' := by simpa [Path.isRooted] using h
    subst hc
    simp [components, leading, pieces, Text.split]

/-- A rooted path has a text. -/
theorem chars_ne_nil_of_isRooted {p : Path} (h : p.isRooted = true) : p.chars ≠ [] := by
  intro hnil
  rw [isRooted, hnil] at h
  cases h

/-- A path that has a text has one component in front of those of its later pieces. -/
theorem exists_components {p : Path} (h : p.chars ≠ []) :
    ∃ c, p.components = c :: p.pieces.2.filterMap Component.ofPiece? := by
  rw [components_eq_frontComponents h, allPieces, frontComponents]
  by_cases hnil : p.pieces.1 = []
  · exact ⟨.root, by simp [hnil]⟩
  · by_cases hdot : p.pieces.1 = ['.']
    · exact ⟨.here, by simp [hdot]⟩
    · have hmakes : isEmptyPiece p.pieces.1 = false := by simp [isEmptyPiece, hnil, hdot]
      cases hc : Component.ofPiece? p.pieces.1 with
      | none => simp [isEmptyPiece_iff.mpr hc] at hmakes
      | some c => exact ⟨c, by simp [hnil, hdot]⟩

/-- The pieces that are left behind the components of a base. -/
def piecesBehind (p base : Path) : List (List Char) :=
  trimLater ((dropPieces (base.components.length - 1) p.pieces.2).dropWhile isEmptyPiece)

section Strip

variable {p base q : Path}

/-- Cutting off a base. -/
theorem stripPrefix_eq (hb : base.chars ≠ []) :
    p.stripPrefix? base =
      if p.startsWith base = true then some (ofNames (p.piecesBehind base)) else none := by
  obtain ⟨c, hcomponents⟩ := exists_components hb
  unfold stripPrefix? piecesBehind
  simp only [hcomponents, List.length_cons, Nat.add_sub_cancel]
  by_cases hs : p.startsWith base = true
  · rw [if_pos hs, if_neg (by simp [hs])]
    cases trimLater ((dropPieces (base.pieces.2.filterMap Component.ofPiece?).length
      p.pieces.2).dropWhile isEmptyPiece) <;> rfl
  · rw [if_neg hs, if_pos (by simpa using hs)]

/-- A path that begins like one with a text has a text. -/
theorem chars_ne_nil_of_startsWith (hb : base.chars ≠ []) (hs : p.startsWith base = true) :
    p.chars ≠ [] := by
  obtain ⟨c, hbase⟩ := exists_components hb
  intro hnil
  obtain ⟨cs⟩ := p
  subst hnil
  rw [startsWith, hbase] at hs
  cases hs

/-- A path that begins like a rooted one is rooted. -/
theorem isRooted_of_startsWith (hb : base.isRooted = true) (hs : p.startsWith base = true) :
    p.isRooted = true := by
  obtain ⟨-, hcomponents⟩ := components_of_isRooted hb
  rw [startsWith_iff, hcomponents] at hs
  obtain ⟨rest, hrest⟩ := hs
  by_contra hp
  have hp : p.isRooted = false := by simpa using hp
  have hmem : Component.root ∈ p.components.filter (· ≠ .here) := by
    rw [← hrest]
    simp
  rw [← steps_eq hp] at hmem
  exact (ne_here_of_mem hmem).2 rfl

/-- The pieces that are left begin and end with ones that make a component. -/
theorem piecesBehind_makes :
    (∀ piece, (p.piecesBehind base).head? = some piece → isEmptyPiece piece = false) ∧
      ∀ piece, (p.piecesBehind base).getLast? = some piece → isEmptyPiece piece = false := by
  refine ⟨fun piece hhead => ?_, fun piece hlast => getLast_trimLater hlast⟩
  unfold piecesBehind at hhead
  generalize hl : dropPieces (base.components.length - 1) p.pieces.2 = l at hhead
  have hnot := List.head?_dropWhile_not isEmptyPiece l
  -- what is trimmed at the end leaves the first piece in place
  have hprefix : trimLater (l.dropWhile isEmptyPiece) <+: l.dropWhile isEmptyPiece := by
    rw [← List.reverse_suffix, trimLater, List.reverse_reverse]
    exact List.dropWhile_suffix _
  obtain ⟨rest, hrest⟩ := hprefix
  rw [← hrest, List.head?_append, hhead] at hnot
  exact hnot

/-- No piece that is left holds a separator. -/
theorem slash_not_mem_piecesBehind {piece : List Char} (h : piece ∈ p.piecesBehind base) :
    '/' ∉ piece := by
  rw [piecesBehind, trimLater, List.mem_reverse] at h
  have hdrop := List.mem_reverse.mp ((List.dropWhile_suffix isEmptyPiece).subset h)
  have hmem := mem_of_mem_dropPieces ((List.dropWhile_suffix isEmptyPiece).subset hdrop)
  exact slash_not_mem_of_mem_allPieces (List.mem_cons_of_mem _ hmem)

/-- The pieces that are left make a tidy path, if there are any. -/
theorem tidy_piecesBehind (hne : p.piecesBehind base ≠ []) :
    (ofNames (p.piecesBehind base)).Tidy :=
  tidy_ofPieces (fun _ hp => slash_not_mem_piecesBehind hp) hne piecesBehind_makes.1
    piecesBehind_makes.2

/-- What is left behind a base is nothing, or tidy. -/
theorem stripPrefix_tidy (hb : base.chars ≠ []) (h : p.stripPrefix? base = some q) :
    q.chars = [] ∨ q.Tidy := by
  rw [stripPrefix_eq hb] at h
  split at h
  · cases h
    by_cases hne : p.piecesBehind base = []
    · rw [hne]
      exact .inl rfl
    · exact .inr (tidy_piecesBehind hne)
  · cases h

/-- The components behind a base are those of what is left. -/
theorem components_stripPrefix (hb : base.chars ≠ []) (h : p.stripPrefix? base = some q) :
    p.components = base.components ++ q.components := by
  rw [stripPrefix_eq hb] at h
  split at h
  · next hs =>
    cases h
    obtain ⟨c, hbase⟩ := exists_components hb
    obtain ⟨c', hp⟩ := exists_components (chars_ne_nil_of_startsWith hb hs)
    have hleft : (ofNames (p.piecesBehind base)).components =
        (p.piecesBehind base).filterMap Component.ofPiece? := by
      by_cases hne : p.piecesBehind base = []
      · rw [hne]
        rfl
      · rw [(tidy_piecesBehind hne).components, steps,
          allPieces_ofNames (fun _ hp => slash_not_mem_piecesBehind hp) hne]
    have hprefix := hs
    rw [startsWith_iff, hbase, hp, List.cons_prefix_cons] at hprefix
    obtain ⟨hfirst, rest, hrest⟩ := hprefix
    rw [hleft, piecesBehind, filterMap_trimLater, filterMap_dropWhile, filterMap_dropPieces, hbase,
      hp, List.length_cons, Nat.add_sub_cancel, ← hrest, List.drop_left, hfirst]
    rfl
  · cases h

/-- A path that is not rooted begins with a base it is joined to. -/
theorem startsWith_join (hb : base.chars ≠ []) (hq : q.isRooted = false) :
    (base.join q).startsWith base = true := by
  rw [startsWith_iff, components_join hb hq]
  exact List.prefix_append _ _

/-- Behind the first piece of what is joined to a base there stand pieces that make the later
components of the base, and then the pieces of what is joined. -/
theorem exists_pieces_join (hb : base.chars ≠ []) : ∃ front,
    front.filterMap Component.ofPiece? = base.pieces.2.filterMap Component.ofPiece? ∧
      ∀ q : Path, q.isRooted = false → (base.join q).pieces.2 = front ++ q.allPieces := by
  obtain ⟨a, ha, hall⟩ := exists_lead hb
  refine ⟨(Path.mk a).pieces.2, ?_, fun q hq => ?_⟩
  · rcases hall with hall | hall
    · rw [(List.cons.inj hall).2]
    · rw [allPieces, allPieces, List.cons_append] at hall
      rw [(List.cons.inj hall).2, List.filterMap_append]
      simp [Component.ofPiece?]
  · have hpieces := allPieces_join hq ha
    rw [allPieces, allPieces, List.cons_append] at hpieces
    exact (List.cons.inj hpieces).2

/-- A tidy path joined to a base is what is left behind the base. -/
theorem stripPrefix_join (hb : base.chars ≠ []) (hq : q.Tidy) :
    (base.join q).stripPrefix? base = some q := by
  obtain ⟨c, hbase⟩ := exists_components hb
  obtain ⟨front, hfront, hlater⟩ := exists_pieces_join hb
  rw [stripPrefix_eq hb, if_pos (startsWith_join hb hq.isRooted), piecesBehind,
    hlater q hq.isRooted, hbase, List.length_cons, Nat.add_sub_cancel,
    dropPieces_append (by rw [hfront]), allPieces,
    List.dropWhile_cons_of_neg (by simp [hq.first]), ← allPieces, trimLater_eq_self hq.last]
  exact congrArg some (ofPieces_pieces q)

/-- Whatever is joined to a path below a base, the same pieces stand in front of it behind the
base. -/
theorem exists_behind {dir : Path} {names : List (List Char)} (hb : base.chars ≠ [])
    (hdir : dir.components = base.components ++ names.map .name) (hne : names ≠ []) :
    ∃ pieces, (∀ piece ∈ pieces, '/' ∉ piece) ∧
      pieces.filterMap Component.ofPiece? = names.map .name ∧ ∀ q : Path, q.Tidy →
        (dir.join q).stripPrefix? base = some (ofNames (pieces ++ q.allPieces)) := by
  have hstarts : dir.startsWith base = true := by
    rw [startsWith_iff, hdir]
    exact List.prefix_append _ _
  have hdirne := chars_ne_nil_of_startsWith hb hstarts
  obtain ⟨c, hbase⟩ := exists_components hb
  obtain ⟨c', hcomponents⟩ := exists_components hdirne
  obtain ⟨front, hfront, hlater⟩ := exists_pieces_join hdirne
  -- the later components of the path are those of the base, and then the names
  rw [hcomponents, hbase, List.cons_append, ← hfront] at hdir
  have hmakes := (List.cons.inj hdir).2
  let count := (base.pieces.2.filterMap Component.ofPiece?).length
  have hnames : ((dropPieces count front).dropWhile isEmptyPiece).filterMap Component.ofPiece? =
      names.map .name := by
    rw [filterMap_dropWhile, filterMap_dropPieces, hmakes, List.drop_left]
  refine ⟨(dropPieces count front).dropWhile isEmptyPiece, fun piece hpiece => ?_, hnames,
    fun q hq => ?_⟩
  · have hmem := mem_of_mem_dropPieces ((List.dropWhile_suffix isEmptyPiece).subset hpiece)
    have hjoined := hlater ⟨['a']⟩ rfl
    exact slash_not_mem_of_mem_allPieces (p := dir.join ⟨['a']⟩)
      (List.mem_cons_of_mem _ (by rw [hjoined]; exact List.mem_append_left _ hmem))
  have hsome : ((dropPieces count front).dropWhile isEmptyPiece).isEmpty = false := by
    by_contra hempty
    rw [Bool.not_eq_false, List.isEmpty_iff] at hempty
    rw [hempty] at hnames
    exact hne (by simpa using hnames.symm)
  have hjoined : (dir.join q).startsWith base = true := by
    rw [startsWith_iff] at hstarts ⊢
    rw [components_join hdirne hq.isRooted]
    exact hstarts.trans (List.prefix_append _ _)
  have hle : count ≤ (front.filterMap Component.ofPiece?).length := by
    rw [hmakes, List.length_append]
    exact Nat.le_add_right ..
  have hlast {l : List (List Char)} : trimLater (l ++ q.allPieces) = l ++ q.allPieces := by
    refine trimLater_eq_self fun piece hpiece => hq.last piece ?_
    rwa [List.getLast?_append_of_ne_nil _ (by simp [allPieces])] at hpiece
  rw [stripPrefix_eq hb, if_pos hjoined, piecesBehind, hlater q hq.isRooted, hbase,
    List.length_cons, Nat.add_sub_cancel, dropPieces_append_of_le hle, List.dropWhile_append,
    hsome, if_neg Bool.false_ne_true, hlast]

/-- The text of a component is the piece that makes it. -/
theorem componentText_ofPiece {piece : List Char} {c : Component}
    (h : Component.ofPiece? piece = some c) : componentText c = piece := by
  unfold Component.ofPiece? at h
  split at h
  · cases h
  · split at h
    · next hup =>
      cases h
      exact hup.symm
    · cases h
      rfl

/-- A path without a root spelled afresh: its steps with one separator between them. -/
def tidied (p : Path) : Path :=
  ofNames (p.steps.map componentText)

/-- The texts of steps are pieces that make the steps again. -/
theorem piece_of_mem_steps {c : Component} (h : c ∈ p.steps) :
    '/' ∉ componentText c ∧ Component.ofPiece? (componentText c) = some c := by
  obtain ⟨piece, hmem, hpiece⟩ := List.mem_filterMap.mp h
  rw [componentText_ofPiece hpiece]
  exact ⟨slash_not_mem_of_mem_allPieces hmem, hpiece⟩

/-- Such a path has those steps for pieces. -/
theorem allPieces_tidied (hne : p.steps ≠ []) :
    p.tidied.allPieces = p.steps.map componentText := by
  refine allPieces_ofNames (fun piece hpiece => ?_) (by simpa using hne)
  obtain ⟨c, hc, rfl⟩ := List.mem_map.mp hpiece
  exact (piece_of_mem_steps hc).1

/-- If there are any steps, it is tidy. -/
theorem tidy_tidied (hne : p.steps ≠ []) : p.tidied.Tidy := by
  have hpieces : ∀ piece ∈ p.steps.map componentText, '/' ∉ piece ∧ isEmptyPiece piece = false := by
    intro piece hpiece
    obtain ⟨c, hc, rfl⟩ := List.mem_map.mp hpiece
    obtain ⟨hfree, hmakes⟩ := piece_of_mem_steps hc
    refine ⟨hfree, ?_⟩
    by_contra hempty
    rw [isEmptyPiece_iff.mp (by simpa using hempty)] at hmakes
    cases hmakes
  exact tidy_ofPieces (fun _ hp => (hpieces _ hp).1) (by simpa using hne)
    (fun _ hp => (hpieces _ (List.mem_of_head? hp)).2)
    fun _ hp => (hpieces _ (List.mem_of_getLast? hp)).2

/-- A path and what it is afresh have the same steps. -/
theorem components_tidied (p : Path) : p.tidied.components = p.steps := by
  by_cases hne : p.steps = []
  · rw [tidied, hne]
    rfl
  · have hmakes : ∀ c ∈ p.steps, (Component.ofPiece? ∘ componentText) c = some c :=
      fun c hc => (piece_of_mem_steps hc).2
    rw [(tidy_tidied hne).components, steps, allPieces_tidied hne, List.filterMap_map,
      List.filterMap_congr hmakes, List.filterMap_some]

/-- A path without a root is seen as what it is afresh. -/
theorem relativeTo_of_relative (h : p.isRooted = false) :
    base.relativeTo? p = some p.tidied := by
  rw [relativeTo?, if_neg (by simp [h]), ← steps_eq h, tidied]
  cases p.steps.map componentText <;> rfl

/-- A path as seen from a rooted base is nothing, or tidy. -/
theorem relativeTo_tidy (hb : base.isRooted = true) (h : base.relativeTo? p = some q) :
    q.chars = [] ∨ q.Tidy := by
  cases hp : p.isRooted with
  | true =>
    rw [relativeTo?, if_pos hp] at h
    exact stripPrefix_tidy (chars_ne_nil_of_isRooted hb) h
  | false =>
    rw [relativeTo_of_relative hp, Option.some.injEq] at h
    subst h
    by_cases hne : p.steps = []
    · rw [tidied, hne]
      exact .inl rfl
    · exact .inr (tidy_tidied hne)

/-- A tidy path joined to a rooted base, as seen from the base. -/
theorem relativeTo_join (hb : base.isRooted = true) (hq : q.Tidy) :
    base.relativeTo? (base.join q) = some q := by
  rw [relativeTo?, if_pos (isRooted_join hb q), stripPrefix_join (chars_ne_nil_of_isRooted hb) hq]

end Strip

end ArtifactSync.Path
