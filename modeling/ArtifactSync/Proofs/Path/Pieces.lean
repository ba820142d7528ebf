import ArtifactSync.Path.Basic
import Mathlib.Data.List.TakeWhile
import Mathlib.Tactic.Common

/-!
# The pieces of a path

A path's text and the pieces between its separators determine each other (`ofPieces_pieces`,
`pieces_ofPieces`), so what a function does to a text can be told piece by piece. A text that ends
in an ordinary name, in `..`, or in either with separators and `.` behind it is cut around that
last piece: the pieces in front, the piece, and pieces behind it that make no component (`ofCut`).
Its components are those of the front and the one of the piece (`components_ofCut`).
-/

namespace ArtifactSync

namespace Text

variable {p : Char → Bool}

/-- A text without cutting characters is one piece. -/
theorem split_of_free {a : List Char} (h : ∀ c ∈ a, p c = false) : split p a = (a, []) := by
  induction a with
  | nil => rfl
  | cons c cs ih =>
    have hc : p c = false := h c (by simp)
    have hcs : split p cs = (cs, []) := ih fun d hd => h d (by simp [hd])
    simp [split, hc, hcs]

/-- A cutting character ends the last piece of what stands in front of it. -/
theorem split_append_cut {c : Char} (hc : p c = true) (a b : List Char) :
    split p (a ++ c :: b) = ((split p a).1, (split p a).2 ++ (split p b).1 :: (split p b).2) := by
  induction a with
  | nil => simp [split, hc]
  | cons d ds ih =>
    by_cases hd : p d = true
    · simp [split, hd, ih]
    · simp [split, hd, ih]

/-- No piece holds a cutting character. -/
theorem split_free (a : List Char) :
    (∀ c ∈ (split p a).1, p c = false) ∧ ∀ piece ∈ (split p a).2, ∀ c ∈ piece, p c = false := by
  induction a with
  | nil => simp [split]
  | cons d ds ih =>
    obtain ⟨ihf, ihl⟩ := ih
    by_cases hd : p d = true
    · refine ⟨by simp [split, hd], fun piece hp => ?_⟩
      rw [show (split p (d :: ds)).2 = (split p ds).1 :: (split p ds).2 by simp [split, hd]] at hp
      rcases List.mem_cons.mp hp with rfl | hp
      · exact ihf
      · exact ihl piece hp
    · have hd : p d = false := by simpa using hd
      refine ⟨fun c hc => ?_, fun piece hp => ?_⟩
      · rw [show (split p (d :: ds)).1 = d :: (split p ds).1 by simp [split, hd]] at hc
        rcases List.mem_cons.mp hc with rfl | hc
        · exact hd
        · exact ihf c hc
      · rw [show (split p (d :: ds)).2 = (split p ds).2 by simp [split, hd]] at hp
        exact ihl piece hp

/-- What stands in front of the first cutting character belongs to the first piece. -/
theorem split_append_of_free {a : List Char} (h : ∀ c ∈ a, p c = false) (b : List Char) :
    split p (a ++ b) = (a ++ (split p b).1, (split p b).2) := by
  induction a with
  | nil => rfl
  | cons c cs ih =>
    have hc : p c = false := h c (by simp)
    rw [List.cons_append, split, ih fun d hd => h d (by simp [hd])]
    simp [hc]

/-- The first piece is a beginning of the text. -/
theorem prefix_split (a : List Char) : (split p a).1 <+: a := by
  induction a with
  | nil => exact List.prefix_rfl
  | cons d ds ih =>
    by_cases hd : p d = true
    · simp [split, hd]
    · simpa [split, hd] using ih

/-- Every later piece is a part of the text. -/
theorem infix_of_mem_split {a piece : List Char} (h : piece ∈ (split p a).2) : piece <:+: a := by
  induction a with
  | nil => cases h
  | cons d ds ih =>
    by_cases hd : p d = true
    · have hmem : piece ∈ (split p ds).1 :: (split p ds).2 := by simpa [split, hd] using h
      rcases List.mem_cons.mp hmem with rfl | hmem
      · exact (prefix_split ds).isInfix.trans (List.suffix_cons d ds).isInfix
      · exact (ih hmem).trans (List.suffix_cons d ds).isInfix
    · exact (ih (by simpa [split, hd] using h)).trans (List.suffix_cons d ds).isInfix

/-- All pieces are empty exactly if the text is cut at every character. -/
theorem split_eq_nil_iff {a : List Char} :
    ((split p a).1 = [] ∧ ∀ piece ∈ (split p a).2, piece = []) ↔ ∀ c ∈ a, p c = true := by
  induction a with
  | nil => simp [split]
  | cons d ds ih =>
    by_cases hd : p d = true
    · simp [split, hd, ← ih]
    · simp [split, hd]

/-- The later pieces are empty exactly if nothing but cutting characters is behind the first one. -/
theorem later_eq_nil_iff {a : List Char} :
    (∀ piece ∈ (split p a).2, piece = []) ↔ ∀ c ∈ a.dropWhile fun c => !p c, p c = true := by
  induction a with
  | nil => simp [split]
  | cons d ds ih =>
    by_cases hd : p d = true
    · simp [split, hd, ← split_eq_nil_iff]
    · simpa [split, hd] using ih

end Text

namespace Path

/-- Every piece of a text, in order. -/
def allPieces (p : Path) : List (List Char) :=
  p.pieces.1 :: p.pieces.2

/-- No piece of a path holds a separator. -/
theorem slash_not_mem_of_mem_allPieces {p : Path} {piece : List Char} (h : piece ∈ p.allPieces) :
    '/' ∉ piece := by
  obtain ⟨hf, hl⟩ := Text.split_free (p := (· == '/')) p.chars
  intro hs
  rcases List.mem_cons.mp h with rfl | h
  · exact absurd (hf '/' hs) (by simp)
  · exact absurd (hl piece h '/' hs) (by simp)

/-- The pieces of a text put together give it back. -/
theorem ofPieces_pieces (p : Path) : ofPieces p.pieces.1 p.pieces.2 = p := by
  obtain ⟨cs⟩ := p
  unfold pieces ofPieces
  congr 1
  induction cs with
  | nil => rfl
  | cons c cs ih =>
    by_cases hc : c = '/'
    · subst hc
      simpa [Text.split] using ih
    · simpa [Text.split, hc] using ih

/-- The pieces of texts without separators that were put together. -/
theorem pieces_ofPieces {first : List Char} {later : List (List Char)} (hf : '/' ∉ first)
    (hl : ∀ l ∈ later, '/' ∉ l) : (ofPieces first later).pieces = (first, later) := by
  have free {a : List Char} (h : '/' ∉ a) : ∀ c ∈ a, (c == '/') = false := by
    intro c hc
    simp only [beq_eq_false_iff_ne, ne_eq]
    rintro rfl
    exact h hc
  unfold pieces ofPieces
  induction later generalizing first with
  | nil => simpa using Text.split_of_free (free hf)
  | cons piece later ih =>
    have hp : '/' ∉ piece := hl piece (by simp)
    have hr : ∀ l ∈ later, '/' ∉ l := fun l h => hl l (by simp [h])
    rw [List.flatMap_cons, List.cons_append, Text.split_append_cut (by simp), ih hp hr,
      Text.split_of_free (free hf)]
    rfl

/-- A path is determined by its pieces. -/
theorem eq_of_allPieces {p q : Path} (h : p.allPieces = q.allPieces) : p = q := by
  obtain ⟨h₁, h₂⟩ := List.cons.inj h
  rw [← ofPieces_pieces p, ← ofPieces_pieces q, h₁, h₂]

/-! ## Components -/

/-- The components of pieces that other pieces stand behind. -/
def frontComponents : List (List Char) → List Component
  | [] => []
  | first :: later =>
    (if first = [] then [.root] else if first = ['.'] then [.here]
      else (Component.ofPiece? first).toList) ++ later.filterMap Component.ofPiece?

/-- The pieces that make no component are the empty one and `.`. -/
theorem isEmptyPiece_iff {piece : List Char} :
    isEmptyPiece piece = true ↔ Component.ofPiece? piece = none := by
  unfold isEmptyPiece Component.ofPiece?
  by_cases h : piece = [] ∨ piece = ['.']
  · simp [h]
  · have h' : ¬(piece = [] ∨ piece = ['.']) := h
    rw [if_neg h']
    split <;> simp_all

/-- Pieces that make no component add none. -/
theorem filterMap_ofPiece_eq_nil {pieces : List (List Char)}
    (h : ∀ e ∈ pieces, isEmptyPiece e = true) : pieces.filterMap Component.ofPiece? = [] := by
  rw [List.filterMap_eq_nil_iff]
  exact fun e he => isEmptyPiece_iff.mp (h e he)

/-- The name of a piece that makes a component. -/
theorem ofPiece_of_ne {piece : List Char} (h : isEmptyPiece piece = false)
    (hup : piece ≠ ['.', '.']) : Component.ofPiece? piece = some (.name piece) := by
  unfold Component.ofPiece?
  rw [if_neg (by simpa [isEmptyPiece] using h), if_neg hup]

/-- A piece whose component is a name is that name. -/
theorem eq_of_ofPiece_eq_name {piece n : List Char} (h : Component.ofPiece? piece = some (.name n)) :
    piece = n ∧ isEmptyPiece piece = false ∧ piece ≠ ['.', '.'] := by
  have hne : isEmptyPiece piece = false := by
    by_contra hc
    rw [isEmptyPiece_iff.mp (by simpa using hc)] at h
    cases h
  have hup : piece ≠ ['.', '.'] := by
    rintro rfl
    simp [Component.ofPiece?] at h
  rw [ofPiece_of_ne hne hup] at h
  exact ⟨by simpa using h, hne, hup⟩

/-! ## Cutting around the last piece that makes a component -/

/-- The pieces of a text around the last one that makes a component. -/
structure IsCut (front : List (List Char)) (last : List Char) (behind : List (List Char)) :
    Prop where
  /-- The pieces in front hold no separators. -/
  front_free : ∀ f ∈ front, '/' ∉ f
  /-- Neither does the last piece. -/
  last_free : '/' ∉ last
  /-- The last piece makes a component. -/
  last_makes : isEmptyPiece last = false
  /-- The pieces behind it make none. -/
  behind_empty : ∀ e ∈ behind, isEmptyPiece e = true

/-- The text of pieces with a separator behind each. -/
def frontText (front : List (List Char)) : List Char :=
  front.flatMap (· ++ ['/'])

/-- The text of pieces with a separator in front of each. -/
def behindText (behind : List (List Char)) : List Char :=
  behind.flatMap ('/' :: ·)

/-- The path with a piece behind some pieces and in front of others. -/
def ofCut (front : List (List Char)) (last : List Char) (behind : List (List Char)) : Path :=
  ⟨frontText front ++ last ++ behindText behind⟩

/-- Separators in front of later pieces, with one at the end, are separators behind all pieces. -/
theorem frontText_cons (first : List Char) (later : List (List Char)) :
    frontText (first :: later) = first ++ behindText later ++ ['/'] := by
  induction later generalizing first with
  | nil => simp [frontText, behindText]
  | cons piece later ih =>
    calc frontText (first :: piece :: later) = first ++ '/' :: frontText (piece :: later) := by
          simp [frontText]
      _ = first ++ '/' :: (piece ++ behindText later ++ ['/']) := by rw [ih]
      _ = first ++ behindText (piece :: later) ++ ['/'] := by simp [behindText]

section Cut

variable {front behind : List (List Char)} {last : List Char} (h : IsCut front last behind)
include h

/-- The pieces behind the last one hold no separators. -/
theorem IsCut.behind_free : ∀ e ∈ behind, '/' ∉ e := by
  intro e he hs
  have hempty := h.behind_empty e he
  simp only [isEmptyPiece, Bool.or_eq_true, decide_eq_true_eq] at hempty
  rcases hempty with rfl | rfl
  · simp at hs
  · simp at hs

/-- The pieces of a text that was put together around a last piece. -/
theorem allPieces_ofCut : (ofCut front last behind).allPieces = front ++ last :: behind := by
  cases front with
  | nil =>
    have hp : (ofPieces last behind).pieces = (last, behind) :=
      pieces_ofPieces h.last_free h.behind_free
    rw [show ofCut [] last behind = ofPieces last behind by simp [ofCut, frontText, ofPieces,
      behindText], allPieces, hp]
    rfl
  | cons first later =>
    have hf : '/' ∉ first := h.front_free first (by simp)
    have hl : ∀ l ∈ later ++ last :: behind, '/' ∉ l := by
      intro l hl
      rcases List.mem_append.mp hl with hl | hl
      · exact h.front_free l (by simp [hl])
      · rcases List.mem_cons.mp hl with rfl | hl
        · exact h.last_free
        · exact h.behind_free l hl
    have htext : ofCut (first :: later) last behind =
        ofPieces first (later ++ last :: behind) := by
      simp [ofCut, frontText_cons, ofPieces, behindText]
    rw [htext, allPieces, pieces_ofPieces hf hl]
    rfl

/-- The components of a text that was put together around a last piece. -/
theorem components_ofCut : (ofCut front last behind).components =
    frontComponents front ++ (Component.ofPiece? last).toList := by
  have hlast := h.last_makes
  have hbehind := filterMap_ofPiece_eq_nil h.behind_empty
  unfold components
  cases front with
  | nil =>
    have hp : (ofCut [] last behind).pieces = (last, behind) := by
      simpa [allPieces, Prod.ext_iff] using allPieces_ofCut h
    have hne : last ≠ [] ∧ last ≠ ['.'] := by simpa [isEmptyPiece] using hlast
    simp [hp, leading, frontComponents, hbehind, hne.1, hne.2]
  | cons first later =>
    have hp : (ofCut (first :: later) last behind).pieces = (first, later ++ last :: behind) := by
      simpa [allPieces, Prod.ext_iff] using allPieces_ofCut h
    cases hc : Component.ofPiece? last with
    | none => simp [isEmptyPiece_iff.mpr hc] at hlast
    | some c => simp [hp, leading, frontComponents, hbehind, hc]

/-- What stands in front of the last piece decides whether a text starts at the root. -/
theorem isRooted_ofCut :
    (ofCut front last behind).isRooted = ((frontText front).head? == some '/') := by
  cases front with
  | nil =>
    -- the last piece itself holds no separator
    have hlast := h.last_makes
    obtain ⟨c, cs, rfl⟩ : ∃ c cs, last = c :: cs :=
      List.exists_cons_of_ne_nil (by rintro rfl; cases hlast)
    have hfree := h.last_free
    simp only [List.mem_cons, not_or] at hfree
    simpa [ofCut, frontText, isRooted] using Ne.symm hfree.1
  | cons first later =>
    have hne : frontText (first :: later) ≠ [] := by simp [frontText]
    obtain ⟨c, cs, hfront⟩ := List.exists_cons_of_ne_nil hne
    rw [isRooted, ofCut, hfront]
    rfl

/-- Cutting a text off at its last piece. -/
theorem cutLast_ofCut : (ofCut front last behind).cutLast? = some (frontText front, last) := by
  have hpos : ∀ e ∈ behind.reverse, isEmptyPiece e = true :=
    fun e he => h.behind_empty e (List.mem_reverse.mp he)
  have hlast := h.last_makes
  unfold cutLast?
  cases front with
  | nil =>
    have hp : (ofCut [] last behind).pieces = (last, behind) := by
      simpa [allPieces, Prod.ext_iff] using allPieces_ofCut h
    have hne : last ≠ [] := by
      rintro rfl
      simp [isEmptyPiece] at hlast
    simp [hp, List.dropWhile_eq_nil_iff.mpr hpos, hne, frontText]
  | cons first later =>
    have hp : (ofCut (first :: later) last behind).pieces = (first, later ++ last :: behind) := by
      simpa [allPieces, Prod.ext_iff] using allPieces_ofCut h
    have hrev : (later ++ last :: behind).reverse.dropWhile isEmptyPiece =
        last :: later.reverse := by
      rw [List.reverse_append, List.reverse_cons, List.append_assoc,
        List.dropWhile_append_of_pos hpos]
      simp [hlast]
    rw [hp]
    simp only [hrev, List.reverse_reverse]
    simp [ofPieces, frontText_cons, behindText]

end Cut

/-- A text is cut around a piece behind which no piece makes a component. -/
theorem cut_of_allPieces {p : Path} {front behind : List (List Char)} {last : List Char}
    (h : p.allPieces = front ++ last :: behind) (hmakes : isEmptyPiece last = false)
    (hempty : ∀ e ∈ behind, isEmptyPiece e = true) :
    IsCut front last behind ∧ p = ofCut front last behind := by
  have hfree : ∀ piece ∈ front ++ last :: behind, '/' ∉ piece := fun piece hp =>
    slash_not_mem_of_mem_allPieces (h ▸ hp)
  have hcut : IsCut front last behind :=
    ⟨fun f hf => hfree f (by simp [hf]), hfree last (by simp), hmakes, hempty⟩
  exact ⟨hcut, eq_of_allPieces (by rw [allPieces_ofCut hcut, h])⟩

/-- A row of pieces makes no component, or has a last piece that makes one. -/
theorem empty_or_last (l : List (List Char)) : (∀ e ∈ l, isEmptyPiece e = true) ∨
    ∃ front last behind, l = front ++ last :: behind ∧ isEmptyPiece last = false ∧
      ∀ e ∈ behind, isEmptyPiece e = true := by
  have hsplit := List.takeWhile_append_dropWhile (p := isEmptyPiece) (l := l.reverse)
  cases hdrop : l.reverse.dropWhile isEmptyPiece with
  | nil =>
    exact .inl fun e he => List.dropWhile_eq_nil_iff.mp hdrop e (List.mem_reverse.mpr he)
  | cons last before =>
    refine .inr ⟨before.reverse, last, (l.reverse.takeWhile isEmptyPiece).reverse, ?_, ?_, ?_⟩
    · rw [hdrop] at hsplit
      simpa using (congrArg List.reverse hsplit).symm
    · have hhead := List.head_dropWhile_not (p := isEmptyPiece) (l := l.reverse) (by simp [hdrop])
      simpa [hdrop] using hhead
    · exact fun e he => List.mem_takeWhile_imp (List.mem_reverse.mp he)

/-- A text whose last component is a name or `..` is cut around the piece of that component. -/
theorem exists_cut {p : Path} {c : Component} (hc : p.components.getLast? = some c)
    (hroot : c ≠ .root) (hhere : c ≠ .here) :
    ∃ front last behind, IsCut front last behind ∧ p = ofCut front last behind ∧
      Component.ofPiece? last = some c := by
  obtain ⟨⟨first, later⟩, hp⟩ : ∃ split, p.pieces = split := ⟨_, rfl⟩
  have hall : p.allPieces = first :: later := by rw [allPieces, hp]
  have hcomp : p.components = leading first later ++ later.filterMap Component.ofPiece? := by
    rw [components, hp]
  rcases empty_or_last later with hlater | ⟨before, last, behind, rfl, hmakes, hempty⟩
  · -- only the first piece can make the component
    rw [hcomp, filterMap_ofPiece_eq_nil hlater, List.append_nil] at hc
    have hfirst : Component.ofPiece? first = some c := by
      unfold leading at hc
      split at hc
      · split at hc
        · simp at hc
        · exact absurd (by simpa using hc.symm) hroot
      · split at hc
        · exact absurd (by simpa using hc.symm) hhere
        · cases hf : Component.ofPiece? first with
          | none => simp [hf] at hc
          | some d => simpa [hf] using hc
    have hmakes : isEmptyPiece first = false := by
      by_contra hn
      rw [isEmptyPiece_iff.mp (by simpa using hn)] at hfirst
      cases hfirst
    have hall' : p.allPieces = [] ++ first :: later := hall
    obtain ⟨hcut, heq⟩ := cut_of_allPieces hall' hmakes hlater
    exact ⟨[], first, later, hcut, heq, hfirst⟩
  · rw [← List.cons_append] at hall
    obtain ⟨hcut, heq⟩ := cut_of_allPieces hall hmakes hempty
    refine ⟨_, _, _, hcut, heq, ?_⟩
    rw [heq, components_ofCut hcut] at hc
    cases hl : Component.ofPiece? last with
    | none => simp [isEmptyPiece_iff.mpr hl] at hmakes
    | some d => simpa [hl] using hc

/-- A text that ends in an ordinary name is cut around that name. -/
theorem exists_cut_of_fileName {p : Path} {n : List Char} (h : p.fileName? = some n) :
    ∃ front behind, IsCut front n behind ∧ p = ofCut front n behind ∧ n ≠ ['.', '.'] := by
  unfold fileName? at h
  obtain ⟨c, hc, hn⟩ := Option.bind_eq_some_iff.mp h
  have hc' : c = .name n := by
    cases c with
    | name text => simpa [Component.name?] using hn
    | root => cases hn
    | here => cases hn
    | up => cases hn
  subst hc'
  obtain ⟨front, last, behind, hcut, heq, hlast⟩ := exists_cut hc (by simp) (by simp)
  obtain ⟨rfl, -, hup⟩ := eq_of_ofPiece_eq_name hlast
  exact ⟨front, behind, hcut, heq, hup⟩

/-- The file name of a text that was put together around a last piece. -/
theorem fileName_ofCut {front behind : List (List Char)} {last : List Char}
    (h : IsCut front last behind) :
    (ofCut front last behind).fileName? = if last = ['.', '.'] then none else some last := by
  unfold fileName?
  rw [components_ofCut h]
  split
  · next hup =>
    subst hup
    simp [Component.ofPiece?, Component.name?]
  · next hup => simp [ofPiece_of_ne h.last_makes hup, Component.name?]

end Path

end ArtifactSync
