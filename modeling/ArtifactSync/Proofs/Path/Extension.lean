import ArtifactSync.Path.Extension
import ArtifactSync.Proofs.Path.Pieces

/-!
# Replacing an extension

The replacement cuts as many characters off the end of a text as the old extension has. When
separators stand behind the file name, the cut falls on them or ends inside the extension, and the
name gets its new extension. When nothing stands behind it, the cut leaves the name up to its last
dot, which is again a name, unless the stem is the single character `.`: then `..` is left, and that
is no name and stays as it is (`withExtension_ofCut`). So what becomes of `..civet` depends on its
spelling.
-/

namespace ArtifactSync

namespace Path

/-- A name with a stem and an extension splits into them. -/
theorem splitName_append {stem extension : List Char} (hstem : stem ≠ []) (hdot : '.' ∉ extension)
    (hup : stem ++ '.' :: extension ≠ ['.', '.']) :
    splitName (stem ++ '.' :: extension) = (stem, some extension) := by
  have htake : ((stem ++ '.' :: extension).reverse.takeWhile (· ≠ '.')).reverse = extension := by
    have hpos : ∀ c ∈ extension.reverse, decide (c ≠ '.') = true := by
      intro c hc
      simp only [ne_eq, decide_eq_true_eq]
      rintro rfl
      exact hdot (List.mem_reverse.mp hc)
    rw [List.reverse_append, List.reverse_cons, List.append_assoc,
      List.takeWhile_append_of_pos hpos]
    simp
  have hfront : (stem ++ '.' :: extension).take
      ((stem ++ '.' :: extension).length - extension.length) = stem ++ ['.'] := by
    rw [show (stem ++ '.' :: extension).length - extension.length = (stem ++ ['.']).length by
      simp; omega, show stem ++ '.' :: extension = (stem ++ ['.']) ++ extension by simp,
      List.take_left]
  have hlen : ¬(stem ++ ['.']).length ≤ 1 := by
    have := List.length_pos_iff.mpr hstem
    simp
    omega
  unfold splitName
  rw [if_neg hup]
  simp only [htake, hfront]
  rw [if_neg hlen]
  simp

/-- A text is cut behind its last dot, if it has one. -/
theorem exists_lastDot (name : List Char) : ∃ front behind, name = front ++ behind ∧
    (name.reverse.takeWhile (· ≠ '.')).reverse = behind ∧ '.' ∉ behind ∧
    (front = [] ∨ ∃ stem, front = stem ++ ['.']) := by
  have hsplit := List.takeWhile_append_dropWhile (p := (· ≠ '.')) (l := name.reverse)
  refine ⟨(name.reverse.dropWhile (· ≠ '.')).reverse, _, ?_, rfl, ?_, ?_⟩
  · rw [← List.reverse_append, hsplit, List.reverse_reverse]
  · intro hc
    simpa using List.mem_takeWhile_imp (List.mem_reverse.mp hc)
  · cases hd : name.reverse.dropWhile (· ≠ '.') with
    | nil => exact .inl rfl
    | cons c cs =>
      have hc := List.head?_dropWhile_not (fun c : Char => decide (c ≠ '.')) name.reverse
      rw [hd] at hc
      obtain rfl : c = '.' := by simpa using hc
      exact .inr ⟨cs.reverse, List.reverse_cons⟩

/-- A name that has an extension consists of its stem, a dot and the extension. -/
theorem eq_of_splitName {name stem extension : List Char}
    (h : splitName name = (stem, some extension)) :
    name = stem ++ '.' :: extension ∧ stem ≠ [] ∧ '.' ∉ extension ∧ name ≠ ['.', '.'] := by
  obtain ⟨front, behind, hname, hb, hdot, hfront⟩ := exists_lastDot name
  unfold splitName at h
  split at h
  · simp at h
  · next hup =>
    have htake : name.take (name.length - behind.length) = front := by
      rw [hname, List.length_append, Nat.add_sub_cancel, List.take_left]
    simp only [hb, htake] at h
    split at h
    · simp at h
    · next hlen =>
      obtain ⟨hstem, hext⟩ := Prod.mk.inj h
      obtain rfl := Option.some.inj hext
      rcases hfront with rfl | ⟨front, rfl⟩
      · simp at hlen
      · rw [List.dropLast_concat] at hstem
        subst hstem
        refine ⟨by simpa using hname, ?_, hdot, hup⟩
        rintro rfl
        simp at hlen

/-- The characters in front of a place in a text behind the last name make no component either. -/
theorem take_behindText {behind : List (List Char)} (h : ∀ e ∈ behind, isEmptyPiece e = true)
    (k : ℕ) : ∃ shorter : List (List Char), (∀ e ∈ shorter, isEmptyPiece e = true) ∧
      (behindText behind).take k = behindText shorter := by
  induction behind generalizing k with
  | nil => exact ⟨[], by simp, by simp [behindText]⟩
  | cons piece behind ih =>
    have hp := h piece (by simp)
    obtain ⟨shorter, hs, htake⟩ := ih (fun e he => h e (by simp [he])) (k - (piece.length + 1))
    have hcons (later : List (List Char)) :
        behindText (piece :: later) = ('/' :: piece) ++ behindText later := by
      simp [behindText]
    rw [hcons, List.take_append, List.length_cons, htake]
    have hpiece : piece = [] ∨ piece = ['.'] := by simpa [isEmptyPiece] using hp
    rcases Nat.lt_or_ge k (piece.length + 1) with hk | hk
    · -- the place is inside this piece, so nothing of the later ones is left
      have hnil : behindText shorter = [] := by
        rw [← htake, Nat.sub_eq_zero_of_le (by omega), List.take_zero]
      rw [hnil, List.append_nil]
      rcases k with _ | k
      · exact ⟨[], by simp, rfl⟩
      · refine ⟨[[]], by simp [isEmptyPiece], ?_⟩
        have hzero : k = 0 := by
          rcases hpiece with rfl | rfl
          · simp at hk
          · simp at hk
            omega
        simp [hzero, behindText]
    · refine ⟨piece :: shorter, by simpa [hp] using hs, ?_⟩
      rw [hcons, List.take_of_length_le (by simpa using hk)]

/-- The pieces that are left when a name between others is replaced. -/
theorem IsCut.replace {front behind : List (List Char)} {last new : List Char}
    (h : IsCut front last behind) (hfree : '/' ∉ new) (hmakes : isEmptyPiece new = false) :
    IsCut front new [] :=
  ⟨h.front_free, hfree, hmakes, by simp⟩

/-- A text with a dot in it that is longer than the dot makes a component. -/
theorem isEmptyPiece_append_dot {stem extension : List Char} (h : stem ≠ []) :
    isEmptyPiece (stem ++ '.' :: extension) = false := by
  cases stem with
  | nil => exact absurd rfl h
  | cons c cs => simp [isEmptyPiece]

/-- Writing an extension replaces that of the name and drops what stands behind it. -/
theorem setExtension_ofCut {front behind : List (List Char)} {stem old : List Char}
    (h : IsCut front (stem ++ '.' :: old) behind) (hstem : stem ≠ []) (hdot : '.' ∉ old)
    (hup : stem ++ '.' :: old ≠ ['.', '.']) (extension : List Char) :
    (ofCut front (stem ++ '.' :: old) behind).setExtension extension =
      ofCut front (stem ++ '.' :: extension) [] := by
  unfold setExtension
  rw [cutLast_ofCut h, fileName_ofCut h, if_neg hup]
  simp [splitName_append hstem hdot hup, ofCut, behindText]

/-- A path that ends in `..` takes no extension. -/
theorem setExtension_ofCut_up {front behind : List (List Char)}
    (h : IsCut front ['.', '.'] behind) (extension : List Char) :
    (ofCut front ['.', '.'] behind).setExtension extension = ofCut front ['.', '.'] behind := by
  unfold setExtension
  rw [cutLast_ofCut h, fileName_ofCut h, if_pos rfl]
  simp

/-- Text behind the last name is empty only if there are no pieces behind it. -/
theorem behindText_eq_nil {behind : List (List Char)} (h : behindText behind = []) :
    behind = [] := by
  cases behind with
  | nil => rfl
  | cons piece behind => simp [behindText] at h

/-- What is left of a text when as many characters are cut off its end as the extension of its name
has: the name with as many characters of the extension as stand behind the name. -/
theorem take_ofCut (front : List (List Char)) (stem old : List Char) (behind : List (List Char)) :
    let cut := (behindText behind).length
    (ofCut front (stem ++ '.' :: old) behind).chars.take
        ((ofCut front (stem ++ '.' :: old) behind).chars.length - old.length) =
      frontText front ++ (stem ++ '.' :: old.take cut) ++
        (behindText behind).take (cut - old.length) := by
  have hchars : (ofCut front (stem ++ '.' :: old) behind).chars =
      (frontText front ++ (stem ++ ['.'])) ++ (old ++ behindText behind) := by
    simp [ofCut]
  have hlen : (ofCut front (stem ++ '.' :: old) behind).chars.length - old.length =
      (frontText front ++ (stem ++ ['.'])).length + (behindText behind).length := by
    rw [hchars]
    simp only [List.length_append]
    omega
  intro cut
  rw [hlen, hchars, List.take_length_add_append, List.take_append]
  simp [cut]

/-- A stem with a dot and some text behind it is `..` only if the stem is `.` and the text is
nothing. -/
theorem append_dot_eq_up {stem rest : List Char} (hstem : stem ≠ []) :
    stem ++ '.' :: rest = ['.', '.'] ↔ stem = ['.'] ∧ rest = [] := by
  cases stem with
  | nil => exact absurd rfl hstem
  | cons c cs => cases cs with
    | nil => simp
    | cons d ds => simp

/-- A cut as long as the old extension leaves `..` exactly when nothing stands behind the name and
its stem is `.`. -/
theorem left_eq_up {behind : List (List Char)} {stem old : List Char} (hstem : stem ≠ [])
    (hup : stem ++ '.' :: old ≠ ['.', '.']) :
    stem ++ '.' :: old.take (behindText behind).length = ['.', '.'] ↔
      behind = [] ∧ stem = ['.'] := by
  rw [append_dot_eq_up hstem, List.take_eq_nil_iff, List.length_eq_zero_iff]
  constructor
  · rintro ⟨rfl, hbehind | rfl⟩
    · exact ⟨behindText_eq_nil hbehind, rfl⟩
    · exact absurd rfl hup
  · rintro ⟨rfl, rfl⟩
    exact ⟨rfl, .inl rfl⟩

/-- Replacing the extension of a name. What stands behind the name decides where the cut in the text
falls: with nothing there, a stem `.` leaves `..`, which is no name. -/
theorem withExtension_ofCut {front behind : List (List Char)} {stem old : List Char}
    (h : IsCut front (stem ++ '.' :: old) behind) (hstem : stem ≠ []) (hdot : '.' ∉ old)
    (hup : stem ++ '.' :: old ≠ ['.', '.']) (extension : List Char) :
    (ofCut front (stem ++ '.' :: old) behind).withExtension extension =
      ofCut front (if behind = [] ∧ stem = ['.'] then ['.', '.'] else stem ++ '.' :: extension)
        [] := by
  have hext : (ofCut front (stem ++ '.' :: old) behind).extension? = some old := by
    rw [extension?, fileName_ofCut h, if_neg hup]
    simp [splitName_append hstem hdot hup]
  obtain ⟨shorter, hempty, hshort⟩ :=
    take_behindText h.behind_empty ((behindText behind).length - old.length)
  -- the path that the cut leaves
  have hleft := take_ofCut front stem old behind
  simp only [hshort] at hleft
  unfold withExtension
  rw [hext]
  simp only [hleft]
  change setExtension (ofCut front (stem ++ '.' :: old.take (behindText behind).length) shorter)
    extension = _
  have hfree : '/' ∉ stem ++ '.' :: old.take (behindText behind).length := by
    intro hs
    apply h.last_free
    simp only [List.mem_append, List.mem_cons] at hs ⊢
    exact hs.imp_right fun hs => hs.imp_right List.mem_of_mem_take
  have hcut : IsCut front (stem ++ '.' :: old.take (behindText behind).length) shorter :=
    ⟨h.front_free, hfree, isEmptyPiece_append_dot hstem, hempty⟩
  have hdot' : '.' ∉ old.take (behindText behind).length := fun hd =>
    hdot (List.mem_of_mem_take hd)
  by_cases hleftUp : stem ++ '.' :: old.take (behindText behind).length = ['.', '.']
  · obtain ⟨hbehind, hstem'⟩ := (left_eq_up hstem hup).mp hleftUp
    have hshorter : shorter = [] := by
      rw [hbehind] at hshort
      exact behindText_eq_nil (by rw [← hshort]; simp [behindText])
    rw [hleftUp] at hcut ⊢
    rw [setExtension_ofCut_up hcut, if_pos ⟨hbehind, hstem'⟩, hshorter]
  · rw [setExtension_ofCut hcut hstem hdot' hleftUp,
      if_neg fun hboth => hleftUp ((left_eq_up hstem hup).mpr hboth)]

/-- A name without an extension is its own stem. -/
theorem stem_of_no_extension {name stem : List Char} (h : splitName name = (stem, none)) :
    stem = name := by
  unfold splitName at h
  split at h
  · exact (Prod.mk.inj h).1.symm
  · simp only at h
    split at h
    · exact (Prod.mk.inj h).1.symm
    · cases h

/-- Replacing the extension of a name that has none writes the new one behind the name. -/
theorem withExtension_ofCut_none {front behind : List (List Char)} {name stem : List Char}
    (h : IsCut front name behind) (hup : name ≠ ['.', '.'])
    (hsplit : splitName name = (stem, none)) (extension : List Char) :
    (ofCut front name behind).withExtension extension =
      ofCut front (name ++ '.' :: extension) [] := by
  have hextension : (ofCut front name behind).extension? = none := by
    rw [extension?, fileName_ofCut h, if_neg hup]
    simp [hsplit]
  have hstem : (splitName name).1 = name := by rw [hsplit, stem_of_no_extension hsplit]
  simp only [withExtension, hextension, setExtension, cutLast_ofCut h, fileName_ofCut h,
    if_neg hup, Option.isNone_some, Bool.false_eq_true, if_false, hstem]
  simp [ofCut, behindText]

end Path

end ArtifactSync
