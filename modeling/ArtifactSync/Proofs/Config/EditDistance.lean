import ArtifactSync.Config.Suggest
import Mathlib.Order.Bounds.Basic
import Mathlib.Tactic.Common

/-!
# Edit distance

The edit distance of two rows of bytes is the least number of edits that turn the one into the other
(`editDistance_isLeast`), where an edit puts one byte in, takes one out or replaces one, at any
place, and edits follow each other in any order (`Edits`). So it is a metric.

The table is filled row by row, each row from the one above it. Its entries are the values of a
recursion over the two rows from their ends (`distance`, `lastRow_eq`), which is written here over
reversed rows, so that the end is the head. Every value of the recursion is the length of some edits
(`edits_distance`), and no edit changes it by more than one (`Edit.distance_le`), so fewer edits
cannot do.
-/

namespace ArtifactSync.Suggest

/-- One edit. -/
inductive Edit : List UInt8 → List UInt8 → Prop
  /-- A byte is put in. -/
  | insert (front behind : List UInt8) (b : UInt8) : Edit (front ++ behind) (front ++ b :: behind)
  /-- A byte is taken out. -/
  | delete (front behind : List UInt8) (a : UInt8) : Edit (front ++ a :: behind) (front ++ behind)
  /-- A byte is replaced. -/
  | replace (front behind : List UInt8) (a b : UInt8) :
      Edit (front ++ a :: behind) (front ++ b :: behind)

/-- A number of edits, one after another. -/
inductive Edits : Nat → List UInt8 → List UInt8 → Prop
  | none (as : List UInt8) : Edits 0 as as
  | more {n : Nat} {as bs cs : List UInt8} (edits : Edits n as bs) (last : Edit bs cs) :
      Edits (n + 1) as cs

variable {a b : UInt8} {as bs cs : List UInt8} {m n : Nat}

/-! ## Edits -/

/-- An edit can be taken back. -/
theorem Edit.symm (h : Edit as bs) : Edit bs as := by
  cases h with
  | insert front behind b => exact .delete front behind b
  | delete front behind a => exact .insert front behind a
  | replace front behind a b => exact .replace front behind b a

/-- An edit leaves a byte in front alone. -/
theorem Edit.cons (h : Edit as bs) (a : UInt8) : Edit (a :: as) (a :: bs) := by
  cases h with
  | insert front behind b => exact .insert (a :: front) behind b
  | delete front behind b => exact .delete (a :: front) behind b
  | replace front behind b c => exact .replace (a :: front) behind b c

/-- An edit of a row is one of the reversed row. -/
theorem Edit.reverse (h : Edit as bs) : Edit as.reverse bs.reverse := by
  cases h with
  | insert front behind b => simpa using Edit.insert behind.reverse front.reverse b
  | delete front behind a => simpa using Edit.delete behind.reverse front.reverse a
  | replace front behind a b => simpa using Edit.replace behind.reverse front.reverse a b

/-- One edit. -/
theorem Edit.edits (h : Edit as bs) : Edits 1 as bs :=
  .more (.none as) h

/-- Edits can be made after others. -/
theorem Edits.trans (h : Edits m as bs) (h' : Edits n bs cs) : Edits (m + n) as cs := by
  induction h' with
  | none => exact h
  | more _ last ih => exact .more (ih h) last

/-- Edits can be taken back. -/
theorem Edits.symm (h : Edits n as bs) : Edits n bs as := by
  induction h with
  | none as => exact .none as
  | more _ last ih =>
    rw [Nat.add_comm]
    exact last.symm.edits.trans ih

/-- Edits leave a byte in front alone. -/
theorem Edits.cons (h : Edits n as bs) (a : UInt8) : Edits n (a :: as) (a :: bs) := by
  induction h with
  | none as => exact .none (a :: as)
  | more _ last ih => exact .more ih (last.cons a)

/-- Edits of a row are edits of the reversed row. -/
theorem Edits.reverse (h : Edits n as bs) : Edits n as.reverse bs.reverse := by
  induction h with
  | none as => exact .none as.reverse
  | more _ last ih => exact .more ih last.reverse

/-- Only equal rows need no edit. -/
theorem edits_zero_iff : Edits 0 as bs ↔ as = bs := by
  constructor
  · intro h
    cases h
    rfl
  · rintro rfl
    exact .none as

/-- Every byte of a row can be put in. -/
theorem edits_nil (bs : List UInt8) : Edits bs.length [] bs := by
  induction bs with
  | nil => exact .none []
  | cons b bs ih => exact .more ih (.insert [] bs b)

/-! ## The recursion -/

/-- What it costs to have one byte where the other is. -/
def cost (a b : UInt8) : Nat :=
  if a = b then 0 else 1

/-- A replacement costs one edit at most. -/
theorem cost_le (a b : UInt8) : cost a b ≤ 1 := by
  unfold cost
  split <;> simp

/-- The edit distance by recursion: the first byte of the one row is taken out, or that of the other
is put in, or the one becomes the other. -/
def distance : List UInt8 → List UInt8 → Nat
  | [], bs => bs.length
  | as, [] => as.length
  | a :: as, b :: bs =>
    min (min (distance as (b :: bs) + 1) (distance (a :: as) bs + 1)) (distance as bs + cost a b)
termination_by as bs => as.length + bs.length

/-- From the empty row every byte is put in. -/
@[simp] theorem distance_nil_left (bs : List UInt8) : distance [] bs = bs.length := by
  rw [distance]

/-- To the empty row every byte is taken out. -/
@[simp] theorem distance_nil_right (as : List UInt8) : distance as [] = as.length := by
  cases as with
  | nil => rw [distance]
  | cons a as => rw [distance]; simp

/-- The three ways to go on. -/
theorem distance_cons (a : UInt8) (as : List UInt8) (b : UInt8) (bs : List UInt8) :
    distance (a :: as) (b :: bs) =
      min (min (distance as (b :: bs) + 1) (distance (a :: as) bs + 1))
        (distance as bs + cost a b) := by
  rw [distance]

/-- The recursion counts edits that lead from the one row to the other. -/
theorem edits_distance (as bs : List UInt8) : Edits (distance as bs) as bs := by
  fun_induction distance as bs with
  | case1 bs => exact edits_nil bs
  | case2 as => exact (edits_nil as).symm
  | case3 a as b bs ihDelete ihInsert ihPair =>
    -- the way that costs least
    rcases Nat.le_total (min (distance as (b :: bs) + 1) (distance (a :: as) bs + 1))
      (distance as bs + cost a b) with hle | hle
    · rw [Nat.min_eq_left hle]
      rcases Nat.le_total (distance as (b :: bs) + 1) (distance (a :: as) bs + 1) with hle | hle
      · rw [Nat.min_eq_left hle, Nat.add_comm]
        exact (Edit.delete [] as a).edits.trans ihDelete
      · rw [Nat.min_eq_right hle]
        exact .more ihInsert (.insert [] bs b)
    · rw [Nat.min_eq_right hle]
      have hpair : Edits (distance as bs) (b :: as) (b :: bs) := ihPair.cons b
      unfold cost
      split
      · next heq => rwa [heq]
      · rw [Nat.add_comm]
        exact (Edit.replace [] as a b).edits.trans hpair

/-! ## No edit changes the distance by more than one -/

/-- One more byte at the head of the first row. -/
theorem distance_cons_left_le (a : UInt8) (as bs : List UInt8) :
    distance (a :: as) bs ≤ distance as bs + 1 := by
  cases bs with
  | nil => simp
  | cons b bs =>
    rw [distance_cons]
    exact (Nat.min_le_left ..).trans (Nat.min_le_left ..)

/-- One more byte at the head of the second row. -/
theorem distance_cons_right_le (as : List UInt8) (b : UInt8) (bs : List UInt8) :
    distance as (b :: bs) ≤ distance as bs + 1 := by
  cases as with
  | nil => simp
  | cons a as =>
    rw [distance_cons]
    exact (Nat.min_le_left ..).trans (Nat.min_le_right ..)

/-- One byte less at the head of the second row. -/
theorem distance_le_cons_right (as : List UInt8) (b : UInt8) (bs : List UInt8) :
    distance as bs ≤ distance as (b :: bs) + 1 := by
  induction as with
  | nil => simp; omega
  | cons a as ih =>
    have hleft := distance_cons_left_le a as bs
    have hstep := distance_cons a as b bs
    omega

/-- Another byte at the head of the second row. -/
theorem distance_replace_le (as : List UInt8) (b c : UInt8) (bs : List UInt8) :
    distance as (c :: bs) ≤ distance as (b :: bs) + 1 := by
  induction as with
  | nil => simp
  | cons a as ih =>
    have hcost := cost_le a c
    have hfrom := distance_cons a as b bs
    have hto := distance_cons a as c bs
    omega

/-- A change of the second row that matters by one at most does so behind one more byte. -/
theorem distance_cons_right_mono (hlength : cs.length ≤ bs.length + 1)
    (h : ∀ as, distance as cs ≤ distance as bs + 1) (b : UInt8) (as : List UInt8) :
    distance as (b :: cs) ≤ distance as (b :: bs) + 1 := by
  induction as with
  | nil => simpa using hlength
  | cons a as ih =>
    have hinsert := h (a :: as)
    have hpair := h as
    have hfrom := distance_cons a as b bs
    have hto := distance_cons a as b cs
    omega

/-- The same behind any bytes. -/
theorem distance_append_mono (hlength : cs.length ≤ bs.length + 1)
    (h : ∀ as, distance as cs ≤ distance as bs + 1) (front as : List UInt8) :
    distance as (front ++ cs) ≤ distance as (front ++ bs) + 1 := by
  induction front generalizing as with
  | nil => exact h as
  | cons b front ih =>
    exact distance_cons_right_mono (by simp; omega) ih b as

/-- An edit of the second row changes the distance by one at most. -/
theorem Edit.distance_le (h : Edit bs cs) (as : List UInt8) :
    distance as cs ≤ distance as bs + 1 := by
  cases h with
  | insert front behind b =>
    exact distance_append_mono (by simp) (fun as => distance_cons_right_le as b behind) front as
  | delete front behind b =>
    exact distance_append_mono (by simp; omega) (fun as => distance_le_cons_right as b behind)
      front as
  | replace front behind b c =>
    exact distance_append_mono (by simp) (fun as => distance_replace_le as b c behind) front as

/-- A row has no distance to itself. -/
theorem distance_self (as : List UInt8) : distance as as = 0 := by
  induction as with
  | nil => simp
  | cons a as ih =>
    rw [distance_cons, ih, cost, if_pos rfl]
    simp

/-- So no edits are fewer than the distance. -/
theorem Edits.distance_le (h : Edits n as bs) : distance as bs ≤ n := by
  induction h with
  | none as => exact (distance_self as).le
  | more _ last ih => exact (last.distance_le _).trans (Nat.succ_le_succ ih)

/-! ## The table -/

/-- One row of the table: the distances from a row of bytes to what has been read of the other row
and to what each further byte makes of it. Both are read from their ends. -/
def tableRow (as front : List UInt8) : List UInt8 → List Nat
  | [] => [distance as front]
  | b :: bs => distance as front :: tableRow as (b :: front) bs

/-- A row of the table begins with the distance to what has been read. -/
theorem exists_tableRow (as front bs : List UInt8) :
    ∃ row, tableRow as front bs = distance as front :: row := by
  cases bs with
  | nil => exact ⟨[], rfl⟩
  | cons b bs => exact ⟨_, rfl⟩

/-- Each row is made from the one above it. -/
theorem tableRow_cons (a : UInt8) (as front bs : List UInt8) :
    distance (a :: as) front :: nextRow a (distance (a :: as) front) (tableRow as front bs) bs =
      tableRow (a :: as) front bs := by
  induction bs generalizing front with
  | nil => simp [tableRow, nextRow]
  | cons b bs ih =>
    obtain ⟨row, hrow⟩ := exists_tableRow as (b :: front) bs
    have hnext := ih (b :: front)
    rw [hrow, distance_cons] at hnext
    simp only [tableRow, hrow, nextRow]
    exact congrArg _ hnext

/-- The last row is that of all bytes. -/
theorem lastRow_tableRow (as before bs : List UInt8) :
    lastRow bs before.length (tableRow before [] bs) as =
      tableRow (as.reverse ++ before) [] bs := by
  induction as generalizing before with
  | nil => simp [lastRow]
  | cons a as ih =>
    have hrow := tableRow_cons a before [] bs
    rw [distance_nil_right, List.length_cons] at hrow
    rw [lastRow, hrow, ← List.length_cons (a := a), ih]
    simp

/-- The first row counts the bytes. -/
theorem tableRow_nil (front bs : List UInt8) :
    tableRow [] front bs = List.range' front.length (bs.length + 1) := by
  induction bs generalizing front with
  | nil => simp [tableRow]
  | cons b bs ih =>
    rw [tableRow, ih, distance_nil_left, List.length_cons, List.length_cons]
    exact List.range'_succ.symm

/-- A row ends with the distance to all bytes. -/
theorem getLastD_tableRow (as front bs : List UInt8) (d : Nat) :
    (tableRow as front bs).getLastD d = distance as (bs.reverse ++ front) := by
  induction bs generalizing front d with
  | nil => rfl
  | cons b bs ih =>
    rw [tableRow, List.getLastD_cons, ih]
    simp

/-- The table holds the recursion over the reversed rows. -/
theorem editDistance_eq (as bs : List UInt8) :
    editDistance as bs = distance as.reverse bs.reverse := by
  have hfirst : List.range (bs.length + 1) = tableRow [] [] bs := by
    rw [tableRow_nil, List.length_nil, List.range_eq_range']
  rw [editDistance, hfirst]
  rw [show (0 : Nat) = ([] : List UInt8).length from rfl, lastRow_tableRow, getLastD_tableRow]
  simp

/-! ## The metric -/

/-- The edit distance is the least number of edits. -/
theorem editDistance_isLeast (as bs : List UInt8) :
    IsLeast {n | Edits n as bs} (editDistance as bs) := by
  rw [editDistance_eq]
  constructor
  · simpa using (edits_distance as.reverse bs.reverse).reverse
  · intro n hn
    exact hn.reverse.distance_le

/-- It is the same in both directions. -/
theorem editDistance_comm (as bs : List UInt8) : editDistance as bs = editDistance bs as := by
  have hedits : {n | Edits n as bs} = {n | Edits n bs as} :=
    Set.ext fun n => ⟨Edits.symm, Edits.symm⟩
  exact (editDistance_isLeast as bs).unique (hedits ▸ editDistance_isLeast bs as)

/-- Only equal rows have none. -/
theorem editDistance_eq_zero_iff : editDistance as bs = 0 ↔ as = bs := by
  obtain ⟨hreached, hleast⟩ := editDistance_isLeast as bs
  rw [← edits_zero_iff]
  constructor
  · intro h
    rw [h] at hreached
    exact hreached
  · intro h
    exact Nat.le_zero.mp (hleast h)

/-- A detour is no shorter. -/
theorem editDistance_triangle (as bs cs : List UInt8) :
    editDistance as cs ≤ editDistance as bs + editDistance bs cs :=
  (editDistance_isLeast as cs).2
    ((editDistance_isLeast as bs).1.trans (editDistance_isLeast bs cs).1)

end ArtifactSync.Suggest
