import ArtifactSync.Process.Octets

/-!
# Tables

A table holds values under keys, which are words or whole numbers; a number and the word that spells
it are the same key. The keys come up in the order of the places that their digests give them in a
row of places, which grows with the table; of keys at one place the one that was used last comes up
first. A key that is used by its number alone does not move, and a table of which all keys are
numbers is arranged by them until it is asked for a word.
-/

namespace ArtifactSync.Process.Record

/-- A key as it is used. -/
inductive Key where
  | number (n : Int)
  | word (w : Word)
  deriving DecidableEq, Repr

/-- The word that is the same key. -/
def Key.spelled : Key → Word
  | number n => (toString n).toList
  | word w => w

/-- A value under a key; the key is known by its number if it was used so. -/
structure Item (α : Type) where
  key : Word
  number : Option Int
  value : α

/-- How a table is arranged: as the row of pieces that it was made of, by numbers, or by words. -/
inductive Arrangement where
  | row
  | byNumber
  | byWord
  deriving DecidableEq, Repr

/-- A table: its items, those that were used last in front, and how many places it has. -/
structure Table (α : Type) where
  items : List (Item α)
  places : Nat
  arrangement : Arrangement

namespace Table

variable {α : Type}

/-- How many places a table has at first. -/
def firstPlaces : Nat := 64

/-- A table that holds nothing. -/
def empty : Table α := ⟨[], firstPlaces, .byNumber⟩

/-- A table of values that are counted from one. -/
def ofRow (values : List α) : Table α :=
  let items := values.zipIdx.map fun (value, i) =>
    ⟨(Key.number (i + 1)).spelled, some ((i : Int) + 1), value⟩
  ⟨items.reverse, firstPlaces, .row⟩

/-- How many items a table holds. -/
def size (t : Table α) : Nat := t.items.length

/-- The digest of a word: each byte is mixed in, and the whole multiplied by a prime number. -/
def digest (w : Word) : UInt32 :=
  w.foldl (fun h c => (h ^^^ UInt32.ofNat c.toNat) * 16777619) 2166136261

/-- Items by the places that a measure gives them, in the order they have at each place. -/
def inPlaces (measure : Item α → Nat) (items : List (Item α)) : List (Item α) :=
  items.mergeSort fun a b => measure a ≤ measure b

/-- How many items a place holds on average at most. -/
def crowd : Nat := 12

/-- A table with twice as many places if it is crowded. -/
def grown (t : Table α) : Table α :=
  if crowd * t.places < t.size then { t with places := 2 * t.places } else t

/-- So many places that they are not crowded with a number of items. At most `limit` times they
double. -/
def placesFor (size : Nat) : Nat → Nat → Nat
  | 0, places => places
  | limit + 1, places =>
    if crowd * places < size then placesFor size limit (2 * places) else places

/-- A table that is arranged by numbers if it was a row. -/
def numbered (t : Table α) : Table α :=
  if t.arrangement = .row then
    { t with places := placesFor t.size t.size firstPlaces, arrangement := .byNumber }
  else t

/-- A table that is arranged by words. Items that were arranged by numbers are taken up place by
place, each in front of the last one. -/
def named (t : Table α) : Table α :=
  let t := t.numbered
  if t.arrangement = .byWord then t
  else
    let place := fun (i : Item α) => ((i.number.getD 0) % (t.places : Int)).toNat
    { t with items := (inPlaces place t.items).reverse, arrangement := .byWord }

/-- A table with an item moved to the front. -/
def withFirst (t : Table α) (i : Item α) : Table α :=
  { t with items := i :: t.items.filter fun j => j.key ≠ i.key }

/-- The item whose word is that of a key, and the table in which it has moved to the front. It is
known by its number from then on if it was used so. -/
def useWord (t : Table α) (k : Key) : Option (Item α) × Table α :=
  match t.items.find? fun i => i.key = k.spelled with
  | none => (none, t)
  | some i =>
    match k with
    | .number n => (some i, t.withFirst { i with number := some n })
    | .word _ => (some i, t.withFirst i)

/-- The item of a key, if there is one, and the table as it is after that. -/
def use (t : Table α) : Key → Option (Item α) × Table α
  | .word w => t.named.useWord (.word w)
  | .number n =>
    match t.items.find? fun i => i.number = some n, t.arrangement with
    | some i, .byNumber => (some i, t.withFirst i)
    | some i, _ => (some i, t)
    | none, .byWord => t.useWord (.number n)
    | none, _ => (none, t.numbered)

/-- The value of a key, which the table holds from now on if it did not before. -/
def get (t : Table α) (k : Key) (new : α) : α × Table α :=
  match t.use k with
  | (some i, t) => (i.value, t)
  | (none, t) =>
    let number := match k with
      | .number n => some n
      | .word _ => none
    (new, { t with items := ⟨k.spelled, number, new⟩ :: t.items }.grown)

/-- A table in which a key has a value. -/
def put (t : Table α) (k : Key) (value : α) : Table α :=
  let (_, t) := t.get k value
  let put := fun (i : Item α) => if i.key = k.spelled then { i with value := value } else i
  { t with items := t.items.map put }

/-- Whether there is a key, and the table in which that was looked up. -/
def has (t : Table α) (k : Key) : Bool × Table α :=
  let (found, t) := t.use k
  (found.isSome, t)

/-- A table without a key. -/
def erase (t : Table α) (k : Key) : Table α :=
  let (_, t) := t.numbered.use k
  let t := { t with items := t.items.filter fun i => i.key ≠ k.spelled }
  if t.items.isEmpty then empty else t

/-- The keys in the order in which they come up, and the table in which they were looked up. -/
def keys (t : Table α) : List Word × Table α :=
  let t := t.named
  let place := fun (i : Item α) => (digest i.key).toNat % t.places
  ((inPlaces place t.items).map Item.key, t)

end Table

end ArtifactSync.Process.Record
