/-!
# Debouncing

A debouncer holds the latest value given to it until nothing new has come for a quiet period. It has
no clock of its own: whoever asks says what time it is, in milliseconds.
-/

namespace ArtifactSync

/-- The quiet period, and the pending value with the instant it was given at. -/
structure Debouncer (α : Type) where
  quiet : Nat
  pending : Option (α × Nat)
  deriving DecidableEq, Repr

namespace Debouncer

variable {α : Type}

/-- A debouncer with nothing pending. -/
def new (quiet : Nat) : Debouncer α := ⟨quiet, none⟩

/-- Makes a value the pending one and starts the quiet period again. -/
def push (d : Debouncer α) (value : α) (now : Nat) : Debouncer α :=
  { d with pending := some (value, now) }

/-- The instant from which the pending value is due. -/
def deadline (d : Debouncer α) : Option Nat :=
  d.pending.map fun p => p.2 + d.quiet

/-- Whether a pending value is due. -/
def isDue (d : Debouncer α) (now : Nat) : Bool :=
  d.deadline.any fun due => due ≤ now

/-- Whether a value is pending. -/
def hasPending (d : Debouncer α) : Bool :=
  d.pending.isSome

/-- Takes the pending value, due or not. -/
def take (d : Debouncer α) : Option α × Debouncer α :=
  (d.pending.map Prod.fst, { d with pending := none })

/-- Takes the pending value if it is due. -/
def poll (d : Debouncer α) (now : Nat) : Option α × Debouncer α :=
  if d.isDue now then d.take else (none, d)

end Debouncer

end ArtifactSync
