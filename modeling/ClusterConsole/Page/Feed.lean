/-! A feed of events for any number of readers. Each reader has a position of its
own. The feed keeps its last events only, as many as its capacity; a reader that
fell behind is told once how many it lost, and goes on with the oldest that is
kept. -/

namespace ClusterConsole

/-- All that was ever sent, oldest first. Of it the last `capacity` are kept. -/
structure Feed (α : Type) where
  capacity : Nat
  sent : List α := []
  closed : Bool := false
  deriving DecidableEq, Repr, Inhabited

/-- What a reader finds: an event, the number of events that it lost, the end of
the feed, or nothing yet. -/
inductive Received (α : Type) where
  | event (a : α)
  | lagged (lost : Nat)
  | closed
  | nothing
  deriving DecidableEq, Repr, Inhabited

namespace Feed

variable {α : Type}

/-- A feed keeps a power of two of events, at least as many as asked for. -/
def roundUp (n : Nat) : Nat := Nat.pow 2 (if n ≤ 1 then 0 else (n - 1).log2 + 1)

def ofCapacity (n : Nat) : Feed α := { capacity := roundUp n }

def send (f : Feed α) (a : α) : Feed α := { f with sent := f.sent ++ [a] }

def close (f : Feed α) : Feed α := { f with closed := true }

/-- The position of a reader that sees only what is sent from now on. -/
def subscribe (f : Feed α) : Nat := f.sent.length

/-- The position of the oldest event that is kept. -/
def oldest (f : Feed α) : Nat := f.sent.length - f.capacity

/-- What a reader finds at its position, and its next position. -/
def receive (f : Feed α) (position : Nat) : Received α × Nat :=
  if position < f.oldest then (.lagged (f.oldest - position), f.oldest)
  else
    match f.sent[position]? with
    | some a => (.event a, position + 1)
    | none => (if f.closed then .closed else .nothing, position)

/-- How many events a reader lost, and those that it can still read. -/
def unread (f : Feed α) (position : Nat) : Nat × List α :=
  (f.oldest - position, f.sent.drop (max position f.oldest))

end Feed

end ClusterConsole
