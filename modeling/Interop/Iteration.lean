import Interop.Proxy
/-!
Iteration over a foreign value.

An iterator is asked for its next item; a sequence is read at a cursor, and its length is asked for
again before every item, so that changes during the iteration are seen. Every item is wrapped. After
the end or the first error there is nothing more.
-/

set_option autoImplicit false

namespace Interop

variable {κ σ : Type}

/-- Where an iteration stands. -/
inductive IterationState
  /-- The value itself keeps the position. -/
  | stepping
  /-- The item at the cursor comes next. -/
  | reading (cursor : Nat)
  /-- The iteration could not start; its only item is the error. -/
  | refused (error : Error)
  | finished
  deriving DecidableEq

/-- An iteration over the value behind a handle. -/
structure Iteration where
  handle : Handle
  state : IterationState
  deriving DecidableEq

namespace Iteration

/-- The iteration of a proxy, not yet begun. A value that is neither an iterator nor a sequence is
refused. -/
def start (p : Proxy κ) : Program κ σ Iteration := do
  if ← p.handle.isIterator then
    return ⟨p.handle, .stepping⟩
  else if ← p.handle.isSequence then
    return ⟨p.handle, .reading 0⟩
  else
    return ⟨p.handle, .refused (.type (.notIterable p.typeInfo.name))⟩

/-- The iteration of a proxy, or the error if it is refused. -/
def start? (p : Proxy κ) : Program κ σ Iteration := do
  let iteration ← start p
  match iteration.state with
  | .refused error => throw error
  | _ => return iteration

/-- The position of the next item of a sequence; none for iterators and once finished. -/
def cursor? (iteration : Iteration) : Option Nat :=
  match iteration.state with
  | .reading cursor => some cursor
  | _ => none

/-- The next item of a value that keeps its own position. -/
def steppedItem (h : Handle) : Program κ σ (Option (Object κ)) := do
  match ← h.next with
  | none => return none
  | some item => return some (← Bridge.wrap item)

/-- The item at a cursor, if it lies below the length. -/
def itemAt (h : Handle) (cursor : Nat) : Program κ σ (Option (Object κ)) := do
  let length ← Bridge.lengthOf h
  if length ≤ cursor then
    return none
  else
    return some (← Bridge.wrap (← h.getItem (.ofInt cursor)))

/-- What an attempt to read an item makes of an iteration: it goes on in state `next` after an item,
and is finished after an error or the end. -/
def settle (h : Handle) (next : IterationState) :
    Except Error (Option (Object κ)) → Option (Except Error (Object κ)) × Iteration
  | .ok (some item) => (some (.ok item), ⟨h, next⟩)
  | .ok none => (none, ⟨h, .finished⟩)
  | .error error => (some (.error error), ⟨h, .finished⟩)

/-- The next item or error, if there is one, and the iteration after it. -/
def next (iteration : Iteration) :
    Interaction κ σ (Option (Except Error (Object κ)) × Iteration) := do
  let h := iteration.handle
  match iteration.state with
  | .finished => return (none, iteration)
  | .refused error => return (some (.error error), ⟨h, .finished⟩)
  | .stepping => return settle h .stepping (← (steppedItem h).run)
  | .reading cursor => return settle h (.reading (cursor + 1)) (← (itemAt h cursor).run)

/-- The items of an iteration, at most `limit` of them. -/
def items : Nat → Iteration → Interaction κ σ (List (Except Error (Object κ)))
  | 0, _ => return []
  | limit + 1, iteration => do
    match ← iteration.next with
    | (none, _) => return []
    | (some item, rest) => return item :: (← items limit rest)

end Iteration
end Interop
