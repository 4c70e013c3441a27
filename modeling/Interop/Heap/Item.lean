import Interop.Heap.Marshal
import Interop.Heap.Rendering
import Interop.Heap.Slice
/-!
Items of foreign values: positions of sequences, sections of them, and entries of dicts. A key that
is a foreign integer or string counts as that integer or string.
-/

set_option autoImplicit false

namespace Interop

variable {κ : Type}

/-- What stands at a key of a value. -/
inductive Item
  | object (handle : Handle)
  | byte (value : UInt8)
  /-- A section of a list, as a new list. -/
  | listSection (items : List Handle)
  /-- A section of a tuple, as a new tuple. -/
  | tupleSection (items : List Handle)

/-- What an object becomes when an item is stored in it, if it takes such an item. -/
def Kind.storing (kind : Kind κ) (key : Arg κ) (stored : Handle) : Option (Kind κ) :=
  match kind, key with
  | .list items, .int index =>
    (resolveIndex? index items.length).map fun position => .list (items.set position stored)
  | .dict entries, .string key => some (.dict (entries.insert key stored))
  | _, _ => Option.none

namespace Heap

/-- A key with foreign integers and strings read as what they are. -/
def plainKey (heap : Heap κ) (key : Arg κ) : Arg κ :=
  match key with
  | .handle h =>
    match heap.kind? h with
    | some (.int value) => .int value
    | some (.string value) => .string value
    | _ => key
  | _ => key

/-- The part of a sequence that a key stands for: one item or a section. -/
def sequencePart (heap : Heap κ) (sequence : String) (items : List Handle) (key : Arg κ) :
    Except Fault (Handle ⊕ List Handle) :=
  match key with
  | .int index =>
    match (resolveIndex? index items.length).bind (items[·]?) with
    | some item => .ok (.inl item)
    | none => .error (.indexOutOfRange sequence)
  | .handle h =>
    match heap.kind? h with
    | some (.slice start stop step) => do
      let positions ← slicePositions items.length start stop step
      return .inr (positions.filterMap (items[·]?))
    | _ => .error (.invalidIndex sequence)
  | _ => .error (.invalidIndex sequence)

def item (heap : Heap κ) (h : Handle) (key : Arg κ) : Except Fault Item :=
  match heap.cell? h with
  | none => .error .released
  | some (.stub stub) =>
    match key with
    | .int index =>
      match if index < 0 then none else stub.items[index.toInt.toNat]? with
      | some item => .ok (.object item)
      | none => .error .stubIndex
    | _ => .error .stubKey
  | some (.object object) =>
    match object.kind, heap.plainKey key with
    | .list items, key => do
      match ← heap.sequencePart "list" items key with
      | .inl item => return .object item
      | .inr items => return .listSection items
    | .tuple items, key => do
      match ← heap.sequencePart "tuple" items key with
      | .inl item => return .object item
      | .inr items => return .tupleSection items
    | .bytes data, .int index =>
      match (resolveIndex? index data.length).bind (data[·]?) with
      | some byte => .ok (.byte byte)
      | none => .error .byteIndexOutOfRange
    | .dict entries, .string key =>
      match entries.get? key with
      | some value => .ok (.object value)
      | none => .error (.noEntry ("'" ++ key ++ "'"))
    | .dict _, key => .error (.noEntry (key.describeWith heap.describe))
    | kind, _ => .error (.notSubscriptable (heap.typeName kind))

def getItem (h : Handle) (key : Arg κ) : Op κ Handle := do
  let heap ← get
  match heap.item h key with
  | .error fault => throw fault
  | .ok (.object value) => return value
  | .ok (.byte value) => Op.alloc (.int (Int64.ofInt value.toNat))
  | .ok (.listSection items) => Op.alloc (.list items)
  | .ok (.tupleSection items) => Op.alloc (.tuple items)

/-- Stores an item and tells whether that was accepted; a refusal changes nothing. -/
def setItem (heap : Heap κ) (h : Handle) (key value : Arg κ) : Status × Heap κ :=
  match heap.cell? h with
  | none => (.failure, heap)
  | some (.stub stub) => (stub.status, heap)
  | some (.object object) =>
    match (marshal value).run heap with
    | .error _ => (.failure, heap)
    | .ok (stored, after) =>
      match object.kind.storing (heap.plainKey key) stored with
      | some kind => (.ok, after.write h (.object { object with kind := kind }))
      | none => (.failure, heap)

/-- The next item of an iterator; no item once it is exhausted. -/
def next (heap : Heap κ) (h : Handle) : Except Fault (Option Handle) × Heap κ :=
  match heap.cell? h with
  | none => (.error .released, heap)
  | some (.stub stub) =>
    match stub.script with
    | [] => (.ok none, heap)
    | step :: rest =>
      let after := heap.write h (.stub { stub with script := rest })
      match step with
      | .item item => (.ok (some item), after)
      | .fail kind message => (.error (.scripted kind message), after)
  | some (.object object) =>
    match object.kind with
    | .iterator [] => (.ok none, heap)
    | .iterator (item :: rest) =>
      (.ok (some item), heap.write h (.object { object with kind := .iterator rest }))
    | kind => (.error (.notIterator (heap.typeName kind)), heap)

end Heap
end Interop
