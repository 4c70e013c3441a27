import Interop.Heap.Basic
/-!
Hashes of foreign values. Numbers that are equal have equal hashes, whatever their kind; texts and
bytes are hashed byte by byte; tuples combine the hashes of their items. Lists and dicts have none.
-/

set_option autoImplicit false

namespace Interop

variable {κ : Type}

/-- The hash of bytes: starting from a fixed word, each byte is mixed in and the word multiplied. -/
def hashBytes (data : List UInt8) : Int64 :=
  let mixed := data.foldl (fun (hash : UInt64) byte => (hash ^^^ byte.toUInt64) * 0x100000001b3)
    0xcbf29ce484222325
  mixed.toInt64

/-- The hash of a float: its value if it is an integer below `9.2e18`, else its bits. -/
def hashFloat (x : Binary64) : Int64 :=
  match x.toInt? with
  | some value => if value.natAbs < 9200000000000000000 then Int64.ofInt value else x.bits.toInt64
  | none => x.bits.toInt64

/-- The eight bytes of an address, least significant first. -/
def addressBytes (address : Nat) : List UInt8 :=
  (List.range 8).map fun i => UInt8.ofNat (address / Nat.pow 256 i)

/-- The hash of a tuple from the hashes of its items. -/
def combineHashes (hashes : List Int64) : Int64 :=
  hashes.foldl (fun done hash => (done * 1000003) ^^^ hash) 0x345678

namespace Heap

/-- The hash of a value; `depth` bounds how deep tuples are followed. -/
def hashAt (heap : Heap κ) : (depth : Nat) → Handle → Except Fault Int64
  | 0, _ => .error .released
  | depth + 1, h =>
    match heap.cell? h with
    | none => .error .released
    | some (.stub stub) =>
      match stub.hash with
      | some hash => .ok hash
      | none => .error .stubHash
    | some (.object object) =>
      match object.kind with
      | .none => .ok 0
      | .bool value => .ok (if value then 1 else 0)
      | .int value => .ok value
      | .float value => .ok (hashFloat value)
      | .string value => .ok (hashBytes value.toUTF8.data.toList)
      | .bytes data => .ok (hashBytes data)
      | .tuple items => do return combineHashes (← items.mapM (heap.hashAt depth))
      | .list items => .error (.unhashable (heap.typeName (.list items)))
      | .dict entries => .error (.unhashable (heap.typeName (.dict entries)))
      | _ => .ok (hashBytes (addressBytes h.address))

def hash (heap : Heap κ) (h : Handle) : Except Fault Int64 :=
  heap.hashAt (heap.cells.size + 1) h

end Heap
end Interop
