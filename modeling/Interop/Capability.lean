/-!
Capabilities: the operations that every proxy carries under a reserved name, whatever the foreign
value behind it is.
-/

set_option autoImplicit false

namespace Interop

/-- One of the operations that every proxy carries. -/
inductive Capability
  /-- Answers the raw handle. -/
  | handle
  /-- Applies a host callable after wrapping raw arguments. -/
  | dispatch
  /-- Invokes the handle and leaves the result raw. -/
  | invoke
  | toStr
  /-- Reads a section by start, end and step. -/
  | slice
  | hash
  | hasAttr
  | getAttr
  | getItem
  | setAttr
  | setItem
  deriving DecidableEq

namespace Capability

def all : List Capability :=
  [handle, dispatch, invoke, toStr, slice, hash, hasAttr, getAttr, getItem, setAttr, setItem]

def name : Capability → String
  | handle => "handle"
  | dispatch => "dispatch"
  | invoke => "invoke"
  | toStr => "to_string"
  | slice => "slice"
  | hash => "hash"
  | hasAttr => "has_attr"
  | getAttr => "get_attr"
  | getItem => "get_item"
  | setAttr => "set_attr"
  | setItem => "set_item"

/-- The name under which a proxy offers the capability. -/
def memberName (c : Capability) : String := "$" ++ c.name

def ofMemberName? (member : String) : Option Capability := all.find? (·.memberName == member)

/-- The capability as it is shown in a description. -/
def describe : Capability → String
  | handle => "Handle"
  | dispatch => "Dispatch"
  | invoke => "Invoke"
  | toStr => "ToString"
  | slice => "Slice"
  | hash => "Hash"
  | hasAttr => "HasAttr"
  | getAttr => "GetAttr"
  | getItem => "GetItem"
  | setAttr => "SetAttr"
  | setItem => "SetItem"

theorem mem_all (c : Capability) : c ∈ all := by cases c <;> decide

theorem ofMemberName?_memberName (c : Capability) : ofMemberName? c.memberName = some c := by
  cases c <;> decide

end Capability
end Interop
