import Interop.Heap.Basic
import Interop.Display
/-!
Texts of foreign values. The plain text is what a reader sees; the quoted one is how the value
stands inside a container, with quotes around strings.
-/

set_option autoImplicit false

namespace Interop

variable {κ : Type}

/-- A string in single quotes, with backslashes and single quotes escaped. -/
def singleQuoted (text : String) : String :=
  "'" ++ String.join (text.toList.map fun c =>
    if c = '\\' then "\\\\" else if c = '\'' then "\\'" else String.singleton c) ++ "'"

/-- A byte as it stands in the text of a byte string. -/
def byteText (byte : UInt8) : String :=
  if 0x20 ≤ byte.toNat ∧ byte.toNat < 0x7F then String.singleton (Char.ofNat byte.toNat)
  else "\\x" ++ Text.hexadecimalByte byte

def boundText : Option Int64 → String
  | none => "None"
  | some i => toString i.toInt

namespace Heap

/-- The only element of the tuple `args` of an exception instance. -/
def exceptionMessage? (heap : Heap κ) (object : HeapObject κ) : Option Handle :=
  match (object.attributes.get? "args").bind heap.kind? with
  | some (.tuple [message]) => some message
  | _ => none

/-- The text of a value, quoted or plain. Containers and exceptions show what they hold; `depth`
bounds how deep that goes. -/
def render (heap : Heap κ) : (depth : Nat) → (isQuoted : Bool) → Handle → String
  | 0, _, _ => "..."
  | depth + 1, isQuoted, h =>
    match heap.cell? h with
    | none => "<released>"
    | some (.stub stub) => stub.text.getD "<foreign>"
    | some (.object object) =>
      match object.kind with
      | .none => "None"
      | .bool value => if value then "True" else "False"
      | .int value => toString value.toInt
      | .float value => Decimal.exact value
      | .string value => if isQuoted then singleQuoted value else value
      | .bytes data => "b'" ++ String.join (data.map byteText) ++ "'"
      | .list items => "[" ++ Text.commaSeparated (items.map (heap.render depth true)) ++ "]"
      | .tuple [item] => "(" ++ heap.render depth true item ++ ",)"
      | .tuple items => "(" ++ Text.commaSeparated (items.map (heap.render depth true)) ++ ")"
      | .dict entries =>
        "\x7b" ++ Text.commaSeparated
          (entries.entries.map fun entry =>
            "'" ++ entry.1 ++ "': " ++ heap.render depth true entry.2) ++
          "\x7d"
      | .iterator _ => "<list_iterator object>"
      | .slice start stop step =>
        "slice(" ++ Text.commaSeparated [boundText start, boundText stop, boundText step] ++ ")"
      | .type info =>
        if info.module = "builtins" then "<class '" ++ info.name ++ "'>"
        else "<class '" ++ info.display ++ "'>"
      | .instanceOf cls =>
        match heap.exceptionMessage? object with
        | some message => heap.render depth false message
        | none =>
          match heap.kind? cls with
          | some (.type info) => "<" ++ info.display ++ " object>"
          | _ => "<object>"
      | .function name _ => "<function " ++ name ++ ">"
      | .boundMethod _ name _ => "<bound method " ++ name ++ ">"
      | .callback function => "<host function " ++ function.name ++ ">"
      | .hostMethod _ function => "<bound method " ++ function.name ++ ">"
      | .module name => "<module '" ++ name ++ "'>"

/-- A depth that no value reaches unless it contains itself. -/
def depthBound (heap : Heap κ) : Nat := heap.cells.size + 1

/-- The plain text of a value; a stub may have none. -/
def text (heap : Heap κ) (h : Handle) : Except Fault String :=
  match heap.cell? h with
  | none => .error .released
  | some (.stub stub) =>
    match stub.text with
    | some text => .ok text
    | none => .error .stubText
  | some (.object _) => .ok (heap.render heap.depthBound false h)

/-- The value as it is shown in a description. -/
def describe (heap : Heap κ) (h : Handle) : String :=
  match heap.cell? h with
  | none => "<released>"
  | some (.stub stub) => "Stub(" ++ stub.name ++ ")"
  | some (.object _) => "MemoryObject(" ++ heap.render heap.depthBound true h ++ ")"

end Heap
end Interop
