import Interop.Handle
import Interop.Json.Reader
/-!
Records in JSON: an object with known fields, or an array of their values in order. A field may be
missing and other keys are skipped, but a field may not be repeated, and an array may not be longer
than the record.
-/

set_option autoImplicit false

namespace Interop.Json

/-- The entries of an object from one of its keys on, and the text after its closing bracket; only
values of known keys are kept. -/
def readFieldsFrom (known : List String) :
    (fuel : Nat) → List Char → Option (List (String × Value) × List Char)
  | 0, _ => none
  | fuel + 1, text => do
    let (key, after) ← readKey {} text
    let limits : Limits := { keeps := known.contains key, depth := 126 }
    let (value, after) ← readPart limits after
    match skipSpace after with
    | '\x7d' :: rest => return ([(key, value)], rest)
    | ',' :: rest =>
      let (entries, rest) ← readFieldsFrom known fuel rest
      return ((key, value) :: entries, rest)
    | _ => none

/-- The entries of the object, or the values of the array, that a text holds; arrays give their
values the names of the fields. -/
def readFields (known : List String) (text : List Char) :
    Option (List (String × Value) × List Char) := do
  match skipSpace text with
  | '\x7b' :: rest =>
    match skipSpace rest with
    | '\x7d' :: rest => return ([], rest)
    | start => readFieldsFrom known (fuelFor start) start
  | '[' :: rest =>
    let (items, after) ← readItems { depth := 126 } (fuelFor rest) rest
    if items.length ≤ known.length then return (known.zip items, after) else none
  | _ => none

/-- The values of the known fields of the record that a whole text holds. -/
def readRecord (known : List String) (text : String) : Option (Entries Value) := do
  let (entries, rest) ← readFields known text.toList
  let fields := entries.filter fun entry => known.contains entry.1
  let keys := Entries.keys fields
  if (skipSpace rest).isEmpty && keys.length = keys.eraseDups.length then some fields
  else none

/-! ### Values of fields -/

/-- The value of a field, or a default if it is missing; a value of the wrong kind is refused. -/
def fieldOr {α : Type} (default : α) (decode : Value → Option α) (fields : Entries Value)
    (name : String) : Option α :=
  match fields.get? name with
  | some value => decode value
  | none => some default

def Value.string? : Value → Option String
  | .string value => some value
  | _ => none

def Value.bool? : Value → Option Bool
  | .bool value => some value
  | _ => none

def Value.word? : Value → Option Int64
  | .number (.int value) => Interop.word? value
  | _ => none

def Value.optionalString? : Value → Option (Option String)
  | .null => some none
  | .string value => some (some value)
  | _ => none

def Value.strings? : Value → Option (List String)
  | .array items => items.mapM Value.string?
  | _ => none

end Interop.Json
