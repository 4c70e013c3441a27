import Interop.Json.Record
import Interop.Json.Writer
import Interop.Object
import Interop.Settings
/-!
Values of the bridge in JSON: settings and type identities, and arguments made of JSON values.
-/

set_option autoImplicit false

namespace Interop

/-! ### Settings -/

/-- The settings that a JSON text gives; missing ones are the usual ones. -/
def Settings.ofJson? (text : String) : Option Settings := do
  let fields ← Json.readRecord ["interpolation_prefix", "dedent"] text
  let usual : Settings := {}
  return {
    interpolationPrefix :=
      ← Json.fieldOr usual.interpolationPrefix Json.Value.string? fields "interpolation_prefix"
    dedent := ← Json.fieldOr usual.dedent Json.Value.bool? fields "dedent" }

def Settings.toJson (settings : Settings) : Json.Value :=
  .object [("interpolation_prefix", .string settings.interpolationPrefix),
    ("dedent", .bool settings.dedent)]

/-! ### Type identities -/

/-- The type identity that a JSON text gives; both parts are needed. -/
def TypeInfo.ofJson? (text : String) : Option TypeInfo := do
  let fields ← Json.readRecord ["module", "name"] text
  return ⟨← (← fields.get? "module").string?, ← (← fields.get? "name").string?⟩

def TypeInfo.toJson (info : TypeInfo) : Json.Value :=
  .object [("module", .string info.module), ("name", .string info.name)]

/-! ### Arguments -/

variable {κ : Type}

mutual

def Arg.ofJson : Json.Value → Arg κ
  | .null => .none
  | .bool value => .bool value
  | .number (.int value) => .ofInt value
  | .number (.float value) => .float value
  | .string value => .string value
  | .array items => .list (Arg.ofJsonItems items)
  | .object entries => .dict (Arg.ofJsonEntries entries)

/-- The arguments that the items of an array become. -/
def Arg.ofJsonItems : List Json.Value → List (Arg κ)
  | [] => []
  | item :: rest => Arg.ofJson item :: Arg.ofJsonItems rest

def Arg.ofJsonEntries : List (String × Json.Value) → List (String × Arg κ)
  | [] => []
  | (key, value) :: rest => (key, Arg.ofJson value) :: Arg.ofJsonEntries rest

end

/-- The keyword arguments that a JSON object becomes; no other value will do. -/
def Arg.keywordsOfJson : Json.Value → Except TypeFault (Arg κ)
  | .object entries => .ok (.keywords (Arg.ofJsonEntries entries))
  | other => .error (.keywordsNotObject other.kindName)

def Arg.bytesOf (text : String) : Arg κ := .bytes text.toUTF8.data.toList

end Interop
