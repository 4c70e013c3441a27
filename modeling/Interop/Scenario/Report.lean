import Interop.Scenario.Behaviour
/-!
Reports: what a scenario tells about objects and errors, as JSON values. Integers that come from
values are told as decimal texts, and floats by their bits.
-/

set_option autoImplicit false

namespace Interop.Scenario

open Json (Value)

/-- The bits of a float as hexadecimal digits; every NaN is told alike. -/
def floatBits (x : Binary64) : String :=
  if x.isNaN then "nan"
  else
    let digits := Nat.toDigits 16 x.bits.toNat
    String.ofList (List.replicate (16 - digits.length) '0' ++ digits)

def optionalNumber : Option Nat → Value
  | some n => .int n
  | none => .null

def absent : Value := .object [("absent", .bool true)]

/-- The report of a JSON text that is refused. -/
def refusedReport : Value := .object [("error", .string "json")]

def finished : Value := .object [("done", .bool true)]

/-- The report of an object of a given kind. -/
def typed (kind : String) (fields : Entries Value) : Value :=
  .object (("type", .string kind) :: fields)

def reportObject : Object Code → HostProgram Value
  | .none => return typed "none" []
  | .bool value => return typed "bool" [("value", .bool value)]
  | .int value => return typed "int" [("value", .string (toString value.toInt))]
  | .big value => return typed "bigint" [("value", .string (toString value))]
  | .float value =>
    return typed "float"
      [("bits", .string (floatBits value)), ("text", .string (Decimal.Layout.text.write value))]
  | .string value => return typed "str" [("value", .string value)]
  | .proxy p => do
    let text ← p.display
    let callable ← p.handle.isCallable
    return typed "proxy"
      [("info", .string p.typeInfo.display), ("text", .string text),
        ("members", .array (p.members.keys.map .string)), ("callable", .bool callable)]
  | .method m => do
    let receiver ← m.receiver.display
    return typed "method"
      [("name", .string m.name), ("receiver", .string receiver),
        ("capability", Value.ofOptionalString (m.capability?.map (·.name)))]
  | .handle h => do
    let shown ← h.describe
    return typed "handle" [("debug", .string shown)]

/-- The text of a value that belongs to an exception. -/
def partText (h : Handle) : HostProgram String := do
  match ← h.text.attempt with
  | .ok text => return text
  | .error error => return error.message

def reportError : Error → HostProgram Value
  | .foreign exception => do
    let excType ← partText exception.excType
    let value ← partText exception.value
    return .object
      [("error", .string "foreign"), ("message", .string exception.message),
        ("exc_type", .string excType), ("exc_value", .string value),
        ("traceback", .bool exception.traceback.isSome)]
  | .type fault =>
    return .object
      [("error", .string "type"), ("message", .string (Error.type fault).message)]

def reportFailure : Failure → HostProgram Value
  | .request fault =>
    return .object [("error", .string "driver"), ("message", .string fault.message)]
  | .bridge error => reportError error

def reportResult : Except Error (Object Code) → HostProgram Value
  | .ok object => reportObject object
  | .error error => reportError error

def reportObjects : List (Object Code) → HostProgram (List Value)
  | [] => return []
  | object :: rest => do
    let report ← reportObject object
    let reports ← reportObjects rest
    return report :: reports

/-- The report of a text or the error instead of it. -/
def reportText : Except Error String → HostProgram Value
  | .ok text => return .string text
  | .error error => reportError error

/-- The report of everything that can be read off an object without calling it. -/
def reportInfo (object : Object Code) : HostProgram Value := do
  let callable ← object.isCallable
  let display ← object.display
  let description ← object.describe
  return .object
    [("is_none", .bool object.isNone), ("is_truthy", .bool object.isTruthy),
      ("as_int", Value.ofOptionalString (object.int?.map fun value => toString value.toInt)),
      ("as_str", Value.ofOptionalString object.string?), ("is_proxy", .bool object.proxy?.isSome),
      ("type_name", .string object.typeName), ("is_callable", .bool callable),
      ("display", .string display), ("debug", .string description)]

def reportTypeInfo (info : TypeInfo) : Value :=
  .object
    [("module", .string info.module), ("name", .string info.name),
      ("display", .string info.display), ("is_none_type", .bool info.isNone),
      ("is_primitive", .bool info.isPrimitive)]

/-- The report of what the runtime tells about an object of its own. -/
def reportInspection : Option Inspection → HostProgram Value
  | none => return .null
  | some inspection => do
    let length ←
      match inspection.length with
      | .ok n => pure (Value.int n)
      | .error error => reportError error
    return .object [("type_name", .string inspection.typeName), ("len", length)]

/-- The report of the primitive operations of a value. -/
def reportProbe (h : Handle) : HostProgram Value := do
  let text ← reportText (← h.text.attempt)
  let shown ← h.describe
  let callable ← h.isCallable
  let iterator ← h.isIterator
  let sequence ← h.isSequence
  let type ← (← h.typeOf).text
  let inspection ← Program.ask (.inspect h)
  let memory ← reportInspection inspection
  return .object
    [("str", text), ("debug", .string shown), ("callable", .bool callable),
      ("iterator", .bool iterator), ("sequence", .bool sequence), ("type", .string type),
      ("memory", memory)]

/-- A handle as it is shown, for each handle of an argument. -/
def shownHandles : List Handle → HostProgram (Handle → String)
  | [] => return fun _ => ""
  | h :: rest => do
    let shown ← h.describe
    let others ← shownHandles rest
    return fun other => if other = h then shown else others other

mutual

def handlesIn : Arg Code → List Handle
  | .handle h => [h]
  | .list items => handlesInAll items
  | .dict entries => handlesInEntries entries
  | .keywords entries => handlesInEntries entries
  | _ => []

def handlesInAll : List (Arg Code) → List Handle
  | [] => []
  | arg :: rest => handlesIn arg ++ handlesInAll rest

def handlesInEntries : List (String × Arg Code) → List Handle
  | [] => []
  | (_, arg) :: rest => handlesIn arg ++ handlesInEntries rest

end

def describeArg (arg : Arg Code) : HostProgram String := do
  let shown ← shownHandles (handlesIn arg)
  return arg.describeWith shown

/-- The description of arguments that were split into positional and keyword ones. -/
def reportSplit (positional : List (Arg Code)) (keywords : Entries (Arg Code)) :
    HostProgram Value := do
  let shown ← shownHandles (handlesInAll positional ++ handlesInEntries keywords)
  let items := Text.commaSeparated (Arg.describeItems shown positional)
  let entries := Text.commaSeparated (Arg.describeEntries shown keywords)
  return .object
    [("positional", .string ("[" ++ items ++ "]")),
      ("kwargs", .string ("\x7b" ++ entries ++ "\x7d"))]

def describeError : Error → HostProgram String
  | .type fault => return "Type(" ++ Text.quoted fault.message ++ ")"
  | .foreign exception => do
    let excType ← exception.excType.describe
    let value ← exception.value.describe
    let traceback ←
      match exception.traceback with
      | some h => do pure ("Some(" ++ (← h.describe) ++ ")")
      | none => pure "None"
    return "Foreign(ForeignException \x7b exc_type: " ++ excType ++ ", value: " ++ value ++
      ", traceback: " ++ traceback ++ ", message: " ++ Text.quoted exception.message ++ " \x7d)"

def reportErrorInfo (error : Error) : HostProgram Value := do
  let description ← describeError error
  return .object
    [("is_type_error", .bool error.isTypeError),
      ("foreign_message", Value.ofOptionalString (error.foreign?.map (·.message))),
      ("display", .string error.message), ("debug", .string description)]

/-- The report of a status that can be compared with the known ones. -/
def reportStatus (status : Status) : Value :=
  .object
    [("status", .int status.code), ("ok", .bool status.isOk),
      ("debug", .string status.describe), ("is_failure", .bool (status == .failure)),
      ("is_zero", .bool (status == .ok))]

/-- The report of the members that a delegator adds. -/
def reportMembers : Entries (Member Code) → HostProgram (List Value)
  | [] => return []
  | (name, member) :: rest => do
    let report ←
      match member with
      | .value object => do
        pure (Value.array [.string name, .string "value", ← reportObject object])
      | .method method =>
        pure (Value.array [.string name, .string "method", .string method.name])
    let reports ← reportMembers rest
    return report :: reports

def reportOutcome (outcome : ScopeOutcome (Object Code)) : HostProgram Value := do
  let (name, inner) ←
    match outcome with
    | .completed object => do pure ("completed", ← reportObject object)
    | .handled error => do pure ("handled", ← reportError error)
    | .unhandled error => do pure ("unhandled", ← reportError error)
  let result ←
    match outcome.toExcept with
    | .ok (some object) => reportObject object
    | .ok none => pure Value.null
    | .error error => reportError error
  return .object
    [("outcome", .string name), ("inner", inner),
      ("flags", .array
        [.bool outcome.isCompleted, .bool outcome.isHandled, .bool outcome.isUnhandled]),
      ("result", result)]

end Interop.Scenario
