import Interop.Heap.Marshal
/-!
Attributes of foreign values. A name is looked for among the attributes that the kind of object
fixes, then among those set on the object, then on its class; an instance always has an initializer.
A function found on the class becomes a method of the instance.
-/

set_option autoImplicit false

namespace Interop

variable {κ : Type}

/-- What stands behind an attribute name. -/
inductive Attribute (κ : Type)
  /-- A text, made anew for every reading. -/
  | text (text : String)
  | object (handle : Handle)
  /-- A method, bound anew for every reading. -/
  | method (name : String) (code : NativeCode κ)

def Kind.fixedAttribute? : Kind κ → String → Option (Attribute κ)
  | .type info, "__module__" => some (.text info.module)
  | .type info, "__name__" => some (.text info.name)
  | .function name _, "__name__" => some (.text name)
  | .callback hostFunction, "__name__" => some (.text hostFunction.name)
  | .hostMethod _ hostFunction, "__name__" => some (.text hostFunction.name)
  | .module name, "__name__" => some (.text name)
  | .dict _, name => (ContainerMethod.ofDict? name).map fun m => .method name (.container m)
  | .list _, name => (ContainerMethod.ofList? name).map fun m => .method name (.container m)
  | .instanceOf cls, "__class__" => some (.object cls)
  | _, _ => Option.none

/-- Whether attributes of such an object can be set. -/
def Kind.acceptsAttributes : Kind κ → Bool
  | .instanceOf _ => true
  | .type _ => true
  | .module _ => true
  | .function .. => true
  | _ => false

namespace Heap

/-- The attributes that an object has from its class. -/
def inheritedAttribute? (heap : Heap κ) (kind : Kind κ) (name : String) : Option (Attribute κ) :=
  match kind with
  | .instanceOf cls =>
    match (heap.object? cls).bind (·.attributes.get? name) with
    | some value =>
      match heap.kind? value with
      | some (.function _ code) => some (.method name code)
      | _ => some (.object value)
    | none => if name = "__init__" then some (.method name .initializer) else none
  | _ => none

/-- What stands behind an attribute name of a value. -/
def attribute? (heap : Heap κ) (h : Handle) (name : String) : Option (Attribute κ) :=
  match heap.cell? h with
  | none => none
  | some (.stub stub) => (stub.attributes.get? name).map .object
  | some (.object object) =>
    object.kind.fixedAttribute? name
      <|> (object.attributes.get? name).map .object
      <|> heap.inheritedAttribute? object.kind name

def hasAttr (heap : Heap κ) (h : Handle) (name : String) : Bool := (heap.attribute? h name).isSome

def missingAttribute (heap : Heap κ) (h : Handle) (name : String) : Fault :=
  match heap.cell? h with
  | none => .released
  | some (.stub _) => .stubAttribute name
  | some (.object object) => .noAttribute (heap.typeName object.kind) name

def getAttr (h : Handle) (name : String) : Op κ Handle := do
  let heap ← get
  match heap.attribute? h name with
  | some (.text text) => Op.alloc (.string text)
  | some (.object value) => return value
  | some (.method name code) => Op.alloc (.boundMethod h name code)
  | none => throw (heap.missingAttribute h name)

/-- Sets an attribute and tells whether that was accepted; a refusal changes nothing. -/
def setAttr (heap : Heap κ) (h : Handle) (name : String) (value : Arg κ) : Status × Heap κ :=
  match heap.cell? h with
  | none => (.failure, heap)
  | some (.stub stub) => (stub.status, heap)
  | some (.object object) =>
    if object.kind.acceptsAttributes then
      match (marshal value).run heap with
      | .ok (stored, after) =>
        let attributes := object.attributes.insert name stored
        (.ok, after.write h (.object { object with attributes := attributes }))
      | .error _ => (.failure, heap)
    else (.failure, heap)

end Heap
end Interop
