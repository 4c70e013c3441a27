import Interop.Proofs.Iteration.Shared
import Interop.Proofs.Proxy.Numerals
/-!
Looking up a name that is no number. The delegator's members, the capabilities, the attributes and
the keys of a dict are all that a proxy knows; every other name is absent. What is known is found,
and an error is reported only where the value that is found cannot be wrapped.
-/

set_option autoImplicit false

namespace Interop

variable {κ σ : Type}

/-! ### What can be known -/

/-- The names of the attributes that an object has by its kind. -/
def Kind.fixedNames : Kind κ → List String
  | .type _ => ["__module__", "__name__"]
  | .function .. | .callback _ | .hostMethod .. | .module _ => ["__name__"]
  | .dict _ => ["copy", "keys", "values", "items", "get"]
  | .list _ => ["append", "copy", "pop"]
  | .instanceOf _ => ["__class__"]
  | _ => []

theorem ContainerMethod.isSome_find? (methods : List ContainerMethod) (name : String) :
    (methods.find? (·.name == name)).isSome = true ↔ name ∈ methods.map ContainerMethod.name := by
  simp [List.find?_isSome, List.mem_map]

theorem Kind.isSome_fixedAttribute? (kind : Kind κ) (name : String) :
    (kind.fixedAttribute? name).isSome = true ↔ name ∈ kind.fixedNames := by
  cases kind with
  | dict entries =>
      change ((ContainerMethod.ofDict? name).map _).isSome = true ↔ _
      rw [Option.isSome_map]
      exact ContainerMethod.isSome_find? _ name
  | list items =>
      change ((ContainerMethod.ofList? name).map _).isSome = true ↔ _
      rw [Option.isSome_map]
      exact ContainerMethod.isSome_find? _ name
  | _ =>
      unfold fixedAttribute?
      split <;> simp_all [fixedNames]

theorem OrderedMap.isSome_get? (m : OrderedMap Handle) (key : String) :
    (m.get? key).isSome = true ↔ key ∈ m.keys :=
  Entries.isSome_get?

namespace Heap

/-- An object has an attribute by its kind, of its own, from its class, or as the initializer that
every instance has. -/
inductive HasNamed (heap : Heap κ) (object : HeapObject κ) (name : String) : Prop
  | fixed (among : name ∈ object.kind.fixedNames)
  | own (set : name ∈ object.attributes.keys)
  | ofClass {cls : Handle} {clsObject : HeapObject κ} (isInstance : object.kind = .instanceOf cls)
      (isClass : heap.object? cls = some clsObject) (set : name ∈ clsObject.attributes.keys)
  | initializer {cls : Handle} (isInstance : object.kind = .instanceOf cls)
      (isInitializer : name = "__init__")

theorem hasAttr_iff_hasNamed {heap : Heap κ} {h : Handle} {object : HeapObject κ}
    (found : heap.cell? h = some (.object object)) (name : String) :
    heap.hasAttr h name = true ↔ heap.HasNamed object name := by
  rw [hasAttr_object found, Kind.isSome_fixedAttribute?, OrderedMap.isSome_get?]
  constructor
  · rintro (among | set | inherited)
    · exact .fixed among
    · exact .own set
    · cases sort : object.kind with
      | instanceOf cls =>
          rw [sort, isSome_inheritedAttribute?] at inherited
          rcases inherited with set | isInitializer
          · cases isClass : heap.object? cls with
            | none =>
                rw [isClass] at set
                cases set
            | some clsObject =>
                rw [isClass] at set
                exact .ofClass sort isClass ((OrderedMap.isSome_get? _ _).mp set)
          · exact .initializer sort isInitializer
      | _ =>
          rw [sort] at inherited
          cases inherited
  · rintro (among | set | ⟨isInstance, isClass, set⟩ | ⟨isInstance, isInitializer⟩)
    · exact .inl among
    · exact .inr (.inl set)
    · refine .inr (.inr ?_)
      rw [isInstance, isSome_inheritedAttribute?, isClass]
      exact .inl ((OrderedMap.isSome_get? _ _).mpr set)
    · refine .inr (.inr ?_)
      rw [isInstance, isSome_inheritedAttribute?]
      exact .inr isInitializer

/-- The value that an object holds under a name: that of an attribute, or else that of a key. -/
def Finds (heap : Heap κ) (h : Handle) (name : String) (value : Handle) : Prop :=
  heap.attribute? h name = some (.object value) ∨
    heap.hasAttr h name = false ∧
      ∃ entries, heap.kind? h = some (.dict entries) ∧ entries.get? name = some value

theorem Finds.unique {heap : Heap κ} {h one other : Handle} {name : String}
    (finds : heap.Finds h name one) (again : heap.Finds h name other) : one = other := by
  have noAttribute {value : Handle} (isRead : heap.attribute? h name = some (.object value))
      (none : heap.hasAttr h name = false) : False := by
    rw [hasAttr, isRead] at none
    cases none
  rcases finds with isRead | ⟨none, entries, isDict, held⟩
  · rcases again with isRead' | ⟨none, _⟩
    · cases isRead.symm.trans isRead'
      rfl
    · exact (noAttribute isRead none).elim
  · rcases again with isRead | ⟨_, entries', isDict', held'⟩
    · exact (noAttribute isRead none).elim
    · cases isDict.symm.trans isDict'
      exact Option.some.inj (held.symm.trans held')

/-- Where there is no attribute, the value to be found is that of a key. -/
theorem finds_iff_held {heap : Heap κ} {h value : Handle} {object : HeapObject κ} {name : String}
    (found : heap.cell? h = some (.object object)) (noAttribute : heap.hasAttr h name = false) :
    heap.Finds h name value ↔ object.held? (.entry name) = some value := by
  have isKind := kind?_of_cell? found
  constructor
  · rintro (isRead | ⟨_, entries, isDict, held⟩)
    · rw [hasAttr, isRead] at noAttribute
      cases noAttribute
    · have sort : object.kind = .dict entries := Option.some.inj (isKind.symm.trans isDict)
      unfold HeapObject.held?
      rw [sort]
      exact held
  · intro held
    unfold HeapObject.held? at held
    cases sort : object.kind with
    | dict entries =>
        rw [sort] at held isKind
        exact .inr ⟨noAttribute, entries, isKind, held⟩
    | _ =>
        rw [sort] at held
        cases held

/-- An instance of a class that is named like a primitive type. -/
def IsMisnamed (heap : Heap κ) (h : Handle) : Prop :=
  ∃ cls info, heap.kind? h = some (.instanceOf cls) ∧ heap.kind? cls = some (.type info) ∧
    info.isPrimitive = true

theorem isMisnamed_iff {heap : Heap κ} {h : Handle} {kind : Kind κ}
    (found : heap.kind? h = some kind) (classed : heap.HasClass kind) :
    heap.IsMisnamed h ↔ heap.view? h kind = none := by
  rw [view?_eq_none_iff]
  constructor
  · rintro ⟨cls, info, isInstance, isType, isPrimitive⟩
    cases found.symm.trans isInstance
    rw [typeInfo_of_isType isType]
    exact ⟨isPrimitive, rfl⟩
  · rintro ⟨isPrimitive, isInstance⟩
    cases kind with
    | instanceOf cls =>
        obtain ⟨info, isType⟩ := classed cls rfl
        rw [typeInfo_of_isType isType] at isPrimitive
        exact ⟨cls, info, found, isType, isPrimitive⟩
    | _ => cases isInstance

end Heap

theorem position?_of_not_isNumeral {name : String} (noNumeral : ¬ IsNumeral name) :
    position? name = none := by
  unfold position?
  rw [if_neg]
  intro both
  obtain ⟨nonempty, digits⟩ := Bool.and_eq_true_iff.mp both
  exact noNumeral ⟨of_decide_eq_true nonempty, List.all_eq_true.mp digits⟩

namespace Proxy

open Machine (runProgram answer layer)

/-- What a proxy for an object has under a name. -/
inductive Knows (p : Proxy κ) (heap : Heap κ) (object : HeapObject κ) (name : String) : Prop
  | member (added : name ∈ p.members.keys)
  | capability (capability : Capability) (same : capability.memberName = name)
  | attribute (named : heap.HasNamed object name)
  | key {entries : OrderedMap Handle} (isDict : object.kind = .dict entries)
      (set : name ∈ entries.keys)

variable {host : Host κ σ} {world : World κ σ} {p : Proxy κ} {object : HeapObject κ} {name : String}

theorem knows_of_member {member : Member κ} (found : p.members.get? name = some member) :
    p.Knows world.heap object name :=
  .member (Entries.isSome_get?.mp (by rw [found]; rfl))

theorem knows_of_capability {capability : Capability}
    (found : Capability.ofMemberName? name = some capability) :
    p.Knows world.heap object name := by
  have first : Capability.all.find? (·.memberName == name) = some capability := found
  have same := List.find?_some first
  exact .capability capability (beq_iff_eq.mp same)

theorem knows_iff (noMember : p.members.get? name = none)
    (noCapability : Capability.ofMemberName? name = none)
    (found : world.heap.cell? p.handle = some (.object object)) :
    p.Knows world.heap object name ↔ world.heap.hasAttr p.handle name = true ∨
      (object.held? (.entry name)).isSome = true := by
  rw [Heap.hasAttr_iff_hasNamed found]
  constructor
  · rintro (added | ⟨capability, rfl⟩ | named | ⟨isDict, set⟩)
    · have present := Entries.isSome_get?.mpr added
      rw [noMember] at present
      cases present
    · rw [Capability.ofMemberName?_memberName] at noCapability
      cases noCapability
    · exact .inl named
    · refine .inr ?_
      unfold HeapObject.held?
      rw [isDict]
      exact (OrderedMap.isSome_get? _ _).mpr set
  · rintro (named | held)
    · exact .attribute named
    · unfold HeapObject.held? at held
      cases isDict : object.kind with
      | dict entries =>
          rw [isDict] at held
          exact .key isDict ((OrderedMap.isSome_get? _ _).mp held)
      | _ =>
          rw [isDict] at held
          cases held

/-! ### What is found -/

/-- A lookup has come to a value, which is the one to be found or a new one that is no instance. -/
structure Reaches (host : Host κ σ) (world : World κ σ) (h : Handle) (name : String)
    (value : Handle) (mid : World κ σ) : Prop where
  moves : world.Moves Heap.Extends mid
  reachable : mid.Reachable host
  isObject : (∀ found, world.heap.Finds h name found → (world.heap.kind? found).isSome = true) →
    (mid.heap.kind? value).isSome = true
  misnamed : mid.heap.IsMisnamed value ↔
    ∃ found, world.heap.Finds h name found ∧ world.heap.IsMisnamed found

variable {h : Handle}

theorem reaches_of_finds (reachable : world.Reachable host) {value : Handle}
    (finds : world.heap.Finds h name value) : Reaches host world h name value world where
  moves := .refl world
  reachable := reachable
  isObject objects := objects value finds
  misnamed := by
    constructor
    · exact fun misnamed => ⟨value, finds, misnamed⟩
    · rintro ⟨other, again, misnamed⟩
      exact finds.unique again ▸ misnamed

/-- An attribute that is no stored object is made anew for the reading. -/
theorem reaches_of_new (layers : Nat) (reachable : world.Reachable host) {kind : Kind κ}
    (noInstance : kind.isInstance = false) (nothing : ∀ value, ¬ world.heap.Finds h name value)
    (allocates : (Heap.getAttr h name).run world.heap = (Heap.Op.alloc kind).run world.heap) :
    ∃ value mid, (runProgram (answer host (layers + 1)) (h.getAttr name)).run world =
      some (.ok value, mid) ∧ Reaches host world h name value mid := by
  have isKind := Heap.kind?_fresh world.heap kind
  have answered : answer host (layers + 1) (.getAttr h name) world = _ :=
    Run.attempt_of_ok allocates
  refine ⟨world.heap.fresh, _, ?_, .ofHeap (.push _ _), reachable.answer answered, ?_, ?_⟩
  · rw [Machine.runProgram_getAttr]
    exact answered
  · intro _
    rw [isKind]
    rfl
  · refine iff_of_false ?_ ?_
    · rintro ⟨cls, _, isInstance, _⟩
      cases isKind.symm.trans isInstance
      cases noInstance
    · rintro ⟨value, finds, _⟩
      exact nothing value finds

theorem run_getAttr_reaches (layers : Nat) (reachable : world.Reachable host)
    (has : world.heap.hasAttr h name = true) :
    ∃ value mid, (runProgram (answer host (layers + 1)) (h.getAttr name)).run world =
      some (.ok value, mid) ∧ Reaches host world h name value mid := by
  obtain ⟨read, isRead⟩ := Option.isSome_iff_exists.mp has
  have nothing (noObject : ∀ value, read ≠ .object value) (value : Handle) :
      ¬ world.heap.Finds h name value := by
    rintro (isObject | ⟨none, _⟩)
    · exact noObject value (Option.some.inj (isRead.symm.trans isObject))
    · exact Bool.noConfusion (none.symm.trans has)
  cases read with
  | text text =>
      have allocates : (Heap.getAttr h name).run world.heap =
          (Heap.Op.alloc (.string text)).run world.heap := by
        unfold Heap.getAttr
        rw [Heap.Op.run_get_bind, isRead]
      exact reaches_of_new layers reachable rfl (nothing nofun) allocates
  | method own code =>
      have allocates : (Heap.getAttr h name).run world.heap =
          (Heap.Op.alloc (.boundMethod h own code)).run world.heap := by
        unfold Heap.getAttr
        rw [Heap.Op.run_get_bind, isRead]
      exact reaches_of_new layers reachable rfl (nothing nofun) allocates
  | object value =>
      have finds : world.heap.Finds h name value := .inl isRead
      exact ⟨value, world, Machine.run_getAttr host _ isRead, reaches_of_finds reachable finds⟩

namespace Reaches

variable {value : Handle} {mid : World κ σ} (reaches : Reaches host world h name value mid)
include reaches

/-- What is come to is never reported as nothing. -/
theorem run_wrap_eq_some (layers : Nat) (own : world.loader.Own)
    {result : Except Error (Option (Object κ))} {after : World κ σ}
    (finished : (runProgram (answer host layers) (some <$> Bridge.wrap value)).run mid =
      some (result, after)) : world.Moves Heap.Extends after ∧ result ≠ .ok none := by
  have own : mid.loader.Own := reaches.moves.loader ▸ own
  have extends_ := Machine.extends_wrap host layers mid own value
  rw [map_eq_pure_bind, Machine.runProgram_bind, Exec.run_bind_eq_some_iff] at finished
  obtain ⟨view, last, wrapped, gives⟩ | ⟨error, failed, rfl⟩ := finished
  · obtain ⟨rfl, rfl⟩ := Prod.mk.inj (Option.some.inj gives)
    exact ⟨reaches.moves.trans (extends_ _ _ wrapped), nofun⟩
  · exact ⟨reaches.moves.trans (extends_ _ _ failed), nofun⟩

/-- What is come to is wrapped, unless it is an instance of a misnamed class. -/
theorem run_wrap (layers : Nat) (standard : world.loader = .standard)
    (objects : ∀ found, world.heap.Finds h name found →
      (world.heap.kind? found).isSome = true) :
    ∃ result after, (runProgram (answer host (layers + 2)) (some <$> Bridge.wrap value)).run mid =
        some (result, after) ∧
      ((∃ error, result = .error error) ↔
        ∃ found, world.heap.Finds h name found ∧ world.heap.IsMisnamed found) := by
  obtain ⟨kind, isKind⟩ := Option.isSome_iff_exists.mp (reaches.isObject objects)
  obtain ⟨result, after, finished, fails, succeeds⟩ := Bridge.wrap_outcome layers
    reaches.reachable (reaches.moves.loader.trans standard) isKind
  rw [← reaches.misnamed, Heap.isMisnamed_iff isKind (reaches.reachable.sound.hasClass isKind),
    map_eq_pure_bind, Machine.runProgram_bind]
  cases result with
  | error error =>
      exact ⟨.error error, after, Exec.run_bind_of_error finished,
        iff_of_true ⟨error, rfl⟩ (fails error rfl)⟩
  | ok view =>
      refine ⟨.ok (some view), after, Exec.run_bind_of_ok finished, iff_of_false nofun ?_⟩
      rw [succeeds view rfl]
      nofun

end Reaches

/-- Members and capabilities are given without asking the runtime. -/
theorem get_of_own
    (own : ¬ (p.members.get? name = none ∧ Capability.ofMemberName? name = none)) :
    p.Knows world.heap object name ∧ ∃ view, (p.get name : Program κ σ _) = pure (some view) := by
  cases isMember : p.members.get? name with
  | some member =>
      refine ⟨knows_of_member isMember, ?_⟩
      unfold get
      rw [isMember]
      cases member with
      | value view => exact ⟨view, rfl⟩
      | method method => exact ⟨_, rfl⟩
  | none =>
      cases isCapability : Capability.ofMemberName? name with
      | none => exact absurd ⟨isMember, isCapability⟩ own
      | some capability =>
          refine ⟨knows_of_capability isCapability, .method (.capability p capability), ?_⟩
          unfold get
          rw [isMember, isCapability]

/-- Any other name is looked up in the object. What it comes to is wrapped, or there is nothing. -/
theorem run_get_of_object (layers : Nat) (reachable : world.Reachable host)
    (found : world.heap.cell? p.handle = some (.object object))
    (noMember : p.members.get? name = none) (noCapability : Capability.ofMemberName? name = none)
    (noNumeral : ¬ IsNumeral name) :
    let run := (runProgram (answer host (layers + 2)) (p.get name)).run world
    (p.Knows world.heap object name ∧ ∃ value mid, Reaches host world p.handle name value mid ∧
      run = (runProgram (answer host (layers + 2)) (some <$> Bridge.wrap value)).run mid) ∨
    (¬ p.Knows world.heap object name ∧ (∀ value, ¬ world.heap.Finds p.handle name value) ∧
      ∃ after, run = some (.ok none, after) ∧ world.Moves Heap.Extends after) := by
  intro run
  have looksUp : p.LooksUp host (answer host (layers + 1)) world object name :=
    looksUp_of_noPosition found noMember noCapability (position?_of_not_isNumeral noNumeral)
  have knows := knows_iff noMember noCapability found
  cases has : world.heap.hasAttr p.handle name with
  | true =>
      obtain ⟨value, mid, got, reaches⟩ := run_getAttr_reaches (layers + 1) reachable has
      have runs := (looksUp.named has).trans (Machine.run_bind_of_ok _ got)
      rw [bind_pure_comp] at runs
      exact .inl ⟨knows.mpr (.inl has), value, mid, reaches, runs⟩
  | false =>
      cases held : object.held? (.entry name) with
      | some item =>
          have finds := (Heap.finds_iff_held found has).mpr held
          exact .inl ⟨knows.mpr (.inr (by rw [held]; rfl)), item, world,
            reaches_of_finds reachable finds, looksUp.entry has item held⟩
      | none =>
          refine .inr ⟨?_, ?_, looksUp.absent has held⟩
          · rw [knows, has, held]
            nofun
          · intro value finds
            cases held.symm.trans ((Heap.finds_iff_held found has).mp finds)

/-- Looking up a name that is no number. Whenever the lookup finishes, it has only added cells, and
it has found nothing exactly if the proxy knows nothing under the name. It does finish where the
value to be found, if there is one, is an object of the runtime; and then it fails exactly if it
comes to that value, and it is an instance of a class that is named like a primitive type. -/
theorem get_total (layers : Nat) (reachable : world.Reachable host)
    (standard : world.loader = .standard) (isObject : world.heap.object? p.handle = some object)
    (noNumeral : ¬ IsNumeral name) :
    let run := (runProgram (answer host (layers + 2)) (p.get name)).run world
    (∀ result after, run = some (result, after) → world.Moves Heap.Extends after ∧
      (result = .ok none ↔ ¬ p.Knows world.heap object name)) ∧
    ((∀ value, world.heap.Finds p.handle name value → (world.heap.kind? value).isSome = true) →
      ∃ result after, run = some (result, after) ∧
        ((∃ error, result = .error error) ↔ p.members.get? name = none ∧
          Capability.ofMemberName? name = none ∧
          ∃ value, world.heap.Finds p.handle name value ∧ world.heap.IsMisnamed value)) := by
  intro run
  by_cases own : ¬ (p.members.get? name = none ∧ Capability.ofMemberName? name = none)
  · -- No value of the runtime is come to, so none can fail to be wrapped.
    obtain ⟨known, view, asked⟩ := get_of_own own
    have runs : run = some (.ok (some view), world) :=
      congrArg (fun program => (runProgram (answer host (layers + 2)) program).run world) asked
    constructor
    · intro result after finished
      cases runs.symm.trans finished
      exact ⟨.refl world, iff_of_false nofun (not_not.mpr known)⟩
    · intro _
      refine ⟨_, _, runs, iff_of_false nofun ?_⟩
      rintro ⟨noMember, noCapability, _⟩
      exact own ⟨noMember, noCapability⟩
  obtain ⟨noMember, noCapability⟩ := not_not.mp own
  obtain ⟨known, value, mid, reaches, runs⟩ | ⟨unknown, nothing, after, runs, moves⟩ :=
    run_get_of_object layers reachable (Heap.cell?_of_object? isObject) noMember noCapability
      noNumeral
  · constructor
    · intro result after finished
      have ownLoader : world.loader.Own := standard ▸ Registry.own_standard
      obtain ⟨moves, some⟩ :=
        reaches.run_wrap_eq_some (layers + 2) ownLoader (runs.symm.trans finished)
      exact ⟨moves, iff_of_false some (not_not.mpr known)⟩
    · intro objects
      obtain ⟨result, after, finished, fails⟩ := reaches.run_wrap layers standard objects
      exact ⟨result, after, runs.trans finished, by simp [fails, noMember, noCapability]⟩
  · constructor
    · intro result last finished
      cases runs.symm.trans finished
      exact ⟨moves, iff_of_true rfl unknown⟩
    · intro _
      refine ⟨_, _, runs, iff_of_false nofun ?_⟩
      rintro ⟨_, _, value, finds, _⟩
      exact nothing value finds

/-- A dict with an instance of a class of the host that is named `int`: under its key is an error,
and under another name nothing. -/
theorem get_total_misnamed :
    let start : World Unit Unit := .start {} .standard ()
    let world := { start with heap :=
      ((((start.heap.push (.object ⟨.type ⟨"host", "int"⟩, .empty⟩)).push
        (.object ⟨.instanceOf ⟨7⟩, .empty⟩)).push
        (.object ⟨.boundMethod ⟨8⟩ "__init__" .initializer, .empty⟩)).push
        (.object ⟨.none, .empty⟩)).push (.object ⟨.dict (.ofEntries [("x", ⟨8⟩)]), .empty⟩) }
    let p : Proxy Unit := .mk ⟨11⟩ ⟨"builtins", "dict"⟩ []
    let run (name : String) := (runProgram (answer Host.answeringNone 2) (p.get name)).run world
    (∃ error after, run "x" = some (.error error, after)) ∧
      ∃ after, run "y" = some (.ok none, after) := by
  intro start world p run
  have reachable : world.Reachable Host.answeringNone := by
    let classed := { start with
      heap := start.heap.push (.object ⟨.type ⟨"host", "int"⟩, .empty⟩) }
    let made := { start with heap := ((classed.heap.push (.object ⟨.instanceOf ⟨7⟩, .empty⟩)).push
      (.object ⟨.boundMethod ⟨8⟩ "__init__" .initializer, .empty⟩)).push (.object ⟨.none, .empty⟩) }
    have first : answer Host.answeringNone 1 (.create (.type ⟨"host", "int"⟩ [])) start =
        some (⟨7⟩, classed) := rfl
    have second : answer Host.answeringNone 2 (.invoke ⟨7⟩ []) classed =
        some (.ok ⟨8⟩, made) := rfl
    have third : answer Host.answeringNone 1 (.create (.dict [("x", ⟨8⟩)])) made =
        some (⟨11⟩, world) := rfl
    exact (((World.Reachable.start {} .standard ()).answer first).answer second).answer third
  let object : HeapObject Unit := ⟨.dict (.ofEntries [("x", ⟨8⟩)]), .empty⟩
  have isObject : world.heap.object? p.handle = some object := rfl
  have found : world.heap.cell? p.handle = some (.object object) := rfl
  have noNumeral (name : String) (other : ¬ name.toList.all Char.isDigit = true) :
      ¬ IsNumeral name := fun isNumeral => other (List.all_eq_true.mpr isNumeral.2)
  constructor
  · have finds : world.heap.Finds p.handle "x" ⟨8⟩ := .inr ⟨by decide, _, rfl, rfl⟩
    have misnamed : world.heap.IsMisnamed ⟨8⟩ := ⟨⟨7⟩, _, rfl, rfl, by decide⟩
    obtain ⟨result, after, finished, fails⟩ :=
      (get_total 0 reachable rfl isObject (noNumeral "x" (by decide))).2
        fun value again => finds.unique again ▸ rfl
    obtain ⟨error, rfl⟩ := fails.mpr ⟨rfl, by decide, _, finds, misnamed⟩
    exact ⟨error, after, finished⟩
  · have noAttribute : world.heap.hasAttr p.handle "y" = false := by decide
    obtain ⟨only, finishes⟩ := get_total 0 reachable rfl isObject (noNumeral "y" (by decide))
    obtain ⟨result, after, finished, _⟩ := finishes fun value finds =>
      nomatch (Heap.finds_iff_held found noAttribute).mp finds
    obtain rfl := (only result after finished).2.mpr fun knows => by
      have known := (knows_iff rfl (by decide) found).mp knows
      rw [noAttribute] at known
      exact known.elim nofun nofun
    exact ⟨after, finished⟩

end Proxy

end Interop
