import Interop.Proofs.Machine.Answers
/-!
Reading what was written. A write that was accepted has put its value in one of three places, and
reading the same name finds it there, although reading and writing look for a name in different
orders.
-/

set_option autoImplicit false

namespace Interop

variable {κ σ : Type}

/-- Whether a kind of object answers a name before its own attributes are looked at. -/
def Kind.AnswersFirst : Kind κ → String → Prop
  | .type _, "__name__" => True
  | .type _, "__module__" => True
  | .function .., "__name__" => True
  | .module _, "__name__" => True
  | .instanceOf _, "__class__" => True
  | _, _ => False

namespace Heap

/-- Where a write leaves its value under a name. -/
inductive Holds (heap : Heap κ) (h : Handle) (name : String) (stored : Handle) : Prop
  /-- At a position of a list. -/
  | position {object : HeapObject κ} {index : Int64} {items : List Handle} {place : Nat}
      (isPosition : position? name = some index) (found : heap.cell? h = some (.object object))
      (isList : object.kind = .list items)
      (resolved : resolveIndex? index items.length = some place)
      (item : items[place]? = some stored)
  /-- Among the attributes set on an object. -/
  | named {object : HeapObject κ} (noPosition : position? name = none)
      (found : heap.cell? h = some (.object object))
      (notFixed : object.kind.fixedAttribute? name = none)
      (set : object.attributes.get? name = some stored)
  /-- In an entry of a dict. -/
  | entry {object : HeapObject κ} {entries : OrderedMap Handle}
      (noPosition : position? name = none) (noAttribute : heap.hasAttr h name = false)
      (found : heap.cell? h = some (.object object)) (isDict : object.kind = .dict entries)
      (item : entries.get? name = some stored)

/-- A heap has taken an argument under a name: the argument's foreign value was made, and nothing
but the named value was changed to hold it. -/
structure Takes (heap : Heap κ) (h : Handle) (name : String) (value : Arg κ) (after : Heap κ)
    (stored : Handle) : Prop where
  marshalled : ∃ made, (marshal value).run heap = .ok (stored, made) ∧
    ∀ k, k ≠ h → after.cell? k = made.cell? k
  holds : after.Holds h name stored

/-- What a proxy does with the heap to write a member. -/
def storeMember (heap : Heap κ) (h : Handle) (name : String) (value : Arg κ) : Status × Heap κ :=
  match position? name with
  | some index => heap.setItem h (.int index) value
  | none =>
    if heap.hasAttr h name then heap.setAttr h name value
    else
      let (status, after) := heap.setItem h (.string name) value
      if status.isOk then (status, after) else after.setAttr h name value

theorem notFixed_of_acceptsAttributes {kind : Kind κ} {name : String}
    (accepts : kind.acceptsAttributes = true) (notFirst : ¬ kind.AnswersFirst name) :
    kind.fixedAttribute? name = none := by
  unfold Kind.fixedAttribute?
  split
  · exact absurd trivial notFirst
  · exact absurd trivial notFirst
  · exact absurd trivial notFirst
  · cases accepts
  · cases accepts
  · exact absurd trivial notFirst
  · cases accepts
  · cases accepts
  · exact absurd trivial notFirst
  · rfl

theorem lt_of_resolveIndex? {index : Int64} {length place : Nat}
    (resolved : resolveIndex? index length = some place) : place < length := by
  unfold resolveIndex? at resolved
  simp only [Option.ite_none_right_eq_some, Option.some.injEq] at resolved
  obtain ⟨⟨_, within⟩, rfl⟩ := resolved
  omega

/-! ### Writing -/

section Writing

variable {heap : Heap κ} {h : Handle} {object : HeapObject κ} {name : String} {value : Arg κ}

theorem setAttr_of_isOk (found : heap.cell? h = some (.object object))
    (accepted : (heap.setAttr h name value).1.isOk = true) :
    object.kind.acceptsAttributes = true ∧ ∃ stored mid,
      (marshal value).run heap = .ok (stored, mid) ∧
      (heap.setAttr h name value).2 = mid.write h
        (.object { object with attributes := object.attributes.insert name stored }) := by
  unfold setAttr at accepted ⊢
  rw [found] at accepted ⊢
  dsimp only at accepted ⊢
  cases accepts : object.kind.acceptsAttributes with
  | false =>
      rw [accepts] at accepted
      cases accepted
  | true =>
      rw [accepts] at accepted
      rw [if_pos rfl] at accepted ⊢
      cases marshalled : (marshal value).run heap with
      | error fault =>
          rw [marshalled] at accepted
          cases accepted
      | ok pair => exact ⟨rfl, pair.1, pair.2, rfl, rfl⟩

theorem setItem_of_isOk {key : Arg κ} (found : heap.cell? h = some (.object object))
    (accepted : (heap.setItem h key value).1.isOk = true) :
    ∃ stored mid kind, (marshal value).run heap = .ok (stored, mid) ∧
      object.kind.storing (heap.plainKey key) stored = some kind ∧
      (heap.setItem h key value).2 = mid.write h (.object { object with kind := kind }) := by
  unfold setItem at accepted ⊢
  rw [found] at accepted ⊢
  dsimp only at accepted ⊢
  cases marshalled : (marshal value).run heap with
  | error fault =>
      rw [marshalled] at accepted
      cases accepted
  | ok pair =>
      rw [marshalled] at accepted
      dsimp only at accepted ⊢
      cases stores : object.kind.storing (heap.plainKey key) pair.1 with
      | none =>
          rw [stores] at accepted
          cases accepted
      | some kind => exact ⟨pair.1, pair.2, kind, rfl, stores, rfl⟩

/-- An object that refuses an item stays as it is, and so does everything else. -/
theorem setItem_of_not_isOk {key : Arg κ} (found : heap.cell? h = some (.object object))
    (refused : (heap.setItem h key value).1.isOk = false) :
    (heap.setItem h key value).2 = heap := by
  unfold setItem at refused ⊢
  rw [found] at refused ⊢
  dsimp only at refused ⊢
  cases marshalled : (marshal value).run heap with
  | error fault => rfl
  | ok pair =>
      rw [marshalled] at refused
      dsimp only at refused ⊢
      cases stores : object.kind.storing (heap.plainKey key) pair.1 with
      | none => rfl
      | some kind =>
          rw [stores] at refused
          cases refused

theorem cell?_of_marshal {stored : Handle} {mid : Heap κ}
    (marshalled : (marshal value).run heap = .ok (stored, mid))
    (found : heap.cell? h = some (.object object)) : mid.cell? h = some (.object object) := by
  have kept : heap.Extends mid := moves_marshal value heap stored mid marshalled
  exact kept h _ found

/-- An attribute that was set is among the object's own, and is not hidden by a fixed one. -/
theorem takes_setAttr (noPosition : position? name = none)
    (found : heap.cell? h = some (.object object)) (notFirst : ¬ object.kind.AnswersFirst name)
    (accepted : (heap.setAttr h name value).1.isOk = true) :
    ∃ stored, heap.Takes h name value (heap.setAttr h name value).2 stored := by
  obtain ⟨accepts, stored, mid, marshalled, written⟩ := setAttr_of_isOk found accepted
  rw [written]
  refine ⟨stored, ⟨mid, marshalled, fun k other => cell?_write_of_ne other _⟩, ?_⟩
  refine .named noPosition (cell?_write_self (cell?_of_marshal marshalled found) _)
    (notFixed_of_acceptsAttributes accepts notFirst) ?_
  rw [OrderedMap.get?_insert, if_pos rfl]

theorem takes_setItem_int {index : Int64} (isPosition : position? name = some index)
    (found : heap.cell? h = some (.object object))
    (accepted : (heap.setItem h (.int index) value).1.isOk = true) :
    ∃ stored, heap.Takes h name value (heap.setItem h (.int index) value).2 stored := by
  obtain ⟨stored, mid, kind, marshalled, stores, written⟩ := setItem_of_isOk found accepted
  rw [written]
  refine ⟨stored, ⟨mid, marshalled, fun k other => cell?_write_of_ne other _⟩, ?_⟩
  cases sort : object.kind with
  | list items =>
      rw [sort] at stores
      obtain ⟨place, resolved, rfl⟩ := Option.map_eq_some_iff.mp stores
      have item : (items.set place stored)[place]? = some stored :=
        List.getElem?_set_self (lt_of_resolveIndex? resolved)
      have written := cell?_write_self (cell?_of_marshal marshalled found)
        (.object { object with kind := .list (items.set place stored) })
      refine .position isPosition written rfl ?_ item
      rw [List.length_set]
      exact resolved
  | _ =>
      rw [sort] at stores
      cases stores

theorem takes_setItem_string (noPosition : position? name = none)
    (noAttribute : heap.hasAttr h name = false) (found : heap.cell? h = some (.object object))
    (accepted : (heap.setItem h (.string name) value).1.isOk = true) :
    ∃ stored, heap.Takes h name value (heap.setItem h (.string name) value).2 stored := by
  obtain ⟨stored, mid, kind, marshalled, stores, written⟩ := setItem_of_isOk found accepted
  rw [written]
  refine ⟨stored, ⟨mid, marshalled, fun k other => cell?_write_of_ne other _⟩, ?_⟩
  cases sort : object.kind with
  | dict entries =>
      rw [sort] at stores
      cases stores
      have present := cell?_write_self (cell?_of_marshal marshalled found)
        (.object { object with kind := .dict (entries.insert name stored) })
      refine .entry noPosition ?_ present rfl ?_
      · -- a dict has the same attributes whatever its entries are
        rw [← Bool.not_eq_true, hasAttr_object present]
        rw [← Bool.not_eq_true, hasAttr_object found, sort] at noAttribute
        exact noAttribute
      · rw [OrderedMap.get?_insert, if_pos rfl]
  | _ =>
      rw [sort] at stores
      cases stores

/-- A write that is accepted leaves its value where a read of the name looks first. -/
theorem takes_storeMember (found : heap.cell? h = some (.object object))
    (notFirst : ¬ object.kind.AnswersFirst name)
    (accepted : (heap.storeMember h name value).1.isOk = true) :
    ∃ stored, heap.Takes h name value (heap.storeMember h name value).2 stored := by
  unfold storeMember at accepted ⊢
  cases isPosition : position? name with
  | some index =>
      rw [isPosition] at accepted
      exact takes_setItem_int isPosition found accepted
  | none =>
      rw [isPosition] at accepted
      dsimp only at accepted ⊢
      cases has : heap.hasAttr h name with
      | true =>
          rw [has, if_pos rfl] at accepted
          rw [if_pos rfl]
          exact takes_setAttr isPosition found notFirst accepted
      | false =>
          rw [has, if_neg Bool.false_ne_true] at accepted
          rw [if_neg Bool.false_ne_true]
          cases stored : (heap.setItem h (.string name) value).1.isOk with
          | true =>
              rw [stored, if_pos rfl] at accepted
              rw [if_pos rfl]
              exact takes_setItem_string isPosition has found stored
          | false =>
              rw [stored, if_neg Bool.false_ne_true] at accepted
              rw [if_neg Bool.false_ne_true]
              rw [setItem_of_not_isOk found stored] at accepted ⊢
              exact takes_setAttr isPosition found notFirst accepted

end Writing

end Heap

namespace Machine

variable (host : Host κ σ) (below : Handler κ σ)

theorem run_set (p : Proxy κ) (name : String) (value : Arg κ) (world : World κ σ) :
    (runProgram (layer host below) (p.set name value)).run world =
      some (.ok (world.heap.storeMember p.handle name value).1.isOk,
        { world with heap := (world.heap.storeMember p.handle name value).2 }) := by
  unfold Proxy.set Heap.storeMember
  cases position? name with
  | some index => rfl
  | none =>
      change (runProgram (layer host below)
        (if world.heap.hasAttr p.handle name = true then _ else _)).run world = _
      cases world.heap.hasAttr p.handle name with
      | true => rfl
      | false =>
          change (runProgram (layer host below)
            (if (world.heap.setItem p.handle (.string name) value).1.isOk = true then _ else _)).run
              { world with heap := (world.heap.setItem p.handle (.string name) value).2 } = _
          cases accepted : (world.heap.setItem p.handle (.string name) value).1.isOk with
          | true =>
              simp only [Bool.false_eq_true, if_false, accepted, if_true]
              rfl
          | false =>
              simp only [Bool.false_eq_true, if_false, accepted]
              rfl

/-- Reading a name gives the host's view of what is held there. -/
theorem run_get_of_holds {p : Proxy κ} {name : String} {world : World κ σ} {stored : Handle}
    (noMember : p.members.get? name = none) (noCapability : Capability.ofMemberName? name = none)
    (holds : world.heap.Holds p.handle name stored) :
    (runProgram (layer host below) (p.get name)).run world =
      (runProgram (layer host below) (some <$> Bridge.wrap stored)).run world := by
  unfold Proxy.get
  rw [noMember, noCapability]
  dsimp only
  cases holds with
  | position isPosition found isList resolved item =>
      rw [isPosition]
      dsimp only
      rw [run_bind_of_ok _ (run_getItem host below (Heap.item_position found isList resolved item)),
        bind_pure_comp]
  | named noPosition found notFixed set =>
      have read := Heap.attribute?_own found notFixed set
      have has : world.heap.hasAttr p.handle name = true := by
        unfold Heap.hasAttr
        rw [read]
        rfl
      rw [noPosition]
      dsimp only
      rw [run_bind_of_ok _ (run_hasAttr host below world p.handle name), has, if_pos rfl,
        run_bind_of_ok _ (run_getAttr host below read), bind_pure_comp]
  | entry noPosition noAttribute found isDict item =>
      rw [noPosition]
      dsimp only
      rw [run_bind_of_ok _ (run_hasAttr host below world p.handle name), noAttribute,
        if_neg Bool.false_ne_true]
      have read := run_getItem host below (Heap.item_entry found isDict item)
      rw [run_bind_of_ok _ (run_attempt _ read)]
      exact congrArg (fun f => (runProgram (layer host below) f).run world) (bind_pure_comp _ _)

end Machine

/-- What was written is read back: if a value accepts an argument under a name, reading the name
next gives the host's view of the very value that was stored, and a handle is stored as it is. -/
theorem Proxy.get_after_set {host : Host κ σ} {layers : Nat} {p : Proxy κ} {name : String}
    {value : Arg κ} {world after : World κ σ} {object : HeapObject κ}
    (isObject : world.heap.object? p.handle = some object)
    (noMember : p.members.get? name = none) (noCapability : Capability.ofMemberName? name = none)
    (notFirst : ¬ object.kind.AnswersFirst name)
    (accepted : (Machine.runProgram (Machine.answer host layers) (p.set name value)).run world =
      some (.ok true, after)) :
    ∃ stored, world.heap.Takes p.handle name value after.heap stored ∧
      (∀ h, value = .handle h → stored = h) ∧
      ∀ depth, (Machine.runProgram (Machine.answer host depth) (p.get name)).run after =
        (Machine.runProgram (Machine.answer host depth) (some <$> Bridge.wrap stored)).run
          after := by
  cases layers with
  | zero =>
      -- without layers no write gets an answer
      have stuck : (Machine.runProgram (Machine.answer host 0) (p.set name value)).run world =
          none := by
        unfold Proxy.set
        cases position? name with
        | some index => rfl
        | none => rfl
      rw [stuck] at accepted
      cases accepted
  | succ layers =>
      have written := Machine.run_set host (Machine.answer host layers) p name value world
      rw [show Machine.answer host (layers + 1) = Machine.layer host (Machine.answer host layers)
        from rfl, written] at accepted
      obtain ⟨isOk, rfl⟩ := Prod.mk.inj (Option.some.inj accepted)
      obtain ⟨stored, takes⟩ := Heap.takes_storeMember (Heap.cell?_of_object? isObject) notFirst
        (Except.ok.inj isOk)
      refine ⟨stored, takes, ?_, ?_⟩
      · rintro h rfl
        obtain ⟨made, marshalled, _⟩ := takes.marshalled
        cases marshalled
        rfl
      · intro depth
        cases depth with
        | zero =>
            unfold Proxy.get
            rw [noMember, noCapability]
            dsimp only
            cases position? name with
            | some index => rfl
            | none => rfl
        | succ depth =>
            exact Machine.run_get_of_holds host (Machine.answer host depth) noMember noCapability
              takes.holds

/-- A new binding of the global namespace, which takes the number it is given. -/
theorem Proxy.get_after_set_globals :
    let answer := Machine.answer Host.answeringNone 1
    let world : World Unit Unit := .start {} .standard ()
    let globals : Proxy Unit := .mk world.globals ⟨"builtins", "dict"⟩ []
    ∃ after stored,
      (Machine.runProgram answer (globals.set "count" (.int 5))).run world =
        some (.ok true, after) ∧
      world.heap.Takes globals.handle "count" (.int 5) after.heap stored ∧
      (Machine.runProgram answer (globals.get "count")).run after =
        (Machine.runProgram answer (some <$> Bridge.wrap stored)).run after := by
  intro answer world globals
  obtain ⟨after, accepted⟩ : ∃ after,
      (Machine.runProgram answer (globals.set "count" (.int 5))).run world =
        some (.ok true, after) := ⟨_, rfl⟩
  obtain ⟨stored, takes, _, read⟩ := Proxy.get_after_set
    (show world.heap.object? globals.handle = some ⟨.dict .empty, .empty⟩ from rfl) rfl
    (by decide) id accepted
  exact ⟨after, stored, accepted, takes, read 1⟩

end Interop
