import Interop.Proofs.Mapping.Writes
import Interop.Proofs.Mapping.Views
import Interop.Proofs.Proxy.ReadAfterWrite
import Mathlib.Logic.Function.Basic
/-!
Dicts refine maps that keep the order in which keys were first written. A ledger holds the writes
that each dict has taken, and whatever happens to dicts is recorded in it; what a dict shows then
follows from its own writes alone.
-/

set_option autoImplicit false

namespace Interop

open Machine (layer answer runProgram)

variable {κ σ : Type}

/-! ### Single writes -/

namespace Heap

variable {heap : Heap κ} {d : Handle} {entries : OrderedMap Handle}
  {attributes : OrderedMap Handle} {key value : Arg κ} {name : String} {stored : Handle}

theorem setItem_of_dict {made : Heap κ}
    (found : heap.cell? d = some (.object ⟨.dict entries, attributes⟩))
    (isKey : heap.plainKey key = .string name)
    (marshalled : (marshal value).run heap = .ok (stored, made)) :
    heap.setItem d key value =
      (.ok, made.write d (.object ⟨.dict (entries.insert name stored), attributes⟩)) := by
  unfold setItem
  rw [found]
  dsimp only
  rw [marshalled, isKey]
  rfl

theorem setItem_of_no_text (found : heap.kind? d = some (.dict entries))
    (noText : ∀ name, heap.plainKey key ≠ .string name) :
    heap.setItem d key value = (.failure, heap) := by
  obtain ⟨attributes, present⟩ := cell?_of_kind? found
  unfold setItem
  rw [present]
  dsimp only
  cases (marshal value).run heap with
  | error fault => rfl
  | ok pair =>
      cases isKey : heap.plainKey key with
      | string name => exact absurd isKey (noText name)
      | _ => rfl

theorem setAttr_of_dict (found : heap.kind? d = some (.dict entries)) :
    heap.setAttr d name value = (.failure, heap) := by
  obtain ⟨attributes, present⟩ := cell?_of_kind? found
  unfold setAttr
  rw [present]
  rfl

theorem storeMember_of_dict (found : heap.kind? d = some (.dict entries))
    (accepted : (heap.storeMember d name value).1.isOk = true) :
    heap.storeMember d name value = heap.setItem d (.string name) value := by
  unfold storeMember at accepted ⊢
  cases isPosition : position? name with
  | some index =>
      rw [isPosition] at accepted
      dsimp only at accepted
      have noText : ∀ name, heap.plainKey (.int index) ≠ .string name := by
        intro name isKey
        cases isKey
      rw [setItem_of_no_text found noText] at accepted
      cases accepted
  | none =>
      rw [isPosition] at accepted
      dsimp only at accepted ⊢
      rw [setAttr_of_dict found] at accepted
      cases has : heap.hasAttr d name with
      | true =>
          rw [has, if_pos rfl] at accepted
          cases accepted
      | false =>
          rw [has, if_neg Bool.false_ne_true] at accepted
          rw [if_neg Bool.false_ne_true]
          cases isOk : (heap.setItem d (.string name) value).1.isOk with
          | true => rw [if_pos rfl]
          | false =>
              obtain ⟨attributes, present⟩ := cell?_of_kind? found
              rw [isOk, if_neg Bool.false_ne_true, setItem_of_not_isOk present isOk,
                setAttr_of_dict found] at accepted
              cases accepted

/-- A dict takes a value that can be made under just the keys that are texts. -/
theorem setItem_isOk_iff_text (found : heap.kind? d = some (.dict entries))
    (made : heap.made? value = some stored) :
    (heap.setItem d key value).1.isOk = true ↔ ∃ name, heap.plainKey key = .string name := by
  obtain ⟨attributes, present⟩ := cell?_of_kind? found
  obtain ⟨after, marshalled⟩ := made?_eq_some_iff.mp made
  constructor
  · intro accepted
    by_contra noText
    rw [setItem_of_no_text found (not_exists.mp noText)] at accepted
    cases accepted
  · rintro ⟨name, isKey⟩
    rw [setItem_of_dict present isKey marshalled]
    rfl

/-- A dict has been given a value under a name, and nothing else that was there has changed. -/
structure Stores (heap : Heap κ) (d : Handle) (entries : OrderedMap Handle) (name : String)
    (stored : Handle) (after : Heap κ) : Prop where
  evolves : heap.Evolves after
  holds : after.kind? d = some (.dict (entries.insert name stored))
  others : ∀ h kind, h ≠ d → heap.kind? h = some kind → after.kind? h = some kind

theorem stores_setItem (found : heap.kind? d = some (.dict entries))
    (isKey : heap.plainKey key = .string name) (made : heap.made? value = some stored) :
    heap.Stores d entries name stored (heap.setItem d key value).2 := by
  have evolves : heap.Evolves (heap.setItem d key value).2 := evolves_setItem heap d key value
  obtain ⟨attributes, present⟩ := cell?_of_kind? found
  obtain ⟨after, marshalled⟩ := made?_eq_some_iff.mp made
  rw [setItem_of_dict present isKey marshalled] at evolves ⊢
  refine ⟨evolves, ?_, ?_⟩
  · exact kind?_of_cell? (cell?_write_self (cell?_of_marshal marshalled present) _)
  · intro h kind different isKind
    obtain ⟨own, isPresent⟩ := cell?_of_kind? isKind
    have kept := cell?_of_marshal marshalled isPresent
    exact kind?_of_cell? ((cell?_write_of_ne different _).trans kept)

end Heap

/-! ### Writes and histories -/

/-- The ways in which a dict comes to be built of entries. -/
inductive Builds (host : Host κ σ) (world : World κ σ) (d : Handle) (entries : Entries Handle) :
    World κ σ → Prop
  | create {layers : Nat} {after : World κ σ}
      (created : answer host (layers + 1) (.create (.dict entries)) world = some (d, after)) :
      Builds host world d entries after
  /-- The host marshals a mapping, and the world is the one after its parts were. -/
  | marshal {layers : Nat} {args : Entries (Arg κ)} {origin after : World κ σ}
      (parts : Run.attempt (Heap.marshalEntries args) origin = some (.ok entries, world))
      (marshalled : answer host (layers + 1) (.marshal (.dict args)) origin = some (.ok d, after)) :
      Builds host world d entries after
  /-- A source writes a dict down, and the world is the one after its parts were evaluated. -/
  | literal {scope : Script.Scope κ σ} {exprs : Entries Script.Expr} {origin after : World κ σ}
      (parts : (scope.evalEntries exprs).run origin = some (.ok entries, world))
      (evaluated : (scope.eval (.dict exprs)).run origin = some (.ok d, after)) :
      Builds host world d entries after

/-- The ways in which a dict accepts a value under a text. -/
inductive Writes (host : Host κ σ) (world : World κ σ) (d : Handle) (name : String)
    (stored : Handle) : World κ σ → Prop
  | item {layers : Nat} {key value : Arg κ} {status : Status} {after : World κ σ}
      (isKey : world.heap.plainKey key = .string name) (made : world.heap.made? value = some stored)
      (answered : answer host (layers + 1) (.setItem d key value) world = some (status, after))
      (accepted : status.isOk = true) : Writes host world d name stored after
  | member {layers : Nat} {p : Proxy κ} {value : Arg κ} {after : World κ σ}
      (isProxy : p.handle = d) (made : world.heap.made? value = some stored)
      (accepted : (runProgram (answer host (layers + 1)) (p.set name value)).run world =
        some (.ok true, after)) : Writes host world d name stored after
  | capability {layers : Nat} {p : Proxy κ} {key value : Object κ} {code : Int64}
      {after : World κ σ} (isProxy : p.handle = d)
      (isKey : world.heap.plainKey key.toArg = .string name)
      (made : world.heap.made? value.toArg = some stored)
      (called : (runProgram (answer host (layers + 1))
        ((Object.method (.capability p .setItem)).call [key, value])).run world =
          some (.ok (.int code), after))
      (accepted : code ≠ -1) : Writes host world d name stored after
  /-- A source assigns to a name where the dict holds the names, and the world is the one after the
  value was evaluated. -/
  | assigned {scope : Script.Scope κ σ} {expr : Script.Expr} {origin after : World κ σ}
      (isLocal : scope.locals = d)
      (value : (scope.eval expr).run origin = some (.ok stored, world))
      (assigned : (scope.step (.assign (.name name) expr)).run origin = some (.ok none, after)) :
      Writes host world d name stored after
  /-- A source assigns to an item, and the world is the one after all parts were evaluated. -/
  | assignedItem {scope : Script.Scope κ σ} {expr target key : Script.Expr} {k : Handle}
      {origin valued targeted after : World κ σ}
      (value : (scope.eval expr).run origin = some (.ok stored, valued))
      (object : (scope.eval target).run valued = some (.ok d, targeted))
      (isKey : (scope.eval key).run targeted = some (.ok k, world))
      (isText : world.heap.HoldsText k name)
      (assigned : (scope.step (.assign (.item target key) expr)).run origin =
        some (.ok none, after)) : Writes host world d name stored after

/-- For each dict, the writes that it has taken, with those that it was built of. -/
abbrev Ledger := Handle → Option (Entries Handle)

def Ledger.set (ledger : Ledger) (d : Handle) (writes : Entries Handle) : Ledger :=
  Function.update ledger d (some writes)

/-- A ledger records what has happened to dicts. A copy has the same writes as its source, and from
then on its own. In between anything may happen that leaves the dicts of the ledger as they are. -/
inductive Recorded (host : Host κ σ) (origin : World κ σ) : Ledger → World κ σ → Prop
  | nil : Recorded host origin (fun _ => none) origin
  | build {ledger : Ledger} {world after : World κ σ} {d : Handle} {entries : Entries Handle}
      (earlier : Recorded host origin ledger world) (builds : Builds host world d entries after) :
      Recorded host origin (ledger.set d entries) after
  | write {ledger : Ledger} {world after : World κ σ} {d stored : Handle} {name : String}
      {writes : Entries Handle} (earlier : Recorded host origin ledger world)
      (known : ledger d = some writes) (written : Writes host world d name stored after) :
      Recorded host origin (ledger.set d (writes ++ [(name, stored)])) after
  | copy {ledger : Ledger} {world after : World κ σ} {d copied : Handle} {layers : Nat}
      {writes : Entries Handle} (earlier : Recorded host origin ledger world)
      (known : ledger d = some writes)
      (called : (runProgram (answer host (layers + 1)) (d.callMethod "copy" [])).run world =
        some (.ok copied, after)) : Recorded host origin (ledger.set copied writes) after
  | other {ledger : Ledger} {world after : World κ σ} (earlier : Recorded host origin ledger world)
      (evolves : world.heap.Evolves after.heap) (builtins : after.builtins = world.builtins)
      (kept : ∀ d writes, ledger d = some writes → after.heap.kind? d = world.heap.kind? d) :
      Recorded host origin ledger after

variable {host : Host κ σ} {world after origin : World κ σ} {d stored : Handle} {name : String}
  {entries : OrderedMap Handle} {writes : Entries Handle}

theorem Builds.eq (builds : Builds host world d writes after) :
    d = world.heap.fresh ∧ after = { world with
      heap := world.heap.push (.object ⟨.dict (.ofEntries writes), .empty⟩) } := by
  cases builds with
  | create created =>
      cases created
      exact ⟨rfl, rfl⟩
  | @marshal layers args origin after parts marshalled =>
      rcases Run.attempt_eq_some parts with ⟨made, heap, success, same, rfl⟩ | ⟨fault, _, same, _⟩
      · cases same
        have all : (Heap.marshal (.dict args)).run origin.heap = .ok (heap.fresh,
            heap.push (.object ⟨.dict (.ofEntries writes), .empty⟩)) := by
          rw [Heap.marshal]
          exact Heap.Op.bind_eq_ok_iff.mpr ⟨writes, heap, success, rfl⟩
        cases marshalled.symm.trans (Run.attempt_of_ok all)
        exact ⟨rfl, rfl⟩
      · cases same
  | @literal scope exprs origin after parts evaluated =>
      rw [Script.Scope.eval, Exec.run_bind_of_ok parts] at evaluated
      cases evaluated
      exact ⟨rfl, rfl⟩

namespace Machine

/-- The capability tells the status of a write as a number. -/
theorem run_call_setItem (host : Host κ σ) (below : Handler κ σ) (p : Proxy κ)
    (key value : Object κ) (world : World κ σ) :
    (runProgram (layer host below)
      ((Object.method (.capability p .setItem)).call [key, value])).run world =
      some (.ok (.int (Int64.ofInt
          (world.heap.setItem p.handle key.toArg value.toArg).1.code)),
        { world with heap := (world.heap.setItem p.handle key.toArg value.toArg).2 }) := by
  rw [Object.call.eq_def]
  rfl

end Machine

namespace Script

theorem run_assign_name (scope : Scope κ σ) (name : String) (stored : Handle) (world : World κ σ) :
    (scope.assign (.name name) stored).run world =
      (accepted name (world.heap.setItem scope.locals (.string name) (.handle stored)).1).run
        { world with
          heap := (world.heap.setItem scope.locals (.string name) (.handle stored)).2 } := rfl

theorem run_assign_item {scope : Scope κ σ} {target key : Expr} {object k : Handle}
    {world targeted mid : World κ σ}
    (isObject : (scope.eval target).run world = some (.ok object, targeted))
    (isKey : (scope.eval key).run targeted = some (.ok k, mid)) (stored : Handle) :
    (scope.assign (.item target key) stored).run world =
      (accepted "item" (mid.heap.setItem object (.handle k) (.handle stored)).1).run
        { mid with heap := (mid.heap.setItem object (.handle k) (.handle stored)).2 } := by
  unfold Scope.assign
  dsimp only
  rw [Exec.run_bind_of_ok isObject, Exec.run_bind_of_ok isKey]
  rfl

theorem run_step_assign {scope : Scope κ σ} {target expr : Expr} {value : Handle}
    {world mid : World κ σ} (evaluated : (scope.eval expr).run world = some (.ok value, mid)) :
    (scope.step (.assign target expr)).run world =
      (scope.assign target value >>= fun _ => pure none).run mid := by
  unfold Scope.step
  dsimp only
  rw [Exec.run_bind_of_ok evaluated]

theorem run_accepted {status : Status} (isOk : status.isOk = true) (target : String)
    (world : World κ σ) : (accepted target status).run world = some (.ok (), world) := by
  unfold accepted
  rw [if_pos isOk]
  rfl

theorem run_refused {status : Status} (refused : status.isOk = false) (target : String)
    (world : World κ σ) :
    (accepted target status).run world = some (.error (world.heap.raise (.assignment target)).1,
      { world with heap := (world.heap.raise (.assignment target)).2 }) := by
  unfold accepted
  rw [refused, if_neg Bool.false_ne_true]
  rfl

end Script

/-- Every way of writing stores the value in the dict. -/
theorem Writes.stores (written : Writes host world d name stored after)
    (found : world.heap.kind? d = some (.dict entries)) :
    ∃ heap, after = { world with heap := heap } ∧
      world.heap.Stores d entries name stored heap := by
  cases written with
  | item isKey made answered accepted =>
      cases answered
      exact ⟨_, rfl, Heap.stores_setItem found isKey made⟩
  | @member layers p value after isProxy made accepted =>
      subst isProxy
      obtain ⟨isOk, rfl⟩ := Prod.mk.inj (Option.some.inj
        ((Machine.run_set host (answer host layers) p name value world).symm.trans accepted))
      rw [Heap.storeMember_of_dict found (Except.ok.inj isOk)]
      exact ⟨_, rfl, Heap.stores_setItem found rfl made⟩
  | @capability layers p key value code after isProxy isKey made called accepted =>
      subst isProxy
      cases (Machine.run_call_setItem host (answer host layers) p key value world).symm.trans called
      exact ⟨_, rfl, Heap.stores_setItem found isKey made⟩
  | @assigned scope expr origin after isLocal value assigned =>
      subst isLocal
      have made : world.heap.made? (.handle stored) = some stored := rfl
      have isOk : (world.heap.setItem scope.locals (.string name) (.handle stored)).1.isOk = true :=
        (Heap.setItem_isOk_iff_text found made).mpr ⟨name, rfl⟩
      have done := Script.run_assign_name scope name stored world
      rw [Script.run_accepted isOk] at done
      rw [Script.run_step_assign value, Exec.run_bind_of_ok done] at assigned
      cases assigned
      exact ⟨_, rfl, Heap.stores_setItem found rfl made⟩
  | @assignedItem scope expr target key k origin valued targeted after value object isKey isText
      assigned =>
      have made : world.heap.made? (.handle stored) = some stored := rfl
      have plain := Heap.plainKey_handle_iff.mpr isText
      have isOk := (Heap.setItem_isOk_iff_text found made).mpr ⟨name, plain⟩
      have done := Script.run_assign_item object isKey stored
      rw [Script.run_accepted isOk] at done
      rw [Script.run_step_assign value, Exec.run_bind_of_ok done] at assigned
      cases assigned
      exact ⟨_, rfl, Heap.stores_setItem found plain made⟩

/-! ### What the ledger tells -/

/-- Whether every dict of the ledger is the map that its writes make. -/
def Ledger.Tells (ledger : Ledger) (heap : Heap κ) : Prop :=
  ∀ d writes, ledger d = some writes → heap.kind? d = some (.dict (.ofEntries writes))

theorem Ledger.Tells.set {ledger : Ledger} {heap later : Heap κ} (tells : ledger.Tells heap)
    (holds : later.kind? d = some (.dict (.ofEntries writes)))
    (others : ∀ h kind, h ≠ d → heap.kind? h = some kind → later.kind? h = some kind) :
    (ledger.set d writes).Tells later := by
  intro h own known
  by_cases same : h = d
  · subst same
    rw [Ledger.set, Function.update_self] at known
    cases known
    exact holds
  · rw [Ledger.set, Function.update_of_ne same] at known
    exact others h _ same (tells h own known)

theorem run_copy {layers : Nat} {copied : Handle}
    (found : world.heap.kind? d = some (.dict entries))
    (called : (runProgram (answer host (layers + 1)) (d.callMethod "copy" [])).run world =
      some (.ok copied, after)) :
    after.heap.kind? copied = some (.dict entries) ∧ world.Moves Heap.Extends after := by
  obtain ⟨attributes, present⟩ := Heap.cell?_of_kind? found
  have made := Heap.callContainer_dictCopy (Heap.extends_withMethod _ d .copy _ _ present)
  have run := Machine.run_callMethod_nil host (answer host layers)
    (Heap.hasMethod_of_dict found .copy rfl)
  cases called.symm.trans (run.trans (Run.attempt_of_ok made))
  exact ⟨Heap.kind?_fresh _ _, .ofHeap ((Heap.extends_withMethod _ _ .copy).trans (.push _ _))⟩

/-- Whatever is recorded, the ledger tells of the dicts, and the heap has evolved. -/
theorem Recorded.tells {ledger : Ledger} (recorded : Recorded host origin ledger world) :
    ledger.Tells world.heap ∧ origin.heap.Evolves world.heap ∧
      world.builtins = origin.builtins := by
  induction recorded with
  | nil => exact ⟨nofun, .refl, rfl⟩
  | build _ builds ih =>
      obtain ⟨tells, evolves, builtins⟩ := ih
      obtain ⟨rfl, rfl⟩ := builds.eq
      refine ⟨tells.set (Heap.kind?_fresh _ _) ?_, ?_, builtins⟩
      · intro h kind _ found
        exact Heap.kind?_push found _
      · exact evolves.tail (.push trivial)
  | write _ known written ih =>
      obtain ⟨tells, evolves, builtins⟩ := ih
      obtain ⟨heap, rfl, stores⟩ := written.stores (tells _ _ known)
      refine ⟨tells.set ?_ stores.others, evolves.trans stores.evolves, builtins⟩
      rw [OrderedMap.ofEntries_concat]
      exact stores.holds
  | @copy ledger world after d copied layers writes _ known called ih =>
      obtain ⟨tells, evolves, builtins⟩ := ih
      obtain ⟨copied, moves⟩ := run_copy (tells _ _ known) called
      refine ⟨tells.set copied ?_, ?_, moves.builtins.trans builtins⟩
      · intro h kind _ found
        exact moves.heap.kind? found
      · have moved : World.Moves Heap.Evolves world after :=
          Machine.evolves_runProgram (Machine.evolves_answer host _) _ _ _ _ called
        exact evolves.trans moved.heap
  | other _ more same kept ih =>
      obtain ⟨tells, evolves, builtins⟩ := ih
      refine ⟨?_, evolves.trans more, same.trans builtins⟩
      intro d writes known
      rw [kept d writes known]
      exact tells d writes known

/-! ### Keys that are no texts -/

/-- Whichever way a write is made, under a key that is no text it fails and changes nothing; a
source that makes one is left with an error. -/
structure World.RefusesOtherKeys (host : Host κ σ) (world : World κ σ) (d : Handle) : Prop where
  item : ∀ (layers : Nat) (key value : Arg κ), (∀ name, world.heap.plainKey key ≠ .string name) →
    answer host (layers + 1) (.setItem d key value) world = some (.failure, world)
  /-- A name that counts as a position is no text. -/
  member : ∀ (layers : Nat) (p : Proxy κ) (name : String) (value : Arg κ), p.handle = d →
    (position? name).isSome = true →
      (runProgram (answer host (layers + 1)) (p.set name value)).run world =
        some (.ok false, world)
  capability : ∀ (layers : Nat) (p : Proxy κ) (key value : Object κ), p.handle = d →
    (∀ name, world.heap.plainKey key.toArg ≠ .string name) →
      (runProgram (answer host (layers + 1))
        ((Object.method (.capability p .setItem)).call [key, value])).run world =
          some (.ok (.int (-1)), world)
  assignedItem : ∀ (scope : Script.Scope κ σ) (expr target key : Script.Expr)
    (stored k : Handle) (origin valued targeted : World κ σ),
    (scope.eval expr).run origin = some (.ok stored, valued) →
    (scope.eval target).run valued = some (.ok d, targeted) →
    (scope.eval key).run targeted = some (.ok k, world) →
    (∀ name, ¬ world.heap.HoldsText k name) →
      ∃ error after,
        (scope.step (.assign (.item target key) expr)).run origin = some (.error error, after) ∧
          world.Moves Heap.Extends after

theorem refusesOtherKeys_of_dict (host : Host κ σ)
    (found : world.heap.kind? d = some (.dict entries)) : world.RefusesOtherKeys host d where
  item := by
    intro layers key value noText
    have refused : world.heap.setItem d key value = (.failure, world.heap) :=
      Heap.setItem_of_no_text found noText
    change Run.onHeap (·.setItem d key value) world = _
    unfold Run.onHeap
    dsimp only
    rw [refused]
  member := by
    intro layers p name value isProxy isPosition
    subst isProxy
    obtain ⟨index, isIndex⟩ := Option.isSome_iff_exists.mp isPosition
    have noText : ∀ name, world.heap.plainKey (.int index) ≠ .string name := by
      intro name isKey
      cases isKey
    have refused : world.heap.storeMember p.handle name value = (.failure, world.heap) := by
      unfold Heap.storeMember
      rw [isIndex]
      exact Heap.setItem_of_no_text found noText
    have run := Machine.run_set host (answer host layers) p name value world
    rw [refused] at run
    exact run
  capability := by
    intro layers p key value isProxy noText
    subst isProxy
    have run := Machine.run_call_setItem host (answer host layers) p key value world
    rw [Heap.setItem_of_no_text found noText] at run
    exact run
  assignedItem := by
    intro scope expr target key stored k origin valued targeted value object isKey noText
    have refused : world.heap.setItem d (.handle k) (.handle stored) = (.failure, world.heap) :=
      Heap.setItem_of_no_text found fun name isKey =>
        noText name (Heap.plainKey_handle_iff.mp isKey)
    have failed := Script.run_assign_item object isKey stored
    rw [refused, Script.run_refused rfl] at failed
    rw [Script.run_step_assign value, Exec.run_bind_of_error failed]
    exact ⟨_, _, rfl, .ofHeap (Heap.extends_raise _ _)⟩

/-! ### Refinement -/

/-- Dicts refine maps. Take a dict of the ledger of any history, and the writes that it has taken.
It shows each key once, in the order of the first writes, with the value of the last one, and all
ways of looking at it show the same. A foreign text is as good a key as one of the host. What other
dicts take, copies of it or those that it was copied from, does not change it. It takes values that
can be made under texts, and refuses all other keys. -/
theorem dicts_refine_maps {ledger : Ledger} (reachable : origin.Reachable host)
    (recorded : Recorded host origin ledger world) (known : ledger d = some writes) :
    (Entries.firstKeys writes).Nodup ∧
    (∃ stored, stored.map some = (Entries.firstKeys writes).map (Entries.lastValue? writes) ∧
      ∀ layers, world.Shows (answer host (layers + 1)) d (Entries.firstKeys writes) stored) ∧
    (∀ k name, world.heap.HoldsText k name →
      world.heap.item d (.handle k) = world.heap.item d (.string name) ∧
      ∀ value, world.heap.setItem d (.handle k) value =
        world.heap.setItem d (.string name) value) ∧
    (∀ other name stored after, other ≠ d → (ledger other).isSome = true →
      Writes host world other name stored after → after.heap.kind? d = world.heap.kind? d) ∧
    (∀ key value, (world.heap.made? value).isSome = true →
      ((world.heap.setItem d key value).1.isOk = true ↔
        ∃ name, world.heap.plainKey key = .string name)) ∧
    world.RefusesOtherKeys host d := by
  obtain ⟨tells, evolves, builtins⟩ := recorded.tells
  have found := tells d writes known
  obtain ⟨attributes, present⟩ := Heap.cell?_of_kind? found
  have names := OrderedMap.keys_ofEntries writes
  refine ⟨?_, ?_, ?_, ?_, ?_, refusesOtherKeys_of_dict host found⟩
  · rw [← names]
    exact (OrderedMap.ofEntries writes).distinct
  · refine ⟨(OrderedMap.ofEntries writes).values, ?_, fun layers => ?_⟩
    · rw [OrderedMap.map_some_values, names]
      exact List.map_congr_left fun key _ => OrderedMap.get?_ofEntries writes key
    · rw [← names]
      exact Machine.shows_of_dict host (answer host layers)
        ((reachable.hasBuiltin .iter).evolves evolves builtins)
        ((reachable.hasBuiltin .len).evolves evolves builtins) found
  · intro k name isText
    have same : world.heap.plainKey (.handle k) = world.heap.plainKey (.string name) :=
      Heap.plainKey_handle_iff.mpr isText
    exact ⟨Heap.item_congr present same, Heap.setItem_congr present same⟩
  · intro other name stored after different isKnown written
    obtain ⟨own, ownKnown⟩ := Option.isSome_iff_exists.mp isKnown
    obtain ⟨heap, rfl, stores⟩ := written.stores (tells other own ownKnown)
    rw [found]
    exact stores.others d _ different.symm found
  · intro key value isMade
    obtain ⟨stored, made⟩ := Option.isSome_iff_exists.mp isMade
    exact Heap.setItem_isOk_iff_text found made

/-- A dict is built with a key written twice, and written to after it was copied. -/
theorem dicts_refine_maps_copy :
    let host := Host.answeringNone
    let start : World Unit Unit := .start {} .standard ()
    let built : Entries Handle := [("a", ⟨1⟩), ("b", ⟨2⟩), ("a", ⟨3⟩)]
    ∃ (ledger : Ledger) (world : World Unit Unit), Recorded host start ledger world ∧
      (∃ stored,
        stored.map some = ["a", "b", "c"].map (Entries.lastValue? (built ++ [("c", ⟨4⟩)])) ∧
        world.Shows (answer host 1) ⟨7⟩ ["a", "b", "c"] stored) ∧
      ∃ stored, stored.map some = ["a", "b"].map (Entries.lastValue? built) ∧
        world.Shows (answer host 1) ⟨9⟩ ["a", "b"] stored := by
  intro host start built
  let first := start.heap.push (.object ⟨.dict (.ofEntries built), .empty⟩)
  let second := (first.withMethod ⟨7⟩ .copy).push (.object ⟨.dict (.ofEntries built), .empty⟩)
  let third := second.write ⟨7⟩ (.object ⟨.dict (.ofEntries (built ++ [("c", ⟨4⟩)])), .empty⟩)
  have reachable : start.Reachable host := .start {} .standard ()
  have made : answer host 1 (.create (.dict built)) start =
      some (⟨7⟩, { start with heap := first }) := rfl
  have builds : Recorded host start _ { start with heap := first } := .build .nil (.create made)
  have called : (runProgram (answer host 1) (Handle.callMethod ⟨7⟩ "copy" [])).run
      { start with heap := first } = some (.ok ⟨9⟩, { start with heap := second }) := rfl
  have copies : Recorded host start _ { start with heap := second } := .copy builds rfl called
  have isOk : (runProgram (answer host 1)
      ((Proxy.mk ⟨7⟩ ⟨"builtins", "dict"⟩ []).set "c" (.handle ⟨4⟩))).run
      { start with heap := second } = some (.ok true, { start with heap := third }) := rfl
  have writes : Recorded host start _ { start with heap := third } :=
    .write (d := ⟨7⟩) copies rfl (.member rfl rfl isOk)
  obtain ⟨_, ⟨stored, values, shows⟩, _⟩ := dicts_refine_maps reachable writes (d := ⟨7⟩) rfl
  obtain ⟨_, ⟨others, copied, showsCopy⟩, _⟩ := dicts_refine_maps reachable writes (d := ⟨9⟩) rfl
  exact ⟨_, _, writes, ⟨stored, values, shows 0⟩, others, copied, showsCopy 0⟩

end Interop
