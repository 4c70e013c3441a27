import Interop.Proofs.Privacy.Machine
import Interop.Proofs.Script.Visiting
import Interop.Proofs.Template.Binding
import Interop.Proofs.Template.Isolation
/-!
Interpolation is substitution. The namespace that a template runs in is private: no code that it
calls can get hold of it, so that its bindings are those that the template made, until the text
itself assigns to a name.
-/

set_option autoImplicit false

namespace Interop

variable {κ σ : Type} {held : σ → Set Handle} {g : Handle}

/-! ### Names in one namespace -/

theorem Heap.item_absent {heap : Heap κ} {h : Handle} {object : HeapObject κ} {name : String}
    {entries : OrderedMap Handle} (found : heap.cell? h = some (.object object))
    (isDict : object.kind = .dict entries) (absent : entries.get? name = none) :
    ∃ fault, heap.item h (.string name) = .error fault := by
  refine ⟨.noEntry ("'" ++ name ++ "'"), ?_⟩
  unfold Heap.item
  rw [found]
  dsimp only
  rw [isDict, show heap.plainKey (.string name) = .string name from rfl]
  dsimp only
  rw [absent]

namespace Script.Scope

variable {scope : Scope κ σ} {bound : OrderedMap Handle} {world : World κ σ} {name : String}

/-- Evaluating a name gives what it is bound to, or fails if that is nothing; it adds cells at
most. -/
def Resolves (scope : Scope κ σ) (name : String) (value : Option Handle) (world : World κ σ) :
    Prop :=
  ∃ result after, (scope.eval (.name name)).run world = some (result, after) ∧
    result.toOption = value ∧ world.Moves Heap.Extends after

theorem run_getItem_bound {h value : Handle} (isDict : world.heap.kind? h = some (.dict bound))
    (stands : bound.get? name = some value) :
    (Exec.ofOp (Heap.getItem h (.string name)) : Exec κ σ Handle).run world =
      some (.ok value, world) := by
  obtain ⟨attributes, found⟩ := Heap.cell?_of_kind? isDict
  exact Run.attempt_of_ok (Heap.getItem_run (Heap.item_entry found rfl stands))

theorem run_getItem_absent {h : Handle} (isDict : world.heap.kind? h = some (.dict bound))
    (absent : bound.get? name = none) :
    ∃ error after, (Exec.ofOp (Heap.getItem h (.string name)) : Exec κ σ Handle).run world =
      some (.error error, after) ∧ world.Moves Heap.Extends after := by
  obtain ⟨attributes, found⟩ := Heap.cell?_of_kind? isDict
  obtain ⟨fault, missing⟩ := Heap.item_absent found rfl absent
  have refused : (Heap.getItem h (.string name)).run world.heap = .error fault := by
    simp only [Heap.getItem, StateT.run_bind, StateT.run_get, pure_bind, missing]
    rfl
  exact ⟨_, _, Run.attempt_of_error refused, .ofHeap (Heap.extends_raise _ _)⟩

/-- With one namespace for all names, a name is bound there, or else among the builtins. -/
theorem resolves (one : scope.globals = scope.locals)
    (isDict : world.heap.kind? scope.locals = some (.dict bound)) (name : String) :
    scope.Resolves name ((bound.get? name).or (world.builtins.get? name)) world := by
  have moves : ∀ result after, (scope.eval (.name name)).run world = some (result, after) →
      world.Moves Heap.Extends after := by
    rw [eval]
    exact good_lookup (Exec.closed_moves Heap.Extends) scope name world
  suffices looked : ∃ result after, (scope.eval (.name name)).run world = some (result, after) ∧
      result.toOption = (bound.get? name).or (world.builtins.get? name) by
    obtain ⟨result, after, ran, gives⟩ := looked
    exact ⟨result, after, ran, gives, moves result after ran⟩
  rw [eval]
  cases stands : bound.get? name with
  | some value =>
      exact ⟨.ok value, world, Exec.run_tryCatch_of_ok (run_getItem_bound isDict stands), rfl⟩
  | none =>
      obtain ⟨first, mid, failed, early⟩ := run_getItem_absent isDict stands
      have still : mid.heap.kind? scope.globals = some (.dict bound) := by
        obtain ⟨attributes, found⟩ := Heap.cell?_of_kind? isDict
        rw [one]
        exact Heap.kind?_of_cell? (early.heap _ _ found)
      obtain ⟨second, last, failed', _⟩ := run_getItem_absent still stands
      have fallsThrough : (scope.lookup name).run world = _ :=
        (Exec.run_tryCatch_of_error failed).trans (Exec.run_tryCatch_of_error failed')
      rw [fallsThrough]
      cases world.builtins.get? name with
      | some value => exact ⟨.ok value, last, rfl, rfl⟩
      | none => exact ⟨.error (last.heap.raise (.undefinedName name)).1, _, rfl, rfl⟩

/-! ### A private namespace during a run -/

variable {there start after : World κ σ} {statements : List Statement} {exprs : List Expr}
  {expr : Expr} {log : Entries Handle}

/-- Up to an evaluation in a run of expressions, what is hidden stays hidden, and as it is. -/
theorem Visits.conceals (invokes : InvokesConcealing held g scope.invoke)
    (visits : scope.Visits expr there exprs world) (hides : world.Hides held g) :
    world.Moves (Heap.Conceals g) there := by
  induction visits with
  | here => exact .refl _
  | inside _ ih => exact ih hides
  | later evaluated _ ih =>
      obtain ⟨early, state, _⟩ := conceals_eval invokes _ _ _ _ hides evaluated
      exact early.trans (ih (hides.after early state))

/-- The namespace of a scope is hidden, and binds names. -/
structure Keeps (scope : Scope κ σ) (held : σ → Set Handle) (bound : OrderedMap Handle)
    (world : World κ σ) : Prop where
  hides : world.Hides held scope.locals
  isDict : world.heap.kind? scope.locals = some (.dict bound)

theorem Keeps.moved (keeps : scope.Keeps held bound world)
    (moves : world.Moves (Heap.Conceals scope.locals) after)
    (state : scope.locals ∉ held after.state) :
    scope.Keeps held bound after where
  hides := keeps.hides.after moves state
  isDict := by
    obtain ⟨attributes, found⟩ := Heap.cell?_of_kind? keeps.isDict
    exact Heap.kind?_of_cell? ((moves.heap keeps.hides.heap).2.trans found)

/-- Assigning to a name binds it in the namespace. -/
theorem Keeps.assign_name (keeps : scope.Keeps held bound world) {value : Handle}
    (other : value ≠ scope.locals)
    (assigned : (scope.assign (.name name) value).run world = some (.ok (), after)) :
    scope.Keeps held (bound.insert name value) after ∧ after.builtins = world.builtins := by
  obtain ⟨attributes, found⟩ := Heap.cell?_of_kind? keeps.isDict
  let cell : Cell κ := .object ⟨.dict (bound.insert name value), attributes⟩
  have set : world.heap.setItem scope.locals (.string name) (.handle value) =
      (.ok, world.heap.write scope.locals cell) :=
    Heap.setItem_of_dict found rfl rfl
  rw [run_assign_name, set, run_accepted rfl] at assigned
  cases assigned
  obtain ⟨contents, named⟩ := keeps.hides.cells _ _ found
  have avoids : cell.Avoids scope.locals := by
    refine ⟨Kind.avoids_of_not_mem rfl fun member => ?_, named⟩
    rcases OrderedMap.mem_values_insert member with same | member
    · exact other same.symm
    · exact contents.handles member
  have stands := Heap.cell?_write_self found cell
  exact ⟨⟨{ keeps.hides with
    cells := keeps.hides.cells.write _ avoids
    present := by rw [stands]; rfl }, Heap.kind?_of_cell? stands⟩, rfl⟩

/-- After statements, the namespace binds what it did with the names of the log. -/
theorem Logs.keeps (invokes : InvokesConcealing held scope.locals scope.invoke)
    (logs : scope.Logs statements world log after) (keeps : scope.Keeps held bound world) :
    scope.Keeps held (bound.merge log) after ∧ after.builtins = world.builtins := by
  induction logs generalizing bound with
  | nil => exact ⟨keeps, rfl⟩
  | expr evaluated _ ih =>
      obtain ⟨moves, state, _⟩ := conceals_eval invokes _ _ _ _ keeps.hides evaluated
      obtain ⟨last, same⟩ := ih (keeps.moved moves state)
      exact ⟨last, same.trans moves.builtins⟩
  | @assign target expr rest world mid next after value log evaluated assigned _ ih =>
      obtain ⟨moves, state, other⟩ := conceals_eval invokes _ _ _ _ keeps.hides evaluated
      have mid := keeps.moved moves state
      by_cases isName : ∃ name, target = .name name
      · obtain ⟨name, rfl⟩ := isName
        obtain ⟨next, same⟩ := mid.assign_name other assigned
        obtain ⟨last, same'⟩ := ih next
        exact ⟨last, same'.trans (same.trans moves.builtins)⟩
      · have part : ∀ name, target ≠ .name name := fun name same => isName ⟨name, same⟩
        obtain ⟨late, state', _⟩ :=
          conceals_assign_part invokes part other _ _ _ mid.hides assigned
        obtain ⟨last, same⟩ := ih (mid.moved late state')
        have silent : target.writes value = [] := by
          cases target with
          | name name => exact absurd rfl (part name)
          | _ => rfl
        rw [silent]
        exact ⟨last, same.trans (late.builtins.trans moves.builtins)⟩

/-- What a run has assigned to are targets in its text. -/
theorem Logs.mem_of_mem_keys (logs : scope.Logs statements world log after)
    (among : name ∈ log.keys) : ∃ expr, .assign (.name name) expr ∈ statements := by
  induction logs with
  | nil => cases among
  | expr _ _ ih =>
      obtain ⟨expr, inside⟩ := ih among
      exact ⟨expr, List.mem_cons_of_mem _ inside⟩
  | @assign target expr rest world mid next after value log _ _ _ ih =>
      rw [Entries.keys, List.map_append, List.mem_append] at among
      rcases among with here | later
      · cases target with
        | name own =>
            cases List.mem_singleton.mp here
            exact ⟨expr, List.mem_cons_self⟩
        | _ => cases here
      · obtain ⟨expr, inside⟩ := ih later
        exact ⟨expr, List.mem_cons_of_mem _ inside⟩

theorem Evaluates.mem_of_mem_keys (evaluates : scope.Evaluates statements start log expr there)
    (among : name ∈ log.keys) : ∃ expr, .assign (.name name) expr ∈ statements := by
  obtain ⟨done, statement, rest, mid, rfl, logs, _⟩ := evaluates
  obtain ⟨expr, inside⟩ := logs.mem_of_mem_keys among
  exact ⟨expr, List.mem_append_left _ inside⟩

/-- Wherever a run evaluates a name, the name is bound to what the run has last assigned to it, or
else to what it was bound to at the start, or else to a builtin. -/
theorem Evaluates.resolves (one : scope.globals = scope.locals)
    (invokes : InvokesConcealing held scope.locals scope.invoke)
    (keeps : scope.Keeps held bound start)
    (evaluates : scope.Evaluates statements start log (.name name) there) :
    scope.Resolves name
      (((Entries.lastValue? log name).or (bound.get? name)).or (start.builtins.get? name))
        there := by
  obtain ⟨done, statement, rest, mid, _, logs, visits⟩ := evaluates
  obtain ⟨kept, same⟩ := logs.keeps invokes keeps
  have moves := visits.conceals invokes kept.hides
  obtain ⟨attributes, found⟩ := Heap.cell?_of_kind? kept.isDict
  have isDict := Heap.kind?_of_cell? ((moves.heap kept.hides.heap).2.trans found)
  have found := scope.resolves one isDict name
  rw [OrderedMap.get?_merge, moves.builtins, same] at found
  exact found

end Script.Scope

/-! ### Templates -/

section Templates

variable {world : World κ σ} {parts : List String} {values : List (Arg κ)} {handles : List Handle}
  {entries : OrderedMap Handle} {made : Heap κ}

/-- When the code of a template starts, its namespace is private, and binds the values. -/
theorem Machine.scopeIn_keeps (host : Host κ σ) (layers : Nat)
    (isDict : world.heap.kind? world.globals = some (.dict entries))
    (unknown : world.Avoids held world.shadow) (avoid : Arg.AllAvoid world.shadow values)
    (marshalled : (Heap.marshalAll values).run (world.copied entries) = .ok (handles, made)) :
    (scopeIn host layers world.shadow).Keeps held
      (entries.merge (world.settings.bindings 0 handles))
      (world.interpolated entries handles made) := by
  obtain ⟨attributes, found⟩ := Heap.cell?_of_kind? isDict
  have entriesAvoid : world.shadow ∉ entries.values := (unknown.cells _ _ found).1.handles
  have methodAvoids : world.shadow ∉
      (Kind.boundMethod world.globals "copy" (.container .copy) : Kind κ).handles :=
    List.not_mem_cons_of_ne_of_not_mem unknown.globals.symm List.not_mem_nil
  have holding : ∀ {kind : Kind κ}, kind.hostFunction? = none → world.shadow ∉ kind.handles →
      (Cell.object ⟨kind, .empty⟩).Avoids world.shadow :=
    fun own avoids => Cell.avoids_of_kind (Kind.avoids_of_not_mem own avoids)
  have copied : (world.copied entries).Hides world.shadow :=
    { present := Option.isSome_iff_exists.mpr ⟨_, world.cell?_shadow entries⟩
      cells := (unknown.cells.push (holding rfl methodAvoids)).push (holding rfl entriesAvoid) }
  obtain ⟨conceals, handlesAvoid⟩ := Heap.conceals_marshalAll values avoid _ _ _ copied marshalled
  obtain ⟨still, same⟩ := conceals copied
  have boundAvoids :
      world.shadow ∉ (entries.merge (world.settings.bindings 0 handles)).values := by
    intro member
    rcases OrderedMap.mem_values_entriesMerge member with member | member
    · exact entriesAvoid member
    · rw [Settings.map_snd_bindings] at member
      exact handlesAvoid member
  have written : (world.interpolated entries handles made).heap.cell? world.shadow = some _ :=
    Heap.cell?_write_self (same.trans (world.cell?_shadow entries)) _
  exact {
    hides := { unknown with
      cells := still.cells.write _ (holding rfl boundAvoids)
      present := Option.isSome_iff_exists.mpr ⟨_, written⟩ }
    isDict := Heap.kind?_of_cell? written }

/-- Interpolation is substitution. Nobody makes up handles, so that nothing mentions the namespace
of a template before it is there. Then the code of the template runs in a copy of the shared
entries, in which a name of its own stands for each of the values. Wherever the run evaluates such
a name, it gives what the value was marshalled to, as long as the text does not assign to the name.
Any other name is bound to what the run has last assigned to it, or else to what the shared
namespace bound it to when the evaluation started, or else to a builtin. -/
theorem Bridge.template_substitutes {host : Host κ σ} (layers : Nat)
    (shape : parts.length = values.length + 1) (interpolates : values ≠ [])
    (isDict : world.heap.kind? world.globals = some (.dict entries))
    (marshals : ∀ value ∈ values, ∃ stored made,
      (Heap.marshal value).run world.heap = .ok (stored, made))
    (unknown : world.Avoids held world.shadow) (hostAvoids : host.Avoids held world.shadow)
    (avoid : Arg.AllAvoid world.shadow values) :
    let settings := world.settings
    let scope := Machine.scopeIn host layers world.shadow
    let text := settings.textOf parts values
    Function.Injective settings.interpolationName ∧
    (∀ index, Script.Expr.ofName (settings.interpolationName index) =
      .name (settings.interpolationName index)) ∧
    ∃ handles made,
      (Heap.marshalAll values).run (world.copied entries) = .ok (handles, made) ∧
      handles.length = values.length ∧
      (∀ (index : Nat) (given : Handle), values[index]? = some (.handle given) →
        handles[index]? = some given) ∧
      let start := world.interpolated entries handles made
      (Machine.runProgram (Machine.answer host (layers + 1))
        (Bridge.evaluate (.template parts values))).run world =
          (scope.exec text >>= fun value =>
            Machine.runProgram (Machine.answer host (layers + 1)) (Bridge.wrap value)).run start ∧
      ∀ statements, Script.parseSource text = .ok statements →
        (∀ index < values.length, ∀ expr,
          .assign (.name (settings.interpolationName index)) expr ∉ statements) →
        ∀ log name there, scope.Evaluates statements start log (.name name) there →
          (∀ (index : Nat) (h : Handle), handles[index]? = some h →
            name = settings.interpolationName index → scope.Resolves name (some h) there) ∧
          ((∀ index < values.length, name ≠ settings.interpolationName index) →
            scope.Resolves name (((Entries.lastValue? log name).or (entries.get? name)).or
              (world.builtins.get? name)) there) := by
  intro settings scope text
  obtain ⟨handles, made, marshalled⟩ := Heap.exists_marshalAll marshals (world.copied entries)
  obtain ⟨length, given⟩ := Heap.marshalAll_given marshalled
  refine ⟨settings.interpolationName_injective, settings.ofName_interpolationName, handles, made,
    marshalled, length, given,
    Machine.run_evaluate host shape interpolates isDict marshalled layers, ?_⟩
  intro statements _ unassigned log name there evaluates
  have invokes : Script.InvokesConcealing held scope.locals scope.invoke :=
    Machine.invokesConcealing (Machine.conceals_answer hostAvoids layers)
  have keeps := Machine.scopeIn_keeps host layers isDict unknown avoid marshalled
  have resolves := evaluates.resolves rfl invokes keeps
  rw [OrderedMap.get?_merge] at resolves
  constructor
  · rintro index h found rfl
    have inside : index < values.length := by
      rw [← length]
      exact (List.getElem?_eq_some_iff.mp found).1
    have unwritten : settings.interpolationName index ∉ log.keys := by
      intro among
      obtain ⟨expr, member⟩ := evaluates.mem_of_mem_keys among
      exact unassigned index inside expr member
    have stands := settings.lastValue?_bindings handles 0 index
    rw [Nat.zero_add, found] at stands
    rw [Entries.lastValue?_eq_none unwritten, stands] at resolves
    exact resolves
  · intro other
    have absent : name ∉ (settings.bindings 0 handles).keys := by
      intro among
      obtain ⟨index, inside, same⟩ := settings.mem_keys_bindings among
      rw [Nat.zero_add] at same
      exact other index (length ▸ inside) same.symm
    rw [Entries.lastValue?_eq_none absent] at resolves
    exact resolves

end Templates

/-- The code of the host that answers none knows no values. -/
theorem Host.avoids_answeringNone : Host.answeringNone.Avoids (fun _ => ∅) g where
  function _ _ _ _ _ := ⟨trivial, fun _ other => other⟩
  callback _ _ _ := trivial
  method _ _ _ _ _ := trivial
  members _ _ _ := trivial

/-- A template that appends a number to a list. The list is what its first name stands for, from the
start of the run on. -/
theorem Bridge.template_substitutes_append :
    let world := World.withBindings
    let entries : OrderedMap Handle := .ofEntries [("n", ⟨7⟩), ("xs", ⟨8⟩)]
    let scope := Machine.scopeIn Host.answeringNone 2 world.shadow
    let call := Script.Expr.call (.attr (.name "v0") "append") [.name "v1"] []
    ∃ handles made,
      (Heap.marshalAll [.handle ⟨8⟩, .int 7]).run (world.copied entries) = .ok (handles, made) ∧
      scope.Evaluates [.expr call] (world.interpolated entries handles made) [] (.name "v0")
        (world.interpolated entries handles made) ∧
      scope.Resolves "v0" (some ⟨8⟩) (world.interpolated entries handles made) := by
  intro world entries scope call
  let values : List (Arg Unit) := [.handle ⟨8⟩, .int 7]
  have marshals : ∀ value ∈ values, ∃ stored made,
      (Heap.marshal value).run world.heap = .ok (stored, made) := by
    intro value among
    rcases List.mem_pair.mp among with rfl | rfl
    · exact ⟨_, _, rfl⟩
    · exact ⟨_, _, rfl⟩
  have unknown : world.Avoids (fun _ => ∅) world.shadow :=
    { cells := Heap.avoids_of_all (by decide +kernel)
      globals := by decide +kernel
      builtins := by decide +kernel
      modules := by decide +kernel
      state := Set.notMem_empty _ }
  have other : (⟨8⟩ : Handle) ≠ world.shadow := by decide
  have avoid : Arg.AllAvoid world.shadow values := ⟨other, trivial, trivial⟩
  obtain ⟨_, _, handles, made, marshalled, _, given, _, substitutes⟩ :=
    Bridge.template_substitutes 2 (rfl : ["", ".append(", ")"].length = values.length + 1)
      (List.cons_ne_nil _ _) (rfl : world.heap.kind? world.globals = some (.dict entries)) marshals
      unknown Host.avoids_answeringNone avoid
  have evaluates : scope.Evaluates [.expr call] (world.interpolated entries handles made) []
      (.name "v0") (world.interpolated entries handles made) :=
    ⟨[], .expr call, [], _, rfl, .nil, .inside (.inside .here)⟩
  have text : world.settings.textOf ["", ".append(", ")"] values = "v0.append(v1)" := by decide
  have parsed : Script.parseSource "v0.append(v1)" = .ok [.expr call] := by cbv
  rw [text] at substitutes
  obtain ⟨stands, _⟩ := substitutes _ parsed
    (fun _ _ _ among => by cases List.mem_singleton.mp among) _ _ _ evaluates
  exact ⟨handles, made, marshalled, evaluates, stands 0 ⟨8⟩ (given 0 ⟨8⟩ rfl) rfl⟩

end Interop
