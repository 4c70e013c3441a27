import Interop.Proofs.Mapping.Refinement
import Interop.Proofs.Marshal.RoundTrip
import Interop.Template
/-!
What a template binds. Its values are marshalled in order into the private copy of the shared
namespace, each under a name of its own.
-/

set_option autoImplicit false

namespace Interop

variable {κ σ α β : Type}

/-! ### Names -/

namespace Settings

variable (settings : Settings)

/-- A text ends in an index in one way only. -/
theorem interpolationName_injective : Function.Injective settings.interpolationName := by
  intro i j same
  have digits : Nat.toDigits 10 i = Nat.toDigits 10 j := by
    have texts := congrArg String.toList same
    unfold interpolationName at texts
    rw [String.toList_append, String.toList_append] at texts
    have suffix := List.append_cancel_left texts
    change (Nat.repr i).toList = (Nat.repr j).toList at suffix
    rw [Nat.repr_eq_ofList_toDigits, Nat.repr_eq_ofList_toDigits, String.toList_ofList,
      String.toList_ofList] at suffix
    exact suffix
  calc i = Nat.ofDigitChars 10 (Nat.toDigits 10 i) 0 := Nat.ofDigitChars_ten_toDigits.symm
    _ = Nat.ofDigitChars 10 (Nat.toDigits 10 j) 0 := by rw [digits]
    _ = j := Nat.ofDigitChars_ten_toDigits

/-- A name ends in a digit, so that it is no text that ends in a letter. -/
theorem interpolationName_ne (index : Nat) {text : String} {last : Char}
    (isLast : text.toList.getLast? = some last) (letter : last.isDigit = false) :
    settings.interpolationName index ≠ text := by
  rintro rfl
  have nonempty : Nat.toDigits 10 index ≠ [] := Nat.toDigits_ne_nil
  have isDigit := Nat.isDigit_of_mem_toDigits (by decide) (by decide) (List.getLast_mem nonempty)
  unfold interpolationName at isLast
  rw [String.toList_append, List.getLast?_append] at isLast
  change ((Nat.repr index).toList.getLast?).or _ = _ at isLast
  rw [Nat.repr_eq_ofList_toDigits, String.toList_ofList,
    List.getLast?_eq_some_getLast nonempty] at isLast
  cases isLast
  rw [isDigit] at letter
  cases letter

/-- No name is one of the literals that are spelled as names. -/
theorem ofName_interpolationName (index : Nat) :
    Script.Expr.ofName (settings.interpolationName index) =
      .name (settings.interpolationName index) := by
  unfold Script.Expr.ofName
  split
  · rename_i same
    exact absurd same (settings.interpolationName_ne index rfl rfl)
  · rename_i same
    exact absurd same (settings.interpolationName_ne index rfl rfl)
  · rename_i same
    exact absurd same (settings.interpolationName_ne index rfl rfl)
  · rfl

/-- The text to run: the text parts with the names of the values between them. -/
def assemble : Nat → List String → List (Arg κ) → String
  | index, part :: parts, _ :: values =>
    part ++ settings.interpolationName index ++ assemble (index + 1) parts values
  | _, parts, _ => String.join parts

/-- The text that runs for a template. -/
def textOf (parts : List String) (values : List (Arg κ)) : String :=
  let text := settings.assemble 0 parts values
  if settings.dedent then Interop.dedent text else text

/-- The names of values, from an index on, with what they are bound to. -/
def bindings : Nat → List Handle → Entries Handle
  | _, [] => []
  | index, h :: rest => (settings.interpolationName index, h) :: bindings (index + 1) rest

theorem mem_keys_bindings {first : Nat} {handles : List Handle} {name : String}
    (among : name ∈ (settings.bindings first handles).keys) :
    ∃ index < handles.length, settings.interpolationName (first + index) = name := by
  induction handles generalizing first with
  | nil => cases among
  | cons h rest ih =>
      rcases List.mem_cons.mp among with rfl | among
      · exact ⟨0, Nat.succ_pos rest.length, rfl⟩
      · obtain ⟨index, inside, same⟩ := ih among
        refine ⟨index + 1, Nat.succ_lt_succ inside, ?_⟩
        rw [← same, Nat.add_assoc, Nat.add_comm 1 index]

/-- Under the name of a value stands that value. -/
theorem lastValue?_bindings (handles : List Handle) (first index : Nat) :
    Entries.lastValue? (settings.bindings first handles)
      (settings.interpolationName (first + index)) = handles[index]? := by
  induction handles generalizing first index with
  | nil => rfl
  | cons h rest ih =>
      rw [bindings, Entries.lastValue?_cons]
      cases index with
      | zero =>
          have absent : settings.interpolationName first ∉
              (settings.bindings (first + 1) rest).keys := by
            intro among
            obtain ⟨index, _, same⟩ := settings.mem_keys_bindings among
            have := settings.interpolationName_injective same
            omega
          rw [show first + 0 = first from rfl, Entries.lastValue?_eq_none absent, if_pos rfl]
          rfl
      | succ index =>
          have other : settings.interpolationName first ≠
              settings.interpolationName (first + (index + 1)) := by
            intro same
            have := settings.interpolationName_injective same
            omega
          rw [if_neg other, Option.or_none, Nat.add_comm index 1, ← Nat.add_assoc, ih,
            Nat.add_comm 1 index, List.getElem?_cons_succ]

theorem map_snd_bindings (first : Nat) (handles : List Handle) :
    (settings.bindings first handles).map Prod.snd = handles := by
  induction handles generalizing first with
  | nil => rfl
  | cons h rest ih => exact congrArg (h :: ·) (ih (first + 1))

end Settings

/-! ### Marshalling looks at no cell -/

namespace Heap

variable {heap : Heap κ} {h : Handle}

theorem write_write (heap : Heap κ) (h : Handle) (first second : Cell κ) :
    (heap.write h first).write h second = heap.write h second :=
  congrArg Heap.mk (Array.setIfInBounds_setIfInBounds first)

theorem write_of_found {cell : Cell κ} (found : heap.cell? h = some cell) :
    heap.write h cell = heap := by
  obtain ⟨inside, same⟩ := Array.getElem?_eq_some_iff.mp found
  apply congrArg Heap.mk
  rw [Array.setIfInBounds_def, dif_pos inside, ← same, Array.set_getElem_self]

theorem fresh_write (heap : Heap κ) (h : Handle) (cell : Cell κ) :
    (heap.write h cell).fresh = heap.fresh :=
  congrArg Handle.mk Array.size_setIfInBounds

theorem push_write (present : (heap.cell? h).isSome = true) (old new : Cell κ) :
    (heap.write h old).push new = (heap.push new).write h old := by
  obtain ⟨content, found⟩ := Option.isSome_iff_exists.mp present
  obtain ⟨inside, _⟩ := Array.getElem?_eq_some_iff.mp found
  have grown : h.address < (heap.cells.push new).size := by
    rw [Array.size_push]
    exact Nat.lt_succ_of_lt inside
  apply congrArg Heap.mk
  change (heap.cells.setIfInBounds h.address old).push new =
    (heap.cells.push new).setIfInBounds h.address old
  rw [Array.setIfInBounds_def, Array.setIfInBounds_def, dif_pos inside, dif_pos grown,
    Array.set_push, dif_pos inside]

/-- An operation that goes on in the same way, whatever a cell holds. -/
def Op.Ignores (h : Handle) (op : Op κ α) : Prop :=
  ∀ heap a after cell, (heap.cell? h).isSome = true → op.run heap = .ok (a, after) →
    (after.cell? h).isSome = true ∧ op.run (heap.write h cell) = .ok (a, after.write h cell)

namespace Op

theorem ignores_pure (a : α) : Ignores h (pure a : Op κ α) := by
  intro heap b after cell present finished
  cases finished
  exact ⟨present, rfl⟩

theorem ignores_throw (fault : Fault) : Ignores h (throw fault : Op κ α) := by
  intro heap a after cell _ finished
  cases finished

theorem ignores_bind {x : Op κ α} {f : α → Op κ β} (first : x.Ignores h)
    (rest : ∀ a, (f a).Ignores h) : (x >>= f).Ignores h := by
  intro heap b after cell present finished
  obtain ⟨a, mid, early, late⟩ := bind_eq_ok_iff.mp finished
  obtain ⟨still, early'⟩ := first heap a mid cell present early
  obtain ⟨last, late'⟩ := rest a mid b after cell still late
  exact ⟨last, bind_eq_ok_iff.mpr ⟨a, _, early', late'⟩⟩

theorem ignores_alloc (kind : Kind κ) : (alloc kind).Ignores h := by
  intro heap made after cell present finished
  cases finished
  obtain ⟨content, found⟩ := Option.isSome_iff_exists.mp present
  refine ⟨by rw [cell?_push_of_found found]; rfl, ?_⟩
  change Except.ok ((heap.write h cell).fresh, _) = _
  rw [fresh_write, push_write present]

end Op

mutual

theorem ignores_marshal : (arg : Arg κ) → (marshal arg).Ignores h
  | .none => Op.ignores_alloc _
  | .bool _ => Op.ignores_alloc _
  | .int _ => Op.ignores_alloc _
  | .big value => by
      rw [marshal]
      cases word? value with
      | some small => exact Op.ignores_alloc _
      | none => exact Op.ignores_throw _
  | .float _ => Op.ignores_alloc _
  | .string _ => Op.ignores_alloc _
  | .list items => by
      rw [marshal]
      exact Op.ignores_bind (ignores_marshalAll items) fun _ => Op.ignores_alloc _
  | .dict entries => by
      rw [marshal]
      exact Op.ignores_bind (ignores_marshalEntries entries) fun _ => Op.ignores_alloc _
  | .keywords entries => by
      rw [marshal]
      exact Op.ignores_bind (ignores_marshalEntries entries) fun _ => Op.ignores_alloc _
  | .handle h => Op.ignores_pure h
  | .bytes _ => Op.ignores_alloc _
  | .callback _ => Op.ignores_alloc _

theorem ignores_marshalAll : (args : List (Arg κ)) → (marshalAll args).Ignores h
  | [] => Op.ignores_pure []
  | arg :: rest => by
      rw [marshalAll]
      exact Op.ignores_bind (ignores_marshal arg) fun _ =>
        Op.ignores_bind (ignores_marshalAll rest) fun _ => Op.ignores_pure _

theorem ignores_marshalEntries : (entries : List (String × Arg κ)) →
    (marshalEntries entries).Ignores h
  | [] => Op.ignores_pure []
  | (_, arg) :: rest => by
      rw [marshalEntries]
      exact Op.ignores_bind (ignores_marshal arg) fun _ =>
        Op.ignores_bind (ignores_marshalEntries rest) fun _ => Op.ignores_pure _

end

/-- Values that can each be marshalled can be marshalled together, on any heap. -/
theorem exists_marshalAll {values : List (Arg κ)}
    (marshals : ∀ value ∈ values, ∃ stored made, (marshal value).run heap = .ok (stored, made))
    (other : Heap κ) : ∃ handles made, (marshalAll values).run other = .ok (handles, made) := by
  induction values generalizing other with
  | nil => exact ⟨[], other, rfl⟩
  | cons value rest ih =>
      have fits := (marshal_eq_ok_iff value heap).mp (marshals value List.mem_cons_self)
      obtain ⟨stored, mid, first⟩ := (marshal_eq_ok_iff value other).mpr fits
      obtain ⟨handles, made, others⟩ := ih (fun v among =>
        marshals v (List.mem_cons_of_mem _ among)) mid
      refine ⟨stored :: handles, made, Op.bind_eq_ok_iff.mpr ⟨stored, mid, first, ?_⟩⟩
      exact Op.bind_eq_ok_iff.mpr ⟨handles, made, others, rfl⟩

/-- Every value has its handle, and a handle is its own. -/
theorem marshalAll_given {values : List (Arg κ)} {handles : List Handle} {made : Heap κ}
    (marshalled : (marshalAll values).run heap = .ok (handles, made)) :
    handles.length = values.length ∧
      ∀ (index : Nat) (given : Handle), values[index]? = some (.handle given) →
        handles[index]? = some given := by
  induction values generalizing heap handles with
  | nil =>
      cases marshalled
      exact ⟨rfl, nofun⟩
  | cons value rest ih =>
      obtain ⟨stored, mid, first, marshalled⟩ := Op.bind_eq_ok_iff.mp marshalled
      obtain ⟨others, _, more, last⟩ := Op.bind_eq_ok_iff.mp marshalled
      cases last
      obtain ⟨length, given⟩ := ih more
      refine ⟨congrArg (· + 1) length, fun index h found => ?_⟩
      cases index with
      | zero =>
          cases found
          cases first
          rfl
      | succ index => exact given index h found

end Heap

/-! ### Running -/

namespace World

/-- The namespace that a template runs in. Before it is made, the method that copies the shared
namespace has been bound. -/
def shadow (world : World κ σ) : Handle := (world.heap.withMethod world.globals .copy).fresh

/-- The heap once the shared entries have been copied. -/
def copied (world : World κ σ) (entries : OrderedMap Handle) : Heap κ :=
  (world.heap.withMethod world.globals .copy).push (.object ⟨.dict entries, .empty⟩)

/-- The world once values have been bound in the copy of the shared entries. -/
def interpolated (world : World κ σ) (entries : OrderedMap Handle) (handles : List Handle)
    (made : Heap κ) : World κ σ :=
  let bound := entries.merge (world.settings.bindings 0 handles)
  { world with heap := made.write world.shadow (.object ⟨.dict bound, .empty⟩) }

theorem cell?_shadow (world : World κ σ) (entries : OrderedMap Handle) :
    (world.copied entries).cell? world.shadow = some (.object ⟨.dict entries, .empty⟩) := by
  unfold copied shadow
  rw [Heap.cell?_push, if_pos rfl]

end World

/-- The scope of code that has one namespace for all of its names. -/
def Machine.scopeIn (host : Host κ σ) (layers : Nat) (h : Handle) : Script.Scope κ σ :=
  ⟨h, h, fun callee args => ExceptT.mk (answer host layers (.invoke callee args))⟩

namespace Machine

variable (host : Host κ σ) (below : Handler κ σ)

theorem run_setItem (world : World κ σ) (h : Handle) (key value : Arg κ) :
    (runProgram (layer host below) (h.setItem key value)).run world =
      some (.ok (world.heap.setItem h key value).1,
        { world with heap := (world.heap.setItem h key value).2 }) := by
  have asked : runProgram (layer host below) (h.setItem key value : Program κ σ Status) =
      ExceptT.lift (Run.onHeap (·.setItem h key value)) :=
    runProgram_ask _ (.setItem h key value)
  rw [asked]
  rfl

/-- Binding values comes to marshalling them and writing them all. -/
theorem run_bindValues (settings : Settings) {shadow : Handle} {values : List (Arg κ)}
    {parts : List String} {handles : List Handle} {made : Heap κ} {bound : OrderedMap Handle}
    {world : World κ σ} (index : Nat) (shape : parts.length = values.length + 1)
    (isShadow : world.heap.cell? shadow = some (.object ⟨.dict bound, .empty⟩))
    (marshalled : (Heap.marshalAll values).run world.heap = .ok (handles, made)) :
    (runProgram (layer host below) (bindValues settings shadow index parts values)).run world =
      some (.ok (settings.assemble index parts values), { world with
        heap := made.write shadow
          (.object ⟨.dict (bound.merge (settings.bindings index handles)), .empty⟩) }) := by
  induction values generalizing index parts handles made bound world with
  | nil =>
      cases marshalled
      obtain ⟨part, rfl⟩ := List.length_eq_one_iff.mp shape
      have merged : bound.merge (settings.bindings index []) = bound := rfl
      rw [merged, Heap.write_of_found isShadow]
      rfl
  | cons value rest ih =>
      obtain ⟨part, parts, rfl⟩ : ∃ part rest, parts = part :: rest :=
        List.exists_cons_of_length_eq_add_one shape
      obtain ⟨stored, mid, first, marshalled⟩ := Heap.Op.bind_eq_ok_iff.mp marshalled
      obtain ⟨others, _, more, last⟩ := Heap.Op.bind_eq_ok_iff.mp marshalled
      cases last
      let name := settings.interpolationName index
      let cell : Cell κ := .object ⟨.dict (bound.insert name stored), .empty⟩
      have set : world.heap.setItem shadow (.string name) value = (.ok, mid.write shadow cell) :=
        Heap.setItem_of_dict isShadow rfl first
      have still := Heap.cell?_of_marshal first isShadow
      have isShadow' : (mid.write shadow cell).cell? shadow = some cell :=
        Heap.cell?_write_self still cell
      -- the others are marshalled as if the value had not been written
      have present : (mid.cell? shadow).isSome = true := by rw [still]; rfl
      obtain ⟨_, more'⟩ := Heap.ignores_marshalAll rest mid others made cell present more
      have bindRest : (runProgram (layer host below)
          (bindValues settings shadow (index + 1) parts rest)).run
            { world with heap := mid.write shadow cell } = _ :=
        ih (index + 1) (Nat.succ.inj shape) isShadow' more'
      rw [bindValues, run_bind_of_ok _ (run_setItem host below world shadow _ value), set]
      change (runProgram (layer host below)
        (bindValues settings shadow (index + 1) parts rest >>= fun text =>
          pure (part ++ name ++ text))).run _ = _
      rw [run_bind_of_ok _ bindRest, Heap.write_write]
      rfl

section Resolving

variable {world : World κ σ} {parts : List String} {values : List (Arg κ)}
  {entries : OrderedMap Handle} {handles : List Handle} {made : Heap κ}
  (shape : parts.length = values.length + 1) (interpolates : values ≠ [])
  (isDict : world.heap.kind? world.globals = some (.dict entries))
  (marshalled : (Heap.marshalAll values).run (world.copied entries) = .ok (handles, made))

include shape interpolates isDict marshalled

/-- Resolving a template copies the shared namespace and binds the values in the copy. -/
theorem run_resolve : (runProgram (layer host below)
    ((Source.template parts values).resolve world.settings world.globals)).run world =
      some (.ok (world.settings.assemble 0 parts values, world.shadow),
        world.interpolated entries handles made) := by
  have copies : (runProgram (layer host below) (world.globals.callMethod "copy" [])).run world =
      some (.ok world.shadow, { world with heap := world.copied entries }) := by
    obtain ⟨attributes, found⟩ := Heap.cell?_of_kind? isDict
    have still : (world.heap.withMethod world.globals .copy).cell? world.globals =
        some (.object ⟨.dict entries, attributes⟩) := Heap.cell?_push_of_found found _
    have has := Heap.hasMethod_of_dict isDict .copy rfl
    exact (run_callMethod_nil host below has).trans
      (Run.attempt_of_ok (Heap.callContainer_dictCopy still))
  have binds : (runProgram (layer host below)
      (bindValues world.settings world.shadow 0 parts values)).run
        { world with heap := world.copied entries } =
          some (.ok (world.settings.assemble 0 parts values),
            world.interpolated entries handles made) :=
    run_bindValues host below world.settings 0 shape (world.cell?_shadow entries) marshalled
  have calls : (runProgram (layer host below) (world.globals.callMethod "copy" [] >>= fun shadow =>
      bindValues world.settings shadow 0 parts values >>= fun text => pure (text, shadow))).run
        world = some (.ok (world.settings.assemble 0 parts values, world.shadow),
          world.interpolated entries handles made) := by
    rw [run_bind_of_ok _ copies, run_bind_of_ok _ binds]
    rfl
  unfold Source.resolve
  split
  · rename_i impossible
    cases impossible
  · rename_i impossible
    cases impossible
    exact absurd rfl interpolates
  · rename_i same
    cases same
    rw [Handle.callMethod, bind_assoc] at calls
    rw [if_neg (not_not.mpr shape)]
    exact calls

/-- Evaluating a template runs its text where the values are bound, and wraps the result. -/
theorem run_evaluate (layers : Nat) :
    (runProgram (answer host (layers + 1)) (Bridge.evaluate (.template parts values))).run world =
      ((scopeIn host layers world.shadow).exec (world.settings.textOf parts values) >>= fun value =>
        runProgram (answer host (layers + 1)) (Bridge.wrap value)).run
          (world.interpolated entries handles made) := by
  have resolved : (runProgram (answer host (layers + 1))
      ((Source.template parts values).resolve world.settings world.globals)).run world = _ :=
    run_resolve host (answer host layers) shape interpolates isDict marshalled
  have asked : (runProgram (answer host (layers + 1))
      (Bridge.evaluate (.template parts values))).run world =
        (runProgram (answer host (layers + 1))
          ((Source.template parts values).resolve world.settings world.globals >>= fun found =>
            Program.exec (if world.settings.dedent then dedent found.1 else found.1) found.2 found.2
              >>= Bridge.wrap)).run world := rfl
  rw [asked, run_bind_of_ok _ resolved, runProgram_bind, runProgram_exec]
  rfl

end Resolving

/-- Evaluating a source without values runs it in the shared namespace, and wraps the result. -/
theorem run_evaluate_plain (layers : Nat) (world : World κ σ) (source : String) :
    (runProgram (answer host (layers + 1)) (Bridge.evaluate (.plain source))).run world =
      ((scopeIn host layers world.globals).exec
        (if world.settings.dedent then dedent source else source) >>= fun value =>
          runProgram (answer host (layers + 1)) (Bridge.wrap value)).run world := by
  have atGlobals : (runProgram (answer host (layers + 1)) Program.globals).run world =
      some (.ok world.globals, world) := rfl
  have atSettings : (runProgram (answer host (layers + 1)) Program.settings).run world =
      some (.ok world.settings, world) := rfl
  unfold Bridge.evaluate
  rw [run_bind_of_ok _ atGlobals, run_bind_of_ok _ atSettings]
  dsimp only [Source.resolve]
  rw [pure_bind, runProgram_bind, runProgram_exec]
  rfl

end Machine

end Interop
