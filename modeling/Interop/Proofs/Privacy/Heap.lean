import Interop.Proofs.Machine.Evolution
import Interop.Proofs.Privacy.Mentions
/-!
Operations keep a private value private. If no cell mentions a value, then whatever is done with
other values neither changes it nor brings it out.
-/

set_option autoImplicit false

namespace Interop

variable {κ α β : Type} {g : Handle}

namespace Heap

/-- No cell mentions a value. -/
def Avoids (g : Handle) (heap : Heap κ) : Prop := ∀ h cell, heap.cell? h = some cell → cell.Avoids g

/-- A value is there, and no cell mentions it, its own included. -/
structure Hides (g : Handle) (heap : Heap κ) : Prop where
  present : (heap.cell? g).isSome = true
  cells : heap.Avoids g

/-- A hidden value stays hidden, and as it is. -/
def Conceals (g : Handle) (heap after : Heap κ) : Prop :=
  heap.Hides g → after.Hides g ∧ after.cell? g = heap.cell? g

variable {heap after : Heap κ}

instance (g : Handle) : IsPreorder (Heap κ) (Conceals g) where
  refl _ hides := ⟨hides, rfl⟩
  trans _ _ _ early late hides := by
    obtain ⟨still, same⟩ := early hides
    obtain ⟨last, same'⟩ := late still
    exact ⟨last, same'.trans same⟩

namespace Hides

variable (hides : heap.Hides g)

include hides

theorem fresh_ne : heap.fresh ≠ g := by
  obtain ⟨cell, found⟩ := Option.isSome_iff_exists.mp hides.present
  exact (ne_fresh_of_cell? found).symm

theorem points_ne {h k : Handle} (points : heap.Points h k) : k ≠ g := by
  obtain ⟨cell, found, member⟩ := points
  exact ne_of_mem_of_not_mem member (hides.cells h cell found).handles

theorem reaches_ne {h k : Handle} (start : h ≠ g) (reaches : heap.Reaches h k) : k ≠ g := by
  cases reaches with
  | refl => exact start
  | tail _ points => exact hides.points_ne points

theorem kind {h : Handle} {kind : Kind κ} (read : heap.kind? h = some kind) : kind.Avoids g := by
  obtain ⟨attributes, found⟩ := cell?_of_kind? read
  exact (hides.cells h _ found).1

end Hides

/-- A heap without functions of the host avoids a value that none of its cells holds. -/
theorem avoids_of_all (own : (heap.cells.all fun cell => !cell.handles.contains g &&
    match cell with
      | .object content => !content.kind.isHostFunction
      | .stub _ => true) = true) : heap.Avoids g := by
  intro h cell found
  obtain ⟨inside, rfl⟩ := Array.getElem?_eq_some_iff.mp found
  have checked := Array.all_eq_true.mp own h.address inside
  rw [Bool.and_eq_true, Bool.not_eq_true', List.contains_eq_mem, decide_eq_false_iff_not] at checked
  obtain ⟨absent, code⟩ := checked
  cases content : heap.cells[h.address] with
  | stub stub =>
      rw [content] at absent
      exact absent
  | object object =>
      rw [content, Cell.handles, List.mem_append, not_or] at absent
      rw [content] at code
      refine ⟨Kind.avoids_of_not_mem ?_ absent.1, absent.2⟩
      cases kind : object.kind with
      | callback => simp [kind, Kind.isHostFunction] at code
      | hostMethod => simp [kind, Kind.isHostFunction] at code
      | _ => rfl

theorem Avoids.push (cells : heap.Avoids g) {cell : Cell κ} (avoids : cell.Avoids g) :
    (heap.push cell).Avoids g := by
  intro h content found
  rw [cell?_push] at found
  split at found
  · cases found
    exact avoids
  · exact cells h content found

theorem Avoids.write (cells : heap.Avoids g) (h : Handle) {cell : Cell κ} (avoids : cell.Avoids g) :
    (heap.write h cell).Avoids g := by
  intro k content found
  rw [cell?_write] at found
  split at found
  · obtain ⟨_, _, rfl⟩ := Option.map_eq_some_iff.mp found
    exact avoids
  · exact cells k content found

theorem conceals_push {cell : Cell κ} (avoids : cell.Avoids g) :
    heap.Conceals g (heap.push cell) := by
  intro hides
  obtain ⟨content, found⟩ := Option.isSome_iff_exists.mp hides.present
  have stays := cell?_push_of_found found cell
  exact ⟨⟨by rw [stays]; rfl, hides.cells.push avoids⟩, stays.trans found.symm⟩

theorem conceals_write {h : Handle} {cell : Cell κ} (other : h ≠ g) (avoids : cell.Avoids g) :
    heap.Conceals g (heap.write h cell) := by
  intro hides
  have same : (heap.write h cell).cell? g = heap.cell? g := cell?_write_of_ne other.symm cell
  exact ⟨⟨by rw [same]; exact hides.present, hides.cells.write h avoids⟩, same⟩

/-- From any heap that hides a value on, an operation keeps it hidden and gives something good. -/
def Op.Conceals (g : Handle) (good : α → Prop) (op : Op κ α) : Prop :=
  ∀ heap a after, heap.Hides g → op.run heap = .ok (a, after) → heap.Conceals g after ∧ good a

namespace Op

variable {good : α → Prop} {later : β → Prop}

theorem conceals_pure {a : α} (holds : good a) : Conceals g good (pure a : Op κ α) := by
  intro heap b after _ finished
  cases finished
  exact ⟨Std.Refl.refl heap, holds⟩

theorem conceals_throw (fault : Fault) : Conceals g good (throw fault : Op κ α) := by
  intro heap a after _ finished
  cases finished

theorem conceals_bind {x : Op κ α} {f : α → Op κ β} (first : x.Conceals g good)
    (rest : ∀ a, good a → (f a).Conceals g later) : (x >>= f).Conceals g later := by
  intro heap b after hides finished
  obtain ⟨a, mid, early, late⟩ := bind_eq_ok_iff.mp finished
  obtain ⟨conceals, holds⟩ := first heap a mid hides early
  obtain ⟨conceals', holds'⟩ := rest a holds mid b after (conceals hides).1 late
  exact ⟨IsTrans.trans _ _ _ conceals conceals', holds'⟩

theorem conceals_get_bind {f : Heap κ → Op κ β}
    (rest : ∀ heap, heap.Hides g → (f heap).Conceals g later) :
    (get >>= f).Conceals g later := by
  intro heap b after hides finished
  exact rest heap hides heap b after hides finished

theorem conceals_liftExcept_bind {x : Except Fault α} {f : α → Op κ β}
    (rest : ∀ a, x = .ok a → (f a).Conceals g later) :
    ((liftM x : Op κ α) >>= f).Conceals g later := by
  cases x with
  | error fault => exact conceals_throw fault
  | ok a => exact rest a rfl

theorem conceals_check {f : Heap κ → Except Fault α} :
    Conceals g (fun _ => True) (check f : Op κ α) := by
  intro heap a after _ finished
  change (f heap).map (·, heap) = .ok (a, after) at finished
  cases told : f heap with
  | error fault =>
      rw [told] at finished
      cases finished
  | ok b =>
      rw [told] at finished
      cases finished
      exact ⟨Std.Refl.refl heap, trivial⟩

theorem conceals_alloc {kind : Kind κ} (avoids : kind.Avoids g) :
    Conceals g (· ≠ g) (alloc kind) := by
  intro heap h after hides finished
  cases finished
  exact ⟨conceals_push (Cell.avoids_of_kind avoids), hides.fresh_ne⟩

/-- An object that holds no values, and is no function of the host, mentions none. -/
theorem conceals_allocPlain {kind : Kind κ} (own : kind.hostFunction? = none)
    (plain : kind.handles = []) : Conceals g (· ≠ g) (alloc kind) := by
  refine conceals_alloc (Kind.avoids_of_not_mem own ?_)
  rw [plain]
  exact List.not_mem_nil

theorem conceals_allocHolding {kind : Kind κ} (own : kind.hostFunction? = none)
    (avoid : g ∉ kind.handles) : Conceals g (· ≠ g) (alloc kind) :=
  conceals_alloc (Kind.avoids_of_not_mem own avoid)

end Op

open Op (conceals_bind conceals_pure conceals_throw conceals_get_bind conceals_liftExcept_bind
  conceals_alloc conceals_allocPlain conceals_allocHolding)

/-! ### Reading -/

theorem conceals_getItem {h : Handle} (key : Arg κ) : (getItem h key).Conceals g (· ≠ g) := by
  refine conceals_get_bind fun heap hides => ?_
  have part : ∀ {item : Item}, heap.item h key = .ok item → g ∉ item.handles :=
    fun stands member => hides.points_ne (points_of_item stands g member) rfl
  split
  · exact conceals_throw _
  · rename_i value stands
    exact conceals_pure (List.ne_of_not_mem_cons (part stands)).symm
  · exact conceals_allocPlain rfl rfl
  · rename_i items stands
    exact conceals_allocHolding rfl (part stands)
  · rename_i items stands
    exact conceals_allocHolding rfl (part stands)

theorem conceals_getAttr {h : Handle} (name : String) (other : h ≠ g) :
    (getAttr h name : Op κ Handle).Conceals g (· ≠ g) := by
  refine conceals_get_bind fun heap hides => ?_
  split
  · exact conceals_allocPlain rfl rfl
  · rename_i value stands
    exact conceals_pure
      (hides.reaches_ne other (reaches_of_attribute? stands value List.mem_cons_self))
  · exact conceals_allocHolding rfl (List.not_mem_cons_of_ne_of_not_mem other.symm List.not_mem_nil)
  · exact conceals_throw _

theorem conceals_typeOf (h : Handle) : (typeOf h : Op κ Handle).Conceals g (· ≠ g) := by
  refine conceals_get_bind fun heap hides => ?_
  split
  · exact conceals_throw _
  · rename_i stub found
    exact conceals_pure (hides.points_ne ⟨_, found, List.mem_cons_self⟩)
  · rename_i object found
    split
    · rename_i cls isInstance
      refine conceals_pure (hides.points_ne ⟨_, found, List.mem_append_left _ ?_⟩)
      rw [isInstance]
      exact List.mem_singleton_self cls
    · exact conceals_allocPlain rfl rfl

/-! ### Making -/

theorem not_mem_ofEntries {entries : Entries Handle} (avoid : g ∉ entries.map Prod.snd) :
    g ∉ (OrderedMap.ofEntries entries).values :=
  fun member => avoid (OrderedMap.mem_values_ofEntries member)

mutual

theorem conceals_marshal : (arg : Arg κ) → arg.Avoids g → (marshal arg).Conceals g (· ≠ g)
  | .none, _ => conceals_allocPlain rfl rfl
  | .bool _, _ => conceals_allocPlain rfl rfl
  | .int _, _ => conceals_allocPlain rfl rfl
  | .big value, _ => by
      rw [marshal]
      cases word? value with
      | some small => exact conceals_allocPlain rfl rfl
      | none => exact conceals_throw _
  | .float _, _ => conceals_allocPlain rfl rfl
  | .string _, _ => conceals_allocPlain rfl rfl
  | .list items, avoids => by
      rw [marshal]
      exact conceals_bind (conceals_marshalAll items avoids) fun _ avoid =>
        conceals_allocHolding rfl avoid
  | .dict entries, avoids => by
      rw [marshal]
      exact conceals_bind (conceals_marshalEntries entries avoids) fun _ avoid =>
        conceals_allocHolding rfl (not_mem_ofEntries avoid)
  | .keywords entries, avoids => by
      rw [marshal]
      exact conceals_bind (conceals_marshalEntries entries avoids) fun _ avoid =>
        conceals_allocHolding rfl (not_mem_ofEntries avoid)
  | .handle h, avoids => conceals_pure avoids
  | .bytes _, _ => conceals_allocPlain rfl rfl
  | .callback function, avoids => by
      rw [marshal]
      refine conceals_alloc ⟨List.not_mem_nil, ?_⟩
      rintro _ ⟨⟩
      exact avoids

theorem conceals_marshalAll : (args : List (Arg κ)) → Arg.AllAvoid g args →
    (marshalAll args).Conceals g (g ∉ ·)
  | [], _ => conceals_pure List.not_mem_nil
  | arg :: rest, avoid => by
      rw [marshalAll]
      refine conceals_bind (conceals_marshal arg avoid.1) fun first other => ?_
      refine conceals_bind (conceals_marshalAll rest avoid.2) fun others avoid => ?_
      exact conceals_pure (List.not_mem_cons_of_ne_of_not_mem other.symm avoid)

theorem conceals_marshalEntries : (entries : List (String × Arg κ)) → Arg.EntriesAvoid g entries →
    (marshalEntries entries).Conceals g (g ∉ ·.map Prod.snd)
  | [], _ => conceals_pure List.not_mem_nil
  | (key, arg) :: rest, avoid => by
      rw [marshalEntries]
      refine conceals_bind (conceals_marshal arg avoid.1) fun first other => ?_
      refine conceals_bind (conceals_marshalEntries rest avoid.2) fun others avoid => ?_
      exact conceals_pure (List.not_mem_cons_of_ne_of_not_mem other.symm avoid)

end

theorem conceals_allocStrings (texts : List String) :
    (allocStrings texts : Op κ _).Conceals g (g ∉ ·) := by
  induction texts with
  | nil => exact conceals_pure List.not_mem_nil
  | cons text rest ih =>
      rw [allocStrings]
      refine conceals_bind (conceals_allocPlain rfl rfl) fun first other => ?_
      refine conceals_bind ih fun others avoid => ?_
      exact conceals_pure (List.not_mem_cons_of_ne_of_not_mem other.symm avoid)

theorem conceals_allocPairs : (entries : Entries Handle) → g ∉ entries.map Prod.snd →
    (allocPairs entries : Op κ _).Conceals g (g ∉ ·)
  | [], _ => conceals_pure List.not_mem_nil
  | (key, value) :: rest, avoid => by
      rw [allocPairs]
      refine conceals_bind (conceals_allocPlain rfl rfl) fun text other => ?_
      have pair : g ∉ [text, value] := List.not_mem_cons_of_ne_of_not_mem other.symm
        (List.not_mem_cons_of_ne_of_not_mem (List.ne_of_not_mem_cons avoid) List.not_mem_nil)
      refine conceals_bind (conceals_allocHolding rfl pair) fun first other => ?_
      refine conceals_bind (conceals_allocPairs rest (List.not_mem_of_not_mem_cons avoid))
        fun others avoid => ?_
      exact conceals_pure (List.not_mem_cons_of_ne_of_not_mem other.symm avoid)

/-! ### The runtime's own functions -/

theorem onlyArgument_ne {function : String} {args : List Handle} {arg : Handle} (avoid : g ∉ args)
    (only : onlyArgument function args = .ok arg) : arg ≠ g := by
  unfold onlyArgument at only
  split at only
  · cases only
    exact (List.ne_of_not_mem_cons avoid).symm
  · cases only

theorem conceals_builtinIter {args : List Handle} (avoid : g ∉ args) :
    (builtinIter args : Op κ Handle).Conceals g (· ≠ g) := by
  refine conceals_liftExcept_bind fun arg only => conceals_get_bind fun heap hides => ?_
  split
  · exact conceals_throw _
  · exact conceals_pure (onlyArgument_ne avoid only)
  · rename_i items read
    exact conceals_allocHolding rfl (hides.kind read).handles
  · rename_i items read
    exact conceals_allocHolding rfl (hides.kind read).handles
  · exact conceals_bind (conceals_allocStrings _) fun _ avoid => conceals_allocHolding rfl avoid
  · exact conceals_bind (conceals_allocStrings _) fun _ avoid => conceals_allocHolding rfl avoid
  · exact conceals_throw _

theorem conceals_builtinSlice (args : List Handle) :
    (builtinSlice args : Op κ Handle).Conceals g (· ≠ g) := by
  refine conceals_get_bind fun heap _ => ?_
  split
  · exact conceals_liftExcept_bind fun _ _ => conceals_allocPlain rfl rfl
  · exact conceals_liftExcept_bind fun _ _ => conceals_liftExcept_bind fun _ _ =>
      conceals_allocPlain rfl rfl
  · exact conceals_liftExcept_bind fun _ _ => conceals_liftExcept_bind fun _ _ =>
      conceals_liftExcept_bind fun _ _ => conceals_allocPlain rfl rfl
  · exact conceals_throw _

theorem conceals_callBuiltin (builtin : Builtin) {args : List Handle} (avoid : g ∉ args) :
    (callBuiltin builtin args : Op κ Handle).Conceals g (· ≠ g) := by
  cases builtin with
  | len =>
      refine conceals_liftExcept_bind fun arg _ => conceals_get_bind fun heap _ => ?_
      split
      · exact conceals_throw _
      · exact conceals_liftExcept_bind fun _ _ => conceals_allocPlain rfl rfl
  | slice => exact conceals_builtinSlice args
  | type => exact conceals_liftExcept_bind fun arg _ => conceals_typeOf arg
  | iter => exact conceals_builtinIter avoid
  | str =>
      exact conceals_liftExcept_bind fun arg _ => conceals_get_bind fun heap _ =>
        conceals_liftExcept_bind fun _ _ => conceals_allocPlain rfl rfl

theorem conceals_callInitializer (args : List Handle) (keywords : OrderedMap Handle) :
    (callInitializer args keywords : Op κ Handle).Conceals g (· ≠ g) := by
  unfold callInitializer
  split
  · exact conceals_throw _
  · exact conceals_allocPlain rfl rfl

theorem conceals_replaceKind {receiver : Handle} {object : HeapObject κ} {kind : Kind κ}
    (other : receiver ≠ g) (attributes : g ∉ object.attributes.values) (avoids : kind.Avoids g) :
    (replaceKind receiver object kind).Conceals g fun _ => True := by
  intro heap a after _ finished
  cases finished
  exact ⟨conceals_write other ⟨avoids, attributes⟩, trivial⟩

theorem conceals_callContainer (method : ContainerMethod) {receiver : Handle} {args : List Handle}
    (other : receiver ≠ g) (avoid : g ∉ args) :
    (callContainer method receiver args : Op κ Handle).Conceals g (· ≠ g) := by
  refine conceals_get_bind fun heap hides => ?_
  split
  · exact conceals_throw _
  · rename_i object read
    obtain ⟨contents, attributes⟩ := hides.cells _ _ (cell?_of_object? read)
    split
    · rename_i entries isDict
      rw [isDict] at contents
      exact conceals_allocHolding rfl contents.handles
    · exact conceals_bind (conceals_allocStrings _) fun _ avoid => conceals_allocHolding rfl avoid
    · rename_i entries isDict
      rw [isDict] at contents
      exact conceals_allocHolding rfl contents.handles
    · rename_i entries isDict
      rw [isDict] at contents
      exact conceals_bind (conceals_allocPairs _ contents.handles) fun _ avoid =>
        conceals_allocHolding rfl avoid
    · rename_i entries isDict
      rw [isDict] at contents
      split
      · exact conceals_throw _
      · rename_i key defaults
        dsimp only
        split
        · rename_i value found
          refine conceals_pure (ne_of_mem_of_not_mem ?_ contents.handles)
          split at found
          · exact OrderedMap.mem_values_of_get? found
          · cases found
        · refine conceals_pure (ne_of_mem_of_not_mem ?_ avoid)
          exact List.mem_cons_of_mem _ List.mem_cons_self
        · exact conceals_allocPlain rfl rfl
    · rename_i items isList
      rw [isList] at contents
      split
      · exact conceals_throw _
      · rename_i item others
        have extended : g ∉ items ++ [item] := by
          rw [List.mem_append, List.mem_singleton, not_or]
          exact ⟨contents.handles, List.ne_of_not_mem_cons avoid⟩
        exact conceals_bind
          (conceals_replaceKind other attributes (Kind.avoids_of_not_mem rfl extended))
          fun _ _ => conceals_allocPlain rfl rfl
    · rename_i items isList
      rw [isList] at contents
      exact conceals_allocHolding rfl contents.handles
    · rename_i items isList
      rw [isList] at contents
      split
      · exact conceals_throw _
      · rename_i last isLast
        have shortened : g ∉ items.dropLast :=
          fun member => contents.handles (List.dropLast_subset items member)
        exact conceals_bind
          (conceals_replaceKind other attributes (Kind.avoids_of_not_mem rfl shortened))
          fun _ _ => conceals_pure
            (ne_of_mem_of_not_mem (List.mem_of_getLast? isLast) contents.handles)
    · exact conceals_throw _

/-! ### Setting -/

theorem conceals_setAttr {h : Handle} (name : String) {value : Arg κ} (hides : heap.Hides g)
    (other : h ≠ g) (avoids : value.Avoids g) :
    heap.Conceals g (heap.setAttr h name value).2 := by
  unfold setAttr
  split
  · exact Std.Refl.refl heap
  · exact Std.Refl.refl heap
  · rename_i object found
    obtain ⟨contents, attributes⟩ := hides.cells _ _ found
    split
    · split
      · rename_i stored mid marshalled
        obtain ⟨conceals, storedOther⟩ := conceals_marshal value avoids heap _ _ hides marshalled
        refine IsTrans.trans _ _ _ conceals (conceals_write other ⟨contents, fun member => ?_⟩)
        rcases OrderedMap.mem_values_insert member with rfl | member
        · exact storedOther rfl
        · exact attributes member
      · exact Std.Refl.refl heap
    · exact Std.Refl.refl heap

theorem avoids_storing {kind changed : Kind κ} {key : Arg κ} {stored : Handle}
    (contents : kind.Avoids g) (other : stored ≠ g)
    (stores : kind.storing key stored = some changed) : changed.Avoids g := by
  refine Kind.avoids_of_not_mem ?_ fun member => ?_
  · unfold Kind.storing at stores
    split at stores
    · obtain ⟨_, _, rfl⟩ := Option.map_eq_some_iff.mp stores
      rfl
    · cases stores
      rfl
    · cases stores
  · rcases mem_of_storing stores member with rfl | member
    · exact other rfl
    · exact contents.handles member

theorem conceals_setItem {h : Handle} (key : Arg κ) {value : Arg κ} (hides : heap.Hides g)
    (other : h ≠ g) (avoids : value.Avoids g) :
    heap.Conceals g (heap.setItem h key value).2 := by
  unfold setItem
  split
  · exact Std.Refl.refl heap
  · exact Std.Refl.refl heap
  · rename_i object found
    obtain ⟨contents, attributes⟩ := hides.cells _ _ found
    split
    · exact Std.Refl.refl heap
    · rename_i stored mid marshalled
      obtain ⟨conceals, storedOther⟩ := conceals_marshal value avoids heap _ _ hides marshalled
      split
      · rename_i kind stores
        have stays := avoids_storing contents storedOther stores
        exact IsTrans.trans _ _ _ conceals (conceals_write other ⟨stays, attributes⟩)
      · exact Std.Refl.refl heap

/-- The next item of an iterator is taken from its cell. -/
theorem conceals_next {h : Handle} (hides : heap.Hides g) (other : h ≠ g) :
    heap.Conceals g (heap.next h).2 ∧ ∀ item, (heap.next h).1 = .ok (some item) → item ≠ g := by
  unfold next
  split
  · exact ⟨Std.Refl.refl heap, by simp⟩
  · rename_i stub found
    have avoids := hides.cells _ _ found
    split
    · exact ⟨Std.Refl.refl heap, by simp⟩
    · rename_i step rest script
      have parts : ∀ k ∈ (Cell.stub { stub with script := rest } : Cell κ).handles,
          k ∈ (Cell.stub stub).handles := by
        intro k member
        simp only [Cell.handles, List.mem_cons, List.mem_append, script, List.flatMap_cons]
          at member ⊢
        exact member.imp_right (Or.imp_right Or.inr)
      have conceals : heap.Conceals g (heap.write h (.stub { stub with script := rest })) :=
        conceals_write other fun member => avoids (parts g member)
      split
      · refine ⟨conceals, ?_⟩
        rintro _ ⟨⟩
        rename_i item
        refine ne_of_mem_of_not_mem ?_ avoids.handles
        simp [Cell.handles, script, StubStep.handles]
      · exact ⟨conceals, by simp⟩
  · rename_i object found
    obtain ⟨contents, attributes⟩ := hides.cells _ _ found
    split
    · exact ⟨Std.Refl.refl heap, by simp⟩
    · rename_i item rest isIterator
      rw [isIterator] at contents
      have left : (Kind.iterator rest : Kind κ).Avoids g :=
        Kind.avoids_of_not_mem rfl (List.not_mem_of_not_mem_cons contents.handles)
      refine ⟨conceals_write other ⟨left, attributes⟩, ?_⟩
      rintro _ ⟨⟩
      exact ne_of_mem_of_not_mem List.mem_cons_self contents.handles
    · exact ⟨Std.Refl.refl heap, by simp⟩

/-! ### Exceptions and blueprints -/

theorem conceals_add {kind : Kind κ} {attributes : OrderedMap Handle} (hides : heap.Hides g)
    (own : kind.hostFunction? = none) (avoid : g ∉ kind.handles) (named : g ∉ attributes.values) :
    heap.Conceals g (heap.add kind attributes).2 ∧ (heap.add kind attributes).1 ≠ g :=
  ⟨conceals_push ⟨Kind.avoids_of_not_mem own avoid, named⟩, hides.fresh_ne⟩

/-- An exception comes as four cells, each of which holds at most the one before it. -/
theorem conceals_addException (hides : heap.Hides g) (kind message : String) :
    heap.Conceals g (heap.addException kind message).2 ∧
      (heap.addException kind message).1.Avoids g := by
  have unnamed : g ∉ (OrderedMap.empty : OrderedMap Handle).values := List.not_mem_nil
  have holding : ∀ {h : Handle}, h ≠ g → g ∉ [h] :=
    fun other => List.not_mem_cons_of_ne_of_not_mem other.symm List.not_mem_nil
  let type : Handle × Heap κ := heap.add (.type ⟨"builtins", kind⟩)
  obtain ⟨first, typeOther⟩ : heap.Conceals g type.2 ∧ type.1 ≠ g :=
    conceals_add hides rfl List.not_mem_nil unnamed
  let text : Handle × Heap κ := type.2.add (.string message)
  obtain ⟨second, textOther⟩ : type.2.Conceals g text.2 ∧ text.1 ≠ g :=
    conceals_add (first hides).1 rfl List.not_mem_nil unnamed
  have early : heap.Conceals g text.2 := IsTrans.trans _ _ _ first second
  let args : Handle × Heap κ := text.2.add (.tuple [text.1])
  obtain ⟨third, argsOther⟩ : text.2.Conceals g args.2 ∧ args.1 ≠ g :=
    conceals_add (early hides).1 rfl (holding textOther) unnamed
  have late : heap.Conceals g args.2 := IsTrans.trans _ _ _ early third
  let value : Handle × Heap κ :=
    args.2.add (.instanceOf type.1) (OrderedMap.ofEntries [("args", args.1)])
  obtain ⟨fourth, valueOther⟩ : args.2.Conceals g value.2 ∧ value.1 ≠ g :=
    conceals_add (late hides).1 rfl (holding typeOther) (holding argsOther)
  exact ⟨IsTrans.trans _ _ _ late fourth, typeOther, valueOther, List.not_mem_nil⟩

theorem conceals_raise (hides : heap.Hides g) (fault : Fault) :
    heap.Conceals g (heap.raise fault).2 ∧ (heap.raise fault).1.Avoids g := by
  unfold raise
  cases fault.report with
  | typeError message => exact ⟨Std.Refl.refl heap, trivial⟩
  | exception kind message => exact conceals_addException hides kind message

theorem conceals_create (hides : heap.Hides g) {blueprint : Blueprint κ}
    (avoids : blueprint.Avoids g) :
    heap.Conceals g (heap.create blueprint).2 ∧ (heap.create blueprint).1 ≠ g := by
  have unnamed : g ∉ (OrderedMap.empty : OrderedMap Handle).values := List.not_mem_nil
  cases blueprint with
  | list items => exact conceals_add hides rfl avoids unnamed
  | tuple items => exact conceals_add hides rfl avoids unnamed
  | dict entries => exact conceals_add hides rfl (not_mem_ofEntries avoids) unnamed
  | iterator items => exact conceals_add hides rfl avoids unnamed
  | type info attributes =>
      exact conceals_add hides rfl List.not_mem_nil (not_mem_ofEntries avoids)
  | module name attributes =>
      exact conceals_add hides rfl List.not_mem_nil (not_mem_ofEntries avoids)
  | stub stub => exact ⟨conceals_push avoids, hides.fresh_ne⟩
  | _ => exact conceals_add hides rfl List.not_mem_nil unnamed

end Heap

end Interop
