import Interop.Proofs.Heap.Reachability
/-!
What operations give. An operation on values that are apart from another gives values that are apart
from it, and shelters it.
-/

set_option autoImplicit false

namespace Interop

variable {κ α β : Type}

namespace OrderedMap

theorem mem_values_of_get? {m : OrderedMap α} {key : String} {value : α}
    (found : m.get? key = some value) : value ∈ m.values := by
  have inside : ∀ entries : Entries α, entries.get? key = some value →
      value ∈ entries.map Prod.snd := by
    intro entries found
    induction entries with
    | nil => cases found
    | cons entry rest ih =>
        rw [Entries.get?] at found
        split at found
        · cases found
          exact List.mem_cons_self
        · exact List.mem_cons_of_mem _ (ih found)
  exact inside m.entries found

theorem mem_values_entriesInsert {entries : Entries α} {key : String} {value new : α}
    (member : value ∈ (entries.insert key new).map Prod.snd) :
    value = new ∨ value ∈ entries.map Prod.snd := by
  induction entries with
  | nil => exact .inl (List.mem_singleton.mp member)
  | cons entry rest ih =>
      rw [Entries.insert] at member
      split at member
      · exact (List.mem_cons.mp member).imp_right (List.mem_cons_of_mem _)
      · rcases List.mem_cons.mp member with rfl | member
        · exact .inr List.mem_cons_self
        · exact (ih member).imp_right (List.mem_cons_of_mem _)

theorem mem_values_insert {m : OrderedMap α} {key : String} {value new : α}
    (member : value ∈ (m.insert key new).values) : value = new ∨ value ∈ m.values :=
  mem_values_entriesInsert member

theorem mem_values_entriesMerge {entries writes : Entries α} {value : α}
    (member : value ∈ (entries.merge writes).map Prod.snd) :
    value ∈ entries.map Prod.snd ∨ value ∈ writes.map Prod.snd := by
  induction writes generalizing entries with
  | nil => exact .inl member
  | cons write rest ih =>
      rcases ih member with member | member
      · rcases mem_values_entriesInsert member with rfl | member
        · exact .inr List.mem_cons_self
        · exact .inl member
      · exact .inr (List.mem_cons_of_mem _ member)

theorem mem_values_normalize {writes : Entries α} {value : α}
    (member : value ∈ (Entries.normalize writes).map Prod.snd) : value ∈ writes.map Prod.snd :=
  (mem_values_entriesMerge member).resolve_left List.not_mem_nil

theorem mem_values_ofEntries {writes : Entries α} {value : α}
    (member : value ∈ (ofEntries writes).values) : value ∈ writes.map Prod.snd :=
  mem_values_normalize member

end OrderedMap

/-- The values in what stands at a key. -/
def Item.handles : Item → List Handle
  | .object handle => [handle]
  | .byte _ => []
  | .listSection items => items
  | .tupleSection items => items

/-- The values in what stands behind an attribute name, the value that is asked apart. -/
def Attribute.handles : Attribute κ → List Handle
  | .object handle => [handle]
  | _ => []

namespace Heap

variable {g : Handle} {heap : Heap κ}

/-- From a heap on, an operation shelters `g` and gives something that has a property. -/
def Op.Yields (g : Handle) (op : Op κ α) (heap : Heap κ) (good : Heap κ → α → Prop) : Prop :=
  (heap.cell? g).isSome = true →
    ∀ a after, op.run heap = .ok (a, after) → heap.Shelters g after ∧ good after a

namespace Op

variable {good : Heap κ → α → Prop}

theorem yields_throw (fault : Fault) : Yields g (throw fault : Op κ α) heap good := by
  intro present a after finished
  cases finished

theorem yields_pure {a : α} (holds : good heap a) : Yields g (pure a : Op κ α) heap good := by
  intro present b after finished
  cases finished
  exact ⟨Std.Refl.refl heap, holds⟩

theorem yields_bind {x : Op κ α} {f : α → Op κ β} {good' : Heap κ → β → Prop}
    (hx : x.Yields g heap good)
    (hf : ∀ a mid, (∀ h, heap.Apart g h → mid.Apart g h) → good mid a → (f a).Yields g mid good') :
    (x >>= f).Yields g heap good' := by
  intro present b after finished
  obtain ⟨a, mid, first, second⟩ := bind_eq_ok_iff.mp finished
  obtain ⟨early, holds⟩ := hx present a mid first
  obtain ⟨late, holds'⟩ := hf a mid (early present).2 holds (early.present present) b after second
  exact ⟨IsTrans.trans _ _ _ early late, holds'⟩

theorem yields_get_bind {f : Heap κ → Op κ α} (rest : (f heap).Yields g heap good) :
    (get >>= f).Yields g heap good := rest

theorem yields_liftExcept_bind {x : Except Fault α} {f : α → Op κ β} {good : Heap κ → β → Prop}
    (rest : ∀ a, x = .ok a → (f a).Yields g heap good) :
    ((liftM x : Op κ α) >>= f).Yields g heap good := by
  cases x with
  | error fault => exact yields_throw fault
  | ok a => exact rest a rfl

theorem yields_alloc {kind : Kind κ} (apart : heap.AllApart g kind.handles) :
    (alloc kind).Yields g heap (Apart g) := by
  intro present h after finished
  cases finished
  exact ⟨shelters_push heap _,
    apart_fresh present (List.forall_mem_append.mpr ⟨apart, List.forall_mem_nil _⟩)⟩

/-- A value that holds no others is apart from every other. -/
theorem yields_alloc_plain {kind : Kind κ} (plain : kind.handles = []) :
    (alloc kind).Yields g heap (Apart g) := by
  apply yields_alloc
  rw [plain]
  exact List.forall_mem_nil _

end Op

/-! ### Reading -/

/-- A part of a sequence comes from its items. -/
theorem mem_of_sequencePart {sequence : String} {items : List Handle} {key : Arg κ}
    {part : Handle ⊕ List Handle} (stands : heap.sequencePart sequence items key = .ok part) :
    ∀ k ∈ part.elim (fun item => [item]) id, k ∈ items := by
  unfold sequencePart at stands
  split at stands
  · split at stands
    · rename_i item found
      cases stands
      obtain ⟨position, _, found⟩ := Option.bind_eq_some_iff.mp found
      exact List.forall_mem_singleton.mpr (List.mem_of_getElem? found)
    · cases stands
  · split at stands
    · rename_i start stop step read
      cases positions : slicePositions items.length start stop step with
      | error fault =>
          rw [positions] at stands
          cases stands
      | ok positions' =>
          rw [positions] at stands
          cases stands
          intro k member
          obtain ⟨position, _, found⟩ := List.mem_filterMap.mp member
          exact List.mem_of_getElem? found
    · cases stands
  · cases stands

theorem mem_of_itemPart {sequence : String} {items : List Handle} {key : Arg κ} {item : Item}
    {section_ : List Handle → Item} (holds : ∀ part, (section_ part).handles = part)
    (stands : (do
      match ← heap.sequencePart sequence items key with
      | .inl item => return .object item
      | .inr part => return section_ part : Except Fault Item) = .ok item) :
    ∀ k ∈ item.handles, k ∈ items := by
  cases parts : heap.sequencePart sequence items key with
  | error fault =>
      rw [parts] at stands
      cases stands
  | ok part =>
      rw [parts] at stands
      cases part with
      | inl item =>
          cases stands
          exact mem_of_sequencePart parts
      | inr part =>
          cases stands
          rw [holds]
          exact mem_of_sequencePart parts

theorem points_of_item {h : Handle} {key : Arg κ} {item : Item}
    (stands : heap.item h key = .ok item) : ∀ k ∈ item.handles, heap.Points h k := by
  unfold Heap.item at stands
  split at stands
  · cases stands
  · rename_i stub found
    split at stands
    · split at stands
      · rename_i index item read
        cases stands
        refine List.forall_mem_singleton.mpr ⟨_, found, List.mem_cons_of_mem _ ?_⟩
        rw [List.append_assoc]
        split at read
        · cases read
        · exact List.mem_append_left _ (List.mem_of_getElem? read)
      · cases stands
    · cases stands
  · rename_i object found
    have elements : ∀ k ∈ object.kind.handles, heap.Points h k := fun k member =>
      ⟨_, found, List.mem_append_left _ member⟩
    split at stands
    · rename_i items isList
      rw [isList] at elements
      exact fun k member => elements k (mem_of_itemPart (fun _ => rfl) stands k member)
    · rename_i items isTuple
      rw [isTuple] at elements
      exact fun k member => elements k (mem_of_itemPart (fun _ => rfl) stands k member)
    · split at stands
      · cases stands
        exact List.forall_mem_nil _
      · cases stands
    · rename_i entries key isDict plain
      rw [isDict] at elements
      split at stands
      · rename_i value read
        cases stands
        exact List.forall_mem_singleton.mpr (elements value (OrderedMap.mem_values_of_get? read))
      · cases stands
    · cases stands
    · cases stands

theorem mem_of_fixedAttribute? {kind : Kind κ} {name : String} {found : Attribute κ}
    (fixed : kind.fixedAttribute? name = some found) : ∀ k ∈ found.handles, k ∈ kind.handles := by
  unfold Kind.fixedAttribute? at fixed
  split at fixed
  -- names and modules are texts: the one value among these is the class of an instance
  any_goals
    cases fixed
    exact List.forall_mem_nil _
  · obtain ⟨method, _, rfl⟩ := Option.map_eq_some_iff.mp fixed
    exact List.forall_mem_nil _
  · obtain ⟨method, _, rfl⟩ := Option.map_eq_some_iff.mp fixed
    exact List.forall_mem_nil _
  · cases fixed
    exact fun k member => member
  · cases fixed

theorem reaches_of_inheritedAttribute? {kind : Kind κ} {name : String} {found : Attribute κ}
    (inherited : heap.inheritedAttribute? kind name = some found) :
    ∃ cls, kind = .instanceOf cls ∧ ∀ k ∈ found.handles, heap.Reaches cls k := by
  unfold inheritedAttribute? at inherited
  split at inherited
  · rename_i cls
    refine ⟨cls, rfl, ?_⟩
    split at inherited
    · rename_i value read
      obtain ⟨object, present, own⟩ := Option.bind_eq_some_iff.mp read
      have points : heap.Points cls value := ⟨_, cell?_of_object? present,
        List.mem_append_right _ (OrderedMap.mem_values_of_get? own)⟩
      split at inherited
      · cases inherited
        exact List.forall_mem_nil _
      · cases inherited
        intro k member
        rw [List.mem_singleton.mp member]
        exact .single points
    · split at inherited
      · cases inherited
        exact List.forall_mem_nil _
      · cases inherited
  · cases inherited

/-- What stands behind an attribute name is held by the value itself or by its class. -/
theorem reaches_of_attribute? {h : Handle} {name : String} {found : Attribute κ}
    (stands : heap.attribute? h name = some found) : ∀ k ∈ found.handles, heap.Reaches h k := by
  unfold attribute? at stands
  split at stands
  · cases stands
  · rename_i stub content
    obtain ⟨value, read, rfl⟩ := Option.map_eq_some_iff.mp stands
    refine List.forall_mem_singleton.mpr ?_
    refine .single ⟨_, content, List.mem_cons_of_mem _ (List.mem_append_left _ ?_)⟩
    exact List.mem_append_right _ (OrderedMap.mem_values_of_get? read)
  · rename_i object content
    have holds : ∀ k, k ∈ object.kind.handles ++ object.attributes.values → heap.Points h k :=
      fun k member => ⟨_, content, member⟩
    cases fixed : object.kind.fixedAttribute? name with
    | some attribute' =>
        rw [fixed] at stands
        cases stands
        intro k member
        refine .single (holds k (List.mem_append_left _ ?_))
        exact mem_of_fixedAttribute? fixed k member
    | none =>
        rw [fixed] at stands
        cases own : object.attributes.get? name with
        | some value =>
            rw [own] at stands
            cases stands
            refine List.forall_mem_singleton.mpr (.single (holds value ?_))
            exact List.mem_append_right _ (OrderedMap.mem_values_of_get? own)
        | none =>
            rw [own] at stands
            obtain ⟨cls, isInstance, reaches⟩ := reaches_of_inheritedAttribute? stands
            intro k member
            refine .head (holds cls (List.mem_append_left _ ?_)) (reaches k member)
            rw [isInstance]
            exact List.mem_singleton_self cls

theorem yields_getItem {h : Handle} (key : Arg κ) (apart : heap.Apart g h) :
    (getItem h key).Yields g heap (Apart g) := by
  apply Op.yields_get_bind
  split
  · exact Op.yields_throw _
  · rename_i value stands
    exact Op.yields_pure (apart.points (points_of_item stands value List.mem_cons_self))
  · exact Op.yields_alloc_plain rfl
  · rename_i items stands
    exact Op.yields_alloc fun k member => apart.points (points_of_item stands k member)
  · rename_i items stands
    exact Op.yields_alloc fun k member => apart.points (points_of_item stands k member)

theorem yields_getAttr {h : Handle} (name : String) (apart : heap.Apart g h) :
    (getAttr h name).Yields g heap (Apart g) := by
  apply Op.yields_get_bind
  split
  · exact Op.yields_alloc_plain rfl
  · rename_i value stands
    exact Op.yields_pure (apart.reaches (reaches_of_attribute? stands value List.mem_cons_self))
  · exact Op.yields_alloc (List.forall_mem_singleton.mpr apart)
  · exact Op.yields_throw _

theorem yields_typeOf {h : Handle} (apart : heap.Apart g h) :
    (typeOf h : Op κ Handle).Yields g heap (Apart g) := by
  apply Op.yields_get_bind
  split
  · exact Op.yields_throw _
  · rename_i stub found
    exact Op.yields_pure (apart.handles found _ List.mem_cons_self)
  · rename_i object found
    split
    · rename_i cls isInstance
      refine Op.yields_pure (apart.handles found cls (List.mem_append_left _ ?_))
      rw [isInstance]
      exact List.mem_singleton_self cls
    · exact Op.yields_alloc_plain rfl

/-! ### Making -/

mutual

theorem yields_marshal : (arg : Arg κ) → {heap : Heap κ} → heap.AllApart g arg.handles →
    (marshal arg).Yields g heap (Apart g)
  | .none, _, _ => Op.yields_alloc_plain rfl
  | .bool _, _, _ => Op.yields_alloc_plain rfl
  | .int _, _, _ => Op.yields_alloc_plain rfl
  | .big value, _, _ => by
      rw [marshal]
      cases word? value with
      | some small => exact Op.yields_alloc_plain rfl
      | none => exact Op.yields_throw _
  | .float _, _, _ => Op.yields_alloc_plain rfl
  | .string _, _, _ => Op.yields_alloc_plain rfl
  | .list items, _, apart => by
      rw [marshal]
      exact Op.yields_bind (yields_marshalAll items apart) fun _ _ _ made => Op.yields_alloc made
  | .dict entries, _, apart => by
      rw [marshal]
      exact Op.yields_bind (yields_marshalEntries entries apart) fun _ _ _ made =>
        Op.yields_alloc fun k member => made k (OrderedMap.mem_values_ofEntries member)
  | .keywords entries, _, apart => by
      rw [marshal]
      exact Op.yields_bind (yields_marshalEntries entries apart) fun _ _ _ made =>
        Op.yields_alloc fun k member => made k (OrderedMap.mem_values_ofEntries member)
  | .handle h, _, apart => Op.yields_pure (apart h List.mem_cons_self)
  | .bytes _, _, _ => Op.yields_alloc_plain rfl
  | .callback _, _, _ => Op.yields_alloc_plain rfl

theorem yields_marshalAll : (args : List (Arg κ)) → {heap : Heap κ} →
    heap.AllApart g (Arg.handlesAll args) → (marshalAll args).Yields g heap (AllApart g)
  | [], _, _ => Op.yields_pure (List.forall_mem_nil _)
  | arg :: rest, heap, apart => by
      rw [marshalAll]
      refine Op.yields_bind (yields_marshal arg fun k member => ?_) fun first mid kept made => ?_
      · exact apart k (List.mem_append_left _ member)
      refine Op.yields_bind (yields_marshalAll rest fun k member => ?_)
        fun others last kept' all => ?_
      · exact kept k (apart k (List.mem_append_right _ member))
      exact Op.yields_pure (List.forall_mem_cons.mpr ⟨kept' first made, all⟩)

theorem yields_marshalEntries : (entries : List (String × Arg κ)) → {heap : Heap κ} →
    heap.AllApart g (Arg.handlesEntries entries) →
    (marshalEntries entries).Yields g heap fun heap made => heap.AllApart g (made.map Prod.snd)
  | [], _, _ => Op.yields_pure (List.forall_mem_nil _)
  | (key, arg) :: rest, heap, apart => by
      rw [marshalEntries]
      refine Op.yields_bind (yields_marshal arg fun k member => ?_) fun first mid kept made => ?_
      · exact apart k (List.mem_append_left _ member)
      refine Op.yields_bind (yields_marshalEntries rest fun k member => ?_)
        fun others last kept' all => ?_
      · exact kept k (apart k (List.mem_append_right _ member))
      exact Op.yields_pure (List.forall_mem_cons.mpr ⟨kept' first made, all⟩)

end

theorem yields_allocStrings : (texts : List String) → {heap : Heap κ} →
    (allocStrings texts).Yields g heap (AllApart g)
  | [], _ => Op.yields_pure (List.forall_mem_nil _)
  | text :: rest, heap => by
      rw [allocStrings]
      refine Op.yields_bind (Op.yields_alloc_plain rfl) fun first mid kept made => ?_
      refine Op.yields_bind (yields_allocStrings rest) fun others last kept' all => ?_
      exact Op.yields_pure (List.forall_mem_cons.mpr ⟨kept' first made, all⟩)

theorem yields_allocPairs : (entries : Entries Handle) → {heap : Heap κ} →
    heap.AllApart g (entries.map Prod.snd) → (allocPairs entries).Yields g heap (AllApart g)
  | [], _, _ => Op.yields_pure (List.forall_mem_nil _)
  | (key, value) :: rest, heap, apart => by
      rw [allocPairs]
      refine Op.yields_bind (Op.yields_alloc_plain rfl) fun text mid kept made => ?_
      have valueApart : mid.Apart g value := kept value (apart value List.mem_cons_self)
      have pairApart : mid.AllApart g [text, value] :=
        List.forall_mem_cons.mpr ⟨made, List.forall_mem_singleton.mpr valueApart⟩
      refine Op.yields_bind (Op.yields_alloc pairApart) fun pair last kept' paired => ?_
      refine Op.yields_bind (yields_allocPairs rest fun k member => ?_)
        fun pairs final kept'' all => ?_
      · exact kept' k (kept k (apart k (List.mem_cons_of_mem _ member)))
      exact Op.yields_pure (List.forall_mem_cons.mpr ⟨kept'' pair paired, all⟩)

/-! ### The runtime's own functions -/

theorem apart_onlyArgument {function : String} {args : List Handle} {arg : Handle}
    (apart : heap.AllApart g args) (only : onlyArgument function args = .ok arg) :
    heap.Apart g arg := by
  unfold onlyArgument at only
  split at only
  · cases only
    exact apart arg List.mem_cons_self
  · cases only

theorem Apart.kind {h : Handle} {kind : Kind κ} (apart : heap.Apart g h)
    (read : heap.kind? h = some kind) : heap.AllApart g kind.handles := by
  obtain ⟨object, present, rfl⟩ := Option.map_eq_some_iff.mp read
  exact fun k member => apart.handles (cell?_of_object? present) k (List.mem_append_left _ member)

theorem yields_builtinIter {args : List Handle} (apart : heap.AllApart g args) :
    (builtinIter args : Op κ Handle).Yields g heap (Apart g) := by
  refine Op.yields_liftExcept_bind fun arg only => Op.yields_get_bind ?_
  have argApart := apart_onlyArgument apart only
  split
  · exact Op.yields_throw _
  · exact Op.yields_pure argApart
  · rename_i items read
    have contents : heap.AllApart g (Kind.list items : Kind κ).handles := argApart.kind read
    exact Op.yields_alloc contents
  · rename_i items read
    have contents : heap.AllApart g (Kind.tuple items : Kind κ).handles := argApart.kind read
    exact Op.yields_alloc contents
  · exact Op.yields_bind (yields_allocStrings _) fun _ _ _ made => Op.yields_alloc made
  · exact Op.yields_bind (yields_allocStrings _) fun _ _ _ made => Op.yields_alloc made
  · exact Op.yields_throw _

theorem yields_builtinSlice (args : List Handle) :
    (builtinSlice args : Op κ Handle).Yields g heap (Apart g) := by
  apply Op.yields_get_bind
  split
  · exact Op.yields_liftExcept_bind fun _ _ => Op.yields_alloc_plain rfl
  · exact Op.yields_liftExcept_bind fun _ _ => Op.yields_liftExcept_bind fun _ _ =>
      Op.yields_alloc_plain rfl
  · exact Op.yields_liftExcept_bind fun _ _ => Op.yields_liftExcept_bind fun _ _ =>
      Op.yields_liftExcept_bind fun _ _ => Op.yields_alloc_plain rfl
  · exact Op.yields_throw _

theorem yields_callBuiltin (builtin : Builtin) {args : List Handle}
    (apart : heap.AllApart g args) :
    (callBuiltin builtin args : Op κ Handle).Yields g heap (Apart g) := by
  cases builtin with
  | len =>
      refine Op.yields_liftExcept_bind fun arg only => Op.yields_get_bind ?_
      split
      · exact Op.yields_throw _
      · exact Op.yields_liftExcept_bind fun _ _ => Op.yields_alloc_plain rfl
  | slice => exact yields_builtinSlice args
  | type =>
      exact Op.yields_liftExcept_bind fun arg only => yields_typeOf (apart_onlyArgument apart only)
  | iter => exact yields_builtinIter apart
  | str =>
      exact Op.yields_liftExcept_bind fun arg _ => Op.yields_get_bind
        (Op.yields_liftExcept_bind fun _ _ => Op.yields_alloc_plain rfl)

theorem yields_callInitializer (args : List Handle) (keywords : OrderedMap Handle) :
    (callInitializer args keywords : Op κ Handle).Yields g heap (Apart g) := by
  unfold callInitializer
  split
  · exact Op.yields_throw _
  · exact Op.yields_alloc_plain rfl

/-- Giving a value that is apart other contents that are apart, and going on from there. -/
theorem yields_replaceKind_bind {receiver : Handle} {object : HeapObject κ} {kind : Kind κ}
    {rest : Op κ α} {good : Heap κ → α → Prop} (apart : heap.Apart g receiver)
    (read : heap.object? receiver = some object) (handles : heap.AllApart g kind.handles)
    (yields : ∀ mid, (∀ h, heap.Apart g h → mid.Apart g h) → rest.Yields g mid good) :
    (replaceKind receiver object kind >>= fun _ => rest).Yields g heap good := by
  have replaced : (replaceKind receiver object kind).Yields g heap fun _ _ => True := by
    intro present a after finished
    cases finished
    have attributes : heap.AllApart g object.attributes.values := fun k member =>
      apart.handles (cell?_of_object? read) k (List.mem_append_right _ member)
    exact ⟨shelters_write apart (List.forall_mem_append.mpr ⟨handles, attributes⟩), trivial⟩
  exact Op.yields_bind replaced fun _ mid kept _ => yields mid kept

theorem yields_callContainer (method : ContainerMethod) {receiver : Handle} {args : List Handle}
    (apart : heap.Apart g receiver) (argsApart : heap.AllApart g args) :
    (callContainer method receiver args : Op κ Handle).Yields g heap (Apart g) := by
  apply Op.yields_get_bind
  split
  · exact Op.yields_throw _
  · rename_i object read
    have contents : heap.AllApart g object.kind.handles := fun k member =>
      apart.handles (cell?_of_object? read) k (List.mem_append_left _ member)
    split
    · rename_i entries isDict
      rw [isDict] at contents
      exact Op.yields_alloc contents
    · exact Op.yields_bind (yields_allocStrings _) fun _ _ _ made => Op.yields_alloc made
    · rename_i entries isDict
      rw [isDict] at contents
      exact Op.yields_alloc contents
    · rename_i entries isDict
      rw [isDict] at contents
      exact Op.yields_bind (yields_allocPairs _ contents) fun _ _ _ made => Op.yields_alloc made
    · rename_i entries isDict
      rw [isDict] at contents
      split
      · exact Op.yields_throw _
      · rename_i key defaults
        dsimp only
        split
        · rename_i value found
          refine Op.yields_pure (contents value ?_)
          split at found
          · exact OrderedMap.mem_values_of_get? found
          · cases found
        · exact Op.yields_pure (argsApart _ (List.mem_cons_of_mem _ List.mem_cons_self))
        · exact Op.yields_alloc_plain rfl
    · rename_i items isList
      rw [isList] at contents
      split
      · exact Op.yields_throw _
      · rename_i item others
        have itemApart : heap.Apart g item := argsApart item List.mem_cons_self
        have extended : heap.AllApart g (Kind.list (items ++ [item]) : Kind κ).handles :=
          List.forall_mem_append.mpr ⟨contents, List.forall_mem_singleton.mpr itemApart⟩
        exact yields_replaceKind_bind apart read extended fun mid kept => Op.yields_alloc_plain rfl
    · rename_i items isList
      rw [isList] at contents
      exact Op.yields_alloc contents
    · rename_i items isList
      rw [isList] at contents
      split
      · exact Op.yields_throw _
      · rename_i last isLast
        have shortened : heap.AllApart g (Kind.list items.dropLast : Kind κ).handles :=
          fun k member => contents k (List.dropLast_subset items member)
        have lastApart : heap.Apart g last := contents last (List.mem_of_getLast? isLast)
        exact yields_replaceKind_bind apart read shortened fun mid kept =>
          Op.yields_pure (kept last lastApart)
    · exact Op.yields_throw _

/-! ### Setting -/

/-- Making an argument's value and writing it into an object that is apart. -/
theorem shelters_marshal_write {h stored : Handle} {value : Arg κ} {object : HeapObject κ}
    {mid : Heap κ} {cell : Cell κ} (apart : heap.Apart g h)
    (valueApart : heap.AllApart g value.handles) (found : heap.cell? h = some (.object object))
    (marshalled : (marshal value).run heap = .ok (stored, mid))
    (holds : ∀ k ∈ cell.handles, k = stored ∨ k ∈ (Cell.object object).handles) :
    heap.Shelters g (mid.write h cell) := by
  intro present
  obtain ⟨grown, storedApart⟩ := yields_marshal value valueApart present stored mid marshalled
  have kept : ∀ k, heap.Apart g k → mid.Apart g k := (grown present).2
  have held : mid.AllApart g cell.handles := by
    intro k member
    rcases holds k member with rfl | member
    · exact storedApart
    · exact kept k (apart.handles found k member)
  exact IsTrans.trans _ _ _ grown (shelters_write (kept h apart) held) present

theorem shelters_setAttr {h : Handle} (name : String) {value : Arg κ} (apart : heap.Apart g h)
    (valueApart : heap.AllApart g value.handles) :
    heap.Shelters g (heap.setAttr h name value).2 := by
  unfold setAttr
  split
  · exact Std.Refl.refl heap
  · exact Std.Refl.refl heap
  · rename_i object found
    split
    · split
      · rename_i stored mid marshalled
        refine shelters_marshal_write apart valueApart found marshalled fun k member => ?_
        rcases List.mem_append.mp member with member | member
        · exact .inr (List.mem_append_left _ member)
        · exact (OrderedMap.mem_values_insert member).imp_right (List.mem_append_right _)
      · exact Std.Refl.refl heap
    · exact Std.Refl.refl heap

theorem mem_of_storing {kind changed : Kind κ} {key : Arg κ} {stored k : Handle}
    (stores : kind.storing key stored = some changed) (member : k ∈ changed.handles) :
    k = stored ∨ k ∈ kind.handles := by
  unfold Kind.storing at stores
  split at stores
  · obtain ⟨position, _, rfl⟩ := Option.map_eq_some_iff.mp stores
    exact (List.mem_or_eq_of_mem_set member).symm
  · cases stores
    exact OrderedMap.mem_values_insert member
  · cases stores

theorem shelters_setItem {h : Handle} (key : Arg κ) {value : Arg κ} (apart : heap.Apart g h)
    (valueApart : heap.AllApart g value.handles) :
    heap.Shelters g (heap.setItem h key value).2 := by
  unfold setItem
  split
  · exact Std.Refl.refl heap
  · exact Std.Refl.refl heap
  · rename_i object found
    split
    · exact Std.Refl.refl heap
    · rename_i stored mid marshalled
      split
      · rename_i kind stores
        refine shelters_marshal_write apart valueApart found marshalled fun k member => ?_
        rcases List.mem_append.mp member with member | member
        · exact (mem_of_storing stores member).imp_right (List.mem_append_left _)
        · exact .inr (List.mem_append_right _ member)
      · exact Std.Refl.refl heap

end Heap

end Interop
