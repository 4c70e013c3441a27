import Interop.Proofs.Sequence.Operations
/-!
Lists refine mutable sequences. Every operation on lists finishes, with the answer of the edit that
it is, and the lists it leaves are the sequences that the edit leaves; so the lists of any history
of operations are those of a run of edits.
-/

set_option autoImplicit false

namespace Interop

open Machine (layer answer runProgram)

variable {κ σ : Type}

/-! ### Methods of lists -/

namespace Heap

variable {heap : Heap κ} {h : Handle} {items : List Handle} {attributes : OrderedMap Handle}

theorem callContainer_append (found : heap.cell? h = some (.object ⟨.list items, attributes⟩))
    (item : Handle) :
    (callContainer .append h [item]).run heap = .ok (heap.fresh,
      (heap.write h (.object ⟨.list (items ++ [item]), attributes⟩)).push
        (.object ⟨.none, .empty⟩)) := by
  have size : (heap.write h (.object ⟨.list (items ++ [item]), attributes⟩)).fresh =
      heap.fresh := by
    simp [fresh, write]
  unfold callContainer
  rw [Op.run_get_bind, object?_of_cell? found, ← size]
  rfl

theorem callContainer_append_nothing
    (found : heap.cell? h = some (.object ⟨.list items, attributes⟩)) :
    (callContainer .append h []).run heap = .error .appendWithoutItem := by
  unfold callContainer
  rw [Op.run_get_bind, object?_of_cell? found]
  rfl

theorem callContainer_pop (found : heap.cell? h = some (.object ⟨.list items, attributes⟩))
    {last : Handle} (nonempty : items.getLast? = some last) :
    (callContainer .pop h []).run heap = .ok (last,
      heap.write h (.object ⟨.list items.dropLast, attributes⟩)) := by
  unfold callContainer
  rw [Op.run_get_bind, object?_of_cell? found]
  dsimp only
  rw [nonempty]
  rfl

theorem callContainer_pop_empty (found : heap.cell? h = some (.object ⟨.list items, attributes⟩))
    (empty : items.getLast? = none) :
    (callContainer .pop h []).run heap = .error .popFromEmpty := by
  unfold callContainer
  rw [Op.run_get_bind, object?_of_cell? found]
  dsimp only
  rw [empty]
  rfl

theorem callContainer_copy (found : heap.cell? h = some (.object ⟨.list items, attributes⟩)) :
    (callContainer .copy h []).run heap =
      .ok (heap.fresh, heap.push (.object ⟨.list items, .empty⟩)) := by
  unfold callContainer
  rw [Op.run_get_bind, object?_of_cell? found]
  rfl

theorem callBuiltin_iter (found : heap.kind? h = some (.list items)) :
    (callBuiltin .iter [h]).run heap =
      .ok (heap.fresh, heap.push (.object ⟨.iterator items, .empty⟩)) := by
  refine Op.bind_eq_ok_iff.mpr ⟨h, heap, rfl, ?_⟩
  refine Op.bind_eq_ok_iff.mpr ⟨heap, heap, rfl, ?_⟩
  rw [found]
  rfl

theorem applyOperator_add {left right : Handle} {front back : List Handle}
    (foundLeft : heap.kind? left = some (.list front))
    (foundRight : heap.kind? right = some (.list back)) :
    (Script.applyOperator .add left right).run heap =
      .ok (heap.fresh, heap.push (.object ⟨.list (front ++ back), .empty⟩)) := by
  refine Op.bind_eq_ok_iff.mpr ⟨heap, heap, rfl, ?_⟩
  rw [foundLeft, foundRight]
  rfl

end Heap

namespace Machine

variable (host : Host κ σ) (below : Handler κ σ) {world : World κ σ} {h : Handle}

theorem run_next {item : Option Handle} {heap : Heap κ}
    (given : world.heap.next h = (.ok item, heap)) :
    (runProgram (layer host below) h.next).run world =
      some (.ok item, { world with heap := heap }) := by
  have isNext : (runProgram (layer host below) h.next : Exec κ σ _).run = Machine.next h :=
    Interaction.run_ask _ (.next h)
  have taken : Run.onHeap (·.next h) world =
      some (.ok item, ({ world with heap := heap } : World κ σ)) := by
    unfold Run.onHeap
    dsimp only
    rw [given]
  rw [isNext]
  exact Run.bind_eq_some_iff.mpr ⟨.ok item, _, taken, rfl⟩

/-- Nothing is appended if there is no value, or none that can be made. -/
theorem run_append_nothing {items : List Handle} {value : Arg κ}
    (found : world.heap.kind? h = some (.list items))
    (nothing : world.heap.appended? h value = none) :
    ∃ error after, (runProgram (layer host below) (h.callMethod "append" [value])).run world =
      some (.error error, after) ∧ world.heap.Extends after.heap := by
  have has := Heap.hasMethod_of_list found .append rfl
  have bound := Heap.extends_withMethod world.heap h .append
  have run := run_callMethod host below has [value]
  rw [show h.callMethod "append" [value] = h.callMethod ContainerMethod.append.name [value]
    from rfl, run]
  by_cases positional : value.isPositional = true
  · rw [Heap.appended?, if_pos positional] at nothing
    cases marshalled : (Heap.marshal value).run (world.heap.withMethod h .append) with
    | ok pair =>
        rw [Heap.made?_eq_some_iff.mpr ⟨pair.2, marshalled⟩] at nothing
        cases nothing
    | error fault =>
        have refused : (Heap.marshalAll [value]).run (world.heap.withMethod h .append) =
            .error fault := Heap.Op.run_bind_of_error marshalled
        rw [Arg.splitKeywords_singleton positional, Exec.run_ofOp_bind_of_error refused]
        exact ⟨_, _, rfl, bound.trans (Heap.extends_raise _ fault)⟩
  · have noItem : (Arg.splitKeywords [value]).1 = [] := by
      simp [Arg.splitKeywords, positional]
    let called : World κ σ := { world with heap := world.heap.withMethod h .append }
    have none : (Heap.marshalAll [] : Heap.Op κ _).run called.heap = .ok ([], called.heap) := rfl
    rw [noItem, Exec.run_ofOp_bind_of_ok none]
    cases marshalled : (Heap.marshalEntries (Arg.splitKeywords [value]).2).run called.heap with
    | error fault =>
        rw [Exec.run_ofOp_bind_of_error marshalled]
        exact ⟨_, _, rfl, bound.trans (Heap.extends_raise _ fault)⟩
    | ok pair =>
        have more : (world.heap.withMethod h .append).Extends pair.2 :=
          Heap.moves_marshalEntries _ _ _ _ marshalled
        obtain ⟨attributes, present⟩ := Heap.cell?_of_kind? found
        have refused := Heap.callContainer_append_nothing (more _ _ (bound _ _ present))
        rw [Exec.run_ofOp_bind_of_ok marshalled]
        exact ⟨_, _, Run.attempt_of_error refused,
          (bound.trans more).trans (Heap.extends_raise _ _)⟩

end Machine

/-! ### Single operations -/

namespace Operation

/-- Whether an operation finishes, with the answer of the edit that it is, and leaves what the edit
leaves. A refused operation does nothing but make objects. -/
def Refines (op : Operation κ) (handler : Handler κ σ) (world : World κ σ) : Prop :=
  ∃ answer after, op.perform handler world = some (answer, after) ∧
    world.heap.sequences.Step (op.edit world.heap) answer after.heap.sequences ∧
    (answer = none → world.heap.Extends after.heap)

variable {host : Host κ σ} {below handler : Handler κ σ} {world after : World κ σ}
  {op : Operation κ}

theorem refines_of_refused (performed : op.perform handler world = some (none, after))
    (refused : ∀ new, world.heap.sequences.effect new (op.edit world.heap) = none)
    (extends_ : world.heap.Extends after.heap) : op.Refines handler world :=
  ⟨none, after, performed, .refused refused extends_.grows, fun _ => extends_⟩

theorem refines_of_done {new : Handle} {answer : Answer}
    (performed : op.perform handler world = some (some answer, after))
    (isNew : world.heap.sequences new = none) (contents : Option Contents)
    (effect : world.heap.sequences.effect new (op.edit world.heap) = some (answer, contents))
    (grows : (world.heap.sequences.received new (op.edit world.heap) contents).Grows
      after.heap.sequences) : op.Refines handler world :=
  ⟨some answer, after, performed, .done isNew effect grows, nofun⟩

variable {list : Handle} {items : List Handle}

/-- An operation that makes a sequence or a queue. -/
theorem refines_of_made {mid : Heap κ} {contents : Contents} (extends_ : world.heap.Extends mid)
    (kind : Kind κ) (isContents : kind.contents? = some contents)
    (changesNothing : (op.edit world.heap).changes? = none)
    (performed : op.perform handler world = some (some (.item mid.fresh),
      { world with heap := mid.push (.object ⟨kind, .empty⟩) }))
    (effect : world.heap.sequences.effect mid.fresh (op.edit world.heap) =
      some (.item mid.fresh, some contents)) : op.Refines handler world := by
  refine refines_of_done performed (Heap.sequences_fresh extends_) _ effect ?_
  unfold Sequences.received
  rw [changesNothing]
  exact Heap.grows_push extends_ isContents

/-- An operation that changes the sequence or queue it is on. -/
theorem refines_of_changed {object : HeapObject κ} {h : Handle} {mid : Heap κ} {answer : Answer}
    {contents : Contents} (found : world.heap.cell? h = some (.object object))
    (extends_ : world.heap.Extends mid) (kind : Kind κ)
    (isContents : kind.contents? = some contents)
    (changes : (op.edit world.heap).changes? = some h)
    (performed : op.perform handler world = some (some answer, after))
    (written : (mid.write h (.object { object with kind := kind })).Extends after.heap)
    (effect : ∀ new, world.heap.sequences.effect new (op.edit world.heap) =
      some (answer, some contents)) : op.Refines handler world := by
  have isNew := Heap.sequences_fresh (Heap.Extends.refl world.heap)
  refine refines_of_done performed isNew _ (effect _) ?_
  unfold Sequences.received
  rw [changes]
  exact (Heap.grows_write extends_ found isContents).trans written.grows

theorem refines_copy (found : world.heap.kind? list = some (.list items)) :
    (Operation.copy list : Operation κ).Refines (layer host below) world := by
  obtain ⟨attributes, present⟩ := Heap.cell?_of_kind? found
  have extends_ := Heap.extends_withMethod world.heap list .copy
  have called := Heap.callContainer_copy (extends_ _ _ present)
  have run := Machine.run_callMethod_nil host below
    (Heap.hasMethod_of_list found .copy rfl)
  apply refines_of_made extends_ (.list items) rfl rfl
  · exact report_of_ok (run.trans (Run.attempt_of_ok called))
  · simp [edit, Sequences.effect, Heap.list?_sequences found]

theorem refines_concat {left right : Handle} {front back : List Handle}
    (foundLeft : world.heap.kind? left = some (.list front))
    (foundRight : world.heap.kind? right = some (.list back)) :
    (Operation.concat left right : Operation κ).Refines (layer host below) world := by
  have added := Heap.applyOperator_add foundLeft foundRight
  apply refines_of_made (.refl world.heap) (.list (front ++ back)) rfl rfl
  · exact report_of_ok (Run.attempt_of_ok added)
  · simp [edit, Sequences.effect, Heap.list?_sequences foundLeft, Heap.list?_sequences foundRight]

theorem refines_iterate (hasIter : world.HasBuiltin .iter)
    (found : world.heap.kind? list = some (.list items)) :
    (Operation.iterate list : Operation κ).Refines (layer host below) world := by
  have run := Machine.run_callBuiltin host below hasIter (Heap.callBuiltin_iter found)
  apply refines_of_made (.refl world.heap) (.iterator items) rfl rfl
  · exact report_of_ok run
  · simp [edit, Sequences.effect, Heap.list?_sequences found]

theorem refines_pop (found : world.heap.kind? list = some (.list items)) :
    (Operation.pop list : Operation κ).Refines (layer host below) world := by
  obtain ⟨attributes, present⟩ := Heap.cell?_of_kind? found
  have extends_ := Heap.extends_withMethod world.heap list .pop
  have run := Machine.run_callMethod_nil host below
    (Heap.hasMethod_of_list found .pop rfl)
  cases ends : items.getLast? with
  | none =>
      have refused := Heap.callContainer_pop_empty (extends_ _ _ present) ends
      have performed : (Operation.pop list : Operation κ).perform (layer host below) world =
          some (none, _) := report_of_error (run.trans (Run.attempt_of_error refused))
      refine refines_of_refused performed ?_ (extends_.trans (Heap.extends_raise _ _))
      simp [edit, Sequences.effect, Heap.list?_sequences found, ends]
  | some last =>
      have called := Heap.callContainer_pop (extends_ _ _ present) ends
      have performed : (Operation.pop list : Operation κ).perform (layer host below) world =
          some (some (.item last), _) := report_of_ok (run.trans (Run.attempt_of_ok called))
      refine refines_of_changed present extends_ (.list items.dropLast) rfl rfl performed
        (.refl _) ?_
      simp [edit, Sequences.effect, Heap.list?_sequences found, ends]

theorem refines_append (found : world.heap.kind? list = some (.list items)) (value : Arg κ) :
    (Operation.append list value).Refines (layer host below) world := by
  obtain ⟨attributes, present⟩ := Heap.cell?_of_kind? found
  have extends_ := Heap.extends_withMethod world.heap list .append
  have has := Heap.hasMethod_of_list found .append rfl
  cases appended : world.heap.appended? list value with
  | none =>
      obtain ⟨error, after, failed, more⟩ :=
        Machine.run_append_nothing host below found appended
      have performed : (Operation.append list value).perform (layer host below) world =
          some (none, after) := report_of_error failed
      refine refines_of_refused performed ?_ more
      simp [edit, Sequences.effect, appended]
  | some item =>
      obtain ⟨positional, made, marshalled⟩ := Heap.appended?_eq_some_iff.mp appended
      have more : (world.heap.withMethod list .append).Extends made :=
        Heap.moves_marshal value _ _ _ marshalled
      have called := Heap.callContainer_append (more _ _ (extends_ _ _ present)) item
      have run := Machine.run_callMethod_one host below has positional marshalled
      have performed : (Operation.append list value).perform (layer host below) world =
          some (some .done, _) := report_of_ok (run.trans (Run.attempt_of_ok called))
      refine refines_of_changed present (extends_.trans more) (.list (items ++ [item]))
        rfl rfl performed (.push _ _) ?_
      simp [edit, Sequences.effect, appended, Heap.list?_sequences found]

theorem refines_next {queue : Handle} (found : world.heap.kind? queue = some (.iterator items)) :
    (Operation.next queue : Operation κ).Refines (layer host below) world := by
  obtain ⟨attributes, present⟩ := Heap.cell?_of_kind? found
  cases items with
  | nil =>
      have given : world.heap.next queue = (.ok none, world.heap) := by
        unfold Heap.next
        rw [present]
      have performed : (Operation.next queue : Operation κ).perform (layer host below) world =
          some (some .exhausted, _) := report_of_ok (Machine.run_next host below given)
      refine refines_of_done performed (Heap.sequences_fresh (.refl _)) none ?_
        (.refl _)
      simp [edit, Sequences.effect, Heap.queue?_sequences found]
  | cons item rest =>
      have given : world.heap.next queue = (.ok (some item),
          world.heap.write queue (.object ⟨.iterator rest, attributes⟩)) := by
        unfold Heap.next
        rw [present]
      have performed : (Operation.next queue : Operation κ).perform (layer host below) world =
          some (some (.item item), _) := report_of_ok (Machine.run_next host below given)
      refine refines_of_changed present (.refl _) (.iterator rest) rfl rfl performed
        (.refl _) ?_
      simp [edit, Sequences.effect, Heap.queue?_sequences found]

theorem refines_assign (found : world.heap.kind? list = some (.list items)) (key value : Arg κ) :
    (Operation.assign list key value).Refines (layer host below) world := by
  obtain ⟨attributes, present⟩ := Heap.cell?_of_kind? found
  have performed : (Operation.assign list key value).perform (layer host below) world =
      some (if (world.heap.setItem list key value).1.isOk then some .done else none,
        { world with heap := (world.heap.setItem list key value).2 }) := rfl
  cases made : world.heap.made? value with
  | none =>
      rw [Heap.setItem_of_unmade present made] at performed
      refine refines_of_refused performed ?_ (.refl _)
      simp [edit, Sequences.effect, made]
  | some item =>
      cases placed : (world.heap.key key).place? items.length with
      | none =>
          rw [Heap.setItem_of_unplaced present placed] at performed
          refine refines_of_refused performed ?_ (.refl _)
          simp [edit, Sequences.effect, Heap.list?_sequences found, made, placed]
      | some place =>
          obtain ⟨heap, marshalled⟩ := Heap.made?_eq_some_iff.mp made
          have more : world.heap.Extends heap := Heap.moves_marshal value _ _ _ marshalled
          rw [Heap.setItem_of_list present marshalled placed] at performed
          refine refines_of_changed present more (.list (items.set place item)) rfl rfl
            performed (.refl _) ?_
          simp [edit, Sequences.effect, Heap.list?_sequences found, made, placed]

theorem refines_read (found : world.heap.kind? list = some (.list items))
    (fits : FitsWord items.length) (key : Arg κ) :
    (Operation.read list key).Refines (layer host below) world := by
  have read := Heap.item_of_list_key found fits key
  have asked : (runProgram (layer host below) (list.getItem key)).run world =
      Run.attempt (Heap.getItem list key) world := by
    rw [Machine.runProgram_getItem]
    rfl
  have effect := fun new =>
    Heap.effect_read (Heap.list?_sequences found) new (world.heap.key key)
  cases stands : world.heap.item list key with
  | error fault =>
      rw [stands] at read
      have nothing := Option.map_eq_none_iff.mp read.symm
      have refused := Run.attempt_of_error (Heap.getItem_of_error stands)
      have performed : (Operation.read list key).perform (layer host below) world =
          some (none, _) := report_of_error (asked.trans refused)
      refine refines_of_refused performed (fun new => ?_) (Heap.extends_raise _ _)
      rw [edit, effect, nothing]
      rfl
  | ok item =>
      rw [stands] at read
      obtain ⟨part, isPart, same⟩ := Option.map_eq_some_iff.mp read.symm
      cases part with
      | inl h =>
          cases same
          have performed : (Operation.read list key).perform (layer host below) world =
              some (some (.item h), _) :=
            report_of_ok (Machine.run_getItem host below stands)
          refine refines_of_done performed (Heap.sequences_fresh (.refl _)) none ?_
            (.refl _)
          rw [edit, effect, isPart]
          rfl
      | inr taken =>
          cases same
          have made : (Heap.getItem list key).run world.heap = .ok (world.heap.fresh,
              world.heap.push (.object ⟨.list taken, .empty⟩)) := Heap.getItem_of_ok stands
          refine refines_of_made (.refl _) (.list taken) rfl rfl
            (report_of_ok (asked.trans (Run.attempt_of_ok made))) ?_
          rw [edit, effect, isPart]
          rfl

theorem refines_length (hasLen : world.HasBuiltin .len)
    (found : world.heap.kind? list = some (.list items)) (fits : FitsWord items.length) :
    (Operation.length list : Operation κ).Refines (layer host below) world := by
  have run := Machine.run_lengthOf host below hasLen found rfl fits
  have performed : (Operation.length list : Operation κ).perform (layer host below) world =
      some (some (.length items.length), world.lengthAsked items.length) := report_of_ok run
  have grows : world.heap.Extends (world.lengthAsked items.length).heap := .push _ _
  refine refines_of_done performed (Heap.sequences_fresh (.refl _)) none ?_
    grows.grows
  simp [edit, Sequences.effect, Heap.list?_sequences found]

/-- Every operation on lists refines its edit. -/
theorem refines (op : Operation κ) (host : Host κ σ) (below : Handler κ σ)
    (hasIter : world.HasBuiltin .iter) (hasLen : world.HasBuiltin .len)
    (targets : op.Targets world.heap) : op.Refines (layer host below) world := by
  cases op with
  | append list value =>
      obtain ⟨items, found⟩ := targets
      exact refines_append found value
  | pop list =>
      obtain ⟨items, found⟩ := targets
      exact refines_pop found
  | assign list key value =>
      obtain ⟨items, found⟩ := targets
      exact refines_assign found key value
  | copy list =>
      obtain ⟨items, found⟩ := targets
      exact refines_copy found
  | concat left right =>
      obtain ⟨⟨front, foundLeft⟩, ⟨back, foundRight⟩⟩ := targets
      exact refines_concat foundLeft foundRight
  | read list key =>
      obtain ⟨items, found, fits⟩ := targets
      exact refines_read found fits key
  | iterate list =>
      obtain ⟨items, found⟩ := targets
      exact refines_iterate hasIter found
  | next queue =>
      obtain ⟨items, found⟩ := targets
      exact refines_next found
  | length list =>
      obtain ⟨items, found, fits⟩ := targets
      exact refines_length hasLen found fits

/-- Whatever an operation is on, the heap evolves. -/
theorem evolves {along : Heap κ → Heap κ → Prop} [Heap.Evolving along]
    (answers : ∀ request, Run.Moves along (handler request)) (op : Operation κ) :
    Run.Moves along (op.perform handler) := by
  have reported : ∀ {α : Type} (answer : α → Answer) {x : Exec κ σ α}, Run.Moves along x.run →
      Run.Moves along (report answer x) := by
    intro α answer x moves
    unfold report
    rw [map_eq_pure_bind]
    exact Run.moves_bind moves fun _ => Run.moves_pure _
  cases op with
  | assign list key value =>
      dsimp only [perform]
      rw [map_eq_pure_bind]
      exact Run.moves_bind (answers _) fun _ => Run.moves_pure _
  | concat left right => exact reported _ (Exec.moves_ofOp (Script.moves_applyOperator _ _ _))
  | _ => exact reported _ (Machine.evolves_runProgram answers _)

end Operation

/-! ### Histories -/

/-- Operations on lists, each with the edit that it is and its answer. Between them anything may
happen that leaves lists and iterators as they are. -/
inductive History (host : Host κ σ) :
    World κ σ → List (Edit × Option Answer) → World κ σ → Prop
  | nil (world : World κ σ) : History host world [] world
  | other {world mid after : World κ σ} {trace : List (Edit × Option Answer)}
      (evolves : world.heap.Evolves mid.heap)
      (grows : world.heap.sequences.Grows mid.heap.sequences)
      (builtins : mid.builtins = world.builtins) (rest : History host mid trace after) :
      History host world trace after
  | perform {world mid after : World κ σ} {trace : List (Edit × Option Answer)}
      {op : Operation κ} {layers : Nat} {given : Option Answer} (targets : op.Targets world.heap)
      (performed : op.perform (answer host (layers + 1)) world = some (given, mid))
      (rest : History host mid trace after) :
      History host world ((op.edit world.heap, given) :: trace) after

variable {host : Host κ σ} {origin mid world : World κ σ}
  {past trace : List (Edit × Option Answer)}

/-- The lists of a history are the sequences of a run of its edits. -/
theorem History.refines (hasIter : origin.HasBuiltin .iter) (hasLen : origin.HasBuiltin .len)
    (history : History host origin trace world) :
    origin.heap.sequences.Runs trace world.heap.sequences ∧
      world.HasBuiltin .iter ∧ world.HasBuiltin .len := by
  induction history with
  | nil world => exact ⟨.nil _, hasIter, hasLen⟩
  | other evolves grows builtins _ ih =>
      obtain ⟨runs, has⟩ := ih (hasIter.evolves evolves builtins) (hasLen.evolves evolves builtins)
      exact ⟨.grow grows runs, has⟩
  | @perform world mid after trace op layers given targets performed _ ih =>
      have moves : World.Moves Heap.Evolves world mid :=
        Operation.evolves (Machine.evolves_answer host (layers + 1)) op _ _ _ performed
      obtain ⟨runs, has⟩ := ih (hasIter.evolves moves.heap moves.builtins)
        (hasLen.evolves moves.heap moves.builtins)
      obtain ⟨expected, after, finished, step, _⟩ :=
        op.refines host (answer host layers) hasIter hasLen targets
      cases performed.symm.trans finished
      exact ⟨.step step runs, has⟩

/-- Lists refine mutable sequences. Take any operations on lists of a bridge, with anything in
between that leaves the lists as they are. The answers are those of the edits that the operations
are, and the lists are the sequences that the edits leave. What no edit is to change keeps its
contents, so that copies, sums, parts and iterators stay apart from what they were made of. Every
operation finishes, and one without an answer leaves every list as it is. An index counts the same
as a host integer and as a foreign one, and a value that can be made is taken at just the indices at
which there is an item. -/
theorem lists_refine_sequences (reachable : origin.Reachable host)
    (earlier : History host origin past mid) (history : History host mid trace world) :
    mid.heap.sequences.Runs trace world.heap.sequences ∧
    (∀ h contents, mid.heap.sequences h = some contents →
      (∀ entry ∈ trace, entry.1.changes? ≠ some h) → world.heap.sequences h = some contents) ∧
    (∀ (op : Operation κ) (layers : Nat), op.Targets world.heap →
      ∃ given after, op.perform (answer host (layers + 1)) world = some (given, after) ∧
        (given = none → ∀ list items, world.heap.kind? list = some (.list items) →
          after.heap.kind? list = some (.list items))) ∧
    ∀ list items index, world.heap.kind? list = some (.list items) →
      (∀ h, world.heap.kind? h = some (.int index) →
        world.heap.item list (.handle h) = world.heap.item list (.int index) ∧
        ∀ value, world.heap.setItem list (.handle h) value =
          world.heap.setItem list (.int index) value) ∧
      ∀ value, (world.heap.made? value).isSome = true →
        ((world.heap.setItem list (.int index) value).1.isOk = true ↔
          (world.heap.item list (.int index)).isOk = true) := by
  obtain ⟨_, iterThen, lenThen⟩ :=
    earlier.refines (reachable.hasBuiltin .iter) (reachable.hasBuiltin .len)
  obtain ⟨runs, hasIter, hasLen⟩ := history.refines iterThen lenThen
  refine ⟨runs, fun h contents found others => runs.untouched others found, ?_, ?_⟩
  · intro op layers targets
    obtain ⟨given, after, finished, _, refused⟩ :=
      op.refines host (answer host layers) hasIter hasLen targets
    exact ⟨given, after, finished, fun isNone list items found => (refused isNone).kind? found⟩
  · intro list items index found
    obtain ⟨attributes, present⟩ := Heap.cell?_of_kind? found
    constructor
    · intro h isInt
      have same := Heap.plainKey_of_int isInt
      exact ⟨Heap.item_congr present same, Heap.setItem_congr present same⟩
    · intro value isMade
      exact Heap.setItem_isOk_iff present isMade

/-- A list is copied, and then loses its item: the copy keeps it. -/
theorem lists_refine_sequences_copy :
    let host := Host.answeringNone
    let start : World Unit Unit := .start {} .standard ()
    let origin := { start with heap :=
      (start.heap.push (.object ⟨.int 5, .empty⟩)).push (.object ⟨.list [⟨7⟩], .empty⟩) }
    ∃ mid world : World Unit Unit, History host origin [(.copy ⟨8⟩, some (.item ⟨10⟩))] mid ∧
      mid.heap.sequences.Runs [(.pop ⟨8⟩, some (.item ⟨7⟩))] world.heap.sequences ∧
      world.heap.kind? ⟨8⟩ = some (.list []) ∧ world.heap.sequences ⟨10⟩ = some (.list [⟨7⟩]) := by
  intro host start origin
  have reachable : origin.Reachable host := by
    have made : answer host 1 (.create (.int 5)) start =
      some (⟨7⟩, { start with heap := start.heap.push (.object ⟨.int 5, .empty⟩) }) := rfl
    have listed : answer host 1 (.create (.list [⟨7⟩]))
      { start with heap := start.heap.push (.object ⟨.int 5, .empty⟩) } = some (⟨8⟩, origin) := rfl
    exact ((World.Reachable.start {} .standard ()).answer made).answer listed
  let copied := (origin.heap.withMethod ⟨8⟩ .copy).push (.object ⟨.list [⟨7⟩], .empty⟩)
  let popped := (copied.withMethod ⟨8⟩ .pop).write ⟨8⟩ (.object ⟨.list [], .empty⟩)
  let mid : World Unit Unit := { origin with heap := copied }
  let world : World Unit Unit := { mid with heap := popped }
  have copying : (Operation.copy ⟨8⟩).perform (answer host 1) origin =
      some (some (.item ⟨10⟩), mid) := rfl
  have copies : History host origin [(.copy ⟨8⟩, some (.item ⟨10⟩))] mid :=
    .perform (show (Operation.copy ⟨8⟩).Targets origin.heap from ⟨_, rfl⟩) copying (.nil _)
  have popping : (Operation.pop ⟨8⟩).perform (answer host 1) mid =
      some (some (.item ⟨7⟩), world) := rfl
  have pops : History host mid [(.pop ⟨8⟩, some (.item ⟨7⟩))] world :=
    .perform (show (Operation.pop ⟨8⟩).Targets mid.heap from ⟨_, rfl⟩) popping (.nil _)
  obtain ⟨runs, stays, _⟩ := lists_refine_sequences reachable copies pops
  exact ⟨mid, world, copies, runs, rfl, stays ⟨10⟩ (.list [⟨7⟩]) rfl (by decide)⟩

end Interop
