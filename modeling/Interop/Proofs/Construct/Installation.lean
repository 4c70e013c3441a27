import Interop.Construct
import Interop.Proofs.Bridge.Wrapping
import Interop.Proofs.Call.Body
/-!
Methods that are installed on an instance. Installing never fails; every name is bound to the last
method declared under it, and nothing but the instance's attributes changes. Invoking what a name is
bound to runs its method once, on the instance and the arguments as the host sees them.
-/

set_option autoImplicit false

namespace Interop

variable {κ σ : Type}

/-- The last of some methods that has the name. -/
def Method.lastNamed (methods : List (Method κ)) (name : String) : Option (Method κ) :=
  methods.reverse.find? (·.name == name)

theorem Method.lastNamed_cons (method : Method κ) (rest : List (Method κ)) (name : String) :
    lastNamed (method :: rest) name =
      (lastNamed rest name).or (if method.name = name then some method else none) := by
  unfold lastNamed
  rw [List.reverse_cons, List.find?_append]
  by_cases same : method.name = name
  · simp [same]
  · simp [same]

theorem Method.lastNamed_singleton (method : Method κ) (name : String) :
    lastNamed [method] name = if method.name = name then some method else none := by
  rw [lastNamed_cons]
  rfl

theorem Method.mem_of_lastNamed {methods : List (Method κ)} {name : String} {method : Method κ}
    (last : lastNamed methods name = some method) : method ∈ methods ∧ method.name = name := by
  unfold lastNamed at last
  have same := List.find?_some last
  exact ⟨List.mem_reverse.mp (List.mem_of_find?_eq_some last), beq_iff_eq.mp same⟩

namespace Heap

/-- The heap after a method was bound to an object and set on it. -/
def install (made : Handle) (heap : Heap κ) (method : Method κ) : Heap κ :=
  match heap.cell? made with
  | some (.object object) =>
    (heap.push (.object ⟨.hostMethod made method.toReceiverCallback, .empty⟩)).write made
      (.object { object with attributes := object.attributes.insert method.name heap.fresh })
  | _ => heap

/-- An attribute that was set on an object. -/
def ownAttribute? (heap : Heap κ) (h : Handle) (name : String) : Option Handle :=
  (heap.object? h).bind (·.attributes.get? name)

/-- What installing methods on an object does to a heap. -/
structure Installed (made : Handle) (methods : List (Method κ)) (heap after : Heap κ) : Prop where
  /-- Everything else stays as it is. -/
  others : ∀ h cell, h ≠ made → heap.cell? h = some cell → after.cell? h = some cell
  kind : after.kind? made = heap.kind? made
  /-- Names that no method has keep their values. -/
  unnamed : ∀ name, Method.lastNamed methods name = none →
    after.ownAttribute? made name = heap.ownAttribute? made name
  /-- The name of a method is bound to the last one that has it. -/
  bound : ∀ name method, Method.lastNamed methods name = some method →
    ∃ bound, after.ownAttribute? made name = some bound ∧ heap.cell? bound = none ∧
      after.cell? bound = some (.object ⟨.hostMethod made method.toReceiverCallback, .empty⟩)

variable {heap mid after : Heap κ} {made : Handle} {object : HeapObject κ}

theorem ownAttribute?_of_cell? (present : heap.cell? made = some (.object object))
    (name : String) : heap.ownAttribute? made name = object.attributes.get? name := by
  unfold ownAttribute?
  rw [object?_of_cell? present]
  rfl

theorem install_of_object (present : heap.cell? made = some (.object object))
    (method : Method κ) :
    heap.install made method =
      (heap.push (.object ⟨.hostMethod made method.toReceiverCallback, .empty⟩)).write made
        (.object { object with
          attributes := object.attributes.insert method.name heap.fresh }) := by
  unfold install
  rw [present]

theorem installed_nil (made : Handle) (heap : Heap κ) : Installed made [] heap heap where
  others _ _ _ found := found
  kind := rfl
  unnamed _ _ := rfl
  bound _ _ last := by cases last

/-- The object after a method was set on it. -/
theorem cell?_install_self (present : heap.cell? made = some (.object object))
    (method : Method κ) :
    (heap.install made method).cell? made =
      some (.object { object with
        attributes := object.attributes.insert method.name heap.fresh }) := by
  rw [install_of_object present]
  exact cell?_write_self (cell?_push_of_found present _) _

/-- One method takes one more cell and one attribute. -/
theorem installed_one (present : heap.cell? made = some (.object object)) (method : Method κ) :
    Installed made [method] heap (heap.install made method) := by
  have self := cell?_install_self present method
  constructor
  · intro h cell different found
    rw [install_of_object present, cell?_write_of_ne different]
    exact cell?_push_of_found found _
  · rw [kind?_of_cell? self, kind?_of_cell? present]
  · intro name none
    have other : method.name ≠ name := by
      intro same
      rw [Method.lastNamed_singleton, if_pos same] at none
      cases none
    rw [ownAttribute?_of_cell? self, ownAttribute?_of_cell? present, OrderedMap.get?_insert,
      if_neg other]
  · intro name last isLast
    rw [Method.lastNamed_singleton] at isLast
    split at isLast
    · rename_i same
      cases isLast
      refine ⟨heap.fresh, ?_, cell?_fresh heap, ?_⟩
      · rw [ownAttribute?_of_cell? self, OrderedMap.get?_insert, if_pos same]
      · have other : heap.fresh ≠ made := (ne_fresh_of_cell? present).symm
        rw [install_of_object present, cell?_write_of_ne other, cell?_push, if_pos rfl]
    · cases isLast

/-- A cell that is not there after an installation was not there before. -/
theorem Installed.absent_before {methods : List (Method κ)} {h : Handle}
    (present : heap.cell? made = some (.object object))
    (installed : Installed made methods heap after) (absent : after.cell? h = none) :
    heap.cell? h = none := by
  by_contra there
  obtain ⟨cell, found⟩ := Option.ne_none_iff_exists'.mp there
  by_cases same : h = made
  · subst same
    have kind := installed.kind.trans (kind?_of_cell? present)
    obtain ⟨attributes, stays⟩ := cell?_of_kind? kind
    cases absent.symm.trans stays
  · cases absent.symm.trans (installed.others h cell same found)

/-- Methods are installed one after the other; a later one takes the place of an earlier one. -/
theorem Installed.cons {method : Method κ} {rest : List (Method κ)}
    (present : heap.cell? made = some (.object object))
    (first : Installed made [method] heap mid) (more : Installed made rest mid after) :
    Installed made (method :: rest) heap after := by
  constructor
  · intro h cell different found
    exact more.others h cell different (first.others h cell different found)
  · rw [more.kind, first.kind]
  · intro name none
    rw [Method.lastNamed_cons, Option.or_eq_none_iff] at none
    rw [more.unnamed name none.1, first.unnamed name]
    rw [Method.lastNamed_singleton]
    exact none.2
  · intro name last isLast
    rw [Method.lastNamed_cons] at isLast
    cases later : Method.lastNamed rest name with
    | some found =>
        rw [later] at isLast
        cases isLast
        obtain ⟨bound, named, absent, isBound⟩ := more.bound name _ later
        exact ⟨bound, named, first.absent_before present absent, isBound⟩
    | none =>
        rw [later] at isLast
        have isFirst : Method.lastNamed [method] name = some last := by
          rw [Method.lastNamed_singleton]
          exact isLast
        obtain ⟨bound, named, absent, isBound⟩ := first.bound name last isFirst
        refine ⟨bound, (more.unnamed name later).trans named, absent, ?_⟩
        have other : bound ≠ made := by
          rintro rfl
          cases absent.symm.trans present
        exact more.others bound _ other isBound

/-- What installing many methods comes to. -/
theorem installed_foldl (present : heap.cell? made = some (.object object))
    (methods : List (Method κ)) :
    Installed made methods heap (methods.foldl (install made) heap) := by
  induction methods generalizing heap object with
  | nil => exact installed_nil made heap
  | cons method rest ih =>
      exact .cons present (installed_one present method) (ih (cell?_install_self present method))

end Heap

/-- Writes to a map that has entries leave it some. -/
theorem Entries.merge_ne_nil {α : Type} {entries : Entries α} (some : entries ≠ [])
    (writes : Entries α) : entries.merge writes ≠ [] := by
  induction writes generalizing entries with
  | nil => exact some
  | cons write rest ih =>
      apply ih
      obtain ⟨⟨key, value⟩, others, rfl⟩ := List.exists_cons_of_ne_nil some
      change (if key = write.1 then _ else _) ≠ []
      split
      · exact List.cons_ne_nil _ _
      · exact List.cons_ne_nil _ _

/-! ### Running the installation -/

namespace Machine

variable (host : Host κ σ) (below : Handler κ σ)

variable {world : World κ σ} {made : Handle} {object : HeapObject κ}

theorem run_bindMethod {h : Handle} (present : world.heap.cell? h = some (.object object))
    (function : Callback κ) :
    (runProgram (layer host below) (Program.bindMethod function h)).run world =
      some (.ok world.heap.fresh, { world with
        heap := world.heap.push (.object ⟨.hostMethod h function, .empty⟩) }) := by
  have asked : runProgram (layer host below) (Program.bindMethod function h) =
      bindMethod function h :=
    ExceptT.ext (Interaction.run_ask _ (.bindMethod function h))
  have read : (Exec.readHeap (·.object? h) : Exec κ σ _).run world =
      some (.ok (some object), world) :=
    congrArg (fun found => some (Except.ok found, world)) (Heap.object?_of_cell? present)
  rw [asked]
  exact Exec.run_bind_eq_some_iff.mpr (.inl ⟨some object, world, read, rfl⟩)

theorem run_setAttr (world : World κ σ) (h : Handle) (name : String) (value : Arg κ) :
    (runProgram (layer host below) (h.setAttr name value)).run world =
      some (.ok (world.heap.setAttr h name value).1,
        { world with heap := (world.heap.setAttr h name value).2 }) := by
  have asked : runProgram (layer host below) (h.setAttr name value : Program κ σ Status) =
      ExceptT.lift (Run.onHeap (·.setAttr h name value)) :=
    runProgram_ask _ (.setAttr h name value)
  rw [asked]
  rfl

/-- Installing one method cannot fail on an object that accepts attributes. -/
theorem run_install (present : world.heap.cell? made = some (.object object))
    (accepts : object.kind.acceptsAttributes = true) (cls : HostClass κ) {p : Proxy κ}
    (same : p.handle = made) (method : Method κ) :
    (runProgram (layer host below) (cls.install p method)).run world =
      some (.ok (), { world with heap := world.heap.install made method }) := by
  subst same
  let bound : Cell κ := .object ⟨.hostMethod p.handle method.toReceiverCallback, .empty⟩
  have set : (world.heap.push bound).setAttr p.handle method.name (.handle world.heap.fresh) =
      (.ok, world.heap.install p.handle method) := by
    have stays := Heap.cell?_push_of_found present bound
    rw [Heap.install_of_object present]
    unfold Heap.setAttr
    rw [stays]
    dsimp only
    rw [if_pos accepts]
    rfl
  unfold HostClass.install
  rw [run_bind_of_ok _ (run_bindMethod host below present _),
    run_bind_of_ok _ (run_setAttr host below _ _ _ _), set]
  rfl

theorem run_installAll (present : world.heap.cell? made = some (.object object))
    (accepts : object.kind.acceptsAttributes = true) (cls : HostClass κ) {p : Proxy κ}
    (same : p.handle = made) (methods : List (Method κ)) :
    (runProgram (layer host below) (methods.forM (cls.install p))).run world =
      some (.ok (), { world with heap := methods.foldl (Heap.install made) world.heap }) := by
  induction methods generalizing world object with
  | nil => rfl
  | cons method rest ih =>
      change (runProgram (layer host below)
        (cls.install p method >>= fun _ => rest.forM (cls.install p))).run world = _
      rw [run_bind_of_ok _ (run_install host below present accepts cls same method)]
      exact ih (Heap.cell?_install_self present method) accepts

/-! ### Invoking an installed method -/

variable {bound : Handle} {method : Method κ}

theorem splitKeywords_handles (hs : List Handle) :
    Arg.splitKeywords (hs.map (.handle : Handle → Arg κ)) = (hs.map .handle, []) := by
  unfold Arg.splitKeywords
  have positional : (hs.map (.handle : Handle → Arg κ)).filter Arg.isPositional =
      hs.map .handle := by
    apply List.filter_eq_self.mpr
    intro arg member
    obtain ⟨h, _, rfl⟩ := List.mem_map.mp member
    rfl
  have spread : (hs.map (.handle : Handle → Arg κ)).flatMap Arg.keywordEntries = [] := by
    apply List.flatMap_eq_nil_iff.mpr
    intro arg member
    obtain ⟨h, _, rfl⟩ := List.mem_map.mp member
    rfl
  rw [positional, spread]
  rfl

theorem marshalAll_handles (hs : List Handle) (heap : Heap κ) :
    (Heap.marshalAll (hs.map .handle)).run heap = .ok (hs, heap) := by
  induction hs with
  | nil => rfl
  | cons h rest ih =>
      rw [List.map_cons, Heap.marshalAll]
      refine Heap.Op.bind_eq_ok_iff.mpr ⟨h, heap, rfl, ?_⟩
      exact Heap.Op.bind_eq_ok_iff.mpr ⟨rest, heap, ih, rfl⟩

/-- Keyword arguments that are there are there on the foreign side too. -/
theorem marshalEntries_ne_nil {entries : Entries (Arg κ)} (some : entries ≠ [])
    {heap after : Heap κ} {named : Entries Handle}
    (marshalled : (Heap.marshalEntries entries).run heap = .ok (named, after)) :
    (OrderedMap.ofEntries named).keys ≠ [] := by
  cases entries with
  | nil => exact absurd rfl some
  | cons entry rest =>
      obtain ⟨h, mid, _, marshalled⟩ := Heap.Op.bind_eq_ok_iff.mp marshalled
      obtain ⟨handles, _, _, last⟩ := Heap.Op.bind_eq_ok_iff.mp marshalled
      cases last
      have first : Entries.insert [] entry.1 h ≠ [] := List.cons_ne_nil _ _
      exact mt List.map_eq_nil_iff.mp (Entries.merge_ne_nil first handles)

/-- Handles reach the method behind its receiver, and its answer is marshalled. -/
theorem run_invoke_handles {function : Callback κ}
    (isBound : world.heap.kind? bound = some (.hostMethod made function)) (hs : List Handle) :
    (runProgram (layer host below) (bound.invoke (hs.map .handle))).run world =
      (do
        let answer ← callCallback host below function (made :: hs)
        Exec.ofOp (Heap.marshal answer) : Exec κ σ Handle).run world := by
  have positional := marshalAll_handles hs world.heap
  have named : (Heap.marshalEntries [] : Heap.Op κ _).run world.heap = .ok ([], world.heap) := rfl
  rw [run_invoke_body host below isBound rfl, splitKeywords_handles,
    Exec.run_ofOp_bind_of_ok positional, Exec.run_ofOp_bind_of_ok named]
  rfl

/-- With keyword arguments the method is refused, whatever host code there is; if all arguments can
be marshalled, the error says so. -/
theorem run_invoke_keywords {function : Callback κ}
    (isBound : world.heap.kind? bound = some (.hostMethod made function)) {args : List (Arg κ)}
    (keywords : (Arg.splitKeywords args).2 ≠ []) :
    ∃ error heap,
      (∀ (host : Host κ σ) (below : Handler κ σ),
        (runProgram (layer host below) (bound.invoke args)).run world =
          some (.error error, { world with heap := heap })) ∧
      ∀ handles mid named last,
        (Heap.marshalAll (Arg.splitKeywords args).1).run world.heap = .ok (handles, mid) →
        (Heap.marshalEntries (Arg.splitKeywords args).2).run mid = .ok (named, last) →
        (error, heap) = last.raise (.keywordsRefused function.name) := by
  cases positional : (Heap.marshalAll (Arg.splitKeywords args).1).run world.heap with
  | error fault =>
      refine ⟨(world.heap.raise fault).1, (world.heap.raise fault).2, fun host below => ?_, nofun⟩
      rw [run_invoke_body host below isBound rfl]
      exact Exec.run_ofOp_bind_of_error positional
  | ok pair =>
      obtain ⟨handles, mid⟩ := pair
      cases named : (Heap.marshalEntries (Arg.splitKeywords args).2).run mid with
      | error fault =>
          refine ⟨(mid.raise fault).1, (mid.raise fault).2, fun host below => ?_, ?_⟩
          · rw [run_invoke_body host below isBound rfl, Exec.run_ofOp_bind_of_ok positional]
            exact Exec.run_ofOp_bind_of_error named
          · rintro _ _ entries last ⟨⟩ again
            cases named.symm.trans again
      | ok pair =>
          obtain ⟨entries, last⟩ := pair
          let refusal : Fault := .keywordsRefused function.name
          refine ⟨(last.raise refusal).1, (last.raise refusal).2, fun host below => ?_, ?_⟩
          · have left := marshalEntries_ne_nil keywords named
            rw [run_invoke_body host below isBound rfl, Exec.run_ofOp_bind_of_ok positional,
              Exec.run_ofOp_bind_of_ok named, Body.enter_refused host below _ function left]
            rfl
          · rintro _ _ _ _ ⟨⟩ again
            cases named.symm.trans again
            rfl

/-- Once receiver and arguments are wrapped, the method is called once, and its answer is
marshalled. -/
theorem run_invoke_wrapped
    (isBound : world.heap.kind? bound = some (.hostMethod made method.toReceiverCallback))
    {receiver : Proxy κ} {hs : List Handle} {objects : List (Object κ)}
    {seen mid : World κ σ}
    (wraps : (runProgram below (Bridge.wrap made)).run world = some (.ok (.proxy receiver), seen))
    (wrapsAll : (runProgram below (Bridge.wrapAll hs)).run seen = some (.ok objects, mid)) :
    (runProgram (layer host below) (bound.invoke (hs.map .handle))).run world =
      (do
        let result ← runProgram below (method.call receiver objects)
        Exec.ofOp (Heap.marshal result.toArg) : Exec κ σ Handle).run mid := by
  have called : (runProgram below (method.callRaw (made :: hs))).run world =
      (runProgram below (method.call receiver objects) >>= fun result =>
        pure result.toArg).run mid := by
    unfold Method.callRaw
    rw [run_bind_of_ok _ wraps]
    dsimp only
    rw [run_bind_of_ok _ wrapsAll, runProgram_bind]
    rfl
  rw [run_invoke_handles host below isBound]
  change (runProgram below (method.callRaw (made :: hs)) >>= fun answer =>
    Exec.ofOp (Heap.marshal answer)).run world = _
  rw [Exec.run_bind_of_same called, bind_assoc]
  simp only [pure_bind]

end Machine

end Interop
