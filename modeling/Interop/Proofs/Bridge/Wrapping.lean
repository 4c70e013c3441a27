import Interop.Proofs.Heap.Soundness
import Interop.Proofs.Machine.Answers
import Interop.Proofs.Marshal.ReadBack
/-!
What wrapping gives. Wrapping goes by the name of an object's type, reading a primitive goes by the
object itself; the two agree on every object of a sound heap, except on instances of classes that
are named like a primitive type.
-/

set_option autoImplicit false

namespace Interop

variable {κ σ α : Type}

/-! ### The host's view of an object -/

namespace Kind

def isCallable : Kind κ → Bool
  | .type _ | .function .. | .boundMethod .. | .callback _ | .hostMethod .. => true
  | _ => false

/-- The name that a callable reports about itself; a bound method reports none. -/
def calleeName? : Kind κ → Option String
  | .type info => some info.name
  | .function name _ => some name
  | .callback code => some code.name
  | .hostMethod _ code => some code.name
  | _ => Option.none

def calleeMembers (kind : Kind κ) : Entries (Member κ) :=
  match kind.calleeName? with
  | some name => [("name", .value (.string name))]
  | Option.none => []

/-- The members that the standard registry adds for an object with a type of the given identity. -/
def members (kind : Kind κ) (info : TypeInfo) : Entries (Member κ) :=
  if kind.isCallable then kind.calleeMembers
  else
    match (Registry.standard (κ := κ)).get? (.type info) with
    | some .sized => [("len", .method ⟨"len", .length⟩)]
    | some .mapping => [("len", .method ⟨"len", .length⟩), ("keys", .method ⟨"keys", .keys⟩)]
    | _ => []

theorem isCallable_becomes {kind changed : Kind κ} (becomes : kind.Becomes changed) :
    changed.isCallable = kind.isCallable := by
  cases becomes <;> rfl

theorem calleeName?_becomes {kind changed : Kind κ} (becomes : kind.Becomes changed) :
    changed.calleeName? = kind.calleeName? := by
  cases becomes <;> rfl

theorem Turns.members {kind later : Kind κ} (turns : kind.Turns later) (info : TypeInfo) :
    later.members info = kind.members info := by
  unfold Kind.members calleeMembers
  rw [turns.keeps (f := isCallable) isCallable_becomes,
    turns.keeps (f := calleeName?) calleeName?_becomes]

end Kind

theorem not_isNone_of_isPrimitive {info : TypeInfo} (isPrimitive : info.isPrimitive = true) :
    ¬ info.isNone = true := by
  intro isNone
  have name : info.name = "NoneType" := beq_iff_eq.mp isNone
  unfold TypeInfo.isPrimitive at isPrimitive
  rw [name] at isPrimitive
  cases isPrimitive

namespace Heap

/-- The identity of the type of an object. -/
def typeInfo (heap : Heap κ) : Kind κ → TypeInfo
  | .instanceOf cls =>
    match heap.kind? cls with
    | some (.type info) => info
    | _ => ⟨"builtins", "object"⟩
  | kind => ⟨"builtins", heap.typeName kind⟩

/-- The host's view of an object; there is none if the object's type has the name of a primitive one
and the object is no primitive. -/
def view? (heap : Heap κ) (h : Handle) (kind : Kind κ) : Option (Object κ) :=
  let info := heap.typeInfo kind
  if info.isNone then some .none
  else if info.isPrimitive then kind.primitive?.map .ofPrimitive
  else some (.proxy (.mk h info (kind.members info)))

variable {heap after : Heap κ} {h : Handle} {kind : Kind κ}

theorem typeInfo_becomes {changed : Kind κ} (becomes : kind.Becomes changed) :
    heap.typeInfo changed = heap.typeInfo kind := by
  cases becomes <;> rfl

theorem typeInfo_of_isType {cls : Handle} {info : TypeInfo}
    (isType : heap.kind? cls = some (.type info)) : heap.typeInfo (.instanceOf cls) = info := by
  unfold Heap.typeInfo
  dsimp only
  rw [isType]

/-- The type of an object is named as the runtime names it. -/
theorem typeInfo_name (heap : Heap κ) (kind : Kind κ) :
    (heap.typeInfo kind).name = heap.typeName kind := by
  cases kind with
  | instanceOf cls =>
      unfold Heap.typeInfo typeName
      dsimp only
      cases heap.kind? cls with
      | none => rfl
      | some own => cases own <;> rfl
  | _ => rfl

/-- Where classes stay what they are, so does the type of an object. -/
theorem typeInfo_eq (classed : heap.HasClass kind)
    (kept : ∀ cls info, heap.kind? cls = some (.type info) → after.kind? cls = some (.type info)) :
    after.typeInfo kind = heap.typeInfo kind := by
  cases kind with
  | instanceOf cls =>
      obtain ⟨info, isType⟩ := classed cls rfl
      rw [typeInfo_of_isType isType, typeInfo_of_isType (kept cls info isType)]
  | _ => rfl

/-- The type of an object keeps its identity, whatever becomes of the object. -/
theorem Evolves.typeInfo (evolves : heap.Evolves after) (classed : heap.HasClass kind)
    {later : Kind κ} (turns : kind.Turns later) :
    after.typeInfo later = heap.typeInfo kind := by
  rw [turns.keeps (f := after.typeInfo) typeInfo_becomes]
  exact typeInfo_eq classed fun cls info isType => evolves.kind?_eq isType nofun

theorem Extends.hasClass (extends_ : heap.Extends after) (classed : heap.HasClass kind) :
    after.HasClass kind := by
  intro cls same
  obtain ⟨info, isType⟩ := classed cls same
  exact ⟨info, extends_.kind? isType⟩

theorem Extends.typeInfo (extends_ : heap.Extends after) (classed : heap.HasClass kind) :
    after.typeInfo kind = heap.typeInfo kind :=
  typeInfo_eq classed fun _ _ isType => extends_.kind? isType

/-- Only instances can have a type that is named like a primitive one without being primitive. -/
theorem view?_eq_none_iff : heap.view? h kind = none ↔
    (heap.typeInfo kind).isPrimitive = true ∧ kind.isInstance = true := by
  cases kind with
  | instanceOf cls =>
      unfold view?
      dsimp only
      split
      · rename_i isNone
        exact iff_of_false nofun fun both => not_isNone_of_isPrimitive both.1 isNone
      · split
        · rename_i isPrimitive
          exact iff_of_true rfl ⟨isPrimitive, rfl⟩
        · rename_i notPrimitive
          exact iff_of_false nofun fun both => notPrimitive both.1
  | _ =>
      refine iff_of_false ?_ nofun
      simp [view?, Heap.typeInfo, typeName, TypeInfo.isNone, TypeInfo.isPrimitive,
        TypeInfo.primitiveNames, Kind.primitive?]

/-! ### Reading about an object -/

theorem attribute?_text {name text : String} (found : heap.kind? h = some kind)
    (fixed : kind.fixedAttribute? name = some (.text text)) :
    heap.attribute? h name = some (.text text) := by
  obtain ⟨attributes, present⟩ := cell?_of_kind? found
  unfold attribute?
  rw [present]
  dsimp only
  rw [fixed]
  rfl

theorem hasAttr_of_text {name text : String} (found : heap.kind? h = some kind)
    (fixed : kind.fixedAttribute? name = some (.text text)) : heap.hasAttr h name = true := by
  unfold hasAttr
  rw [attribute?_text found fixed]
  rfl

/-- A text attribute is read as a new string. -/
theorem getAttr_text {name text : String} (found : heap.kind? h = some kind)
    (fixed : kind.fixedAttribute? name = some (.text text)) :
    ∃ value last, (getAttr h name).run heap = .ok (value, last) ∧ heap.Extends last ∧
      last.kind? value = some (.string text) := by
  refine ⟨heap.fresh, heap.push (.object ⟨.string text, .empty⟩), ?_, .push heap _,
    kind?_fresh heap (.string text)⟩
  refine Op.bind_eq_ok_iff.mpr ⟨heap, heap, rfl, ?_⟩
  rw [attribute?_text found fixed]
  rfl

/-- The type of an object is a class that carries its identity. -/
theorem typeOf_eq_ok (classed : heap.HasClass kind) (found : heap.kind? h = some kind) :
    ∃ type last, (typeOf h).run heap = .ok (type, last) ∧ heap.Extends last ∧
      last.kind? type = some (.type (heap.typeInfo kind)) := by
  obtain ⟨attributes, present⟩ := cell?_of_kind? found
  cases kind with
  | instanceOf cls =>
      obtain ⟨info, isType⟩ := classed cls rfl
      refine ⟨cls, heap, ?_, .refl heap, ?_⟩
      · refine Op.bind_eq_ok_iff.mpr ⟨heap, heap, rfl, ?_⟩
        rw [present]
        rfl
      · rw [isType, typeInfo_of_isType isType]
  | _ =>
      refine ⟨heap.fresh, heap.push (.object ⟨.type (heap.typeInfo _), .empty⟩), ?_, .push heap _,
        kind?_fresh heap _⟩
      refine Op.bind_eq_ok_iff.mpr ⟨heap, heap, rfl, ?_⟩
      rw [present]
      rfl

end Heap

namespace Machine

variable (host : Host κ σ) (below : Handler κ σ)

variable {world : World κ σ} {h : Handle} {kind : Kind κ}

theorem runProgram_primitive :
    runProgram (layer host below) h.primitive = Exec.ofOp (.check (·.primitive h)) :=
  ExceptT.ext (Interaction.run_ask _ (.primitive h))

theorem run_primitive {primitive : Primitive} (found : world.heap.kind? h = some kind)
    (reads : kind.primitive? = some primitive) :
    (runProgram (layer host below) h.primitive).run world = some (.ok primitive, world) := by
  have checked : (Heap.Op.check (·.primitive h)).run world.heap = .ok (primitive, world.heap) := by
    change (world.heap.primitive h).map (·, world.heap) = _
    rw [Heap.primitive_of_kind? found, reads]
    rfl
  rw [runProgram_primitive]
  exact Run.attempt_of_ok checked

theorem primitive_answers {primitive : Primitive} (found : world.heap.kind? h = some kind)
    (reads : kind.primitive? = some primitive) :
    (runProgram (layer host below) h.primitive).Answers world primitive :=
  fun later moves =>
    ⟨later, run_primitive host below (moves.heap.kind? found) reads, .refl later⟩

/-- What answers for every string of the text answers for the attribute. -/
theorem getAttr_text_bind {name text : String} {f : Handle → Program κ σ α} {a : α}
    (found : world.heap.kind? h = some kind)
    (fixed : kind.fixedAttribute? name = some (.text text))
    (rest : ∀ value (last : World κ σ), last.heap.kind? value = some (.string text) →
      (runProgram (layer host below) (f value)).Answers last a) :
    (runProgram (layer host below) (h.getAttr name >>= f)).Answers world a := by
  rw [runProgram_bind, runProgram_getAttr]
  apply Exec.answers_bind
  intro later moves
  obtain ⟨value, heap, finished, extends_, isText⟩ :=
    Heap.getAttr_text (moves.heap.kind? found) fixed
  exact ⟨value, { later with heap := heap }, Run.attempt_of_ok finished, .ofHeap extends_,
    rest value _ isText⟩

theorem stringAttr_answers {name text : String} (found : world.heap.kind? h = some kind)
    (fixed : kind.fixedAttribute? name = some (.text text)) :
    (runProgram (layer host below) (h.stringAttr name)).Answers world text := by
  apply getAttr_text_bind host below found fixed
  intro value last isText
  exact answers_program_bind (primitive_answers host below isText rfl) (Exec.answers_pure text)

theorem typeInfo_answers (classed : world.heap.HasClass kind)
    (found : world.heap.kind? h = some kind) :
    (runProgram (layer host below) h.typeInfo).Answers world (world.heap.typeInfo kind) := by
  unfold Handle.typeInfo
  rw [runProgram_bind]
  apply Exec.answers_bind
  intro later moves
  obtain ⟨type, heap, finished, extends_, isType⟩ :=
    Heap.typeOf_eq_ok (moves.heap.hasClass classed) (moves.heap.kind? found)
  rw [moves.heap.typeInfo classed] at isType
  have asked : runProgram (layer host below) h.typeOf = Exec.ofOp (Heap.typeOf h) :=
    ExceptT.ext (Interaction.run_ask _ (.typeOf h))
  rw [asked]
  refine ⟨type, { later with heap := heap }, Run.attempt_of_ok finished, .ofHeap extends_, ?_⟩
  refine answers_program_bind (stringAttr_answers host below isType rfl) ?_
  exact answers_program_bind (stringAttr_answers host below isType rfl) (Exec.answers_pure _)

/-! ### Wrapping -/

theorem wrap_answers_none (classed : world.heap.HasClass kind)
    (found : world.heap.kind? h = some kind) (isNone : (world.heap.typeInfo kind).isNone = true) :
    (runProgram (layer host below) (Bridge.wrap h)).Answers world .none := by
  unfold Bridge.wrap
  refine answers_program_bind (typeInfo_answers host below classed found) ?_
  rw [if_pos isNone]
  exact Exec.answers_pure Object.none

theorem wrap_answers_primitive {primitive : Primitive} (classed : world.heap.HasClass kind)
    (found : world.heap.kind? h = some kind)
    (isPrimitive : (world.heap.typeInfo kind).isPrimitive = true)
    (reads : kind.primitive? = some primitive) :
    (runProgram (layer host below) (Bridge.wrap h)).Answers world (.ofPrimitive primitive) := by
  unfold Bridge.wrap
  refine answers_program_bind (typeInfo_answers host below classed found) ?_
  rw [if_neg (not_isNone_of_isPrimitive isPrimitive), if_pos isPrimitive]
  exact answers_program_bind (primitive_answers host below found reads) (Exec.answers_pure _)

theorem wrap_answers_string {text : String} (found : world.heap.kind? h = some (.string text)) :
    (runProgram (layer host below) (Bridge.wrap h)).Answers world (.string text) := by
  have classed : world.heap.HasClass (.string text : Kind κ) := nofun
  exact wrap_answers_primitive host below classed found rfl rfl

theorem hasAttr_answers {name : String} {has : Bool}
    (same : ∀ later, world.heap.Extends later → later.hasAttr h name = has) :
    (runProgram (layer host below) (h.hasAttr name)).Answers world has := by
  have asked : runProgram (layer host below) (h.hasAttr name) =
      Exec.readHeap (·.hasAttr h name) := runProgram_ask _ (.hasAttr h name)
  rw [asked]
  exact Exec.answers_readHeap same

theorem fixedAttribute?_of_calleeName? {name : String} (named : kind.calleeName? = some name) :
    kind.fixedAttribute? "__name__" = some (.text name) := by
  cases kind with
  | type | function | callback | hostMethod =>
      cases named
      rfl
  | _ => cases named

/-- A callable without a name of its own is a bound method, and has no attribute at all. -/
theorem hasAttr_of_no_calleeName {heap : Heap κ} {object : HeapObject κ}
    (found : heap.cell? h = some (.object object)) (accepted : Heap.NamesAccepted (.object object))
    (callable : object.kind.isCallable = true) (nameless : object.kind.calleeName? = none)
    (name : String) : heap.hasAttr h name = false := by
  obtain ⟨kind, attributes⟩ := object
  cases kind with
  | boundMethod receiver own code =>
      obtain rfl : attributes = .empty := accepted rfl
      unfold Heap.hasAttr Heap.attribute?
      rw [found]
      rfl
  | type | function | callback | hostMethod => cases nameless
  | _ => cases callable

/-- A callable reports its name as a member. -/
theorem callee_members_answers {object : HeapObject κ}
    (found : world.heap.cell? h = some (.object object))
    (accepted : Heap.NamesAccepted (.object object)) (callable : object.kind.isCallable = true) :
    (runProgram (layer host below) (Delegator.callee.standardMembers h)).Answers world
      object.kind.calleeMembers := by
  unfold Delegator.standardMembers Kind.calleeMembers
  cases own : object.kind.calleeName? with
  | none =>
      have has := hasAttr_answers host below fun later extends_ =>
        hasAttr_of_no_calleeName (extends_ h _ found) accepted callable own "__name__"
      refine answers_program_bind has ?_
      exact Exec.answers_pure []
  | some name =>
      have fixed := fixedAttribute?_of_calleeName? own
      have isKind := Heap.kind?_of_cell? found
      have has := hasAttr_answers host below fun later extends_ =>
        Heap.hasAttr_of_text (extends_.kind? isKind) fixed
      refine answers_program_bind has ?_
      apply getAttr_text_bind host below isKind fixed
      intro value last isText
      exact answers_program_bind (wrap_answers_string host below isText) (Exec.answers_pure _)

theorem isCallable_of_kind? {heap : Heap κ} (found : heap.kind? h = some kind) :
    isCallable heap h = kind.isCallable := by
  obtain ⟨attributes, present⟩ := Heap.cell?_of_kind? found
  unfold isCallable
  rw [present]
  cases kind <;> rfl

theorem registry_answers (standard : world.loader = .standard) :
    (runProgram (layer host below) Program.registry).Answers world .standard := by
  have asked : runProgram (layer host below) Program.registry = ExceptT.lift registry :=
    runProgram_ask _ .registry
  rw [asked]
  intro later moves
  let last := if later.registryLoads = 0 then { later with registryLoads := 1 } else later
  have loaded : registry later = some (last.loader, last) := rfl
  have kept : later.Moves Heap.Extends last := moves_registry later _ last loaded
  refine ⟨last, ?_, kept⟩
  have same : last.loader = .standard := kept.loader.trans (moves.loader.trans standard)
  rw [← same]
  rfl

theorem isCallable_answers (found : world.heap.kind? h = some kind) :
    (runProgram (layer host below) h.isCallable).Answers world kind.isCallable := by
  have asked : runProgram (layer host below) h.isCallable = Exec.readHeap (isCallable · h) :=
    runProgram_ask _ (.isCallable h)
  rw [asked]
  exact Exec.answers_readHeap fun later extends_ => isCallable_of_kind? (extends_.kind? found)

theorem runProgram_members (delegator : Delegator κ) (own : ∀ code, delegator ≠ .host code) :
    runProgram (layer host below) (delegator.members h) =
      runProgram below (delegator.standardMembers h) := by
  have asked : runProgram (layer host below) (delegator.members h) =
      members host below delegator h :=
    ExceptT.ext (Interaction.run_ask _ (.members delegator h))
  rw [asked]
  cases delegator with
  | host code => exact absurd rfl (own code)
  | _ => rfl

theorem eq_sized_or_mapping {info : TypeInfo} {delegator : Delegator κ}
    (own : Registry.standard.get? (.type info) = some delegator) :
    delegator = .sized ∨ delegator = .mapping := by
  obtain ⟨before, after, parts, _⟩ := List.lookup_eq_some_iff.mp own
  have member : (info, delegator) ∈ (Registry.standard (κ := κ)).byType := by
    rw [parts]
    exact List.mem_append_right before List.mem_cons_self
  simp only [Registry.standard, List.mem_cons, Prod.mk.injEq, List.not_mem_nil, or_false] at member
  rcases member with ⟨_, sized⟩ | ⟨_, sized⟩ | ⟨_, mapping⟩
  · exact .inl sized
  · exact .inl sized
  · exact .inr mapping

/-- The delegator that the standard registry has for an object adds the object's members. -/
theorem members_answers {object : HeapObject κ} (info : TypeInfo)
    (found : world.heap.cell? h = some (.object object))
    (accepted : object.kind.isCallable = true → Heap.NamesAccepted (.object object)) :
    ∃ delegator, Registry.standard.delegatorFor object.kind.isCallable info = some delegator ∧
      (runProgram (layer host (layer host below)) (delegator.members h)).Answers world
        (object.kind.members info) := by
  unfold Registry.delegatorFor Kind.members
  cases callable : object.kind.isCallable with
  | true =>
      refine ⟨.callee, rfl, ?_⟩
      rw [runProgram_members host _ .callee nofun]
      exact callee_members_answers host below found (accepted callable) callable
  | false =>
      change ∃ delegator, (none <|> Registry.standard.get? (.type info) <|> some .bare) =
        some delegator ∧ _
      cases own : (Registry.standard (κ := κ)).get? (.type info) with
      | none =>
          refine ⟨.bare, rfl, ?_⟩
          rw [runProgram_members host _ .bare nofun]
          exact Exec.answers_pure []
      | some delegator =>
          refine ⟨delegator, rfl, ?_⟩
          rcases eq_sized_or_mapping own with rfl | rfl
          · rw [runProgram_members host _ .sized nofun]
            exact Exec.answers_pure _
          · rw [runProgram_members host _ .mapping nofun]
            exact Exec.answers_pure _

/-- An object with a view is wrapped to it, whatever else is on the heap. -/
theorem wrap_answers_view {object : HeapObject κ} {view : Object κ}
    (standard : world.loader = .standard) (classed : world.heap.HasClass object.kind)
    (accepted : object.kind.isCallable = true → Heap.NamesAccepted (.object object))
    (found : world.heap.cell? h = some (.object object))
    (viewed : world.heap.view? h object.kind = some view) :
    (runProgram (layer host (layer host below)) (Bridge.wrap h)).Answers world view := by
  have isKind := Heap.kind?_of_cell? found
  unfold Heap.view? at viewed
  dsimp only at viewed
  split at viewed
  · rename_i isNone
    cases viewed
    exact wrap_answers_none host _ classed isKind isNone
  · rename_i notNone
    split at viewed
    · rename_i isPrimitive
      obtain ⟨primitive, reads, rfl⟩ := Option.map_eq_some_iff.mp viewed
      exact wrap_answers_primitive host _ classed isKind isPrimitive reads
    · rename_i notPrimitive
      cases viewed
      obtain ⟨delegator, chosen, members⟩ :=
        members_answers host below _ found accepted
      unfold Bridge.wrap
      refine answers_program_bind (typeInfo_answers host _ classed isKind) ?_
      rw [if_neg notNone, if_neg notPrimitive]
      refine answers_program_bind (registry_answers host _ standard) ?_
      refine answers_program_bind (isCallable_answers host _ isKind) ?_
      rw [chosen]
      exact answers_program_bind members (Exec.answers_pure _)

theorem wrap_answers {object : HeapObject κ} {view : Object κ}
    (standard : world.loader = .standard) (sound : world.heap.Sound)
    (found : world.heap.cell? h = some (.object object))
    (viewed : world.heap.view? h object.kind = some view) :
    (runProgram (layer host (layer host below)) (Bridge.wrap h)).Answers world view :=
  wrap_answers_view host below standard (sound.hasClass (Heap.kind?_of_cell? found))
    (fun _ => (sound h _ found).2) found viewed

/-- An instance of a class that is named like a primitive type cannot be wrapped. -/
theorem wrap_fails {cls : Handle} (classed : world.heap.HasClass (.instanceOf cls))
    (found : world.heap.kind? h = some (.instanceOf cls))
    (isPrimitive : (world.heap.typeInfo (.instanceOf cls)).isPrimitive = true) :
    ∃ error after, (runProgram (layer host below) (Bridge.wrap h)).run world =
      some (.error error, after) := by
  obtain ⟨mid, typed, moves⟩ := (typeInfo_answers host below classed found).finishes
  have refused : mid.heap.primitive h =
      .error (.noPrimitive (mid.heap.typeName (.instanceOf cls))) :=
    Heap.primitive_of_kind? (moves.heap.kind? found)
  have checked : (Heap.Op.check (·.primitive h)).run mid.heap =
      .error (.noPrimitive (mid.heap.typeName (.instanceOf cls))) := by
    change (mid.heap.primitive h).map (·, mid.heap) = _
    rw [refused]
    rfl
  obtain ⟨error, after, failed⟩ : ∃ error after,
      (runProgram (layer host below) h.primitive).run mid = some (.error error, after) := by
    rw [runProgram_primitive]
    exact ⟨_, _, Run.attempt_of_error checked⟩
  refine ⟨error, after, ?_⟩
  unfold Bridge.wrap
  rw [run_bind_of_ok _ typed, if_neg (not_isNone_of_isPrimitive isPrimitive), if_pos isPrimitive,
    runProgram_bind]
  exact Exec.run_bind_eq_some_iff.mpr (.inr ⟨error, failed, rfl⟩)

end Machine

end Interop
