import Interop.Proofs.Bridge.Passing
/-!
Two runs beside each other. Each goes on in a world of its own and knows nothing of the other.
`Agree` says of a computation in either that both finish and give the same: related answers, or the
same error. Computations that are put together of parts agree if their parts do.
-/

set_option autoImplicit false

namespace Interop

variable {κ σ α β γ δ : Type}

/-! ### The same results -/

/-- An exception of a builtin type, as the runtime makes it: its value holds the message. -/
structure Heap.HasException (heap : Heap κ) (exception : ForeignException)
    (kind message : String) : Prop where
  excType : heap.kind? exception.excType = some (.type ⟨"builtins", kind⟩)
  value : ∃ args text, heap.cell? exception.value =
      some (.object ⟨.instanceOf exception.excType, .ofEntries [("args", args)]⟩) ∧
    heap.kind? args = some (.tuple [text]) ∧ heap.kind? text = some (.string message)
  traceback : exception.traceback = none
  told : exception.message = if message = "" then kind else kind ++ ": " ++ message

theorem Heap.hasException_addException (heap : Heap κ) (kind message : String) :
    (heap.addException kind message).2.HasException (heap.addException kind message).1
      kind message where
  excType := kind?_push (kind?_push (kind?_push (kind?_fresh heap _) _) _) _
  value := by
    let typed := heap.push (.object ⟨.type ⟨"builtins", kind⟩, .empty⟩)
    let told := typed.push (.object ⟨.string message, .empty⟩)
    let held := told.push (.object ⟨.tuple [typed.fresh], .empty⟩)
    have isText : told.kind? typed.fresh = some (.string message) := kind?_fresh typed _
    have isTuple : held.kind? told.fresh = some (.tuple [typed.fresh]) := kind?_fresh told _
    refine ⟨told.fresh, typed.fresh, ?_, kind?_push isTuple _, kind?_push (kind?_push isText _) _⟩
    exact (cell?_push held _ held.fresh).trans (if_pos rfl)
  traceback := rfl
  told := rfl

/-- Two errors are the same: one type error of the host, or exceptions of one type and message. -/
inductive Error.Same (heap other : Heap κ) : Error → Error → Prop
  | type (fault : TypeFault) : Same heap other (.type fault) (.type fault)
  | foreign {exception twin : ForeignException} {kind message : String}
      (here : heap.HasException exception kind message)
      (there : other.HasException twin kind message) :
      Same heap other (.foreign exception) (.foreign twin)

/-- A fault becomes the same error wherever it is raised. -/
theorem Error.same_raise (heap other : Heap κ) (fault : Fault) :
    Error.Same (heap.raise fault).2 (other.raise fault).2 (heap.raise fault).1
      (other.raise fault).1 := by
  unfold Heap.raise
  cases fault.report with
  | typeError message => exact .type (.stated message)
  | exception kind message =>
      exact .foreign (heap.hasException_addException kind message)
        (other.hasException_addException kind message)

/-- Two results are the same: answers that are related, or the same error. -/
inductive Heap.SameResult (heap other : Heap κ) (related : α → β → Prop) :
    Except Error α → Except Error β → Prop
  | ok {a : α} {b : β} (same : related a b) : SameResult heap other related (.ok a) (.ok b)
  | error {error twin : Error} (same : error.Same heap other twin) :
      SameResult heap other related (.error error) (.error twin)

/-! ### Computations in two worlds -/

namespace Exec

/-- Two computations, each in its own world, both finish and only add cells. Their answers are
related, as the heaps then are, or both fail with the same error. -/
def Agree (x : Exec κ σ α) (y : Exec κ σ β) (first second : World κ σ)
    (related : Heap κ → Heap κ → α → β → Prop) : Prop :=
  ∃ result twin after later, x.run first = some (result, after) ∧
    y.run second = some (twin, later) ∧
    first.Moves Heap.Extends after ∧ second.Moves Heap.Extends later ∧
    after.heap.SameResult later.heap (related after.heap later.heap) result twin

variable {x : Exec κ σ α} {y : Exec κ σ β} {first second : World κ σ}
  {related more : Heap κ → Heap κ → α → β → Prop}

theorem agree_pure {a : α} {b : β} (same : related first.heap second.heap a b) :
    (pure a : Exec κ σ α).Agree (pure b) first second related :=
  ⟨.ok a, .ok b, first, second, rfl, rfl, .refl first, .refl second, .ok same⟩

theorem Agree.mono (agree : x.Agree y first second related)
    (weaker : ∀ heap other a b, first.heap.Extends heap → second.heap.Extends other →
      related heap other a b → more heap other a b) :
    x.Agree y first second more := by
  obtain ⟨result, twin, after, later, here, there, moves, moves', same⟩ := agree
  refine ⟨result, twin, after, later, here, there, moves, moves', ?_⟩
  cases same with
  | ok same => exact .ok (weaker _ _ _ _ moves.heap moves'.heap same)
  | error same => exact .error same

/-- What fails with the same error agrees; what answers goes on from there. -/
theorem Agree.bind {f : α → Exec κ σ γ} {g : β → Exec κ σ δ}
    {next : Heap κ → Heap κ → γ → δ → Prop} (agree : x.Agree y first second related)
    (rest : ∀ a b mid other, first.Moves Heap.Extends mid → second.Moves Heap.Extends other →
      related mid.heap other.heap a b → (f a).Agree (g b) mid other next) :
    (x >>= f).Agree (y >>= g) first second next := by
  obtain ⟨result, twin, mid, other, here, there, moves, moves', same⟩ := agree
  cases same with
  | ok same =>
      obtain ⟨result, twin, after, later, ended, ended', late, late', same⟩ :=
        rest _ _ mid other moves moves' same
      exact ⟨result, twin, after, later, (run_bind_of_ok here).trans ended,
        (run_bind_of_ok there).trans ended', moves.trans late, moves'.trans late', same⟩
  | error same =>
      exact ⟨_, _, mid, other, run_bind_of_error here, run_bind_of_error there, moves, moves',
        .error same⟩

/-- What only looks, in each of two worlds. -/
theorem Answers.agree {a : α} {b : β} (here : x.Answers first a) (there : y.Answers second b)
    (same : ∀ heap other, first.heap.Extends heap → second.heap.Extends other →
      related heap other a b) : x.Agree y first second related := by
  obtain ⟨after, finished, moves⟩ := here.finishes
  obtain ⟨later, finished', moves'⟩ := there.finishes
  exact ⟨_, _, after, later, finished, finished', moves, moves',
    .ok (same _ _ moves.heap moves'.heap)⟩

end Exec

/-- Two operations do the same, each in its own heap: both succeed with related answers and only add
cells, or both are refused with one fault. -/
def Heap.Op.Agree (op : Heap.Op κ α) (twin : Heap.Op κ β) (heap other : Heap κ)
    (related : Heap κ → Heap κ → α → β → Prop) : Prop :=
  (∃ a b after later, op.run heap = .ok (a, after) ∧ twin.run other = .ok (b, later) ∧
    heap.Extends after ∧ other.Extends later ∧ related after later a b) ∨
  ∃ fault, op.run heap = .error fault ∧ twin.run other = .error fault

theorem Exec.agree_ofOp {first second : World κ σ} {op : Heap.Op κ α} {twin : Heap.Op κ β}
    {related : Heap κ → Heap κ → α → β → Prop}
    (agree : op.Agree twin first.heap second.heap related) :
    (ofOp op : Exec κ σ α).Agree (ofOp twin) first second related := by
  rcases agree with ⟨a, b, heap, other, here, there, grows, grows', same⟩ | ⟨fault, here, there⟩
  · exact ⟨_, _, _, _, Run.attempt_of_ok here, Run.attempt_of_ok there, .ofHeap grows,
      .ofHeap grows', .ok same⟩
  · exact ⟨_, _, _, _, Run.attempt_of_error here, Run.attempt_of_error there,
      .ofHeap (Heap.along_raise _ fault), .ofHeap (Heap.along_raise _ fault),
      .error (Error.same_raise _ _ fault)⟩

theorem Heap.Op.agree_check {heap other : Heap κ} {f g : Heap κ → Except Fault α}
    (same : f heap = g other) :
    (check f).Agree (check g) heap other fun _ _ a b => a = b := by
  have here : (check f).run heap = (f heap).map (·, heap) := rfl
  have there : (check g).run other = (g other).map (·, other) := rfl
  rw [same] at here
  cases outcome : g other with
  | ok a =>
      rw [outcome] at here there
      exact .inl ⟨a, a, heap, other, here, there, .refl heap, .refl other, rfl⟩
  | error fault =>
      rw [outcome] at here there
      exact .inr ⟨fault, here, there⟩

/-! ### Values that look the same -/

/-- Two objects of the host are the same, but for the values that proxies stand for. -/
inductive Object.Twin (related : Handle → Handle → Prop) : Object κ → Object κ → Prop
  | none : Twin related .none .none
  | primitive (primitive : Primitive) :
      Twin related (.ofPrimitive primitive) (.ofPrimitive primitive)
  | proxy {h k : Handle} {info : TypeInfo} {members : Entries (Member κ)} (same : related h k) :
      Twin related (.proxy (.mk h info members)) (.proxy (.mk k info members))

theorem Object.Twin.mono {related more : Handle → Handle → Prop} {object twin : Object κ}
    (same : object.Twin related twin) (weaker : ∀ h k, related h k → more h k) :
    object.Twin more twin := by
  cases same with
  | none => exact .none
  | primitive primitive => exact .primitive primitive
  | proxy same => exact .proxy (weaker _ _ same)

namespace Heap

/-- What the host can tell about two values is the same: the identity of their types, what they read
as, and whether and under which name they can be called. -/
def LookSame (heap other : Heap κ) (h k : Handle) : Prop :=
  ∃ kind twin, heap.kind? h = some kind ∧ other.kind? k = some twin ∧
    heap.typeInfo kind = other.typeInfo twin ∧ kind.primitive? = twin.primitive? ∧
    kind.isCallable = twin.isCallable ∧ kind.calleeName? = twin.calleeName?

/-- If the value is an object, it has its class, and only attributes that it accepts if it can be
called; so it is with every object of a sound heap. -/
def Regular (heap : Heap κ) (h : Handle) : Prop :=
  ∀ object, heap.cell? h = some (.object object) →
    heap.HasClass object.kind ∧ (object.kind.isCallable = true → NamesAccepted (.object object))

theorem Sound.regular {heap : Heap κ} (sound : heap.Sound) (h : Handle) : heap.Regular h :=
  fun _ present => ⟨sound.hasClass (kind?_of_cell? present), fun _ => (sound h _ present).2⟩

theorem Regular.extends {heap after : Heap κ} {h : Handle} {kind : Kind κ}
    (regular : heap.Regular h) (found : heap.kind? h = some kind) (grows : heap.Extends after) :
    after.Regular h := by
  intro object present
  obtain ⟨attributes, before⟩ := cell?_of_kind? found
  cases (grows h _ before).symm.trans present
  obtain ⟨classed, accepted⟩ := regular _ before
  exact ⟨grows.hasClass classed, accepted⟩

theorem LookSame.extends {heap other after later : Heap κ} {h k : Handle}
    (look : heap.LookSame other h k) (regular : heap.Regular h) (regular' : other.Regular k)
    (grows : heap.Extends after) (grows' : other.Extends later) : after.LookSame later h k := by
  obtain ⟨kind, twin, found, found', info, same⟩ := look
  obtain ⟨attributes, present⟩ := cell?_of_kind? found
  obtain ⟨attributes', present'⟩ := cell?_of_kind? found'
  refine ⟨kind, twin, grows.kind? found, grows'.kind? found', ?_, same⟩
  rw [grows.typeInfo (regular _ present).1, grows'.typeInfo (regular' _ present').1, info]

/-- What two heaps have from a common past looks the same in both, whatever has happened since. -/
theorem lookSame_of_past {past heap other : Heap κ} (sound : past.Sound)
    (here : past.Evolves heap) (there : past.Evolves other) {h : Handle} {kind : Kind κ}
    (found : past.kind? h = some kind) : heap.LookSame other h h := by
  obtain ⟨later, foundHere, turns⟩ := here.kind? found
  obtain ⟨twin, foundThere, turns'⟩ := there.kind? found
  have classed := sound.hasClass found
  have primitive : ∀ {kind changed : Kind κ}, kind.Becomes changed →
      changed.primitive? = kind.primitive? := by
    rintro _ _ ⟨⟩ <;> rfl
  refine ⟨later, twin, foundHere, foundThere, ?_, ?_, ?_, ?_⟩
  · rw [here.typeInfo classed turns, there.typeInfo classed turns']
  · rw [turns.keeps (f := Kind.primitive?) primitive, turns'.keeps (f := Kind.primitive?) primitive]
  · rw [turns.keeps (f := Kind.isCallable) Kind.isCallable_becomes,
      turns'.keeps (f := Kind.isCallable) Kind.isCallable_becomes]
  · rw [turns.keeps (f := Kind.calleeName?) Kind.calleeName?_becomes,
      turns'.keeps (f := Kind.calleeName?) Kind.calleeName?_becomes]

end Heap

/-! ### Wrapping in two worlds -/

namespace Machine

variable {host : Host κ σ} {below : Handler κ σ} {first second : World κ σ} {h k : Handle}

theorem agree_primitive (look : first.heap.LookSame second.heap h k) :
    (runProgram (layer host below) h.primitive).Agree (runProgram (layer host below) k.primitive)
      first second fun _ _ a b => a = b := by
  obtain ⟨kind, twin, found, found', info, reads, _, _⟩ := look
  rw [runProgram_primitive, runProgram_primitive]
  refine Exec.agree_ofOp (Heap.Op.agree_check ?_)
  rw [Heap.primitive_of_kind? found, Heap.primitive_of_kind? found', reads,
    ← Heap.typeInfo_name, ← Heap.typeInfo_name, info]

theorem agree_members (info : TypeInfo) {object twin : HeapObject κ}
    (present : first.heap.cell? h = some (.object object))
    (present' : second.heap.cell? k = some (.object twin))
    (accepted : object.kind.isCallable = true → Heap.NamesAccepted (.object object))
    (accepted' : twin.kind.isCallable = true → Heap.NamesAccepted (.object twin))
    (callable : object.kind.isCallable = twin.kind.isCallable)
    (named : object.kind.calleeName? = twin.kind.calleeName?) :
    ∃ delegator, Registry.standard.delegatorFor object.kind.isCallable info = some delegator ∧
      (runProgram (layer host (layer host below)) (delegator.members h)).Agree
        (runProgram (layer host (layer host below)) (delegator.members k)) first second
        fun _ _ a b => a = b := by
  obtain ⟨delegator, chosen, answers⟩ := members_answers host below info present accepted
  obtain ⟨delegator', chosen', answers'⟩ := members_answers host below info present' accepted'
  rw [← callable, chosen] at chosen'
  cases chosen'
  refine ⟨delegator, chosen, answers.agree answers' fun _ _ _ _ => ?_⟩
  unfold Kind.members Kind.calleeMembers
  rw [callable, named]

/-- Under the standard registry, values that look the same are wrapped to the same object. -/
theorem agree_wrap (regular : first.heap.Regular h) (regular' : second.heap.Regular k)
    (standard : first.loader = .standard) (standard' : second.loader = .standard)
    (look : first.heap.LookSame second.heap h k) :
    (runProgram (layer host (layer host below)) (Bridge.wrap h)).Agree
      (runProgram (layer host (layer host below)) (Bridge.wrap k)) first second
      fun _ _ => Object.Twin fun a b => a = h ∧ b = k := by
  obtain ⟨kind, twin, found, found', info, reads, callable, named⟩ := id look
  obtain ⟨attributes, present⟩ := Heap.cell?_of_kind? found
  obtain ⟨attributes', present'⟩ := Heap.cell?_of_kind? found'
  obtain ⟨classed, accepted⟩ := regular _ present
  obtain ⟨classed', accepted'⟩ := regular' _ present'
  have typed : (runProgram (layer host (layer host below)) h.typeInfo).Agree
      (runProgram (layer host (layer host below)) k.typeInfo) first second fun _ _ a b => a = b :=
    (typeInfo_answers host (layer host below) classed found).agree
      (typeInfo_answers host (layer host below) classed' found') fun _ _ _ _ => info
  unfold Bridge.wrap
  rw [runProgram_bind, runProgram_bind]
  refine typed.bind ?_
  rintro own _ mid other moves moves' rfl
  split
  · exact Exec.agree_pure .none
  split
  · rw [runProgram_bind, runProgram_bind]
    refine (agree_primitive (look.extends regular regular' moves.heap moves'.heap)).bind ?_
    rintro primitive _ _ _ _ _ rfl
    exact Exec.agree_pure (.primitive primitive)
  -- a proxy: its members are those of the delegator that both runs choose
  have loaded : (runProgram (layer host (layer host below)) Program.registry).Agree
      (runProgram (layer host (layer host below)) Program.registry) mid other
      fun _ _ a b => a = .standard ∧ b = .standard :=
    ((registry_answers host (layer host below) standard).later moves).agree
      ((registry_answers host (layer host below) standard').later moves') fun _ _ _ _ => ⟨rfl, rfl⟩
  rw [runProgram_bind, runProgram_bind]
  refine loaded.bind ?_
  rintro _ _ early early' grows grows' ⟨rfl, rfl⟩
  have here := moves.trans grows
  have there := moves'.trans grows'
  have asked : (runProgram (layer host (layer host below)) h.isCallable).Agree
      (runProgram (layer host (layer host below)) k.isCallable) early early'
      fun _ _ a b => a = kind.isCallable ∧ b = kind.isCallable :=
    ((isCallable_answers host (layer host below) found).later here).agree
      ((isCallable_answers host (layer host below) found').later there)
      fun _ _ _ _ => ⟨rfl, callable.symm⟩
  rw [runProgram_bind, runProgram_bind]
  refine asked.bind ?_
  rintro _ _ last last' more more' ⟨rfl, rfl⟩
  obtain ⟨delegator, chosen, members⟩ := agree_members own ((here.trans more).heap _ _ present)
    ((there.trans more').heap _ _ present') accepted accepted' callable named
  rw [chosen]
  dsimp only
  rw [runProgram_bind, runProgram_bind]
  refine members.bind ?_
  rintro added _ _ _ _ _ rfl
  exact Exec.agree_pure (.proxy ⟨rfl, rfl⟩)

end Machine

end Interop
