import Interop.Proofs.Bridge.Wrapping
import Interop.Proofs.Machine.Reachable
/-!
Wrapping and marshalling are inverse to each other under the standard registry: what the host hands
over comes back as itself, and what is wrapped goes back as itself or as an equal value.
-/

set_option autoImplicit false

namespace Interop

variable {κ σ : Type}

namespace Heap

variable {heap after : Heap κ} {h : Handle} {kind : Kind κ}

/-- The host has a proxy for an object whose type is not named like none or like a primitive. -/
theorem view?_eq_proxy_iff {p : Proxy κ} : heap.view? h kind = some (.proxy p) ↔
    (heap.typeInfo kind).isNone = false ∧ (heap.typeInfo kind).isPrimitive = false ∧
      p = .mk h (heap.typeInfo kind) (kind.members (heap.typeInfo kind)) := by
  unfold view?
  dsimp only
  cases (heap.typeInfo kind).isNone with
  | true => exact iff_of_false nofun nofun
  | false =>
      rw [if_neg Bool.false_ne_true]
      cases (heap.typeInfo kind).isPrimitive with
      | true =>
          refine iff_of_false ?_ nofun
          rw [if_pos rfl]
          intro same
          obtain ⟨primitive, _, impossible⟩ := Option.map_eq_some_iff.mp same
          cases primitive <;> cases impossible
      | false =>
          rw [if_neg Bool.false_ne_true]
          simp only [Option.some.injEq, Object.proxy.injEq, true_and]
          exact eq_comm

/-- An object for which the host has a proxy has the same proxy ever after. -/
theorem Evolves.view?_eq_proxy (evolves : heap.Evolves after) (classed : heap.HasClass kind)
    (found : heap.kind? h = some kind) {p : Proxy κ}
    (viewed : heap.view? h kind = some (.proxy p)) :
    ∃ later, after.kind? h = some later ∧ after.view? h later = some (.proxy p) := by
  obtain ⟨later, present, turns⟩ := evolves.kind? found
  refine ⟨later, present, ?_⟩
  have same := evolves.typeInfo classed turns
  rw [view?_eq_proxy_iff, same, turns.members]
  exact view?_eq_proxy_iff.mp viewed

/-- An argument of one value becomes a new object of that value. -/
theorem marshal_alloc {arg : Arg κ} (made : marshal arg = Op.alloc kind) (heap : Heap κ) :
    ∃ k last, (marshal arg).run heap = .ok (k, last) ∧ heap.Extends last ∧
      last.kind? k = some kind := by
  rw [made]
  exact ⟨heap.fresh, _, rfl, .push heap _, kind?_fresh heap kind⟩

theorem eq_none_of_isNone (isNone : (heap.typeInfo kind).isNone = true)
    (notInstance : kind.isInstance = false) : kind = .none := by
  cases kind with
  | none => rfl
  | instanceOf cls => cases notInstance
  | _ => simp [Heap.typeInfo, typeName, TypeInfo.isNone] at isNone

theorem marshal_big (value : Int64) :
    (marshal (.big value.toInt) : Op κ Handle) = Op.alloc (.int value) := by
  have fits : FitsWord value.toInt := ⟨value.le_toInt, value.toInt_lt⟩
  rw [marshal, word?, if_pos fits, Int64.ofInt_toInt]

theorem marshal_primitive {primitive : Primitive} (reads : kind.primitive? = some primitive) :
    marshal (Object.ofPrimitive primitive : Object κ).toArg = Op.alloc kind := by
  cases kind with
  | bool | int | float | string =>
      cases reads
      rfl
  | _ => cases reads

/-- What the host sees of none and of primitives goes back as an equal object. -/
theorem marshal_view {view : Object κ} (viewed : heap.view? h kind = some view)
    (notNoneType : kind.isInstance = true → (heap.typeInfo kind).isNone = false)
    (notProxy : ∀ p, view ≠ .proxy p) : marshal view.toArg = Op.alloc kind := by
  unfold view? at viewed
  dsimp only at viewed
  split at viewed
  · rename_i isNone
    cases viewed
    have notInstance : kind.isInstance = false := by
      by_contra isInstance
      rw [notNoneType (Bool.not_eq_false _ ▸ isInstance)] at isNone
      cases isNone
    rw [eq_none_of_isNone isNone notInstance]
    rfl
  · split at viewed
    · obtain ⟨primitive, reads, rfl⟩ := Option.map_eq_some_iff.mp viewed
      exact marshal_primitive reads
    · cases viewed
      exact absurd rfl (notProxy _)

theorem eq_instance_of_view?_eq_none (classed : heap.HasClass kind)
    (viewed : heap.view? h kind = none) : ∃ cls info, kind = .instanceOf cls ∧
      heap.kind? cls = some (.type info) ∧ info.name ∈ TypeInfo.primitiveNames := by
  obtain ⟨isPrimitive, isInstance⟩ := view?_eq_none_iff.mp viewed
  cases kind with
  | instanceOf cls =>
      obtain ⟨info, isType⟩ := classed cls rfl
      rw [typeInfo_of_isType isType] at isPrimitive
      exact ⟨cls, info, rfl, isType, List.contains_iff_mem.mp isPrimitive⟩
  | _ => cases isInstance

end Heap

namespace Bridge

open Machine (runProgram answer)

/-- A proxy that an object of the runtime was wrapped in, now or earlier. -/
def HasWrapped (host : Host κ σ) (world : World κ σ) (p : Proxy κ) : Prop :=
  ∃ layers before mid kind, World.Reachable host before ∧ before.heap.kind? p.handle = some kind ∧
    (runProgram (answer host (layers + 2)) (wrap p.handle)).run before =
      some (.ok (.proxy p), mid) ∧ mid.Moves Heap.Evolves world

/-- What a value of the host comes back as when it is marshalled and wrapped again: itself, but a
big integer as the word that it fits in. -/
inductive ReturnsAs (host : Host κ σ) (world : World κ σ) : Object κ → Object κ → Prop
  | none : ReturnsAs host world .none .none
  | bool (value : Bool) : ReturnsAs host world (.bool value) (.bool value)
  | int (value : Int64) : ReturnsAs host world (.int value) (.int value)
  | big (value : Int64) : ReturnsAs host world (.big value.toInt) (.int value)
  | float (value : Binary64) : ReturnsAs host world (.float value) (.float value)
  | string (value : String) : ReturnsAs host world (.string value) (.string value)
  | proxy {p : Proxy κ} (wrapped : HasWrapped host world p) :
      ReturnsAs host world (.proxy p) (.proxy p)

/-- What an object goes back as: itself if the host has a proxy for it, else an object of the same
kind and value. -/
def GoesBack (h : Handle) (kind : Kind κ) (view : Object κ) (heap : Heap κ) (k : Handle) : Prop :=
  match view with
  | .proxy p => p.handle = h ∧ k = h
  | _ => heap.kind? k = some kind

variable {host : Host κ σ} {world : World κ σ} (layers : Nat)

theorem wrap_of_view (reachable : world.Reachable host) (standard : world.loader = .standard)
    {h : Handle} {kind : Kind κ} {view : Object κ} (found : world.heap.kind? h = some kind)
    (viewed : world.heap.view? h kind = some view) :
    ∃ after, (runProgram (answer host (layers + 2)) (wrap h)).run world = some (.ok view, after) ∧
      world.Moves Heap.Extends after := by
  obtain ⟨attributes, present⟩ := Heap.cell?_of_kind? found
  have answers :=
    Machine.wrap_answers host (answer host layers) standard reachable.sound present viewed
  exact answers.finishes

/-- Wrapping finishes for every object, and gives its view, or an error if there is none. -/
theorem wrap_outcome (reachable : world.Reachable host) (standard : world.loader = .standard)
    {h : Handle} {kind : Kind κ} (found : world.heap.kind? h = some kind) :
    ∃ result after, (runProgram (answer host (layers + 2)) (wrap h)).run world =
        some (result, after) ∧
      (∀ error, result = .error error → world.heap.view? h kind = none) ∧
      ∀ object, result = .ok object → world.heap.view? h kind = some object := by
  cases viewed : world.heap.view? h kind with
  | some view =>
      obtain ⟨after, finished, _⟩ := wrap_of_view layers reachable standard found viewed
      refine ⟨.ok view, after, finished, nofun, ?_⟩
      rintro object ⟨⟩
      rfl
  | none =>
      obtain ⟨isPrimitive, isInstance⟩ := Heap.view?_eq_none_iff.mp viewed
      cases kind with
      | instanceOf cls =>
          obtain ⟨error, after, finished⟩ := Machine.wrap_fails host (answer host (layers + 1))
            (reachable.sound.hasClass found) found isPrimitive
          exact ⟨.error error, after, finished, fun _ _ => rfl, nofun⟩
      | _ => cases isInstance

theorem run_marshal (host : Host κ σ) {arg : Arg κ} {k : Handle} {heap : Heap κ}
    (made : (Heap.marshal arg).run world.heap = .ok (k, heap)) :
    (runProgram (answer host (layers + 2)) (Program.marshal arg)).run world =
      some (.ok k, { world with heap := heap }) := by
  have asked : runProgram (answer host (layers + 2)) (Program.marshal arg) =
      Exec.ofOp (Heap.marshal arg) :=
    ExceptT.ext (Interaction.run_ask _ (.marshal arg))
  rw [asked]
  exact Run.attempt_of_ok made

/-- What is marshalled to an object is wrapped to the object's view. -/
theorem wrap_marshal (reachable : world.Reachable host) (standard : world.loader = .standard)
    {arg : Arg κ} {k : Handle} {heap : Heap κ} {kind : Kind κ} {view : Object κ}
    (made : (Heap.marshal arg).run world.heap = .ok (k, heap)) (found : heap.kind? k = some kind)
    (viewed : heap.view? k kind = some view) :
    ∃ after, (runProgram (answer host (layers + 2)) (Program.marshal arg >>= wrap)).run world =
        some (.ok view, after) ∧ world.Moves Heap.Extends after := by
  have marshalled := run_marshal layers host made
  have answered : answer host 1 (.marshal arg) world =
      some (.ok k, { world with heap := heap }) := Run.attempt_of_ok made
  obtain ⟨after, finished, moves⟩ :=
    wrap_of_view layers (reachable.answer answered) standard found viewed
  refine ⟨after, ?_, ?_⟩
  · rw [Machine.run_bind_of_ok _ marshalled]
    exact finished
  · have grown : world.heap.Extends heap := Heap.moves_marshal arg _ _ _ made
    exact (World.Moves.ofHeap grown).trans moves

/-- A new object is wrapped to the value that it was made of. -/
theorem wrap_marshal_fresh (reachable : world.Reachable host)
    (standard : world.loader = .standard) {arg : Arg κ} {kind : Kind κ} {view : Object κ}
    (made : Heap.marshal arg = Heap.Op.alloc kind)
    (viewed : ∀ heap k, Heap.view? heap k kind = some view) :
    ∃ after, (runProgram (answer host (layers + 2)) (Program.marshal arg >>= wrap)).run world =
        some (.ok view, after) ∧ world.Moves Heap.Extends after := by
  obtain ⟨k, heap, finished, _, found⟩ := Heap.marshal_alloc made world.heap
  exact wrap_marshal layers reachable standard finished found (viewed heap k)

theorem wrap_marshal_proxy (reachable : world.Reachable host)
    (standard : world.loader = .standard) {p : Proxy κ} (wrapped : HasWrapped host world p) :
    ∃ after, (runProgram (answer host (layers + 2))
        (Program.marshal (.handle p.handle) >>= wrap)).run world = some (.ok (.proxy p), after) ∧
      world.Moves Heap.Extends after := by
  obtain ⟨earlier, before, mid, kind, early, found, finished, late⟩ := wrapped
  have moved : before.Moves Heap.Evolves mid :=
    Machine.evolves_runProgram (Machine.evolves_answer host (earlier + 2)) _ _ _ _ finished
  have moves := moved.trans late
  obtain ⟨result, after, same, _, gives⟩ :=
    wrap_outcome earlier early (moves.loader.symm.trans standard) found
  cases finished.symm.trans same
  have viewed := gives (.proxy p) rfl
  obtain ⟨later, present, viewed⟩ :=
    moves.heap.view?_eq_proxy (early.sound.hasClass found) found viewed
  exact wrap_marshal layers reachable standard rfl present viewed

/-- What the host sees of an object goes back as the object itself, or as an equal one. -/
theorem marshal_of_view (host : Host κ σ) {heap : Heap κ} {h : Handle} {kind : Kind κ}
    {view : Object κ} (classed : heap.HasClass kind) (viewed : heap.view? h kind = some view)
    (notNoneType : ∀ cls info, kind = .instanceOf cls → heap.kind? cls = some (.type info) →
      info.name ≠ "NoneType") (mid : World κ σ) :
    ∃ k after, (runProgram (answer host (layers + 2)) (Program.marshal view.toArg)).run mid =
        some (.ok k, after) ∧ GoesBack h kind view after.heap k := by
  have named : kind.isInstance = true → (heap.typeInfo kind).isNone = false := by
    intro isInstance
    cases kind with
    | instanceOf cls =>
        obtain ⟨info, isType⟩ := classed cls rfl
        rw [Heap.typeInfo_of_isType isType]
        exact beq_eq_false_iff_ne.mpr (notNoneType cls info rfl isType)
    | _ => cases isInstance
  by_cases proxied : ∃ p, view = .proxy p
  · obtain ⟨p, rfl⟩ := proxied
    obtain ⟨_, _, rfl⟩ := Heap.view?_eq_proxy_iff.mp viewed
    exact ⟨h, _, run_marshal layers host rfl, rfl, rfl⟩
  · have made := Heap.marshal_view viewed named fun p same => proxied ⟨p, same⟩
    obtain ⟨k, last, finished, _, present⟩ := Heap.marshal_alloc made mid.heap
    refine ⟨k, _, run_marshal layers host finished, ?_⟩
    unfold GoesBack
    split
    · exact absurd ⟨_, rfl⟩ proxied
    · exact present

/-- Under the standard registry, wrapping and marshalling are inverse to each other. A value of the
host is marshalled and wrapped to itself. An object of the runtime is wrapped and marshalled to
itself if the host has a proxy for it, and to an equal object if not; only for an instance of a
class that is named like a primitive type does wrapping fail. -/
theorem wrap_marshal_inverse (reachable : world.Reachable host)
    (standard : world.loader = .standard) :
    (∀ object view, ReturnsAs host world object view →
      ∃ after, (runProgram (answer host (layers + 2))
          (Program.marshal object.toArg >>= wrap)).run world = some (.ok view, after)) ∧
    ∀ h kind, world.heap.kind? h = some kind →
      ∃ result mid, (runProgram (answer host (layers + 2)) (wrap h)).run world =
          some (result, mid) ∧
        (∀ error, result = .error error → ∃ cls info, kind = .instanceOf cls ∧
          world.heap.kind? cls = some (.type info) ∧ info.name ∈ TypeInfo.primitiveNames) ∧
        ∀ object, result = .ok object →
          (∀ cls info, kind = .instanceOf cls → world.heap.kind? cls = some (.type info) →
            info.name ≠ "NoneType") →
          ∃ k after, (runProgram (answer host (layers + 2))
              (Program.marshal object.toArg)).run mid = some (.ok k, after) ∧
            GoesBack h kind object after.heap k := by
  constructor
  · intro object view returns
    obtain ⟨after, finished, _⟩ : ∃ after, (runProgram (answer host (layers + 2))
        (Program.marshal object.toArg >>= wrap)).run world = some (.ok view, after) ∧
          world.Moves Heap.Extends after := by
      cases returns with
      | none => exact wrap_marshal_fresh layers reachable standard rfl fun _ _ => rfl
      | bool value => exact wrap_marshal_fresh layers reachable standard rfl fun _ _ => rfl
      | int value => exact wrap_marshal_fresh layers reachable standard rfl fun _ _ => rfl
      | big value =>
          exact wrap_marshal_fresh layers reachable standard (Heap.marshal_big value) fun _ _ => rfl
      | float value => exact wrap_marshal_fresh layers reachable standard rfl fun _ _ => rfl
      | string value => exact wrap_marshal_fresh layers reachable standard rfl fun _ _ => rfl
      | proxy wrapped => exact wrap_marshal_proxy layers reachable standard wrapped
    exact ⟨after, finished⟩
  · intro h kind found
    obtain ⟨result, mid, finished, fails, gives⟩ := wrap_outcome layers reachable standard found
    have classed := reachable.sound.hasClass found
    refine ⟨result, mid, finished, ?_, ?_⟩
    · intro error failed
      exact Heap.eq_instance_of_view?_eq_none classed (fails error failed)
    · intro object wrapped notNoneType
      exact marshal_of_view layers host classed (gives object wrapped) notNoneType mid

/-- In a fresh world, the greatest word and the proxy of the builtin `len` come back as they are,
and the namespace of globals goes back as itself. -/
theorem wrap_marshal_inverse_start :
    let answer := Machine.answer Host.answeringNone 2
    let world : World Unit Unit := .start {} .standard ()
    let len : Proxy Unit := .mk ⟨1⟩ ⟨"builtins", "function"⟩ [("name", .value (.string "len"))]
    (∃ after, (runProgram answer (Program.marshal (.big Int64.maxValue.toInt) >>= wrap)).run world =
      some (.ok (.int Int64.maxValue), after)) ∧
    (∃ mid after, (runProgram answer (wrap ⟨1⟩)).run world = some (.ok (.proxy len), mid) ∧
      (runProgram answer (Program.marshal (.handle ⟨1⟩) >>= wrap)).run mid =
        some (.ok (.proxy len), after)) ∧
    ∃ object mid k after, (runProgram answer (wrap world.globals)).run world =
        some (.ok object, mid) ∧
      (runProgram answer (Program.marshal object.toArg)).run mid = some (.ok k, after) ∧
      GoesBack world.globals (.dict .empty) object after.heap k := by
  intro answer world len
  have reachable : world.Reachable Host.answeringNone := .start {} .standard ()
  obtain ⟨returns, goesBack⟩ := wrap_marshal_inverse 0 reachable rfl
  refine ⟨?_, ?_, ?_⟩
  · exact returns (.big Int64.maxValue.toInt) (.int Int64.maxValue) (.big Int64.maxValue)
  · have function : world.heap.kind? ⟨1⟩ = some (.function "len" (.builtin .len)) := rfl
    have viewed : world.heap.view? ⟨1⟩ (.function "len" (.builtin .len)) = some (.proxy len) := rfl
    obtain ⟨mid, finished, moves⟩ := wrap_of_view 0 reachable rfl function viewed
    have wrapped : HasWrapped Host.answeringNone mid len :=
      ⟨0, world, mid, _, reachable, function, finished, .refl mid⟩
    obtain ⟨after, again⟩ :=
      (wrap_marshal_inverse 0 (reachable.run finished) moves.loader).1 _ _ (.proxy wrapped)
    exact ⟨mid, after, finished, again⟩
  · obtain ⟨result, mid, finished, fails, back⟩ := goesBack world.globals (.dict .empty) rfl
    cases result with
    | error error =>
        obtain ⟨cls, info, impossible, _⟩ := fails error rfl
        cases impossible
    | ok object =>
        obtain ⟨k, after, marshalled, goes⟩ := back object rfl nofun
        exact ⟨object, mid, k, after, finished, marshalled, goes⟩

end Bridge

end Interop
