import Interop.Proofs.Bridge.RoundTrip
/-!
What wrapping hands on. Whatever registry a bridge has, and whatever members its delegators add, an
object that was wrapped is handed on as one of two things: the handle it came from, or an argument
that makes a plain value of the same kind.
-/

set_option autoImplicit false

namespace Interop

variable {κ σ α β : Type}

/-- The argument that makes a plain value: none or a primitive. -/
def Kind.plainArg? : Kind κ → Option (Arg κ)
  | .none => some .none
  | .bool value => some (.bool value)
  | .int value => some (.int value)
  | .float value => some (.float value)
  | .string value => some (.string value)
  | _ => Option.none

theorem Kind.fixed_of_plain {kind : Kind κ} {arg : Arg κ} (makes : kind.plainArg? = some arg)
    (changed : Kind κ) : ¬ kind.Becomes changed := by
  intro becomes
  cases becomes <;> cases makes

theorem Kind.plainArg?_of_primitive? {kind : Kind κ} {primitive : Primitive}
    (reads : kind.primitive? = some primitive) :
    kind.plainArg? = some (Object.ofPrimitive primitive : Object κ).toArg := by
  cases kind <;> cases reads <;> rfl

/-- One plain value, or proxies of one foreign value. -/
inductive Object.Alike : Object κ → Object κ → Prop
  | refl (object : Object κ) : Alike object object
  | proxy {p q : Proxy κ} (same : p.handle = q.handle) : Alike (.proxy p) (.proxy q)

theorem Object.Alike.toArg_eq {object view : Object κ} (alike : object.Alike view) :
    object.toArg = view.toArg := by
  cases alike with
  | refl => rfl
  | proxy same => exact congrArg Arg.handle same

/-- What is seen like a proxy is a proxy of the same value. -/
theorem Object.Alike.eq_proxy {object : Object κ} {p : Proxy κ} (alike : object.Alike (.proxy p)) :
    ∃ q, object = .proxy q ∧ q.handle = p.handle := by
  cases alike with
  | refl => exact ⟨p, rfl, rfl⟩
  | proxy same => exact ⟨_, rfl, same⟩

namespace Heap

/-- An argument that stands for a value: its handle, or the argument that makes such a value if it
is a plain one. -/
inductive PassedAs (heap : Heap κ) (h : Handle) : Arg κ → Prop
  | handle : PassedAs heap h (.handle h)
  | plain {kind : Kind κ} {arg : Arg κ} (found : heap.kind? h = some kind)
      (makes : kind.plainArg? = some arg) : PassedAs heap h arg

/-- The host sees a value as an object. -/
def HasView (heap : Heap κ) (h : Handle) (view : Object κ) : Prop :=
  ∃ object, heap.cell? h = some (.object object) ∧ heap.view? h object.kind = some view

variable {heap after : Heap κ} {h : Handle} {kind : Kind κ} {arg : Arg κ}

theorem marshal_plain (makes : kind.plainArg? = some arg) : marshal arg = Op.alloc kind := by
  cases kind <;> cases makes <;> rfl

theorem PassedAs.evolves (passed : heap.PassedAs h arg) (evolves : heap.Evolves after) :
    after.PassedAs h arg := by
  cases passed with
  | handle => exact .handle
  | plain found makes =>
      exact .plain (evolves.kind?_eq found (Kind.fixed_of_plain makes)) makes

/-- A value that was there before can be read off from any later heap. -/
theorem PassedAs.before (passed : after.PassedAs h arg) (extends_ : heap.Extends after)
    (there : heap.kind? h = some kind) : heap.PassedAs h arg := by
  cases passed with
  | handle => exact .handle
  | plain found makes =>
      rw [extends_.kind? there] at found
      cases found
      exact .plain there makes

/-- What the host sees of a value is handed on as this value, if the value is no instance of a class
that is named like the type of none. -/
theorem passedAs_of_view {view : Object κ} (found : heap.kind? h = some kind)
    (viewed : heap.view? h kind = some view)
    (notNoneType : kind.isInstance = true → (heap.typeInfo kind).isNone = false) :
    heap.PassedAs h view.toArg := by
  unfold view? at viewed
  dsimp only at viewed
  split at viewed
  · rename_i isNone
    cases viewed
    refine .plain found ?_
    cases instance_ : kind.isInstance with
    | true =>
        rw [notNoneType instance_] at isNone
        cases isNone
    | false =>
        rw [eq_none_of_isNone isNone instance_]
        rfl
  · split at viewed
    · obtain ⟨primitive, reads, rfl⟩ := Option.map_eq_some_iff.mp viewed
      exact .plain found (Kind.plainArg?_of_primitive? reads)
    · cases viewed
      exact .handle

end Heap

namespace Machine

theorem run_bind_eq_ok_iff {below : Handler κ σ} {x : Program κ σ α} {f : α → Program κ σ β}
    {world after : World κ σ} {b : β} :
    (runProgram below (x >>= f)).run world = some (.ok b, after) ↔
      ∃ a mid, (runProgram below x).run world = some (.ok a, mid) ∧
        (runProgram below (f a)).run mid = some (.ok b, after) := by
  rw [runProgram_bind, Exec.run_bind_eq_some_iff]
  constructor
  · rintro (finished | ⟨error, _, impossible⟩)
    · exact finished
    · cases impossible
  · exact .inl

variable {host : Host κ σ} {below : Handler κ σ} {world after : World κ σ} {h : Handle}
  {kind : Kind κ} {object : Object κ}

theorem primitive?_of_run {primitive : Primitive} (found : world.heap.kind? h = some kind)
    (read : (runProgram (layer host below) h.primitive).run world = some (.ok primitive, after)) :
    kind.primitive? = some primitive := by
  cases reads : kind.primitive? with
  | some own =>
      rw [run_primitive host below found reads] at read
      cases read
      rfl
  | none =>
      have refused : (Heap.Op.check (·.primitive h)).run world.heap =
          .error (.noPrimitive (world.heap.typeName kind)) := by
        change (world.heap.primitive h).map (·, world.heap) = _
        rw [Heap.primitive_of_kind? found, reads]
        rfl
      rw [runProgram_primitive] at read
      cases (Run.attempt_of_error refused).symm.trans read

/-- Whatever its members are, a proxy is one of the value it was made for. -/
theorem alike_of_members {registry : Registry κ} {info : TypeInfo} {callable : Bool}
    {members : Entries (Member κ)}
    (wrapped : (runProgram below (match registry.delegatorFor callable info with
      | some delegator => do return Object.proxy (.mk h info (← delegator.members h))
      | none => return .proxy (.mk h info []))).run world = some (.ok object, after)) :
    object.Alike (.proxy (.mk h info members)) := by
  split at wrapped
  · obtain ⟨own, mid, _, finished⟩ := run_bind_eq_ok_iff.mp wrapped
    cases finished
    exact .proxy rfl
  · cases wrapped
    exact .proxy rfl

/-- With any registry, wrapping a value gives an object like the view that the standard registry
would give of it. -/
theorem alike_of_wrap (classed : world.heap.HasClass kind) (found : world.heap.kind? h = some kind)
    (wrapped : (runProgram (layer host below) (Bridge.wrap h)).run world =
      some (.ok object, after)) :
    ∃ view, world.heap.view? h kind = some view ∧ object.Alike view := by
  obtain ⟨mid, typed, moves⟩ := (typeInfo_answers host below classed found).finishes
  unfold Bridge.wrap at wrapped
  rw [run_bind_of_ok _ typed] at wrapped
  unfold Heap.view?
  dsimp only
  cases isNone : (world.heap.typeInfo kind).isNone with
  | true =>
      rw [isNone] at wrapped
      cases wrapped
      exact ⟨.none, rfl, .refl _⟩
  | false =>
      rw [isNone, if_neg Bool.false_ne_true] at wrapped
      rw [if_neg Bool.false_ne_true]
      cases isPrimitive : (world.heap.typeInfo kind).isPrimitive with
      | true =>
          rw [isPrimitive, if_pos rfl] at wrapped
          rw [if_pos rfl]
          obtain ⟨primitive, last, read, finished⟩ := run_bind_eq_ok_iff.mp wrapped
          cases finished
          have reads := primitive?_of_run (moves.heap.kind? found) read
          exact ⟨_, Option.map_eq_some_iff.mpr ⟨primitive, reads, rfl⟩, .refl _⟩
      | false =>
          rw [isPrimitive, if_neg Bool.false_ne_true] at wrapped
          rw [if_neg Bool.false_ne_true]
          obtain ⟨registry, loaded, _, wrapped⟩ := run_bind_eq_ok_iff.mp wrapped
          obtain ⟨callable, asked, _, wrapped⟩ := run_bind_eq_ok_iff.mp wrapped
          exact ⟨_, rfl, alike_of_members wrapped⟩

/-- Under the standard registry, values that all have a view are wrapped to their views. -/
theorem wrapAll_answers (host : Host κ σ) (below : Handler κ σ)
    (standard : world.loader = .standard) (sound : world.heap.Sound) {handles : List Handle}
    {views : List (Object κ)} (viewed : List.Forall₂ world.heap.HasView handles views) :
    (runProgram (layer host (layer host below)) (Bridge.wrapAll handles)).Answers world views := by
  induction viewed with
  | nil => exact Exec.answers_pure []
  | cons first _ ih =>
      obtain ⟨object, found, view⟩ := first
      refine answers_program_bind (wrap_answers host below standard sound found view) ?_
      exact answers_program_bind ih (Exec.answers_pure _)

end Machine

end Interop
