import Interop.Proofs.Machine.Evolution
/-!
Traces of host code: what it asks for, one request after the other, with the replies that it got.
`Performs` is the run of a tree together with its trace, and `Only` bounds in advance what a tree
can ask for.
-/

set_option autoImplicit false

namespace Interop

variable {κ σ α β : Type}

/-- A request that was made, with its reply. -/
structure Event (κ σ : Type) where
  request : Request κ σ
  reply : request.Reply

namespace Interaction

/-- A tree runs from one world to another, and its trace is what it asks for on the way. -/
inductive Performs (below : Handler κ σ) :
    Interaction κ σ α → World κ σ → List (Event κ σ) → α → World κ σ → Prop
  | done (a : α) (world : World κ σ) : Performs below (.done a) world [] a world
  | perform {request : Request κ σ} {resume : request.Reply → Interaction κ σ α}
      {world mid after : World κ σ} {reply : request.Reply} {trace : List (Event κ σ)} {a : α}
      (answered : below request world = some (reply, mid))
      (rest : Performs below (resume reply) mid trace a after) :
      Performs below (.perform request resume) world (⟨request, reply⟩ :: trace) a after

variable {below : Handler κ σ}

/-- A tree performs exactly if it runs, whatever its trace is. -/
theorem exists_performs_iff {tree : Interaction κ σ α} {world after : World κ σ} {a : α} :
    (∃ trace, Performs below tree world trace a after) ↔
      tree.run below world = some (a, after) := by
  induction tree generalizing world with
  | done b =>
      constructor
      · rintro ⟨trace, performed⟩
        cases performed
        rfl
      · intro finished
        cases finished
        exact ⟨[], .done _ _⟩
  | perform request resume ih =>
      change _ ↔ (below request >>= fun reply => (resume reply).run below) world = some (a, after)
      rw [Run.bind_eq_some_iff]
      constructor
      · rintro ⟨trace, performed⟩
        cases performed with
        | perform answered rest => exact ⟨_, _, answered, (ih _).mp ⟨_, rest⟩⟩
      · rintro ⟨reply, mid, answered, finished⟩
        obtain ⟨trace, rest⟩ := (ih reply).mpr finished
        exact ⟨_, .perform answered rest⟩

theorem Performs.run {tree : Interaction κ σ α} {world after : World κ σ} {a : α}
    {trace : List (Event κ σ)} (performed : Performs below tree world trace a after) :
    tree.run below world = some (a, after) :=
  exists_performs_iff.mp ⟨trace, performed⟩

theorem exists_performs_of_isSome (tree : Interaction κ σ α) (world : World κ σ)
    (finishes : (tree.run below world).isSome = true) :
    ∃ trace a after, Performs below tree world trace a after := by
  obtain ⟨⟨a, after⟩, finished⟩ := Option.isSome_iff_exists.mp finishes
  obtain ⟨trace, performed⟩ := exists_performs_iff.mpr finished
  exact ⟨trace, a, after, performed⟩

theorem performs_pure_iff {a b : α} {world after : World κ σ} {trace : List (Event κ σ)} :
    Performs below (pure a) world trace b after ↔ trace = [] ∧ b = a ∧ after = world := by
  constructor
  · intro performed
    cases performed
    exact ⟨rfl, rfl, rfl⟩
  · rintro ⟨rfl, rfl, rfl⟩
    exact .done b after

theorem performs_ask_iff {request : Request κ σ} {reply : request.Reply}
    {world after : World κ σ} {trace : List (Event κ σ)} :
    Performs below (ask request) world trace reply after ↔
      trace = [⟨request, reply⟩] ∧ below request world = some (reply, after) := by
  constructor
  · intro performed
    cases performed with
    | perform answered rest =>
        cases rest
        exact ⟨rfl, answered⟩
  · rintro ⟨rfl, answered⟩
    exact .perform answered (.done reply after)

/-- The trace of two trees in sequence is that of the first, followed by that of the second. -/
theorem performs_bind_iff {x : Interaction κ σ α} {f : α → Interaction κ σ β}
    {world after : World κ σ} {b : β} {trace : List (Event κ σ)} :
    Performs below (x >>= f) world trace b after ↔
      ∃ early a mid late, trace = early ++ late ∧ Performs below x world early a mid ∧
        Performs below (f a) mid late b after := by
  induction x generalizing world trace with
  | done a =>
      constructor
      · intro performed
        exact ⟨[], a, world, trace, rfl, .done a world, performed⟩
      · rintro ⟨early, a', mid, late, rfl, first, second⟩
        cases first
        exact second
  | perform request resume ih =>
      constructor
      · intro performed
        cases performed with
        | perform answered rest =>
            obtain ⟨early, a, mid, late, rfl, first, second⟩ := (ih _).mp rest
            exact ⟨_, a, mid, late, rfl, .perform answered first, second⟩
      · rintro ⟨early, a, mid, late, rfl, first, second⟩
        cases first with
        | perform answered rest =>
            exact .perform answered ((ih _).mpr ⟨_, a, mid, late, rfl, rest, second⟩)

theorem Performs.moves {along : Heap κ → Heap κ → Prop} [IsPreorder (Heap κ) along]
    (answers : ∀ request, Run.Moves along (below request)) {tree : Interaction κ σ α}
    {world after : World κ σ} {a : α} {trace : List (Event κ σ)}
    (performed : Performs below tree world trace a after) : world.Moves along after :=
  moves_run answers tree world a after performed.run

/-! ### Any replies -/

/-- A tree ends with an answer after some requests, whatever was replied to them. -/
inductive Exchanges : Interaction κ σ α → List (Event κ σ) → α → Prop
  | done (a : α) : Exchanges (.done a) [] a
  | perform (request : Request κ σ) (reply : request.Reply)
      {resume : request.Reply → Interaction κ σ α} {trace : List (Event κ σ)} {a : α}
      (rest : Exchanges (resume reply) trace a) :
      Exchanges (.perform request resume) (⟨request, reply⟩ :: trace) a

theorem Performs.exchanges {tree : Interaction κ σ α} {world after : World κ σ} {a : α}
    {trace : List (Event κ σ)} (performed : Performs below tree world trace a after) :
    Exchanges tree trace a := by
  induction performed with
  | done a world => exact .done a
  | perform _ _ ih => exact .perform _ _ ih

theorem exchanges_pure_iff {a b : α} {trace : List (Event κ σ)} :
    Exchanges (pure a) trace b ↔ trace = [] ∧ b = a := by
  constructor
  · intro exchanged
    cases exchanged
    exact ⟨rfl, rfl⟩
  · rintro ⟨rfl, rfl⟩
    exact .done b

theorem exchanges_bind_iff {x : Interaction κ σ α} {f : α → Interaction κ σ β} {b : β}
    {trace : List (Event κ σ)} :
    Exchanges (x >>= f) trace b ↔
      ∃ early a late, trace = early ++ late ∧ Exchanges x early a ∧ Exchanges (f a) late b := by
  induction x generalizing trace with
  | done a =>
      constructor
      · intro exchanged
        exact ⟨[], a, trace, rfl, .done a, exchanged⟩
      · rintro ⟨early, a', late, rfl, first, second⟩
        cases first
        exact second
  | perform request resume ih =>
      constructor
      · intro exchanged
        cases exchanged with
        | perform _ reply rest =>
            obtain ⟨early, a, late, rfl, first, second⟩ := (ih reply).mp rest
            exact ⟨_, a, late, rfl, .perform request reply first, second⟩
      · rintro ⟨early, a, late, rfl, first, second⟩
        cases first with
        | perform _ reply rest =>
            exact .perform request reply ((ih reply).mpr ⟨_, a, late, rfl, rest, second⟩)

/-- A way of replying, which may depend on all that went before. -/
abbrev Strategy (κ σ : Type) := List (Event κ σ) → (request : Request κ σ) → request.Reply

/-- Each reply of a trace is the one that a strategy chooses there. -/
def Follows (strategy : Strategy κ σ) (trace : List (Event κ σ)) : Prop :=
  ∀ past event later, trace = past ++ event :: later → event.reply = strategy past event.request

/-- Every tree ends, whatever strategy replies to it. -/
theorem exists_exchanges (tree : Interaction κ σ α) (strategy : Strategy κ σ) :
    ∃ trace a, Exchanges tree trace a ∧ Follows strategy trace := by
  induction tree generalizing strategy with
  | done a =>
      refine ⟨[], a, .done a, ?_⟩
      intro past event later impossible
      exact absurd impossible.symm (List.append_ne_nil_of_right_ne_nil past (List.cons_ne_nil _ _))
  | perform request resume ih =>
      -- the rest is replied to as the strategy does after this first event
      let first : Event κ σ := ⟨request, strategy [] request⟩
      obtain ⟨trace, a, rest, follows⟩ := ih first.reply fun past => strategy (first :: past)
      refine ⟨first :: trace, a, .perform request first.reply rest, ?_⟩
      intro past event later split
      cases past with
      | nil =>
          obtain ⟨rfl, _⟩ := List.cons.inj split
          rfl
      | cons earliest past =>
          obtain ⟨same, shorter⟩ := List.cons.inj split
          rw [← same]
          exact follows past event later shorter

/-! ### Bounds on traces -/

/-- Every request that a tree can make is among those allowed. -/
inductive Only (allowed : Request κ σ → Prop) : Interaction κ σ α → Prop
  | done (a : α) : Only allowed (.done a)
  | perform {request : Request κ σ} {resume : request.Reply → Interaction κ σ α}
      (first : allowed request) (rest : ∀ reply, Only allowed (resume reply)) :
      Only allowed (.perform request resume)

variable {allowed : Request κ σ → Prop}

theorem only_pure (a : α) : Only allowed (pure a : Interaction κ σ α) := .done a

theorem only_ask {request : Request κ σ} (first : allowed request) :
    Only allowed (ask request) := .perform first fun reply => .done reply

theorem only_bind {x : Interaction κ σ α} {f : α → Interaction κ σ β} (hx : Only allowed x)
    (hf : ∀ a, Only allowed (f a)) : Only allowed (x >>= f) := by
  induction hx with
  | done a => exact hf a
  | perform first _ ih => exact .perform first ih

theorem Only.moves_run {along : Heap κ → Heap κ → Prop} [IsPreorder (Heap κ) along]
    (answers : ∀ request, allowed request → Run.Moves along (below request))
    {tree : Interaction κ σ α} (only : Only allowed tree) : Run.Moves along (tree.run below) := by
  induction only with
  | done a => exact Run.moves_pure a
  | perform first _ ih => exact Run.moves_bind (answers _ first) ih

theorem Performs.within {tree : Interaction κ σ α} {world after : World κ σ} {a : α}
    {trace : List (Event κ σ)} (performed : Performs below tree world trace a after)
    (only : Only allowed tree) : ∀ event ∈ trace, allowed event.request := by
  induction performed with
  | done a world => exact List.forall_mem_nil _
  | perform answered _ ih =>
      cases only with
      | perform first rest =>
          intro event member
          rcases List.mem_cons.mp member with rfl | member
          · exact first
          · exact ih (rest _) event member

end Interaction

namespace Program

open Interaction (Performs Only)

variable {below : Handler κ σ} {allowed : Request κ σ → Prop}

/-- The trace of two programs in sequence, of which the second runs if the first succeeds. -/
theorem performs_bind_iff {x : Program κ σ α} {f : α → Program κ σ β} {world after : World κ σ}
    {result : Except Error β} {trace : List (Event κ σ)} :
    Performs below (x >>= f).run world trace result after ↔
      (∃ early a mid late, trace = early ++ late ∧ Performs below x.run world early (.ok a) mid ∧
        Performs below (f a).run mid late result after) ∨
      ∃ error, Performs below x.run world trace (.error error) after ∧ result = .error error := by
  rw [run_bind_eq, Interaction.performs_bind_iff]
  constructor
  · rintro ⟨early, first, mid, late, rfl, performed, rest⟩
    cases first with
    | ok a => exact .inl ⟨early, a, mid, late, rfl, performed, rest⟩
    | error error =>
        obtain ⟨rfl, rfl, rfl⟩ := Interaction.performs_pure_iff.mp rest
        rw [List.append_nil]
        exact .inr ⟨error, performed, rfl⟩
  · rintro (⟨early, a, mid, late, rfl, performed, rest⟩ | ⟨error, performed, rfl⟩)
    · exact ⟨early, .ok a, mid, late, rfl, performed, rest⟩
    · exact ⟨trace, .error error, after, [], (List.append_nil trace).symm, performed,
        .done (Except.error error) after⟩

theorem performs_pure_iff {a : α} {world after : World κ σ} {result : Except Error α}
    {trace : List (Event κ σ)} :
    Performs below (pure a : Program κ σ α).run world trace result after ↔
      trace = [] ∧ result = .ok a ∧ after = world :=
  Interaction.performs_pure_iff

theorem performs_throw_iff {error : Error} {world after : World κ σ} {result : Except Error α}
    {trace : List (Event κ σ)} :
    Performs below (throw error : Program κ σ α).run world trace result after ↔
      trace = [] ∧ result = .error error ∧ after = world :=
  Interaction.performs_pure_iff

/-- A tree that cannot fail, as a program. -/
theorem performs_lift_iff {x : Interaction κ σ α} {world after : World κ σ}
    {result : Except Error α} {trace : List (Event κ σ)} :
    Performs below (ExceptT.lift x : Program κ σ α).run world trace result after ↔
      ∃ a, result = .ok a ∧ Performs below x world trace a after := by
  rw [ExceptT.run_lift, map_eq_pure_bind, Interaction.performs_bind_iff]
  constructor
  · rintro ⟨early, a, mid, late, rfl, performed, rest⟩
    obtain ⟨rfl, rfl, rfl⟩ := Interaction.performs_pure_iff.mp rest
    rw [List.append_nil]
    exact ⟨a, rfl, performed⟩
  · rintro ⟨a, rfl, performed⟩
    exact ⟨trace, a, after, [], (List.append_nil trace).symm, performed, .done (Except.ok a) after⟩

theorem performs_ask_iff {request : Request κ σ} {result : Except Error request.Reply}
    {world after : World κ σ} {trace : List (Event κ σ)} :
    Performs below (ask request).run world trace result after ↔
      ∃ reply, trace = [⟨request, reply⟩] ∧ result = .ok reply ∧
        below request world = some (reply, after) := by
  unfold ask
  rw [performs_lift_iff]
  constructor
  · rintro ⟨reply, rfl, asked⟩
    obtain ⟨rfl, answered⟩ := Interaction.performs_ask_iff.mp asked
    exact ⟨reply, rfl, rfl, answered⟩
  · rintro ⟨reply, rfl, rfl, answered⟩
    exact ⟨reply, rfl, Interaction.performs_ask_iff.mpr ⟨rfl, answered⟩⟩

theorem only_pure (a : α) : Only allowed (pure a : Program κ σ α).run := .done (Except.ok a)

theorem only_throw (error : Error) : Only allowed (throw error : Program κ σ α).run :=
  .done (Except.error error)

theorem only_lift {x : Interaction κ σ α} (hx : Only allowed x) :
    Only allowed (ExceptT.lift x : Program κ σ α).run := by
  rw [ExceptT.run_lift, map_eq_pure_bind]
  exact Interaction.only_bind hx fun a => .done (Except.ok a)

theorem only_bind {x : Program κ σ α} {f : α → Program κ σ β} (hx : Only allowed x.run)
    (hf : ∀ a, Only allowed (f a).run) : Only allowed (x >>= f).run := by
  rw [run_bind_eq]
  refine Interaction.only_bind hx fun result => ?_
  cases result with
  | ok a => exact hf a
  | error error => exact .done (Except.error error)

end Program

/-! ### Wrapping -/

/-- Whether a request is one of those that wrapping a value needs. -/
def Request.Looks : Request κ σ → Prop
  | .typeOf _ | .primitive _ | .isCallable _ | .hasAttr _ _ | .getAttr _ _ | .registry
  | .members _ _ => True
  | _ => False

theorem Bridge.only_wrap (h : Handle) :
    Interaction.Only Request.Looks (Bridge.wrap h : Program κ σ _).run := by
  have asks : ∀ {request : Request κ σ}, request.Looks →
      Interaction.Only Request.Looks (Interaction.ask request) :=
    fun looks => Interaction.only_ask looks
  have texts : ∀ (type : Handle) (name : String),
      Interaction.Only Request.Looks (type.stringAttr name : Program κ σ _).run := by
    intro type name
    refine Program.only_bind (asks trivial) fun value => ?_
    refine Program.only_bind (asks trivial) fun primitive => ?_
    cases primitive with
    | string value => exact Program.only_pure _
    | _ => exact Program.only_throw _
  refine Program.only_bind ?_ fun info => ?_
  · refine Program.only_bind (asks trivial) fun type => ?_
    refine Program.only_bind (texts type _) fun module => ?_
    exact Program.only_bind (texts type _) fun name => Program.only_pure _
  · split
    · exact Program.only_pure _
    · split
      · exact Program.only_bind (asks trivial) fun primitive => Program.only_pure _
      · refine Program.only_bind (Program.only_lift (asks trivial)) fun registry => ?_
        refine Program.only_bind (Program.only_lift (asks trivial)) fun callable => ?_
        split
        · exact Program.only_bind (asks trivial) fun members => Program.only_pure _
        · exact Program.only_pure _

theorem Delegator.only_standardMembers (delegator : Delegator κ) (h : Handle) :
    Interaction.Only Request.Looks (delegator.standardMembers h : Program κ σ _).run := by
  cases delegator with
  | callee =>
      refine Program.only_bind (Program.only_lift (Interaction.only_ask trivial)) fun has => ?_
      cases has with
      | true =>
          refine Program.only_bind (Interaction.only_ask trivial) fun name => ?_
          exact Program.only_bind (Bridge.only_wrap name) fun value => Program.only_pure _
      | false => exact Program.only_pure _
  | _ => exact Program.only_pure _

end Interop
