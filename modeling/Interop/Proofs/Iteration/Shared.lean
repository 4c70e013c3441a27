import Interop.Proofs.Interaction.Trace
import Interop.Proofs.Iteration.Live
/-!
Several iterations over one foreign iterator. They share the items that are still to come: every
item is taken by one call only, and what the calls have taken, with what is still to come, is what
the iterator had at the start.

Wrapping an item may run host code, which may itself take items; where the registry's delegators
are the bridge's own, it does not, and a call takes no more than the item that it gives.
-/

set_option autoImplicit false

namespace Interop

variable {κ σ : Type}

/-! ### Wrapping without host code -/

/-- No value is given its members by host code. -/
def Registry.Own (registry : Registry κ) : Prop :=
  ∀ callable info code, registry.delegatorFor callable info ≠ some (.host code)

theorem Registry.own_standard : (Registry.standard : Registry κ).Own := by
  intro callable info code chosen
  unfold delegatorFor at chosen
  cases callable with
  | true => cases chosen
  | false =>
      change (none <|> standard.get? (.type info) <|> some .bare) = _ at chosen
      cases own : (standard (κ := κ)).get? (.type info) with
      | none =>
          rw [own] at chosen
          cases chosen
      | some delegator =>
          rw [own] at chosen
          rcases Machine.eq_sized_or_mapping own with rfl | rfl
          · cases chosen
          · cases chosen

/-- Requests that only look at values and run no host code. -/
def Request.Peeks (request : Request κ σ) : Prop :=
  request.Looks ∧ ∀ delegator h, request ≠ .members delegator h

namespace Machine

variable {host : Host κ σ} {below : Handler κ σ}

theorem extends_of_peeks {request : Request κ σ} (peeks : request.Peeks) :
    Run.Moves Heap.Extends (layer host below request) := by
  obtain ⟨looks, noMembers⟩ := peeks
  cases request with
  | typeOf h => exact Run.moves_attemptOp (Heap.moves_typeOf h)
  | primitive h => exact Run.moves_check _
  | isCallable h => exact Run.moves_readHeap (isCallable · h)
  | hasAttr h name => exact Run.moves_readHeap (·.hasAttr h name)
  | getAttr h name => exact Run.moves_attemptOp (Heap.moves_getAttr h name)
  | registry => exact moves_registry
  | members delegator h => exact absurd rfl (noMembers delegator h)
  | _ => cases looks

theorem only_typeInfo (h : Handle) :
    Interaction.Only Request.Peeks (h.typeInfo : Program κ σ _).run := by
  have texts : ∀ (type : Handle) (name : String),
      Interaction.Only Request.Peeks (type.stringAttr name : Program κ σ _).run := by
    intro type name
    refine Program.only_bind (Interaction.only_ask ⟨trivial, nofun⟩) fun value => ?_
    refine Program.only_bind (Interaction.only_ask ⟨trivial, nofun⟩) fun primitive => ?_
    cases primitive with
    | string value => exact Program.only_pure _
    | _ => exact Program.only_throw _
  refine Program.only_bind (Interaction.only_ask ⟨trivial, nofun⟩) fun type => ?_
  refine Program.only_bind (texts type _) fun module => ?_
  exact Program.only_bind (texts type _) fun name => Program.only_pure _

/-- A run from this world adds cells and does nothing else. -/
def ExtendsFrom {α : Type} (world : World κ σ) (x : Exec κ σ α) : Prop :=
  ∀ result after, x.run world = some (result, after) → world.Moves Heap.Extends after

theorem ExtendsFrom.bind {α β : Type} {world : World κ σ} {x : Program κ σ α}
    {f : α → Program κ σ β} (first : ExtendsFrom world (runProgram below x))
    (rest : ∀ a mid, (runProgram below x).run world = some (.ok a, mid) →
      world.Moves Heap.Extends mid → ExtendsFrom mid (runProgram below (f a))) :
    ExtendsFrom world (runProgram below (x >>= f)) := by
  intro result after finished
  rw [runProgram_bind, Exec.run_bind_eq_some_iff] at finished
  obtain ⟨a, mid, early, late⟩ | ⟨error, failed, _⟩ := finished
  · have moves := first _ mid early
    exact moves.trans (rest a mid early moves result after late)
  · exact first _ after failed

theorem extendsFrom_pure {α : Type} {world : World κ σ} (a : α) :
    ExtendsFrom world (runProgram below (pure a)) :=
  fun result after finished => Exec.moves_pure a world result after finished

theorem extendsFrom_of_only {α : Type} {world : World κ σ} {x : Program κ σ α}
    (only : Interaction.Only Request.Peeks x.run) :
    ExtendsFrom world (runProgram (layer host below) x) :=
  only.moves_run (fun _ peeks => extends_of_peeks peeks) world

theorem extendsFrom_ask {world : World κ σ} {request : Request κ σ} (peeks : request.Peeks) :
    ExtendsFrom world (runProgram (layer host below) (Program.ask request)) :=
  extendsFrom_of_only (Program.only_lift (Interaction.only_ask peeks))

theorem run_registry_eq_some {world after : World κ σ} {registry : Registry κ}
    (loaded : (runProgram (layer host below) Program.registry).run world =
      some (.ok registry, after)) : registry = world.loader := by
  have asked : runProgram (layer host below) Program.registry = ExceptT.lift Machine.registry :=
    runProgram_ask _ .registry
  rw [asked] at loaded
  have parts := Prod.mk.inj (Option.some.inj loaded)
  rw [← Except.ok.inj parts.1]
  dsimp only
  split
  · rfl
  · rfl

/-- A value's own members are found by looking at it, and by wrapping its name. -/
theorem extends_standardMembers (host : Host κ σ) {layers : Nat}
    (wraps : ∀ (world : World κ σ), world.loader.Own → ∀ h,
      ExtendsFrom world (runProgram (answer host layers) (Bridge.wrap h)))
    {world : World κ σ} (own : world.loader.Own) (delegator : Delegator κ) (h : Handle) :
    ExtendsFrom world (runProgram (answer host layers) (delegator.standardMembers h)) := by
  cases layers with
  | zero =>
      exact (Delegator.only_standardMembers delegator h).moves_run
        (fun _ _ => Run.moves_diverge) world
  | succ layers =>
      cases delegator with
      | callee =>
          refine .bind (extendsFrom_ask ⟨trivial, nofun⟩) fun has mid _ moves => ?_
          have own : mid.loader.Own := moves.loader ▸ own
          cases has with
          | true =>
              refine .bind ?_ fun name mid _ moves => ?_
              · exact extendsFrom_of_only (Interaction.only_ask ⟨trivial, nofun⟩)
              · have own : mid.loader.Own := moves.loader ▸ own
                exact .bind (wraps mid own name) fun _ _ _ _ => extendsFrom_pure _
          | false => exact extendsFrom_pure _
      | _ => exact extendsFrom_pure _

/-- Wrapping a value only adds cells, if no delegator is host code. -/
theorem extends_wrap (host : Host κ σ) (layers : Nat) (world : World κ σ)
    (own : world.loader.Own) (h : Handle) :
    ExtendsFrom world (runProgram (answer host layers) (Bridge.wrap h)) := by
  induction layers generalizing world h with
  | zero =>
      exact (Bridge.only_wrap h).moves_run (fun _ _ => Run.moves_diverge) world
  | succ layers ih =>
      refine .bind (extendsFrom_of_only (only_typeInfo h)) fun info mid _ moves => ?_
      have own : mid.loader.Own := moves.loader ▸ own
      split
      · exact extendsFrom_pure _
      split
      · refine .bind ?_ fun primitive _ _ _ => extendsFrom_pure _
        exact extendsFrom_of_only (Interaction.only_ask ⟨trivial, nofun⟩)
      refine .bind (extendsFrom_ask ⟨trivial, nofun⟩) fun registry loadedAt loaded moves => ?_
      obtain rfl := run_registry_eq_some loaded
      refine .bind (extendsFrom_ask ⟨trivial, nofun⟩) fun callable last _ moves' => ?_
      have ownLast : last.loader.Own := moves'.loader ▸ moves.loader ▸ own
      split
      · rename_i delegator chosen
        refine .bind ?_ fun members _ _ _ => extendsFrom_pure _
        have noHost : ∀ code, delegator ≠ .host code := by
          rintro code rfl
          exact own callable info code chosen
        change ExtendsFrom last (runProgram (layer host (answer host layers)) (delegator.members h))
        rw [runProgram_members host _ delegator noHost]
        exact extends_standardMembers host ih ownLast delegator h
      · exact extendsFrom_pure _

end Machine

/-! ### What is still to come -/

theorem Kind.Turns.iterator {items : List Handle} {later : Kind κ}
    (turns : (Kind.iterator items).Turns later) :
    ∃ rest, later = .iterator rest ∧ rest <:+ items := by
  induction turns with
  | refl => exact ⟨items, rfl, List.suffix_refl items⟩
  | tail _ becomes ih =>
      obtain ⟨rest, rfl, suffix⟩ := ih
      cases becomes with
      | iterator item rest => exact ⟨rest, rfl, (List.suffix_cons item rest).trans suffix⟩

/-- The items that an iterator has still to give. -/
def World.remaining (world : World κ σ) (h : Handle) : List Handle :=
  match world.heap.kind? h with
  | some (.iterator items) => items
  | _ => []

/-- The world after an iterator was asked for its next item. -/
def World.stepped (world : World κ σ) (h : Handle) : World κ σ :=
  { world with heap := (world.heap.next h).2 }

theorem World.remaining_of_kind? {world : World κ σ} {h : Handle} {items : List Handle}
    (found : world.heap.kind? h = some (.iterator items)) : world.remaining h = items := by
  unfold remaining
  rw [found]

namespace Machine

variable (host : Host κ σ) (below : Handler κ σ) {world : World κ σ} {h : Handle}

theorem runProgram_next (h : Handle) :
    runProgram (layer host below) h.next = ExceptT.mk (Machine.next h) :=
  ExceptT.ext (Interaction.run_ask _ (.next h))

theorem run_next_nil (found : world.heap.kind? h = some (.iterator [])) :
    (runProgram (layer host below) h.next).run world = some (.ok none, world) := by
  obtain ⟨attributes, present⟩ := Heap.cell?_of_kind? found
  have asked : world.heap.next h = (.ok none, world.heap) := by
    unfold Heap.next
    rw [present]
  rw [runProgram_next]
  refine Run.bind_eq_some_iff.mpr ⟨.ok none, world, ?_, rfl⟩
  unfold Run.onHeap
  dsimp only
  rw [asked]

/-- The first item is taken, and the others are left. -/
theorem run_next_cons {item : Handle} {more : List Handle}
    (found : world.heap.kind? h = some (.iterator (item :: more))) :
    (runProgram (layer host below) h.next).run world = some (.ok (some item), world.stepped h) ∧
      (world.stepped h).heap.kind? h = some (.iterator more) := by
  obtain ⟨attributes, present⟩ := Heap.cell?_of_kind? found
  have asked : world.heap.next h =
      (.ok (some item), world.heap.write h (.object ⟨.iterator more, attributes⟩)) := by
    unfold Heap.next
    rw [present]
  constructor
  · rw [runProgram_next]
    refine Run.bind_eq_some_iff.mpr ⟨.ok (some item), world.stepped h, ?_, rfl⟩
    unfold Run.onHeap World.stepped
    dsimp only
    rw [asked]
  · unfold World.stepped
    rw [asked]
    exact Heap.kind?_of_cell? (Heap.cell?_write_self present _)

end Machine

namespace Iteration

open Machine (runProgram answer layer)

variable {host : Host κ σ} {below : Handler κ σ} {world after : World κ σ} {h : Handle}

/-- An iterator starts an iteration that leaves the position to it. -/
theorem start_of_iterator (host : Host κ σ) (below : Handler κ σ) {items : List Handle}
    (found : world.heap.kind? h = some (.iterator items)) {p : Proxy κ} (same : p.handle = h) :
    (runProgram (layer host below) (start p)).run world = some (.ok ⟨h, .stepping⟩, world) ∧
      (runProgram (layer host below) (start? p)).run world = some (.ok ⟨h, .stepping⟩, world) := by
  subst same
  obtain ⟨attributes, present⟩ := Heap.cell?_of_kind? found
  have iterator : (runProgram (layer host below) p.handle.isIterator).run world =
      some (.ok true, world) := by
    change some (Except.ok (Machine.isIterator world.heap p.handle), world) = _
    unfold Machine.isIterator
    rw [present]
  have begins : (runProgram (layer host below) (start p)).run world =
      some (.ok ⟨p.handle, .stepping⟩, world) := by
    unfold start
    rw [Machine.run_bind_of_ok _ iterator, if_pos rfl]
    rfl
  refine ⟨begins, ?_⟩
  unfold start?
  rw [Machine.run_bind_of_ok _ begins]
  rfl

theorem next_stepping_eq_some_iff {given : Option (Except Error (Object κ))} {rest : Iteration} :
    (next ⟨h, .stepping⟩).run below world = some ((given, rest), after) ↔
      ∃ result, (runProgram below (steppedItem h)).run world = some (result, after) ∧
        settle h .stepping result = (given, rest) := by
  have parts : (next ⟨h, .stepping⟩).run below =
      ((steppedItem h).run.run below >>= fun result =>
        pure (settle h .stepping result) : Run κ σ _) :=
    Interaction.run_bind below _ _
  rw [parts, Run.bind_eq_some_iff]
  constructor
  · rintro ⟨result, mid, finished, last⟩
    obtain ⟨settled, rfl⟩ := Prod.mk.inj (Option.some.inj last)
    exact ⟨result, finished, settled⟩
  · rintro ⟨result, finished, settled⟩
    rw [← settled]
    exact ⟨result, after, finished, rfl⟩

/-- An exhausted iterator ends the iteration. -/
theorem next_stepping_nil (found : world.heap.kind? h = some (.iterator [])) :
    (next ⟨h, .stepping⟩).run (layer host below) world =
      some ((none, ⟨h, .finished⟩), world) := by
  refine next_stepping_eq_some_iff.mpr ⟨.ok none, ?_, rfl⟩
  unfold steppedItem
  rw [Machine.run_bind_of_ok _ (Machine.run_next_nil host below found)]
  rfl

/-- The first item still to come is taken and wrapped; the iteration goes on if that succeeds. -/
theorem next_stepping_cons_iff {item : Handle} {more : List Handle}
    (found : world.heap.kind? h = some (.iterator (item :: more)))
    {given : Option (Except Error (Object κ))} {rest : Iteration} :
    (next ⟨h, .stepping⟩).run (layer host below) world = some ((given, rest), after) ↔
      ∃ result, (runProgram (layer host below) (Bridge.wrap item)).run (world.stepped h) =
          some (result, after) ∧
        given = some result ∧ rest = ⟨h, if result.isOk then .stepping else .finished⟩ := by
  have wrapped : (runProgram (layer host below) (steppedItem h)).run world =
      (runProgram (layer host below) (some <$> Bridge.wrap item)).run (world.stepped h) := by
    unfold steppedItem
    rw [Machine.run_bind_of_ok _ (Machine.run_next_cons host below found).1]
    dsimp only
    rw [bind_pure_comp]
  rw [next_stepping_eq_some_iff]
  constructor
  · rintro ⟨result, finished, settled⟩
    rw [wrapped] at finished
    obtain ⟨inner, wraps, rfl⟩ := (Machine.run_map_eq_some_iff _).mp finished
    rw [settle_eq] at settled
    obtain ⟨rfl, rfl⟩ := Prod.mk.inj settled
    exact ⟨inner, wraps, rfl, rfl⟩
  · rintro ⟨inner, finished, rfl, rfl⟩
    refine ⟨inner.map some, ?_, settle_eq h .stepping inner⟩
    rw [wrapped]
    exact (Machine.run_map_eq_some_iff _).mpr ⟨inner, finished, rfl⟩

/-! ### Calls on several iterations -/

/-- A call on one of the iterations. -/
structure Call (κ σ : Type) where
  /-- The number of the iteration. -/
  consumer : Nat
  layers : Nat
  before : World κ σ
  given : Option (Except Error (Object κ))
  after : World κ σ

/-- The items that are gone after a call. -/
def Call.taken (h : Handle) (call : Call κ σ) : List Handle :=
  (call.before.remaining h).take
    ((call.before.remaining h).length - (call.after.remaining h).length)

/-- The calls that were made on the iterations of one value, the iterations as they are now, and the
world. Iterations may be started at any time, calls be made on any of them, and between the calls
anything may happen that leaves the items to come alone. -/
inductive Sharing (host : Host κ σ) (h : Handle) (origin : World κ σ) :
    List (Call κ σ) → List Iteration → World κ σ → Prop
  | begin : Sharing host h origin [] [] origin
  | join {calls : List (Call κ σ)} {consumers : List Iteration} {world after : World κ σ}
      {p : Proxy κ} {layers : Nat} {started : Iteration}
      (run : Sharing host h origin calls consumers world) (same : p.handle = h)
      (starts : (runProgram (answer host layers) (start p)).run world = some (.ok started, after) ∨
        (runProgram (answer host layers) (start? p)).run world = some (.ok started, after)) :
      Sharing host h origin calls (consumers ++ [started]) after
  | other {calls : List (Call κ σ)} {consumers : List Iteration} {world after : World κ σ}
      (run : Sharing host h origin calls consumers world)
      (untouched : after.heap.kind? h = world.heap.kind? h) :
      Sharing host h origin calls consumers after
  | next {calls : List (Call κ σ)} {consumers : List Iteration} {world after : World κ σ}
      {consumer layers : Nat} {iteration rest : Iteration}
      {given : Option (Except Error (Object κ))}
      (run : Sharing host h origin calls consumers world)
      (among : consumers[consumer]? = some iteration)
      (called : iteration.next.run (answer host layers) world = some ((given, rest), after)) :
      Sharing host h origin (calls ++ [⟨consumer, layers, world, given, after⟩])
        (consumers.set consumer rest) after

/-- Whether an iteration has ended by one of the calls. -/
def Ended (calls : List (Call κ σ)) (consumer : Nat) : Prop :=
  ∃ call ∈ calls, call.consumer = consumer ∧ ¬ Yielded call.given

/-- What a call does after other calls. -/
inductive Call.Delivers (host : Host κ σ) (h : Handle) (earlier : List (Call κ σ))
    (call : Call κ σ) : Prop
  /-- Its iteration has ended before. -/
  | ended (ended : Ended earlier call.consumer) (nothing : call.given = none)
      (same : call.after = call.before)
  /-- No item is left. -/
  | exhausted (going : ¬ Ended earlier call.consumer) (empty : call.before.remaining h = [])
      (nothing : call.given = none) (same : call.after = call.before)
  /-- The first item left is taken, and the result of wrapping it is given. -/
  | item (going : ¬ Ended earlier call.consumer) {item : Handle} {others : List Handle}
      {result : Except Error (Object κ)}
      (taken : call.taken h = item :: others)
      (wrapped : (runProgram (answer host call.layers) (Bridge.wrap item)).run
        (call.before.stepped h) = some (result, call.after))
      (given : call.given = some result)
      (alone : call.before.loader.Own → others = [])

theorem Call.taken_eq {call : Call κ σ} {gone : List Handle}
    (split : call.before.remaining h = gone ++ call.after.remaining h) :
    call.taken h = gone := by
  unfold taken
  rw [split, List.length_append, Nat.add_sub_cancel, List.take_left]

theorem Call.taken_of_same {call : Call κ σ} (same : call.after = call.before) :
    call.taken h = [] :=
  taken_eq (by rw [same, List.nil_append])

/-- Wrapping an item leaves the other items, but for those that host code takes. -/
theorem remaining_of_wrap {item : Handle} {more : List Handle} {layers : Nat}
    {result : Except Error (Object κ)}
    (found : world.heap.kind? h = some (.iterator more))
    (wraps : (runProgram (answer host layers) (Bridge.wrap item)).run world =
      some (result, after)) :
    ∃ others, more = others ++ after.remaining h ∧
      after.heap.kind? h = some (.iterator (after.remaining h)) ∧
      (world.loader.Own → others = []) := by
  have moves : World.Moves Heap.Evolves world after :=
    Interaction.moves_run (Machine.evolves_answer host layers) _ _ _ _ wraps
  obtain ⟨later, present, turns⟩ := moves.heap.kind? found
  obtain ⟨left, rfl, others, split⟩ := turns.iterator
  rw [World.remaining_of_kind? present]
  refine ⟨others, split.symm, present, ?_⟩
  intro own
  have extends_ := Machine.extends_wrap host layers world own item _ _ wraps
  cases (extends_.heap.kind? found).symm.trans present
  exact List.append_left_eq_self.mp split

/-- What one call does to the iterator and to its iteration. -/
theorem Call.delivers {earlier : List (Call κ σ)} {consumer layers : Nat}
    {iteration rest : Iteration} {given : Option (Except Error (Object κ))}
    (found : world.heap.kind? h = some (.iterator (world.remaining h)))
    (stands : (Ended earlier consumer ∧ iteration = ⟨h, .finished⟩) ∨
      (¬ Ended earlier consumer ∧ iteration = ⟨h, .stepping⟩))
    (called : iteration.next.run (answer host layers) world = some ((given, rest), after)) :
    let call : Call κ σ := ⟨consumer, layers, world, given, after⟩
    call.Delivers host h earlier ∧
      call.taken h ++ after.remaining h = world.remaining h ∧
      after.heap.kind? h = some (.iterator (after.remaining h)) ∧
      ((Yielded given ∧ rest = iteration) ∨ (¬ Yielded given ∧ rest = ⟨h, .finished⟩)) := by
  intro call
  obtain ⟨ended, rfl⟩ | ⟨going, rfl⟩ := stands
  · rw [next_finished] at called
    cases called
    have same : call.after = call.before := rfl
    refine ⟨.ended ended rfl same, ?_, found, .inr ⟨nofun, rfl⟩⟩
    rw [Call.taken_of_same same, List.nil_append]
  cases layers with
  | zero => cases called
  | succ layers =>
      cases items : world.remaining h with
      | nil =>
          rw [items] at found
          rw [Machine.answer, Machine.tower, next_stepping_nil found] at called
          cases called
          have same : call.after = call.before := rfl
          refine ⟨.exhausted going items rfl same, ?_, ?_, .inr ⟨nofun, rfl⟩⟩
          · rw [Call.taken_of_same same, List.nil_append, items]
          · rw [items, found]
      | cons item more =>
          rw [items] at found
          obtain ⟨_, left⟩ := Machine.run_next_cons host (answer host layers) found
          obtain ⟨result, wraps, rfl, rfl⟩ := (next_stepping_cons_iff found).mp called
          change (runProgram (answer host (layers + 1)) (Bridge.wrap item)).run _ = _ at wraps
          obtain ⟨others, split, present, alone⟩ := remaining_of_wrap left wraps
          have taken : call.taken h = item :: others :=
            Call.taken_eq (by rw [items, split, List.cons_append])
          refine ⟨.item going taken wraps rfl alone, ?_, present, ?_⟩
          · rw [taken, List.cons_append, split]
          · cases result with
            | ok object => exact .inl ⟨⟨object, rfl⟩, rfl⟩
            | error error => exact .inr ⟨nofun, rfl⟩

/-- What holds all along: every item is taken by a call or still to come, an iteration has ended or
goes on as its calls tell, and every call has done what it does after those before it. -/
structure Sharing.Accounts (host : Host κ σ) (h : Handle) (items : List Handle)
    (calls : List (Call κ σ)) (consumers : List Iteration) (world : World κ σ) : Prop where
  found : world.heap.kind? h = some (.iterator (world.remaining h))
  account : calls.flatMap (Call.taken h) ++ world.remaining h = items
  stands : ∀ (consumer : Nat) (iteration : Iteration), consumers[consumer]? = some iteration →
    (Ended calls consumer ∧ iteration = ⟨h, .finished⟩) ∨
      (¬ Ended calls consumer ∧ iteration = ⟨h, .stepping⟩)
  known : ∀ call ∈ calls, call.consumer < consumers.length
  delivers : ∀ (earlier : List (Call κ σ)) (call : Call κ σ) (later : List (Call κ σ)),
    calls = earlier ++ call :: later → call.Delivers host h earlier ∧
      earlier.flatMap (Call.taken h) ++ call.before.remaining h = items

theorem ended_append_iff {calls : List (Call κ σ)} {call : Call κ σ} {consumer : Nat} :
    Ended (calls ++ [call]) consumer ↔
      Ended calls consumer ∨ (call.consumer = consumer ∧ ¬ Yielded call.given) := by
  unfold Ended
  simp only [List.mem_append, List.mem_singleton, or_and_right, exists_or, exists_eq_left]

/-- A list with one more element at its end, taken apart at one of its elements. -/
theorem append_singleton_split {α : Type} {l before after : List α} {a b : α}
    (split : l ++ [a] = before ++ b :: after) :
    (before = l ∧ b = a) ∨ ∃ rest, l = before ++ b :: rest := by
  obtain rfl | ⟨rest, c, rfl⟩ := List.eq_nil_or_concat after
  · obtain ⟨rfl, same⟩ := List.append_inj' split rfl
    exact .inl ⟨rfl, (List.cons.inj same).1.symm⟩
  · have split : l ++ [a] = (before ++ b :: rest) ++ [c] := by simpa using split
    exact .inr ⟨rest, (List.append_inj' split rfl).1⟩

theorem Sharing.Accounts.of_begin {items : List Handle}
    (found : world.heap.kind? h = some (.iterator items)) :
    Accounts host h items [] [] world where
  found := by rw [World.remaining_of_kind? found, found]
  account := World.remaining_of_kind? found
  stands _ _ among := by simp at among
  known _ among := absurd among List.not_mem_nil
  delivers _ _ _ split := by simp at split

/-- A new iteration has not ended, for no call was made on it. -/
theorem Sharing.Accounts.join {items : List Handle} {calls : List (Call κ σ)}
    {consumers : List Iteration} (accounts : Accounts host h items calls consumers world) :
    Accounts host h items calls (consumers ++ [⟨h, .stepping⟩]) world := by
  refine ⟨accounts.found, accounts.account, ?_, ?_, accounts.delivers⟩
  · intro consumer iteration among
    by_cases inside : consumer < consumers.length
    · rw [List.getElem?_append_left inside] at among
      exact accounts.stands consumer iteration among
    · obtain ⟨rfl⟩ : iteration = ⟨h, .stepping⟩ := by
        have member := List.mem_of_getElem? among
        rw [List.getElem?_append_right (Nat.le_of_not_lt inside)] at among
        exact List.mem_singleton.mp (List.mem_of_getElem? among)
      refine .inr ⟨?_, rfl⟩
      rintro ⟨call, member, rfl, _⟩
      exact inside (accounts.known call member)
  · intro call member
    rw [List.length_append]
    exact Nat.lt_add_right 1 (accounts.known call member)

theorem Sharing.Accounts.other {items : List Handle} {calls : List (Call κ σ)}
    {consumers : List Iteration} (accounts : Accounts host h items calls consumers world)
    (untouched : after.heap.kind? h = world.heap.kind? h) :
    Accounts host h items calls consumers after := by
  have remains : after.remaining h = world.remaining h := by
    unfold World.remaining
    rw [untouched]
  refine ⟨?_, ?_, accounts.stands, accounts.known, accounts.delivers⟩
  · rw [untouched, remains]
    exact accounts.found
  · rw [remains]
    exact accounts.account

/-- A call takes from the items to come, and changes its own iteration only. -/
theorem Sharing.Accounts.next {items : List Handle} {calls : List (Call κ σ)}
    {consumers : List Iteration} (accounts : Accounts host h items calls consumers world)
    {consumer layers : Nat} {iteration rest : Iteration}
    {given : Option (Except Error (Object κ))} (among : consumers[consumer]? = some iteration)
    (called : iteration.next.run (answer host layers) world = some ((given, rest), after)) :
    Accounts host h items (calls ++ [⟨consumer, layers, world, given, after⟩])
      (consumers.set consumer rest) after := by
  have stands := accounts.stands consumer iteration among
  obtain ⟨delivers, taken, found, outcome⟩ := Call.delivers accounts.found stands called
  have inside : consumer < consumers.length := (List.getElem?_eq_some_iff.mp among).1
  refine ⟨found, ?_, ?_, ?_, ?_⟩
  · rw [List.flatMap_append, List.flatMap_singleton, List.append_assoc, taken, accounts.account]
  · intro other current present
    by_cases same : consumer = other
    · subst same
      rw [List.getElem?_set_self inside] at present
      cases present
      rcases outcome with ⟨yielded, rfl⟩ | ⟨noItem, rfl⟩
      · rcases stands with ⟨ended, rfl⟩ | ⟨going, rfl⟩
        · exact .inl ⟨ended_append_iff.mpr (.inl ended), rfl⟩
        · refine .inr ⟨?_, rfl⟩
          rintro ended
          rcases ended_append_iff.mp ended with ended | ⟨_, noItem⟩
          · exact going ended
          · exact noItem yielded
      · exact .inl ⟨ended_append_iff.mpr (.inr ⟨rfl, noItem⟩), rfl⟩
    · rw [List.getElem?_set_ne same] at present
      have kept : Ended (calls ++ [⟨consumer, layers, world, given, after⟩]) other ↔
          Ended calls other := by
        rw [ended_append_iff]
        exact or_iff_left fun impossible => same impossible.1
      rw [kept]
      exact accounts.stands other current present
  · rw [List.length_set]
    intro call member
    rcases List.mem_append.mp member with member | member
    · exact accounts.known call member
    · cases List.mem_singleton.mp member
      exact inside
  · intro earlier call later split
    rcases append_singleton_split split with ⟨rfl, rfl⟩ | ⟨rest, split⟩
    · exact ⟨delivers, accounts.account⟩
    · exact accounts.delivers earlier call rest split

theorem Sharing.accounts {origin : World κ σ} {items : List Handle}
    (isIterator : origin.heap.kind? h = some (.iterator items)) {calls : List (Call κ σ)}
    {consumers : List Iteration} (run : Sharing host h origin calls consumers world) :
    Accounts host h items calls consumers world := by
  induction run with
  | begin => exact .of_begin isIterator
  | @join calls consumers world after p layers started _ same starts ih =>
      cases layers with
      | zero =>
          rcases starts with starts | starts
          · cases starts
          · cases starts
      | succ layers =>
          have begins := start_of_iterator host (answer host layers) ih.found same
          obtain ⟨rfl, rfl⟩ : started = ⟨h, .stepping⟩ ∧ after = world := by
            rcases starts with starts | starts
            · cases begins.1.symm.trans starts
              exact ⟨rfl, rfl⟩
            · cases begins.2.symm.trans starts
              exact ⟨rfl, rfl⟩
          exact ih.join
  | other _ untouched ih => exact ih.other untouched
  | next _ among called ih => exact ih.next among called

/-- Where the runtime's own objects are wrapped by the bridge alone, every call comes to an end. -/
theorem next_finishes {iteration : Iteration} {layers : Nat}
    (found : world.heap.kind? h = some (.iterator (world.remaining h)))
    (stands : iteration = ⟨h, .finished⟩ ∨ iteration = ⟨h, .stepping⟩)
    (standard : world.loader = .standard) (sound : world.heap.Sound)
    (objects : ∀ item ∈ world.remaining h, ∃ kind, world.heap.kind? item = some kind) :
    ∃ given rest after,
      iteration.next.run (answer host (layers + 2)) world = some ((given, rest), after) := by
  rcases stands with rfl | rfl
  · exact ⟨_, _, _, next_finished _ world h⟩
  cases items : world.remaining h with
  | nil =>
      rw [items] at found
      exact ⟨_, _, _, next_stepping_nil found⟩
  | cons item more =>
      rw [items] at found objects
      obtain ⟨kind, isObject⟩ := objects item List.mem_cons_self
      have evolves : world.heap.Evolves (world.stepped h).heap := Heap.moves_next world.heap h
      have keeps : Heap.KeepsSound world.heap (world.stepped h).heap :=
        Heap.moves_next world.heap h
      have soundAfter := keeps sound
      have standardAfter : (world.stepped h).loader = .standard := standard
      obtain ⟨later, present, _⟩ := evolves.kind? isObject
      obtain ⟨attributes, content⟩ := Heap.cell?_of_kind? present
      have finishes : ∃ result after, (runProgram (answer host (layers + 2))
          (Bridge.wrap item)).run (world.stepped h) = some (result, after) := by
        cases viewed : (world.stepped h).heap.view? item later with
        | some view =>
            obtain ⟨last, wraps, _⟩ := (Machine.wrap_answers host (answer host layers)
              standardAfter soundAfter content viewed).finishes
            exact ⟨_, last, wraps⟩
        | none =>
            obtain ⟨isPrimitive, isInstance⟩ := Heap.view?_eq_none_iff.mp viewed
            obtain ⟨cls, rfl⟩ : ∃ cls, later = .instanceOf cls := by
              cases later with
              | instanceOf cls => exact ⟨cls, rfl⟩
              | _ => cases isInstance
            obtain ⟨error, last, fails⟩ := Machine.wrap_fails host (answer host (layers + 1))
              (soundAfter.hasClass present) present isPrimitive
            exact ⟨_, last, fails⟩
      obtain ⟨result, after, wraps⟩ := finishes
      exact ⟨_, _, after, (next_stepping_cons_iff found).mpr ⟨result, wraps, rfl, rfl⟩⟩

/-- Iterations over one foreign iterator lose and duplicate nothing. What their calls have taken, in
the order of the calls, and what is still to come are together the items that the iterator had;
every call gives the result of wrapping the first item left, unless its own iteration has ended or
no item is left; only a call that gives no item ends an iteration, and only its own; and when
everything is taken, all iterations give nothing from then on. -/
theorem iterators_lose_nothing {origin : World κ σ} {items : List Handle}
    (isIterator : origin.heap.kind? h = some (.iterator items)) {calls : List (Call κ σ)}
    {consumers : List Iteration} (run : Sharing host h origin calls consumers world) :
    calls.flatMap (Call.taken h) ++ world.remaining h = items ∧
    (∀ earlier call later, calls = earlier ++ call :: later →
      call.Delivers host h earlier ∧
        (earlier.flatMap (Call.taken h) = items →
          call.given = none ∧ call.taken h = [] ∧ call.after = call.before)) ∧
    (∀ (consumer : Nat) iteration, consumers[consumer]? = some iteration →
      (Ended calls consumer ∧ iteration = ⟨h, .finished⟩) ∨
        (¬ Ended calls consumer ∧ iteration = ⟨h, .stepping⟩)) ∧
    (calls.flatMap (Call.taken h) = items → ∀ iteration ∈ consumers, ∀ layers,
      iteration.next.run (answer host (layers + 1)) world =
        some ((none, ⟨h, .finished⟩), world)) ∧
    (world.loader = .standard → world.heap.Sound →
      (∀ item ∈ world.remaining h, ∃ kind, world.heap.kind? item = some kind) →
      ∀ iteration ∈ consumers, ∀ layers, ∃ given rest after,
        iteration.next.run (answer host (layers + 2)) world = some ((given, rest), after)) := by
  have accounts := run.accounts isIterator
  have states : ∀ iteration ∈ consumers,
      iteration = ⟨h, .finished⟩ ∨ iteration = ⟨h, .stepping⟩ := by
    intro iteration member
    obtain ⟨consumer, among⟩ := List.mem_iff_getElem?.mp member
    exact (accounts.stands consumer iteration among).imp And.right And.right
  refine ⟨accounts.account, ?_, accounts.stands, ?_, ?_⟩
  · intro earlier call later split
    obtain ⟨delivers, account⟩ := accounts.delivers earlier call later split
    refine ⟨delivers, ?_⟩
    intro all
    have empty : call.before.remaining h = [] := by
      rw [all] at account
      exact List.append_right_eq_self.mp account
    cases delivers with
    | ended _ nothing same => exact ⟨nothing, Call.taken_of_same same, same⟩
    | exhausted _ _ nothing same => exact ⟨nothing, Call.taken_of_same same, same⟩
    | item _ taken _ _ _ =>
        unfold Call.taken at taken
        rw [empty, List.take_nil] at taken
        cases taken
  · intro all iteration member layers
    have empty : world.remaining h = [] := by
      have account := accounts.account
      rw [all] at account
      exact List.append_right_eq_self.mp account
    rcases states iteration member with rfl | rfl
    · exact next_finished _ world h
    · have found := accounts.found
      rw [empty] at found
      exact next_stepping_nil found
  · intro standard sound objects iteration member layers
    exact next_finishes accounts.found (states iteration member) standard sound objects

/-- An iterator of one item with two iterations: the first call takes the item, the other iteration
gets nothing. -/
theorem iterators_lose_nothing_two :
    let host := Host.answeringNone
    let start : World Unit Unit := .start {} .standard ()
    let origin := { start with heap :=
      (start.heap.push (.object ⟨.int 5, .empty⟩)).push (.object ⟨.iterator [⟨7⟩], .empty⟩) }
    ∃ calls after, Sharing host ⟨8⟩ origin calls [⟨⟨8⟩, .stepping⟩, ⟨⟨8⟩, .stepping⟩] after ∧
      calls.map (·.given) = [some (.ok (.int 5))] ∧
      calls.flatMap (Call.taken ⟨8⟩) = [⟨7⟩] ∧
      (⟨⟨8⟩, .stepping⟩ : Iteration).next.run (answer host 1) after =
        some ((none, ⟨⟨8⟩, .finished⟩), after) := by
  intro host start origin
  let p : Proxy Unit := .mk ⟨8⟩ ⟨"builtins", "list_iterator"⟩ []
  have isIterator : origin.heap.kind? ⟨8⟩ = some (.iterator [⟨7⟩]) := rfl
  have starts : (runProgram (answer host 1) (Iteration.start p)).run origin =
      some (.ok ⟨⟨8⟩, .stepping⟩, origin) := rfl
  have joined : Sharing host ⟨8⟩ origin [] [⟨⟨8⟩, .stepping⟩, ⟨⟨8⟩, .stepping⟩] origin :=
    (Sharing.begin.join rfl (.inl starts)).join rfl (.inl starts)
  -- the first iteration takes the item
  have found : (origin.stepped ⟨8⟩).heap.kind? ⟨7⟩ = some (.int 5) := rfl
  have classed : (origin.stepped ⟨8⟩).heap.HasClass (.int 5) := nofun
  obtain ⟨after, wraps, _⟩ :=
    (Machine.wrap_answers_primitive host (answer host 0) classed found rfl rfl).finishes
  have called : (⟨⟨8⟩, .stepping⟩ : Iteration).next.run (answer host 1) origin =
      some ((some (.ok (.int 5)), ⟨⟨8⟩, .stepping⟩), after) :=
    (next_stepping_cons_iff isIterator).mpr ⟨_, wraps, rfl, rfl⟩
  have among : ([⟨⟨8⟩, .stepping⟩, ⟨⟨8⟩, .stepping⟩] : List Iteration)[0]? =
      some ⟨⟨8⟩, .stepping⟩ := rfl
  have run := joined.next among called
  -- nothing is left for the other
  obtain ⟨account, delivers, _, exhausted, _⟩ := iterators_lose_nothing isIterator run
  have own : origin.loader.Own := Registry.own_standard
  have taken : ([] ++ [(⟨0, 1, origin, some (.ok (.int 5)), after⟩ : Call Unit Unit)]).flatMap
      (Call.taken ⟨8⟩) = [⟨7⟩] := by
    obtain ⟨delivers, _⟩ := delivers [] _ [] rfl
    cases delivers with
    | ended _ nothing _ => cases nothing
    | exhausted _ empty _ _ => cases empty
    | @item _ item others _ taken _ _ alone =>
        cases alone own
        rw [List.nil_append, List.flatMap_singleton, taken] at account ⊢
        exact congrArg (fun l => [l]) (List.cons.inj account).1
  exact ⟨_, after, run, rfl, taken, exhausted taken _ List.mem_cons_self 0⟩

end Iteration

end Interop
