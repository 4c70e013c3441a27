import Interop.Iteration
import Interop.Proofs.Bridge.Wrapping
import Interop.Proofs.Call.Body
import Interop.Proofs.Machine.Reachable
/-!
Iterating a list that changes. Every call asks for the list's length anew and reads the item at the
cursor, and the cursor counts the items that were given; so the k-th item is the one at position k
at the time of the k-th call, whatever happened to the list before.
-/

set_option autoImplicit false

namespace Interop

variable {κ σ : Type}

/-- The world after the length of a value was asked for: the answer is a new integer. -/
def World.lengthAsked (world : World κ σ) (length : Nat) : World κ σ :=
  { world with heap := world.heap.push (.object ⟨.int (Int64.ofInt length), .empty⟩) }

namespace Machine

variable (host : Host κ σ) (below : Handler κ σ)

variable {world : World κ σ} {h : Handle} {kind : Kind κ} {length : Nat}

/-! ### The length of a value -/

theorem run_builtin {name : String} {f : Handle} (bound : world.builtins.get? name = some f) :
    (runProgram (layer host below) (Program.builtin name)).run world = some (.ok f, world) := by
  have asked : (runProgram (layer host below) (Program.builtin name)).run =
      layer host below (.builtin name) := Interaction.run_ask _ (.builtin name)
  rw [asked]
  refine Run.bind_eq_some_iff.mpr ⟨world, world, rfl, ?_⟩
  rw [bound]
  rfl

/-- A builtin that is given a value gets just this value. -/
theorem run_invoke_builtin {f result : Handle} {name : String} {builtin : Builtin} {heap : Heap κ}
    (isBuiltin : world.heap.kind? f = some (.function name (.builtin builtin)))
    (called : (Heap.callBuiltin builtin [h]).run world.heap = .ok (result, heap)) :
    (runProgram (layer host below) (f.invoke [.handle h])).run world =
      some (.ok result, { world with heap := heap }) := by
  have marshalled : (Heap.marshalAll [.handle h]).run world.heap = .ok ([h], world.heap) := rfl
  exact run_invoke_marshalled host below isBuiltin rfl marshalled called

theorem callBuiltin_len {heap : Heap κ} (found : heap.kind? h = some kind)
    (told : heap.length kind = .ok length) :
    (Heap.callBuiltin .len [h]).run heap = .ok (heap.fresh,
      heap.push (.object ⟨.int (Int64.ofInt length), .empty⟩)) := by
  refine Heap.Op.bind_eq_ok_iff.mpr ⟨h, heap, rfl, ?_⟩
  refine Heap.Op.bind_eq_ok_iff.mpr ⟨heap, heap, rfl, ?_⟩
  rw [found]
  dsimp only
  rw [told]
  rfl

/-- The length that the host reads off the word that the runtime tells. -/
def readLength (told : Int64) : Except Error Nat :=
  if told < 0 then .error (.type (.negativeLength told)) else .ok told.toInt.toNat

/-- A value tells its length, as it is at that moment, as a word. -/
theorem run_lengthOf_word (hasLen : world.HasBuiltin .len)
    (found : world.heap.kind? h = some kind) (told : world.heap.length kind = .ok length) :
    (runProgram (layer host below) (Bridge.lengthOf h)).run world =
      some (readLength (Int64.ofInt length), world.lengthAsked length) := by
  obtain ⟨len, bound, isLen⟩ := hasLen
  have bound : world.builtins.get? "len" = some len := bound
  have isLength : (world.lengthAsked length).heap.kind? world.heap.fresh =
      some (.int (Int64.ofInt length)) := Heap.kind?_fresh world.heap _
  have invoked : (runProgram (layer host below) (len.invoke [.handle h])).run world =
      some (.ok world.heap.fresh, world.lengthAsked length) :=
    run_invoke_builtin host below isLen (callBuiltin_len found told)
  unfold Bridge.lengthOf readLength
  rw [run_bind_of_ok _ (run_builtin host below bound), run_bind_of_ok _ invoked,
    run_bind_of_ok _ (run_primitive host below isLength rfl)]
  dsimp only
  split
  · rfl
  · rfl

/-- The word is the length, if that fits. -/
theorem run_lengthOf (hasLen : world.HasBuiltin .len) (found : world.heap.kind? h = some kind)
    (told : world.heap.length kind = .ok length) (fits : FitsWord length) :
    (runProgram (layer host below) (Bridge.lengthOf h)).run world =
      some (.ok length, world.lengthAsked length) := by
  rw [run_lengthOf_word host below hasLen found told, readLength, if_neg (not_ofInt_neg fits),
    toInt_ofInt_of_fitsWord fits, Int.toNat_natCast]

/-! ### One call -/

/-- Below the length, the item at the cursor is wrapped as it is at that moment. -/
theorem run_itemAt_of_lt {cursor : Nat} {item : Handle} (hasLen : world.HasBuiltin .len)
    (found : world.heap.kind? h = some kind) (told : world.heap.length kind = .ok length)
    (fits : FitsWord length) (inside : cursor < length)
    (read : (world.lengthAsked length).heap.item h (.ofInt cursor) = .ok (.object item)) :
    (runProgram (layer host below) (Iteration.itemAt h cursor)).run world =
      (runProgram (layer host below) (some <$> Bridge.wrap item)).run
        (world.lengthAsked length) := by
  unfold Iteration.itemAt
  rw [run_bind_of_ok _ (run_lengthOf host below hasLen found told fits),
    if_neg (Nat.not_le.mpr inside), run_bind_of_ok _ (run_getItem host below read), bind_pure_comp]

theorem run_itemAt_of_le {cursor : Nat} (hasLen : world.HasBuiltin .len)
    (found : world.heap.kind? h = some kind) (told : world.heap.length kind = .ok length)
    (fits : FitsWord length) (outside : length ≤ cursor) :
    (runProgram (layer host below) (Iteration.itemAt h cursor)).run world =
      some (.ok none, world.lengthAsked length) := by
  unfold Iteration.itemAt
  rw [run_bind_of_ok _ (run_lengthOf host below hasLen found told fits), if_pos outside]
  rfl

theorem run_map_eq_some_iff {α β : Type} {x : Program κ σ α} {f : α → β} {after : World κ σ}
    {result : Except Error β} :
    (runProgram below (f <$> x)).run world = some (result, after) ↔
      ∃ inner, (runProgram below x).run world = some (inner, after) ∧ result = inner.map f := by
  rw [map_eq_pure_bind, runProgram_bind, Exec.run_bind_eq_some_iff]
  constructor
  · rintro (⟨a, mid, finished, last⟩ | ⟨error, failed, rfl⟩)
    · cases last
      exact ⟨.ok a, finished, rfl⟩
    · exact ⟨.error error, failed, rfl⟩
  · rintro ⟨inner, finished, rfl⟩
    cases inner with
    | ok a => exact .inl ⟨a, after, finished, rfl⟩
    | error error => exact .inr ⟨error, finished, rfl⟩

end Machine

namespace Iteration

open Machine (runProgram answer layer)

/-- Whether a call has given an item. -/
def Yielded (given : Option (Except Error (Object κ))) : Prop := ∃ object, given = some (.ok object)

/-- A call on a sequence reads at the cursor, and goes on from what it read. -/
theorem next_reading_eq_some_iff {below : Handler κ σ} {world after : World κ σ} {h : Handle}
    {cursor : Nat} {given : Option (Except Error (Object κ))} {rest : Iteration} :
    (next ⟨h, .reading cursor⟩).run below world = some ((given, rest), after) ↔
      ∃ result, (runProgram below (itemAt h cursor)).run world = some (result, after) ∧
        settle h (.reading (cursor + 1)) result = (given, rest) := by
  have parts : (next ⟨h, .reading cursor⟩).run below =
      ((itemAt h cursor).run.run below >>= fun result =>
        pure (settle h (.reading (cursor + 1)) result) : Run κ σ _) :=
    Interaction.run_bind below _ _
  rw [parts, Run.bind_eq_some_iff]
  constructor
  · rintro ⟨result, mid, finished, last⟩
    obtain ⟨settled, rfl⟩ := Prod.mk.inj (Option.some.inj last)
    exact ⟨result, finished, settled⟩
  · rintro ⟨result, finished, settled⟩
    rw [← settled]
    exact ⟨result, after, finished, rfl⟩

/-- An item moves the cursor on by one, and anything else ends the iteration. -/
theorem next_reading_rest {below : Handler κ σ} {world after : World κ σ} {h : Handle}
    {cursor : Nat} {given : Option (Except Error (Object κ))} {rest : Iteration}
    (called : (next ⟨h, .reading cursor⟩).run below world = some ((given, rest), after)) :
    (Yielded given ∧ rest = ⟨h, .reading (cursor + 1)⟩) ∨
      (¬ Yielded given ∧ rest = ⟨h, .finished⟩) := by
  obtain ⟨result, _, settled⟩ := next_reading_eq_some_iff.mp called
  cases result with
  | error error =>
      cases settled
      exact .inr ⟨nofun, rfl⟩
  | ok item? =>
      cases item? with
      | none =>
          cases settled
          exact .inr ⟨nofun, rfl⟩
      | some item =>
          cases settled
          exact .inl ⟨⟨item, rfl⟩, rfl⟩

/-- After the end or an error there is nothing more. -/
theorem next_finished (below : Handler κ σ) (world : World κ σ) (h : Handle) :
    (next ⟨h, .finished⟩).run below world = some ((none, ⟨h, .finished⟩), world) := rfl

/-- What is given is what was read, and the iteration goes on only after an item. -/
theorem settle_eq (h : Handle) (next : IterationState) (inner : Except Error (Object κ)) :
    settle h next (inner.map some) = (some inner, ⟨h, if inner.isOk then next else .finished⟩) := by
  cases inner <;> rfl

/-- What a call on a list gives: the item at the cursor, wrapped as it is at that moment, or nothing
if the cursor has reached the length. -/
inductive Reads (below : Handler κ σ) (world : World κ σ) (items : List Handle) (cursor : Nat) :
    Option (Except Error (Object κ)) → World κ σ → Prop
  | item {result : Except Error (Object κ)} {after : World κ σ} (inside : cursor < items.length)
      (wrapped : (runProgram below (Bridge.wrap items[cursor])).run
        (world.lengthAsked items.length) = some (result, after)) :
      Reads below world items cursor (some result) after
  | nothing (outside : items.length ≤ cursor) :
      Reads below world items cursor none (world.lengthAsked items.length)

theorem next_reading_iff (host : Host κ σ) (below : Handler κ σ) {world after : World κ σ}
    {h : Handle} {items : List Handle} {cursor : Nat} {given : Option (Except Error (Object κ))}
    (hasLen : world.HasBuiltin .len) (found : world.heap.kind? h = some (.list items))
    (fits : FitsWord items.length) :
    (∃ rest, (next ⟨h, .reading cursor⟩).run (layer host below) world =
        some ((given, rest), after)) ↔
      Reads (layer host below) world items cursor given after := by
  have stays : (world.lengthAsked items.length).heap.kind? h = some (.list items) :=
    Heap.kind?_push found _
  have itemAt (inside : cursor < items.length) :=
    Machine.run_itemAt_of_lt host below hasLen found rfl fits inside
      (Heap.item_of_list stays fits inside)
  constructor
  · rintro ⟨rest, called⟩
    obtain ⟨result, read, settled⟩ := next_reading_eq_some_iff.mp called
    by_cases inside : cursor < items.length
    · rw [itemAt inside] at read
      obtain ⟨inner, wrapped, rfl⟩ := (Machine.run_map_eq_some_iff _).mp read
      rw [settle_eq] at settled
      obtain ⟨rfl, _⟩ := Prod.mk.inj settled
      exact .item inside wrapped
    · have outside := Nat.le_of_not_lt inside
      rw [Machine.run_itemAt_of_le host below hasLen found rfl fits outside] at read
      cases read
      cases settled
      exact .nothing outside
  · intro reads
    cases reads with
    | @item inner _ inside wrapped =>
        refine ⟨_, next_reading_eq_some_iff.mpr ⟨inner.map some, ?_, settle_eq h _ inner⟩⟩
        rw [itemAt inside]
        exact (Machine.run_map_eq_some_iff _).mpr ⟨inner, wrapped, rfl⟩
    | nothing outside =>
        refine ⟨_, next_reading_eq_some_iff.mpr ⟨.ok none, ?_, rfl⟩⟩
        exact Machine.run_itemAt_of_le host below hasLen found rfl fits outside

/-! ### Calls with anything in between -/

/-- What the calls on one iteration have given so far, the iteration as it is now, and the world.
Between the calls anything may happen that the runtime can do. -/
inductive Interleaving (host : Host κ σ) (first : Iteration) (origin : World κ σ) :
    List (Option (Except Error (Object κ))) → Iteration → World κ σ → Prop
  | begin : Interleaving host first origin [] first origin
  | other {answers : List (Option (Except Error (Object κ)))} {iteration : Iteration}
      {world after : World κ σ} (run : Interleaving host first origin answers iteration world)
      (evolves : world.heap.Evolves after.heap) (builtins : after.builtins = world.builtins) :
      Interleaving host first origin answers iteration after
  | next {answers : List (Option (Except Error (Object κ)))} {iteration rest : Iteration}
      {world after : World κ σ} {layers : Nat} {given : Option (Except Error (Object κ))}
      (run : Interleaving host first origin answers iteration world)
      (called : iteration.next.run (answer host layers) world = some ((given, rest), after)) :
      Interleaving host first origin (answers ++ [given]) rest after

variable {host : Host κ σ} {first iteration : Iteration} {origin world : World κ σ}
  {answers : List (Option (Except Error (Object κ)))} {h : Handle}

/-- Whatever happens, the heap has only evolved and the builtins are the same. -/
theorem Interleaving.evolves (run : Interleaving host first origin answers iteration world) :
    origin.heap.Evolves world.heap ∧ world.builtins = origin.builtins := by
  induction run with
  | begin => exact ⟨.refl, rfl⟩
  | other _ evolves builtins ih => exact ⟨ih.1.trans evolves, builtins.trans ih.2⟩
  | @next _ iteration _ _ _ layers _ _ called ih =>
      have moves : World.Moves Heap.Evolves _ _ :=
        Interaction.moves_run (Machine.evolves_answer host layers) iteration.next _ _ _ called
      exact ⟨ih.1.trans moves.heap, moves.builtins.trans ih.2⟩

/-- The cursor counts what was given; after the first call that gave no item it is gone. -/
theorem Interleaving.cursor
    (run : Interleaving host ⟨h, .reading 0⟩ origin answers iteration world) :
    ((∀ given ∈ answers, Yielded given) ∧ iteration = ⟨h, .reading answers.length⟩) ∨
      ((∃ given ∈ answers, ¬ Yielded given) ∧ iteration = ⟨h, .finished⟩) := by
  induction run with
  | begin => exact .inl ⟨List.forall_mem_nil _, rfl⟩
  | other _ _ _ ih => exact ih
  | next _ called ih =>
      rcases ih with ⟨yielded, rfl⟩ | ⟨⟨given, member, ended⟩, rfl⟩
      · rcases next_reading_rest called with ⟨item, rfl⟩ | ⟨noItem, rfl⟩
        · refine .inl ⟨?_, by rw [List.length_append, List.length_singleton]⟩
          exact List.forall_mem_append.mpr ⟨yielded, List.forall_mem_singleton.mpr item⟩
        · exact .inr ⟨⟨_, List.mem_append_right _ List.mem_cons_self, noItem⟩, rfl⟩
      · rw [next_finished] at called
        cases called
        exact .inr ⟨⟨given, List.mem_append_left _ member, ended⟩, rfl⟩

/-- A value that is no iterator is iterated over if it is a sequence. -/
theorem run_start (host : Host κ σ) (below : Handler κ σ) {p : Proxy κ}
    (notIterator : Machine.isIterator origin.heap p.handle = false) :
    (runProgram (layer host below) (start p)).run origin = some (.ok ⟨p.handle,
      if Machine.isSequence origin.heap p.handle then .reading 0
      else .refused (.type (.notIterable p.typeInfo.name))⟩, origin) := by
  have iterator : (runProgram (layer host below) p.handle.isIterator).run origin =
      some (.ok false, origin) := by
    change some (Except.ok (Machine.isIterator origin.heap p.handle), origin) = _
    rw [notIterator]
  have sequence : (runProgram (layer host below) p.handle.isSequence).run origin =
      some (.ok (Machine.isSequence origin.heap p.handle), origin) := rfl
  unfold start
  rw [Machine.run_bind_of_ok _ iterator, if_neg Bool.false_ne_true,
    Machine.run_bind_of_ok _ sequence]
  split
  · rfl
  · rfl

/-- An iteration of a sequence starts at its first position. -/
theorem start?_of_sequence (host : Host κ σ) (below : Handler κ σ) {p : Proxy κ}
    (notIterator : Machine.isIterator origin.heap p.handle = false)
    (isSequence : Machine.isSequence origin.heap p.handle = true) :
    (runProgram (layer host below) (start? p)).run origin =
      some (.ok ⟨p.handle, .reading 0⟩, origin) := by
  unfold start?
  rw [Machine.run_bind_of_ok _ (run_start host below notIterator), if_pos isSequence]
  rfl

theorem start?_of_list {p : Proxy κ} {items : List Handle} {layers : Nat} {begun : World κ σ}
    (isList : origin.heap.kind? p.handle = some (.list items))
    (started : (runProgram (answer host layers) (start? p)).run origin = some (.ok first, begun)) :
    first = ⟨p.handle, .reading 0⟩ ∧ begun = origin := by
  cases layers with
  | zero => cases started
  | succ layers =>
      obtain ⟨attributes, present⟩ := Heap.cell?_of_kind? isList
      have notIterator : Machine.isIterator origin.heap p.handle = false := by
        unfold Machine.isIterator
        rw [present]
      have isSequence : Machine.isSequence origin.heap p.handle = true := by
        unfold Machine.isSequence
        rw [present]
      cases (start?_of_sequence host (answer host layers) notIterator isSequence).symm.trans started
      exact ⟨rfl, rfl⟩

/-- Iterating a list that changes. Take any calls on one iteration of a list, with anything else in
between. As long as every call has given an item, the cursor is their number, and the next call
gives the item that stands there now, wrapped, or nothing if the list has no more items now. After
the first call that gave no item every call gives nothing. -/
theorem next_live (p : Proxy κ) {initial : List Handle} {layers : Nat} {begun : World κ σ}
    (reachable : origin.Reachable host) (isList : origin.heap.kind? p.handle = some (.list initial))
    (started : (runProgram (answer host layers) (start? p)).run origin = some (.ok first, begun))
    (run : Interleaving host first begun answers iteration world) :
    ((∀ given ∈ answers, Yielded given) →
      iteration.cursor? = some answers.length ∧
      ∃ items, world.heap.kind? p.handle = some (.list items) ∧
        (FitsWord items.length → ∀ layers given after,
          (∃ rest, iteration.next.run (answer host (layers + 1)) world =
            some ((given, rest), after)) ↔
            Reads (answer host (layers + 1)) world items answers.length given after)) ∧
    ((∃ given ∈ answers, ¬ Yielded given) → ∀ layers,
      iteration.next.run (answer host layers) world = some ((none, iteration), world)) := by
  obtain ⟨rfl, rfl⟩ := start?_of_list isList started
  obtain ⟨evolves, builtins⟩ := run.evolves
  have hasLen := (reachable.hasBuiltin .len).evolves evolves builtins
  obtain ⟨later, found, turns⟩ := evolves.kind? isList
  obtain ⟨items, rfl⟩ := turns.list
  constructor
  · intro yielded
    rcases run.cursor with ⟨_, rfl⟩ | ⟨⟨given, member, ended⟩, _⟩
    · refine ⟨rfl, items, found, fun fits layers given after => ?_⟩
      exact next_reading_iff host (answer host layers) hasLen found fits
    · exact absurd (yielded given member) ended
  · rintro ⟨given, member, ended⟩ layers
    rcases run.cursor with ⟨yielded, _⟩ | ⟨_, rfl⟩
    · exact absurd (yielded given member) ended
    · exact next_finished _ world p.handle

/-- A list of one item, to which the item is appended once more after the first call: the second
call gives it again. -/
theorem next_live_append :
    let host := Host.answeringNone
    let start : World Unit Unit := .start {} .standard ()
    let origin := { start with heap :=
      (start.heap.push (.object ⟨.int 5, .empty⟩)).push (.object ⟨.list [⟨7⟩], .empty⟩) }
    let append (world : World Unit Unit) :=
      { world with heap := world.heap.write ⟨8⟩ (.object ⟨.list [⟨7⟩, ⟨7⟩], .empty⟩) }
    let p : Proxy Unit := .mk ⟨8⟩ ⟨"builtins", "list"⟩ []
    ∃ first mid rest after last,
      (runProgram (answer host 1) (start? p)).run origin = some (.ok first, origin) ∧
      first.next.run (answer host 1) origin = some ((some (.ok (.int 5)), rest), mid) ∧
      rest.cursor? = some 1 ∧
      rest.next.run (answer host 1) (append mid) = some ((some (.ok (.int 5)), last), after) := by
  intro host start origin append p
  have reachable : origin.Reachable host := by
    have made : answer host 1 (.create (.int 5)) start =
      some (⟨7⟩, { start with heap := start.heap.push (.object ⟨.int 5, .empty⟩) }) := rfl
    have listed : answer host 1 (.create (.list [⟨7⟩]))
      { start with heap := start.heap.push (.object ⟨.int 5, .empty⟩) } = some (⟨8⟩, origin) := rfl
    exact ((World.Reachable.start {} .standard ()).answer made).answer listed
  have isList : origin.heap.kind? p.handle = some (.list [⟨7⟩]) := rfl
  have started : (runProgram (answer host 1) (start? p)).run origin =
      some (.ok ⟨p.handle, .reading 0⟩, origin) := rfl
  have wraps : ∀ world : World Unit Unit, world.heap.kind? ⟨7⟩ = some (.int 5) →
      ∃ after, (runProgram (answer host 1) (Bridge.wrap ⟨7⟩)).run world =
        some (.ok (.int 5), after) ∧ world.Moves Heap.Extends after := by
    intro world found
    have classed : world.heap.HasClass (.int 5) := nofun
    exact (Machine.wrap_answers_primitive host (answer host 0) classed found rfl rfl).finishes
  -- the first call
  obtain ⟨_, items, found, gives⟩ :=
    (next_live p reachable isList started .begin).1 (List.forall_mem_nil _)
  cases found.symm.trans isList
  obtain ⟨mid, wrapped, moves⟩ := wraps (origin.lengthAsked 1) rfl
  obtain ⟨rest, called⟩ := (gives (by decide) 0 _ mid).mpr (.item Nat.one_pos wrapped)
  -- the item is appended
  have kept : origin.heap.Extends mid.heap := (Heap.Extends.push _ _).trans moves.heap
  have present : mid.heap.cell? ⟨8⟩ = some (.object ⟨.list [⟨7⟩], .empty⟩) := kept _ _ rfl
  have appends : mid.heap.Evolves (append mid).heap := .single (.content present (.list _ _))
  have run : Interleaving host ⟨p.handle, .reading 0⟩ origin [some (.ok (.int 5))] rest
      (append mid) := (Interleaving.next .begin called).other appends rfl
  -- the second call
  obtain ⟨cursor, items, found, gives⟩ :=
    (next_live p reachable isList started run).1 (List.forall_mem_singleton.mpr ⟨_, rfl⟩)
  have longer : (append mid).heap.kind? ⟨8⟩ = some (.list [⟨7⟩, ⟨7⟩]) :=
    Heap.kind?_of_cell? (Heap.cell?_write_self present _)
  cases found.symm.trans longer
  have isFive : (append mid).heap.kind? ⟨7⟩ = some (.int 5) :=
    appends.kind?_eq (kept.kind? rfl) nofun
  obtain ⟨after, wrapped, _⟩ := wraps ((append mid).lengthAsked 2) (Heap.kind?_push isFive _)
  obtain ⟨last, calledAgain⟩ := (gives (by decide) 0 _ after).mpr (.item Nat.one_lt_two wrapped)
  exact ⟨_, mid, rest, after, last, started, called, cursor, calledAgain⟩

end Iteration

end Interop
