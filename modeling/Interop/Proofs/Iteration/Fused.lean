import Interop.Iteration
import Interop.Proofs.Interaction.Trace
/-!
Iterations over any value whatever. Nothing is known here about what answers the requests: each
reply may be anything, at every call anew. Still an iteration gives items up to a first end or
error, and after that nothing, without asking for anything again.
-/

set_option autoImplicit false

namespace Interop

variable {κ σ : Type}

namespace Iteration

open Interaction (Exchanges Strategy Follows exchanges_pure_iff exchanges_bind_iff)

/-- A call on an iteration: what was asked for on the way, and what was given. -/
structure Turn (κ σ : Type) where
  asked : List (Event κ σ)
  given : Option (Except Error (Object κ))

namespace Turn

def Yields (turn : Turn κ σ) : Prop := ∃ object, turn.given = some (.ok object)

def Fails (turn : Turn κ σ) : Prop := ∃ error, turn.given = some (.error error)

/-- Nothing was asked for and nothing was given. -/
def Silent (turn : Turn κ σ) : Prop := turn.asked = [] ∧ turn.given = none

end Turn

/-- Calls on an iteration, one after the other, with any replies to what they ask for. -/
inductive Calls (first : Iteration) : List (Turn κ σ) → Iteration → Prop
  | begin : Calls first [] first
  | next {turns : List (Turn κ σ)} {iteration rest : Iteration} {asked : List (Event κ σ)}
      {given : Option (Except Error (Object κ))} (calls : Calls first turns iteration)
      (called : Exchanges iteration.next asked (given, rest)) :
      Calls first (turns ++ [⟨asked, given⟩]) rest

/-- How an iteration begins: it depends on whether the value says that it is an iterator, and if
not, whether it says that it is a sequence. -/
inductive Begins (p : Proxy κ) : List (Event κ σ) → Iteration → Prop
  | iterator : Begins p [⟨.isIterator p.handle, true⟩] ⟨p.handle, .stepping⟩
  | sequence : Begins p [⟨.isIterator p.handle, false⟩, ⟨.isSequence p.handle, true⟩]
      ⟨p.handle, .reading 0⟩
  | neither : Begins p [⟨.isIterator p.handle, false⟩, ⟨.isSequence p.handle, false⟩]
      ⟨p.handle, .refused (.type (.notIterable p.typeInfo.name))⟩

/-- The iteration after a number of items. -/
def advance (iteration : Iteration) (items : Nat) : Iteration :=
  match iteration.state with
  | .reading cursor => { iteration with state := .reading (cursor + items) }
  | _ => iteration

variable {p : Proxy κ} {first iteration rest last : Iteration} {turns : List (Turn κ σ)}
  {begun asked : List (Event κ σ)} {given : Option (Except Error (Object κ))}

/-! ### The beginning -/

theorem begins_of_start {result : Except Error Iteration}
    (started : Exchanges (start p).run begun result) :
    ∃ first, result = .ok first ∧ Begins p begun first := by
  change Exchanges (.perform (.isIterator p.handle) fun _ => _) _ _ at started
  cases started with
  | perform _ isIterator rest =>
      cases isIterator with
      | true =>
          obtain ⟨rfl, rfl⟩ := exchanges_pure_iff.mp rest
          exact ⟨_, rfl, .iterator⟩
      | false =>
          change Exchanges (.perform (.isSequence p.handle) fun _ => _) _ _ at rest
          cases rest with
          | perform _ isSequence rest =>
              cases isSequence with
              | true =>
                  obtain ⟨rfl, rfl⟩ := exchanges_pure_iff.mp rest
                  exact ⟨_, rfl, .sequence⟩
              | false =>
                  obtain ⟨rfl, rfl⟩ := exchanges_pure_iff.mp rest
                  exact ⟨_, rfl, .neither⟩

/-- An iteration that is not refused begins as any does. -/
theorem begins_of_start? (started : Exchanges (start? p).run begun (.ok first)) :
    Begins p begun first := by
  unfold start? at started
  rw [Program.run_bind_eq] at started
  obtain ⟨early, result, late, rfl, starts, ends⟩ := exchanges_bind_iff.mp started
  obtain ⟨iteration, rfl, begins⟩ := begins_of_start starts
  dsimp only at ends
  cases begins with
  | iterator =>
      obtain ⟨rfl, same⟩ := exchanges_pure_iff.mp ends
      cases same
      exact .iterator
  | sequence =>
      obtain ⟨rfl, same⟩ := exchanges_pure_iff.mp ends
      cases same
      exact .sequence
  | neither =>
      obtain ⟨_, impossible⟩ := exchanges_pure_iff.mp ends
      cases impossible

/-! ### One call -/

theorem silent_of_finished (finished : iteration.state = .finished)
    (called : Exchanges iteration.next asked (given, rest)) :
    Turn.Silent ⟨asked, given⟩ ∧ rest = iteration := by
  obtain ⟨h, state⟩ := iteration
  cases finished
  obtain ⟨rfl, same⟩ := exchanges_pure_iff.mp called
  cases same
  exact ⟨⟨rfl, rfl⟩, rfl⟩

/-- What reading has come to decides how the iteration goes on. -/
theorem settle_cases {h : Handle} {next : IterationState}
    {result : Except Error (Option (Object κ))} (settled : (given, rest) = settle h next result) :
    (Turn.Yields (⟨asked, given⟩ : Turn κ σ) ∧ rest = ⟨h, next⟩) ∨
      (¬ Turn.Yields (⟨asked, given⟩ : Turn κ σ) ∧ rest.state = .finished) := by
  cases result with
  | error error =>
      cases settled
      exact .inr ⟨nofun, rfl⟩
  | ok item? =>
      cases item? with
      | none =>
          cases settled
          exact .inr ⟨nofun, rfl⟩
      | some item =>
          cases settled
          exact .inl ⟨⟨item, rfl⟩, rfl⟩

/-- A call gives an item and the iteration goes on by one, or it is finished. -/
theorem next_cases (called : Exchanges iteration.next asked (given, rest)) :
    (Turn.Yields ⟨asked, given⟩ ∧ rest = iteration.advance 1) ∨
      (¬ Turn.Yields ⟨asked, given⟩ ∧ rest.state = .finished) := by
  obtain ⟨h, state⟩ := iteration
  cases state with
  | finished =>
      obtain ⟨⟨_, rfl⟩, rfl⟩ := silent_of_finished rfl called
      exact .inr ⟨nofun, rfl⟩
  | refused error =>
      obtain ⟨_, same⟩ := exchanges_pure_iff.mp called
      cases same
      exact .inr ⟨nofun, rfl⟩
  | stepping =>
      obtain ⟨early, result, late, rfl, _, ends⟩ := exchanges_bind_iff.mp called
      exact settle_cases (exchanges_pure_iff.mp ends).2
  | reading cursor =>
      obtain ⟨early, result, late, rfl, _, ends⟩ := exchanges_bind_iff.mp called
      exact settle_cases (exchanges_pure_iff.mp ends).2

/-! ### Any number of calls -/

theorem advance_zero (iteration : Iteration) : iteration.advance 0 = iteration := by
  obtain ⟨h, state⟩ := iteration
  cases state <;> rfl

theorem advance_advance (iteration : Iteration) (m n : Nat) :
    (iteration.advance m).advance n = iteration.advance (m + n) := by
  obtain ⟨h, state⟩ := iteration
  cases state with
  | reading cursor =>
      exact congrArg (fun position => Iteration.mk h (.reading position)) (Nat.add_assoc cursor m n)
  | _ => rfl

/-- As long as all calls have given items, the iteration is as far as there were calls; after a call
that gave none it is finished. -/
theorem Calls.state (calls : Calls first turns last) :
    ((∀ turn ∈ turns, turn.Yields) ∧ last = first.advance turns.length) ∨
      ((∃ turn ∈ turns, ¬ turn.Yields) ∧ last.state = .finished) := by
  induction calls with
  | begin => exact .inl ⟨List.forall_mem_nil _, (advance_zero first).symm⟩
  | @next turns iteration rest asked given _ called ih =>
      rcases ih with ⟨yielded, rfl⟩ | ⟨⟨turn, member, ended⟩, finished⟩
      · rcases next_cases called with ⟨yields, rfl⟩ | ⟨ends, finished⟩
        · refine .inl ⟨?_, ?_⟩
          · exact List.forall_mem_append.mpr ⟨yielded, List.forall_mem_singleton.mpr yields⟩
          · rw [advance_advance, List.length_append, List.length_singleton]
        · exact .inr ⟨⟨_, List.mem_append_right _ List.mem_cons_self, ends⟩, finished⟩
      · obtain ⟨_, rfl⟩ := silent_of_finished finished called
        exact .inr ⟨⟨turn, List.mem_append_left _ member, ended⟩, finished⟩

/-- After a call that gave no item all calls are silent. -/
theorem Calls.pairwise (calls : Calls first turns last) :
    turns.Pairwise fun early late => ¬ early.Yields → late.Silent := by
  induction calls with
  | begin => exact .nil
  | @next turns iteration rest asked given calls called ih =>
      refine List.pairwise_append.mpr ⟨ih, List.pairwise_singleton _ _, ?_⟩
      intro early member late isLast ended
      cases List.mem_singleton.mp isLast
      rcases calls.state with ⟨yielded, _⟩ | ⟨_, finished⟩
      · exact absurd (yielded early member) ended
      · exact (silent_of_finished finished called).1

theorem Turn.Fails.not_yields {turn : Turn κ σ} (fails : turn.Fails) : ¬ turn.Yields := by
  rintro ⟨object, yielded⟩
  obtain ⟨error, failed⟩ := fails
  rw [failed] at yielded
  cases yielded

theorem Turn.Fails.not_silent {turn : Turn κ σ} (fails : turn.Fails) : ¬ turn.Silent := by
  rintro ⟨_, nothing⟩
  obtain ⟨error, failed⟩ := fails
  rw [failed] at nothing
  cases nothing

/-- Only a sequence has a cursor to begin with. -/
theorem Begins.cursor? (begins : Begins p begun first) (items : Nat) :
    (⟨.isSequence p.handle, true⟩ ∈ begun → (first.advance items).cursor? = some items) ∧
      (⟨.isSequence p.handle, true⟩ ∉ begun → (first.advance items).cursor? = none) := by
  cases begins with
  | iterator =>
      refine ⟨fun member => ?_, fun _ => rfl⟩
      cases List.mem_singleton.mp member
  | sequence =>
      refine ⟨fun _ => congrArg some (Nat.zero_add items), fun absent => ?_⟩
      exact absurd (List.mem_cons_of_mem _ List.mem_cons_self) absent
  | neither =>
      refine ⟨fun member => ?_, fun _ => rfl⟩
      rcases List.mem_cons.mp member with impossible | member
      · cases impossible
      · cases List.mem_singleton.mp member

/-- An iteration is fused, whatever answers its requests and however it was started. Every call
ends. Calls give items up to a first one that does not; all later ones give nothing and ask for
nothing, so that there is one error at most. The cursor is the number of items as long as a sequence
has given nothing else, and there is no cursor otherwise. -/
theorem fused
    (started : Exchanges (start p).run begun (.ok first) ∨
      Exchanges (start? p).run begun (.ok first))
    (calls : Calls first turns last) :
    (turns.Pairwise fun early late => ¬ early.Yields → late.Silent) ∧
    (turns.Pairwise fun early late => ¬ (early.Fails ∧ late.Fails)) ∧
    (⟨.isSequence p.handle, true⟩ ∈ begun → (∀ turn ∈ turns, turn.Yields) →
      last.cursor? = some turns.length) ∧
    (⟨.isSequence p.handle, true⟩ ∉ begun ∨ (∃ turn ∈ turns, ¬ turn.Yields) →
      last.cursor? = none) ∧
    ∀ strategy : Strategy κ σ, ∃ asked given rest, Exchanges last.next asked (given, rest) ∧
      Follows strategy asked := by
  have begins : Begins p begun first := by
    rcases started with starts | starts
    · obtain ⟨_, same, begins⟩ := begins_of_start starts
      cases same
      exact begins
    · exact begins_of_start? starts
  refine ⟨calls.pairwise, ?_, ?_, ?_, ?_⟩
  · refine calls.pairwise.imp ?_
    rintro early late silent ⟨fails, failsAgain⟩
    exact failsAgain.not_silent (silent fails.not_yields)
  · intro isSequence yielded
    rcases calls.state with ⟨_, rfl⟩ | ⟨⟨turn, member, ended⟩, _⟩
    · exact (begins.cursor? turns.length).1 isSequence
    · exact absurd (yielded turn member) ended
  · intro gone
    rcases calls.state with ⟨yielded, rfl⟩ | ⟨_, finished⟩
    · rcases gone with noSequence | ⟨turn, member, ended⟩
      · exact (begins.cursor? turns.length).2 noSequence
      · exact absurd (yielded turn member) ended
    · unfold cursor?
      rw [finished]
  · intro strategy
    obtain ⟨asked, ⟨given, rest⟩, called, follows⟩ :=
      Interaction.exists_exchanges last.next strategy
    exact ⟨asked, given, rest, called, follows⟩

/-- A value that says it is an iterator, gives a none, then fails, and would give a none again: no
later call asks it. -/
theorem fused_failing :
    let p : Proxy Unit := .mk ⟨0⟩ ⟨"host", "Source"⟩ []
    let failure : Error := .type (.stated "broken")
    ∃ (begun : List (Event Unit Unit)) (first last : Iteration) (item broken : Turn Unit Unit),
      Exchanges (start p).run begun (.ok first) ∧ Calls first [item, broken] last ∧
      item.given = some (.ok .none) ∧ broken.given = some (.error failure) ∧
      last.cursor? = none ∧
      ∀ turns later, Calls first (item :: broken :: turns) later →
        ∀ turn ∈ turns, turn.Silent := by
  intro p failure
  have started : Exchanges (start p).run [(⟨.isIterator p.handle, true⟩ : Event Unit Unit)]
      (.ok ⟨p.handle, .stepping⟩) := .perform (.isIterator p.handle) true (.done _)
  obtain ⟨asked, gives⟩ : ∃ asked : List (Event Unit Unit),
      Exchanges (next ⟨p.handle, .stepping⟩) asked (some (.ok .none), ⟨p.handle, .stepping⟩) :=
    ⟨_, .perform (.next p.handle) (.ok (some ⟨1⟩)) <|
      .perform (.typeOf ⟨1⟩) (.ok ⟨2⟩) <|
      .perform (.getAttr ⟨2⟩ "__module__") (.ok ⟨3⟩) <|
      .perform (.primitive ⟨3⟩) (.ok (.string "builtins")) <|
      .perform (.getAttr ⟨2⟩ "__name__") (.ok ⟨4⟩) <|
      .perform (.primitive ⟨4⟩) (.ok (.string "NoneType")) <| .done _⟩
  obtain ⟨askedAgain, fails⟩ : ∃ asked : List (Event Unit Unit),
      Exchanges (next ⟨p.handle, .stepping⟩) asked (some (.error failure), ⟨p.handle, .finished⟩) :=
    ⟨_, .perform (.next p.handle) (.error failure) (.done _)⟩
  have calls := (Calls.begin.next gives).next fails
  have broken : ¬ Turn.Yields ⟨askedAgain, some (.error failure)⟩ := nofun
  refine ⟨_, _, _, _, _, started, calls, rfl, rfl, ?_, ?_⟩
  · obtain ⟨_, _, _, noCursor, _⟩ := fused (.inl started) calls
    exact noCursor (.inr ⟨_, List.mem_cons_of_mem _ List.mem_cons_self, broken⟩)
  · intro turns later calls turn member
    obtain ⟨pairwise, _⟩ := fused (.inl started) calls
    exact List.rel_of_pairwise_cons (List.pairwise_cons.mp pairwise).2 member broken

end Iteration

end Interop
