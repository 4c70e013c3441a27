import Interop.Construct
import Interop.Iteration
import Interop.Proofs.Identity.Honesty
import Interop.Scope
import Interop.Template
/-!
The operations of the bridge make no proxies up: each of them answers proxies that it was given, or
that wrapping gave.
-/

set_option autoImplicit false

namespace Interop

open Program (honest_pure honest_throw honest_fault honest_bind honest_then honest_give
  honest_attempt)

variable {κ σ α : Type} {held : σ → Set (Proxy κ)} {known : Set (Proxy κ)}

/-! ### Wrapping -/

namespace Bridge

theorem honest_wrap (h : Handle) :
    (wrap h : Program κ σ (Object κ)).Honest held Object.proxies known := by
  have node : Interaction.Honest held (ofResult Object.proxies) known
      ((wrap h).run >>= Interaction.done) :=
    .wrap fun result => .done Set.subset_union_right
  unfold Program.Honest
  rw [← bind_pure (wrap h).run]
  exact node

theorem honest_wrapAll (handles : List Handle) :
    (wrapAll handles : Program κ σ _).Honest held Object.proxiesAll known := by
  induction handles generalizing known with
  | nil => exact honest_pure (Set.empty_subset _)
  | cons h rest ih =>
      refine honest_bind (honest_wrap h) fun object => honest_bind ih fun objects => ?_
      exact honest_pure (Set.union_subset_union_left _ Set.subset_union_right)

theorem honest_importModule (name : String) :
    (importModule name : Program κ σ (Object κ)).Honest held Object.proxies known :=
  honest_then (Program.honest_importModule name) honest_wrap

theorem honest_builtin (name : String) :
    (builtin name : Program κ σ (Object κ)).Honest held Object.proxies known :=
  honest_then (Program.honest_builtin name) honest_wrap

theorem honest_globals : (globals : Program κ σ (Object κ)).Honest held Object.proxies known :=
  honest_then Program.honest_globals honest_wrap

theorem honest_lengthOf (h : Handle) :
    (lengthOf h : Program κ σ Nat).Honest held silent known := by
  refine honest_then (Program.honest_builtin "len") fun len => ?_
  refine honest_then (len.honest_invoke ?_) fun result => ?_
  · exact Set.union_subset (Set.empty_subset _) (Set.empty_subset _)
  · refine honest_then result.honest_primitive fun primitive => ?_
    split
    · split
      · exact honest_fault _
      · exact honest_pure (Set.empty_subset _)
    · exact honest_fault _

end Bridge

open Bridge (honest_wrap honest_wrapAll)

/-! ### Members of proxies -/

namespace Proxy

variable {p : Proxy κ}

theorem honest_get (owns : p.proxies ⊆ known) (name : String) :
    (p.get name : Program κ σ _).Honest held ofOption known := by
  unfold get
  have wrapped : ∀ h : Handle, (Bridge.wrap h >>= fun object => pure (some object) :
      Program κ σ (Option (Object κ))).Honest held ofOption known :=
    fun h => honest_give (honest_wrap h) fun object => subset_rfl
  split
  · rename_i object found
    exact honest_pure (((Member.proxies_of_get? found).trans p.members_proxies).trans owns)
  · exact honest_pure owns
  · split
    · exact honest_pure owns
    · split
      · exact honest_then (p.handle.honest_getItem _) wrapped
      · refine honest_then (p.handle.honest_hasAttr name) fun has => ?_
        split
        · exact honest_then (p.handle.honest_getAttr name) wrapped
        · refine honest_bind (honest_attempt (p.handle.honest_getItem _)) fun result => ?_
          split
          · exact (wrapped _).mono Set.subset_union_left
          · exact honest_pure (Set.empty_subset _)

theorem honest_set (p : Proxy κ) (name : String) {value : Arg κ} (sends : value.proxies ⊆ known) :
    (p.set name value : Program κ σ Bool).Honest held silent known := by
  have answered : ∀ status : Status,
      (pure status.isOk : Program κ σ Bool).Honest held silent known :=
    fun status => honest_pure (Set.empty_subset _)
  unfold set
  split
  · exact honest_then (p.handle.honest_setItem _ sends) answered
  · refine honest_then (p.handle.honest_hasAttr name) fun has => ?_
    split
    · exact honest_then (p.handle.honest_setAttr name sends) answered
    · refine honest_then (p.handle.honest_setItem _ sends) fun status => ?_
      split
      · exact honest_pure (Set.empty_subset _)
      · exact honest_then (p.handle.honest_setAttr name sends) answered

theorem honest_call (p : Proxy κ) {args : List (Arg κ)} (sends : Arg.proxiesAll args ⊆ known) :
    (p.call args : Program κ σ (Object κ)).Honest held Object.proxies known :=
  honest_then (p.handle.honest_invoke sends) honest_wrap

theorem honest_callMethod (p : Proxy κ) (name : String) {args : List (Arg κ)}
    (sends : Arg.proxiesAll args ⊆ known) :
    (p.callMethod name args : Program κ σ (Object κ)).Honest held Object.proxies known :=
  honest_then (p.handle.honest_getAttr name) fun method =>
    honest_then (method.honest_invoke sends) honest_wrap

theorem honest_slice (p : Proxy κ) (start stop step : Option Int64) :
    (p.slice start stop step : Program κ σ (Object κ)).Honest held Object.proxies known := by
  refine honest_then (Program.honest_builtin "slice") fun slice => ?_
  refine honest_then (slice.honest_invoke ?_) fun cut => ?_
  · refine Set.union_subset ?_ (Set.union_subset ?_ (Set.union_subset ?_ (Set.empty_subset _)))
    · cases start <;> exact Set.empty_subset _
    · cases stop <;> exact Set.empty_subset _
    · cases step <;> exact Set.empty_subset _
  · exact honest_then (p.handle.honest_getItem _) honest_wrap

theorem honest_length (p : Proxy κ) : (p.length : Program κ σ Nat).Honest held silent known :=
  Bridge.honest_lengthOf p.handle

theorem honest_display (p : Proxy κ) :
    (p.display : Program κ σ String).Honest held silent known := by
  refine honest_bind (honest_attempt p.handle.honest_text) fun result => ?_
  split
  · exact honest_pure (Set.empty_subset _)
  · exact honest_pure (Set.empty_subset _)

end Proxy

/-! ### Calls -/

theorem Method.honest_call (method : Method κ) {receiver : Proxy κ} {args : List (Object κ)}
    (owns : receiver.proxies ⊆ known) (sends : Object.proxiesAll args ⊆ known) :
    (method.call receiver args : Program κ σ _).Honest held Object.proxies known := by
  unfold call
  split
  · refine honest_give receiver.honest_length fun length => ?_
    rw [Object.proxies_ofPrimitive]
    exact Set.empty_subset _
  · exact receiver.honest_callMethod "keys" (Set.empty_subset _)
  · exact .perform (Set.union_subset owns sends) fun _ => .done Set.subset_union_right

namespace Capability

variable (c : Capability) {args : List (Object κ)}

theorem honest_required (sends : Object.proxiesAll args ⊆ known) :
    (c.required args : Program κ σ _).Honest held
      (fun given => given.1.proxies ∪ Object.proxiesAll given.2) known := by
  cases args with
  | nil => exact honest_fault _
  | cons first rest => exact honest_pure sends

theorem honest_requiredName (sends : Object.proxiesAll args ⊆ known) :
    (c.requiredName args : Program κ σ _).Honest held
      (fun given => Object.proxiesAll given.2) known := by
  refine honest_bind (c.honest_required sends) fun given => ?_
  split
  · exact honest_pure (Set.subset_union_right.trans Set.subset_union_right)
  · exact honest_fault _

theorem honest_optionalInt (sends : Object.proxiesAll args ⊆ known) :
    (c.optionalInt args : Program κ σ _).Honest held
      (fun given => Object.proxiesAll given.2) known := by
  unfold optionalInt
  split
  · exact honest_pure (Set.empty_subset _)
  · exact honest_pure (Set.subset_union_right.trans sends)
  · exact honest_pure (Set.subset_union_right.trans sends)
  · exact honest_fault _

end Capability

theorem honest_wrapRaw (args : List (Object κ)) (sends : Object.proxiesAll args ⊆ known) :
    (wrapRaw args : Program κ σ _).Honest held
      (fun out => Object.proxiesAll out.1) known := by
  induction args generalizing known with
  | nil => exact honest_pure (Set.empty_subset _)
  | cons arg rest ih =>
      have first : (pure arg : Program κ σ (Object κ)).Honest held Object.proxies known :=
        honest_pure (Set.subset_union_left.trans sends)
      have others : Object.proxiesAll rest ⊆ known := Set.subset_union_right.trans sends
      unfold wrapRaw
      dsimp only
      split
      · refine honest_bind (honest_wrap _) fun object => ?_
        refine honest_bind (ih (others.trans Set.subset_union_left)) fun ⟨objects, same⟩ => ?_
        exact honest_pure (Set.union_subset_union_left _ Set.subset_union_right)
      · refine honest_bind first fun object => ?_
        refine honest_bind (ih (others.trans Set.subset_union_left)) fun ⟨objects, same⟩ => ?_
        exact honest_pure (Set.union_subset_union_left _ Set.subset_union_right)

theorem Proxy.honest_perform (p : Proxy κ) (c : Capability) {args : List (Object κ)}
    (sends : Object.proxiesAll args ⊆ known) :
    (p.perform c args : Program κ σ _).Honest held Object.proxies known := by
  cases c with
  | handle => exact honest_pure (Set.empty_subset _)
  | dispatch => exact honest_pure (Set.empty_subset _)
  | invoke =>
      have marshalled := (Arg.proxies_map_toArg args).trans sends
      exact honest_give (p.handle.honest_invoke marshalled) fun _ => subset_rfl
  | toStr => exact honest_give p.handle.honest_text fun _ => subset_rfl
  | slice =>
      refine honest_bind (Capability.slice.honest_optionalInt sends) fun start => ?_
      refine honest_bind (Capability.slice.honest_optionalInt Set.subset_union_right) fun stop => ?_
      refine honest_bind (Capability.slice.honest_optionalInt Set.subset_union_right) fun step => ?_
      exact p.honest_slice _ _ _
  | hash => exact honest_give p.handle.honest_hash fun _ => subset_rfl
  | hasAttr =>
      refine honest_bind (Capability.hasAttr.honest_requiredName sends) fun name => ?_
      exact honest_give (p.handle.honest_hasAttr _) fun _ => subset_rfl
  | getAttr =>
      refine honest_bind (Capability.getAttr.honest_requiredName sends) fun name => ?_
      exact honest_give (p.handle.honest_getAttr _) fun _ => subset_rfl
  | getItem =>
      refine honest_bind (Capability.getItem.honest_required sends) fun key => ?_
      exact honest_give (p.handle.honest_getItem _) fun _ => subset_rfl
  | setAttr =>
      refine honest_bind (Capability.setAttr.honest_requiredName sends) fun name => ?_
      refine honest_bind (Capability.setAttr.honest_required Set.subset_union_right) fun value => ?_
      refine honest_give (p.handle.honest_setAttr _ ?_) fun _ => subset_rfl
      exact value.1.proxies_toArg.trans (Set.subset_union_left.trans Set.subset_union_right)
  | setItem =>
      refine honest_bind (Capability.setItem.honest_required sends) fun key => ?_
      refine honest_bind (Capability.setItem.honest_required
        (Set.subset_union_right.trans Set.subset_union_right)) fun value => ?_
      refine honest_give (p.handle.honest_setItem _ ?_) fun _ => subset_rfl
      exact value.1.proxies_toArg.trans (Set.subset_union_left.trans Set.subset_union_right)

/-- A call of an object goes down to its arguments when one of them is dispatched to. -/
theorem Object.honest_call {object : Object κ} {args : List (Object κ)}
    (owns : object.proxies ⊆ known) (sends : Object.proxiesAll args ⊆ known) :
    (object.call args : Program κ σ _).Honest held Object.proxies known := by
  generalize size : args.length = n
  induction n using Nat.strong_induction_on generalizing object args known with
  | _ n ih =>
      rw [Object.call.eq_def]
      split
      · exact Method.honest_call _ owns sends
      · split
        · exact honest_fault _
        · rename_i callee rest
          refine honest_bind (honest_wrapRaw rest (Set.subset_union_right.trans sends))
            fun wrapped => ?_
          obtain ⟨wrapped, same⟩ := wrapped
          have callable : callee.proxies ⊆ known := Set.subset_union_left.trans sends
          have shorter : wrapped.length < n := by
            rw [same, ← size]
            exact Nat.lt_succ_self _
          exact ih _ shorter (callable.trans Set.subset_union_left) Set.subset_union_right rfl
      · exact Proxy.honest_perform _ _ sends
      · exact Proxy.honest_call _ ((Arg.proxies_map_toArg args).trans sends)
      · exact honest_fault _

theorem Object.honest_isCallable (object : Object κ) :
    (object.isCallable : Program κ σ Bool).Honest held silent known := by
  unfold isCallable
  split
  · exact honest_pure (Set.empty_subset _)
  · exact Handle.honest_isCallable _
  · exact Handle.honest_isCallable _
  · exact honest_pure (Set.empty_subset _)

/-! ### Functions for foreign code -/

theorem Method.honest_callRaw (method : Method κ) (args : List Handle) :
    (method.callRaw args : Program κ σ (Arg κ)).Honest held Arg.proxies known := by
  cases args with
  | nil => exact honest_fault _
  | cons first rest =>
      refine honest_bind (honest_wrap first) fun object => ?_
      split
      · rename_i receiver
        refine honest_bind (honest_wrapAll rest) fun objects => ?_
        have owns : receiver.proxies ⊆ known ∪ (Object.proxy receiver).proxies :=
          Set.subset_union_right
        exact honest_give (method.honest_call (owns.trans Set.subset_union_left)
          Set.subset_union_right) fun object => object.proxies_toArg
      · exact honest_fault _

theorem BoundMethod.honest_callRaw {method : BoundMethod κ} (owns : method.proxies ⊆ known)
    (args : List Handle) :
    (method.callRaw args : Program κ σ (Arg κ)).Honest held Arg.proxies known := by
  refine honest_bind (honest_wrapAll args) fun objects => ?_
  have callable : (Object.method method).proxies ⊆ known := owns
  exact honest_give (Object.honest_call (callable.trans Set.subset_union_left)
    Set.subset_union_right) fun object => object.proxies_toArg

theorem Delegator.honest_standardMembers (delegator : Delegator κ) (h : Handle) :
    (delegator.standardMembers h : Program κ σ _).Honest held Member.proxiesAll known := by
  unfold standardMembers
  split
  · exact honest_pure (Set.union_subset (Set.empty_subset _) (Set.empty_subset _))
  · exact honest_pure (Set.union_subset (Set.empty_subset _)
      (Set.union_subset (Set.empty_subset _) (Set.empty_subset _)))
  · refine honest_then (h.honest_hasAttr "__name__") fun has => ?_
    split
    · refine honest_then (h.honest_getAttr "__name__") fun value => ?_
      exact honest_give (honest_wrap value) fun object =>
        Set.union_subset subset_rfl (Set.empty_subset _)
    · exact honest_pure (Set.empty_subset _)
  · exact honest_pure (Set.empty_subset _)
  · exact honest_pure (Set.empty_subset _)

/-! ### Evaluation -/

theorem honest_bindValues (settings : Settings) (shadow : Handle) {values : List (Arg κ)}
    (sends : Arg.proxiesAll values ⊆ known) (index : Nat) (parts : List String) :
    (bindValues settings shadow index parts values : Program κ σ String).Honest held silent
      known := by
  induction values generalizing index parts with
  | nil => cases parts <;> exact honest_pure (Set.empty_subset _)
  | cons value rest ih =>
      cases parts with
      | nil => exact honest_pure (Set.empty_subset _)
      | cons part parts =>
          unfold bindValues
          have stored : value.proxies ⊆ known := Set.subset_union_left.trans sends
          refine honest_then (shadow.honest_setItem _ stored) fun status => ?_
          split
          · exact honest_then (ih (Set.subset_union_right.trans sends) _ _) fun _ =>
              honest_pure (Set.empty_subset _)
          · exact honest_fault _

/-- The proxies in the values of a source. -/
def Source.proxies : Source κ → Set (Proxy κ)
  | .plain _ => ∅
  | .template _ values => Arg.proxiesAll values

theorem Source.honest_resolve {source : Source κ} (sends : source.proxies ⊆ known)
    (settings : Settings) (globals : Handle) :
    (source.resolve settings globals : Program κ σ _).Honest held silent known := by
  unfold resolve
  split
  · exact honest_pure (Set.empty_subset _)
  · exact honest_pure (Set.empty_subset _)
  · rename_i parts values _
    have copied : (do
        let copy ← globals.getAttr "copy"
        let shadow ← copy.invoke []
        return (← bindValues settings shadow 0 parts values, shadow) :
        Program κ σ (String × Handle)).Honest held silent known := by
      refine honest_then (globals.honest_getAttr "copy") fun copy => ?_
      refine honest_then (copy.honest_invoke (Set.empty_subset _)) fun shadow => ?_
      exact honest_then (honest_bindValues settings shadow sends 0 parts) fun _ =>
        honest_pure (Set.empty_subset _)
    split
    · exact honest_then (honest_fault _) fun _ => copied
    · exact copied

theorem Bridge.honest_evaluate {source : Source κ} (sends : source.proxies ⊆ known) :
    (evaluate source : Program κ σ (Object κ)).Honest held Object.proxies known := by
  refine honest_then Program.honest_globals fun globals => ?_
  refine honest_then Program.honest_settings fun settings => ?_
  refine honest_then (source.honest_resolve sends settings globals) fun resolved => ?_
  exact honest_then (Program.honest_exec _ _ _) honest_wrap

/-! ### Iteration -/

namespace Iteration

theorem honest_start (p : Proxy κ) :
    (start p : Program κ σ Iteration).Honest held silent known := by
  refine honest_then p.handle.honest_isIterator fun isIterator => ?_
  split
  · exact honest_pure (Set.empty_subset _)
  · refine honest_then p.handle.honest_isSequence fun isSequence => ?_
    split
    · exact honest_pure (Set.empty_subset _)
    · exact honest_pure (Set.empty_subset _)

theorem honest_start? (p : Proxy κ) :
    (start? p : Program κ σ Iteration).Honest held silent known := by
  refine honest_then (honest_start p) fun iteration => ?_
  split
  · exact honest_throw _
  · exact honest_pure (Set.empty_subset _)

theorem honest_steppedItem (h : Handle) :
    (steppedItem h : Program κ σ _).Honest held ofOption known := by
  refine honest_then h.honest_next fun item => ?_
  split
  · exact honest_pure (Set.empty_subset _)
  · exact honest_give (honest_wrap _) fun object => subset_rfl

theorem honest_itemAt (h : Handle) (cursor : Nat) :
    (itemAt h cursor : Program κ σ _).Honest held ofOption known := by
  refine honest_then (Bridge.honest_lengthOf h) fun length => ?_
  split
  · exact honest_pure (Set.empty_subset _)
  · exact honest_then (h.honest_getItem _) fun item =>
      honest_give (honest_wrap item) fun object => subset_rfl

/-- The proxies in an item or error, if there is one. -/
def ofItem : Option (Except Error (Object κ)) → Set (Proxy κ)
  | some result => ofResult Object.proxies result
  | none => ∅

theorem ofItem_settle (h : Handle) (next : IterationState)
    (result : Except Error (Option (Object κ))) :
    ofItem (settle h next result).1 ⊆ ofResult ofOption result := by
  cases result with
  | ok item => cases item <;> exact subset_rfl
  | error error => exact subset_rfl

theorem honest_next (iteration : Iteration) :
    Interaction.Honest held (fun given => ofItem given.1) known
      (iteration.next : Interaction κ σ _) := by
  unfold next
  dsimp only
  split
  · exact .done (Set.empty_subset _)
  · exact .done (Set.empty_subset _)
  · exact Interaction.honest_bind (honest_steppedItem iteration.handle) fun result =>
      .done ((ofItem_settle _ _ _).trans Set.subset_union_right)
  · exact Interaction.honest_bind (honest_itemAt iteration.handle _) fun result =>
      .done ((ofItem_settle _ _ _).trans Set.subset_union_right)

/-- The proxies in some items and errors. -/
def ofItems : List (Except Error (Object κ)) → Set (Proxy κ)
  | [] => ∅
  | result :: rest => ofResult Object.proxies result ∪ ofItems rest

theorem honest_items (limit : Nat) (iteration : Iteration) :
    Interaction.Honest held ofItems known
      (iteration.items limit : Interaction κ σ _) := by
  induction limit generalizing iteration known with
  | zero => exact .done (Set.empty_subset _)
  | succ limit ih =>
      refine Interaction.honest_bind (honest_next iteration) fun given => ?_
      split
      · exact .done (Set.empty_subset _)
      · exact Interaction.honest_bind (ih _) fun items =>
          .done (Set.union_subset_union_left _ Set.subset_union_right)

end Iteration

/-! ### Host classes -/

theorem HostClass.honest_install (cls : HostClass κ) (instanceProxy : Proxy κ)
    (method : Method κ) :
    (cls.install instanceProxy method : Program κ σ Unit).Honest held silent known := by
  refine honest_then (Program.honest_bindMethod _ (Set.empty_subset _)) fun bound => ?_
  refine honest_then (instanceProxy.handle.honest_setAttr _ (Set.empty_subset _)) fun status => ?_
  split
  · exact honest_pure (Set.empty_subset _)
  · exact honest_fault _

theorem Proxy.honest_construct (p : Proxy κ) (cls : HostClass κ) :
    (p.construct cls : Program κ σ (Object κ)).Honest held Object.proxies known := by
  have installs : ∀ (made : Proxy κ) (methods : List (Method κ)) {more : Set (Proxy κ)},
      (methods.forM (cls.install made) : Program κ σ PUnit).Honest held silent more := by
    intro made methods
    induction methods with
    | nil => exact honest_pure (Set.empty_subset _)
    | cons method rest ih => exact honest_then (cls.honest_install made method) fun _ => ih
  refine honest_then (p.handle.honest_invoke (Set.empty_subset _)) fun h => ?_
  refine honest_bind (honest_wrap h) fun object => ?_
  split
  · rename_i made
    refine honest_bind (made.honest_callMethod "__init__" (Set.empty_subset _)) fun _ => ?_
    refine honest_then (installs made cls.methods) fun _ => ?_
    exact honest_pure (Set.subset_union_right.trans Set.subset_union_left)
  · exact honest_pure Set.subset_union_right

/-! ### Scopes -/

/-- The proxies in an outcome, which are those of a value that the scoped code gave. -/
def ScopeOutcome.proxies (gives : α → Set (Proxy κ)) : ScopeOutcome α → Set (Proxy κ)
  | .completed value => gives value
  | _ => ∅

namespace ScopeGuard

variable (guard : ScopeGuard κ)

theorem honest_arm (context : Proxy κ) :
    (arm context : Program κ σ (ScopeGuard κ)).Honest held silent known := by
  have refused : (Program.fault (.noContextManager context.typeInfo.name) :
      Program κ σ (ScopeGuard κ)).Honest held silent known := honest_fault _
  refine honest_then (context.handle.honest_hasAttr "__enter__") fun enters => ?_
  split
  · refine honest_then (context.handle.honest_hasAttr "__exit__") fun exits => ?_
    split
    · exact honest_pure (Set.empty_subset _)
    · exact refused
  · exact refused

theorem honest_enter :
    (guard.enter : Program κ σ (Object κ)).Honest held Object.proxies known :=
  guard.context.honest_callMethod "__enter__" (Set.empty_subset _)

theorem proxies_quietExit : Arg.proxiesAll (quietExit : List (Arg κ)) ⊆ known :=
  Set.union_subset (Set.empty_subset _) (Set.union_subset (Set.empty_subset _)
    (Set.union_subset (Set.empty_subset _) (Set.empty_subset _)))

theorem proxies_exitWith (exception : ForeignException) :
    Arg.proxiesAll (exitWith exception : List (Arg κ)) ⊆ known := by
  refine Set.union_subset (Set.empty_subset _) (Set.union_subset (Set.empty_subset _)
    (Set.union_subset ?_ (Set.empty_subset _)))
  cases exception.traceback <;> exact Set.empty_subset _

theorem honest_exit {triple : List (Arg κ)} (sends : Arg.proxiesAll triple ⊆ known) :
    Interaction.Honest held (fun given => ofResult Object.proxies given.1) known
      (guard.exit triple : Interaction κ σ _) :=
  Interaction.honest_bind (guard.context.honest_callMethod "__exit__" sends) fun _ =>
    .done Set.subset_union_right

theorem honest_release :
    Interaction.Honest held silent known (guard.release : Interaction κ σ Unit) := by
  unfold release
  split
  · exact .done (Set.empty_subset _)
  · exact Interaction.honest_bind (guard.honest_exit proxies_quietExit) fun _ =>
      .done (Set.empty_subset _)

theorem honest_exceptionFor (error : Error) :
    (exceptionFor error : Program κ σ _).Honest held silent known := by
  refine honest_bind (honest_attempt (Program.honest_materialize error)) fun _ => ?_
  split
  · exact honest_pure (Set.empty_subset _)
  · refine honest_bind (honest_attempt (Program.honest_materialize _)) fun _ => ?_
    split
    · exact honest_pure (Set.empty_subset _)
    · exact honest_pure (Set.empty_subset _)

variable {gives : α → Set (Proxy κ)}

theorem honest_conclude {result : Except Error α} (owns : ofResult gives result ⊆ known) :
    Interaction.Honest held (fun given => ofResult (ScopeOutcome.proxies gives) given.1) known
      (guard.conclude result : Interaction κ σ _) := by
  unfold conclude
  split
  · refine Interaction.honest_bind (guard.honest_exit proxies_quietExit) fun answer => ?_
    split
    · exact .done (owns.trans Set.subset_union_left)
    · exact .done (Set.empty_subset _)
  · refine Interaction.honest_bind (honest_exceptionFor _) fun exception => ?_
    split
    · exact .done (Set.empty_subset _)
    · refine Interaction.honest_bind (guard.honest_exit proxies_quietExit) fun answer => ?_
      split
      · exact .done (Set.empty_subset _)
      · exact .done (Set.empty_subset _)
    · refine Interaction.honest_bind (guard.honest_exit (proxies_exitWith _)) fun answer => ?_
      split
      · dsimp only
        split
        · exact .done (Set.empty_subset _)
        · exact .done (Set.empty_subset _)
      · exact .done (Set.empty_subset _)

theorem honest_finish {result : Except Error α} (owns : ofResult gives result ⊆ known) :
    (guard.finish result : Program κ σ _).Honest held (ScopeOutcome.proxies gives) known := by
  refine Interaction.honest_bind (guard.honest_conclude owns) fun ⟨outcome, guard⟩ => ?_
  exact Interaction.honest_bind guard.honest_release fun _ =>
    .done (Set.subset_union_right.trans Set.subset_union_left)

end ScopeGuard

/-- A scope is honest if its code is. -/
theorem honest_withScope (context : Proxy κ) {body : Object κ → Program κ σ α}
    {gives : α → Set (Proxy κ)}
    (honest : ∀ object, (body object).Honest held gives (known ∪ object.proxies)) :
    (withScope context body).Honest held (ScopeOutcome.proxies gives) known := by
  refine honest_then (ScopeGuard.honest_arm context) fun guard => ?_
  refine honest_bind (honest_attempt (honest_bind guard.honest_enter honest)) fun result => ?_
  exact guard.honest_finish Set.subset_union_right

theorem honest_withScopeObject (context : Proxy κ) {callback : Object κ}
    (owns : callback.proxies ⊆ known) :
    (withScopeObject context callback : Program κ σ _).Honest held
      (ScopeOutcome.proxies Object.proxies) known := by
  refine honest_then (ScopeGuard.honest_arm context) fun guard => ?_
  refine honest_then callback.honest_isCallable fun callable => ?_
  split
  · have within : (do callback.call [← guard.enter] : Program κ σ (Object κ)).Honest held
        Object.proxies known :=
      honest_bind guard.honest_enter fun object =>
        Object.honest_call (owns.trans Set.subset_union_left)
          (Set.union_subset Set.subset_union_right (Set.empty_subset _))
    exact honest_bind (honest_attempt within) fun result =>
      guard.honest_finish Set.subset_union_right
  · refine Interaction.honest_bind (guard.honest_exit ScopeGuard.proxies_quietExit)
      fun ⟨answer, guard⟩ => ?_
    refine Interaction.honest_bind guard.honest_release fun _ => ?_
    split
    · exact .done (Set.empty_subset _)
    · exact .done (Set.empty_subset _)

end Interop
