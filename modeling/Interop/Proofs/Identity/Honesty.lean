import Interop.Proofs.Identity.Proxies
/-!
Host code that makes no proxies up. Only wrapping makes proxies, and the way to make them is
private to the bridge: whatever proxy host code hands over or answers, it was given, or a reply
brought it, or wrapping gave it.
-/

set_option autoImplicit false

namespace Interop

variable {κ σ α β : Type} {held : σ → Set (Proxy κ)} {known more : Set (Proxy κ)}

namespace Interaction

/-- A tree is honest if, from some known proxies on, it hands over and answers known proxies only.
What replies bring and what wrapping gives is known from then on. -/
inductive Honest (held : σ → Set (Proxy κ)) (gives : α → Set (Proxy κ)) :
    Set (Proxy κ) → Interaction κ σ α → Prop
  | done {known : Set (Proxy κ)} {a : α} (given : gives a ⊆ known) :
      Honest held gives known (.done a)
  | perform {known : Set (Proxy κ)} {request : Request κ σ}
      {resume : request.Reply → Interaction κ σ α} (sends : request.proxies held ⊆ known)
      (rest : ∀ reply, Honest held gives (known ∪ request.replied held reply) (resume reply)) :
      Honest held gives known (.perform request resume)
  | wrap {known : Set (Proxy κ)} {h : Handle}
      {resume : Except Error (Object κ) → Interaction κ σ α}
      (rest : ∀ result,
        Honest held gives (known ∪ ofResult Object.proxies result) (resume result)) :
      Honest held gives known ((Bridge.wrap h).run >>= resume)

variable {gives : α → Set (Proxy κ)} {later : β → Set (Proxy κ)} {x : Interaction κ σ α}
  {f : α → Interaction κ σ β}

theorem Honest.mono (honest : Honest held gives known x) (grows : known ⊆ more) :
    Honest held gives more x := by
  induction honest generalizing more with
  | done given => exact .done (given.trans grows)
  | perform sends _ ih =>
      exact .perform (sends.trans grows) fun reply =>
        ih reply (Set.union_subset_union_left _ grows)
  | wrap _ ih => exact .wrap fun result => ih result (Set.union_subset_union_left _ grows)

/-- In a sequence, what the first tree gives is known to the second. -/
theorem honest_bind (first : Honest held gives known x)
    (second : ∀ a, Honest held later (known ∪ gives a) (f a)) :
    Honest held later known (x >>= f) := by
  induction first with
  | @done known a given =>
      -- the answer is known already, so that the second tree starts from no more than the first
      have rest := second a
      rw [Set.union_eq_self_of_subset_right given] at rest
      exact rest
  | perform sends _ ih =>
      refine .perform sends fun reply => ih reply fun a => (second a).mono ?_
      exact Set.union_subset_union_left _ Set.subset_union_left
  | @wrap known h resume _ ih =>
      rw [bind_assoc]
      refine .wrap fun result => ih result fun a => (second a).mono ?_
      exact Set.union_subset_union_left _ Set.subset_union_left

end Interaction

/-- Nothing holds a proxy. -/
def silent : α → Set (Proxy κ) := fun _ => ∅

def ofOption : Option (Object κ) → Set (Proxy κ)
  | some object => object.proxies
  | none => ∅

theorem silent_subset (result : Except Error α) : ofResult silent result ⊆ known := by
  cases result with
  | ok a => exact Set.empty_subset _
  | error error => exact Set.empty_subset _

namespace Program

/-- A program is honest if its tree is, where an error holds no proxy. -/
def Honest (held : σ → Set (Proxy κ)) (gives : α → Set (Proxy κ)) (known : Set (Proxy κ))
    (program : Program κ σ α) : Prop :=
  Interaction.Honest held (ofResult gives) known program.run

variable {gives : α → Set (Proxy κ)} {later : β → Set (Proxy κ)} {x : Program κ σ α}
  {f : α → Program κ σ β}

theorem Honest.mono (honest : x.Honest held gives known) (grows : known ⊆ more) :
    x.Honest held gives more := Interaction.Honest.mono honest grows

theorem honest_pure {a : α} (given : gives a ⊆ known) :
    (pure a : Program κ σ α).Honest held gives known := .done given

theorem honest_throw (error : Error) : (throw error : Program κ σ α).Honest held gives known :=
  .done (Set.empty_subset _)

theorem honest_fault (cause : TypeFault) :
    (fault cause : Program κ σ α).Honest held gives known := honest_throw _

theorem honest_bind (first : x.Honest held gives known)
    (second : ∀ a, (f a).Honest held later (known ∪ gives a)) :
    (x >>= f).Honest held later known := by
  unfold Honest
  rw [run_bind_eq]
  apply Interaction.honest_bind first
  intro result
  cases result with
  | ok a => exact second a
  | error error => exact .done (Set.empty_subset _)

/-- After a part that gives no proxies, no more are known. -/
theorem honest_then (first : x.Honest held silent known)
    (second : ∀ a, (f a).Honest held later known) : (x >>= f).Honest held later known :=
  honest_bind first fun a => (second a).mono Set.subset_union_left

/-- What an honest program gives can be put in a form that holds no more. -/
theorem honest_give (first : x.Honest held gives known) {g : α → β}
    (smaller : ∀ a, later (g a) ⊆ gives a) :
    (x >>= fun a => pure (g a)).Honest held later known :=
  honest_bind first fun a => honest_pure ((smaller a).trans Set.subset_union_right)

theorem honest_lift {x : Interaction κ σ α} (honest : Interaction.Honest held gives known x) :
    Honest held gives known (ExceptT.lift x) := by
  change Interaction.Honest held _ known (Except.ok <$> x)
  rw [map_eq_pure_bind]
  exact Interaction.honest_bind honest fun a => .done Set.subset_union_right

theorem honest_attempt (honest : x.Honest held gives known) :
    x.attempt.Honest held (ofResult gives) known := honest_lift honest

end Program

/-! ### Requests -/

namespace Program

theorem honest_globals : (globals : Program κ σ Handle).Honest held silent known :=
  .perform (Set.empty_subset _) fun _ => .done (Set.empty_subset _)

theorem honest_settings : (settings : Program κ σ Settings).Honest held silent known :=
  .perform (Set.empty_subset _) fun _ => .done (Set.empty_subset _)

/-! Requests that may fail. -/

theorem honest_builtin (name : String) :
    (builtin name : Program κ σ Handle).Honest held silent known :=
  .perform (Set.empty_subset _) fun reply => .done (silent_subset reply)

theorem honest_importModule (name : String) :
    (importModule name : Program κ σ Handle).Honest held silent known :=
  .perform (Set.empty_subset _) fun reply => .done (silent_subset reply)

theorem honest_exec (source : String) (globals locals : Handle) :
    (exec source globals locals : Program κ σ Handle).Honest held silent known :=
  .perform (Set.empty_subset _) fun reply => .done (silent_subset reply)

theorem honest_bindMethod {function : Callback κ} (receiver : Handle)
    (sends : function.proxies ⊆ known) :
    (bindMethod function receiver : Program κ σ Handle).Honest held silent known :=
  .perform sends fun reply => .done (silent_subset reply)

theorem honest_materialize (error : Error) :
    (materialize error : Program κ σ ForeignException).Honest held silent known :=
  .perform (Set.empty_subset _) fun reply => .done (silent_subset reply)

end Program

namespace Handle

variable (h : Handle)

theorem honest_primitive : (h.primitive : Program κ σ Primitive).Honest held silent known :=
  .perform (Set.empty_subset _) fun reply => .done (silent_subset reply)

theorem honest_invoke {args : List (Arg κ)} (sends : Arg.proxiesAll args ⊆ known) :
    (h.invoke args : Program κ σ Handle).Honest held silent known :=
  .perform sends fun reply => .done (silent_subset reply)

theorem honest_text : (h.text : Program κ σ String).Honest held silent known :=
  .perform (Set.empty_subset _) fun reply => .done (silent_subset reply)

theorem honest_isCallable : (h.isCallable : Program κ σ Bool).Honest held silent known :=
  .perform (Set.empty_subset _) fun _ => .done (Set.empty_subset _)

theorem honest_isIterator : (h.isIterator : Program κ σ Bool).Honest held silent known :=
  .perform (Set.empty_subset _) fun _ => .done (Set.empty_subset _)

theorem honest_isSequence : (h.isSequence : Program κ σ Bool).Honest held silent known :=
  .perform (Set.empty_subset _) fun _ => .done (Set.empty_subset _)

theorem honest_next : (h.next : Program κ σ (Option Handle)).Honest held silent known :=
  .perform (Set.empty_subset _) fun reply => .done (silent_subset reply)

theorem honest_hash : (h.hash : Program κ σ Int64).Honest held silent known :=
  .perform (Set.empty_subset _) fun reply => .done (silent_subset reply)

theorem honest_hasAttr (name : String) :
    (h.hasAttr name : Program κ σ Bool).Honest held silent known :=
  .perform (Set.empty_subset _) fun _ => .done (Set.empty_subset _)

theorem honest_getAttr (name : String) :
    (h.getAttr name : Program κ σ Handle).Honest held silent known :=
  .perform (Set.empty_subset _) fun reply => .done (silent_subset reply)

theorem honest_setAttr (name : String) {value : Arg κ} (sends : value.proxies ⊆ known) :
    (h.setAttr name value : Program κ σ Status).Honest held silent known :=
  .perform sends fun _ => .done (Set.empty_subset _)

theorem honest_getItem (key : Arg κ) :
    (h.getItem key : Program κ σ Handle).Honest held silent known :=
  .perform (Set.empty_subset _) fun reply => .done (silent_subset reply)

theorem honest_setItem (key : Arg κ) {value : Arg κ} (sends : value.proxies ⊆ known) :
    (h.setItem key value : Program κ σ Status).Honest held silent known :=
  .perform sends fun _ => .done (Set.empty_subset _)

end Handle

end Interop
