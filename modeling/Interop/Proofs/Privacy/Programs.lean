import Interop.Call
import Interop.Proofs.Privacy.Mentions
/-!
Programs that never mention a value. A program that is given no way to a value, and gets none from
the replies to its requests, makes no request that mentions it and does not answer it. The programs
of the bridge itself are so for every value.
-/

set_option autoImplicit false

namespace Interop

variable {κ σ α β : Type} {held : σ → Set Handle} {g : Handle}

/-- As long as no reply mentions a value, a tree mentions it in no request, and its answer is
good. -/
def Interaction.Avoids (held : σ → Set Handle) (g : Handle) (good : α → Prop) :
    Interaction κ σ α → Prop
  | .done a => good a
  | .perform request resume => request.Avoids held g ∧
      ∀ reply, request.ReplyAvoids held g reply → (resume reply).Avoids held g good

def Program.Avoids (held : σ → Set Handle) (g : Handle) (good : α → Prop)
    (program : Program κ σ α) : Prop :=
  Interaction.Avoids held g (Outcome g good) program.run

/-- A host whose code mentions a value only where it was given it or a reply brought it. -/
structure Host.Avoids (host : Host κ σ) (held : σ → Set Handle) (g : Handle) : Prop where
  function : ∀ code args keywords, g ∉ args → g ∉ keywords.values →
    (host.function code args keywords).Avoids held g (· ≠ g)
  callback : ∀ code args, g ∉ args → (host.callback code args).Avoids held g (Arg.Avoids g)
  method : ∀ code receiver args, receiver.Avoids g → Object.AllAvoid g args →
    (host.method code receiver args).Avoids held g (Object.Avoids g)
  members : ∀ code h, h ≠ g → (host.members code h).Avoids held g (Member.AllAvoid g)

namespace Interaction

variable {good : α → Prop} {later : β → Prop}

theorem avoids_bind {x : Interaction κ σ α} {f : α → Interaction κ σ β}
    (first : x.Avoids held g good) (rest : ∀ a, good a → (f a).Avoids held g later) :
    (x >>= f).Avoids held g later := by
  induction x with
  | done a => exact rest a first
  | perform request resume ih =>
      exact ⟨first.1, fun reply avoids => ih reply (first.2 reply avoids)⟩

end Interaction

namespace Program

variable {good : α → Prop} {later : β → Prop} {x : Program κ σ α} {f : α → Program κ σ β}

theorem avoids_pure {a : α} (holds : good a) : (pure a : Program κ σ α).Avoids held g good := holds

theorem avoids_fault (cause : TypeFault) : (fault cause : Program κ σ α).Avoids held g good :=
  trivial

theorem avoids_bind (first : x.Avoids held g good)
    (rest : ∀ a, good a → (f a).Avoids held g later) : (x >>= f).Avoids held g later := by
  unfold Avoids
  rw [run_bind_eq]
  refine Interaction.avoids_bind first fun result outcome => ?_
  cases result with
  | ok a => exact rest a outcome
  | error error => exact outcome

/-- Putting what a program gives in another form. -/
theorem avoids_give (first : x.Avoids held g good) {give : α → β}
    (better : ∀ a, good a → later (give a)) :
    (x >>= fun a => pure (give a)).Avoids held g later :=
  avoids_bind first fun a holds => avoids_pure (better a holds)

theorem avoids_builtin (name : String) :
    (builtin name : Program κ σ Handle).Avoids held g (· ≠ g) :=
  ⟨trivial, fun _ avoids => avoids⟩

theorem avoids_registry : (registry : Program κ σ (Registry κ)).Avoids held g fun _ => True :=
  ⟨trivial, fun _ _ => trivial⟩

end Program

open Program (avoids_pure avoids_fault avoids_bind avoids_give)

namespace Handle

variable {h : Handle} (other : h ≠ g)

include other

theorem avoids_typeOf : (h.typeOf : Program κ σ Handle).Avoids held g (· ≠ g) :=
  ⟨other, fun _ avoids => avoids⟩

theorem avoids_primitive : (h.primitive : Program κ σ Primitive).Avoids held g fun _ => True :=
  ⟨other, fun _ avoids => avoids⟩

theorem avoids_invoke {args : List (Arg κ)} (avoid : Arg.AllAvoid g args) :
    (h.invoke args : Program κ σ Handle).Avoids held g (· ≠ g) :=
  ⟨⟨other, avoid⟩, fun _ avoids => avoids⟩

theorem avoids_text : (h.text : Program κ σ String).Avoids held g fun _ => True :=
  ⟨other, fun _ avoids => avoids⟩

theorem avoids_isCallable : (h.isCallable : Program κ σ Bool).Avoids held g fun _ => True :=
  ⟨other, fun _ _ => trivial⟩

theorem avoids_hash : (h.hash : Program κ σ Int64).Avoids held g fun _ => True :=
  ⟨other, fun _ avoids => avoids⟩

theorem avoids_hasAttr (name : String) :
    (h.hasAttr name : Program κ σ Bool).Avoids held g fun _ => True :=
  ⟨other, fun _ _ => trivial⟩

theorem avoids_getAttr (name : String) :
    (h.getAttr name : Program κ σ Handle).Avoids held g (· ≠ g) :=
  ⟨other, fun _ avoids => avoids⟩

theorem avoids_setAttr (name : String) {value : Arg κ} (avoids : value.Avoids g) :
    (h.setAttr name value : Program κ σ Status).Avoids held g fun _ => True :=
  ⟨⟨other, avoids⟩, fun _ _ => trivial⟩

theorem avoids_getItem {key : Arg κ} (avoids : key.Avoids g) :
    (h.getItem key : Program κ σ Handle).Avoids held g (· ≠ g) :=
  ⟨⟨other, avoids⟩, fun _ avoids => avoids⟩

theorem avoids_setItem {key value : Arg κ} (keyAvoids : key.Avoids g) (avoids : value.Avoids g) :
    (h.setItem key value : Program κ σ Status).Avoids held g fun _ => True :=
  ⟨⟨other, keyAvoids, avoids⟩, fun _ _ => trivial⟩

theorem avoids_stringAttr (name : String) :
    (h.stringAttr name : Program κ σ String).Avoids held g fun _ => True := by
  refine avoids_bind (avoids_getAttr other name) fun value valueOther => ?_
  refine avoids_bind (avoids_primitive valueOther) fun primitive _ => ?_
  split
  · exact avoids_pure trivial
  · exact avoids_fault _

theorem avoids_typeInfo : (h.typeInfo : Program κ σ TypeInfo).Avoids held g fun _ => True := by
  refine avoids_bind (avoids_typeOf other) fun type typeOther => ?_
  refine avoids_bind (avoids_stringAttr typeOther "__module__") fun module _ => ?_
  exact avoids_give (avoids_stringAttr typeOther "__name__") fun _ _ => trivial

end Handle

/-! ### Wrapping -/

namespace Bridge

variable {h : Handle}

theorem avoids_wrap (other : h ≠ g) :
    (wrap h : Program κ σ (Object κ)).Avoids held g (Object.Avoids g) := by
  refine avoids_bind (Handle.avoids_typeInfo other) fun info _ => ?_
  split
  · exact avoids_pure trivial
  · split
    · exact avoids_give (Handle.avoids_primitive other) fun primitive _ =>
        Object.avoids_ofPrimitive primitive
    · refine avoids_bind Program.avoids_registry fun registry _ => ?_
      refine avoids_bind (Handle.avoids_isCallable other) fun callable _ => ?_
      split
      · rename_i delegator _
        have told : (delegator.members h : Program κ σ _).Avoids held g (Member.AllAvoid g) :=
          ⟨other, fun _ avoids => avoids⟩
        exact avoids_give told fun members avoid => ⟨other, avoid⟩
      · exact avoids_pure ⟨other, trivial⟩

theorem avoids_wrapAll {handles : List Handle} (avoid : g ∉ handles) :
    (wrapAll handles : Program κ σ _).Avoids held g (Object.AllAvoid g) := by
  induction handles with
  | nil => exact avoids_pure (List.forall_mem_nil _)
  | cons h rest ih =>
      refine avoids_bind (avoids_wrap (List.ne_of_not_mem_cons avoid).symm) fun object avoids => ?_
      exact avoids_give (ih (List.not_mem_of_not_mem_cons avoid)) fun objects others =>
        List.forall_mem_cons.mpr ⟨avoids, others⟩

theorem avoids_lengthOf (other : h ≠ g) :
    (lengthOf h : Program κ σ Nat).Avoids held g fun _ => True := by
  refine avoids_bind (Program.avoids_builtin "len") fun len lenOther => ?_
  refine avoids_bind (Handle.avoids_invoke lenOther ⟨other, trivial⟩) fun result resultOther => ?_
  refine avoids_bind (Handle.avoids_primitive resultOther) fun primitive _ => ?_
  split
  · split
    · exact avoids_fault _
    · exact avoids_pure trivial
  · exact avoids_fault _

end Bridge

open Bridge (avoids_wrap avoids_wrapAll)

/-! ### Calls -/

namespace Proxy

variable {p : Proxy κ} (avoids : p.Avoids g)

include avoids

theorem avoids_call {args : List (Arg κ)} (avoid : Arg.AllAvoid g args) :
    (p.call args : Program κ σ (Object κ)).Avoids held g (Object.Avoids g) :=
  avoids_bind (Handle.avoids_invoke avoids.handle avoid) fun _ other => avoids_wrap other

theorem avoids_callMethod (name : String) {args : List (Arg κ)} (avoid : Arg.AllAvoid g args) :
    (p.callMethod name args : Program κ σ (Object κ)).Avoids held g (Object.Avoids g) :=
  avoids_bind (Handle.avoids_getAttr avoids.handle name) fun _ methodOther =>
    avoids_bind (Handle.avoids_invoke methodOther avoid) fun _ other => avoids_wrap other

theorem avoids_slice (start stop step : Option Int64) :
    (p.slice start stop step : Program κ σ (Object κ)).Avoids held g (Object.Avoids g) := by
  refine avoids_bind (Program.avoids_builtin "slice") fun slice sliceOther => ?_
  refine avoids_bind (Handle.avoids_invoke sliceOther ⟨?_, ?_, ?_, trivial⟩) fun cut cutOther => ?_
  · cases start <;> trivial
  · cases stop <;> trivial
  · cases step <;> trivial
  · exact avoids_bind (Handle.avoids_getItem avoids.handle cutOther) fun _ other =>
      avoids_wrap other

end Proxy

theorem Method.avoids_call (method : Method κ) {receiver : Proxy κ} {args : List (Object κ)}
    (avoids : receiver.Avoids g) (avoid : Object.AllAvoid g args) :
    (method.call receiver args : Program κ σ _).Avoids held g (Object.Avoids g) := by
  unfold call
  split
  · refine avoids_give (Bridge.avoids_lengthOf avoids.handle) fun length _ => ?_
    generalize Method.call.lengthPrimitive length = primitive
    exact Object.avoids_ofPrimitive primitive
  · exact Proxy.avoids_callMethod avoids "keys" trivial
  · exact ⟨⟨avoids, avoid⟩, fun _ outcome => outcome⟩

namespace Capability

variable (c : Capability) {args : List (Object κ)} (avoid : Object.AllAvoid g args)

include avoid

theorem avoids_required : (c.required args : Program κ σ _).Avoids held g
    fun given => given.1.Avoids g ∧ Object.AllAvoid g given.2 := by
  cases args with
  | nil => exact avoids_fault _
  | cons first rest => exact avoids_pure (List.forall_mem_cons.mp avoid)

theorem avoids_requiredName : (c.requiredName args : Program κ σ _).Avoids held g
    fun given => Object.AllAvoid g given.2 := by
  refine avoids_bind (c.avoids_required avoid) fun given parts => ?_
  split
  · exact avoids_pure parts.2
  · exact avoids_fault _

theorem avoids_optionalInt : (c.optionalInt args : Program κ σ _).Avoids held g
    fun given => Object.AllAvoid g given.2 := by
  unfold optionalInt
  split
  · exact avoids_pure (List.forall_mem_nil _)
  · exact avoids_pure (List.forall_mem_cons.mp avoid).2
  · exact avoids_pure (List.forall_mem_cons.mp avoid).2
  · exact avoids_fault _

end Capability

theorem avoids_wrapRaw {args : List (Object κ)} (avoid : Object.AllAvoid g args) :
    (wrapRaw args : Program κ σ _).Avoids held g fun out => Object.AllAvoid g out.1 := by
  induction args with
  | nil => exact avoids_pure (List.forall_mem_nil _)
  | cons arg rest ih =>
      obtain ⟨argAvoids, others⟩ := List.forall_mem_cons.mp avoid
      unfold wrapRaw
      dsimp only
      split
      · refine avoids_bind (avoids_wrap argAvoids) fun object objectAvoids => ?_
        refine avoids_bind (ih others) fun ⟨objects, same⟩ objectsAvoid => ?_
        exact avoids_pure (List.forall_mem_cons.mpr ⟨objectAvoids, objectsAvoid⟩)
      · refine avoids_bind (avoids_pure argAvoids) fun object objectAvoids => ?_
        refine avoids_bind (ih others) fun ⟨objects, same⟩ objectsAvoid => ?_
        exact avoids_pure (List.forall_mem_cons.mpr ⟨objectAvoids, objectsAvoid⟩)

theorem Proxy.avoids_perform {p : Proxy κ} (avoids : p.Avoids g) (c : Capability)
    {args : List (Object κ)} (avoid : Object.AllAvoid g args) :
    (p.perform c args : Program κ σ _).Avoids held g (Object.Avoids g) := by
  have own := avoids.handle
  cases c with
  | handle => exact avoids_pure own
  | dispatch => exact avoids_pure own
  | invoke => exact avoids_give (Handle.avoids_invoke own avoid.toArgs) fun _ other => other
  | toStr => exact avoids_give (Handle.avoids_text own) fun _ _ => trivial
  | slice =>
      refine avoids_bind (Capability.slice.avoids_optionalInt avoid) fun start rest => ?_
      refine avoids_bind (Capability.slice.avoids_optionalInt rest) fun stop rest => ?_
      refine avoids_bind (Capability.slice.avoids_optionalInt rest) fun step _ => ?_
      exact Proxy.avoids_slice avoids _ _ _
  | hash => exact avoids_give (Handle.avoids_hash own) fun _ _ => trivial
  | hasAttr =>
      refine avoids_bind (Capability.hasAttr.avoids_requiredName avoid) fun name _ => ?_
      exact avoids_give (Handle.avoids_hasAttr own _) fun _ _ => trivial
  | getAttr =>
      refine avoids_bind (Capability.getAttr.avoids_requiredName avoid) fun name _ => ?_
      exact avoids_give (Handle.avoids_getAttr own _) fun _ other => other
  | getItem =>
      refine avoids_bind (Capability.getItem.avoids_required avoid) fun key parts => ?_
      exact avoids_give (Handle.avoids_getItem own parts.1.toArg) fun _ other => other
  | setAttr =>
      refine avoids_bind (Capability.setAttr.avoids_requiredName avoid) fun name rest => ?_
      refine avoids_bind (Capability.setAttr.avoids_required rest) fun value parts => ?_
      exact avoids_give (Handle.avoids_setAttr own _ parts.1.toArg) fun _ _ => trivial
  | setItem =>
      refine avoids_bind (Capability.setItem.avoids_required avoid) fun key parts => ?_
      refine avoids_bind (Capability.setItem.avoids_required parts.2) fun value parts' => ?_
      exact avoids_give (Handle.avoids_setItem own parts.1.toArg parts'.1.toArg) fun _ _ => trivial

/-- A call of an object goes down to its arguments when one of them is dispatched to. -/
theorem Object.avoids_call {object : Object κ} {args : List (Object κ)} (avoids : object.Avoids g)
    (avoid : Object.AllAvoid g args) :
    (object.call args : Program κ σ _).Avoids held g (Object.Avoids g) := by
  generalize size : args.length = n
  induction n using Nat.strongRecOn generalizing object args with
  | ind n ih =>
      rw [Object.call.eq_def]
      split
      · exact Method.avoids_call _ avoids avoid
      · split
        · exact avoids_fault _
        · rename_i callee rest
          obtain ⟨calleeAvoids, others⟩ := List.forall_mem_cons.mp avoid
          refine avoids_bind (avoids_wrapRaw others) fun wrapped wrappedAvoid => ?_
          obtain ⟨wrapped, same⟩ := wrapped
          have shorter : wrapped.length < n := by
            rw [same, ← size]
            exact Nat.lt_succ_self _
          exact ih _ shorter calleeAvoids wrappedAvoid rfl
      · exact Proxy.avoids_perform avoids _ avoid
      · exact Proxy.avoids_call avoids avoid.toArgs
      · exact avoids_fault _

/-! ### Functions for foreign code -/

theorem Method.avoids_callRaw (method : Method κ) {args : List Handle} (avoid : g ∉ args) :
    (method.callRaw args : Program κ σ (Arg κ)).Avoids held g (Arg.Avoids g) := by
  cases args with
  | nil => exact avoids_fault _
  | cons first rest =>
      refine avoids_bind (avoids_wrap (List.ne_of_not_mem_cons avoid).symm) fun object avoids => ?_
      split
      · refine avoids_bind (avoids_wrapAll (List.not_mem_of_not_mem_cons avoid))
          fun objects others => ?_
        exact avoids_give (method.avoids_call avoids others) fun _ answered => answered.toArg
      · exact avoids_fault _

theorem BoundMethod.avoids_callRaw {method : BoundMethod κ} (avoids : method.Avoids g)
    {args : List Handle} (avoid : g ∉ args) :
    (method.callRaw args : Program κ σ (Arg κ)).Avoids held g (Arg.Avoids g) := by
  refine avoids_bind (avoids_wrapAll avoid) fun objects others => ?_
  have callable : (Object.method method).Avoids g := avoids
  exact avoids_give (Object.avoids_call callable others) fun _ answered => answered.toArg

theorem Delegator.avoids_standardMembers (delegator : Delegator κ) {h : Handle} (other : h ≠ g) :
    (delegator.standardMembers h : Program κ σ _).Avoids held g (Member.AllAvoid g) := by
  unfold standardMembers
  split
  · exact avoids_pure ⟨trivial, trivial⟩
  · exact avoids_pure ⟨trivial, trivial, trivial⟩
  · refine avoids_bind (Handle.avoids_hasAttr other "__name__") fun has _ => ?_
    split
    · refine avoids_bind (Handle.avoids_getAttr other "__name__") fun value valueOther => ?_
      exact avoids_give (avoids_wrap valueOther) fun object avoids => ⟨avoids, trivial⟩
    · exact avoids_pure trivial
  · exact avoids_pure trivial
  · exact avoids_pure trivial

end Interop
