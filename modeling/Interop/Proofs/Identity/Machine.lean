import Interop.Proofs.Identity.Known
import Interop.Proofs.Machine.Sheltering
/-!
The machine makes no proxies up. Over an honest host, every request that hands over known proxies is
answered with known ones, and leads from a genuine world to a genuine one.
-/

set_option autoImplicit false

namespace Interop

variable {κ σ α : Type} {held : σ → Set (Proxy κ)} {needs known : Set (Proxy κ)}

/-- A host whose code makes no proxies up. It could not: proxies are made inside the bridge only. -/
structure Host.Honest (host : Host κ σ) (held : σ → Set (Proxy κ)) : Prop where
  function : ∀ code args keywords, (host.function code args keywords).Honest held silent ∅
  callback : ∀ code args, (host.callback code args).Honest held Arg.proxies ∅
  method : ∀ code receiver args, (host.method code receiver args).Honest held Object.proxies
    (receiver.proxies ∪ Object.proxiesAll args)
  members : ∀ code h, (host.members code h).Honest held Member.proxiesAll ∅

/-- The replies of a handler bring known proxies only. -/
def Handler.Answers (held : σ → Set (Proxy κ)) (handler : Handler κ σ) : Prop :=
  ∀ request, (handler request).Keeps held (request.proxies held) (request.replied held)

def Handler.Wraps (held : σ → Set (Proxy κ)) (handler : Handler κ σ) : Prop :=
  ∀ h, (Machine.runProgram handler (Bridge.wrap h)).Keeps held ∅ Object.proxies

namespace Arg

theorem mem_proxiesAll {args : List (Arg κ)} {p : Proxy κ} :
    p ∈ proxiesAll args ↔ ∃ arg ∈ args, p ∈ arg.proxies := by
  induction args with
  | nil => simp [proxiesAll]
  | cons arg rest ih => simp [proxiesAll, ih]

theorem mem_proxiesEntries {entries : List (String × Arg κ)} {p : Proxy κ} :
    p ∈ proxiesEntries entries ↔ ∃ entry ∈ entries, p ∈ entry.2.proxies := by
  induction entries with
  | nil => simp [proxiesEntries]
  | cons entry rest ih => simp [proxiesEntries, ih]

/-- Evaluated code passes no proxies. -/
theorem proxiesAll_of_isForeign {args : List (Arg κ)} (foreign : ∀ arg ∈ args, arg.IsForeign) :
    proxiesAll args = ∅ := by
  apply Set.eq_empty_of_forall_notMem
  intro p among
  obtain ⟨arg, given, among⟩ := mem_proxiesAll.mp among
  have isForeign := foreign arg given
  cases arg with
  | handle h => exact among
  | keywords entries =>
      obtain ⟨entry, inside, among⟩ := mem_proxiesEntries.mp among
      obtain ⟨h, same⟩ := isForeign entry inside
      rw [same] at among
      exact among
  | _ => exact isForeign

theorem proxiesAll_splitKeywords (args : List (Arg κ)) :
    proxiesAll (splitKeywords args).1 ⊆ proxiesAll args := by
  intro p among
  obtain ⟨arg, given, among⟩ := mem_proxiesAll.mp among
  exact mem_proxiesAll.mpr ⟨arg, (List.mem_filter.mp given).1, among⟩

theorem proxiesEntries_splitKeywords (args : List (Arg κ)) :
    proxiesEntries (splitKeywords args).2 ⊆ proxiesAll args := by
  intro p among
  obtain ⟨entry, inside, among⟩ := mem_proxiesEntries.mp among
  obtain ⟨group, given, written, inside, same⟩ := mem_splitKeywords inside
  refine mem_proxiesAll.mpr ⟨.keywords group, given, ?_⟩
  refine mem_proxiesEntries.mpr ⟨written, inside, ?_⟩
  rw [same]
  exact among

end Arg

/-- A request that may fail, as a computation that may fail. -/
theorem Exec.keeps_mk {x : Run κ σ (Except Error α)} (keeps : x.Keeps held needs fun _ => ∅) :
    Exec.Keeps held needs silent (ExceptT.mk x) := by
  intro world result after genuine known finished
  obtain ⟨evolves, isGenuine, _⟩ := keeps world result after genuine known finished
  exact ⟨evolves, isGenuine, silent_subset result⟩

theorem Exec.Keeps.reply {x : Exec κ σ α} (keeps : x.Keeps held needs silent) :
    x.run.Keeps held needs fun _ => ∅ := by
  intro world result after genuine known finished
  obtain ⟨evolves, isGenuine, _⟩ := keeps world result after genuine known finished
  exact ⟨evolves, isGenuine, Set.empty_subset _⟩

namespace Machine

variable {handler : Handler κ σ}

/-! ### Host code -/

/-- An honest tree keeps what the handler below it keeps. -/
theorem keeps_run (answers : handler.Answers held) (wraps : handler.Wraps held)
    {gives : α → Set (Proxy κ)} {tree : Interaction κ σ α}
    (honest : tree.Honest held gives known) : (tree.run handler).Keeps held known gives := by
  induction honest with
  | done given => exact Run.keeps_pure given
  | perform sends _ ih => exact Run.keeps_bind ((answers _).mono sends) ih
  | @wrap known h resume _ ih =>
      rw [Interaction.run_bind]
      exact Run.keeps_bind (Run.Keeps.mono (wraps h) (Set.empty_subset _)) ih

theorem keeps_runProgram (answers : handler.Answers held) (wraps : handler.Wraps held)
    {gives : α → Set (Proxy κ)} {program : Program κ σ α}
    (honest : program.Honest held gives known) :
    (runProgram handler program).Keeps held known gives :=
  keeps_run answers wraps honest

/-! ### Wrapping -/

section Wrapping

variable (answers : handler.Answers held)

include answers

theorem keeps_primitive (h : Handle) :
    (runProgram handler h.primitive).Keeps held needs silent := by
  rw [show runProgram handler h.primitive = ExceptT.mk (handler (.primitive h)) from
    ExceptT.ext (Interaction.run_ask handler (.primitive h))]
  exact Exec.keeps_mk ((answers (.primitive h)).mono (Set.empty_subset _))

theorem keeps_stringAttr (type : Handle) (name : String) :
    (runProgram handler (type.stringAttr name)).Keeps held needs silent := by
  have read : (runProgram handler (type.getAttr name)).Keeps held needs silent := by
    rw [runProgram_getAttr]
    exact Exec.keeps_mk ((answers (.getAttr type name)).mono (Set.empty_subset _))
  unfold Handle.stringAttr
  rw [runProgram_bind]
  refine Exec.keeps_then read fun value => ?_
  rw [runProgram_bind]
  refine Exec.keeps_then (keeps_primitive answers value) fun read => ?_
  split
  · exact Exec.keeps_pure (Set.empty_subset _)
  · exact Run.keeps_pure (Set.empty_subset _)

theorem keeps_typeInfo (h : Handle) :
    (runProgram handler h.typeInfo).Keeps held needs silent := by
  have typed : (runProgram handler h.typeOf).Keeps held needs silent := by
    rw [show runProgram handler h.typeOf = ExceptT.mk (handler (.typeOf h)) from
      ExceptT.ext (Interaction.run_ask handler (.typeOf h))]
    exact Exec.keeps_mk ((answers (.typeOf h)).mono (Set.empty_subset _))
  unfold Handle.typeInfo
  rw [runProgram_bind]
  refine Exec.keeps_then typed fun type => ?_
  rw [runProgram_bind]
  refine Exec.keeps_then (keeps_stringAttr answers type _) fun module => ?_
  rw [runProgram_bind]
  refine Exec.keeps_then (keeps_stringAttr answers type _) fun name => ?_
  exact Exec.keeps_pure (Set.empty_subset _)

/-- What is left of wrapping once the type is known to be no primitive one. -/
theorem keeps_wrapped (h : Handle) (info : TypeInfo) :
    (runProgram handler do
      let registry ← Program.registry
      let callable ← h.isCallable
      match registry.delegatorFor callable info with
      | some delegator => return .proxy (.mk h info (← delegator.members h))
      | none => return .proxy (.mk h info [])).Keeps held
        {p | p.handle = h ∧ p.typeInfo = info} Object.proxies := by
  have own : ∀ (members : Entries (Member κ)) {known : Set (Proxy κ)},
      {p | p.handle = h ∧ p.typeInfo = info} ⊆ known → Member.proxiesAll members ⊆ known →
        (Object.proxy (.mk h info members)).proxies ⊆ known := by
    intro members known wrapped others
    refine Set.union_subset ?_ others
    rintro p rfl
    exact wrapped ⟨rfl, rfl⟩
  rw [runProgram_bind]
  have loaded : Exec.Keeps held {p | p.handle = h ∧ p.typeInfo = info} silent
      (runProgram handler Program.registry) := by
    rw [show runProgram handler Program.registry = ExceptT.lift (handler .registry) from
      runProgram_ask handler .registry]
    exact Exec.keeps_lift ((answers (.registry)).mono (Set.empty_subset _))
  refine Exec.keeps_then loaded fun registry => ?_
  rw [runProgram_bind]
  have asked : Exec.Keeps held {p | p.handle = h ∧ p.typeInfo = info} silent
      (runProgram handler h.isCallable) := by
    rw [show runProgram handler h.isCallable = ExceptT.lift (handler (.isCallable h)) from
      runProgram_ask handler (.isCallable h)]
    exact Exec.keeps_lift ((answers (.isCallable h)).mono (Set.empty_subset _))
  refine Exec.keeps_then asked fun callable => ?_
  split
  · rename_i delegator _
    rw [runProgram_bind]
    have given : Exec.Keeps held {p | p.handle = h ∧ p.typeInfo = info} Member.proxiesAll
        (runProgram handler (delegator.members h)) := by
      rw [show runProgram handler (delegator.members h) =
        ExceptT.mk (handler (.members delegator h)) from
          ExceptT.ext (Interaction.run_ask handler (.members delegator h))]
      exact (answers (.members delegator h)).mono (Set.empty_subset _)
    refine Exec.keeps_bind given fun members => ?_
    exact Exec.keeps_pure (own members Set.subset_union_left Set.subset_union_right)
  · exact Exec.keeps_pure (own [] subset_rfl (Set.empty_subset _))

end Wrapping

/-- The type that is asked for is that of a value that is there. -/
theorem typeInfo_of_ok {host : Host κ σ} {below : Handler κ σ} {world after : World κ σ}
    (sound : world.heap.Sound) {h : Handle} {info : TypeInfo}
    (finished : (runProgram (layer host below) h.typeInfo).run world = some (.ok info, after)) :
    (world.heap.cell? h).isSome = true ∧
      ∀ kind, world.heap.kind? h = some kind → world.heap.typeInfo kind = info := by
  constructor
  · cases found : world.heap.cell? h with
    | some cell => rfl
    | none =>
        have refused : (Heap.typeOf h).run world.heap = .error .released := by
          unfold Heap.typeOf
          rw [Heap.Op.run_get_bind, found]
          rfl
        have asked : runProgram (layer host below) h.typeOf = Exec.ofOp (Heap.typeOf h) :=
          ExceptT.ext (Interaction.run_ask _ (.typeOf h))
        have failed : (Exec.ofOp (Heap.typeOf h) : Exec κ σ Handle).run world =
            some (.error _, _) := Run.attempt_of_error refused
        unfold Handle.typeInfo at finished
        rw [runProgram_bind, asked, Exec.run_bind_of_error failed] at finished
        cases finished
  · intro kind found
    obtain ⟨last, told, _⟩ :=
      (typeInfo_answers host below (sound.hasClass found) found).finishes
    cases told.symm.trans finished
    rfl

theorem wraps_layer {host : Host κ σ} {below : Handler κ σ}
    (answers : Handler.Answers held (layer host below)) :
    Handler.Wraps held (layer host below) := by
  intro h world result after genuine _ finished
  unfold Bridge.wrap at finished
  rw [runProgram_bind] at finished
  rcases Exec.run_bind_eq_some_iff.mp finished with ⟨info, mid, typed, rest⟩ | ⟨error, failed, rfl⟩
  · obtain ⟨evolves, isGenuine, _⟩ :=
      keeps_typeInfo answers h world _ mid genuine (Set.empty_subset _) typed
    obtain ⟨there, same⟩ := typeInfo_of_ok genuine.sound typed
    -- whatever comes after the type has been told starts from the heap that telling it left
    have kept : ∀ {x : Exec κ σ (Object κ)} {known : Set (Proxy κ)},
        x.Keeps held known Object.proxies → known ⊆ mid.heap.known →
          x.run mid = some (result, after) →
            world.heap.Evolves after.heap ∧ after.Genuine held ∧
              ofResult Object.proxies result ⊆ after.heap.known := by
      intro x known keeps isKnown finished
      obtain ⟨more, last⟩ := keeps mid result after isGenuine isKnown finished
      exact ⟨evolves.trans more, last⟩
    split at rest
    · exact kept (Exec.keeps_pure (Set.empty_subset ∅)) (Set.empty_subset _) rest
    · rename_i notNone
      split at rest
      · rw [runProgram_bind] at rest
        have read := Exec.keeps_then (keeps_primitive answers h) fun primitive =>
          Exec.keeps_pure (Object.proxies_ofPrimitive primitive).subset
        exact kept read (Set.empty_subset _) rest
      · rename_i notPrimitive
        refine kept (keeps_wrapped answers h info) ?_ rest
        rintro p ⟨rfl, rfl⟩
        refine evolves.knows genuine.sound ⟨there, ?_, ?_, same⟩
        · exact Bool.eq_false_iff.mpr notNone
        · exact Bool.eq_false_iff.mpr notPrimitive
  · obtain ⟨evolves, isGenuine, _⟩ :=
      keeps_typeInfo answers h world _ after genuine (Set.empty_subset _) failed
    exact ⟨evolves, isGenuine, Set.empty_subset _⟩

/-! ### Layers -/

section Layers

variable {host : Host κ σ} {below : Handler κ σ} (honest : host.Honest held)
  (answers : below.Answers held) (wraps : below.Wraps held)

include honest answers wraps

theorem keeps_callNative (code : NativeCode κ) (args : List Handle)
    (keywords : OrderedMap Handle) :
    (callNative host below code args keywords).Keeps held needs silent := by
  cases code with
  | builtin builtin => exact Exec.keeps_ofOp (Heap.moves_callBuiltin builtin args)
  | container method =>
      cases args with
      | nil => exact Exec.keeps_fault _
      | cons receiver rest => exact Exec.keeps_ofOp (Heap.moves_callContainer method receiver rest)
  | initializer => exact Exec.keeps_ofOp (Heap.moves_callInitializer args keywords)
  | host code =>
      have called := honest.function code args keywords
      exact keeps_runProgram answers wraps (called.mono (Set.empty_subset _))

/-- A function of the host has no other proxies than its own. -/
theorem keeps_callCallback {function : Callback κ} (owns : function.proxies ⊆ needs)
    (args : List Handle) :
    (callCallback host below function args).Keeps held needs Arg.proxies := by
  obtain ⟨name, code⟩ := function
  refine keeps_runProgram answers wraps ?_
  cases code with
  | host code => exact (honest.callback code args).mono (Set.empty_subset _)
  | onReceiver method => exact method.honest_callRaw args
  | bound method => exact BoundMethod.honest_callRaw owns args

theorem keeps_invokeCallback {function : Callback κ} (owns : function.proxies ⊆ needs)
    (args : List Handle) (keywords : OrderedMap Handle) :
    (invokeCallback host below function args keywords).Keeps held needs silent := by
  unfold invokeCallback
  split
  · exact Exec.keeps_bind (keeps_callCallback honest answers wraps owns args) fun answer =>
      Exec.keeps_ofOp (Heap.adds_marshal answer Set.subset_union_right)
  · exact Exec.keeps_fault _

omit honest wraps in
/-- An instance is made of a class that is there. -/
theorem keeps_instantiate {world after : World κ σ} {cls : Handle} {args : List (Arg κ)}
    {result : Except Error Handle} (genuine : world.Genuine held)
    (sends : Arg.proxiesAll args ⊆ world.heap.known) (isType : world.heap.IsType cls)
    (finished : (instantiate below cls args).run world = some (result, after)) :
    world.heap.Evolves after.heap ∧ after.Genuine held := by
  unfold instantiate at finished
  rcases Exec.run_bind_eq_some_iff.mp finished with ⟨made, mid, alloc, finished⟩ | ⟨_, alloc, _⟩
  · cases alloc
    have added : world.heap.Adds ∅ (world.heap.push (.object ⟨.instanceOf cls, .empty⟩)) :=
      Heap.adds_push isType nofun subset_rfl
    have rest : Exec.Keeps held (Arg.proxiesAll args) silent (do
        let initializer ← Exec.ofOp (Heap.getAttr world.heap.fresh "__init__")
        let _ ← ExceptT.mk (below (.invoke initializer args))
        return world.heap.fresh : Exec κ σ Handle) := by
      refine Exec.keeps_then (Exec.keeps_ofOp (Heap.moves_getAttr _ _)) fun initializer => ?_
      refine Exec.keeps_then (Exec.keeps_mk (answers (.invoke initializer args))) fun _ => ?_
      exact Exec.keeps_pure (Set.empty_subset _)
    obtain ⟨evolves, isGenuine, _⟩ := rest _ result after
      (genuine.adds (Set.empty_subset _) added)
      (sends.trans (added.evolves.known genuine.sound)) finished
    exact ⟨added.evolves.trans evolves, isGenuine⟩
  · cases alloc

theorem keeps_invoke (h : Handle) (args : List (Arg κ)) :
    (invoke host below h args).Keeps held (Arg.proxiesAll args) silent := by
  intro world result after genuine sends finished
  rcases Exec.run_bind_eq_some_iff.mp finished with ⟨_, _, read, finished⟩ | ⟨_, impossible, _⟩
  case inr => cases impossible
  cases read
  split at finished
  · exact Exec.keeps_fault _ world result after genuine sends finished
  · rename_i info attributes found
    obtain ⟨evolves, isGenuine⟩ := keeps_instantiate answers genuine sends
      ⟨info, Heap.kind?_of_cell? found⟩ finished
    exact ⟨evolves, isGenuine, silent_subset result⟩
  · rename_i cell _ found
    -- the function that is called stands on the heap, and so do the proxies that it owns
    have owned : ∀ {object : HeapObject κ}, cell = .object object →
        object.kind.proxies ⊆ world.heap.known := by
      rintro object rfl
      exact (fun p among => genuine.heap ⟨h, _, Heap.kind?_of_cell? found, among⟩)
    let owns : Set (Proxy κ) := {p | ∃ object, cell = .object object ∧ p ∈ object.kind.proxies}
    have known : Arg.proxiesAll args ∪ owns ⊆ world.heap.known := by
      refine Set.union_subset sends ?_
      rintro p ⟨object, same, among⟩
      exact owned same among
    refine Exec.keeps_then (Exec.keeps_ofOp (Heap.adds_marshalAll _ ?_)) (fun handles => ?_)
      world result after genuine known finished
    · exact (Arg.proxiesAll_splitKeywords args).trans Set.subset_union_left
    refine Exec.keeps_then (Exec.keeps_ofOp (Heap.adds_marshalEntries _ ?_)) fun named => ?_
    · exact (Arg.proxiesEntries_splitKeywords args).trans Set.subset_union_left
    split
    · split
      · rename_i code _
        have called := honest.function code handles (.ofEntries named)
        exact keeps_runProgram answers wraps (called.mono (Set.empty_subset _))
      · exact Exec.keeps_fault _
    · rename_i object _
      have within : object.kind.proxies ⊆ Arg.proxiesAll args ∪ owns :=
        fun p among => .inr ⟨object, rfl, among⟩
      split
      · exact keeps_callNative honest answers wraps _ _ _
      · exact keeps_callNative honest answers wraps _ _ _
      · rename_i function isCallback
        rw [isCallback] at within
        exact keeps_invokeCallback honest answers wraps within _ _
      · rename_i receiver function isMethod
        rw [isMethod] at within
        exact keeps_invokeCallback honest answers wraps within _ _
      · exact Exec.keeps_then (Exec.keeps_lift (Run.keeps_readHeap _)) fun _ => Exec.keeps_fault _

omit honest answers wraps in
theorem keeps_next (h : Handle) :
    (next h : Run κ σ _).Keeps held needs fun _ => ∅ := by
  refine Run.keeps_then (Run.keeps_onHeap fun heap => Heap.moves_next heap h) fun item => ?_
  cases item with
  | ok item => exact Run.keeps_pure (Set.empty_subset _)
  | error fault =>
      exact Run.keeps_then (Run.keeps_raise fault) fun _ => Run.keeps_pure (Set.empty_subset _)

omit honest answers wraps in
theorem keeps_inspect (h : Handle) :
    (inspect h : Run κ σ _).Keeps held needs fun _ => ∅ := by
  refine Run.keeps_then (Run.keeps_readHeap _) fun kind => ?_
  cases kind with
  | none => exact Run.keeps_pure (Set.empty_subset _)
  | some kind =>
      exact Run.keeps_then (Run.keeps_readHeap _) fun _ =>
        Run.keeps_then (Run.keeps_attempt (Heap.Op.moves_check _)) fun _ =>
          Run.keeps_pure (Set.empty_subset _)

omit honest answers wraps in
theorem keeps_bindMethod (function : Callback κ) (receiver : Handle) :
    (bindMethod function receiver : Exec κ σ Handle).Keeps held function.proxies silent := by
  refine Exec.keeps_then (Exec.keeps_lift (Run.keeps_readHeap _)) fun object => ?_
  cases object with
  | none => exact Exec.keeps_fault _
  | some object => exact Exec.keeps_ofOp (Heap.Op.adds_alloc rfl subset_rfl)

omit honest answers wraps in
theorem keeps_materialize (error : Error) :
    (materialize error : Run κ σ _).Keeps held needs fun _ => ∅ := by
  cases error with
  | foreign exception => exact Run.keeps_pure (Set.empty_subset _)
  | type fault =>
      exact Run.keeps_then
        (Run.keeps_onHeap fun heap => Heap.along_addException heap "TypeError" fault.message)
        fun _ => Run.keeps_pure (Set.empty_subset _)

theorem answers_layer : (layer host below).Answers held := by
  intro request
  cases request with
  | typeOf h => exact Run.keeps_attempt (Heap.moves_typeOf h)
  | primitive h => exact Run.keeps_attempt (Heap.Op.moves_check _)
  | invoke h args => exact Exec.Keeps.reply (keeps_invoke honest answers wraps h args)
  | text h => exact Run.keeps_attempt (Heap.Op.moves_check _)
  | describe h => exact Run.keeps_readHeap (·.describe h)
  | isCallable h => exact Run.keeps_readHeap (isCallable · h)
  | isIterator h => exact Run.keeps_readHeap (isIterator · h)
  | isSequence h => exact Run.keeps_readHeap (isSequence · h)
  | next h => exact keeps_next h
  | hash h => exact Run.keeps_attempt (Heap.Op.moves_check _)
  | hasAttr h name => exact Run.keeps_readHeap (·.hasAttr h name)
  | getAttr h name => exact Run.keeps_attempt (Heap.moves_getAttr h name)
  | setAttr h name value =>
      exact Run.keeps_onHeap fun heap =>
        Heap.moves_setAttr (Heap.adds_marshal value subset_rfl) heap h name
  | getItem h key => exact Run.keeps_attempt (Heap.moves_getItem h key)
  | setItem h key value =>
      exact Run.keeps_onHeap fun heap =>
        Heap.moves_setItem (Heap.adds_marshal value subset_rfl) heap h key
  | builtin name =>
      refine Run.keeps_then Run.keeps_get fun world => ?_
      split
      · exact Run.keeps_pure (Set.empty_subset _)
      · exact Run.keeps_then (Run.keeps_raise _) fun _ => Run.keeps_pure (Set.empty_subset _)
  | globals => exact Run.keeps_then Run.keeps_get fun _ => Run.keeps_pure (Set.empty_subset _)
  | ownGlobal name =>
      exact Run.keeps_then Run.keeps_get fun _ => Run.keeps_pure (Set.empty_subset _)
  | importModule name =>
      refine Run.keeps_then Run.keeps_get fun world => ?_
      split
      · exact Run.keeps_pure (Set.empty_subset _)
      · exact Run.keeps_then (Run.keeps_raise _) fun _ => Run.keeps_pure (Set.empty_subset _)
  | exec source globals locals =>
      let scope : Script.Scope κ σ := ⟨globals, locals, fun h args => .mk (below (.invoke h args))⟩
      have invokes : scope.Invokes fun _ x => x.Keeps held ∅ silent := by
        intro h args foreign
        have sends := (Arg.proxiesAll_of_isForeign foreign).subset
        exact Exec.keeps_mk ((answers (.invoke h args)).mono sends)
      exact Exec.Keeps.reply (Script.good_exec (Exec.closedWriting_keeps held) invokes source)
  | bindMethod function receiver => exact Exec.Keeps.reply (keeps_bindMethod function receiver)
  | materialize error => exact keeps_materialize error
  | create blueprint => exact Run.keeps_onHeap fun heap => Heap.along_create heap blueprint
  | marshal arg => exact Run.keeps_attempt (Heap.adds_marshal arg subset_rfl)
  | exception kind message =>
      exact Run.keeps_onHeap fun heap => Heap.along_addException heap kind message
  | inspect h => exact keeps_inspect h
  | registry =>
      intro world reply after genuine _ finished
      cases finished
      dsimp only
      split
      · exact ⟨.refl, ⟨genuine.sound, genuine.heap, genuine.state⟩, Set.empty_subset _⟩
      · exact ⟨.refl, genuine, Set.empty_subset _⟩
  | settings => exact Run.keeps_then Run.keeps_get fun _ => Run.keeps_pure (Set.empty_subset _)
  | members delegator h =>
      refine keeps_runProgram answers wraps ?_
      split
      · exact honest.members _ h
      · exact delegator.honest_standardMembers h
  | runMethod code receiver args =>
      exact keeps_runProgram answers wraps (honest.method code receiver args)
  | readState =>
      intro world state after genuine _ finished
      cases finished
      exact ⟨.refl, genuine, genuine.state⟩
  | writeState state =>
      intro world reply after genuine known finished
      cases finished
      exact ⟨.refl, ⟨genuine.sound, genuine.heap, known⟩, Set.empty_subset _⟩

end Layers

theorem faithful_answer {host : Host κ σ} (honest : host.Honest held) (layers : Nat) :
    (answer host layers).Answers held ∧ (answer host layers).Wraps held := by
  induction layers with
  | zero =>
      refine ⟨fun _ => Run.keeps_diverge, ?_⟩
      intro h world result after _ _ finished
      cases finished
  | succ layers ih =>
      have answers : (answer host (layers + 1)).Answers held := answers_layer honest ih.1 ih.2
      exact ⟨answers, wraps_layer answers⟩

end Machine

end Interop
