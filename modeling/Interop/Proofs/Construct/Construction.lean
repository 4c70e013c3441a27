import Interop.Proofs.Construct.Installation
/-!
Constructing an instance with methods of the host. The instance's initializer is invoked twice
without arguments, by the class and once more, before any method is installed; construction succeeds
exactly if both calls do. On the new instance every method of the host class then answers under its
name.
-/

set_option autoImplicit false

namespace Interop

variable {κ σ : Type}

/-- Invokes the initializer of an instance, as the instance has it now, without arguments. -/
def Handle.initiate (h : Handle) : Program κ σ Handle := do
  (← h.getAttr "__init__").invoke []

/-- The world with a new instance of a class that is not yet initialized. -/
def World.begetting (world : World κ σ) (cls : Handle) : World κ σ :=
  { world with heap := world.heap.push (.object ⟨.instanceOf cls, .empty⟩) }

/-- The world after methods were installed on an object. -/
def World.installing (world : World κ σ) (made : Handle) (methods : List (Method κ)) :
    World κ σ :=
  { world with heap := methods.foldl (Heap.install made) world.heap }

open Machine (runProgram answer layer)

namespace Machine

variable (host : Host κ σ)

variable {world : World κ σ} {made cls : Handle} {info : TypeInfo}

theorem runProgram_initiate (below : Handler κ σ) (h : Handle) :
    runProgram (layer host below) h.initiate =
      Exec.ofOp (Heap.getAttr h "__init__") >>= fun init =>
        ExceptT.mk (layer host below (.invoke init [])) := by
  unfold Handle.initiate
  rw [runProgram_bind, runProgram_getAttr]
  apply congrArg
  funext init
  exact runProgram_invoke _ init []

/-- A class makes an instance and invokes its initializer on the layer below. -/
theorem run_instantiate (layers : Nat) (isClass : world.heap.kind? cls = some (.type info)) :
    (runProgram (answer host (layers + 2)) (cls.invoke [])).run world =
      (runProgram (answer host (layers + 1)) world.heap.fresh.initiate >>= fun _ =>
        pure world.heap.fresh).run (world.begetting cls) := by
  obtain ⟨attributes, present⟩ := Heap.cell?_of_kind? isClass
  have read : (Exec.readHeap (·.cell? cls) : Exec κ σ _).run world = some (.ok _, world) :=
    congrArg (fun cell => some (Except.ok cell, world)) present
  have allocated : (Heap.Op.alloc (.instanceOf cls)).run world.heap =
      .ok (world.heap.fresh, (world.begetting cls).heap) := rfl
  rw [runProgram_invoke]
  change (invoke host (answer host (layers + 1)) cls []).run world = _
  unfold invoke
  rw [Exec.run_bind_of_ok read]
  change (instantiate (answer host (layers + 1)) cls []).run world = _
  unfold instantiate
  rw [Exec.run_ofOp_bind_of_ok allocated, answer, tower, runProgram_initiate, bind_assoc]
  rfl

theorem hasClass_instance (isClass : world.heap.kind? cls = some (.type info)) :
    world.heap.HasClass (.instanceOf cls) := by
  rintro _ ⟨⟩
  exact ⟨info, isClass⟩

/-- Whatever wrapping an instance gives is a proxy of it with its class as its type. -/
theorem wrap_instance {below : Handler κ σ} {after : World κ σ} {object : Object κ}
    (isInstance : world.heap.kind? made = some (.instanceOf cls))
    (isClass : world.heap.kind? cls = some (.type info)) (notNone : info.isNone = false)
    (notPrimitive : info.isPrimitive = false)
    (wraps : (runProgram (layer host below) (Bridge.wrap made)).run world =
      some (.ok object, after)) :
    ∃ members, object = .proxy (.mk made info members) := by
  obtain ⟨mid, typed, _⟩ :=
    (typeInfo_answers host below (hasClass_instance isClass) isInstance).finishes
  rw [Heap.typeInfo_of_isType isClass] at typed
  unfold Bridge.wrap at wraps
  rw [run_bind_of_ok _ typed, notNone, notPrimitive, if_neg Bool.false_ne_true,
    if_neg Bool.false_ne_true] at wraps
  rw [runProgram_bind, Exec.run_bind_eq_some_iff] at wraps
  obtain ⟨registry, loaded, _, wraps⟩ | ⟨_, _, impossible⟩ := wraps
  · rw [runProgram_bind, Exec.run_bind_eq_some_iff] at wraps
    obtain ⟨callable, asked, _, wraps⟩ | ⟨_, _, impossible⟩ := wraps
    · split at wraps
      · rw [runProgram_bind, Exec.run_bind_eq_some_iff] at wraps
        obtain ⟨members, _, _, last⟩ | ⟨_, _, impossible⟩ := wraps
        · cases last
          exact ⟨members, rfl⟩
        · cases impossible
      · cases wraps
        exact ⟨[], rfl⟩
    · cases impossible
  · cases impossible

/-- The bridge's own registry has a proxy for every instance. -/
theorem wrap_instance_standard (layers : Nat)
    (isInstance : world.heap.kind? made = some (.instanceOf cls))
    (isClass : world.heap.kind? cls = some (.type info)) (notNone : info.isNone = false)
    (notPrimitive : info.isPrimitive = false) (standard : world.loader = .standard)
    (sound : world.heap.Sound) :
    ∃ members after, (runProgram (answer host (layers + 2)) (Bridge.wrap made)).run world =
      some (.ok (.proxy (.mk made info members)), after) := by
  obtain ⟨attributes, present⟩ := Heap.cell?_of_kind? isInstance
  have viewed : world.heap.view? made (.instanceOf cls) =
      some (.proxy (.mk made info ((Kind.instanceOf cls).members info))) := by
    unfold Heap.view?
    dsimp only
    rw [Heap.typeInfo_of_isType isClass, notNone, notPrimitive, if_neg Bool.false_ne_true,
      if_neg Bool.false_ne_true]
  obtain ⟨after, wraps, _⟩ :=
    (wrap_answers host (answer host layers) standard sound present viewed).finishes
  exact ⟨_, after, wraps⟩

end Machine

/-- How the construction of an instance goes. -/
inductive Construction (host : Host κ σ) (layers : Nat) (p : Proxy κ) (cls : HostClass κ)
    (world : World κ σ) : Except Error (Object κ) → World κ σ → Prop
  /-- The class fails to initialize the instance. -/
  | unborn {error : Error} {after : World κ σ}
      (first : (runProgram (answer host (layers + 1)) world.heap.fresh.initiate).run
        (world.begetting p.handle) = some (.error error, after)) :
      Construction host layers p cls world (.error error) after
  /-- The instance cannot be wrapped. -/
  | unseen {value : Handle} {error : Error} {mid after : World κ σ}
      (first : (runProgram (answer host (layers + 1)) world.heap.fresh.initiate).run
        (world.begetting p.handle) = some (.ok value, mid))
      (wraps : (runProgram (answer host (layers + 2)) (Bridge.wrap world.heap.fresh)).run mid =
        some (.error error, after)) :
      Construction host layers p cls world (.error error) after
  /-- The second call of the initializer fails, or its result cannot be wrapped. -/
  | refused {value : Handle} {made : Proxy κ} {error : Error} {mid seen after : World κ σ}
      (first : (runProgram (answer host (layers + 1)) world.heap.fresh.initiate).run
        (world.begetting p.handle) = some (.ok value, mid))
      (wraps : (runProgram (answer host (layers + 2)) (Bridge.wrap world.heap.fresh)).run mid =
        some (.ok (.proxy made), seen))
      (second : (runProgram (answer host (layers + 2))
        (world.heap.fresh.initiate >>= Bridge.wrap)).run seen = some (.error error, after)) :
      Construction host layers p cls world (.error error) after
  /-- Both calls succeed, and the methods are installed. -/
  | done {value : Handle} {made : Proxy κ} {result : Object κ} {mid seen late : World κ σ}
      (first : (runProgram (answer host (layers + 1)) world.heap.fresh.initiate).run
        (world.begetting p.handle) = some (.ok value, mid))
      (wraps : (runProgram (answer host (layers + 2)) (Bridge.wrap world.heap.fresh)).run mid =
        some (.ok (.proxy made), seen))
      (second : (runProgram (answer host (layers + 2))
        (world.heap.fresh.initiate >>= Bridge.wrap)).run seen = some (.ok result, late)) :
      Construction host layers p cls world (.ok (.proxy made))
        (late.installing world.heap.fresh cls.methods)

section Outcome

variable {host : Host κ σ} {layers : Nat} {p : Proxy κ} {cls : HostClass κ} {info : TypeInfo}
  {world : World κ σ}

/-- The new instance, and its class, stay what they are. -/
theorem World.begetting_evolves {after : World κ σ}
    (isClass : world.heap.kind? p.handle = some (.type info))
    (evolves : (world.begetting p.handle).heap.Evolves after.heap) :
    after.heap.kind? world.heap.fresh = some (.instanceOf p.handle) ∧
      after.heap.kind? p.handle = some (.type info) := by
  have born : (world.begetting p.handle).heap.kind? world.heap.fresh =
      some (.instanceOf p.handle) := Heap.kind?_fresh world.heap _
  have stays : (world.begetting p.handle).heap.kind? p.handle = some (.type info) :=
    Heap.kind?_push isClass _
  exact ⟨evolves.kind?_eq born nofun, evolves.kind?_eq stays nofun⟩

theorem evolves_of_run {α : Type} {x : Program κ σ α} {result : Except Error α} {layers : Nat}
    {before after : World κ σ}
    (finished : (runProgram (answer host layers) x).run before = some (result, after)) :
    before.Moves Heap.Evolves after :=
  Machine.evolves_runProgram (Machine.evolves_answer host layers) x _ _ _ finished

theorem callMethod_init (p : Proxy κ) :
    (p.callMethod "__init__" [] : Program κ σ (Object κ)) =
      p.handle.initiate >>= Bridge.wrap := by
  unfold Proxy.callMethod Handle.initiate
  rw [bind_assoc]

theorem construct_eq (p : Proxy κ) (cls : HostClass κ) :
    (p.construct cls : Program κ σ (Object κ)) =
      (p.handle.invoke [] >>= Bridge.wrap) >>= fun object =>
        match object with
        | .proxy made => (made.handle.initiate >>= Bridge.wrap) >>= fun _ =>
          cls.methods.forM (cls.install made) >>= fun _ => pure object
        | _ => pure object := by
  unfold Proxy.construct
  rw [bind_assoc]
  refine bind_congr fun instanceHandle => bind_congr fun object => ?_
  cases object with
  | proxy made => exact congrArg (· >>= _) (callMethod_init made)
  | _ => rfl

/-- The new instance is wrapped once its class has initialized it. -/
theorem run_born_iff (isClass : world.heap.kind? p.handle = some (.type info))
    {outcome : Except Error (Object κ)} {seen : World κ σ} :
    (runProgram (answer host (layers + 2)) (p.handle.invoke [] >>= Bridge.wrap)).run world =
        some (outcome, seen) ↔
      (∃ value mid, (runProgram (answer host (layers + 1)) world.heap.fresh.initiate).run
          (world.begetting p.handle) = some (.ok value, mid) ∧
        (runProgram (answer host (layers + 2)) (Bridge.wrap world.heap.fresh)).run mid =
          some (outcome, seen)) ∨
      ∃ error, (runProgram (answer host (layers + 1)) world.heap.fresh.initiate).run
          (world.begetting p.handle) = some (.error error, seen) ∧ outcome = .error error := by
  rw [Machine.runProgram_bind, Exec.run_bind_eq_some_iff,
    Machine.run_instantiate host layers isClass]
  constructor
  · rintro (⟨made, mid, born, wraps⟩ | ⟨error, failed, rfl⟩)
    · obtain ⟨value, mid, first, last⟩ | ⟨_, _, impossible⟩ := Exec.run_bind_eq_some_iff.mp born
      · cases last
        exact .inl ⟨value, mid, first, wraps⟩
      · cases impossible
    · obtain ⟨_, _, _, impossible⟩ | ⟨_, first, ⟨⟩⟩ := Exec.run_bind_eq_some_iff.mp failed
      · cases impossible
      · exact .inr ⟨error, first, rfl⟩
  · rintro (⟨value, mid, first, wraps⟩ | ⟨error, failed, rfl⟩)
    · refine .inl ⟨world.heap.fresh, mid, ?_, wraps⟩
      rw [Exec.run_bind_of_ok first]
      rfl
    · exact .inr ⟨error, Exec.run_bind_of_error failed, rfl⟩

/-- With both calls done, the methods are installed and the proxy is given. -/
theorem run_constructed {made : Proxy κ} {late : World κ σ}
    (isInstance : late.heap.kind? made.handle = some (.instanceOf p.handle)) :
    (runProgram (answer host (layers + 2)) (cls.methods.forM (cls.install made) >>= fun _ =>
        pure (Object.proxy made))).run late =
      some (.ok (.proxy made), late.installing made.handle cls.methods) := by
  obtain ⟨attributes, present⟩ := Heap.cell?_of_kind? isInstance
  rw [answer, Machine.tower,
    Machine.run_bind_of_ok _ (Machine.run_installAll host _ present rfl cls rfl cls.methods)]
  rfl

/-- Construction ends in exactly one of its ways. -/
theorem construct_iff (isClass : world.heap.kind? p.handle = some (.type info))
    (notNone : info.isNone = false) (notPrimitive : info.isPrimitive = false)
    {result : Except Error (Object κ)} {after : World κ σ} :
    (runProgram (answer host (layers + 2)) (p.construct cls)).run world = some (result, after) ↔
      Construction host layers p cls world result after := by
  rw [construct_eq, Machine.runProgram_bind, Exec.run_bind_eq_some_iff]
  simp only [run_born_iff isClass]
  constructor
  · rintro (⟨object, seen, ⟨value, mid, first, wraps⟩ | ⟨_, _, impossible⟩, rest⟩ |
      ⟨error, ⟨value, mid, first, fails⟩ | ⟨_, first, ⟨⟩⟩, rfl⟩)
    · have early := World.begetting_evolves isClass (evolves_of_run first).heap
      obtain ⟨members, rfl⟩ := Machine.wrap_instance host early.1 early.2 notNone notPrimitive wraps
      rw [Machine.runProgram_bind, Exec.run_bind_eq_some_iff] at rest
      obtain ⟨answered, late, second, installs⟩ | ⟨error, second, rfl⟩ := rest
      · have evolves := ((evolves_of_run first).trans (evolves_of_run wraps)).trans
          (evolves_of_run second)
        have isInstance := (World.begetting_evolves isClass evolves.heap).1
        rw [run_constructed isInstance] at installs
        cases installs
        exact .done first wraps second
      · exact .refused first wraps second
    · cases impossible
    · exact .unseen first fails
    · exact .unborn first
  · intro construction
    cases construction with
    | unborn first => exact .inr ⟨_, .inr ⟨_, first, rfl⟩, rfl⟩
    | unseen first wraps => exact .inr ⟨_, .inl ⟨_, _, first, wraps⟩, rfl⟩
    | refused first wraps second =>
        have early := World.begetting_evolves isClass (evolves_of_run first).heap
        obtain ⟨members, ⟨⟩⟩ :=
          Machine.wrap_instance host early.1 early.2 notNone notPrimitive wraps
        refine .inl ⟨_, _, .inl ⟨_, _, first, wraps⟩, ?_⟩
        dsimp only
        rw [Machine.runProgram_bind]
        exact Exec.run_bind_of_error second
    | done first wraps second =>
        have early := World.begetting_evolves isClass (evolves_of_run first).heap
        obtain ⟨members, ⟨⟩⟩ :=
          Machine.wrap_instance host early.1 early.2 notNone notPrimitive wraps
        have evolves := ((evolves_of_run first).trans (evolves_of_run wraps)).trans
          (evolves_of_run second)
        have isInstance := (World.begetting_evolves isClass evolves.heap).1
        refine .inl ⟨_, _, .inl ⟨_, _, first, wraps⟩, ?_⟩
        exact (Machine.run_bind_of_ok _ second).trans (run_constructed isInstance)

/-- The bridge's own registry has a proxy for the new instance. -/
theorem wraps_new_instance (isClass : world.heap.kind? p.handle = some (.type info))
    (notNone : info.isNone = false) (notPrimitive : info.isPrimitive = false)
    (standard : world.loader = .standard) (sound : world.heap.Sound) {value : Handle}
    {mid : World κ σ}
    (first : (runProgram (answer host (layers + 1)) world.heap.fresh.initiate).run
      (world.begetting p.handle) = some (.ok value, mid)) :
    ∃ members seen, (runProgram (answer host (layers + 2)) (Bridge.wrap world.heap.fresh)).run mid =
      some (.ok (.proxy (.mk world.heap.fresh info members)), seen) := by
  have moves := evolves_of_run first
  obtain ⟨isInstance, stays⟩ := World.begetting_evolves isClass moves.heap
  have born : (world.begetting p.handle).heap.Sound :=
    Heap.sound_push sound ⟨info, isClass⟩ fun _ => rfl
  have keeps : (world.begetting p.handle).Moves Heap.KeepsSound mid :=
    Machine.evolves_runProgram (Machine.evolves_answer host (layers + 1)) _ _ _ _ first
  exact Machine.wrap_instance_standard host layers isInstance stays notNone notPrimitive
    (moves.loader.trans standard) (keeps.heap born)

end Outcome

/-! ### Methods that answer -/

/-- How a method of the host answers under its name on an instance. -/
structure Method.Works (host : Host κ σ) (method : Method κ) (made : Handle) (info : TypeInfo)
    (world : World κ σ) : Prop where
  /-- The receiver is wrapped to a proxy of the instance, always so by the bridge's own registry. -/
  receives : world.loader = .standard → world.heap.Sound → ∀ layers,
    ∃ members seen, (runProgram (answer host (layers + 2)) (Bridge.wrap made)).run world =
      some (.ok (.proxy (.mk made info members)), seen)
  /-- With handles as arguments, the method is called once, on a proxy of the instance and on the
  arguments wrapped in order, and its answer is marshalled or its error given. -/
  runs : ∀ layers hs receiver objects seen mid,
    (runProgram (answer host layers) (Bridge.wrap made)).run world = some (.ok receiver, seen) →
    (runProgram (answer host layers) (Bridge.wrapAll hs)).run seen = some (.ok objects, mid) →
    ∃ p : Proxy κ, receiver = .proxy p ∧ p.handle = made ∧
      (runProgram (answer host (layers + 1)) (made.getAttr method.name >>= fun bound =>
        bound.invoke (hs.map .handle))).run world =
      (runProgram (answer host layers) (method.call p objects) >>= fun result =>
        Exec.ofOp (Heap.marshal result.toArg)).run mid
  /-- With keyword arguments it is refused, whatever host code there is. -/
  refuses : ∀ args, (Arg.splitKeywords args).2 ≠ [] → ∃ error heap,
    (∀ (host : Host κ σ) layers,
      (runProgram (answer host (layers + 1)) (made.getAttr method.name >>= fun bound =>
        bound.invoke args)).run world = some (.error error, { world with heap := heap })) ∧
    ∀ handles mid named last,
      (Heap.marshalAll (Arg.splitKeywords args).1).run world.heap = .ok (handles, mid) →
      (Heap.marshalEntries (Arg.splitKeywords args).2).run mid = .ok (named, last) →
      (error, heap) = last.raise (.keywordsRefused method.name)

theorem Method.works_of_bound {host : Host κ σ} {method : Method κ} {made cls bound : Handle}
    {info : TypeInfo} {world : World κ σ}
    (isInstance : world.heap.kind? made = some (.instanceOf cls))
    (isClass : world.heap.kind? cls = some (.type info)) (notNone : info.isNone = false)
    (notPrimitive : info.isPrimitive = false)
    (named : world.heap.attribute? made method.name = some (.object bound))
    (isBound : world.heap.kind? bound = some (.hostMethod made method.toReceiverCallback)) :
    method.Works host made info world where
  receives standard sound layers :=
    Machine.wrap_instance_standard host layers isInstance isClass notNone notPrimitive standard
      sound
  runs layers hs receiver objects seen mid wraps wrapsAll := by
    cases layers with
    | zero => cases wraps
    | succ layers =>
        obtain ⟨members, rfl⟩ :=
          Machine.wrap_instance host isInstance isClass notNone notPrimitive wraps
        refine ⟨.mk made info members, rfl, rfl, ?_⟩
        rw [answer, Machine.tower, Machine.run_bind_of_ok _ (Machine.run_getAttr host _ named)]
        exact Machine.run_invoke_wrapped host _ isBound wraps wrapsAll
  refuses args keywords := by
    obtain ⟨error, heap, refused, reads⟩ := Machine.run_invoke_keywords isBound keywords
    refine ⟨error, heap, fun host layers => ?_, reads⟩
    rw [answer, Machine.tower, Machine.run_bind_of_ok _ (Machine.run_getAttr host _ named)]
    exact refused host _

/-- A name that is no fixed attribute of instances reads what was set on the instance. -/
theorem Heap.attribute?_of_ownAttribute? {heap : Heap κ} {made cls bound : Handle} {name : String}
    (isInstance : heap.kind? made = some (.instanceOf cls)) (free : name ≠ "__class__")
    (own : heap.ownAttribute? made name = some bound) :
    heap.attribute? made name = some (.object bound) := by
  obtain ⟨attributes, present⟩ := cell?_of_kind? isInstance
  rw [ownAttribute?_of_cell? present] at own
  refine attribute?_own present ?_ own
  unfold Kind.fixedAttribute?
  split
  all_goals first
    | rfl
    | simp_all

/-- Construction installs methods that work. It ends in one of its ways; with the bridge's own
registry it succeeds exactly if the initializer does, both when the class invokes it and when it is
invoked once more. Then there is a proxy of a new instance, on which the names of the host class are
bound to the last methods declared under them; nothing else has changed, and as long as a name
stays bound its method works. -/
theorem construct_installs {host : Host κ σ} {layers : Nat} {p : Proxy κ} {cls : HostClass κ}
    {info : TypeInfo} {world : World κ σ}
    (isClass : world.heap.kind? p.handle = some (.type info)) (notNone : info.isNone = false)
    (notPrimitive : info.isPrimitive = false)
    (free : ∀ method ∈ cls.methods, method.name ≠ "__class__") :
    let made := world.heap.fresh
    let construct := runProgram (answer host (layers + 2)) (p.construct cls)
    (∀ result after, construct.run world = some (result, after) ↔
      Construction host layers p cls world result after) ∧
    (world.loader = .standard → world.heap.Sound → ∀ value mid,
      (runProgram (answer host (layers + 1)) made.initiate).run (world.begetting p.handle) =
        some (.ok value, mid) →
      ∃ members seen, (runProgram (answer host (layers + 2)) (Bridge.wrap made)).run mid =
          some (.ok (.proxy (.mk made info members)), seen) ∧
        ∀ outcome late, (runProgram (answer host (layers + 2))
            (made.initiate >>= Bridge.wrap)).run seen = some (outcome, late) →
          construct.run world = some (outcome.map fun _ => .proxy (.mk made info members),
            if outcome.isOk then late.installing made cls.methods else late)) ∧
    ∀ object after, construct.run world = some (.ok object, after) →
      world.heap.cell? made = none ∧ ∃ members, ∃ late : World κ σ,
        object = .proxy (.mk made info members) ∧ after = late.installing made cls.methods ∧
        Heap.Installed made cls.methods late.heap after.heap ∧
        ∀ name method, Method.lastNamed cls.methods name = some method →
          ∃ bound, after.heap.attribute? made name = some (.object bound) ∧
            ∀ later : World κ σ, after.heap.Evolves later.heap →
              later.heap.attribute? made name = some (.object bound) →
                method.Works host made info later := by
  intro made construct
  have ways : ∀ result after, construct.run world = some (result, after) ↔
      Construction host layers p cls world result after :=
    fun result after => construct_iff isClass notNone notPrimitive
  refine ⟨ways, ?_, ?_⟩
  · intro standard sound value mid first
    obtain ⟨members, seen, wraps⟩ :=
      wraps_new_instance isClass notNone notPrimitive standard sound first
    refine ⟨members, seen, wraps, ?_⟩
    intro outcome late second
    cases outcome with
    | ok result => exact (ways _ _).mpr (.done first wraps second)
    | error error => exact (ways _ _).mpr (.refused first wraps second)
  · intro object after constructed
    refine ⟨Heap.cell?_fresh world.heap, ?_⟩
    cases (ways _ _).mp constructed with
    | @done _ _ _ _ _ late first wraps second =>
        have early := World.begetting_evolves isClass (evolves_of_run first).heap
        obtain ⟨members, ⟨⟩⟩ :=
          Machine.wrap_instance host early.1 early.2 notNone notPrimitive wraps
        have evolves := ((evolves_of_run first).trans (evolves_of_run wraps)).trans
          (evolves_of_run second)
        obtain ⟨isInstance, stays⟩ := World.begetting_evolves isClass evolves.heap
        obtain ⟨attributes, present⟩ := Heap.cell?_of_kind? isInstance
        have installed : Heap.Installed made cls.methods late.heap
            (late.installing made cls.methods).heap := Heap.installed_foldl present cls.methods
        refine ⟨members, late, rfl, rfl, installed, ?_⟩
        intro name method last
        obtain ⟨member, rfl⟩ := Method.mem_of_lastNamed last
        obtain ⟨bound, own, _, isBound⟩ := installed.bound _ method last
        have instanceAfter := installed.kind.trans isInstance
        have classAfter : (late.installing made cls.methods).heap.kind? p.handle =
            some (.type info) := by
          obtain ⟨_, there⟩ := Heap.cell?_of_kind? isClass
          obtain ⟨_, stillThere⟩ := Heap.cell?_of_kind? stays
          exact Heap.kind?_of_cell? (installed.others _ _ (Heap.ne_fresh_of_cell? there) stillThere)
        refine ⟨bound, Heap.attribute?_of_ownAttribute? instanceAfter (free method member) own, ?_⟩
        intro later evolved named
        exact method.works_of_bound (evolved.kind?_eq instanceAfter nofun)
          (evolved.kind?_eq classAfter nofun) notNone notPrimitive named
          (evolved.kind?_eq (Heap.kind?_of_cell? isBound) nofun)

/-- A host class that declares a name twice: the method that answers is the second. -/
theorem construct_installs_again :
    let p : Proxy Unit := .mk ⟨3⟩ ⟨"builtins", "type"⟩ []
    let first : Method Unit := ⟨"greet", .length⟩
    let other : Method Unit := ⟨"wave", .length⟩
    let again : Method Unit := ⟨"greet", .host ()⟩
    ∃ members bound after, (runProgram (answer Host.answeringNone 2)
        (p.construct ⟨"Greeter", [first, other, again]⟩)).run World.withContext =
          some (.ok (.proxy (.mk ⟨5⟩ ⟨"host", "Context"⟩ members)), after) ∧
      after.heap.attribute? ⟨5⟩ "greet" = some (.object bound) ∧
      again.Works Host.answeringNone ⟨5⟩ ⟨"host", "Context"⟩ after := by
  intro p first other again
  have isClass : World.withContext.heap.kind? ⟨3⟩ = some (.type ⟨"host", "Context"⟩) := rfl
  have constructing : ((runProgram (answer Host.answeringNone 2)
      (p.construct ⟨"Greeter", [first, other, again]⟩)).run World.withContext).any
        (·.1.isOk) = true := by decide +kernel
  obtain ⟨⟨answered, after⟩, finished, isOk⟩ := (Option.any_eq_true _ _).mp constructing
  cases answered with
  | error failure => cases isOk
  | ok object =>
      obtain ⟨_, _, constructed⟩ := @construct_installs Unit Unit Host.answeringNone 0 p
        ⟨"Greeter", [first, other, again]⟩ _ World.withContext isClass rfl rfl (by decide)
      obtain ⟨_, members, late, rfl, _, _, works⟩ := constructed object after finished
      obtain ⟨bound, named, answers⟩ := works "greet" again rfl
      exact ⟨members, bound, after, finished, named, answers after .refl named⟩

end Interop
