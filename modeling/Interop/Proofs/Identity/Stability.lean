import Interop.Proofs.Identity.Machine
import Interop.Proofs.Machine.Reachable
/-!
The types of proxies never go stale. A chronicle tells where a bridge has come to and every proxy
that it has produced on the way. Whatever is done next, the value of each keeps the type that the
proxy was wrapped with.
-/

set_option autoImplicit false

namespace Interop

open Machine (answer runProgram)

variable {κ σ : Type}

/-! ### Operations -/

/-- What a host does with a bridge. -/
inductive Bridge.Operation (κ σ : Type)
  | wrap (h : Handle)
  | importModule (name : String)
  | builtin (name : String)
  | globals
  | evaluate (source : Source κ)
  | get (p : Proxy κ) (name : String)
  | set (p : Proxy κ) (name : String) (value : Arg κ)
  | call (object : Object κ) (args : List (Object κ))
  | invoke (p : Proxy κ) (args : List (Arg κ))
  | callMethod (p : Proxy κ) (name : String) (args : List (Arg κ))
  | construct (p : Proxy κ) (cls : HostClass κ)
  | slice (p : Proxy κ) (start stop step : Option Int64)
  | length (p : Proxy κ)
  | display (p : Proxy κ)
  /-- A new iteration, with its first items. -/
  | iterate (p : Proxy κ) (limit : Nat)
  /-- One more item of an iteration. -/
  | next (iteration : Iteration)
  /-- Code in a scope, which answers whatever objects it has come to. -/
  | withScope (context : Proxy κ) (body : Object κ → Program κ σ (List (Object κ)))
  | withScopeObject (context : Proxy κ) (callback : Object κ)

/-- The objects among the items of an iteration. -/
def Iteration.objects (items : List (Except Error (Object κ))) : List (Object κ) :=
  items.filterMap Except.toOption

def ScopeOutcome.value? {α : Type} : ScopeOutcome α → Option α
  | .completed value => some value
  | _ => none

namespace Bridge.Operation

/-- The operation as a program that answers the objects that it comes to. -/
def program : Operation κ σ → Program κ σ (List (Object κ))
  | .wrap h => do return [← Bridge.wrap h]
  | .importModule name => do return [← Bridge.importModule name]
  | .builtin name => do return [← Bridge.builtin name]
  | .globals => do return [← Bridge.globals]
  | .evaluate source => do return [← Bridge.evaluate source]
  | .get p name => do return (← p.get name).toList
  | .set p name value => do
    let _ ← p.set name value
    return []
  | .call object args => do return [← object.call args]
  | .invoke p args => do return [← p.call args]
  | .callMethod p name args => do return [← p.callMethod name args]
  | .construct p cls => do return [← p.construct cls]
  | .slice p start stop step => do return [← p.slice start stop step]
  | .length p => do
    let _ ← p.length
    return []
  | .display p => do
    let _ ← p.display
    return []
  | .iterate p limit => do
    let iteration ← Iteration.start? p
    let items ← ExceptT.lift (iteration.items limit)
    return Iteration.objects items
  | .next iteration => do
    let (item, _) ← ExceptT.lift iteration.next
    return Iteration.objects item.toList
  | .withScope context body => do
    let outcome ← Interop.withScope context body
    return outcome.value?.getD []
  | .withScopeObject context callback => do
    let outcome ← Interop.withScopeObject context callback
    return outcome.value?.toList

/-- Whether an operation is given none but known proxies where it could answer them again, and where
it could make them part of the runtime. Code in a scope knows what the scope is entered with. -/
def Admissible (held : σ → Set (Proxy κ)) (known : Set (Proxy κ)) : Operation κ σ → Prop
  | .evaluate source => source.proxies ⊆ known
  | .get p _ => p.proxies ⊆ known
  | .set _ _ value => value.proxies ⊆ known
  | .call object args => object.proxies ∪ Object.proxiesAll args ⊆ known
  | .invoke _ args => Arg.proxiesAll args ⊆ known
  | .callMethod _ _ args => Arg.proxiesAll args ⊆ known
  | .withScope _ body =>
    ∀ object, (body object).Honest held Object.proxiesAll (known ∪ object.proxies)
  | .withScopeObject _ callback => callback.proxies ⊆ known
  | _ => True

variable {held : σ → Set (Proxy κ)} {known : Set (Proxy κ)}

theorem proxies_single (object : Object κ) : Object.proxiesAll [object] ⊆ object.proxies :=
  Set.union_subset subset_rfl (Set.empty_subset _)

theorem proxies_toList (object : Option (Object κ)) :
    Object.proxiesAll object.toList ⊆ ofOption object := by
  cases object with
  | none => exact subset_rfl
  | some object => exact proxies_single object

theorem proxies_objects (items : List (Except Error (Object κ))) :
    Object.proxiesAll (Iteration.objects items) ⊆ Iteration.ofItems items := by
  induction items with
  | nil => exact subset_rfl
  | cons item rest ih =>
      cases item with
      | ok object => exact Set.union_subset_union_right _ ih
      | error error => exact ih.trans Set.subset_union_right

theorem honest {op : Operation κ σ} (admissible : op.Admissible held known) :
    op.program.Honest held Object.proxiesAll known := by
  open Program in
  cases op with
  | wrap h => exact honest_give (Bridge.honest_wrap h) proxies_single
  | importModule name => exact honest_give (Bridge.honest_importModule name) proxies_single
  | builtin name => exact honest_give (Bridge.honest_builtin name) proxies_single
  | globals => exact honest_give Bridge.honest_globals proxies_single
  | evaluate source => exact honest_give (Bridge.honest_evaluate admissible) proxies_single
  | get p name => exact honest_give (p.honest_get admissible name) proxies_toList
  | set p name value => exact honest_give (p.honest_set name admissible) fun _ => subset_rfl
  | call object args =>
      have owns := Set.subset_union_left.trans admissible
      exact honest_give (Object.honest_call owns (Set.subset_union_right.trans admissible))
        proxies_single
  | invoke p args => exact honest_give (p.honest_call admissible) proxies_single
  | callMethod p name args => exact honest_give (p.honest_callMethod name admissible) proxies_single
  | construct p cls => exact honest_give (p.honest_construct cls) proxies_single
  | slice p start stop step => exact honest_give (p.honest_slice start stop step) proxies_single
  | length p => exact honest_give p.honest_length fun _ => subset_rfl
  | display p => exact honest_give p.honest_display fun _ => subset_rfl
  | iterate p limit =>
      refine honest_then (Iteration.honest_start? p) fun iteration => ?_
      exact honest_give (honest_lift (iteration.honest_items limit)) proxies_objects
  | next iteration =>
      refine honest_give (honest_lift iteration.honest_next) fun ⟨item, _⟩ => ?_
      match item with
      | none => exact subset_rfl
      | some (.ok object) => exact proxies_single object
      | some (.error error) => exact subset_rfl
  | withScope context body =>
      refine honest_give (honest_withScope context admissible) fun outcome => ?_
      cases outcome <;> exact subset_rfl
  | withScopeObject context callback =>
      refine honest_give (honest_withScopeObject context admissible) fun outcome => ?_
      cases outcome with
      | completed value => exact proxies_single value
      | _ => exact subset_rfl

end Bridge.Operation

/-! ### Chronicles -/

/-- The proxies that a world holds: those on its heap and in the host's state. -/
def World.proxies (held : σ → Set (Proxy κ)) (world : World κ σ) : Set (Proxy κ) :=
  world.heap.proxies ∪ held world.state

/-- Where a bridge has come to, and every proxy that it has produced on the way. -/
structure Chronicle (κ σ : Type) where
  world : World κ σ
  produced : Set (Proxy κ)

namespace Chronicle

/-- A fresh bridge, which has produced nothing. -/
def start (settings : Settings) (loader : Registry κ) (state : σ) : Chronicle κ σ where
  world := .start settings loader state
  produced := ∅

variable {host : Host κ σ} {held : σ → Set (Proxy κ)} {s t : Chronicle κ σ}

/-- Something is done with the bridge. Whatever proxies it brings, in its answer or into the world,
are produced from then on. -/
inductive Step (host : Host κ σ) (held : σ → Set (Proxy κ)) :
    Chronicle κ σ → Chronicle κ σ → Prop
  | register (s : Chronicle κ σ) (modules : OrderedMap Handle) :
      Step host held s { s with world := { s.world with modules := modules } }
  | operate {s : Chronicle κ σ} {op : Bridge.Operation κ σ} {layers : Nat}
      {result : Except Error (List (Object κ))} {after : World κ σ}
      (admissible : op.Admissible held s.produced)
      (finished : (runProgram (answer host layers) op.program).run s.world = some (result, after)) :
      Step host held s
        ⟨after, s.produced ∪ ofResult Object.proxiesAll result ∪ after.proxies held⟩
  | request {s : Chronicle κ σ} {request : Request κ σ} {layers : Nat} {reply : request.Reply}
      {after : World κ σ} (sends : request.proxies held ⊆ s.produced)
      (answered : answer host layers request s.world = some (reply, after)) :
      Step host held s ⟨after, s.produced ∪ request.replied held reply ∪ after.proxies held⟩

def Leads (host : Host κ σ) (held : σ → Set (Proxy κ)) : Chronicle κ σ → Chronicle κ σ → Prop :=
  Relation.ReflTransGen (Step host held)

/-- The world is genuine, and knows all proxies that were produced. -/
structure Genuine (held : σ → Set (Proxy κ)) (s : Chronicle κ σ) : Prop where
  world : s.world.Genuine held
  produced : s.produced ⊆ s.world.heap.known

theorem proxies_start (settings : Settings) (loader : Registry κ) (state : σ) :
    (World.start settings loader state).heap.proxies ⊆ ∅ := by
  have add : ∀ {heap : Heap κ} (kind : Kind κ), kind.proxies ⊆ ∅ → heap.proxies ⊆ ∅ →
      (heap.add kind).2.proxies ⊆ ∅ := by
    intro heap kind own bare
    have pushed : (heap.add kind).2.proxies ⊆ heap.proxies ∪ ∅ := Heap.proxies_push own
    exact pushed.trans (Set.union_subset bare subset_rfl)
  have function : ∀ {heap : Heap κ} (builtin : Builtin), heap.proxies ⊆ ∅ →
      (heap.add (.function builtin.name (.builtin builtin))).2.proxies ⊆ ∅ :=
    fun builtin => add _ subset_rfl
  have empty : (Heap.empty : Heap κ).proxies ⊆ ∅ := by
    rintro p ⟨h, kind, found, _⟩
    cases found
  have globals := add (.dict .empty) subset_rfl empty
  have functions := function .str (function .iter (function .type (function .slice
    (function .len globals))))
  exact add (.type ⟨"builtins", "object"⟩) subset_rfl functions

theorem genuine_start {state : σ} (nothing : held state = ∅) (settings : Settings)
    (loader : Registry κ) : (start settings loader state).Genuine held where
  world := {
    sound := World.sound_start settings loader state
    heap := (proxies_start settings loader state).trans (Set.empty_subset _)
    state := nothing.subset.trans (Set.empty_subset _) }
  produced := Set.empty_subset _

/-- What brings known proxies only leads from one genuine chronicle to another. -/
theorem Genuine.after {α : Type} {x : Run κ σ α} {needs : Set (Proxy κ)}
    {gives : α → Set (Proxy κ)} (keeps : x.Keeps held needs gives) (genuine : s.Genuine held)
    (given : needs ⊆ s.produced) {a : α} {after : World κ σ}
    (finished : x s.world = some (a, after)) :
    s.world.heap.Evolves after.heap ∧
      Genuine held ⟨after, s.produced ∪ gives a ∪ after.proxies held⟩ := by
  obtain ⟨evolves, isGenuine, known⟩ :=
    keeps s.world a after genuine.world (given.trans genuine.produced) finished
  refine ⟨evolves, isGenuine, Set.union_subset (Set.union_subset ?_ known) ?_⟩
  · exact genuine.produced.trans (evolves.known genuine.world.sound)
  · exact Set.union_subset isGenuine.heap isGenuine.state

theorem Step.genuine (honest : host.Honest held) (step : Step host held s t)
    (genuine : s.Genuine held) : s.world.heap.Evolves t.world.heap ∧ t.Genuine held := by
  cases step with
  | register modules =>
      exact ⟨.refl, ⟨genuine.world.sound, genuine.world.heap, genuine.world.state⟩,
        genuine.produced⟩
  | @operate op layers result after admissible finished =>
      obtain ⟨answers, wraps⟩ := Machine.faithful_answer honest layers
      have keeps := Machine.keeps_runProgram answers wraps (Bridge.Operation.honest admissible)
      exact genuine.after keeps subset_rfl finished
  | @request request layers reply after sends answered =>
      obtain ⟨answers, _⟩ := Machine.faithful_answer honest layers
      exact genuine.after (answers request) sends answered

theorem Leads.genuine (honest : host.Honest held) (leads : Leads host held s t)
    (genuine : s.Genuine held) : s.world.heap.Evolves t.world.heap ∧ t.Genuine held := by
  induction leads with
  | refl => exact ⟨.refl, genuine⟩
  | tail _ step ih =>
      obtain ⟨evolves, isGenuine⟩ := ih
      obtain ⟨more, last⟩ := step.genuine honest isGenuine
      exact ⟨evolves.trans more, last⟩

end Chronicle

/-! ### Types -/

/-- Types never go stale. Wherever a bridge over a fresh runtime comes to, the class of every
instance is a type, and every object of the runtime has a type that can be told and has the object's
own type name. A proxy that was produced over such an object is of no primitive type, and its value
has the proxy's type then and at every later time. -/
theorem types_stay {host : Host κ σ} {held : σ → Set (Proxy κ)} (honest : host.Honest held)
    {settings : Settings} {loader : Registry κ} {state : σ} (nothing : held state = ∅)
    {s later : Chronicle κ σ}
    (reached : (Chronicle.start settings loader state).Leads host held s)
    (goesOn : s.Leads host held later) :
    (∀ h cls, s.world.heap.kind? h = some (.instanceOf cls) → s.world.heap.IsType cls) ∧
    (∀ h kind layers, s.world.heap.kind? h = some kind →
      ∃ info after, (runProgram (answer host (layers + 1)) h.typeInfo).run s.world =
        some (.ok info, after) ∧ info.name = s.world.heap.typeName kind) ∧
    ∀ p ∈ s.produced, (s.world.heap.kind? p.handle).isSome = true →
      p.typeInfo.name ≠ "NoneType" ∧ p.typeInfo.name ∉ TypeInfo.primitiveNames ∧
      ∀ layers, ∃ after, (runProgram (answer host (layers + 1)) p.handle.typeInfo).run later.world =
        some (.ok p.typeInfo, after) := by
  obtain ⟨_, genuine⟩ := reached.genuine honest (Chronicle.genuine_start nothing settings loader)
  obtain ⟨evolves, isGenuine⟩ := goesOn.genuine honest genuine
  refine ⟨?_, ?_, ?_⟩
  · intro h cls found
    exact genuine.world.sound.hasClass found cls rfl
  · intro h kind layers found
    have classed := genuine.world.sound.hasClass found
    obtain ⟨after, finished, _⟩ :=
      (Machine.typeInfo_answers host (answer host layers) classed found).finishes
    exact ⟨_, after, finished, Heap.typeInfo_name _ kind⟩
  · intro p among isObject
    have knows := genuine.produced among
    refine ⟨fun isNone => ?_, fun isPrimitive => ?_, fun layers => ?_⟩
    · have notNone := knows.notNone
      unfold TypeInfo.isNone at notNone
      rw [isNone] at notNone
      cases notNone
    · have notPrimitive := knows.notPrimitive
      unfold TypeInfo.isPrimitive at notPrimitive
      rw [List.contains_iff_mem.mpr isPrimitive] at notPrimitive
      cases notPrimitive
    · obtain ⟨kind, found⟩ := Option.isSome_iff_exists.mp isObject
      obtain ⟨laterKind, laterFound, _⟩ := evolves.kind? found
      have classed := isGenuine.world.sound.hasClass laterFound
      obtain ⟨after, finished, _⟩ :=
        (Machine.typeInfo_answers host (answer host layers) classed laterFound).finishes
      rw [(evolves.knows genuine.world.sound knows).typeInfo laterKind laterFound] at finished
      exact ⟨after, finished⟩

theorem honest_answeringNone : Host.answeringNone.Honest fun _ => ∅ where
  function _ _ _ := .perform (Set.empty_subset _) fun _ => .done (Set.empty_subset _)
  callback _ _ := .done (Set.empty_subset _)
  method _ _ _ := .done (Set.empty_subset _)
  members _ _ := .done (Set.empty_subset _)

/-- An instance is wrapped, and then it and its class are given attributes with the names by which
types are told. -/
theorem types_stay_renamed :
    let host := Host.answeringNone
    let held : Unit → Set (Proxy Unit) := fun _ => ∅
    let start : Chronicle Unit Unit := .start {} .standard ()
    let p : Proxy Unit := .mk ⟨8⟩ ⟨"app", "Thing"⟩ []
    host.Honest held ∧ ∃ s later : Chronicle Unit Unit,
      start.Leads host held s ∧ p ∈ s.produced ∧ s.Leads host held later ∧
      (later.world.heap.object? ⟨7⟩).map (·.attributes.contains "__name__") = some true ∧
      (later.world.heap.object? ⟨8⟩).map (·.attributes.contains "__class__") = some true ∧
      ∃ after, (runProgram (answer host 1) p.handle.typeInfo).run later.world =
        some (.ok ⟨"app", "Thing"⟩, after) := by
  intro host held start p
  let text (heap : Heap Unit) (content : String) := heap.push (.object ⟨.string content, .empty⟩)
  let world (heap : Heap Unit) : World Unit Unit := { start.world with heap := heap }
  let first := start.world.heap.push (.object ⟨.type ⟨"app", "Thing"⟩, .empty⟩)
  let second := ((first.push (.object ⟨.instanceOf ⟨7⟩, .empty⟩)).push
    (.object ⟨.boundMethod ⟨8⟩ "__init__" .initializer, .empty⟩)).push (.object ⟨.none, .empty⟩)
  let third := text (text second "app") "Thing"
  let fourth := (text third "int").write ⟨8⟩
    (.object ⟨.instanceOf ⟨7⟩, .ofEntries [("__class__", ⟨13⟩)]⟩)
  let fifth := (text fourth "NoneType").write ⟨7⟩
    (.object ⟨.type ⟨"app", "Thing"⟩, .ofEntries [("__name__", ⟨14⟩)]⟩)
  have created : answer host 1 (.create (.type ⟨"app", "Thing"⟩ [])) start.world =
      some (⟨7⟩, world first) := rfl
  obtain ⟨made, makes, atMade⟩ : ∃ t : Chronicle Unit Unit, Chronicle.Step host held start t ∧
      t.world = world first := ⟨_, .request (Set.empty_subset _) created, rfl⟩
  have invoked : answer host 2 (.invoke ⟨7⟩ []) made.world = some (.ok ⟨8⟩, world second) := by
    rw [atMade]
    rfl
  obtain ⟨called, calls, atCalled⟩ : ∃ t : Chronicle Unit Unit, Chronicle.Step host held made t ∧
      t.world = world second := ⟨_, .request (Set.empty_subset _) invoked, rfl⟩
  have wrapped : (runProgram (answer host 1) (Bridge.Operation.wrap ⟨8⟩).program).run called.world =
      some (.ok [.proxy p], { world third with registryLoads := 1 }) := by
    rw [atCalled]
    rfl
  obtain ⟨s, wraps, atWrapped, among⟩ : ∃ t : Chronicle Unit Unit,
      Chronicle.Step host held called t ∧ t.world = { world third with registryLoads := 1 } ∧
      p ∈ t.produced :=
    ⟨_, .operate (show (Bridge.Operation.wrap _).Admissible held _ from trivial) wrapped, rfl,
      .inl (.inr (.inl p.mem_proxies))⟩
  have assigned : (runProgram (answer host 1)
      (Bridge.Operation.set p "__class__" (.string "int")).program).run s.world =
        some (.ok [], { world fourth with registryLoads := 1 }) := by
    rw [atWrapped]
    rfl
  obtain ⟨marked, marks, atMarked⟩ : ∃ t : Chronicle Unit Unit, Chronicle.Step host held s t ∧
      t.world = { world fourth with registryLoads := 1 } :=
    ⟨_, .operate (show (Bridge.Operation.set _ _ (.string _)).Admissible held _ from
      Set.empty_subset _) assigned, rfl⟩
  have renamed : answer host 1 (.setAttr ⟨7⟩ "__name__" (.string "NoneType")) marked.world =
      some (.ok, { world fifth with registryLoads := 1 }) := by
    rw [atMarked]
    rfl
  have early : start.Leads host held s :=
    ((Relation.ReflTransGen.single makes).tail calls).tail wraps
  obtain ⟨later, renames, atLater⟩ : ∃ t : Chronicle Unit Unit, Chronicle.Step host held marked t ∧
      t.world = { world fifth with registryLoads := 1 } :=
    ⟨_, .request (Set.empty_subset _) renamed, rfl⟩
  have late : s.Leads host held later := (Relation.ReflTransGen.single marks).tail renames
  obtain ⟨_, _, proxies⟩ := types_stay honest_answeringNone rfl early late
  obtain ⟨_, _, told⟩ := proxies p among (by rw [atWrapped]; rfl)
  refine ⟨honest_answeringNone, s, later, early, among, late, ?_, ?_, told 0⟩
  · rw [atLater]
    rfl
  · rw [atLater]
    rfl

end Interop
