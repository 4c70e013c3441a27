import Interop.Proofs.Identity.Operations
/-!
Proxies that a heap knows. A heap knows a proxy if the type of its value is still the one that the
proxy was wrapped with, and it goes on knowing it whatever happens. A genuine world holds no other
proxies.
-/

set_option autoImplicit false

namespace Interop

variable {κ σ α β : Type}

/-! ### Heaps -/

/-- The proxies that an object of the runtime holds: those of a function of the host. -/
def Kind.proxies : Kind κ → Set (Proxy κ)
  | .callback code => code.proxies
  | .hostMethod _ code => code.proxies
  | _ => ∅

theorem Kind.proxies_of_not_isHostFunction {kind : Kind κ} (own : kind.isHostFunction = false) :
    kind.proxies = ∅ := by
  cases kind with
  | callback => cases own
  | hostMethod => cases own
  | _ => rfl

theorem Kind.Becomes.proxies {kind changed : Kind κ} (becomes : kind.Becomes changed) :
    changed.proxies = ∅ := by
  cases becomes <;> rfl

namespace Heap

variable {heap after : Heap κ} {h : Handle} {needs : Set (Proxy κ)}

def proxies (heap : Heap κ) : Set (Proxy κ) :=
  {p | ∃ h kind, heap.kind? h = some kind ∧ p ∈ kind.proxies}

/-- A proxy whose value is there, is no primitive one, and still has the type that it was wrapped
with if it is an object of the runtime. -/
structure Knows (heap : Heap κ) (p : Proxy κ) : Prop where
  there : (heap.cell? p.handle).isSome = true
  notNone : p.typeInfo.isNone = false
  notPrimitive : p.typeInfo.isPrimitive = false
  typeInfo : ∀ kind, heap.kind? p.handle = some kind → heap.typeInfo kind = p.typeInfo

def known (heap : Heap κ) : Set (Proxy κ) := {p | heap.Knows p}

/-- What an object of an evolved heap was before, if it was there. -/
theorem Evolves.kind?_before (evolves : heap.Evolves after) (there : (heap.cell? h).isSome = true)
    {later : Kind κ} (found : after.kind? h = some later) :
    ∃ kind, heap.kind? h = some kind ∧ kind.Turns later := by
  obtain ⟨cell, present⟩ := Option.isSome_iff_exists.mp there
  cases cell with
  | object object =>
      have isKind := kind?_of_cell? present
      obtain ⟨kind, foundKind, turns⟩ := evolves.kind? isKind
      cases found.symm.trans foundKind
      exact ⟨object.kind, isKind, turns⟩
  | stub stub =>
      obtain ⟨cell, foundCell, keeps⟩ := evolves.keepsNames present
      obtain ⟨attributes, foundObject⟩ := cell?_of_kind? found
      cases keeps
      cases foundCell.symm.trans foundObject

theorem Evolves.knows (evolves : heap.Evolves after) (sound : heap.Sound) {p : Proxy κ}
    (knows : heap.Knows p) : after.Knows p where
  there := by
    obtain ⟨cell, present⟩ := Option.isSome_iff_exists.mp knows.there
    obtain ⟨later, found, _⟩ := evolves.keepsNames present
    rw [found]
    rfl
  notNone := knows.notNone
  notPrimitive := knows.notPrimitive
  typeInfo := by
    intro later found
    obtain ⟨kind, isKind, turns⟩ := evolves.kind?_before knows.there found
    rw [evolves.typeInfo (sound.hasClass isKind) turns]
    exact knows.typeInfo kind isKind

theorem Evolves.known (evolves : heap.Evolves after) (sound : heap.Sound) :
    heap.known ⊆ after.known := fun _ knows => evolves.knows sound knows

/-- A heap evolves, stays sound, and comes to hold no other proxies than given ones. -/
structure Adds (needs : Set (Proxy κ)) (heap after : Heap κ) : Prop where
  evolves : heap.Evolves after
  sound : heap.Sound → after.Sound
  proxies : after.proxies ⊆ heap.proxies ∪ needs

theorem proxies_push {kind : Kind κ} {attributes : OrderedMap Handle}
    (within : kind.proxies ⊆ needs) :
    (heap.push (.object ⟨kind, attributes⟩)).proxies ⊆ heap.proxies ∪ needs := by
  rintro p ⟨h, own, found, among⟩
  obtain ⟨set, present⟩ := cell?_of_kind? found
  rw [cell?_push] at present
  split at present
  · cases present
    exact .inr (within among)
  · exact .inl ⟨h, own, kind?_of_cell? present, among⟩

theorem proxies_push_stub (stub : Stub κ) : (heap.push (.stub stub)).proxies ⊆ heap.proxies := by
  rintro p ⟨h, own, found, among⟩
  obtain ⟨set, present⟩ := cell?_of_kind? found
  rw [cell?_push] at present
  split at present
  · cases present
  · exact ⟨h, own, kind?_of_cell? present, among⟩

/-- A write adds no proxies if the object that is written holds none but those that were there. -/
theorem proxies_write {object : HeapObject κ} (within : object.kind.proxies ⊆ heap.proxies) :
    (heap.write h (.object object)).proxies ⊆ heap.proxies := by
  rintro p ⟨k, own, found, among⟩
  obtain ⟨set, present⟩ := cell?_of_kind? found
  rw [cell?_write] at present
  split at present
  · obtain ⟨_, _, same⟩ := Option.map_eq_some_iff.mp present
    cases same
    exact within among
  · exact ⟨k, own, kind?_of_cell? present, among⟩

theorem proxies_write_stub (stub : Stub κ) :
    (heap.write h (.stub stub)).proxies ⊆ heap.proxies := by
  rintro p ⟨k, own, found, among⟩
  obtain ⟨set, present⟩ := cell?_of_kind? found
  rw [cell?_write] at present
  split at present
  · obtain ⟨_, _, same⟩ := Option.map_eq_some_iff.mp present
    cases same
  · exact ⟨k, own, kind?_of_cell? present, among⟩

theorem adds_push {kind : Kind κ} {attributes : OrderedMap Handle}
    (admitted : heap.Admits (.object ⟨kind, attributes⟩))
    (accepted : NamesAccepted (.object ⟨kind, attributes⟩)) (within : kind.proxies ⊆ needs) :
    heap.Adds needs (heap.push (.object ⟨kind, attributes⟩)) where
  evolves := .single (.push admitted)
  sound sound := sound_push sound admitted accepted
  proxies := proxies_push within

instance (needs : Set (Proxy κ)) : Shifting (Adds needs : Heap κ → Heap κ → Prop) where
  refl heap := ⟨.refl, id, Set.subset_union_left⟩
  trans _ _ _ early late := by
    refine ⟨early.evolves.trans late.evolves, late.sound ∘ early.sound, ?_⟩
    exact late.proxies.trans (Set.union_subset early.proxies Set.subset_union_right)
  allocate heap cell admitted accepted own := by
    cases cell with
    | object object =>
        refine adds_push admitted accepted ?_
        rw [Kind.proxies_of_not_isHostFunction (Bool.eq_false_iff.mpr own)]
        exact Set.empty_subset _
    | stub stub =>
        exact ⟨.single (.push admitted), fun sound => sound_push sound admitted accepted,
          (proxies_push_stub stub).trans Set.subset_union_left⟩
  content found becomes := by
    have sound : KeepsSound _ _ := Renewing.content found becomes
    refine ⟨Renewing.content found becomes, sound, ?_⟩
    refine (proxies_write ?_).trans Set.subset_union_left
    rw [becomes.proxies]
    exact Set.empty_subset _
  named name value found accepts := by
    have sound : KeepsSound _ _ := Evolving.named name value found accepts
    refine ⟨Evolving.named name value found accepts, sound, ?_⟩
    refine (proxies_write ?_).trans Set.subset_union_left
    exact fun p among => ⟨_, _, kind?_of_cell? found, among⟩
  answered script found := by
    have sound : KeepsSound _ _ := Renewing.answered script found
    refine ⟨Renewing.answered script found, sound, ?_⟩
    exact (proxies_write_stub _).trans Set.subset_union_left

theorem Op.adds_alloc {kind : Kind κ} (classless : kind.isInstance = false)
    (within : kind.proxies ⊆ needs) : (alloc kind).Moves (Adds needs) := by
  intro heap h after finished
  cases finished
  refine adds_push (admits_object_iff.mpr ?_) (fun _ => rfl) within
  rintro cls rfl
  cases classless

mutual

theorem adds_marshal : (arg : Arg κ) → arg.proxies ⊆ needs → (marshal arg).Moves (Adds needs)
  | .none, _ | .bool _, _ | .int _, _ | .float _, _ | .string _, _ | .bytes _, _ =>
      Op.moves_allocPlain rfl
  | .big value, _ => by
      rw [marshal]
      cases word? value with
      | some small => exact Op.moves_allocPlain rfl
      | none => exact Op.moves_throw _
  | .list items, within => by
      rw [marshal]
      exact Op.moves_bind (adds_marshalAll items within) fun _ => Op.moves_allocPlain rfl
  | .dict entries, within => by
      rw [marshal]
      exact Op.moves_bind (adds_marshalEntries entries within) fun _ => Op.moves_allocPlain rfl
  | .keywords entries, within => by
      rw [marshal]
      exact Op.moves_bind (adds_marshalEntries entries within) fun _ => Op.moves_allocPlain rfl
  | .handle h, _ => Op.moves_pure h
  | .callback _, within => Op.adds_alloc rfl within

theorem adds_marshalAll : (args : List (Arg κ)) → Arg.proxiesAll args ⊆ needs →
    (marshalAll args).Moves (Adds needs)
  | [], _ => Op.moves_pure []
  | arg :: rest, within => by
      rw [marshalAll]
      exact Op.moves_bind (adds_marshal arg (Set.subset_union_left.trans within)) fun _ =>
        Op.moves_bind (adds_marshalAll rest (Set.subset_union_right.trans within)) fun _ =>
          Op.moves_pure _

theorem adds_marshalEntries : (entries : List (String × Arg κ)) →
    Arg.proxiesEntries entries ⊆ needs → (marshalEntries entries).Moves (Adds needs)
  | [], _ => Op.moves_pure []
  | (_, arg) :: rest, within => by
      rw [marshalEntries]
      exact Op.moves_bind (adds_marshal arg (Set.subset_union_left.trans within)) fun _ =>
        Op.moves_bind (adds_marshalEntries rest (Set.subset_union_right.trans within)) fun _ =>
          Op.moves_pure _

end

end Heap

/-! ### Worlds -/

/-- A world whose heap is sound, and where all proxies on the heap and in the host's state are
known. -/
structure World.Genuine (held : σ → Set (Proxy κ)) (world : World κ σ) : Prop where
  sound : world.heap.Sound
  heap : world.heap.proxies ⊆ world.heap.known
  state : held world.state ⊆ world.heap.known

variable {held : σ → Set (Proxy κ)} {needs more : Set (Proxy κ)} {gives : α → Set (Proxy κ)}
  {later : β → Set (Proxy κ)}

/-- From genuine worlds that know some proxies, a computation leads to genuine worlds, which know
what it gives. -/
def Run.Keeps (held : σ → Set (Proxy κ)) (needs : Set (Proxy κ)) (gives : α → Set (Proxy κ))
    (x : Run κ σ α) : Prop :=
  ∀ world a after, world.Genuine held → needs ⊆ world.heap.known → x world = some (a, after) →
    world.heap.Evolves after.heap ∧ after.Genuine held ∧ gives a ⊆ after.heap.known

theorem World.Genuine.adds {world : World κ σ} (genuine : world.Genuine held)
    (known : needs ⊆ world.heap.known) {heap : Heap κ} (adds : world.heap.Adds needs heap) :
    World.Genuine held { world with heap := heap } where
  sound := adds.sound genuine.sound
  heap := by
    have kept := adds.evolves.known genuine.sound
    exact adds.proxies.trans ((Set.union_subset genuine.heap known).trans kept)
  state := genuine.state.trans (adds.evolves.known genuine.sound)

namespace Run

variable {x : Run κ σ α} {f : α → Run κ σ β}

theorem Keeps.mono (keeps : x.Keeps held needs gives) (grows : needs ⊆ more) :
    x.Keeps held more gives :=
  fun world a after genuine known => keeps world a after genuine (grows.trans known)

theorem keeps_diverge : (diverge : Run κ σ α).Keeps held needs gives := by
  intro world a after genuine known finished
  cases finished

theorem keeps_pure {a : α} (given : gives a ⊆ needs) :
    (pure a : Run κ σ α).Keeps held needs gives := by
  intro world b after genuine known finished
  cases finished
  exact ⟨.refl, genuine, given.trans known⟩

theorem keeps_bind (first : x.Keeps held needs gives)
    (second : ∀ a, (f a).Keeps held (needs ∪ gives a) later) :
    (x >>= f).Keeps held needs later := by
  intro world b after genuine known finished
  obtain ⟨a, mid, early, late⟩ := bind_eq_some_iff.mp finished
  obtain ⟨evolves, isGenuine, given⟩ := first world a mid genuine known early
  have stillKnown := known.trans (evolves.known genuine.sound)
  obtain ⟨more, last⟩ := second a mid b after isGenuine (Set.union_subset stillKnown given) late
  exact ⟨evolves.trans more, last⟩

theorem keeps_get : (get : Run κ σ (World κ σ)).Keeps held needs fun _ => ∅ := by
  intro world a after genuine known finished
  cases finished
  exact ⟨.refl, genuine, Set.empty_subset _⟩

theorem keeps_readHeap (f : Heap κ → α) :
    (readHeap f : Run κ σ α).Keeps held needs fun _ => ∅ := by
  intro world a after genuine known finished
  cases finished
  exact ⟨.refl, genuine, Set.empty_subset _⟩

theorem keeps_onHeap {f : Heap κ → α × Heap κ}
    (adds : ∀ heap : Heap κ, heap.Adds needs (f heap).2) :
    (onHeap f : Run κ σ α).Keeps held needs fun _ => ∅ := by
  intro world a after genuine known finished
  cases finished
  exact ⟨(adds world.heap).evolves, genuine.adds known (adds world.heap), Set.empty_subset _⟩

theorem keeps_attempt {op : Heap.Op κ α} (adds : op.Moves (Heap.Adds needs)) :
    (attempt op : Run κ σ _).Keeps held needs fun _ => ∅ := by
  intro world result after genuine known finished
  rcases attempt_eq_some finished with ⟨a, heap, success, _, rfl⟩ | ⟨fault, _, _, rfl⟩
  · have added := adds world.heap a heap success
    exact ⟨added.evolves, genuine.adds known added, Set.empty_subset _⟩
  · have added : world.heap.Adds needs _ := Heap.along_raise world.heap fault
    exact ⟨added.evolves, genuine.adds known added, Set.empty_subset _⟩

theorem keeps_raise (fault : Fault) :
    (raise fault : Run κ σ Error).Keeps held needs fun _ => ∅ :=
  keeps_onHeap fun heap => Heap.along_raise heap fault

/-- After a part that gives no proxies, no more are known. -/
theorem keeps_then (first : x.Keeps held needs fun _ => ∅)
    (second : ∀ a, (f a).Keeps held needs later) : (x >>= f).Keeps held needs later :=
  keeps_bind first fun a => (second a).mono Set.subset_union_left

end Run

namespace Exec

/-- The same of a computation that may fail, where an error holds no proxy. -/
def Keeps (held : σ → Set (Proxy κ)) (needs : Set (Proxy κ)) (gives : α → Set (Proxy κ))
    (x : Exec κ σ α) : Prop := x.run.Keeps held needs (ofResult gives)

variable {x : Exec κ σ α} {f : α → Exec κ σ β}

theorem keeps_pure {a : α} (given : gives a ⊆ needs) :
    (pure a : Exec κ σ α).Keeps held needs gives := Run.keeps_pure given

theorem keeps_bind (first : x.Keeps held needs gives)
    (second : ∀ a, (f a).Keeps held (needs ∪ gives a) later) :
    (x >>= f).Keeps held needs later := by
  unfold Keeps
  rw [ExceptT.run_bind]
  refine Run.keeps_bind first fun result => ?_
  cases result with
  | ok a => exact second a
  | error error => exact Run.keeps_pure (Set.empty_subset _)

theorem keeps_then (first : x.Keeps held needs silent)
    (second : ∀ a, (f a).Keeps held needs later) : (x >>= f).Keeps held needs later :=
  keeps_bind first fun a => Run.Keeps.mono (second a) Set.subset_union_left

theorem keeps_tryCatch {recover : Error → Exec κ σ α} (first : x.Keeps held needs silent)
    (second : ∀ error, (recover error).Keeps held needs silent) :
    (tryCatch x recover).Keeps held needs silent := by
  unfold Keeps
  rw [ExceptT.run_tryCatch]
  refine Run.keeps_bind first fun result => ?_
  cases result with
  | ok a => exact Run.keeps_pure (Set.empty_subset _)
  | error error => exact Run.Keeps.mono (second error) Set.subset_union_left

theorem keeps_lift {x : Run κ σ α} (keeps : x.Keeps held needs fun _ => ∅) :
    Exec.Keeps held needs silent (ExceptT.lift x) := by
  unfold Keeps
  rw [ExceptT.run_lift, map_eq_pure_bind]
  exact Run.keeps_bind keeps fun a => Run.keeps_pure (Set.empty_subset _)

theorem keeps_ofOp {op : Heap.Op κ α} (adds : op.Moves (Heap.Adds needs)) :
    (ofOp op : Exec κ σ α).Keeps held needs silent := by
  intro world result after genuine known finished
  obtain ⟨evolves, isGenuine, _⟩ := Run.keeps_attempt adds world result after genuine known finished
  exact ⟨evolves, isGenuine, silent_subset result⟩

theorem keeps_fault (f : Fault) : (fault f : Exec κ σ α).Keeps held needs silent :=
  keeps_ofOp (Heap.Op.moves_throw f)

/-- What the runtime does of its own brings no proxies anywhere. -/
theorem closedWriting_keeps (held : σ → Set (Proxy κ)) :
    ClosedWriting (κ := κ) (σ := σ) fun _ x => x.Keeps held ∅ silent where
  pure _ := keeps_pure (Set.empty_subset _)
  bind := keeps_then
  tryCatch := keeps_tryCatch
  get := keeps_lift Run.keeps_get
  ofOp moves := keeps_ofOp (moves (Heap.Adds ∅))
  onHeap moves := keeps_lift (Run.keeps_onHeap fun heap => moves (Heap.Adds ∅) heap)

end Exec

end Interop
