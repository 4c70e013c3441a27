import Interop.Proofs.Machine.Alone
import Interop.Proofs.Machine.Reachable
import Interop.Proofs.Proxy.ReadAfterWrite
/-!
How long an attribute that was set stays. The sparing machine is the machine that stops where one
attribute of one value would be set: what runs on it runs on the machine in the same way, and leaves
that attribute as it is. So an accepted write can be observed until the next one.
-/

set_option autoImplicit false

namespace Interop

variable {κ σ α β : Type}

/-! ### The sparing machine -/

namespace Script.Scope

variable (scope : Scope κ σ) (h : Handle) (name : String)

/-- Assigns, but stops where the attribute `name` of `h` would be set. -/
def assignSparing (target : Expr) (value : Handle) : Exec κ σ Unit :=
  match target with
  | .attr target other => do
    let object ← scope.eval target
    if object = h ∧ other = name then ExceptT.lift Run.diverge
    else do
      let status ← ExceptT.lift (Run.onHeap (·.setAttr object other (.handle value)))
      accepted ("." ++ other) status
  | target => scope.assign target value

def stepSparing : Statement → Exec κ σ (Option Handle)
  | .expr expr => do return some (← scope.eval expr)
  | .assign target expr => do
    let value ← scope.eval expr
    scope.assignSparing h name target value
    return none

def stepsSparing : Option Handle → List Statement → Exec κ σ (Option Handle)
  | last, [] => return last
  | _, statement :: rest => do stepsSparing (← scope.stepSparing h name statement) rest

def execSparing (source : String) : Exec κ σ Handle := do
  match parseSource source with
  | .error fault => Exec.fault (.source fault)
  | .ok statements =>
    match ← scope.stepsSparing h name none statements with
    | some value => return value
    | none => Exec.ofOp (Heap.Op.alloc .none)

end Script.Scope

namespace Machine

/-- One layer of the machine, which stops where the attribute `name` of `h` would be set. -/
def sparing (h : Handle) (name : String) (host : Host κ σ) (below : Handler κ σ) : Handler κ σ
  | .setAttr k other value =>
    if k = h ∧ other = name then Run.diverge else layer host below (.setAttr k other value)
  | .exec source globals locals =>
    let scope : Script.Scope κ σ :=
      { globals := globals
        locals := locals
        invoke := fun h args => ExceptT.mk (below (.invoke h args)) }
    (scope.execSparing h name source).run
  | request => layer host below request

def answerSparing (h : Handle) (name : String) (host : Host κ σ) (layers : Nat) : Handler κ σ :=
  tower (sparing h name host) layers

end Machine

/-! ### It goes the same as the machine -/

theorem Run.finishesAs_trans {x y z : Run κ σ α} (first : x.FinishesAs y)
    (second : y.FinishesAs z) : x.FinishesAs z :=
  fun world result finished => second world result (first world result finished)

theorem Run.finishesAs_diverge (x : Run κ σ α) : (Run.diverge : Run κ σ α).FinishesAs x := by
  intro world result finished
  cases finished

/-- Nothing comes after a computation that does not finish. -/
theorem Exec.finishesAs_diverge (x : Exec κ σ α) :
    (ExceptT.lift Run.diverge : Exec κ σ α).run.FinishesAs x.run := by
  intro world result finished
  cases finished

namespace Script

variable (scope : Scope κ σ) (h : Handle) (name : String)

theorem assignSparing_finishesAs (target : Expr) (value : Handle) :
    (scope.assignSparing h name target value).run.FinishesAs (scope.assign target value).run := by
  cases target with
  | attr target other =>
      apply Exec.finishesAs_bind_right
      intro object
      split
      · exact Exec.finishesAs_diverge _
      · exact Run.finishesAs_refl _
  | _ => exact Run.finishesAs_refl _

theorem stepSparing_finishesAs (statement : Statement) :
    (scope.stepSparing h name statement).run.FinishesAs (scope.step statement).run := by
  cases statement with
  | expr expr => exact Run.finishesAs_refl _
  | assign target expr =>
      apply Exec.finishesAs_bind_right
      intro value
      exact Exec.finishesAs_bind_left (assignSparing_finishesAs scope h name target value)

theorem stepsSparing_finishesAs (last : Option Handle) (statements : List Statement) :
    (scope.stepsSparing h name last statements).run.FinishesAs
      (scope.steps last statements).run := by
  induction statements generalizing last with
  | nil => exact Run.finishesAs_refl _
  | cons statement rest ih =>
      exact Exec.finishesAs_bind (stepSparing_finishesAs scope h name statement) fun next => ih next

theorem execSparing_finishesAs (source : String) :
    (scope.execSparing h name source).run.FinishesAs (scope.exec source).run := by
  unfold Scope.execSparing Scope.exec
  cases parseSource source with
  | error fault => exact Run.finishesAs_refl _
  | ok statements =>
      exact Exec.finishesAs_bind_left (stepsSparing_finishesAs scope h name none statements)

end Script

namespace Machine

/-- What the sparing machine answers, the machine answers in the same way. -/
theorem answerSparing_finishesAs (h : Handle) (name : String) (host : Host κ σ) (layers : Nat) :
    ∀ request, (answerSparing h name host layers request).FinishesAs
      (answer host layers request) := by
  induction layers with
  | zero => exact fun request => Run.finishesAs_refl _
  | succ layers ih =>
      intro request
      refine Run.finishesAs_trans (y := layer host (answerSparing h name host layers) request) ?_
        (finishesAs_layer ih request)
      cases request with
      | setAttr k other value =>
          change Run.FinishesAs (if k = h ∧ other = name then _ else _) _
          split
          · exact Run.finishesAs_diverge _
          · exact Run.finishesAs_refl _
      | exec source globals locals => exact Script.execSparing_finishesAs _ h name source
      | _ => exact Run.finishesAs_refl _

end Machine

/-! ### It leaves the attribute as it is -/

/-- An object keeps what it answers to a name before its class is looked at. -/
def Heap.Spares (h : Handle) (name : String) (heap after : Heap κ) : Prop :=
  ∀ object, heap.cell? h = some (.object object) →
    ∃ later, after.cell? h = some (.object later) ∧
      later.kind.fixedAttribute? name = object.kind.fixedAttribute? name ∧
      later.attributes.get? name = object.attributes.get? name

namespace Heap

variable {h : Handle} {name : String}

/-- A write spares a name if the cell that is written keeps it. -/
theorem spares_write {heap : Heap κ} {k : Handle} {old new : Cell κ}
    (found : heap.cell? k = some old)
    (keeps : k = h → ∀ object, old = .object object → ∃ later, new = .object later ∧
      later.kind.fixedAttribute? name = object.kind.fixedAttribute? name ∧
      later.attributes.get? name = object.attributes.get? name) :
    Spares h name heap (heap.write k new) := by
  intro object present
  by_cases same : k = h
  · subst same
    obtain ⟨later, rfl, kept⟩ := keeps rfl object (Option.some.inj (found.symm.trans present))
    exact ⟨later, cell?_write_self found _, kept⟩
  · exact ⟨object, (cell?_write_of_ne (Ne.symm same) new).trans present, rfl, rfl⟩

instance : Renewing (Spares h name : Heap κ → Heap κ → Prop) where
  refl heap object found := ⟨object, found, rfl, rfl⟩
  trans first second third early late object found := by
    obtain ⟨mid, present, fixed, set⟩ := early object found
    obtain ⟨last, present, fixed', set'⟩ := late mid present
    exact ⟨last, present, fixed'.trans fixed, set'.trans set⟩
  push heap cell _ _ object found := ⟨object, cell?_push_of_found found cell, rfl, rfl⟩
  content found becomes := by
    apply spares_write found
    rintro _ object ⟨⟩
    exact ⟨_, rfl, becomes.fixedAttribute? name, rfl⟩
  answered script found := by
    apply spares_write found
    rintro _ object ⟨⟩

/-- Setting another attribute, or one of another value, spares the attribute. -/
theorem spares_setAttr {k : Handle} {other : String} (different : ¬(k = h ∧ other = name))
    (heap : Heap κ) (value : Arg κ) : Spares h name heap (heap.setAttr k other value).2 := by
  apply along_setAttr (moves_marshal value)
  intro heap object stored found _
  apply spares_write found
  rintro same object ⟨⟩
  have otherName : other ≠ name := fun equal => different ⟨same, equal⟩
  exact ⟨_, rfl, rfl, by rw [OrderedMap.get?_insert, if_neg otherName]⟩

end Heap

namespace Script

variable {scope : Scope κ σ} {h : Handle} {name : String}

theorem spares_assignSparing (moves : scope.Moves (Heap.Spares h name)) (target : Expr)
    (value : Handle) :
    Run.Moves (Heap.Spares h name) (scope.assignSparing h name target value).run := by
  have closed := Exec.closed_moves (κ := κ) (σ := σ) (Heap.Spares h name)
  have evaluated := good_eval closed fun k args _ => moves k args
  have setItem : ∀ (k : Handle) (key : Arg κ), Run.Moves (Heap.Spares h name)
      (Run.onHeap (·.setItem k key (.handle value)) : Run κ σ Status) :=
    fun k key => Run.moves_onHeap fun heap => Heap.evolves_setItem heap k key _
  cases target with
  | name other =>
      exact closed.bind (Exec.moves_lift (setItem _ _)) fun status => good_accepted closed _ status
  | attr target other =>
      apply Exec.moves_bind (evaluated target)
      intro object
      split
      · exact Exec.moves_lift Run.moves_diverge
      · rename_i different
        refine Exec.moves_bind (Exec.moves_lift (Run.moves_onHeap fun heap => ?_)) fun status =>
          good_accepted closed _ status
        exact Heap.spares_setAttr different heap _
  | item target key =>
      exact closed.bind (evaluated target) fun object => closed.bind (evaluated key) fun k =>
        closed.bind (Exec.moves_lift (setItem _ _)) fun status => good_accepted closed _ status
  | _ => exact good_fault closed (.source .invalidTarget)

theorem spares_stepSparing (moves : scope.Moves (Heap.Spares h name)) (statement : Statement) :
    Run.Moves (Heap.Spares h name) (scope.stepSparing h name statement).run := by
  have closed := Exec.closed_moves (κ := κ) (σ := σ) (Heap.Spares h name)
  have evaluated := good_eval closed fun k args _ => moves k args
  cases statement with
  | expr expr => exact closed.bind (evaluated expr) fun _ => closed.pure _
  | assign target expr =>
      exact closed.bind (evaluated expr) fun value =>
        closed.bind (spares_assignSparing moves target value) fun _ => closed.pure _

theorem spares_stepsSparing (moves : scope.Moves (Heap.Spares h name)) (last : Option Handle)
    (statements : List Statement) :
    Run.Moves (Heap.Spares h name) (scope.stepsSparing h name last statements).run := by
  induction statements generalizing last with
  | nil => exact Exec.moves_pure last
  | cons statement rest ih =>
      exact Exec.moves_bind (spares_stepSparing moves statement) fun next => ih next

theorem spares_execSparing (moves : scope.Moves (Heap.Spares h name)) (source : String) :
    Run.Moves (Heap.Spares h name) (scope.execSparing h name source).run := by
  unfold Scope.execSparing
  split
  · exact Exec.moves_fault _
  · apply Exec.moves_bind (spares_stepsSparing moves none _)
    intro value
    split
    · exact Exec.moves_pure _
    · exact Exec.moves_ofOp (Heap.Op.moves_allocPlain rfl)

end Script

namespace Machine

variable {host : Host κ σ} {h : Handle} {name : String}

/-- What one layer of the sparing machine does to the attribute: nothing. -/
theorem spares_sparing {below : Handler κ σ}
    (answers : ∀ request, Run.Moves (Heap.Spares h name) (below request)) :
    ∀ request, Run.Moves (Heap.Spares h name) (sparing h name host below request) := by
  intro request
  cases request with
  | setAttr k other value =>
      change Run.Moves _ (if k = h ∧ other = name then _ else _)
      split
      · exact Run.moves_diverge
      · rename_i different
        exact Run.moves_onHeap fun heap => Heap.spares_setAttr different heap value
  | exec source globals locals =>
      exact Script.spares_execSparing (fun k args => answers (.invoke k args)) source
  | _ =>
      change Run.Moves _ (layer host below _)
      exact renews_layer answers rfl

theorem spares_answerSparing (host : Host κ σ) (layers : Nat) :
    ∀ request, Run.Moves (Heap.Spares h name) (answerSparing h name host layers request) :=
  moves_tower (fun _ answers => spares_sparing answers) layers

end Machine

/-! ### Until the next write -/

/-- The worlds that a bridge comes to while the attribute `name` of `h` is not set. -/
inductive World.LaterSparing (host : Host κ σ) (h : Handle) (name : String) (world : World κ σ) :
    World κ σ → Prop
  | start : LaterSparing host h name world world
  | register {later : World κ σ} (modules : OrderedMap Handle)
      (reached : LaterSparing host h name world later) :
      LaterSparing host h name world { later with modules := modules }
  | answer {later after : World κ σ} {layers : Nat} {request : Request κ σ} {reply : request.Reply}
      (reached : LaterSparing host h name world later)
      (answered : Machine.answerSparing h name host layers request later = some (reply, after)) :
      LaterSparing host h name world after

namespace World.LaterSparing

variable {host : Host κ σ} {h : Handle} {name : String} {world later : World κ σ}

theorem spares (reached : LaterSparing host h name world later) :
    Heap.Spares h name world.heap later.heap := by
  induction reached with
  | start => exact Std.Refl.refl world.heap
  | register modules _ ih => exact ih
  | answer _ answered ih =>
      exact IsTrans.trans _ _ _ ih (Machine.spares_answerSparing host _ _ _ _ _ answered).heap

/-- These worlds are among those that the bridge comes to anyway. -/
theorem reachable (reached : LaterSparing host h name world later)
    (start : world.Reachable host) : later.Reachable host := by
  induction reached with
  | start => exact start
  | register modules _ ih => exact ih.register modules
  | answer _ answered ih =>
      exact ih.answer (Machine.answerSparing_finishesAs h name host _ _ _ _ answered)

end World.LaterSparing

theorem Kind.AnswersFirst.isSome_fixedAttribute? {kind : Kind κ} {name : String}
    (first : kind.AnswersFirst name) : (kind.fixedAttribute? name).isSome = true := by
  unfold Kind.AnswersFirst at first
  split at first
  · rfl
  · rfl
  · rfl
  · rfl
  · rfl
  · cases first

namespace Heap

variable {heap : Heap κ} {h : Handle} {object : HeapObject κ} {name : String}

/-- A name that the kind of an object fixes reads the same whatever attributes are set. -/
theorem attribute?_fixed {fixed : Attribute κ} (found : heap.cell? h = some (.object object))
    (isFixed : object.kind.fixedAttribute? name = some fixed) :
    heap.attribute? h name = some fixed := by
  unfold attribute?
  rw [found]
  dsimp only
  rw [isFixed]
  rfl

/-- What an object answers to a name under which a value was stored, however the heap went on. -/
theorem attribute?_of_spares {after later : Heap κ} {stored : Handle} {value : Arg κ}
    (found : heap.cell? h = some (.object object))
    (written : after = (heap.setAttr h name value).2)
    (accepted : (heap.setAttr h name value).1.isOk = true)
    (marshalled : ∃ made, (marshal value).run heap = .ok (stored, made))
    (spares : Spares h name after later) :
    later.hasAttr h name = true ∧
      (¬ object.kind.AnswersFirst name → later.attribute? h name = some (.object stored)) ∧
      (object.kind.AnswersFirst name → later.attribute? h name = heap.attribute? h name) := by
  obtain ⟨made, marshalled⟩ := marshalled
  obtain ⟨accepts, _, _, again, isWritten⟩ := setAttr_of_isOk found accepted
  obtain ⟨rfl, rfl⟩ := Prod.mk.inj (Except.ok.inj (marshalled.symm.trans again))
  rw [written, isWritten] at spares
  have present := cell?_write_self (cell?_of_marshal marshalled found)
    (.object { object with attributes := object.attributes.insert name stored })
  obtain ⟨last, presentLast, fixed, set⟩ := spares _ present
  dsimp only at fixed set
  rw [OrderedMap.get?_insert, if_pos rfl] at set
  refine ⟨?_, ?_, ?_⟩
  · rw [hasAttr_object presentLast, set]
    exact .inr (.inl rfl)
  · intro notFirst
    rw [notFixed_of_acceptsAttributes accepts notFirst] at fixed
    exact attribute?_own presentLast fixed set
  · intro first
    obtain ⟨answer, isFixed⟩ := Option.isSome_iff_exists.mp first.isSome_fixedAttribute?
    rw [attribute?_fixed found isFixed, attribute?_fixed presentLast (fixed.trans isFixed)]

end Heap

namespace Machine

/-- An accepted write of an attribute can be observed until the next one: whatever the bridge does
meanwhile, the object has the attribute, and reading it gives the very object that was stored. A
name that the kind of object answers first goes on giving that answer. -/
theorem attribute_until_set {host : Host κ σ} {layers : Nat} {h : Handle} {name : String}
    {value : Arg κ} {status : Status} {world after : World κ σ} {object : HeapObject κ}
    (isObject : world.heap.object? h = some object)
    (answered : answer host layers (.setAttr h name value) world = some (status, after))
    (accepted : status.isOk = true) :
    ∃ stored made, (Heap.marshal value).run world.heap = .ok (stored, made) ∧
      (∀ k, value = .handle k → stored = k) ∧
      ∀ later, after.LaterSparing host h name later → ∀ depth,
        answer host (depth + 1) (.hasAttr h name) later = some (true, later) ∧
        (¬ object.kind.AnswersFirst name →
          answer host (depth + 1) (.getAttr h name) later = some (.ok stored, later)) ∧
        (object.kind.AnswersFirst name →
          later.heap.attribute? h name = world.heap.attribute? h name) := by
  cases layers with
  | zero => cases answered
  | succ layers =>
      obtain ⟨rfl, rfl⟩ := Prod.mk.inj (Option.some.inj answered)
      have found := Heap.cell?_of_object? isObject
      obtain ⟨_, stored, made, marshalled, _⟩ := Heap.setAttr_of_isOk found accepted
      refine ⟨stored, made, marshalled, ?_, ?_⟩
      · rintro k rfl
        cases marshalled
        rfl
      · intro later reached depth
        obtain ⟨has, own, first⟩ := Heap.attribute?_of_spares found rfl accepted ⟨made, marshalled⟩
          reached.spares
        refine ⟨?_, ?_, first⟩
        · change some (later.heap.hasAttr h name, later) = _
          rw [has]
        · intro notFirst
          exact Run.attempt_of_ok (Heap.getAttr_run (own notFirst))

/-- The size of an instance is still read after its color was set. -/
theorem attribute_until_set_size :
    let answering := answer Host.answeringNone 1
    ∃ after later stored,
      answering (.setAttr ⟨4⟩ "size" (.int 5)) World.withContext = some (.ok, after) ∧
      answering (.setAttr ⟨4⟩ "color" (.int 7)) after = some (.ok, later) ∧
      later.heap.kind? stored = some (.int 5) ∧
      answering (.getAttr ⟨4⟩ "size") later = some (.ok stored, later) := by
  intro answering
  obtain ⟨after, answered⟩ : ∃ after,
      answering (.setAttr ⟨4⟩ "size" (.int 5)) World.withContext = some (.ok, after) := ⟨_, rfl⟩
  obtain ⟨stored, made, marshalled, _, observed⟩ := attribute_until_set
    (show World.withContext.heap.object? ⟨4⟩ = some ⟨.instanceOf ⟨3⟩, .empty⟩ from rfl) answered rfl
  obtain ⟨later, went⟩ : ∃ later, answerSparing ⟨4⟩ "size" Host.answeringNone 1
      (.setAttr ⟨4⟩ "color" (.int 7)) after = some (.ok, later) := by
    cases answered
    exact ⟨_, rfl⟩
  have read := (observed later (.answer .start went) 0).2.1 id
  refine ⟨after, later, stored, answered, ?_, ?_, read⟩
  · exact answerSparing_finishesAs _ _ _ _ _ _ _ went
  · cases marshalled
    cases answered
    cases went
    rfl

/-- A class takes a new name, has it, and goes on answering the old one. -/
theorem not_attribute_until_set_className :
    let answering := answer Host.answeringNone 1
    ∃ world cls, World.Reachable Host.answeringNone world ∧
      world.heap.kind? cls = some (.type ⟨"shapes", "Square"⟩) ∧
      ∃ after made stored read last,
        (Heap.marshal (.string "Circle")).run world.heap = .ok (stored, made) ∧
        answering (.setAttr cls "__name__" (.string "Circle")) world = some (.ok, after) ∧
        answering (.getAttr cls "__name__") after = some (.ok read, last) ∧
        read ≠ stored ∧ last.heap.kind? stored = some (.string "Circle") ∧
        last.heap.kind? read = some (.string "Square") := by
  intro answering
  have start : World.Reachable Host.answeringNone (.start {} .standard ()) := .start _ _ _
  obtain ⟨cls, world, created, isClass⟩ : ∃ cls world,
      answering (.create (.type ⟨"shapes", "Square"⟩ [])) (.start {} .standard ()) =
        some (cls, world) ∧ world.heap.kind? cls = some (.type ⟨"shapes", "Square"⟩) :=
    ⟨_, _, rfl, rfl⟩
  refine ⟨world, cls, start.answer created, isClass, ?_⟩
  cases created
  exact ⟨_, _, _, _, _, rfl, rfl, rfl, by decide, rfl, rfl⟩

end Machine

end Interop
