import Interop.Proofs.Call.Body
import Interop.Proofs.Mapping.Writes
/-!
What a call delivers. The arguments of a call are sorted and marshalled before any code of the value
that is called. Its body then runs once, on its receiver and what was made of the arguments; if one
of them cannot be marshalled, or a host function is left with keywords, it does not run at all.
-/

set_option autoImplicit false

namespace Interop

variable {κ σ : Type}

/-! ### Sorting the arguments -/

namespace Arg

/-- The names of all keyword arguments, each where it stands first. -/
def keywordNames (args : List (Arg κ)) : List String :=
  Entries.firstKeys (args.flatMap keywordEntries)

/-- The value of a keyword argument in the last group that has it. -/
def lastKeyword? (args : List (Arg κ)) (name : String) : Option (Arg κ) :=
  args.reverse.findSome? fun arg => Entries.lastValue? arg.keywordEntries name

theorem keys_splitKeywords (args : List (Arg κ)) :
    Entries.keys (splitKeywords args).2 = keywordNames args :=
  Entries.keys_normalize (args.flatMap keywordEntries)

theorem get?_splitKeywords (args : List (Arg κ)) (name : String) :
    Entries.get? (splitKeywords args).2 name = lastKeyword? args name := by
  have spread : Entries.lastValue? (args.flatMap keywordEntries) name = lastKeyword? args name := by
    induction args with
    | nil => rfl
    | cons arg rest ih =>
        unfold lastKeyword? at ih ⊢
        rw [List.flatMap_cons, Entries.lastValue?_append, ih, List.reverse_cons,
          List.findSome?_append, List.findSome?_singleton]
  exact (Entries.get?_normalize (args.flatMap keywordEntries) name).trans spread

/-- Sorting goes part by part. The positional arguments of two parts follow each other, and the
keywords of the later part override those of the earlier one. -/
theorem splitKeywords_append (early late : List (Arg κ)) :
    splitKeywords (early ++ late) =
      ((splitKeywords early).1 ++ (splitKeywords late).1,
        Entries.merge (splitKeywords early).2 (splitKeywords late).2) := by
  unfold splitKeywords
  rw [List.filter_append, List.flatMap_append, Entries.normalize_append]

/-- Of two parts, the later one decides about a name that both have. -/
theorem get?_splitKeywords_append (early late : List (Arg κ)) (name : String) :
    Entries.get? (splitKeywords (early ++ late)).2 name =
      (Entries.get? (splitKeywords late).2 name).or (Entries.get? (splitKeywords early).2 name) := by
  rw [get?_splitKeywords, get?_splitKeywords, get?_splitKeywords]
  unfold lastKeyword?
  rw [List.reverse_append, List.findSome?_append]

/-- What holds of all merged keywords holds of the last value under every name. -/
theorem forall_keywords_iff {args : List (Arg κ)} {holds : Arg κ → Prop} :
    (∀ arg ∈ (splitKeywords args).2.map Prod.snd, holds arg) ↔
      ∀ name arg, lastKeyword? args name = some arg → holds arg := by
  have among (arg : Arg κ) : arg ∈ (splitKeywords args).2.map Prod.snd ↔
      ∃ name, Entries.get? (splitKeywords args).2 name = some arg :=
    OrderedMap.mem_values_iff (m := OrderedMap.ofEntries (args.flatMap keywordEntries))
  constructor
  · intro each name arg last
    refine each arg ((among arg).mpr ⟨name, ?_⟩)
    rw [get?_splitKeywords, last]
  · intro each arg member
    obtain ⟨name, found⟩ := (among arg).mp member
    rw [get?_splitKeywords] at found
    exact each name arg found

/-- An argument that can be marshalled, on any heap. -/
def Marshals (arg : Arg κ) : Prop := ∀ heap, ∃ h made, (Heap.marshal arg).run heap = .ok (h, made)

/-- Every positional argument and, for every keyword, its last value can be marshalled. -/
structure Deliverable (args : List (Arg κ)) : Prop where
  positional : ∀ arg ∈ args.filter isPositional, arg.Marshals
  keywords : ∀ name arg, lastKeyword? args name = some arg → arg.Marshals

/-- The first integer, in the order of marshalling, that no word holds. -/
def tooLarge? (args : List (Arg κ)) : Option Int :=
  (bigsAll (splitKeywords args).1 ++ bigsEntries (splitKeywords args).2).find?
    fun n => ¬ FitsWord n

theorem find?_unfit_eq_none_iff {numbers : List Int} :
    (numbers.find? fun n => ¬ FitsWord n) = Option.none ↔ ∀ n ∈ numbers, FitsWord n := by
  simp [List.find?_eq_none]

theorem marshals_iff {arg : Arg κ} : arg.Marshals ↔ ∀ n ∈ arg.bigs, FitsWord n :=
  ⟨fun marshals => (Heap.marshal_eq_ok_iff arg ⟨#[]⟩).mp (marshals _),
    fun fits heap => (Heap.marshal_eq_ok_iff arg heap).mpr fits⟩

theorem forall_marshals_iff {args : List (Arg κ)} :
    (∀ arg ∈ args, arg.Marshals) ↔ ∀ n ∈ bigsAll args, FitsWord n := by
  induction args with
  | nil => exact iff_of_true (List.forall_mem_nil _) (List.forall_mem_nil _)
  | cons arg rest ih =>
      rw [List.forall_mem_cons, marshals_iff, ih, bigsAll, List.forall_mem_append]

theorem bigsEntries_eq (entries : Entries (Arg κ)) :
    bigsEntries entries = bigsAll (entries.map Prod.snd) := by
  induction entries with
  | nil => rfl
  | cons entry rest ih => rw [bigsEntries, List.map_cons, bigsAll, ih]

theorem deliverable_iff {args : List (Arg κ)} :
    Deliverable args ↔ tooLarge? args = Option.none := by
  rw [tooLarge?, find?_unfit_eq_none_iff, List.forall_mem_append, bigsEntries_eq,
    ← forall_marshals_iff, ← forall_marshals_iff, forall_keywords_iff]
  constructor
  · rintro ⟨positional, named⟩
    exact ⟨positional, named⟩
  · rintro ⟨positional, named⟩
    exact ⟨positional, named⟩

end Arg

/-! ### Marshalling them -/

/-- Where values are related in order, they are related under every key. -/
theorem Entries.rel_get?_zip {α β : Type} {relation : α → β → Prop} {entries : Entries α}
    {values : List β} (related : List.Forall₂ relation (entries.map Prod.snd) values)
    (key : String) :
    Option.Rel relation (entries.get? key) (get? (entries.keys.zip values) key) := by
  induction entries generalizing values with
  | nil => exact .none
  | cons entry rest ih =>
      obtain ⟨k, first⟩ := entry
      cases related with
      | cons here later =>
          rename_i value values
          change Option.Rel relation (if k = key then some first else get? rest key)
            (if k = key then some value else get? (keys rest |>.zip values) key)
          split
          · exact .some here
          · exact ih later

namespace Heap

/-- A handle is what marshalling an argument gave, at some moment between two heaps. -/
def Makes (heap made : Heap κ) (arg : Arg κ) (h : Handle) : Prop :=
  ∃ before after, heap.Extends before ∧ (marshal arg).run before = .ok (h, after) ∧
    after.Extends made

theorem Makes.widen {first heap made last : Heap κ} {arg : Arg κ} {h : Handle}
    (makes : heap.Makes made arg h) (early : first.Extends heap) (late : made.Extends last) :
    first.Makes last arg h := by
  obtain ⟨before, after, later, marshalled, kept⟩ := makes
  exact ⟨before, after, early.trans later, marshalled, kept.trans late⟩

/-- A handle stands for itself. -/
theorem Makes.eq_of_handle {heap made : Heap κ} {h made? : Handle}
    (makes : heap.Makes made (.handle h) made?) : made? = h := by
  obtain ⟨before, after, _, marshalled, _⟩ := makes
  cases marshalled
  rfl

theorem Makes.widen_rel {first heap made last : Heap κ} {arg? : Option (Arg κ)}
    {h? : Option Handle} (related : Option.Rel (heap.Makes made) arg? h?)
    (early : first.Extends heap) (late : made.Extends last) :
    Option.Rel (first.Makes last) arg? h? := by
  cases related with
  | some makes => exact .some (makes.widen early late)
  | none => exact .none

theorem makes_marshalAll {args : List (Arg κ)} (marshals : ∀ arg ∈ args, arg.Marshals)
    (heap : Heap κ) : ∃ handles made, (marshalAll args).run heap = .ok (handles, made) ∧
      heap.Extends made ∧ List.Forall₂ (heap.Makes made) args handles := by
  induction args generalizing heap with
  | nil => exact ⟨[], heap, rfl, .refl heap, .nil⟩
  | cons arg rest ih =>
      obtain ⟨own, others⟩ := List.forall_mem_cons.mp marshals
      obtain ⟨h, mid, first⟩ := own heap
      have early : heap.Extends mid := moves_marshal arg heap h mid first
      obtain ⟨handles, made, more, late, related⟩ := ih others mid
      refine ⟨h :: handles, made, ?_, early.trans late, .cons ?_ ?_⟩
      · refine Op.bind_eq_ok_iff.mpr ⟨h, mid, first, ?_⟩
        exact Op.bind_eq_ok_iff.mpr ⟨handles, made, more, rfl⟩
      · exact ⟨heap, mid, .refl heap, first, late⟩
      · exact related.imp fun _ _ makes => makes.widen early (.refl made)

/-- Entries are marshalled as their values are. -/
theorem marshalEntries_eq (entries : Entries (Arg κ)) :
    marshalEntries entries =
      entries.keys.zip <$> marshalAll (entries.map Prod.snd) := by
  induction entries with
  | nil => rfl
  | cons entry rest ih =>
      obtain ⟨key, arg⟩ := entry
      rw [marshalEntries, ih, List.map_cons, marshalAll]
      simp only [map_eq_pure_bind, bind_assoc, pure_bind]
      rfl

theorem makes_marshalEntries {entries : Entries (Arg κ)}
    (marshals : ∀ arg ∈ entries.map Prod.snd, arg.Marshals) (heap : Heap κ) :
    ∃ named made, (marshalEntries entries).run heap = .ok (named, made) ∧ heap.Extends made ∧
      Entries.keys named = entries.keys ∧
      ∀ name, Option.Rel (heap.Makes made) (entries.get? name) (Entries.get? named name) := by
  obtain ⟨values, made, marshalled, kept, related⟩ := makes_marshalAll marshals heap
  have long : entries.keys.length ≤ values.length := by
    rw [← related.length_eq, Entries.keys, List.length_map, List.length_map]
  refine ⟨entries.keys.zip values, made, ?_, kept, List.map_fst_zip long, ?_⟩
  · rw [marshalEntries_eq, map_eq_pure_bind]
    exact Op.bind_eq_ok_iff.mpr ⟨values, made, marshalled, rfl⟩
  · exact Entries.rel_get?_zip related

/-- What a call has made of its arguments before the body runs. -/
structure Delivers (heap : Heap κ) (args : List (Arg κ)) (given : List Handle)
    (named : OrderedMap Handle) (made : Heap κ) : Prop where
  /-- All cells stay as they are. -/
  kept : heap.Extends made
  /-- The positional arguments come in their order. -/
  positional : List.Forall₂ (heap.Makes made) (args.filter Arg.isPositional) given
  names : named.keys = Arg.keywordNames args
  /-- A keyword has the value that was made of its last one. -/
  values : ∀ name, Option.Rel (heap.Makes made) (Arg.lastKeyword? args name) (named.get? name)

variable {args : List (Arg κ)}

theorem delivers_of_deliverable (deliverable : Arg.Deliverable args) (heap : Heap κ) :
    ∃ given mid named made,
      (marshalAll (Arg.splitKeywords args).1).run heap = .ok (given, mid) ∧
      (marshalEntries (Arg.splitKeywords args).2).run mid = .ok (named, made) ∧
      heap.Delivers args given (.ofEntries named) made := by
  obtain ⟨given, mid, marshalled, early, positional⟩ :=
    makes_marshalAll deliverable.positional heap
  have keywords := Arg.forall_keywords_iff.mpr deliverable.keywords
  obtain ⟨named, made, entered, late, keys, related⟩ := makes_marshalEntries keywords mid
  have names : Entries.keys named = Arg.keywordNames args :=
    keys.trans (Arg.keys_splitKeywords args)
  have entries : (OrderedMap.ofEntries named).entries = named := by
    apply OrderedMap.entries_ofEntries
    rw [keys]
    exact Entries.nodup_keys_merge List.nodup_nil
  refine ⟨given, mid, named, made, marshalled, entered, early.trans late, ?_, ?_, fun name => ?_⟩
  · exact positional.imp fun _ _ makes => makes.widen (.refl heap) late
  · rw [OrderedMap.keys, entries, names]
  · rw [OrderedMap.get?, entries, ← Arg.get?_splitKeywords]
    exact Makes.widen_rel (related name) early (.refl made)

/-- The positional arguments or the keywords are refused for the first integer that is too large. -/
theorem refused_of_tooLarge {n : Int} (tooLarge : Arg.tooLarge? args = some n) (heap : Heap κ) :
    (marshalAll (Arg.splitKeywords args).1).run heap = .error (.integerTooLarge n) ∨
      ∃ given mid, (marshalAll (Arg.splitKeywords args).1).run heap = .ok (given, mid) ∧
        heap.Extends mid ∧
        (marshalEntries (Arg.splitKeywords args).2).run mid = .error (.integerTooLarge n) := by
  rw [Arg.tooLarge?, List.find?_append] at tooLarge
  cases unfit : (Arg.bigsAll (Arg.splitKeywords args).1).find? fun n => ¬ FitsWord n with
  | some m =>
      rw [unfit, Option.some_or] at tooLarge
      cases tooLarge
      have outcome := refusesFirst_marshalAll (Arg.splitKeywords args).1 heap
      rw [unfit] at outcome
      exact .inl outcome
  | none =>
      rw [unfit, Option.none_or] at tooLarge
      have positional := Arg.forall_marshals_iff.mpr (Arg.find?_unfit_eq_none_iff.mp unfit)
      obtain ⟨given, mid, marshalled, kept, _⟩ := makes_marshalAll positional heap
      have outcome := refusesFirst_marshalEntries (Arg.splitKeywords args).2 mid
      rw [tooLarge] at outcome
      exact .inr ⟨given, mid, marshalled, kept, outcome⟩

end Heap

/-! ### Running the body -/

namespace Body

/-- The arguments can be delivered, and a host function is left without keywords. -/
structure Accepts (body : Body κ) (args : List (Arg κ)) : Prop where
  deliverable : Arg.Deliverable args
  keywords : ∀ function, body = hosted function → Arg.keywordNames args = []

/-- Why a body does not run. -/
inductive Refuses (body : Body κ) (args : List (Arg κ)) : Fault → Prop
  | argument (n : Int) (undeliverable : ¬ Arg.Deliverable args)
      (first : Arg.tooLarge? args = some n) : Refuses body args (.integerTooLarge n)
  | keywords (function : Callback κ) (isHosted : body = hosted function)
      (deliverable : Arg.Deliverable args) (left : Arg.keywordNames args ≠ []) :
      Refuses body args (.keywordsRefused function.name)

end Body

namespace Machine

variable {world : World κ σ} {h : Handle} {kind : Kind κ} {body : Body κ} {receiver : List Handle}

/-- An accepted call is a run of the body on what is delivered. -/
theorem run_invoke_of_accepts (found : world.heap.kind? h = some kind)
    (hasBody : kind.body? = some (body, receiver)) {args : List (Arg κ)}
    (accepts : body.Accepts args) :
    ∃ given named made, world.heap.Delivers args given named made ∧
      ∀ (host : Host κ σ) (below : Handler κ σ),
        (runProgram (layer host below) (h.invoke args)).run world =
          (body.run host below (receiver ++ given) named).run { world with heap := made } := by
  obtain ⟨given, mid, named, made, positional, keywords, delivers⟩ :=
    Heap.delivers_of_deliverable accepts.deliverable world.heap
  refine ⟨given, _, made, delivers, fun host below => ?_⟩
  have taken : ∀ function, body = .hosted function → (OrderedMap.ofEntries named).keys = [] :=
    fun function isHosted => delivers.names.trans (accepts.keywords function isHosted)
  rw [run_invoke_body host below found hasBody, Exec.run_ofOp_bind_of_ok positional,
    Exec.run_ofOp_bind_of_ok keywords, Body.enter_eq_run host below _ taken]

/-- A call that is not accepted fails, whatever the body would do. -/
theorem run_invoke_of_refuses (found : world.heap.kind? h = some kind)
    (hasBody : kind.body? = some (body, receiver)) {args : List (Arg κ)}
    (refuses : ¬ body.Accepts args) :
    ∃ fault mid, body.Refuses args fault ∧ world.heap.Extends mid ∧
      ∀ (host : Host κ σ) (below : Handler κ σ),
        (runProgram (layer host below) (h.invoke args)).run world =
          some (.error (mid.raise fault).1, { world with heap := (mid.raise fault).2 }) := by
  by_cases deliverable : Arg.Deliverable args
  · obtain ⟨given, mid, named, made, positional, keywords, delivers⟩ :=
      Heap.delivers_of_deliverable deliverable world.heap
    obtain ⟨function, rfl, left⟩ :
        ∃ function, body = .hosted function ∧ Arg.keywordNames args ≠ [] := by
      by_contra none
      push Not at none
      exact refuses ⟨deliverable, none⟩
    refine ⟨_, made, .keywords function rfl deliverable left, delivers.kept, fun host below => ?_⟩
    have named : (OrderedMap.ofEntries named).keys ≠ [] := delivers.names.trans_ne left
    rw [run_invoke_body host below found hasBody, Exec.run_ofOp_bind_of_ok positional,
      Exec.run_ofOp_bind_of_ok keywords, Body.enter_refused host below _ function named]
    rfl
  · obtain ⟨n, tooLarge⟩ := Option.ne_none_iff_exists'.mp (mt Arg.deliverable_iff.mpr deliverable)
    rcases Heap.refused_of_tooLarge tooLarge world.heap with
      failed | ⟨given, mid, positional, kept, failed⟩
    · refine ⟨_, world.heap, .argument n deliverable tooLarge, .refl world.heap,
        fun host below => ?_⟩
      rw [run_invoke_body host below found hasBody]
      exact Exec.run_ofOp_bind_of_error failed
    · refine ⟨_, mid, .argument n deliverable tooLarge, kept, fun host below => ?_⟩
      rw [run_invoke_body host below found hasBody, Exec.run_ofOp_bind_of_ok positional]
      exact Exec.run_ofOp_bind_of_error failed

end Machine

/-! ### Calls -/

open Machine

/-- A call of a function or method delivers its arguments. If all of them can be marshalled and no
host function is left with keywords, the call is one run of the body, on the receiver, the
positional arguments and the merged keywords, and its answer is wrapped; else the call fails, for
the stated reason, and the body has no part in it. -/
theorem Proxy.call_delivers {world : World κ σ} {p : Proxy κ} {kind : Kind κ} {body : Body κ}
    {receiver : List Handle} (found : world.heap.kind? p.handle = some kind)
    (hasBody : kind.body? = some (body, receiver)) (args : List (Arg κ)) :
    (body.Accepts args → ∃ given named made, world.heap.Delivers args given named made ∧
      ∀ (host : Host κ σ) (below : Handler κ σ),
        (runProgram (layer host below) (p.call args)).run world =
          (do
            let answer ← body.run host below (receiver ++ given) named
            runProgram (layer host below) (Bridge.wrap answer)).run { world with heap := made }) ∧
    (¬ body.Accepts args → ∃ fault mid, body.Refuses args fault ∧ world.heap.Extends mid ∧
      ∀ (host : Host κ σ) (below : Handler κ σ),
        (runProgram (layer host below) (p.call args)).run world =
          some (.error (mid.raise fault).1, { world with heap := (mid.raise fault).2 })) ∧
    ∀ early late : List (Arg κ),
      Arg.splitKeywords (early ++ late) =
        ((Arg.splitKeywords early).1 ++ (Arg.splitKeywords late).1,
          Entries.merge (Arg.splitKeywords early).2 (Arg.splitKeywords late).2) ∧
      ∀ name, Entries.get? (Arg.splitKeywords (early ++ late)).2 name =
        (Entries.get? (Arg.splitKeywords late).2 name).or
          (Entries.get? (Arg.splitKeywords early).2 name) := by
  refine ⟨fun accepts => ?_, fun refuses => ?_, fun early late => ⟨?_, fun name => ?_⟩⟩
  · obtain ⟨given, named, made, delivers, runs⟩ := run_invoke_of_accepts found hasBody accepts
    refine ⟨given, named, made, delivers, fun host below => ?_⟩
    unfold Proxy.call
    rw [runProgram_bind]
    exact Exec.run_bind_of_same (runs host below)
  · obtain ⟨fault, mid, refused, kept, fails⟩ := run_invoke_of_refuses found hasBody refuses
    refine ⟨fault, mid, refused, kept, fun host below => ?_⟩
    unfold Proxy.call
    rw [runProgram_bind]
    exact Exec.run_bind_of_error (fails host below)
  · exact Arg.splitKeywords_append early late
  · exact Arg.get?_splitKeywords_append early late name

/-- Two groups of keywords around a positional argument. A native function is given the value of the
later group under a name that both have; a host function is not called. -/
theorem Proxy.call_delivers_keywords :
    let start : World Unit Unit := .start {} .standard ()
    let first : Cell Unit := .object ⟨.function "native" (.host ()), .empty⟩
    let second : Cell Unit := .object ⟨.callback ⟨"hosted", .host ()⟩, .empty⟩
    let world := { start with heap := (start.heap.push first).push second }
    let args : List (Arg Unit) := [.keywords [("a", .int 1), ("b", .handle ⟨0⟩)], .handle ⟨1⟩,
      .keywords [("a", .handle ⟨2⟩)]]
    let native : Proxy Unit := .mk ⟨7⟩ ⟨"builtins", "function"⟩ []
    let hosted : Proxy Unit := .mk ⟨8⟩ ⟨"builtins", "function"⟩ []
    (∃ named : OrderedMap Handle, named.keys = ["a", "b"] ∧ named.get? "a" = some ⟨2⟩ ∧
      ∃ made, ∀ (host : Host Unit Unit) (below : Handler Unit Unit),
        (runProgram (layer host below) (native.call args)).run world =
          (do
            let answer ← runProgram below (host.function () [⟨1⟩] named)
            runProgram (layer host below) (Bridge.wrap answer)).run { world with heap := made }) ∧
    ∃ mid : Heap Unit, ∀ (host : Host Unit Unit) (below : Handler Unit Unit),
      (runProgram (layer host below) (hosted.call args)).run world =
        some (.error (mid.raise (.keywordsRefused "hosted")).1,
          { world with heap := (mid.raise (.keywordsRefused "hosted")).2 }) := by
  intro start first second world args native hosted
  have isNative : world.heap.kind? native.handle = some (.function "native" (.host ())) := rfl
  have isHosted : world.heap.kind? hosted.handle = some (.callback ⟨"hosted", .host ()⟩) := rfl
  have deliverable : Arg.Deliverable args := Arg.deliverable_iff.mpr (by rfl)
  have names : Arg.keywordNames args = ["a", "b"] := by decide
  constructor
  · have accepts : (Body.native (.host ()) : Body Unit).Accepts args := ⟨deliverable, nofun⟩
    obtain ⟨given, named, made, delivers, runs⟩ :=
      (Proxy.call_delivers (σ := Unit) isNative rfl args).1 accepts
    have positional : given = [⟨1⟩] := by
      have related : List.Forall₂ (world.heap.Makes made) [.handle ⟨1⟩] given := delivers.positional
      obtain ⟨h, rest, makes, others, rfl⟩ := List.forall₂_cons_left_iff.mp related
      cases others
      rw [makes.eq_of_handle]
    have later : named.get? "a" = some ⟨2⟩ := by
      have related : Option.Rel (world.heap.Makes made) (some (.handle ⟨2⟩)) (named.get? "a") :=
        delivers.values "a"
      cases value : named.get? "a" with
      | none =>
          rw [value] at related
          cases related
      | some h =>
          rw [value] at related
          cases related with
          | some makes => rw [makes.eq_of_handle]
    subst positional
    exact ⟨named, delivers.names.trans names, later, made, runs⟩
  · have refuses : ¬ (Body.hosted ⟨"hosted", .host ()⟩ : Body Unit).Accepts args :=
      fun accepts => absurd (names.symm.trans (accepts.keywords _ rfl)) (List.cons_ne_nil _ _)
    obtain ⟨fault, mid, refused, _, fails⟩ :=
      (Proxy.call_delivers (σ := Unit) isHosted rfl args).2.1 refuses
    cases refused with
    | argument n undeliverable => exact absurd deliverable undeliverable
    | keywords function same =>
        cases same
        exact ⟨mid, fails⟩

end Interop
