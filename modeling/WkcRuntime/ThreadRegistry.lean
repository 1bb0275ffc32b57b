import WkcRuntime.ThreadRegistrySource

namespace WkcRuntime.ThreadRegistry

/-!
# Who is registered

`gList`, the threads and the lives of the objects are changed by different
statements of five operations.  They agree after each of them as long as every
`StartThread` that lists its object also gets its thread.  An object that was
listed without one is not taken out again: `StopThread`, and with it the
destructor, returns early on it, so its address outlives it.
-/

/-- The object is alive and has a thread to be stopped. -/
def State.joinable
    {Address : Type}
    (state : State Address)
    (this : Address) :
    Bool :=
  match state.objects this with
  | none => false
  | some object => object.joinable

/-- The registry lists the objects with a thread, each once, and no other. -/
structure Registered
    {Address : Type}
    (state : State Address) :
    Prop where
  nodup :
    state.gList.Nodup
  joinable :
    ∀ this, this ∈ state.gList ↔ state.joinable this = true
  alive :
    ∀ this, this ∈ state.gList → (state.objects this).isSome = true

/-- A `StartThread` of an object without a thread creates one. -/
def Creates
    {Address : Type}
    (state : State Address)
    (action : Action Address) :
    Prop :=
  ∀ this name,
    action = .startThread this name false →
    state.joinable this = true

section Registry

variable {Address : Type} [DecidableEq Address]

omit [DecidableEq Address] in
/-- An object with a thread is alive. -/
theorem isSome_of_joinable
    {state : State Address}
    {this : Address}
    (joinable : state.joinable this = true) :
    (state.objects this).isSome = true := by
  unfold State.joinable at joinable
  cases stored : state.objects this with
  | none =>
      simp [stored] at joinable
  | some object =>
      rfl

omit [DecidableEq Address] in
/-- Two of the three parts give the third. -/
theorem registered_of_joinable
    {state : State Address}
    (nodup : state.gList.Nodup)
    (joinable :
      ∀ this, this ∈ state.gList ↔ state.joinable this = true) :
    Registered state where
  nodup := nodup
  joinable := joinable
  alive := fun this listed =>
    isSome_of_joinable ((joinable this).mp listed)

/-- Writing an object decides whether it is joinable, and no other. -/
@[simp] theorem joinable_store
    (state : State Address)
    (this other : Address)
    (object : Object) :
    (state.store this object).joinable other =
      if other = this then object.joinable else state.joinable other := by
  unfold State.joinable State.store
  by_cases same : other = this
  · subst other
    simp
  · simp [same]

@[simp] theorem gList_store
    (state : State Address)
    (this : Address)
    (object : Object) :
    (state.store this object).gList = state.gList :=
  rfl

@[simp] theorem joinable_free
    (state : State Address)
    (this other : Address) :
    (state.free this).joinable other =
      if other = this then false else state.joinable other := by
  unfold State.joinable State.free
  by_cases same : other = this
  · subst other
    simp
  · simp [same]

omit [DecidableEq Address] in
/-- A live object is joinable when its member says so. -/
theorem joinable_of_objects
    {state : State Address}
    {this : Address}
    {object : Object}
    (stored : state.objects this = some object) :
    state.joinable this = object.joinable := by
  unfold State.joinable
  rw [stored]

/-- The second write to a new object replaces the first. -/
theorem store_listed
    (state : State Address)
    (this : Address)
    (first second : Object) :
    ((state.store this first).addThreadObj this).store this second =
      (state.store this second).addThreadObj this := by
  simp [State.store, State.addThreadObj]

/-- A write that leaves `m_thread` as it is keeps the registry. -/
theorem Registered.store
    {state : State Address}
    (registered : Registered state)
    {this : Address}
    {object : Object}
    (same : object.joinable = state.joinable this) :
    Registered (state.store this object) := by
  apply registered_of_joinable
  · exact registered.nodup
  intro other
  rw [joinable_store, gList_store, registered.joinable other]
  by_cases isThis : other = this
  · subst other
    rw [if_pos rfl, same]
  · rw [if_neg isThis]

/-- An object that gets its thread is listed with it. -/
theorem Registered.list
    {state : State Address}
    (registered : Registered state)
    {this : Address}
    {object : Object}
    (idle : state.joinable this = false)
    (runs : object.joinable = true) :
    Registered ((state.store this object).addThreadObj this) := by
  have unlisted : this ∉ state.gList := by
    rw [registered.joinable this, idle]
    exact Bool.false_ne_true
  apply registered_of_joinable
  · exact List.nodup_cons.mpr ⟨unlisted, registered.nodup⟩
  · intro other
    change other ∈ this :: state.gList ↔ _
    rw [List.mem_cons, registered.joinable other]
    change _ ↔ (state.store this object).joinable other = true
    rw [joinable_store]
    by_cases isThis : other = this
    · simp [isThis, runs]
    · simp [isThis]

/-- An object that gives its thread up is taken out of the list. -/
theorem Registered.unlist
    {state : State Address}
    (registered : Registered state)
    {this : Address}
    {object : Object}
    (idle : object.joinable = false) :
    Registered ((state.store this object).delThreadObj this) := by
  apply registered_of_joinable
  · exact registered.nodup.filter _
  · intro other
    change other ∈ state.gList.filter _ ↔
      (state.store this object).joinable other = true
    rw [List.mem_filter, registered.joinable other, joinable_store,
      decide_eq_true_eq]
    by_cases isThis : other = this
    · simp [isThis, idle]
    · simp [isThis]

/-- An object without a thread can go. -/
theorem Registered.free
    {state : State Address}
    (registered : Registered state)
    {this : Address}
    (idle : state.joinable this = false) :
    Registered (state.free this) := by
  apply registered_of_joinable
  · exact registered.nodup
  intro other
  change other ∈ state.gList ↔ _
  rw [registered.joinable other, joinable_free]
  by_cases isThis : other = this
  · subst other
    simp [idle]
  · rw [if_neg isThis]

/-- `StopThread` keeps the registry and leaves its object without a thread. -/
theorem Registered.stopThread
    {state next : State Address}
    (registered : Registered state)
    {this : Address}
    {isWaiting : Bool}
    (stopped : stopThread this isWaiting state = some next) :
    Registered next ∧ next.joinable this = false := by
  unfold ThreadRegistry.stopThread at stopped
  cases stored : state.objects this with
  | none =>
      simp [stored] at stopped
  | some object =>
      simp only [stored] at stopped
      by_cases runs : object.joinable = true
      · rw [if_pos runs, Option.some.injEq] at stopped
        subst next
        have idle :
            (if isWaiting then
                { object with stopRequested := true }.join
              else
                { object with stopRequested := true }.detach).joinable =
              false := by
          cases isWaiting <;> rfl
        refine ⟨registered.unlist idle, ?_⟩
        exact (joinable_store ..).trans ((if_pos rfl).trans idle)
      · rw [if_neg runs, Option.some.injEq] at stopped
        subst next
        refine ⟨registered, ?_⟩
        rw [joinable_of_objects stored]
        exact Bool.not_eq_true _ ▸ runs

/-- One element of the walk of `StopAllThreads` loses its thread. -/
theorem joinable_stopListed
    {state stopped : State Address}
    {pObj : Address}
    (passed : stopListed state pObj = some stopped)
    (other : Address) :
    stopped.joinable other = true ↔
      state.joinable other = true ∧ other ≠ pObj := by
  unfold stopListed at passed
  cases stored : state.objects pObj with
  | none =>
      simp [stored] at passed
  | some object =>
      have member := joinable_of_objects stored
      simp only [stored] at passed
      by_cases runs : object.joinable = true
      · rw [if_pos runs, Option.some.injEq] at passed
        subst stopped
        rw [joinable_store]
        by_cases same : other = pObj
        · simp [same, Object.join]
        · simp [same]
      · rw [if_neg runs, Option.some.injEq] at passed
        subst stopped
        have notSame :
            state.joinable other = true → other ≠ pObj := by
          rintro joinable rfl
          exact runs (member.symm.trans joinable)
        exact (and_iff_left_of_imp notSame).symm

/-- The walk stops every thread of the list and no other. -/
theorem joinable_foldlM_stopListed
    {listed : List Address}
    {state stopped : State Address}
    (walked : listed.foldlM stopListed state = some stopped)
    (other : Address) :
    stopped.joinable other = true ↔
      state.joinable other = true ∧ other ∉ listed := by
  induction listed generalizing state with
  | nil =>
      simp only [List.foldlM_nil, Option.pure_def,
        Option.some.injEq] at walked
      subst stopped
      simp
  | cons pObj rest inductionHypothesis =>
      simp only [List.foldlM_cons, Option.bind_eq_bind,
        Option.bind_eq_some_iff] at walked
      obtain ⟨middle, passed, later⟩ := walked
      rw [inductionHypothesis later, joinable_stopListed passed,
        List.mem_cons, not_or, and_assoc]

/-- `StopAllThreads` empties the registry and stops whoever was in it. -/
theorem Registered.stopAllThreads
    {state next : State Address}
    (registered : Registered state)
    (stopped : stopAllThreads state = some next) :
    Registered next := by
  unfold ThreadRegistry.stopAllThreads at stopped
  rw [Option.map_eq_some_iff] at stopped
  obtain ⟨walked, passed, rfl⟩ := stopped
  apply registered_of_joinable
  · exact List.nodup_nil
  · intro this
    change this ∈ [] ↔ walked.joinable this = true
    rw [joinable_foldlM_stopListed passed, registered.joinable this]
    simp

/-- A `StartThread` keeps the registry exactly when it gets its thread. -/
theorem Registered.startThread_iff
    {state next : State Address}
    (registered : Registered state)
    {this : Address}
    {name : Option String}
    {creates : Bool}
    (started : startThread this name creates state = some next) :
    Registered next ↔
      (creates = false → state.joinable this = true) := by
  unfold startThread at started
  cases stored : state.objects this with
  | none =>
      simp [stored] at started
  | some object =>
      have member := joinable_of_objects stored
      simp only [stored] at started
      by_cases runs : object.joinable = true
      · rw [if_pos runs, Option.some.injEq] at started
        subst next
        rw [member]
        exact iff_of_true registered (fun _ => runs)
      · have idle : state.joinable this = false := by
          rw [member]
          exact Bool.not_eq_true _ ▸ runs
        rw [if_neg runs] at started
        cases creates with
        | true =>
            simp only [↓reduceIte, Option.some.injEq] at started
            subst next
            rw [store_listed]
            apply iff_of_true
            · exact registered.list idle rfl
            · intro impossible
              cases impossible
        | false =>
            simp only [Bool.false_eq_true, ↓reduceIte,
              Option.some.injEq] at started
            subst next
            rw [idle]
            constructor
            · intro after _
              have listed := (after.joinable this).mp List.mem_cons_self
              change (state.store this _).joinable this = true at listed
              rw [joinable_store, if_pos rfl] at listed
              exact absurd listed runs
            · intro impossible
              exact absurd (impossible rfl) Bool.false_ne_true

/-- From an agreeing state a step keeps the agreement or misses a thread. -/
theorem Registered.step_iff
    {state next : State Address}
    {action : Action Address}
    (registered : Registered state)
    (stepped : step? state action = some next) :
    Registered next ↔ Creates state action := by
  have kept :
      (∀ this name, action ≠ .startThread this name false) →
      Registered next →
      (Registered next ↔ Creates state action) := by
    intro other after
    apply iff_of_true after
    intro this name isStart
    exact absurd isStart (other this name)
  cases action with
  | construct this =>
      apply kept (by simp)
      simp only [step?, construct] at stepped
      cases stored : state.objects this with
      | none =>
          simp only [stored, Option.some.injEq] at stepped
          subst next
          apply registered.store
          simp [State.joinable, stored, Object.construct]
      | some object =>
          simp [stored] at stepped
  | startThread this name creates =>
      simp only [step?] at stepped
      rw [registered.startThread_iff stepped]
      constructor
      · rintro gets _ _ ⟨⟩
        exact gets rfl
      · rintro gets rfl
        exact gets this name rfl
  | stopThread this isWaiting =>
      simp only [step?] at stepped
      exact kept (by simp) (registered.stopThread stepped).1
  | stopAllThreads =>
      simp only [step?] at stepped
      exact kept (by simp) (registered.stopAllThreads stepped)
  | destroy this =>
      apply kept (by simp)
      simp only [step?, destroy, Option.map_eq_some_iff] at stepped
      obtain ⟨stopped, passed, rfl⟩ := stepped
      obtain ⟨after, idle⟩ := registered.stopThread passed
      exact after.free idle

/-- The registry agrees in every run whose `StartThread`s get their threads. -/
theorem registered_of_creates
    {state : State Address}
    (reachable : machine.ReachableWhere Creates state) :
    Registered state := by
  apply reachable.invariant
  · rintro start rfl
    apply registered_of_joinable
    · exact List.nodup_nil
    · intro this
      simp [State.initial, State.joinable]
  · intro before after action registered creates stepped
    exact (registered.step_iff stepped).mpr creates

/--
`gList` holds each object with a thread once and nothing else, no destroyed
object in particular, in exactly the runs in which every `StartThread` of an
object without a thread creates one: such runs keep this after each operation,
and an operation loses it exactly when it breaks the condition.
-/
theorem registered_iff_creates :
    (∀ state : State Address,
      machine.ReachableWhere Creates state →
      Registered state) ∧
      ∀ (state next : State Address) (action : Action Address),
        machine.ReachableWhere Creates state →
        machine.step? state action = some next →
        (Registered next ↔ Creates state action) := by
  constructor
  · intro state reachable
    exact registered_of_creates reachable
  · intro state next action reachable stepped
    exact (registered_of_creates reachable).step_iff stepped

end Registry

instance
    {Address : Type}
    (state : State Address)
    (action : Action Address) :
    Decidable (Creates state action) :=
  match action with
  | .startThread this name false =>
      decidable_of_iff (state.joinable this = true)
        ⟨fun joinable _ _ same => by
          cases same
          exact joinable,
          fun creates => creates this name rfl⟩
  | .startThread _ _ true => isTrue fun _ _ impossible => by cases impossible
  | .construct _ => isTrue fun _ _ impossible => by cases impossible
  | .stopThread _ _ => isTrue fun _ _ impossible => by cases impossible
  | .stopAllThreads => isTrue fun _ _ impossible => by cases impossible
  | .destroy _ => isTrue fun _ _ impossible => by cases impossible

/-- Two objects, one stopped by its destructor and one started again. -/
theorem registered_iff_creates_restarted :
    ∃ state : State (Fin 2),
      state.gList = [1] ∧
        Registered state ∧
        ∀ next,
          machine.step? state (.startThread 0 none false) = some next →
          ¬ Registered next := by
  obtain ⟨state, reachable, listed⟩ :=
    Machine.ReachableWhere.exists_of_run
      machine
      Creates
      (State.initial : State (Fin 2))
      [
        .construct 0,
        .construct 1,
        .startThread 0 (some "first") true,
        .startThread 1 none true,
        .stopThread 1 false,
        .destroy 0,
        .startThread 1 none true,
        .construct 0
      ]
      (fun state =>
        decide (state.gList = [1]) &&
          !decide (Creates state (.startThread 0 none false)))
      rfl
      (by decide)
      (by decide)
  simp only [Bool.and_eq_true, decide_eq_true_eq, Bool.not_eq_true',
    decide_eq_false_iff_not] at listed
  refine ⟨state, listed.1, registered_iff_creates.1 state reachable, ?_⟩
  intro next stepped registered
  exact listed.2
    ((registered_iff_creates.2 state next _ reachable stepped).mp
      registered)

/-- A `StartThread` that throws, and the destructor behind it. -/
theorem throwingStart_dangles :
    ¬ ∀ state : State (Fin 1),
      machine.Reachable state →
      Registered state := by
  intro registered
  obtain ⟨state, reachable, dangling⟩ :=
    Machine.exists_reachable
      machine
      (State.initial : State (Fin 1))
      [
        .construct 0,
        .startThread 0 none false,
        .destroy 0
      ]
      (fun state =>
        decide (0 ∈ state.gList) && (state.objects 0).isNone)
      rfl
      (by decide)
  simp only [Bool.and_eq_true, decide_eq_true_eq,
    Option.isNone_iff_eq_none] at dangling
  have alive := (registered state reachable).alive 0 dangling.1
  simp [dangling.2] at alive

end WkcRuntime.ThreadRegistry
