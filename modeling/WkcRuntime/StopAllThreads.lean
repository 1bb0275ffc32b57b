import WkcRuntime.ThreadObjSource

namespace WkcRuntime.ThreadObj

/-!
# When `StopAllThreads` waits for a thread that waits for a message

`StopAllThreads` raises the flag of a thread and joins it, but sends nothing to
its queue.  A thread with a queue tests the flag only between two messages.  If
the flag is raised behind that test and the queue is empty, the thread blocks in
`select` and the join never ends; otherwise the thread has a message to take or
its test still ahead.
-/

section Waiting

variable {Id : Type}

/-- The thread is on its way into `select` on an empty queue. -/
def Object.Waiting (object : Object) : Prop :=
  object.threadType = .withQueue ∧
    object.queue.messages = [] ∧
      (object.worker = .select ∨
        (object.worker = .receive ∧ 0 < object.msgQueueFd))

instance (object : Object) : Decidable object.Waiting :=
  inferInstanceAs
    (Decidable
      (object.threadType = .withQueue ∧
        object.queue.messages = [] ∧
          (object.worker = .select ∨
            (object.worker = .receive ∧ 0 < object.msgQueueFd))))

/-- `StopAllThreads` joins a thread that is blocked on its empty queue. -/
def State.Deadlocked (state : State Id) : Prop :=
  ∃ pObj rest,
    state.manager = .join pObj rest ∧
      (state.object pObj).threadType = .withQueue ∧
      (state.object pObj).worker = .select ∧
      (state.object pObj).queue.messages = []

/-- The flag is not raised for a thread on its way into an empty queue. -/
def FindsAwake
    (state : State Id) :
    Action Id → Prop
  | .manager =>
      match state.manager with
      | .forEach (pObj :: _) =>
          (state.object pObj).joinable = true →
            ¬ (state.object pObj).Waiting
      | _ =>
          True
  | _ =>
      True

instance (state : State Id) (action : Action Id) :
    Decidable (FindsAwake state action) := by
  unfold FindsAwake
  split
  · split <;> infer_instance
  · infer_instance

/-- A thread that is joined knows that it has to stop, and does not wait. -/
def State.Progressing (state : State Id) : Prop :=
  ∀ pObj rest,
    state.manager = .join pObj rest →
    (state.object pObj).stopRequested = true ∧
      ¬ (state.object pObj).Waiting

/-- A thread that has to stop and does not wait goes on like that. -/
theorem Object.workerStep?_awake
    {object next : Object}
    {answer : Answer}
    (stops : object.stopRequested = true)
    (awake : ¬ object.Waiting)
    (stepped : object.workerStep? answer = some next) :
    next.stopRequested = true ∧ ¬ next.Waiting := by
  unfold Object.workerStep? at stepped
  cases stands : object.worker with
  | notStarted =>
      simp [stands] at stepped
  | function =>
      simp only [stands] at stepped
      split at stepped
      · cases stepped
        simp [Object.Waiting, stops]
      · cases stepped
        exact ⟨stops, awake⟩
  | testFlag =>
      simp only [stands, stops, ↓reduceIte, Option.some.injEq] at stepped
      subst next
      simp [Object.Waiting]
  | receive =>
      simp only [stands] at stepped
      split at stepped
      · cases stepped
        simp [Object.Waiting, stops]
      · rename_i opened
        cases stepped
        refine ⟨stops, ?_⟩
        rintro ⟨withQueue, empty, _⟩
        exact awake ⟨withQueue, empty,
          Or.inr ⟨stands, Int32.not_le.mp opened⟩⟩
  | select =>
      simp only [stands] at stepped
      split at stepped
      · cases stepped
        simp [Object.Waiting, stops]
      · cases stepped
        simp [Object.Waiting, stops]
      · split at stepped
        · cases stepped
        · cases stepped
          simp [Object.Waiting, stops]
  | mqReceive =>
      simp only [stands] at stepped
      split at stepped
      · cases stepped
        simp [Object.Waiting, stops]
      · split at stepped
        all_goals
          cases stepped
          simp [Object.Waiting, stops]
  | processMsg msgId =>
      simp only [stands] at stepped
      split at stepped
      all_goals
        cases stepped
        simp [Object.Waiting, stops]
  | sleep =>
      simp only [stands, Option.some.injEq] at stepped
      subst next
      simp [Object.Waiting, stops]
  | clear =>
      simp only [stands] at stepped
      split at stepped
      · cases stepped
        simp [Object.Waiting, stops]
      · split at stepped
        · cases stepped
          simp [Object.Waiting, stops]
        · cases stepped
          simp [Object.Waiting, stops]
  | finished =>
      simp [stands] at stepped

/-- A progressing state is not deadlocked. -/
theorem State.Progressing.not_deadlocked
    {state : State Id}
    (progressing : state.Progressing) :
    ¬ state.Deadlocked := by
  rintro ⟨pObj, rest, joins, withQueue, selects, empty⟩
  exact (progressing pObj rest joins).2
    ⟨withQueue, empty, Or.inl selects⟩

end Waiting

section Runs

variable {Id : Type} [DecidableEq Id]

/-- Every permitted step keeps the joined thread progressing. -/
theorem State.Progressing.step
    {state next : State Id}
    {action : Action Id}
    (progressing : state.Progressing)
    (awake : FindsAwake state action)
    (stepped : step? state action = some next) :
    next.Progressing := by
  cases action with
  | startThread id =>
      simp only [step?, Option.ite_none_right_eq_some,
        Option.some.injEq] at stepped
      obtain ⟨idle, rfl⟩ := stepped
      have stillIdle : (startThread state id).1.manager = .idle := by
        unfold startThread
        simp only
        split
        · split
          · exact idle
          · split <;> exact idle
        · split <;> exact idle
      intro pObj rest joins
      rw [stillIdle] at joins
      cases joins
  | send id msgId prio =>
      simp only [step?, Option.ite_none_right_eq_some,
        Option.some.injEq] at stepped
      obtain ⟨idle, rfl⟩ := stepped
      have stillIdle : (send state id msgId prio).manager = .idle := by
        unfold send
        simp only
        split <;> exact idle
      intro pObj rest joins
      rw [stillIdle] at joins
      cases joins
  | stopAllThreads =>
      simp only [step?, Option.ite_none_right_eq_some,
        Option.some.injEq] at stepped
      obtain ⟨_, rfl⟩ := stepped
      intro pObj rest joins
      cases joins
  | manager =>
      unfold step? managerStep? at stepped
      cases stands : state.manager with
      | idle =>
          simp [stands] at stepped
      | forEach remaining =>
          cases remaining with
          | nil =>
              simp only [stands, Option.some.injEq] at stepped
              subst next
              intro pObj rest joins
              cases joins
          | cons first remaining =>
              simp only [stands] at stepped
              split at stepped
              · rename_i joinable
                cases stepped
                simp only [FindsAwake, stands] at awake
                intro pObj rest joins
                cases joins
                simp only [State.setObject, Function.update_self]
                exact ⟨trivial, awake joinable⟩
              · cases stepped
                intro pObj rest joins
                cases joins
      | join first remaining =>
          simp only [stands] at stepped
          split at stepped
          · cases stepped
            intro pObj rest joins
            cases joins
          · cases stepped
  | worker id answer =>
      simp only [step?, Option.map_eq_some_iff] at stepped
      obtain ⟨object, stepped, rfl⟩ := stepped
      intro pObj rest joins
      obtain ⟨stops, notWaiting⟩ := progressing pObj rest joins
      by_cases same : pObj = id
      · subst id
        simp only [State.setObject, Function.update_self]
        exact Object.workerStep?_awake stops notWaiting stepped
      · simp only [State.setObject, Function.update_of_ne same]
        exact ⟨stops, notWaiting⟩

/-- A flag raised for a thread on its way into an empty queue deadlocks. -/
theorem exists_deadlocked_of_not_findsAwake
    {state next : State Id}
    {action : Action Id}
    (asleep : ¬ FindsAwake state action)
    (stepped : step? state action = some next) :
    ∃ actions final,
      machine.run? next actions = some final ∧ final.Deadlocked := by
  cases action with
  | startThread id => exact absurd trivial asleep
  | send id msgId prio => exact absurd trivial asleep
  | stopAllThreads => exact absurd trivial asleep
  | worker id answer => exact absurd trivial asleep
  | manager =>
      unfold step? managerStep? at stepped
      cases stands : state.manager with
      | idle =>
          simp [stands] at stepped
      | join pObj rest =>
          simp [FindsAwake, stands] at asleep
      | forEach remaining =>
          cases remaining with
          | nil =>
              simp [FindsAwake, stands] at asleep
          | cons pObj rest =>
              simp only [FindsAwake, stands, not_forall,
                not_not] at asleep
              obtain ⟨joinable, withQueue, empty, stops⟩ := asleep
              simp only [stands, joinable, ↓reduceIte,
                Option.some.injEq] at stepped
              subst next
              rcases stops with selects | ⟨receives, opened⟩
              · refine ⟨[], _, rfl, pObj, rest, rfl, ?_, ?_, ?_⟩
                · simp [State.setObject, withQueue]
                · simp [State.setObject, selects]
                · simp [State.setObject, empty]
              · have notClosed :
                    ¬ (state.object pObj).msgQueueFd ≤ 0 :=
                  Int32.not_le.mpr opened
                let raised : Object :=
                  { state.object pObj with stopRequested := true }
                let joining : State Id :=
                  { state.setObject pObj raised with
                    manager := .join pObj rest }
                refine ⟨[.worker pObj ⟨false, .failed, false⟩],
                  joining.setObject pObj
                    { raised with worker := .select },
                  ?_, pObj, rest, rfl, ?_, ?_, ?_⟩
                · simp [machine, step?, Object.workerStep?, joining,
                    raised, State.setObject, receives, notClosed, joinable]
                · simp [State.setObject, raised, withQueue]
                · simp [State.setObject]
                · simp [State.setObject, raised, empty]

/--
`StopAllThreads` cannot deadlock on a thread with a queue exactly as long as it
raises no flag of a thread that is on its way into `select` on an empty queue:
such runs never deadlock, and a flag raised otherwise leads to a deadlock.
-/
theorem not_deadlocked_iff_findsAwake
    {state : State Id}
    (reachable : machine.ReachableWhere FindsAwake state) :
    ¬ state.Deadlocked ∧
      ∀ next action,
        machine.step? state action = some next →
        ¬ FindsAwake state action →
        ∃ actions final,
          machine.run? next actions = some final ∧
            final.Deadlocked := by
  constructor
  · have progressing : state.Progressing := by
      apply reachable.invariant
      · rintro start ⟨_, idle, _⟩ pObj rest joins
        rw [idle] at joins
        cases joins
      · intro before after action progressing awake stepped
        exact progressing.step awake stepped
    exact progressing.not_deadlocked
  · intro next action stepped asleep
    exact exists_deadlocked_of_not_findsAwake asleep stepped

/-- A state with one object that has a queue. -/
def oneQueue : State Unit where
  object := fun _ => {
    threadType := .withQueue
    initialized := true
    msgQueueFd := 3
    queue := ⟨10, []⟩
    joinable := false
    stopRequested := true
    nrOfProcessedMsgs := 0
    worker := .notStarted }
  gList := []
  manager := .idle

/-- A thread with a message in its queue is stopped and joined. -/
theorem not_deadlocked_iff_findsAwake_queued :
    ∃ state : State Unit,
      machine.ReachableWhere FindsAwake state ∧
        (state.object ()).worker = .finished ∧
        ¬ state.Deadlocked := by
  obtain ⟨state, reachable, finished⟩ :=
    Machine.ReachableWhere.exists_of_run
      machine
      FindsAwake
      oneQueue
      [
        .startThread (),
        .worker () ⟨false, .readable, true⟩,
        .worker () ⟨false, .readable, true⟩,
        .send () 7 0,
        .stopAllThreads,
        .manager,
        .worker () ⟨false, .readable, true⟩,
        .worker () ⟨false, .readable, true⟩,
        .worker () ⟨false, .readable, true⟩,
        .worker () ⟨false, .readable, true⟩,
        .worker () ⟨false, .readable, true⟩
      ]
      (fun state =>
        decide ((state.object ()).worker = .finished))
      ⟨rfl, rfl, fun _ => ⟨rfl, rfl, rfl⟩⟩ (by decide) (by decide)
  exact ⟨state, reachable, of_decide_eq_true finished,
    (not_deadlocked_iff_findsAwake reachable).1⟩

/-- One idle thread with an empty queue is joined for ever. -/
theorem idleThread_deadlocks :
    ¬ ∀ state : State Unit,
      machine.Reachable state →
      ¬ state.Deadlocked := by
  intro neverDeadlocked
  obtain ⟨state, reachable, stuck⟩ :=
    Machine.exists_reachable
      machine
      oneQueue
      [
        .startThread (),
        .worker () ⟨false, .readable, true⟩,
        .worker () ⟨false, .readable, true⟩,
        .stopAllThreads,
        .manager
      ]
      (fun state =>
        decide (state.manager = .join () [] ∧
          (state.object ()).threadType = .withQueue ∧
          (state.object ()).worker = .select) &&
          (state.object ()).queue.messages.isEmpty)
      ⟨rfl, rfl, fun _ => ⟨rfl, rfl, rfl⟩⟩
      (by decide)
  obtain ⟨stands, empty⟩ := Bool.and_eq_true_iff.mp stuck
  obtain ⟨joins, withQueue, selects⟩ := of_decide_eq_true stands
  exact neverDeadlocked state reachable
    ⟨(), [], joins, withQueue, selects, List.isEmpty_iff.mp empty⟩

end Runs

end WkcRuntime.ThreadObj
