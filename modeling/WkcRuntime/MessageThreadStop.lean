import WkcRuntime.MessageThreadSource

namespace WkcRuntime.MessageThread

open MessageQueue
open ThreadObj (Select msgIdStopThread)

/-!
# Which workers a stop reaches

`StopThread` stops a worker twice: through the flag and through a message in its
queue.  The flag is reset by the next `StartThread`; the message is read by the
worker or drained behind its loop, as long as there is a worker.  A message that
was sent without one stays in the queue, and the worker of the next
`StartThread` takes it for its own stop.
-/

/-- The calls of one owner and the sends of messages that are not a stop. -/
def isLifecycle : Action → Bool
  | .sendMsg msgId _ _ =>
      decide (msgId ≠ msgIdStopThread)
  | .send .. | .destroy =>
      false
  | .init .. | .startThread | .stopThread | .owner _ | .worker _ =>
      true

/-- All sequences of these calls on one object, from its constructor on. -/
def lifecycle : Machine State Action :=
  machine (fun state => state = threadWithMsgQueue) isLifecycle

/-- A worker is created only where no stop is left in the queue. -/
def FindsNoStop (state : State) : Action → Prop
  | .startThread =>
      state.initialized = true → state.joinable = false →
        ∀ entry ∈ state.messages, entry.2.msgId ≠ msgIdStopThread
  | _ =>
      True

instance (state : State) :
    ∀ action, Decidable (FindsNoStop state action)
  | .startThread =>
      inferInstanceAs
        (Decidable
          (state.initialized = true → state.joinable = false →
            ∀ entry ∈ state.messages, entry.2.msgId ≠ msgIdStopThread))
  | .init .. | .stopThread | .destroy | .owner _ | .worker _
  | .sendMsg .. | .send .. =>
      .isTrue trivial

/-- The worker is in `LoopReadMsg`. -/
def Worker.inLoop : Worker → Bool
  | .testFlag | .receive | .select | .mqReceive | .processMsg _ | .sleep =>
      true
  | .notStarted | .clear | .finished =>
      false

/-- A worker without a message is in its loop. -/
theorem Worker.inLoop_of_isBare
    {worker : Worker}
    (bare : worker.isBare = true) :
    worker.inLoop = true := by
  cases worker <;> first | rfl | cases bare

/-- Nothing tells the worker to stop. -/
structure Unasked (state : State) : Prop where
  flag :
    state.stopRequested = false
  queue :
    ∀ entry ∈ state.messages, entry.2.msgId ≠ msgIdStopThread
  hand :
    ∀ msg, state.worker = .processMsg msg → msg.msgId ≠ msgIdStopThread

/-- A worker in its loop is told to stop only after a call of `StopThread`. -/
structure Meant (state : State) : Prop where
  asked :
    state.owner ≠ .idle → state.stopCalled = true
  unasked :
    state.stopCalled = false → state.worker.inLoop = true → Unasked state
  numbers :
    ∀ fd, state.kernel.descriptor fd ≠ none → 0 ≤ fd
  usable :
    state.msgQueueFd ≤ 0 → state.messages = []
  neverStray :
    state.strayStop = false

/-- A new object has neither a worker nor a queue. -/
theorem meant_threadWithMsgQueue : Meant threadWithMsgQueue where
  asked := fun busy => (busy rfl).elim
  unasked := fun _ looping => by cases looping
  numbers := fun _ opened => (opened rfl).elim
  usable := fun _ => rfl
  neverStray := rfl

namespace Meant

variable {state : State}

/-- The payloads and the counters do not matter here. -/
theorem frame
    (meant : Meant state)
    (nrOfProcessedMsgs : UInt32)
    (payloads : Nat)
    (accepted freed : List Nat) :
    Meant { state with nrOfProcessedMsgs, payloads, accepted, freed } where
  asked := meant.asked
  unasked := fun uncalled looping =>
    ⟨(meant.unasked uncalled looping).flag,
      (meant.unasked uncalled looping).queue,
      (meant.unasked uncalled looping).hand⟩
  numbers := meant.numbers
  usable := meant.usable
  neverStray := meant.neverStray

/-- Messages come only from a descriptor that sends accept. -/
theorem usable_of_receive
    (meant : Meant state)
    {msg : Message}
    {kernel : Kernel Nat Message}
    (received :
      state.kernel.mqReceive state.msgQueueFd true = some (msg, kernel)) :
    ¬ state.msgQueueFd ≤ 0 := by
  intro unusable
  obtain ⟨prio, split⟩ := Kernel.messagesAt_of_mqReceive received
  have empty := meant.usable unusable
  rw [State.messages, split] at empty
  cases empty

/-- A message leaves the queue, into the hands of the worker or not. -/
theorem receive
    (meant : Meant state)
    {msg : Message}
    {kernel : Kernel Nat Message}
    {worker : Worker}
    (received :
      state.kernel.mqReceive state.msgQueueFd true = some (msg, kernel))
    (stays : worker.inLoop = true → state.worker.inLoop = true)
    (takes : ∀ other, worker = .processMsg other → other = msg) :
    Meant { state with kernel, worker } := by
  obtain ⟨prio, split⟩ := Kernel.messagesAt_of_mqReceive received
  have fewer :
      ∀ entry ∈ kernel.messagesAt state.msgQueueFd,
        entry ∈ state.messages := by
    intro entry member
    rw [State.messages, split]
    exact List.mem_cons_of_mem _ member
  have usable := meant.usable_of_receive received
  obtain ⟨queue, _, rest, opened, _, rfl⟩ :=
    Kernel.mqReceive_cases received
  refine ⟨meant.asked, ?_, meant.numbers,
    fun unusable => (usable unusable).elim, meant.neverStray⟩
  intro uncalled looping
  have unasked := meant.unasked uncalled (stays looping)
  refine ⟨unasked.flag, ?_, ?_⟩
  · intro entry member
    exact unasked.queue entry (fewer entry member)
  · intro other isOther
    rw [takes other isOther]
    exact unasked.queue (prio, msg)
      (by rw [State.messages, split]; exact List.mem_cons_self)

/-- The worker moves on without a message. -/
theorem move
    (meant : Meant state)
    {worker : Worker}
    (stays : worker.inLoop = true → state.worker.inLoop = true)
    (empty : ∀ msg, worker ≠ .processMsg msg) :
    Meant { state with worker } where
  asked := meant.asked
  unasked := fun uncalled looping =>
    ⟨(meant.unasked uncalled (stays looping)).flag,
      (meant.unasked uncalled (stays looping)).queue,
      fun msg isMsg => (empty msg isMsg).elim⟩
  numbers := meant.numbers
  usable := meant.usable
  neverStray := meant.neverStray

/-- Handing over a message that is not a stop, or any after a call. -/
theorem sent
    (meant : Meant state)
    {msg : Message}
    {next : State}
    (allowed :
      state.stopCalled = false → msg.msgId ≠ msgIdStopThread)
    (sent : Sent state msg next) :
    Meant next := by
  cases sent with
  | refused =>
      exact meant.frame ..
  | discarded =>
      exact meant.frame ..
  | queued usable sent =>
      have inserted := Kernel.messagesAt_of_mqSend sent
      obtain ⟨queue, _, rfl⟩ := Kernel.mqSend_cases sent
      refine ⟨meant.asked, ?_, meant.numbers, ?_, meant.neverStray⟩
      · intro uncalled looping
        have unasked := meant.unasked uncalled looping
        refine ⟨unasked.flag, ?_, unasked.hand⟩
        intro entry member
        rw [State.messages, inserted,
          (insertByPriority_perm ..).mem_iff] at member
        rcases List.mem_cons.mp member with rfl | old
        · exact allowed uncalled
        · exact unasked.queue entry old
      · intro unusable
        exact absurd usable (Int32.not_lt.mpr unusable)

/-- Where `StopThread` was called, any stop is meant. -/
theorem of_called
    {next : State}
    (called : next.stopCalled = true)
    (numbers : ∀ fd, next.kernel.descriptor fd ≠ none → 0 ≤ fd)
    (usable : next.msgQueueFd ≤ 0 → next.messages = [])
    (neverStray : next.strayStop = false) :
    Meant next where
  asked := fun _ => called
  unasked := fun uncalled _ =>
    absurd (uncalled.symm.trans called) Bool.false_ne_true
  numbers := numbers
  usable := usable
  neverStray := neverStray

/-- `Init` gives the object an empty queue or none. -/
theorem init
    (meant : Meant state)
    {name : String}
    {maxmsg : Nat}
    {answer : Option Int32}
    (opens : state.Opens name answer) :
    Meant (MessageThread.init state name maxmsg answer).1 := by
  unfold MessageThread.init
  cases answer with
  | none =>
      have closed : state.kernel.descriptor (-1) = none := by
        by_contra opened
        exact absurd (meant.numbers (-1) opened) (by decide)
      have empty : state.kernel.messagesAt (-1) = [] :=
        Kernel.messagesAt_of_closed closed
      refine ⟨meant.asked, ?_, meant.numbers, fun _ => empty,
        meant.neverStray⟩
      intro uncalled looping
      have unasked := meant.unasked uncalled looping
      refine ⟨unasked.flag, ?_, unasked.hand⟩
      intro entry member
      rw [State.messages, empty] at member
      cases member
  | some fd =>
      have empty :
          (state.kernel.mqOpen fd state.created maxmsg).messagesAt fd = [] :=
        Kernel.messagesAt_mqOpen
      refine ⟨meant.asked, ?_, ?_, fun _ => empty, meant.neverStray⟩
      · intro uncalled looping
        have unasked := meant.unasked uncalled looping
        refine ⟨unasked.flag, ?_, unasked.hand⟩
        intro entry member
        rw [State.messages, empty] at member
        cases member
      · intro number opened
        by_cases same : number = fd
        · rw [same]
          exact opens.1
        · apply meant.numbers
          intro closed
          exact opened ((Function.update_of_ne same ..).trans closed)

/-- `StartThread` where no stop is left in the queue. -/
theorem startThread
    (meant : Meant state)
    (idle : state.owner = .idle)
    (findsNone : FindsNoStop state .startThread) :
    Meant (MessageThread.startThread state).1 := by
  unfold MessageThread.startThread
  split
  · rename_i isInitialized
    split
    · exact meant
    · rename_i unjoinable
      refine ⟨fun busy => (busy idle).elim, ?_, meant.numbers, meant.usable,
        meant.neverStray⟩
      intro _ _
      refine ⟨rfl, ?_, fun _ isMsg => by cases isMsg⟩
      exact findsNone isInitialized (Bool.eq_false_iff.mpr unjoinable)
  · exact meant

/-- The next step of a call of the owner. -/
theorem ownerStep
    (meant : Meant state)
    {accepts : Bool}
    {next : State}
    (stepped : ownerStep? state accepts = some next) :
    Meant next := by
  have busy : state.owner ≠ .idle := by
    intro idle
    simp [ownerStep?, idle] at stepped
  have called := meant.asked busy
  cases ownerStep_cases stepped with
  | notSent | joinable | unjoinable | flagSet | joined | emptied | notOpen =>
      exact of_called called meant.numbers meant.usable meant.neverStray
  | sent _ usable queued =>
      obtain ⟨queue, _, rfl⟩ := Kernel.mqSend_cases queued
      refine of_called called meant.numbers ?_ meant.neverStray
      intro unusable
      exact absurd usable (Int32.not_lt.mpr unusable)
  | received _ received =>
      have usable := meant.usable_of_receive received
      obtain ⟨_, _, _, _, _, rfl⟩ := Kernel.mqReceive_cases received
      exact of_called called meant.numbers
        (fun unusable => (usable unusable).elim) meant.neverStray
  | closed =>
      refine of_called called ?_ ?_ meant.neverStray
      · intro number opened
        apply meant.numbers
        intro none
        by_cases same : number = state.msgQueueFd
        · exact opened (by rw [same]; exact Function.update_self ..)
        · exact opened ((Function.update_of_ne same ..).trans none)
      · intro _
        exact Kernel.messagesAt_of_closed (Function.update_self ..)

/-- The next step of the worker. -/
theorem workerStep
    (meant : Meant state)
    {answer : Select}
    {next : State}
    (stepped : workerStep? state answer = some next) :
    Meant next := by
  cases workerStep_cases stepped with
  | moved bare stillBare =>
      exact meant.move (fun _ => Worker.inLoop_of_isBare bare)
        (Worker.ne_processMsg_of_isBare stillBare)
  | left atTest requested =>
      have looping : state.worker.inLoop = true := by rw [atTest]; rfl
      have called : state.stopCalled = true := by
        by_contra uncalled
        have flag :=
          (meant.unasked (Bool.eq_false_iff.mpr uncalled) looping).flag
        exact Bool.false_ne_true (flag.symm.trans requested)
      refine of_called called meant.numbers meant.usable ?_
      simp [meant.neverStray, called]
  | taken atReceive received =>
      have looping : state.worker.inLoop = true := by rw [atReceive]; rfl
      refine meant.receive received (fun _ => looping) ?_
      rintro other ⟨⟩
      rfl
  | processed inHand =>
      have looping : state.worker.inLoop = true := by rw [inHand]; rfl
      have moved : Meant { state with worker := .testFlag } :=
        meant.move (fun _ => looping) (by simp)
      exact moved.frame ..
  | @stopped msg inHand isStop =>
      have looping : state.worker.inLoop = true := by rw [inHand]; rfl
      have called : state.stopCalled = true := by
        by_contra uncalled
        exact (meant.unasked (Bool.eq_false_iff.mpr uncalled) looping).hand
          msg inHand isStop
      exact of_called called meant.numbers meant.usable meant.neverStray
  | @drained msg kernel atClear received =>
      have taken : Meant { state with kernel } :=
        meant.receive received id
          (fun other isMsg => by simp [atClear] at isMsg)
      exact taken.frame ..
  | finished =>
      exact meant.move (fun looping => by cases looping) (by simp)

/-- Every step that a worker is created without a stop keeps the meaning. -/
theorem step
    (meant : Meant state)
    {action : Action}
    {next : State}
    (findsNone : FindsNoStop state action)
    (stepped : lifecycle.step? state action = some next) :
    Meant next := by
  simp only [lifecycle, machine, Option.ite_none_right_eq_some] at stepped
  obtain ⟨admitted, stepped⟩ := stepped
  cases action with
  | init name maxmsg answer =>
      simp only [step?, Option.ite_none_right_eq_some,
        Option.some.injEq] at stepped
      obtain ⟨⟨_, opens⟩, rfl⟩ := stepped
      exact meant.init opens
  | startThread =>
      simp only [step?, Option.ite_none_right_eq_some,
        Option.some.injEq] at stepped
      obtain ⟨idle, rfl⟩ := stepped
      exact meant.startThread idle findsNone
  | stopThread =>
      simp only [step?, Option.ite_none_right_eq_some,
        Option.some.injEq] at stepped
      obtain ⟨_, rfl⟩ := stepped
      exact of_called rfl meant.numbers meant.usable meant.neverStray
  | owner accepts =>
      exact meant.ownerStep stepped
  | worker answer =>
      exact meant.workerStep stepped
  | sendMsg msgId carries accepts =>
      simp only [step?, Option.ite_none_right_eq_some,
        Option.some.injEq] at stepped
      obtain ⟨_, rfl⟩ := stepped
      have notStop : msgId ≠ msgIdStopThread := of_decide_eq_true admitted
      have issued : Meant (state.issue carries) := meant.frame ..
      exact issued.sent (fun _ => notStop)
        (handOver_sendMsg state msgId carries accepts)
  | send msgId carries s32Prio accepts =>
      cases admitted
  | destroy =>
      cases admitted

end Meant

/-- Every run whose workers find no stop keeps the meaning of stops. -/
theorem meant_of_reachable
    {state : State}
    (reachable : lifecycle.ReachableWhere FindsNoStop state) :
    Meant state := by
  apply reachable.invariant
  · rintro start rfl
    exact meant_threadWithMsgQueue
  · intro before after action meant findsNone stepped
    exact meant.step findsNone stepped

/-- A worker in its loop, with nothing that tells it to stop but its queue. -/
structure Waiting (state : State) : Prop where
  atTest :
    state.worker = .testFlag
  flag :
    state.stopRequested = false
  uncalled :
    state.stopCalled = false
  usable :
    0 < state.msgQueueFd

/-- The steps of the worker from one test of the flag to the next. -/
def oneRound : List Action :=
  List.replicate 5 (.worker .readable)

namespace Waiting

variable {state : State}

/-- One round of the loop takes the first message. -/
theorem round
    (waiting : Waiting state)
    {prio : UInt32}
    {msg : Message}
    {rest : List (UInt32 × Message)}
    (stored : state.messages = (prio, msg) :: rest) :
    ∃ next,
      lifecycle.run? state oneRound = some next ∧
      next.messages = rest ∧
      (if msg.msgId = msgIdStopThread then
        next.worker = .testFlag ∧ next.stopRequested = true ∧
          next.stopCalled = false
      else
        Waiting next) := by
  obtain ⟨kernel, received, left⟩ := Kernel.exists_mqReceive stored
  have usable : ¬ state.msgQueueFd ≤ 0 :=
    Int32.not_le.mpr waiting.usable
  by_cases isStop : msg.msgId = msgIdStopThread
  · refine ⟨{ state with
      kernel
      stopRequested := true
      worker := .testFlag }, ?_, left, ?_⟩
    · simp [oneRound, List.replicate, Machine.run?, lifecycle, machine,
        isLifecycle, step?, workerStep?, waiting.atTest, waiting.flag,
        usable, received, isStop]
    · rw [if_pos isStop]
      exact ⟨rfl, rfl, waiting.uncalled⟩
  · refine ⟨{ state.free msg.payload with
      kernel
      nrOfProcessedMsgs := state.nrOfProcessedMsgs + 1
      worker := .testFlag }, ?_, left, ?_⟩
    · simp [oneRound, List.replicate, Machine.run?, lifecycle, machine,
        isLifecycle, step?, workerStep?, waiting.atTest, waiting.flag,
        usable, received, isStop, State.free]
    · rw [if_neg isStop]
      exact ⟨rfl, waiting.flag, waiting.uncalled, waiting.usable⟩

/-- A stop in the queue leads the worker out of its loop. -/
theorem exists_stray
    (waiting : Waiting state)
    (stop :
      ∃ entry ∈ state.messages, entry.2.msgId = msgIdStopThread) :
    ∃ actions final,
      lifecycle.run? state actions = some final ∧
        final.strayStop = true := by
  obtain ⟨entry, member, isStop⟩ := stop
  -- The first message is the stop, or one round brings the stop nearer.
  induction stored : state.messages generalizing state with
  | nil =>
      rw [stored] at member
      cases member
  | cons first rest inductionHypothesis =>
      obtain ⟨next, ran, left, outcome⟩ := waiting.round stored
      by_cases firstStop : first.2.msgId = msgIdStopThread
      · rw [if_pos firstStop] at outcome
        obtain ⟨atTest, requested, uncalled⟩ := outcome
        refine ⟨oneRound ++ [.worker .readable],
          { next with
            worker := .clear
            strayStop := true }, ?_, rfl⟩
        rw [Machine.run?_append, ran, Option.bind_some,
          Machine.run?_singleton]
        simp [lifecycle, machine, isLifecycle, step?, workerStep?, atTest,
          requested, uncalled]
      · rw [if_neg firstStop] at outcome
        have later : entry ∈ next.messages := by
          rw [stored] at member
          rw [left]
          refine (List.mem_cons.mp member).resolve_left ?_
          rintro rfl
          exact firstStop isStop
        obtain ⟨actions, final, ranOn, stray⟩ :=
          inductionHypothesis outcome later left
        refine ⟨oneRound ++ actions, final, ?_, stray⟩
        rw [Machine.run?_append, ran, Option.bind_some]
        exact ranOn

end Waiting

/-- `StartThread` of an open object without a worker. -/
theorem startThread_creates
    {state : State}
    (isInitialized : state.initialized = true)
    (unjoinable : state.joinable = false) :
    (startThread state).1 =
      { state with
        stopRequested := false
        joinable := true
        worker := .testFlag
        stopCalled := false } := by
  rw [startThread, if_pos isInitialized,
    if_neg (Bool.eq_false_iff.mp unjoinable)]

/-- A worker that is created with a stop in its queue can stray. -/
theorem exists_stray_of_not_findsNoStop
    {state next : State}
    {action : Action}
    (meant : Meant state)
    (stepped : lifecycle.step? state action = some next)
    (findsStop : ¬ FindsNoStop state action) :
    ∃ actions final,
      lifecycle.run? next actions = some final ∧
        final.strayStop = true := by
  cases action with
  | startThread =>
      simp only [FindsNoStop, Classical.not_imp, Classical.not_forall,
        Decidable.not_not] at findsStop
      obtain ⟨isInitialized, unjoinable, entry, member, isStop⟩ := findsStop
      simp only [lifecycle, machine, isLifecycle, if_true, step?,
        Option.ite_none_right_eq_some, Option.some.injEq,
        startThread_creates isInitialized unjoinable] at stepped
      obtain ⟨_, rfl⟩ := stepped
      have usable : 0 < state.msgQueueFd := by
        refine Int32.not_le.mp ?_
        intro unusable
        rw [meant.usable unusable] at member
        cases member
      have waiting : Waiting
          { state with
            stopRequested := false
            joinable := true
            worker := .testFlag
            stopCalled := false } := ⟨rfl, rfl, rfl, usable⟩
      exact waiting.exists_stray ⟨entry, member, isStop⟩
  | init _ _ _ | stopThread | destroy | owner _ | worker _
  | sendMsg _ _ _ | send _ _ _ _ =>
      exact absurd trivial findsStop

/--
A worker leaves its loop only after a call of `StopThread` exactly in the runs
in which no worker is created while a stop is left in the queue: such runs are
free of stray stops, and a `StartThread` that breaks the condition can be
continued to one.
-/
theorem neverStray_iff_findsNoStop
    {state : State}
    (reachable : lifecycle.ReachableWhere FindsNoStop state) :
    state.strayStop = false ∧
      ∀ next action,
        lifecycle.step? state action = some next →
        ¬ FindsNoStop state action →
        ∃ actions final,
          lifecycle.run? next actions = some final ∧
            final.strayStop = true := by
  have meant := meant_of_reachable reachable
  refine ⟨meant.neverStray, ?_⟩
  intro next action stepped findsStop
  exact exists_stray_of_not_findsNoStop meant stepped findsStop

/-- A worker is stopped and drains its queue, and the next one runs. -/
theorem neverStray_iff_findsNoStop_restarted :
    ∃ state,
      lifecycle.ReachableWhere FindsNoStop state ∧
        state.nrOfProcessedMsgs = 1 ∧
        state.strayStop = false := by
  obtain ⟨state, reachable, processed⟩ :=
    Machine.ReachableWhere.exists_of_run
      lifecycle
      FindsNoStop
      threadWithMsgQueue
      [
        .init "/queue" 10 (some 3),
        .startThread,
        .stopThread, .owner true, .owner true, .owner true,
        .worker .readable,
        .worker .readable, .worker .readable,
        .owner true,
        .startThread,
        .sendMsg 7 true true,
        .worker .readable, .worker .readable, .worker .readable,
        .worker .readable, .worker .readable
      ]
      (fun state => decide (state.nrOfProcessedMsgs = 1))
      rfl (by decide) (by decide)
  exact ⟨state, reachable, of_decide_eq_true processed,
    (neverStray_iff_findsNoStop reachable).1⟩

/--
`StopThread` is called before the first `StartThread`; the worker reads the
message that it left and leaves its loop.
-/
theorem earlyStop_strays :
    ¬ ∀ state, lifecycle.Reachable state → state.strayStop = false := by
  intro neverStray
  obtain ⟨state, reachable, stray⟩ :=
    Machine.exists_reachable
      lifecycle
      threadWithMsgQueue
      [
        .init "/queue" 10 (some 3),
        .stopThread, .owner true, .owner true,
        .startThread,
        .worker .readable, .worker .readable, .worker .readable,
        .worker .readable, .worker .readable, .worker .readable
      ]
      (fun state => state.strayStop)
      rfl
      (by decide)
  have never := neverStray state reachable
  simp [stray] at never

end WkcRuntime.MessageThread
