import WkcRuntime.MessageThreadSource

namespace WkcRuntime.MessageThread

open MessageQueue
open ThreadObj (Select msgIdStopThread)

/-!
# Which payloads are freed

Every payload that is handed over is freed, waits in the queue or is in the
hands of the worker, exactly one of these.  The worker, the drain behind its
loop and the drain of the destructor move it on.  It is lost in two places: the
loop frees nothing of a message that it takes for a stop, and what arrives
between the last receive of the destructor and its `mq_close` is closed away
with the queue.
-/

/-- Everything but another `Init`. -/
def isOpened : Action → Bool
  | .init .. =>
      false
  | .startThread | .stopThread | .destroy | .owner _ | .worker _
  | .sendMsg .. | .send .. =>
      true

/-- All runs on one object behind a successful `Init`. -/
def opened : Machine State Action :=
  machine
    (fun state =>
      ∃ name maxmsg fd,
        threadWithMsgQueue.Opens name (some fd) ∧
          state = (init threadWithMsgQueue name maxmsg (some fd)).1)
    isOpened

/--
The loop takes no stop that carries a payload, and `mq_close` finds no payload
in the queue.
-/
def LosesNone (state : State) : Action → Prop
  | .worker _ =>
      state.worker = .mqReceive →
        ∀ entry ∈ state.messages.head?,
          entry.2.msgId = msgIdStopThread → entry.2.payload = none
  | .owner _ =>
      state.owner = .close →
        ∀ entry ∈ state.messages, entry.2.payload = none
  | _ =>
      True

instance (state : State) :
    ∀ action, Decidable (LosesNone state action)
  | .worker _ =>
      inferInstanceAs
        (Decidable
          (state.worker = .mqReceive →
            ∀ entry ∈ state.messages.head?,
              entry.2.msgId = msgIdStopThread → entry.2.payload = none))
  | .owner _ =>
      inferInstanceAs
        (Decidable
          (state.owner = .close →
            ∀ entry ∈ state.messages, entry.2.payload = none))
  | .init .. | .startThread | .stopThread | .destroy
  | .sendMsg .. | .send .. =>
      .isTrue trivial

/-- The payloads that wait in the queue. -/
def State.queued (state : State) : List Nat :=
  state.messages.filterMap fun entry => entry.2.payload

/-- The payload of the message that the worker has taken. -/
def Worker.inHand : Worker → List Nat
  | .processMsg msg =>
      msg.payload.toList
  | .notStarted | .testFlag | .receive | .select | .mqReceive | .sleep
  | .clear | .finished =>
      []

/-- How often a payload is freed, waits, or is in the hands of the worker. -/
def State.tally (state : State) (payload : Nat) : Nat :=
  state.freed.count payload + state.queued.count payload +
    state.worker.inHand.count payload

/-- There is no worker, or it has finished. -/
def Worker.rests : Worker → Bool
  | .notStarted | .finished =>
      true
  | .testFlag | .receive | .select | .mqReceive | .processMsg _ | .sleep
  | .clear =>
      false

/-- The owner is past the stop in the destructor. -/
def Owner.unlinks : Owner → Bool
  | .clear | .close | .dead =>
      true
  | .idle | .sendStop _ | .testJoinable _ | .setFlag _ | .join _ =>
      false

/-- Who has come to rest, by where the owner stands. -/
structure Placed (state : State) : Prop where
  isInitialized :
    state.initialized = true
  named :
    state.msgQueueName ≠ ""
  joined :
    state.joinable = false → state.worker.rests = true
  resting :
    state.owner.unlinks = true → state.worker.rests = true
  closed :
    state.owner = .dead →
      state.kernel.descriptor state.msgQueueFd = none

/-- Every payload handed over is in exactly one place. -/
structure Kept (state : State) : Prop where
  ledger :
    ∀ payload,
      state.tally payload = if payload < state.payloads then 1 else 0
  waiting :
    ∀ payload ∈ state.queued ++ state.worker.inHand,
      payload ∈ state.accepted
  known :
    ∀ payload ∈ state.accepted, payload < state.payloads
  bareStop :
    ∀ msg,
      state.worker = .processMsg msg →
      msg.msgId = msgIdStopThread →
      msg.payload = none

/-- An accepted payload that nobody will free. -/
structure Lost (state : State) (payload : Nat) : Prop where
  accepted :
    payload ∈ state.accepted
  known :
    payload < state.payloads
  notFreed :
    payload ∉ state.freed
  notQueued :
    payload ∉ state.queued
  inHand :
    ∀ msg,
      state.worker = .processMsg msg →
      msg.payload = some payload →
      msg.msgId = msgIdStopThread

/-- A step that hands nothing over and leaves the worker its message. -/
structure Frame (state next : State) : Prop where
  accepted :
    next.accepted = state.accepted
  payloads :
    next.payloads = state.payloads
  inHand :
    next.worker.inHand = state.worker.inHand
  processMsg :
    ∀ msg, next.worker = .processMsg msg → state.worker = .processMsg msg

/-- What a step does with the messages. -/
inductive Effect (state : State) (action : Action) (next : State) : Prop where
  | quiet :
      Frame state next →
      next.freed = state.freed →
      next.queued.Perm state.queued →
      Effect state action next
  | handedOver (msgId : UInt64) (carries : Bool) :
      Sent (state.issue carries) ⟨msgId, state.newPayload carries⟩ next →
      Effect state action next
  | drained (msg : Message) :
      Frame state next →
      next.freed = msg.payload.toList ++ state.freed →
      state.queued = msg.payload.toList ++ next.queued →
      Effect state action next
  | taken (answer : Select) (prio : UInt32) (msg : Message) :
      action = .worker answer →
      state.worker = .mqReceive →
      state.messages = (prio, msg) :: next.messages →
      next =
        { state with kernel := next.kernel, worker := .processMsg msg } →
      Effect state action next
  | processed (msg : Message) (nrOfProcessedMsgs : UInt32) :
      state.worker = .processMsg msg →
      msg.msgId ≠ msgIdStopThread →
      next =
        { state.free msg.payload with
          nrOfProcessedMsgs, worker := .testFlag } →
      Effect state action next
  | dropped (msg : Message) :
      state.worker = .processMsg msg →
      msg.msgId = msgIdStopThread →
      next = { state with stopRequested := true, worker := .testFlag } →
      Effect state action next
  | closed (accepts : Bool) :
      action = .owner accepts →
      state.owner = .close →
      Frame state next →
      next.freed = state.freed →
      next.queued = [] →
      Effect state action next

/-- A worker that rests has nothing in its hands. -/
theorem Worker.inHand_of_rests
    {worker : Worker}
    (rests : worker.rests = true) :
    worker.inHand = [] := by
  cases worker <;> first | rfl | cases rests

/-- A worker without a message has nothing in its hands. -/
theorem Worker.inHand_of_isBare
    {worker : Worker}
    (bare : worker.isBare = true) :
    worker.inHand = [] := by
  cases worker <;> first | rfl | cases bare

/-- A worker without a message does not rest. -/
theorem Worker.rests_of_isBare
    {worker : Worker}
    (bare : worker.isBare = true) :
    worker.rests = false := by
  cases worker <;> first | rfl | cases bare

section Queue

variable {state : State}

/-- What a receive takes out of the queue. -/
theorem queued_of_receive
    {msg : Message}
    {kernel : Kernel Nat Message}
    (received :
      state.kernel.mqReceive state.msgQueueFd true = some (msg, kernel)) :
    state.queued =
      msg.payload.toList ++ ({ state with kernel } : State).queued := by
  obtain ⟨prio, split⟩ := Kernel.messagesAt_of_mqReceive received
  rw [State.queued, State.messages, split, List.filterMap_cons]
  cases msg.payload <;> rfl

/-- What a send puts into the queue. -/
theorem queued_of_send
    {msg : Message}
    {s32Prio : UInt32}
    {accepts : Bool}
    {kernel : Kernel Nat Message}
    (sent :
      state.kernel.mqSend state.msgQueueFd msg s32Prio accepts =
        some kernel) :
    ({ state with kernel } : State).queued.Perm
      (msg.payload.toList ++ state.queued) := by
  have inserted :=
    (insertByPriority_perm s32Prio msg state.messages).filterMap
      fun entry => entry.2.payload
  rw [State.queued, State.messages, Kernel.messagesAt_of_mqSend sent]
  refine inserted.trans ?_
  rw [List.filterMap_cons]
  cases msg.payload <;> exact List.Perm.refl _

/-- Handing over a message puts its payload into one place. -/
theorem tally_of_sent
    {msg : Message}
    {next : State}
    (sent : Sent state msg next)
    (payload : Nat) :
    next.tally payload =
      state.tally payload + msg.payload.toList.count payload := by
  cases sent with
  | refused | discarded =>
      simp only [State.tally, State.free, State.queued, State.messages,
        List.count_append]
      omega
  | queued _ sent =>
      have counted := (queued_of_send sent).count_eq payload
      rw [List.count_append] at counted
      simp only [State.tally, State.queued, State.messages] at counted ⊢
      omega

end Queue

section Issue

variable {state : State}
variable {carries : Bool}
variable {payload : Nat}

/-- A payload that is numbered stays numbered. -/
theorem lt_issue
    (known : payload < state.payloads) :
    payload < (state.issue carries).payloads := by
  cases carries with
  | false =>
      exact known
  | true =>
      exact Nat.lt_succ_of_lt known

/-- A message that is handed over carries the next payload or none. -/
theorem eq_of_mem_newPayload
    (member : payload ∈ (state.newPayload carries).toList) :
    payload = state.payloads ∧ payload < (state.issue carries).payloads := by
  cases carries with
  | false =>
      cases member
  | true =>
      obtain rfl := List.mem_singleton.mp member
      exact ⟨rfl, Nat.lt_succ_self _⟩

/-- The numbered payloads, and the one that is handed over. -/
theorem ledger_issue :
    (if payload < state.payloads then 1 else 0) +
        (state.newPayload carries).toList.count payload =
      if payload < (state.issue carries).payloads then 1 else 0 := by
  cases carries with
  | false =>
      rfl
  | true =>
      change (if payload < state.payloads then 1 else 0) +
        [state.payloads].count payload =
          if payload < state.payloads + 1 then 1 else 0
      rcases Nat.lt_trichotomy payload state.payloads with
        below | rfl | above
      · have other : payload ∉ [state.payloads] := by
          rw [List.mem_singleton]
          exact Nat.ne_of_lt below
        rw [if_pos below, if_pos (Nat.lt_succ_of_lt below),
          List.count_eq_zero.mpr other]
      · rw [if_neg (Nat.lt_irrefl _), if_pos (Nat.lt_succ_self _),
          List.count_singleton_self]
      · have other : payload ∉ [state.payloads] := by
          rw [List.mem_singleton]
          exact Nat.ne_of_gt above
        rw [if_neg (Nat.not_lt_of_gt above), if_neg (Nat.not_lt_of_ge above),
          List.count_eq_zero.mpr other]

end Issue

/-- A step that touches neither worker nor messages is quiet. -/
theorem Effect.of_same
    {state next : State}
    {action : Action}
    (accepted : next.accepted = state.accepted)
    (payloads : next.payloads = state.payloads)
    (worker : next.worker = state.worker)
    (freed : next.freed = state.freed)
    (queued : next.queued.Perm state.queued) :
    Effect state action next := by
  refine .quiet ⟨accepted, payloads, ?_, ?_⟩ freed queued
  · rw [worker]
  · intro msg isMsg
    rw [← worker]
    exact isMsg

/-- A step of the worker without a message is quiet. -/
theorem Effect.of_worker
    {state : State}
    {action : Action}
    {worker : Worker}
    {stopRequested joinable stopCalled strayStop : Bool}
    (hadNone : state.worker.inHand = [])
    (hasNone : worker.inHand = [])
    (empty : ∀ msg, worker ≠ .processMsg msg) :
    Effect state action
      { state with
        worker, stopRequested, joinable, stopCalled, strayStop } :=
  .quiet
    ⟨rfl, rfl, hasNone.trans hadNone.symm,
      fun msg isMsg => (empty msg isMsg).elim⟩
    rfl (List.Perm.refl _)

/-- What a step of the owner does with the messages. -/
theorem effect_of_ownerStep
    {state next : State}
    {accepts : Bool}
    (stepped : ownerStep? state accepts = some next) :
    Effect state (.owner accepts) next := by
  cases ownerStep_cases stepped with
  | notSent | joinable | unjoinable | flagSet | joined | emptied | notOpen =>
      exact .of_same rfl rfl rfl rfl (List.Perm.refl _)
  | sent _ _ queued =>
      exact .of_same rfl rfl rfl rfl (queued_of_send queued)
  | @received msg kernel _ received =>
      exact .drained msg ⟨rfl, rfl, rfl, fun _ isMsg => isMsg⟩ rfl
        (queued_of_receive received)
  | closed atClose _ =>
      refine .closed accepts rfl atClose
        ⟨rfl, rfl, rfl, fun _ isMsg => isMsg⟩ rfl ?_
      rw [State.queued, State.messages,
        Kernel.messagesAt_of_closed (Function.update_self ..)]
      rfl

/-- What a step of the worker does with the messages. -/
theorem effect_of_workerStep
    {state next : State}
    {answer : Select}
    (stepped : workerStep? state answer = some next) :
    Effect state (.worker answer) next := by
  cases workerStep_cases stepped with
  | moved bare stillBare =>
      exact .of_worker (Worker.inHand_of_isBare bare)
        (Worker.inHand_of_isBare stillBare)
        (Worker.ne_processMsg_of_isBare stillBare)
  | left atTest =>
      have hadNone : state.worker.inHand = [] := by rw [atTest]; rfl
      exact .of_worker hadNone rfl (by simp)
  | @taken msg kernel atReceive received =>
      obtain ⟨prio, split⟩ := Kernel.messagesAt_of_mqReceive received
      exact .taken answer prio msg rfl atReceive split rfl
  | @processed msg inHand notStop =>
      exact .processed msg _ inHand notStop rfl
  | @stopped msg inHand isStop =>
      exact .dropped msg inHand isStop rfl
  | @drained msg kernel _ received =>
      exact .drained msg ⟨rfl, rfl, rfl, fun _ isMsg => isMsg⟩ rfl
        (queued_of_receive received)
  | finished atClear =>
      have hadNone : state.worker.inHand = [] := by rw [atClear]; rfl
      exact .of_worker hadNone rfl (by simp)

/-- What any step does with the messages. -/
theorem effect_of_step
    {state next : State}
    {action : Action}
    (placed : Placed state)
    (stepped : opened.step? state action = some next) :
    Effect state action next := by
  simp only [opened, machine, Option.ite_none_right_eq_some] at stepped
  obtain ⟨admitted, stepped⟩ := stepped
  cases action with
  | init name maxmsg answer =>
      cases admitted
  | startThread =>
      simp only [step?, Option.ite_none_right_eq_some,
        Option.some.injEq, startThread] at stepped
      obtain ⟨_, rfl⟩ := stepped
      split
      · split
        · exact .of_same rfl rfl rfl rfl (List.Perm.refl _)
        · rename_i unjoinable
          have rests := placed.joined (Bool.eq_false_iff.mpr unjoinable)
          exact .of_worker (Worker.inHand_of_rests rests) rfl (by simp)
      · exact .of_same rfl rfl rfl rfl (List.Perm.refl _)
  | stopThread | destroy =>
      simp only [step?, Option.ite_none_right_eq_some,
        Option.some.injEq] at stepped
      obtain ⟨_, rfl⟩ := stepped
      exact .of_same rfl rfl rfl rfl (List.Perm.refl _)
  | owner accepts =>
      exact effect_of_ownerStep stepped
  | worker answer =>
      exact effect_of_workerStep stepped
  | sendMsg msgId carries accepts =>
      simp only [step?, Option.ite_none_right_eq_some,
        Option.some.injEq] at stepped
      obtain ⟨_, rfl⟩ := stepped
      exact .handedOver msgId carries (handOver_sendMsg ..)
  | send msgId carries s32Prio accepts =>
      simp only [step?, Option.some.injEq] at stepped
      subst next
      exact .handedOver msgId carries (handOver_send ..)

namespace Placed

variable {state : State}

/-- Handing over a message moves neither owner nor worker. -/
theorem sent
    (placed : Placed state)
    {carries : Bool}
    {msg : Message}
    {next : State}
    (sent : Sent (state.issue carries) msg next) :
    Placed next := by
  cases sent with
  | refused | discarded =>
      exact ⟨placed.isInitialized, placed.named, placed.joined,
        placed.resting, placed.closed⟩
  | queued _ sent =>
      obtain ⟨queue, isOpen, rfl⟩ := Kernel.mqSend_cases sent
      exact ⟨placed.isInitialized, placed.named, placed.joined,
        placed.resting, placed.closed⟩

/-- The owner goes on where the stop is not yet behind it. -/
theorem advance
    (placed : Placed state)
    {owner : Owner}
    {stopRequested stopCalled : Bool}
    (before : owner.unlinks = false) :
    Placed { state with owner, stopRequested, stopCalled } where
  isInitialized := placed.isInitialized
  named := placed.named
  joined := placed.joined
  resting := fun unlinks =>
    absurd (before.symm.trans unlinks) Bool.false_ne_true
  closed := by
    rintro rfl
    cases before

/-- The owner is through with `StopThread(true)`. -/
theorem behind
    (placed : Placed state)
    (rests : state.worker.rests = true)
    {joinable destroys : Bool} :
    Placed
      { state with
        joinable
        owner := behindStop state destroys } where
  isInitialized := placed.isInitialized
  named := placed.named
  joined := fun _ => rests
  resting := fun _ => rests
  closed := by
    intro isDead
    cases destroys
    · cases isDead
    · simp [behindStop, placed.named] at isDead

/-- A step of the owner. -/
theorem ownerStep
    (placed : Placed state)
    {accepts : Bool}
    {next : State}
    (stepped : ownerStep? state accepts = some next) :
    Placed next := by
  cases ownerStep_cases stepped with
  | notSent | joinable | flagSet =>
      exact placed.advance rfl
  | @sent destroys _ kernel _ _ queued =>
      obtain ⟨queue, _, rfl⟩ := Kernel.mqSend_cases queued
      have advanced : Placed { state with owner := .testJoinable destroys } :=
        placed.advance rfl
      exact ⟨advanced.isInitialized, advanced.named, advanced.joined,
        advanced.resting, advanced.closed⟩
  | unjoinable _ unjoinable =>
      exact placed.behind (placed.joined unjoinable)
  | joined _ finished =>
      exact placed.behind (by rw [finished]; rfl)
  | received atClear =>
      have rests := placed.resting (by rw [atClear]; rfl)
      exact ⟨placed.isInitialized, placed.named, placed.joined,
        fun _ => rests, fun isDead => by cases atClear.symm.trans isDead⟩
  | emptied atClear =>
      have rests := placed.resting (by rw [atClear]; rfl)
      exact ⟨placed.isInitialized, placed.named, placed.joined,
        fun _ => rests, fun isDead => by cases isDead⟩
  | closed atClose =>
      have rests := placed.resting (by rw [atClose]; rfl)
      exact ⟨placed.isInitialized, placed.named, placed.joined,
        fun _ => rests, fun _ => Function.update_self ..⟩
  | notOpen atClose notOpen =>
      have rests := placed.resting (by rw [atClose]; rfl)
      exact ⟨placed.isInitialized, placed.named, placed.joined,
        fun _ => rests, fun _ => notOpen⟩

/-- A worker that takes a step does not rest, and nobody relies on it. -/
theorem of_worker
    (placed : Placed state)
    {next : State}
    (isBusy : state.worker.rests = false)
    (owner : next.owner = state.owner)
    (initialized : next.initialized = state.initialized)
    (name : next.msgQueueName = state.msgQueueName)
    (joinable : next.joinable = state.joinable) :
    Placed next where
  isInitialized := initialized.trans placed.isInitialized
  named := by
    rw [name]
    exact placed.named
  joined := by
    intro unjoinable
    have rests := placed.joined (joinable.symm.trans unjoinable)
    exact absurd (isBusy.symm.trans rests) Bool.false_ne_true
  resting := by
    intro unlinks
    have rests := placed.resting (owner ▸ unlinks)
    exact absurd (isBusy.symm.trans rests) Bool.false_ne_true
  closed := by
    intro isDead
    have rests := placed.resting (by rw [← owner, isDead]; rfl)
    exact absurd (isBusy.symm.trans rests) Bool.false_ne_true

/-- A step of the worker. -/
theorem workerStep
    (placed : Placed state)
    {answer : Select}
    {next : State}
    (stepped : workerStep? state answer = some next) :
    Placed next := by
  cases workerStep_cases stepped with
  | moved bare =>
      exact placed.of_worker (Worker.rests_of_isBare bare) rfl rfl rfl rfl
  | left stands | taken stands | processed stands | stopped stands
  | drained stands | finished stands =>
      exact placed.of_worker (by rw [stands]; rfl) rfl rfl rfl rfl

/-- Every step keeps who has come to rest. -/
theorem step
    (placed : Placed state)
    {action : Action}
    {next : State}
    (stepped : opened.step? state action = some next) :
    Placed next := by
  simp only [opened, machine, Option.ite_none_right_eq_some] at stepped
  obtain ⟨admitted, stepped⟩ := stepped
  cases action with
  | init name maxmsg answer =>
      cases admitted
  | startThread =>
      simp only [step?, Option.ite_none_right_eq_some,
        Option.some.injEq, startThread] at stepped
      obtain ⟨idle, rfl⟩ := stepped
      split
      · split
        · exact placed
        · refine ⟨placed.isInitialized, placed.named, ?_, ?_, ?_⟩
          · intro unjoinable
            cases unjoinable
          · intro unlinks
            rw [idle] at unlinks
            cases unlinks
          · intro isDead
            rw [idle] at isDead
            cases isDead
      · exact placed
  | stopThread | destroy =>
      simp only [step?, Option.ite_none_right_eq_some,
        Option.some.injEq] at stepped
      obtain ⟨_, rfl⟩ := stepped
      apply placed.advance
      split <;> rfl
  | owner accepts =>
      exact placed.ownerStep stepped
  | worker answer =>
      exact placed.workerStep stepped
  | sendMsg msgId carries accepts =>
      simp only [step?, Option.ite_none_right_eq_some,
        Option.some.injEq] at stepped
      obtain ⟨_, rfl⟩ := stepped
      exact placed.sent (handOver_sendMsg ..)
  | send msgId carries s32Prio accepts =>
      simp only [step?, Option.some.injEq] at stepped
      subst next
      exact placed.sent (handOver_send ..)

end Placed

/-- An object behind its `Init` has no worker and an empty queue. -/
theorem placed_of_initial
    {state : State}
    (initial : opened.Initial state) :
    Placed state := by
  obtain ⟨name, maxmsg, fd, opens, rfl⟩ := initial
  exact ⟨rfl, opens.2.2, fun _ => rfl, fun _ => rfl,
    fun isDead => by cases isDead⟩

/-- An object behind its `Init` has been handed nothing. -/
theorem kept_of_initial
    {state : State}
    (initial : opened.Initial state) :
    Kept state := by
  obtain ⟨name, maxmsg, fd, opens, rfl⟩ := initial
  have empty :
      (init threadWithMsgQueue name maxmsg (some fd)).1.queued = [] := by
    rw [State.queued, State.messages]
    simp [init]
  refine ⟨?_, ?_, ?_, ?_⟩
  · intro payload
    rw [State.tally, empty]
    rfl
  · intro payload member
    rw [empty] at member
    cases member
  · intro payload member
    cases member
  · intro msg isMsg
    cases isMsg

namespace Kept

variable {state : State}

/-- A payload moves from one place to another. -/
theorem of_tally
    (kept : Kept state)
    {next : State}
    (accepted : next.accepted = state.accepted)
    (payloads : next.payloads = state.payloads)
    (tally : ∀ payload, next.tally payload = state.tally payload)
    (fewer :
      ∀ payload ∈ next.queued ++ next.worker.inHand,
        payload ∈ state.queued ++ state.worker.inHand)
    (bareStop :
      ∀ msg,
        next.worker = .processMsg msg →
        msg.msgId = msgIdStopThread →
        msg.payload = none) :
    Kept next where
  ledger := by
    intro payload
    rw [tally, payloads]
    exact kept.ledger payload
  waiting := by
    intro payload member
    rw [accepted]
    exact kept.waiting payload (fewer payload member)
  known := by
    intro payload member
    rw [payloads]
    exact kept.known payload (accepted ▸ member)
  bareStop := bareStop

/-- A message that is handed over has a new payload or none. -/
theorem sent
    (kept : Kept state)
    (isInitialized : state.initialized = true)
    {msgId : UInt64}
    {carries : Bool}
    {next : State}
    (sent :
      Sent (state.issue carries) ⟨msgId, state.newPayload carries⟩ next) :
    Kept next := by
  have known :
      ∀ payload ∈ state.accepted,
        payload < (state.issue carries).payloads := by
    intro payload member
    exact lt_issue (kept.known payload member)
  have ledger :
      ∀ payload,
        next.tally payload = if payload < next.payloads then 1 else 0 := by
    intro payload
    have before : (state.issue carries).tally payload =
        if payload < state.payloads then 1 else 0 :=
      kept.ledger payload
    have samePayloads : next.payloads = (state.issue carries).payloads := by
      cases sent <;> rfl
    rw [tally_of_sent sent, before, samePayloads]
    exact ledger_issue
  cases sent with
  | refused =>
      exact ⟨ledger, kept.waiting, known, kept.bareStop⟩
  | discarded uninitialized =>
      exact absurd (isInitialized.symm.trans uninitialized)
        Bool.false_ne_true.symm
  | queued _ sent =>
      refine ⟨ledger, ?_, ?_, kept.bareStop⟩
      · intro payload member
        rcases List.mem_append.mp member with inQueue | inHand
        · have moved := (queued_of_send sent).mem_iff.mp inQueue
          rcases List.mem_append.mp moved with new | old
          · exact List.mem_append_left _ new
          · exact List.mem_append_right _
              (kept.waiting payload (List.mem_append_left _ old))
        · exact List.mem_append_right _
            (kept.waiting payload (List.mem_append_right _ inHand))
      · intro payload member
        rcases List.mem_append.mp member with new | old
        · exact (eq_of_mem_newPayload new).2
        · exact known payload old

/-- Every step that loses nothing keeps every payload in one place. -/
theorem step
    (kept : Kept state)
    (placed : Placed state)
    {action : Action}
    {next : State}
    (losesNone : LosesNone state action)
    (effect : Effect state action next) :
    Kept next := by
  cases effect with
  | quiet frame freed queued =>
      apply kept.of_tally frame.accepted frame.payloads
      · intro payload
        rw [State.tally, freed, queued.count_eq, frame.inHand]
        rfl
      · intro payload member
        rw [frame.inHand] at member
        exact (queued.append_right _).mem_iff.mp member
      · intro msg isMsg
        exact kept.bareStop msg (frame.processMsg msg isMsg)
  | handedOver msgId carries sent =>
      exact kept.sent placed.isInitialized sent
  | drained msg frame freed queued =>
      apply kept.of_tally frame.accepted frame.payloads
      · intro payload
        simp only [State.tally, freed, queued, frame.inHand,
          List.count_append]
        omega
      · intro payload member
        rw [queued, List.append_assoc]
        rw [frame.inHand] at member
        exact List.mem_append_right _ member
      · intro other isMsg
        exact kept.bareStop other (frame.processMsg other isMsg)
  | taken answer prio msg isWorker atReceive split taken =>
      have queued : state.queued = msg.payload.toList ++ next.queued := by
        rw [State.queued, split, List.filterMap_cons, State.queued]
        cases msg.payload <;> rfl
      have inHand : next.worker.inHand = msg.payload.toList := by
        rw [taken]
        rfl
      have freed : next.freed = state.freed := by rw [taken]
      have hadNone : state.worker.inHand = [] := by
        rw [atReceive]
        rfl
      apply kept.of_tally
      · rw [taken]
      · rw [taken]
      · intro payload
        simp only [State.tally, freed, queued, inHand, hadNone,
          List.count_append, List.count_nil]
        omega
      · intro payload member
        rw [queued, hadNone, List.append_nil]
        rw [inHand] at member
        exact (List.perm_append_comm).mem_iff.mp member
      · intro other isOther isStop
        rw [taken] at isOther
        obtain rfl := Worker.processMsg.inj isOther
        subst action
        exact losesNone atReceive (prio, msg)
          (by rw [split, List.head?_cons]; rfl) isStop
  | processed msg nrOfProcessedMsgs inHand notStop processed =>
      subst next
      have hadMsg : state.worker.inHand = msg.payload.toList := by
        rw [inHand]
        rfl
      refine kept.of_tally rfl rfl ?_ ?_ ?_
      · intro payload
        change (msg.payload.toList ++ state.freed).count payload +
          state.queued.count payload + 0 = state.tally payload
        rw [State.tally, hadMsg, List.count_append]
        omega
      · intro payload member
        rcases List.mem_append.mp member with inQueue | inNoHand
        · exact List.mem_append_left _ inQueue
        · cases inNoHand
      · intro other isMsg
        cases isMsg
  | dropped msg inHand isStop dropped =>
      subst next
      have hadNone : state.worker.inHand = [] := by
        rw [inHand, Worker.inHand, kept.bareStop msg inHand isStop]
        rfl
      refine kept.of_tally rfl rfl ?_ ?_ ?_
      · intro payload
        rw [State.tally, State.tally, hadNone]
        rfl
      · intro payload member
        rcases List.mem_append.mp member with inQueue | inNoHand
        · exact List.mem_append_left _ inQueue
        · cases inNoHand
      · intro other isMsg
        cases isMsg
  | closed accepts isOwner atClose frame freed empty =>
      subst action
      have wasEmpty : state.queued = [] :=
        List.filterMap_eq_nil_iff.mpr (losesNone atClose)
      apply kept.of_tally frame.accepted frame.payloads
      · intro payload
        rw [State.tally, State.tally, freed, empty, wasEmpty, frame.inHand]
      · intro payload member
        rw [empty, frame.inHand] at member
        rw [wasEmpty]
        exact member
      · intro msg isMsg
        exact kept.bareStop msg (frame.processMsg msg isMsg)

end Kept

/-- Every run that loses nothing keeps every payload in one place. -/
theorem placed_kept_of_reachable
    {state : State}
    (reachable : opened.ReachableWhere LosesNone state) :
    Placed state ∧ Kept state := by
  apply reachable.invariant
  · intro start initial
    exact ⟨placed_of_initial initial, kept_of_initial initial⟩
  · rintro before after action ⟨placed, kept⟩ losesNone stepped
    exact ⟨placed.step stepped,
      kept.step placed losesNone (effect_of_step placed stepped)⟩

namespace Lost

variable {state : State}
variable {payload : Nat}

/-- A payload that is handed over later is another one. -/
theorem sent
    (lost : Lost state payload)
    {msgId : UInt64}
    {carries : Bool}
    {next : State}
    (sent :
      Sent (state.issue carries) ⟨msgId, state.newPayload carries⟩ next) :
    Lost next payload := by
  have another : payload ∉ (state.newPayload carries).toList := by
    intro member
    exact Nat.ne_of_lt lost.known (eq_of_mem_newPayload member).1
  have known : payload < (state.issue carries).payloads :=
    lt_issue lost.known
  have notFreed :
      payload ∉ (state.newPayload carries).toList ++ state.freed := by
    intro member
    rcases List.mem_append.mp member with new | old
    · exact another new
    · exact lost.notFreed old
  cases sent with
  | refused =>
      exact ⟨lost.accepted, known, notFreed, lost.notQueued, lost.inHand⟩
  | discarded =>
      exact ⟨List.mem_append_right _ lost.accepted, known, notFreed,
        lost.notQueued, lost.inHand⟩
  | queued _ sent =>
      refine ⟨List.mem_append_right _ lost.accepted, known, lost.notFreed,
        ?_, lost.inHand⟩
      intro inQueue
      have moved := (queued_of_send sent).mem_iff.mp inQueue
      rcases List.mem_append.mp moved with new | old
      · exact another new
      · exact lost.notQueued old

/-- No step frees a lost payload. -/
theorem step
    (lost : Lost state payload)
    {action : Action}
    {next : State}
    (effect : Effect state action next) :
    Lost next payload := by
  cases effect with
  | quiet frame freed queued =>
      refine ⟨frame.accepted ▸ lost.accepted, frame.payloads ▸ lost.known,
        freed ▸ lost.notFreed, ?_, ?_⟩
      · exact mt queued.mem_iff.mp lost.notQueued
      · intro msg isMsg
        exact lost.inHand msg (frame.processMsg msg isMsg)
  | handedOver msgId carries sent =>
      exact lost.sent sent
  | drained msg frame freed queued =>
      have notQueued := lost.notQueued
      rw [queued, List.mem_append, not_or] at notQueued
      refine ⟨frame.accepted ▸ lost.accepted, frame.payloads ▸ lost.known,
        ?_, notQueued.2, ?_⟩
      · rw [freed, List.mem_append, not_or]
        exact ⟨notQueued.1, lost.notFreed⟩
      · intro other isMsg
        exact lost.inHand other (frame.processMsg other isMsg)
  | taken answer prio msg isWorker atReceive split taken =>
      have notQueued := lost.notQueued
      rw [State.queued, split] at notQueued
      refine ⟨?_, ?_, ?_, ?_, ?_⟩
      · rw [taken]
        exact lost.accepted
      · rw [taken]
        exact lost.known
      · rw [taken]
        exact lost.notFreed
      · intro inQueue
        obtain ⟨entry, member, carries⟩ := List.mem_filterMap.mp inQueue
        exact notQueued (List.mem_filterMap.mpr
          ⟨entry, List.mem_cons_of_mem _ member, carries⟩)
      · intro other isOther carries
        rw [taken] at isOther
        obtain rfl := Worker.processMsg.inj isOther
        exact (notQueued (List.mem_filterMap.mpr
          ⟨(prio, msg), List.mem_cons_self, carries⟩)).elim
  | processed msg nrOfProcessedMsgs inHand notStop processed =>
      subst next
      refine ⟨lost.accepted, lost.known, ?_, lost.notQueued, ?_⟩
      · intro freed
        rcases List.mem_append.mp freed with now | earlier
        · exact notStop
            (lost.inHand msg inHand (Option.mem_toList.mp now))
        · exact lost.notFreed earlier
      · intro other isMsg
        cases isMsg
  | dropped msg inHand isStop dropped =>
      subst next
      refine ⟨lost.accepted, lost.known, lost.notFreed, lost.notQueued, ?_⟩
      intro other isMsg
      cases isMsg
  | closed accepts isOwner atClose frame freed empty =>
      refine ⟨frame.accepted ▸ lost.accepted, frame.payloads ▸ lost.known,
        freed ▸ lost.notFreed, ?_, ?_⟩
      · rw [empty]
        exact List.not_mem_nil
      · intro msg isMsg
        exact lost.inHand msg (frame.processMsg msg isMsg)

/-- A lost payload is never freed. -/
theorem run
    (lost : Lost state payload)
    (placed : Placed state)
    {actions : List Action}
    {final : State}
    (ran : opened.run? state actions = some final) :
    Lost final payload := by
  have both :=
    @Machine.run?_invariant State Action opened
      (fun state => Placed state ∧ Lost state payload)
      (fun {before after action} ⟨placed, lost⟩ stepped =>
        ⟨placed.step stepped, lost.step (effect_of_step placed stepped)⟩)
      state final actions ⟨placed, lost⟩ ran
  exact both.2

end Lost

/-- A payload that waits or is in the worker's hands has not been freed. -/
theorem Kept.unfreed
    {state : State}
    (kept : Kept state)
    {payload : Nat}
    (queued : payload ∈ state.queued) :
    payload ∉ state.freed ∧
      state.queued.count payload = 1 ∧
      payload ∉ state.worker.inHand ∧
      payload < state.payloads := by
  have below :=
    kept.known payload (kept.waiting payload (List.mem_append_left _ queued))
  have tally := kept.ledger payload
  have waits := List.count_pos_iff.mpr queued
  rw [State.tally, if_pos below] at tally
  refine ⟨?_, ?_, ?_, below⟩
  · intro freed
    have := List.count_pos_iff.mpr freed
    omega
  · omega
  · intro inHand
    have := List.count_pos_iff.mpr inHand
    omega

/-- The loop loses the payload of a message that it takes for a stop. -/
theorem lost_of_takenStop
    {state next : State}
    {answer : Select}
    (kept : Kept state)
    (stepped : workerStep? state answer = some next)
    (atReceive : state.worker = .mqReceive)
    {first : UInt32 × Message}
    {rest : List (UInt32 × Message)}
    (stored : state.messages = first :: rest)
    (isStop : first.2.msgId = msgIdStopThread)
    {payload : Nat}
    (carries : first.2.payload = some payload) :
    Lost next payload := by
  obtain ⟨kernel, received, left⟩ := Kernel.exists_mqReceive stored
  simp only [workerStep?, atReceive, received, Option.some.injEq] at stepped
  subst next
  have queued :
      state.queued =
        payload :: rest.filterMap fun entry => entry.2.payload := by
    rw [State.queued, stored, List.filterMap_cons, carries]
  have member : payload ∈ state.queued := by
    rw [queued]
    exact List.mem_cons_self
  obtain ⟨notFreed, once, _, known⟩ := kept.unfreed member
  refine ⟨kept.waiting payload (List.mem_append_left _ member), known,
    notFreed, ?_, ?_⟩
  · intro again
    have inRest :
        payload ∈ rest.filterMap fun entry => entry.2.payload := by
      rw [← left]
      exact again
    rw [queued, List.count_cons_self] at once
    exact List.count_eq_zero.mp (Nat.succ.inj once) inRest
  · intro msg isMsg _
    obtain rfl := Worker.processMsg.inj isMsg
    exact isStop

/-- `mq_close` loses a payload that is left in the queue. -/
theorem lost_of_closed
    {state next : State}
    {accepts : Bool}
    (kept : Kept state)
    (placed : Placed state)
    (stepped : ownerStep? state accepts = some next)
    (atClose : state.owner = .close)
    {payload : Nat}
    (queued : payload ∈ state.queued) :
    Lost next payload := by
  obtain ⟨notFreed, _, _, known⟩ := kept.unfreed queued
  have rests := placed.resting (by rw [atClose]; rfl)
  simp only [ownerStep?, atClose] at stepped
  split at stepped
  · rename_i notOpen
    have closed := Kernel.mqClose_eq_none_iff.mp notOpen
    rw [State.queued, State.messages,
      Kernel.messagesAt_of_closed closed] at queued
    cases queued
  · rename_i kernel closed
    obtain rfl := Option.some.inj stepped
    obtain ⟨_, _, rfl⟩ := Kernel.mqClose_eq_some_iff.mp closed
    refine ⟨kept.waiting payload (List.mem_append_left _ queued), known,
      notFreed, ?_, ?_⟩
    · rw [State.queued, State.messages,
        Kernel.messagesAt_of_closed (Function.update_self ..)]
      exact List.not_mem_nil
    · intro msg isMsg _
      change state.worker = .processMsg msg at isMsg
      rw [isMsg] at rests
      cases rests

/-- A step that breaks the condition loses an accepted payload. -/
theorem exists_lost
    {state next : State}
    {action : Action}
    (kept : Kept state)
    (placed : Placed state)
    (stepped : opened.step? state action = some next)
    (loses : ¬ LosesNone state action) :
    ∃ payload, Lost next payload := by
  cases action with
  | worker answer =>
      simp only [LosesNone, Classical.not_imp, Classical.not_forall] at loses
      obtain ⟨atReceive, first, isFirst, isStop, carries⟩ := loses
      obtain ⟨payload, isPayload⟩ := Option.ne_none_iff_exists'.mp carries
      obtain ⟨rest, stored⟩ := List.head?_eq_some_iff.mp isFirst
      exact ⟨payload,
        lost_of_takenStop kept stepped atReceive stored isStop isPayload⟩
  | owner accepts =>
      simp only [LosesNone, Classical.not_imp, Classical.not_forall] at loses
      obtain ⟨atClose, entry, member, carries⟩ := loses
      obtain ⟨payload, isPayload⟩ := Option.ne_none_iff_exists'.mp carries
      exact ⟨payload,
        lost_of_closed kept placed stepped atClose
          (List.mem_filterMap.mpr ⟨entry, member, isPayload⟩)⟩
  | init _ _ _ | startThread | stopThread | destroy
  | sendMsg _ _ _ | send _ _ _ _ =>
      exact absurd trivial loses

/-- Behind the destruction every payload handed over has been freed once. -/
theorem Kept.freedOnce
    {state : State}
    (kept : Kept state)
    (placed : Placed state)
    (isDead : state.owner = .dead)
    {payload : Nat}
    (accepted : payload ∈ state.accepted) :
    state.freed.count payload = 1 := by
  have rests := placed.resting (by rw [isDead]; rfl)
  have tally := kept.ledger payload
  rw [if_pos (kept.known payload accepted), State.tally, State.queued,
    State.messages, Kernel.messagesAt_of_closed (placed.closed isDead),
    Worker.inHand_of_rests rests] at tally
  exact tally

/--
Behind the destruction every accepted payload has been freed once, exactly in
the runs in which the loop takes no stop that carries a payload and `mq_close`
finds no payload in the queue: such runs free all of them, and a step that
breaks the condition leaves an accepted payload that no continuation frees.
-/
theorem freedOnce_iff_losesNone
    {state : State}
    (reachable : opened.ReachableWhere LosesNone state) :
    (state.owner = .dead →
      ∀ payload ∈ state.accepted, state.freed.count payload = 1) ∧
      ∀ next action,
        opened.step? state action = some next →
        ¬ LosesNone state action →
        ∃ payload ∈ next.accepted,
          ∀ actions final,
            opened.run? next actions = some final →
            payload ∉ final.freed := by
  obtain ⟨placed, kept⟩ := placed_kept_of_reachable reachable
  constructor
  · intro isDead payload accepted
    exact kept.freedOnce placed isDead accepted
  · intro next action stepped loses
    obtain ⟨payload, lost⟩ := exists_lost kept placed stepped loses
    refine ⟨payload, lost.accepted, ?_⟩
    intro actions final ran
    exact (lost.run (placed.step stepped) ran).notFreed

/--
Of four messages with payloads the loop processes one, the drain of the worker
frees a second and the destructor a third; the last one is refused.
-/
theorem freedOnce_iff_losesNone_drained :
    ∃ state,
      opened.ReachableWhere LosesNone state ∧
        state.owner = .dead ∧ state.accepted = [2, 1, 0] ∧
        ∀ payload ∈ state.accepted, state.freed.count payload = 1 := by
  obtain ⟨state, reachable, ended⟩ :=
    Machine.ReachableWhere.exists_of_run
      opened
      LosesNone
      (init threadWithMsgQueue "/queue" 10 (some 3)).1
      [
        .startThread,
        .sendMsg 7 true true,
        .worker .readable, .worker .readable, .worker .readable,
        .worker .readable, .worker .readable,
        .send 1 true 1 true,
        .destroy, .owner true, .owner true, .owner true,
        .worker .readable,
        .worker .readable, .worker .readable, .worker .readable,
        .owner true,
        .send 9 true 0 true,
        .owner true, .owner true, .owner true,
        .send 9 true 0 true
      ]
      (fun state =>
        decide (state.owner = .dead ∧ state.accepted = [2, 1, 0]))
      ⟨"/queue", 10, 3, by decide, rfl⟩ (by decide) (by decide)
  obtain ⟨isDead, accepted⟩ := of_decide_eq_true ended
  exact ⟨state, reachable, isDead, accepted,
    (freedOnce_iff_losesNone reachable).1 isDead⟩

/--
A message with the id of a stop and a payload is read by the loop, and nothing
frees its payload until the object is gone.
-/
theorem stopWithPayload_leaks :
    ¬ ∀ state,
      opened.Reachable state →
        state.owner = .dead →
        ∀ payload ∈ state.accepted, state.freed.count payload = 1 := by
  intro alwaysFreed
  obtain ⟨state, reachable, ended⟩ :=
    Machine.ReachableWhere.exists_of_run
      opened
      (fun _ _ => True)
      (init threadWithMsgQueue "/queue" 10 (some 3)).1
      [
        .startThread,
        .sendMsg 1 true true,
        .worker .readable, .worker .readable, .worker .readable,
        .worker .readable, .worker .readable, .worker .readable,
        .worker .readable,
        .destroy, .owner true, .owner true, .owner true, .owner true,
        .owner true, .owner true, .owner true
      ]
      (fun state =>
        decide (state.owner = .dead ∧ state.accepted = [0] ∧
          state.freed = []))
      ⟨"/queue", 10, 3, by decide, rfl⟩
      (opened.respects_of_forall (fun _ _ => trivial) _)
      (by decide)
  obtain ⟨isDead, accepted, freed⟩ := of_decide_eq_true ended
  have once := alwaysFreed state reachable isDead 0 (by simp [accepted])
  simp [freed] at once

end WkcRuntime.MessageThread
