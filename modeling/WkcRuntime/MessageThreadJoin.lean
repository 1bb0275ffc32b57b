import WkcRuntime.MessageThreadOrder
import WkcRuntime.MessageThreadStop

namespace WkcRuntime.MessageThread

open MessageQueue
open ThreadObj (Select msgIdStopThread)

/-!
# Whether a stop returns

`StopThread(true)` tells its worker twice that it has to end and then waits for
it.  A worker that sleeps in `select` sees no flag, so the wait rests on the
message, and the queue may have refused that one.  Behind a message that the
queue took, and wherever else the worker is not asleep on an empty queue, the
worker needs a bounded number of steps of its own: what its place leaves to do,
and one for each message that waits or is still sent.
-/

/-- A step of the owner. -/
def Action.isOwner : Action → Bool
  | .owner _ =>
      true
  | .init .. | .startThread | .stopThread | .destroy | .worker _
  | .sendMsg .. | .send .. =>
      false

/-- A step of the worker. -/
def Action.isWorker : Action → Bool
  | .worker _ =>
      true
  | .init .. | .startThread | .stopThread | .destroy | .owner _
  | .sendMsg .. | .send .. =>
      false

/-- The worker waits for a message, or is about to, and there is none. -/
def Stranded (state : State) : Prop :=
  state.messages = [] ∧
    (state.worker = .select ∨
      state.worker = .receive ∧ 0 < state.msgQueueFd)

/-- How many steps a worker needs once its flag is set and its queue empty. -/
def Worker.untilEnd : Worker → Nat
  | .notStarted | .finished =>
      0
  | .clear =>
      1
  | .testFlag =>
      2
  | .processMsg _ | .mqReceive | .sleep =>
      3
  | .select =>
      4
  | .receive =>
      5

/-- The same with the messages that it has to take out first. -/
def State.untilEnd (state : State) : Nat :=
  state.messages.length + state.worker.untilEnd

/-- No message comes in, and `select` answers only where one is there. -/
def Quiet (state : State) : Action → Prop
  | .worker _ =>
      state.worker = .select → state.messages ≠ []
  | action =>
      state.entering action = []

/-- The queue takes the message of every `StopThread`. -/
def Heard (state : State) : Action → Prop
  | .owner accepts =>
      ∀ destroys,
        state.owner = .sendStop destroys →
        state.entering (.owner accepts) ≠ []
  | _ =>
      True

instance (state : State) :
    ∀ action, Decidable (Heard state action)
  | .owner accepts =>
      inferInstanceAs
        (Decidable
          (∀ destroys,
            state.owner = .sendStop destroys →
            state.entering (.owner accepts) ≠ []))
  | .init .. | .startThread | .stopThread | .destroy | .worker _
  | .sendMsg .. | .send .. =>
      .isTrue trivial

/--
Until the owner goes on, the worker takes no more steps than it has left to do
and messages come in, and has finished, so that the owner can go on, or can
take the next one: out of `select` as there is a message.
-/
def JoinReturns (state : State) (destroys : Bool) : Prop :=
  ∀ actions final,
    (∀ action ∈ actions, action.isOwner = false) →
    opened.run? state actions = some final →
    actions.countP Action.isWorker ≤
        state.untilEnd +
          (opened.trace State.entering state actions).length ∧
      ((∀ accepts,
          ∃ next,
            opened.step? final (.owner accepts) = some next ∧
              next.owner = behindStop final destroys) ∨
        (∃ next, opened.step? final (.worker .readable) = some next) ∧
          (final.worker = .select → final.messages ≠ []))

section Steps

variable {state next : State}
variable {action : Action}
variable {destroys : Bool}

/-- What the calls of `StopThread` rest on. -/
structure Called (state : State) : Prop where
  started :
    state.joinable = true → state.worker ≠ .notStarted
  setting :
    ∀ destroys, state.owner = .setFlag destroys → state.joinable = true
  joining :
    ∀ destroys,
      state.owner = .join destroys →
      state.joinable = true ∧ state.stopRequested = true

/-- Behind `Init` nothing has been called. -/
theorem called_of_initial (initial : opened.Initial state) :
    Called state := by
  obtain ⟨name, maxmsg, fd, _, rfl⟩ := initial
  exact ⟨by rintro ⟨⟩, by rintro _ ⟨⟩, by rintro _ ⟨⟩⟩

/-- Where the owner, the flag and the thread stay, `Called` stays. -/
theorem Called.frame
    (called : Called state)
    (owner : next.owner = state.owner)
    (joinable : next.joinable = state.joinable)
    (flag : state.stopRequested = true → next.stopRequested = true)
    (worker :
      state.worker ≠ .notStarted → next.worker ≠ .notStarted) :
    Called next := by
  refine ⟨?_, ?_, ?_⟩
  · rw [joinable]
    exact fun isJoinable => worker (called.started isJoinable)
  · rw [owner, joinable]
    exact called.setting
  · rw [owner, joinable]
    intro destroys joins
    obtain ⟨isJoinable, flagged⟩ := called.joining destroys joins
    exact ⟨isJoinable, flag flagged⟩

/-- Where the owner goes to a place that is not a wait, `Called` stays. -/
theorem Called.goto
    (called : Called state)
    (worker : next.worker = state.worker)
    (joinable : next.joinable = true → state.joinable = true)
    (setting : ∀ destroys, next.owner = .setFlag destroys →
      next.joinable = true)
    (joining : ∀ destroys, next.owner ≠ .join destroys) :
    Called next := by
  refine ⟨?_, setting, fun destroys joins => (joining destroys joins).elim⟩
  intro isJoinable
  rw [worker]
  exact called.started (joinable isJoinable)

/-- Behind `StopThread` the owner waits for nobody. -/
theorem behindStop_free
    (state : State)
    (destroys other : Bool) :
    behindStop state destroys ≠ .setFlag other ∧
      behindStop state destroys ≠ .join other := by
  rw [behindStop]
  split
  · split <;> exact ⟨by rintro ⟨⟩, by rintro ⟨⟩⟩
  · exact ⟨by rintro ⟨⟩, by rintro ⟨⟩⟩

/-- A step of the owner keeps `Called`. -/
theorem Called.ownerStep
    {accepts : Bool}
    (called : Called state)
    (stepped : ownerStep? state accepts = some next) :
    Called next := by
  cases ownerStep_cases stepped with
  | notSent | sent | emptied | closed | notOpen =>
      exact called.goto rfl id (by rintro _ ⟨⟩) (by rintro _ ⟨⟩)
  | joinable stands isJoinable =>
      exact called.goto rfl id (fun _ _ => isJoinable) (by rintro _ ⟨⟩)
  | unjoinable =>
      exact called.goto rfl id
        (fun other sets => ((behindStop_free ..).1 sets).elim)
        (fun other => (behindStop_free ..).2)
  | joined =>
      exact called.goto rfl (by rintro ⟨⟩)
        (fun other sets => ((behindStop_free ..).1 sets).elim)
        (fun other => (behindStop_free ..).2)
  | flagSet stands =>
      exact ⟨called.started, by rintro _ ⟨⟩,
        fun _ _ => ⟨called.setting _ stands, rfl⟩⟩
  | received =>
      exact called.frame rfl rfl id id

/-- A step of the worker keeps `Called`. -/
theorem Called.workerStep
    {answer : Select}
    (called : Called state)
    (stepped : workerStep? state answer = some next) :
    Called next := by
  cases workerStep_cases stepped with
  | moved _ bare =>
      refine called.frame rfl rfl id ?_
      rintro _ rfl
      cases bare
  | left | taken | processed | finished =>
      exact called.frame rfl rfl id (fun _ => by rintro ⟨⟩)
  | stopped =>
      exact called.frame rfl rfl (fun _ => rfl) (fun _ => by rintro ⟨⟩)
  | drained =>
      exact called.frame rfl rfl id id

/-- A send keeps `Called`. -/
theorem Called.sent
    {carries : Bool}
    {msg : Message}
    (called : Called state)
    (sent : Sent (state.issue carries) msg next) :
    Called next := by
  cases sent <;> exact called.frame rfl rfl id id

/-- Every step keeps `Called`. -/
theorem Called.step
    (called : Called state)
    (stepped : opened.step? state action = some next) :
    Called next := by
  simp only [opened, machine, Option.ite_none_right_eq_some] at stepped
  obtain ⟨admitted, stepped⟩ := stepped
  cases action with
  | init name maxmsg answer =>
      cases admitted
  | startThread =>
      simp only [step?, Option.ite_none_right_eq_some, Option.some.injEq,
        startThread] at stepped
      obtain ⟨idle, rfl⟩ := stepped
      split
      · split
        · exact called
        · refine ⟨fun _ => by rintro ⟨⟩, fun _ _ => rfl, ?_⟩
          intro destroys joins
          rw [idle] at joins
          cases joins
      · exact called
  | stopThread | destroy =>
      simp only [step?, Option.ite_none_right_eq_some,
        Option.some.injEq] at stepped
      obtain ⟨_, rfl⟩ := stepped
      refine called.goto rfl id ?_ ?_
      · intro destroys
        simp only [stopThread]
        split <;> rintro ⟨⟩
      · intro destroys
        simp only [stopThread]
        split <;> rintro ⟨⟩
  | owner accepts =>
      exact called.ownerStep stepped
  | worker answer =>
      exact called.workerStep stepped
  | sendMsg msgId carries accepts =>
      simp only [step?, Option.ite_none_right_eq_some,
        Option.some.injEq] at stepped
      obtain ⟨_, rfl⟩ := stepped
      exact called.sent (handOver_sendMsg ..)
  | send msgId carries s32Prio accepts =>
      simp only [step?, Option.some.injEq] at stepped
      subst next
      exact called.sent (handOver_send ..)

/-- A send lengthens the queue by what it puts in. -/
theorem length_send
    (state : State)
    (msg : Message)
    (s32Prio : UInt32)
    (accepts : Bool) :
    (send state msg s32Prio accepts).1.messages.length =
      state.messages.length + (state.puts msg s32Prio accepts).length := by
  rw [State.puts]
  obtain ⟨_, failed, sent⟩ | ⟨_, kernel, queued, sent⟩ :=
    send_cases state msg s32Prio accepts
  · rw [sent, if_neg failed]
    rfl
  · rw [sent, if_pos rfl]
    change (kernel.messagesAt state.msgQueueFd).length = _
    rw [Kernel.messagesAt_of_mqSend queued,
      (insertByPriority_perm ..).length_eq]
    rfl

/-- The owner waits, and the worker is not asleep for good. -/
structure Ending (state : State) (destroys : Bool) : Prop where
  called :
    Called state
  joining :
    state.owner = .join destroys
  awake :
    ¬ Stranded state

/-- A send leaves the worker where it is, and the queue no emptier. -/
theorem Ending.sent
    {come : List (UInt32 × Message)}
    (ending : Ending state destroys)
    (called : Called next)
    (owner : next.owner = state.owner)
    (worker : next.worker = state.worker)
    (msgQueueFd : next.msgQueueFd = state.msgQueueFd)
    (longer :
      next.messages.length = state.messages.length + come.length) :
    Ending next destroys ∧
      next.untilEnd ≤ state.untilEnd + come.length := by
  refine ⟨⟨called, owner.trans ending.joining, ?_⟩, ?_⟩
  · rintro ⟨empty, asleep⟩
    rw [empty, List.length_nil] at longer
    refine ending.awake ⟨List.length_eq_zero_iff.mp (by omega), ?_⟩
    rw [← worker, ← msgQueueFd]
    exact asleep
  · rw [State.untilEnd, State.untilEnd, longer, worker]
    omega

/-- A send of a message leaves the owner, the worker and the number. -/
theorem frame_sent
    {carries : Bool}
    {msg : Message}
    (sent : Sent (state.issue carries) msg next) :
    next.owner = state.owner ∧ next.worker = state.worker ∧
      next.msgQueueFd = state.msgQueueFd := by
  cases sent <;> exact ⟨rfl, rfl, rfl⟩

/-- Handing over a message lengthens the queue by what comes in. -/
theorem length_entering_sendMsg
    (state : State)
    (msgId : UInt64)
    (carries accepts : Bool) :
    (handOver (sendMsg · · accepts) state msgId carries).messages.length =
      state.messages.length +
        (state.entering (.sendMsg msgId carries accepts)).length := by
  rw [messages_handOver, State.entering]
  by_cases isInitialized : state.initialized = true
  · have stillInitialized : (state.issue carries).initialized = true :=
      isInitialized
    rw [if_pos isInitialized, sendMsg, if_pos stillInitialized, length_send]
    rfl
  · have stillNot : ¬ (state.issue carries).initialized = true :=
      isInitialized
    rw [if_neg isInitialized, sendMsg, if_neg stillNot]
    rfl

/-- The same through the descriptor. -/
theorem length_entering_send
    (state : State)
    (msgId : UInt64)
    (carries : Bool)
    (s32Prio : UInt32)
    (accepts : Bool) :
    (handOver (send · · s32Prio accepts) state msgId carries).messages.length =
      state.messages.length +
        (state.entering (.send msgId carries s32Prio accepts)).length := by
  rw [messages_handOver, length_send]
  rfl

/-- A worker that is past `select` is not asleep. -/
theorem Worker.awake_of_untilEnd
    {worker : Worker}
    (past : worker.untilEnd ≤ 3) :
    worker ≠ .select ∧ worker ≠ .receive := by
  refine ⟨?_, ?_⟩
  · rintro rfl
    exact absurd past (by decide)
  · rintro rfl
    exact absurd past (by decide)

/-- A step of the worker brings its end nearer. -/
theorem Ending.workerStep
    {answer : Select}
    (ending : Ending state destroys)
    (stepped : workerStep? state answer = some next) :
    Ending next destroys ∧ next.untilEnd + 1 ≤ state.untilEnd := by
  have nextCalled := ending.called.workerStep stepped
  obtain ⟨_, flagged⟩ := ending.called.joining _ ending.joining
  have past :
      next.owner = state.owner →
      next.worker.untilEnd ≤ 3 →
      next.untilEnd + 1 ≤ state.untilEnd →
      Ending next destroys ∧ next.untilEnd + 1 ≤ state.untilEnd := by
    intro owner past nearer
    obtain ⟨notSelect, notReceive⟩ := Worker.awake_of_untilEnd past
    refine ⟨⟨nextCalled, owner.trans ending.joining, ?_⟩, nearer⟩
    rintro ⟨_, asleep | ⟨asleep, _⟩⟩
    · exact notSelect asleep
    · exact notReceive asleep
  unfold workerStep? at stepped
  simp only [State.untilEnd, State.messages] at past ⊢
  cases stands : state.worker <;> simp only [stands] at stepped past ⊢
  case notStarted | finished =>
    cases stepped
  case testFlag =>
    rw [if_pos flagged] at stepped
    cases stepped
    exact past rfl (by simp [Worker.untilEnd]) (by simp [Worker.untilEnd])
  case receive =>
    split at stepped
    · cases stepped
      exact past rfl (by simp [Worker.untilEnd]) (by simp [Worker.untilEnd])
    · next usable =>
        -- The worker goes to `select`, where a message already waits.
        cases stepped
        refine ⟨⟨nextCalled, ending.joining, ?_⟩, by simp [Worker.untilEnd]⟩
        rintro ⟨empty, _⟩
        exact ending.awake
          ⟨empty, .inr ⟨stands, Int32.not_le.mp usable⟩⟩
  case select =>
    split at stepped <;> cases stepped <;>
      exact past rfl (by simp [Worker.untilEnd]) (by simp [Worker.untilEnd])
  case processMsg msg =>
    split at stepped <;> cases stepped <;>
      exact past rfl (by simp [Worker.untilEnd])
        (by simp [State.free, Worker.untilEnd])
  case sleep =>
    cases stepped
    exact past rfl (by simp [Worker.untilEnd]) (by simp [Worker.untilEnd])
  case mqReceive | clear =>
    obtain ⟨noMessage, _⟩ | ⟨prio, msg, kernel, received, taken⟩ :=
      messages_receive _ rfl
        (Eq.refl (state.kernel.mqReceive state.msgQueueFd true))
    · rw [noMessage] at stepped
      cases stepped
      exact past rfl (by simp [Worker.untilEnd]) (by simp [Worker.untilEnd])
    · rw [received] at stepped
      cases stepped
      simp only [State.messages] at taken
      refine past rfl (by simp [State.free, Worker.untilEnd]) ?_
      simp only [taken, List.length_cons, State.free, Worker.untilEnd]
      omega

/-- Until the owner goes on, every step that is not a send is paid for. -/
theorem Ending.step
    (ending : Ending state destroys)
    (noOwner : action.isOwner = false)
    (stepped : opened.step? state action = some next) :
    Ending next destroys ∧
      next.untilEnd + action.isWorker.toNat ≤
        state.untilEnd + (state.entering action).length := by
  have nextCalled := ending.called.step stepped
  have notIdle : state.owner ≠ .idle := by
    rw [ending.joining]
    rintro ⟨⟩
  simp only [opened, machine, Option.ite_none_right_eq_some] at stepped
  obtain ⟨admitted, stepped⟩ := stepped
  cases action with
  | init name maxmsg answer =>
      cases admitted
  | startThread | stopThread | destroy =>
      rw [step?, if_neg notIdle] at stepped
      cases stepped
  | owner accepts =>
      cases noOwner
  | worker answer =>
      exact ending.workerStep stepped
  | sendMsg msgId carries accepts =>
      simp only [step?, Option.ite_none_right_eq_some,
        Option.some.injEq] at stepped
      obtain ⟨_, rfl⟩ := stepped
      obtain ⟨owner, worker, msgQueueFd⟩ :=
        frame_sent (handOver_sendMsg state msgId carries accepts)
      exact ending.sent nextCalled owner worker msgQueueFd
        (length_entering_sendMsg state msgId carries accepts)
  | send msgId carries s32Prio accepts =>
      simp only [step?, Option.some.injEq] at stepped
      subst next
      obtain ⟨owner, worker, msgQueueFd⟩ :=
        frame_sent (handOver_send state msgId carries s32Prio accepts)
      exact ending.sent nextCalled owner worker msgQueueFd
        (length_entering_send state msgId carries s32Prio accepts)

/-- A worker that has not finished can take its next step. -/
theorem exists_workerStep
    (started : state.worker ≠ .notStarted)
    (unfinished : state.worker ≠ .finished) :
    ∃ next, opened.step? state (.worker .readable) = some next := by
  change ∃ next, workerStep? state .readable = some next
  unfold workerStep?
  cases stands : state.worker <;> simp only
  case notStarted =>
    exact (started stands).elim
  case finished =>
    exact (unfinished stands).elim
  case testFlag | receive | processMsg =>
    split <;> exact ⟨_, rfl⟩
  case select | sleep =>
    exact ⟨_, rfl⟩
  case mqReceive | clear =>
    cases state.kernel.mqReceive state.msgQueueFd true <;> exact ⟨_, rfl⟩

/-- Where the worker is not asleep for good, the wait for it returns. -/
theorem Ending.returns (ending : Ending state destroys) :
    JoinReturns state destroys := by
  intro actions final noOwner accepted
  obtain ⟨finalEnding, bound⟩ :=
    @Machine.run?_budget _ _ _ opened (fun state => Ending state destroys)
      (fun action => action.isOwner = false) Action.isWorker State.untilEnd
      State.entering (fun ending noOwner => ending.step noOwner)
      state final actions ending noOwner accepted
  obtain ⟨isJoinable, _⟩ :=
    finalEnding.called.joining _ finalEnding.joining
  refine ⟨by omega, ?_⟩
  by_cases finished : final.worker = .finished
  · left
    intro accepts
    refine
      ⟨{ final with
          joinable := false
          owner := behindStop final destroys }, ?_, rfl⟩
    change ownerStep? final accepts = _
    rw [ownerStep?, finalEnding.joining]
    exact if_pos finished
  · right
    refine
      ⟨exists_workerStep (finalEnding.called.started isJoinable) finished,
        ?_⟩
    intro selecting empty
    exact finalEnding.awake ⟨empty, .inl selecting⟩

/-- A worker that is asleep for good stays so while nothing comes in. -/
theorem stranded_step
    (joining : state.owner = .join destroys)
    (stranded : Stranded state)
    (quiet : Quiet state action)
    (stepped : opened.step? state action = some next) :
    next.owner = .join destroys ∧ Stranded next := by
  obtain ⟨empty, asleep⟩ := stranded
  have notIdle : state.owner ≠ .idle := by
    rw [joining]
    rintro ⟨⟩
  simp only [opened, machine, Option.ite_none_right_eq_some] at stepped
  obtain ⟨admitted, stepped⟩ := stepped
  cases action with
  | init name maxmsg answer =>
      cases admitted
  | startThread | stopThread | destroy =>
      rw [step?, if_neg notIdle] at stepped
      cases stepped
  | owner accepts =>
      have unfinished : state.worker ≠ .finished := by
        obtain there | ⟨there, _⟩ := asleep <;> rw [there] <;> rintro ⟨⟩
      simp only [step?, ownerStep?, joining, if_neg unfinished] at stepped
      cases stepped
  | worker answer =>
      simp only [step?, workerStep?] at stepped
      obtain selecting | ⟨receiving, usable⟩ := asleep
      · exact (quiet selecting empty).elim
      · rw [receiving] at stepped
        simp only [if_neg (Int32.not_le.mpr usable),
          Option.some.injEq] at stepped
        subst next
        exact ⟨joining, empty, .inl rfl⟩
  | sendMsg msgId carries accepts =>
      simp only [step?, Option.ite_none_right_eq_some,
        Option.some.injEq] at stepped
      obtain ⟨_, rfl⟩ := stepped
      obtain ⟨owner, worker, msgQueueFd⟩ :=
        frame_sent (handOver_sendMsg state msgId carries accepts)
      have longer := length_entering_sendMsg state msgId carries accepts
      have nothing : state.entering (.sendMsg msgId carries accepts) = [] :=
        quiet
      rw [nothing, empty] at longer
      refine ⟨owner.trans joining, List.length_eq_zero_iff.mp longer, ?_⟩
      rw [worker, msgQueueFd]
      exact asleep
  | send msgId carries s32Prio accepts =>
      simp only [step?, Option.some.injEq] at stepped
      subst next
      obtain ⟨owner, worker, msgQueueFd⟩ :=
        frame_sent (handOver_send state msgId carries s32Prio accepts)
      have longer :=
        length_entering_send state msgId carries s32Prio accepts
      have nothing :
          state.entering (.send msgId carries s32Prio accepts) = [] :=
        quiet
      rw [nothing, empty] at longer
      refine ⟨owner.trans joining, List.length_eq_zero_iff.mp longer, ?_⟩
      rw [worker, msgQueueFd]
      exact asleep

/-- A stop waits in the queue. -/
def StopQueued (state : State) : Prop :=
  ∃ entry ∈ state.messages, entry.2.msgId = msgIdStopThread

/-- The owner has sent its stop and not yet come back. -/
def Owner.hasSent : Owner → Bool
  | .testJoinable _ | .setFlag _ | .join _ =>
      true
  | .idle | .sendStop _ | .clear | .close | .dead =>
      false

/-- The worker has read the flag and not yet taken a message. -/
def Worker.listens : Worker → Bool
  | .receive | .select | .mqReceive =>
      true
  | .notStarted | .testFlag | .processMsg _ | .sleep | .clear | .finished =>
      false

/-- A worker in its loop finds the stop that the owner has sent. -/
structure Told (state : State) : Prop where
  listening :
    state.owner.hasSent = true →
      state.worker.listens = true →
      StopQueued state
  unflagged :
    state.owner.hasSent = true →
      state.worker.inLoop = true →
      state.stopRequested = false →
      StopQueued state ∨
        ∃ msg,
          state.worker = .processMsg msg ∧ msg.msgId = msgIdStopThread

/-- Where the owner has sent nothing, there is nothing to find. -/
theorem told_of_hasNotSent (notSent : next.owner.hasSent = false) :
    Told next := by
  refine ⟨?_, ?_⟩
  · intro sent
    rw [notSent] at sent
    cases sent
  · intro sent
    rw [notSent] at sent
    cases sent

/-- A stop in the queue is found from everywhere. -/
theorem told_of_stopQueued (queued : StopQueued next) : Told next :=
  ⟨fun _ _ => queued, fun _ _ _ => .inl queued⟩

/-- A queue that only grows keeps its stop. -/
theorem StopQueued.mono
    (queued : StopQueued state)
    (kept : ∀ entry ∈ state.messages, entry ∈ next.messages) :
    StopQueued next := by
  obtain ⟨entry, member, isStop⟩ := queued
  exact ⟨entry, kept entry member, isStop⟩

/-- A send takes nothing out of the queue. -/
theorem Told.sent
    {carries : Bool}
    {msg : Message}
    (told : Told state)
    (sent : Sent (state.issue carries) msg next) :
    Told next := by
  have kept : ∀ entry ∈ state.messages, entry ∈ next.messages := by
    intro entry member
    cases sent with
    | refused | discarded =>
        exact member
    | queued _ queued =>
        change entry ∈ Kernel.messagesAt _ state.msgQueueFd
        have inserted := Kernel.messagesAt_of_mqSend queued
        simp only [State.issue] at inserted
        rw [inserted]
        exact (sublist_insertByPriority ..).subset member
  obtain ⟨owner, worker, _⟩ := frame_sent sent
  have flag : next.stopRequested = state.stopRequested := by
    cases sent <;> rfl
  refine ⟨?_, ?_⟩
  · rw [owner, worker]
    intro hasSent listens
    exact (told.listening hasSent listens).mono kept
  · rw [owner, worker, flag]
    intro hasSent inLoop unset
    obtain queued | inHand := told.unflagged hasSent inLoop unset
    · exact .inl (queued.mono kept)
    · exact .inr inHand

/-- A step of the owner keeps its stop in sight, if the queue took it. -/
theorem Told.ownerStep
    {accepts : Bool}
    (told : Told state)
    (heard : Heard state (.owner accepts))
    (stepped : ownerStep? state accepts = some next) :
    Told next := by
  have behind :
      ∀ {destroys : Bool},
        (behindStop state destroys).hasSent = false := by
    intro destroys
    rw [behindStop]
    split
    · split <;> rfl
    · rfl
  rw [ownerStep?] at stepped
  cases stands : state.owner <;> simp only [stands] at stepped
  case idle | dead =>
    cases stepped
  case sendStop destroys =>
    cases stepped
    apply told_of_stopQueued
    obtain ⟨code, failed, isSent⟩ | ⟨_, kernel, queued, isSent⟩ :=
      send_cases state ⟨msgIdStopThread, none⟩ mesgPrioLow accepts
    · exfalso
      apply heard destroys stands
      simp only [State.entering, stands, State.puts, isSent, if_neg failed]
    · rw [isSent]
      refine ⟨(mesgPrioLow, ⟨msgIdStopThread, none⟩), ?_, rfl⟩
      change _ ∈ kernel.messagesAt state.msgQueueFd
      rw [Kernel.messagesAt_of_mqSend queued]
      exact (insertByPriority_perm ..).mem_iff.mpr List.mem_cons_self
  case testJoinable destroys =>
    have hasSent : state.owner.hasSent = true := by
      rw [stands]
      rfl
    split at stepped
    · cases stepped
      exact ⟨fun _ => told.listening hasSent,
        fun _ => told.unflagged hasSent⟩
    · cases stepped
      exact told_of_hasNotSent behind
  case setFlag destroys =>
    have hasSent : state.owner.hasSent = true := by
      rw [stands]
      rfl
    cases stepped
    exact ⟨fun _ => told.listening hasSent, fun _ _ => by rintro ⟨⟩⟩
  case join destroys =>
    rw [Option.ite_none_right_eq_some, Option.some.injEq] at stepped
    obtain ⟨_, rfl⟩ := stepped
    exact told_of_hasNotSent behind
  case clear =>
    split at stepped <;> cases stepped <;> exact told_of_hasNotSent rfl
  case close =>
    split at stepped <;> cases stepped <;> exact told_of_hasNotSent rfl

/-- A step of the worker loses no stop without a trace. -/
theorem Told.workerStep
    {answer : Select}
    (told : Told state)
    (stepped : workerStep? state answer = some next) :
    Told next := by
  obtain ⟨listening, unflagged⟩ := told
  have noStop :
      state.messages = [] → ¬ StopQueued state := by
    rintro empty ⟨entry, member, _⟩
    rw [empty] at member
    cases member
  unfold workerStep? at stepped
  cases stands : state.worker <;>
    simp only [stands] at stepped listening unflagged
  case notStarted | finished =>
    cases stepped
  case testFlag =>
    split at stepped
    · cases stepped
      exact ⟨fun _ => by rintro ⟨⟩, fun _ => by rintro ⟨⟩⟩
    · next unset =>
        cases stepped
        have found :
            state.owner.hasSent = true → StopQueued state := by
          intro hasSent
          obtain queued | ⟨_, ⟨⟩, _⟩ :=
            unflagged hasSent rfl (Bool.eq_false_iff.mpr unset)
          exact queued
        exact ⟨fun hasSent _ => found hasSent,
          fun hasSent _ _ => .inl (found hasSent)⟩
  case receive | select =>
    split at stepped <;> cases stepped <;>
      exact ⟨fun hasSent _ => listening hasSent rfl,
        fun hasSent _ _ => .inl (listening hasSent rfl)⟩
  case mqReceive =>
    obtain ⟨noMessage, empty⟩ | ⟨prio, msg, kernel, received, taken⟩ :=
      messages_receive _ rfl
        (Eq.refl (state.kernel.mqReceive state.msgQueueFd true))
    · rw [noMessage] at stepped
      cases stepped
      exact ⟨fun _ => by rintro ⟨⟩,
        fun hasSent _ _ => (noStop empty (listening hasSent rfl)).elim⟩
    · rw [received] at stepped
      cases stepped
      refine ⟨fun _ => by rintro ⟨⟩, ?_⟩
      intro hasSent _ _
      obtain ⟨entry, member, isStop⟩ := listening hasSent rfl
      rw [taken] at member
      obtain rfl | inRest := List.mem_cons.mp member
      · exact .inr ⟨msg, rfl, isStop⟩
      · exact .inl ⟨entry, inRest, isStop⟩
  case processMsg msg =>
    split at stepped
    · next notStop =>
        cases stepped
        refine ⟨fun _ => by rintro ⟨⟩, ?_⟩
        intro hasSent _ unset
        obtain queued | ⟨other, same, isStop⟩ :=
          unflagged hasSent rfl unset
        · exact .inl queued
        · obtain rfl := Worker.processMsg.inj same
          exact (notStop isStop).elim
    · cases stepped
      exact ⟨fun _ => by rintro ⟨⟩, fun _ _ => by rintro ⟨⟩⟩
  case sleep =>
    cases stepped
    refine ⟨fun _ => by rintro ⟨⟩, ?_⟩
    intro hasSent _ unset
    obtain queued | ⟨_, ⟨⟩, _⟩ := unflagged hasSent rfl unset
    exact .inl queued
  case clear =>
    split at stepped <;> cases stepped
    · exact ⟨fun _ => by rintro ⟨⟩, fun _ => by rintro ⟨⟩⟩
    · exact ⟨fun _ => by rintro ⟨⟩, fun _ => by rintro ⟨⟩⟩

/-- A step in which the queue takes each stop keeps `Told`. -/
theorem Told.step
    (placed : Placed state)
    (told : Told state)
    (heard : Heard state action)
    (stepped : opened.step? state action = some next) :
    Told next := by
  simp only [opened, machine, Option.ite_none_right_eq_some] at stepped
  obtain ⟨admitted, stepped⟩ := stepped
  cases action with
  | init name maxmsg answer =>
      cases admitted
  | startThread =>
      simp only [step?, Option.ite_none_right_eq_some, Option.some.injEq,
        startThread] at stepped
      obtain ⟨idle, rfl⟩ := stepped
      apply told_of_hasNotSent
      split
      · split
        · rw [idle]
          rfl
        · rw [idle]
          rfl
      · rw [idle]
        rfl
  | stopThread | destroy =>
      simp only [step?, Option.ite_none_right_eq_some,
        Option.some.injEq] at stepped
      obtain ⟨_, rfl⟩ := stepped
      apply told_of_hasNotSent
      simp only [stopThread, if_pos placed.isInitialized]
      rfl
  | owner accepts =>
      exact told.ownerStep heard stepped
  | worker answer =>
      exact told.workerStep stepped
  | sendMsg msgId carries accepts =>
      simp only [step?, Option.ite_none_right_eq_some,
        Option.some.injEq] at stepped
      obtain ⟨_, rfl⟩ := stepped
      exact told.sent (handOver_sendMsg ..)
  | send msgId carries s32Prio accepts =>
      simp only [step?, Option.some.injEq] at stepped
      subst next
      exact told.sent (handOver_send ..)

end Steps

section Runs

variable {state : State}
variable {destroys : Bool}

/-- In every run the calls of `StopThread` are where `Called` says. -/
theorem called_of_reachable
    {Permits : State → Action → Prop}
    (reachable : opened.ReachableWhere Permits state) :
    Called state :=
  reachable.invariant called_of_initial
    (fun called _ stepped => called.step stepped)

/-- Where the queue took each stop, the worker finds it. -/
theorem told_of_reachable
    (reachable : opened.ReachableWhere Heard state) :
    Told state := by
  have both : Placed state ∧ Told state := by
    apply reachable.invariant
    · intro start initial
      refine ⟨placed_of_initial initial, ?_⟩
      obtain ⟨name, maxmsg, fd, _, rfl⟩ := initial
      exact told_of_hasNotSent rfl
    · rintro before after action ⟨placed, told⟩ heard stepped
      exact ⟨placed.step stepped, told.step placed heard stepped⟩
  exact both.2

end Runs

end WkcRuntime.MessageThread
