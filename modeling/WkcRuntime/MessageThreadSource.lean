import WkcRuntime.Machine
import WkcRuntime.MsgQueueRegistry
import WkcRuntime.ThreadObjSource

namespace WkcRuntime.MessageThread

open MessageQueue
open MsgQueue (errMsgQueueOpenFailed errMsgQueueSendFailed
  errMsgQueueSendHandleIsNull)
open ThreadObj (Select errThreadQueueNotInitialized msgIdStopThread)

/-!
# A thread with a message queue

One object of a class derived from `basic/ThreadWithMsgQueue.cpp`: `Init`,
`StartThread`, `SendMsg`, `StopThread(true)` and the destructor with the
`Unlink` inside it, against the worker in `LoopReadMsg(true)` and `Clear`, and
against other threads that send through the object or through its descriptor.
Sending is one step; the other calls are split where they touch the queue, the
flag or the worker.  `ProcessMsg` frees the message it is given.

`Open` unlinks the name before `mq_open`, so that a new descriptor refers to a
new, empty queue.  The queue does not block: `mq_receive` fails only on an empty
queue, and `mq_close` only on a number that is not open.  What `select` answers
is part of the step.

Payloads are numbered in the order in which they are handed over; one number
stands for the data block and the object of a message, which `Free` releases
together.  `accepted` and `freed` are history, and so are `stopCalled`, whether
`StopThread` was called since the worker was created, and `strayStop`, whether
a worker has left its loop without that.
-/

/-- `MESG_PRIO_LOW`. -/
def mesgPrioLow : UInt32 :=
  0

/-- What `LoopReadMsg` and `Free` read of a `MESG_T`. -/
structure Message where
  msgId : UInt64
  payload : Option Nat
  deriving DecidableEq, Repr

/-- Where the worker stands. -/
inductive Worker where
  | notStarted
  | testFlag
  | receive
  | select
  | mqReceive
  | processMsg (msg : Message)
  | sleep
  | clear
  | finished
  deriving DecidableEq, Repr

/-- Where the owner of the object stands. -/
inductive Owner where
  | idle
  | sendStop (destroys : Bool)
  | testJoinable (destroys : Bool)
  | setFlag (destroys : Bool)
  | join (destroys : Bool)
  | clear
  | close
  | dead
  deriving DecidableEq, Repr

/-- The object, its worker, the kernel and the history. -/
structure State where
  initialized : Bool
  msgQueueName : String
  msgQueueFd : Int32
  joinable : Bool
  stopRequested : Bool
  nrOfProcessedMsgs : UInt32
  worker : Worker
  owner : Owner
  kernel : Kernel Nat Message
  created : Nat
  payloads : Nat
  accepted : List Nat
  freed : List Nat
  stopCalled : Bool
  strayStop : Bool

/-- `ThreadWithMsgQueue::ThreadWithMsgQueue`, before any queue is open. -/
def threadWithMsgQueue : State where
  initialized := false
  msgQueueName := ""
  msgQueueFd := -1
  joinable := false
  stopRequested := true
  nrOfProcessedMsgs := 0
  worker := .notStarted
  owner := .idle
  kernel := ⟨fun _ => none, fun _ => ⟨0, []⟩⟩
  created := 0
  payloads := 0
  accepted := []
  freed := []
  stopCalled := false
  strayStop := false

namespace State

/-- The messages in the queue of the object, in the order of receipt. -/
def messages (state : State) : List (UInt32 × Message) :=
  state.kernel.messagesAt state.msgQueueFd

/-- `Free` of a message. -/
def free (state : State) (payload : Option Nat) : State :=
  { state with freed := payload.toList ++ state.freed }

end State

/-- `ThreadWithMsgQueue::Init`; the name ends with the address of the object. -/
def init
    (state : State)
    (name : String)
    (maxmsg : Nat)
    (answer : Option Int32) :
    State × Int32 :=
  match answer with
  | none =>
      ({ state with msgQueueName := name, msgQueueFd := -1 },
        errMsgQueueOpenFailed)
  | some fd =>
      ({ state with
          msgQueueName := name
          msgQueueFd := fd
          kernel := state.kernel.mqOpen fd state.created maxmsg
          created := state.created + 1
          initialized := true }, 0)

/-- `ThreadWithMsgQueue::StartThread`. -/
def startThread (state : State) : State × Int32 :=
  if state.initialized then
    if state.joinable then
      (state, 0)
    else
      ({ state with
          stopRequested := false
          joinable := true
          worker := .testFlag
          stopCalled := false }, 0)
  else
    (state, errThreadQueueNotInitialized)

/-- `MsgQueue::Send` on the descriptor of the object. -/
def send
    (state : State)
    (msg : Message)
    (s32Prio : UInt32)
    (accepts : Bool) :
    State × Int32 :=
  if state.msgQueueFd ≤ 0 then
    (state.free msg.payload, errMsgQueueSendHandleIsNull)
  else
    match state.kernel.mqSend state.msgQueueFd msg s32Prio accepts with
    | none =>
        (state.free msg.payload, errMsgQueueSendFailed)
    | some kernel =>
        ({ state with kernel }, 0)

/-- `ThreadWithMsgQueue::SendMsg`. -/
def sendMsg
    (state : State)
    (msg : Message)
    (accepts : Bool) :
    State × Int32 :=
  if state.initialized then
    send state msg mesgPrioLow accepts
  else
    (state.free msg.payload,
      if msg.msgId ≠ msgIdStopThread then
        errThreadQueueNotInitialized
      else
        0)

/-- The payload of a message that is handed over next. -/
def State.newPayload (state : State) (carries : Bool) : Option Nat :=
  if carries then some state.payloads else none

/-- Number the payload of a message that is handed over. -/
def State.issue (state : State) (carries : Bool) : State :=
  { state with
    payloads := if carries then state.payloads + 1 else state.payloads }

/-- Hand over a message, with a payload or without; note a send that succeeds. -/
def handOver
    (sender : State → Message → State × Int32)
    (state : State)
    (msgId : UInt64)
    (carries : Bool) :
    State :=
  let sent :=
    sender (state.issue carries) ⟨msgId, state.newPayload carries⟩
  if sent.2 = 0 then
    { sent.1 with
      accepted := (state.newPayload carries).toList ++ sent.1.accepted }
  else
    sent.1

/-- `StopThread(true)`, alone or in the destructor, up to its send. -/
def stopThread (state : State) (destroys : Bool) : State :=
  { state with
    stopCalled := true
    owner :=
      if state.initialized then
        .sendStop destroys
      else
        .testJoinable destroys }

/-- Where the owner goes behind `StopThread(true)`. -/
def behindStop (state : State) (destroys : Bool) : Owner :=
  if destroys then
    if state.msgQueueName = "" then .dead else .clear
  else
    .idle

/-- The next step of the call that the owner is in. -/
def ownerStep? (state : State) (accepts : Bool) : Option State :=
  match state.owner with
  | .idle | .dead =>
      none
  | .sendStop destroys =>
      some { (send state ⟨msgIdStopThread, none⟩ mesgPrioLow accepts).1 with
        owner := .testJoinable destroys }
  | .testJoinable destroys =>
      if state.joinable then
        some { state with owner := .setFlag destroys }
      else
        some { state with owner := behindStop state destroys }
  | .setFlag destroys =>
      some { state with stopRequested := true, owner := .join destroys }
  | .join destroys =>
      if state.worker = .finished then
        some { state with
          joinable := false
          owner := behindStop state destroys }
      else
        none
  | .clear =>
      match state.kernel.mqReceive state.msgQueueFd true with
      | none =>
          some { state with owner := .close }
      | some (msg, kernel) =>
          some ({ state with kernel }.free msg.payload)
  | .close =>
      match state.kernel.mqClose state.msgQueueFd true with
      | none =>
          some { state with owner := .dead }
      | some kernel =>
          some { state with kernel, owner := .dead }

/-- The next step of the worker. -/
def workerStep? (state : State) (answer : Select) : Option State :=
  match state.worker with
  | .notStarted | .finished =>
      none
  | .testFlag =>
      if state.stopRequested then
        some { state with
          worker := .clear
          strayStop := state.strayStop || !state.stopCalled }
      else
        some { state with worker := .receive }
  | .receive =>
      if state.msgQueueFd ≤ 0 then
        some { state with worker := .testFlag }
      else
        some { state with worker := .select }
  | .select =>
      match answer with
      | .failed =>
          some { state with worker := .testFlag }
      | .notOurQueue =>
          some { state with worker := .sleep }
      | .readable =>
          some { state with worker := .mqReceive }
  | .mqReceive =>
      match state.kernel.mqReceive state.msgQueueFd true with
      | none =>
          some { state with worker := .testFlag }
      | some (msg, kernel) =>
          some { state with kernel, worker := .processMsg msg }
  | .processMsg msg =>
      if msg.msgId ≠ msgIdStopThread then
        some { state.free msg.payload with
          nrOfProcessedMsgs := state.nrOfProcessedMsgs + 1
          worker := .testFlag }
      else
        some { state with stopRequested := true, worker := .testFlag }
  | .sleep =>
      some { state with worker := .testFlag }
  | .clear =>
      match state.kernel.mqReceive state.msgQueueFd true with
      | none =>
          some { state with worker := .finished }
      | some (msg, kernel) =>
          some ({ state with kernel }.free msg.payload)

/-- A call of the owner, a send of any thread, or a step. -/
inductive Action where
  | init (name : String) (maxmsg : Nat) (answer : Option Int32)
  | startThread
  | stopThread
  | destroy
  | owner (accepts : Bool)
  | worker (answer : Select)
  | sendMsg (msgId : UInt64) (carries accepts : Bool)
  | send (msgId : UInt64) (carries : Bool) (s32Prio : UInt32) (accepts : Bool)
  deriving DecidableEq, Repr

/-- `mq_open` accepts a name and answers with a number that is not in use. -/
def State.Opens (state : State) (name : String) : Option Int32 → Prop
  | none =>
      True
  | some fd =>
      0 ≤ fd ∧ state.kernel.descriptor fd = none ∧ name ≠ ""

instance (state : State) (name : String) :
    ∀ answer, Decidable (state.Opens name answer)
  | none =>
      .isTrue trivial
  | some fd =>
      inferInstanceAs
        (Decidable
          (0 ≤ fd ∧ state.kernel.descriptor fd = none ∧ name ≠ ""))

/-- One step. -/
def step? (state : State) : Action → Option State
  | .init name maxmsg answer =>
      if state.owner = .idle ∧ state.Opens name answer then
        some (init state name maxmsg answer).1
      else
        none
  | .startThread =>
      if state.owner = .idle then
        some (startThread state).1
      else
        none
  | .stopThread =>
      if state.owner = .idle then
        some (stopThread state false)
      else
        none
  | .destroy =>
      if state.owner = .idle then
        some (stopThread state true)
      else
        none
  | .owner accepts =>
      ownerStep? state accepts
  | .worker answer =>
      workerStep? state answer
  | .sendMsg msgId carries accepts =>
      if state.owner ≠ .dead then
        some (handOver (sendMsg · · accepts) state msgId carries)
      else
        none
  | .send msgId carries s32Prio accepts =>
      some (handOver (send · · s32Prio accepts) state msgId carries)

/-- The runs of a machine that take only some of the actions. -/
def machine
    (Initial : State → Prop)
    (admits : Action → Bool) :
    Machine State Action where
  Initial := Initial
  step? := fun state action =>
    if admits action then step? state action else none

/-- What handing over a message can do. -/
inductive Sent (state : State) (msg : Message) : State → Prop where
  | refused :
      Sent state msg (state.free msg.payload)
  | discarded :
      state.initialized = false →
      Sent state msg
        { state.free msg.payload with
          accepted := msg.payload.toList ++ state.accepted }
  | queued {s32Prio : UInt32} {accepts : Bool} {kernel : Kernel Nat Message} :
      0 < state.msgQueueFd →
      state.kernel.mqSend state.msgQueueFd msg s32Prio accepts =
        some kernel →
      Sent state msg
        { state with
          kernel
          accepted := msg.payload.toList ++ state.accepted }

/-- A send is refused, or puts its message into the queue. -/
theorem send_cases
    (state : State)
    (msg : Message)
    (s32Prio : UInt32)
    (accepts : Bool) :
    (∃ code,
      code ≠ 0 ∧
        send state msg s32Prio accepts = (state.free msg.payload, code)) ∨
      0 < state.msgQueueFd ∧
        ∃ kernel,
          state.kernel.mqSend state.msgQueueFd msg s32Prio accepts =
              some kernel ∧
            send state msg s32Prio accepts = ({ state with kernel }, 0) := by
  by_cases unusable : state.msgQueueFd ≤ 0
  · exact .inl ⟨errMsgQueueSendHandleIsNull, by decide,
      by rw [send, if_pos unusable]⟩
  · cases sent : state.kernel.mqSend state.msgQueueFd msg s32Prio accepts with
    | none =>
        exact .inl ⟨errMsgQueueSendFailed, by decide,
          by rw [send, if_neg unusable, sent]⟩
    | some kernel =>
        exact .inr ⟨Int32.not_le.mp unusable, kernel, rfl,
          by rw [send, if_neg unusable, sent]⟩

/-- What handing over through the descriptor can do. -/
theorem handOver_send
    (state : State)
    (msgId : UInt64)
    (carries : Bool)
    (s32Prio : UInt32)
    (accepts : Bool) :
    Sent (state.issue carries) ⟨msgId, state.newPayload carries⟩
      (handOver (send · · s32Prio accepts) state msgId carries) := by
  rcases send_cases (state.issue carries)
      ⟨msgId, state.newPayload carries⟩ s32Prio accepts with
    ⟨code, failed, sent⟩ | ⟨usable, kernel, queued, sent⟩
  · simp only [handOver, sent, if_neg failed]
    exact .refused
  · simp only [handOver, sent, if_true]
    exact .queued usable queued

/-- What handing over through the object can do. -/
theorem handOver_sendMsg
    (state : State)
    (msgId : UInt64)
    (carries : Bool)
    (accepts : Bool) :
    Sent (state.issue carries) ⟨msgId, state.newPayload carries⟩
      (handOver (sendMsg · · accepts) state msgId carries) := by
  by_cases isInitialized : (state.issue carries).initialized
  · have same :
        handOver (sendMsg · · accepts) state msgId carries =
          handOver (send · · mesgPrioLow accepts) state msgId carries := by
      simp only [handOver, sendMsg, if_pos isInitialized]
    rw [same]
    exact handOver_send state msgId carries mesgPrioLow accepts
  · by_cases isStop : msgId ≠ msgIdStopThread
    · have failed : errThreadQueueNotInitialized ≠ 0 := by decide
      simp only [handOver, sendMsg, if_neg isInitialized, if_pos isStop,
        if_neg failed]
      exact .refused
    · simp only [handOver, sendMsg, if_neg isInitialized, if_neg isStop,
        if_true]
      exact .discarded (Bool.eq_false_iff.mpr isInitialized)

/-- What a step of the owner can do. -/
inductive OwnerStep (state : State) : State → Prop where
  | notSent {destroys : Bool} :
      state.owner = .sendStop destroys →
      OwnerStep state { state with owner := .testJoinable destroys }
  | sent {destroys accepts : Bool} {kernel : Kernel Nat Message} :
      state.owner = .sendStop destroys →
      0 < state.msgQueueFd →
      state.kernel.mqSend state.msgQueueFd ⟨msgIdStopThread, none⟩
          mesgPrioLow accepts =
        some kernel →
      OwnerStep state { state with kernel, owner := .testJoinable destroys }
  | joinable {destroys : Bool} :
      state.owner = .testJoinable destroys →
      state.joinable = true →
      OwnerStep state { state with owner := .setFlag destroys }
  | unjoinable {destroys : Bool} :
      state.owner = .testJoinable destroys →
      state.joinable = false →
      OwnerStep state { state with owner := behindStop state destroys }
  | flagSet {destroys : Bool} :
      state.owner = .setFlag destroys →
      OwnerStep state
        { state with stopRequested := true, owner := .join destroys }
  | joined {destroys : Bool} :
      state.owner = .join destroys →
      state.worker = .finished →
      OwnerStep state
        { state with
          joinable := false
          owner := behindStop state destroys }
  | received {msg : Message} {kernel : Kernel Nat Message} :
      state.owner = .clear →
      state.kernel.mqReceive state.msgQueueFd true = some (msg, kernel) →
      OwnerStep state ({ state with kernel }.free msg.payload)
  | emptied :
      state.owner = .clear →
      state.kernel.mqReceive state.msgQueueFd true = none →
      OwnerStep state { state with owner := .close }
  | closed :
      state.owner = .close →
      state.kernel.descriptor state.msgQueueFd ≠ none →
      OwnerStep state
        { state with
          kernel :=
            { state.kernel with
              descriptor :=
                Function.update state.kernel.descriptor state.msgQueueFd none }
          owner := .dead }
  | notOpen :
      state.owner = .close →
      state.kernel.descriptor state.msgQueueFd = none →
      OwnerStep state { state with owner := .dead }

/-- Every step of the owner is one of these. -/
theorem ownerStep_cases
    {state next : State}
    {accepts : Bool}
    (stepped : ownerStep? state accepts = some next) :
    OwnerStep state next := by
  unfold ownerStep? at stepped
  cases stands : state.owner with
  | idle | dead =>
      simp [stands] at stepped
  | sendStop destroys =>
      simp only [stands, Option.some.injEq] at stepped
      subst next
      rcases send_cases state ⟨msgIdStopThread, none⟩ mesgPrioLow accepts with
        ⟨_, _, sent⟩ | ⟨usable, kernel, queued, sent⟩
      · rw [sent]
        exact .notSent stands
      · rw [sent]
        exact .sent stands usable queued
  | testJoinable destroys =>
      simp only [stands] at stepped
      split at stepped
      · rename_i joinable
        obtain rfl := Option.some.inj stepped
        exact .joinable stands joinable
      · rename_i unjoinable
        obtain rfl := Option.some.inj stepped
        exact .unjoinable stands (Bool.eq_false_iff.mpr unjoinable)
  | setFlag destroys =>
      simp only [stands, Option.some.injEq] at stepped
      subst next
      exact .flagSet stands
  | join destroys =>
      simp only [stands, Option.ite_none_right_eq_some,
        Option.some.injEq] at stepped
      obtain ⟨finished, rfl⟩ := stepped
      exact .joined stands finished
  | clear =>
      simp only [stands] at stepped
      split at stepped
      · rename_i empty
        obtain rfl := Option.some.inj stepped
        exact .emptied stands empty
      · rename_i msg kernel received
        obtain rfl := Option.some.inj stepped
        rw [← stands]
        exact .received stands received
  | close =>
      simp only [stands] at stepped
      split at stepped
      · rename_i notClosed
        obtain rfl := Option.some.inj stepped
        exact .notOpen stands (Kernel.mqClose_eq_none_iff.mp notClosed)
      · rename_i kernel closed
        obtain rfl := Option.some.inj stepped
        obtain ⟨⟨queue, isOpen⟩, _, rfl⟩ :=
          Kernel.mqClose_eq_some_iff.mp closed
        exact .closed stands (by rw [isOpen]; exact Option.some_ne_none queue)

/-- The worker is in `LoopReadMsg` and has no message. -/
def Worker.isBare : Worker → Bool
  | .testFlag | .receive | .select | .mqReceive | .sleep =>
      true
  | .notStarted | .processMsg _ | .clear | .finished =>
      false

/-- What a step of the worker can do. -/
inductive WorkerStep (state : State) : State → Prop where
  | moved {worker : Worker} :
      state.worker.isBare = true →
      worker.isBare = true →
      WorkerStep state { state with worker }
  | left :
      state.worker = .testFlag →
      state.stopRequested = true →
      WorkerStep state
        { state with
          worker := .clear
          strayStop := state.strayStop || !state.stopCalled }
  | taken {msg : Message} {kernel : Kernel Nat Message} :
      state.worker = .mqReceive →
      state.kernel.mqReceive state.msgQueueFd true = some (msg, kernel) →
      WorkerStep state { state with kernel, worker := .processMsg msg }
  | processed {msg : Message} :
      state.worker = .processMsg msg →
      msg.msgId ≠ msgIdStopThread →
      WorkerStep state
        { state.free msg.payload with
          nrOfProcessedMsgs := state.nrOfProcessedMsgs + 1
          worker := .testFlag }
  | stopped {msg : Message} :
      state.worker = .processMsg msg →
      msg.msgId = msgIdStopThread →
      WorkerStep state { state with stopRequested := true, worker := .testFlag }
  | drained {msg : Message} {kernel : Kernel Nat Message} :
      state.worker = .clear →
      state.kernel.mqReceive state.msgQueueFd true = some (msg, kernel) →
      WorkerStep state ({ state with kernel }.free msg.payload)
  | finished :
      state.worker = .clear →
      state.kernel.mqReceive state.msgQueueFd true = none →
      WorkerStep state { state with worker := .finished }

/-- Every step of the worker is one of these. -/
theorem workerStep_cases
    {state next : State}
    {answer : Select}
    (stepped : workerStep? state answer = some next) :
    WorkerStep state next := by
  unfold workerStep? at stepped
  cases stands : state.worker with
  | notStarted | finished =>
      simp [stands] at stepped
  | testFlag =>
      simp only [stands] at stepped
      split at stepped
      · rename_i requested
        obtain rfl := Option.some.inj stepped
        exact .left stands requested
      · obtain rfl := Option.some.inj stepped
        exact .moved (by rw [stands]; rfl) rfl
  | receive | select =>
      simp only [stands] at stepped
      split at stepped <;>
      · obtain rfl := Option.some.inj stepped
        exact .moved (by rw [stands]; rfl) rfl
  | mqReceive =>
      simp only [stands] at stepped
      split at stepped
      · obtain rfl := Option.some.inj stepped
        exact .moved (by rw [stands]; rfl) rfl
      · rename_i msg kernel received
        obtain rfl := Option.some.inj stepped
        exact .taken stands received
  | processMsg msg =>
      simp only [stands] at stepped
      split at stepped
      · rename_i notStop
        obtain rfl := Option.some.inj stepped
        exact .processed stands notStop
      · rename_i isStop
        obtain rfl := Option.some.inj stepped
        exact .stopped stands (Decidable.not_not.mp isStop)
  | sleep =>
      simp only [stands, Option.some.injEq] at stepped
      subst next
      exact .moved (by rw [stands]; rfl) rfl
  | clear =>
      simp only [stands] at stepped
      split at stepped
      · rename_i empty
        obtain rfl := Option.some.inj stepped
        exact .finished stands empty
      · rename_i msg kernel received
        obtain rfl := Option.some.inj stepped
        rw [← stands]
        exact .drained stands received

/-- A worker without a message is not at one. -/
theorem Worker.ne_processMsg_of_isBare
    {worker : Worker}
    (bare : worker.isBare = true)
    (msg : Message) :
    worker ≠ .processMsg msg := by
  rintro rfl
  cases bare

end WkcRuntime.MessageThread
