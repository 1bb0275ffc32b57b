import WkcRuntime.MesgSource
import WkcRuntime.MessageQueue

namespace WkcRuntime.MsgQueue

open Mesg MessageQueue

/-!
# Sending and receiving through `MsgQueue`

`MsgQueue::Send`, `Mesg::SendMsg`, `MsgQueue::Receive` and
`MsgQueue::DumpMsgQueue` of `basic/MsgQueue.cpp` and `basic/Mesg.cpp`.  The
kernel copies `MESG_T` byte by byte, pointers included.  Message and queue
arguments are valid pointers.  `gMap` finds the object that owns a descriptor;
`Send` uses it only to count.

The answers of `mq_send`, `mq_receive`, `select` and `mq_getattr` are
arguments.
-/

/-- `ERR_MSG_QUEUE_GETNR_FAILED`. -/
def errMsgQueueGetnrFailed : Int64 :=
  -1414

/-- `ERR_MSG_QUEUE_RECEIVE_FAILED`. -/
def errMsgQueueReceiveFailed : Int32 :=
  -1419

/-- `ERR_MSG_QUEUE_SEND_FAILED`. -/
def errMsgQueueSendFailed : Int32 :=
  -1421

/-- `ERR_MSG_QUEUE_SELECT_FAILED`. -/
def errMsgQueueSelectFailed : Int32 :=
  -1425

/-- `ERR_MSG_QUEUE_SEND_HANDLE_IS_NULL`. -/
def errMsgQueueSendHandleIsNull : Int32 :=
  -1427

/-- `ERR_MSG_QUEUE_SELECT_BUT_NOT_OUR_QUEUE`. -/
def errMsgQueueSelectButNotOurQueue : Int32 :=
  -1428

/-- The members of a `MsgQueue` object that sending and receiving touch. -/
structure MsgQueueObject where
  msgQueueFd : Int32
  msgQueueNotInUse : Bool
  maxMsgInQueue : Int64
  lastMsgMsgId : UInt64
  receiveMsgCnt : UInt64
  sendMsgCnt : UInt64
  deriving DecidableEq, Repr

/-- The heap, the kernel, the queue objects and the static members. -/
structure Process (Object Queue Obj : Type) where
  heap : Heap Obj
  kernel : Kernel Queue MesgT
  object : Object → MsgQueueObject
  gMap : Int32 → Option Object
  gReceiveMsgCnt : UInt64
  gSendMsgCnt : UInt64

/-- How `select` on the descriptor of a queue ends. -/
inductive Select where
  | failed
  | notOurQueue
  | readable
  deriving DecidableEq, Repr

/-- What the kernel answers during one `Receive`. -/
structure Answers where
  select : Select
  receive : Bool
  getattr : Bool
  deriving DecidableEq, Repr

section Functions

variable {Object Queue Obj : Type}
variable [DecidableEq Object] [DecidableEq Queue]

/-- Release what a message holds, in the heap of the process. -/
def freeIn
    (process : Process Object Queue Obj)
    (msg : MesgT) :
    Process Object Queue Obj × MesgT :=
  let freed := free process.heap msg
  ({ process with heap := freed.1 }, freed.2)

/-- Count a sent message, also at the object that owns the descriptor. -/
def countSent
    (process : Process Object Queue Obj)
    (fd : Int32) :
    Process Object Queue Obj :=
  match process.gMap fd with
  | none =>
      { process with gSendMsgCnt := process.gSendMsgCnt + 1 }
  | some owner =>
      { process with
        gSendMsgCnt := process.gSendMsgCnt + 1
        object := Function.update process.object owner
          { process.object owner with
            sendMsgCnt := (process.object owner).sendMsgCnt + 1 } }

omit [DecidableEq Queue] in
@[simp] theorem countSent_heap
    (process : Process Object Queue Obj)
    (fd : Int32) :
    (countSent process fd).heap = process.heap := by
  unfold countSent
  split <;> rfl

omit [DecidableEq Queue] in
@[simp] theorem countSent_kernel
    (process : Process Object Queue Obj)
    (fd : Int32) :
    (countSent process fd).kernel = process.kernel := by
  unfold countSent
  split <;> rfl

/-- `MsgQueue::Send(fd, pclsMsg, s32Prio)`. -/
def send
    (process : Process Object Queue Obj)
    (fd : Int32)
    (pclsMsg : MesgT)
    (s32Prio : UInt32)
    (accepts : Bool) :
    Process Object Queue Obj × MesgT × Int32 :=
  if fd ≤ 0 then
    let freed := freeIn process pclsMsg
    (freed.1, freed.2, errMsgQueueSendHandleIsNull)
  else
    match process.kernel.mqSend fd pclsMsg s32Prio accepts with
    | none =>
        let freed := freeIn process pclsMsg
        (freed.1, freed.2, errMsgQueueSendFailed)
    | some kernel =>
        (countSent { process with kernel } fd,
          (pclsMsg.msgData none 0).msgObjPtr none, 0)

/-- `Mesg::SendMsg`, which releases the message once more after a failure. -/
def sendMsg
    (process : Process Object Queue Obj)
    (fd : Int32)
    (this : MesgT)
    (s32Prio : UInt32)
    (accepts : Bool) :
    Process Object Queue Obj × MesgT × Int32 :=
  let sent := send process fd this s32Prio accepts
  if sent.2.2 ≠ 0 then
    let freed := freeIn sent.1 sent.2.1
    (freed.1, freed.2, sent.2.2)
  else
    sent

/-- `MsgQueue::CurMsgsInQueue` of an object with an open descriptor. -/
def curMsgsInQueue
    (process : Process Object Queue Obj)
    (fd : Int32)
    (getattr : Bool) :
    Int64 :=
  match process.kernel.mqCurmsgs fd getattr with
  | none => errMsgQueueGetnrFailed
  | some curmsgs => curmsgs

/-- The counters that a successful `Receive` updates. -/
def countReceived
    (process : Process Object Queue Obj)
    (owner : Object)
    (msg : MesgT)
    (getattr : Bool) :
    Process Object Queue Obj :=
  let this := process.object owner
  let curmsgs := curMsgsInQueue process this.msgQueueFd getattr + 1
  { process with
    gReceiveMsgCnt := process.gReceiveMsgCnt + 1
    object := Function.update process.object owner
      { this with
        lastMsgMsgId := msg.ulMsgId
        receiveMsgCnt := this.receiveMsgCnt + 1
        maxMsgInQueue :=
          if curmsgs > this.maxMsgInQueue then
            curmsgs
          else
            this.maxMsgInQueue } }

/-- `mq_receive` into a message, as `MsgQueue::Receive` does it. -/
def receiveInto
    (process : Process Object Queue Obj)
    (owner : Object)
    (pclsMsg : MesgT)
    (answers : Answers) :
    Process Object Queue Obj × MesgT × Int32 :=
  match process.kernel.mqReceive
      (process.object owner).msgQueueFd answers.receive with
  | none =>
      (process, pclsMsg, errMsgQueueReceiveFailed)
  | some (msg, kernel) =>
      (countReceived { process with kernel } owner msg answers.getattr,
        msg, 0)

/-- `MsgQueue::Receive`. -/
def receive
    (process : Process Object Queue Obj)
    (owner : Object)
    (pclsMsg : MesgT)
    (isPolling : Bool)
    (answers : Answers) :
    Process Object Queue Obj × MesgT × Int32 :=
  let this := process.object owner
  if this.msgQueueFd ≤ 0 then
    (process, pclsMsg, errMsgQueueSendHandleIsNull)
  else
    let inUse :=
      { process with
        object := Function.update process.object owner
          { this with msgQueueNotInUse := false } }
    if isPolling then
      match answers.select with
      | .failed =>
          (inUse, pclsMsg, errMsgQueueSelectFailed)
      | .notOurQueue =>
          (inUse, pclsMsg, errMsgQueueSelectButNotOurQueue)
      | .readable =>
          receiveInto inUse owner pclsMsg answers
    else
      receiveInto inUse owner pclsMsg answers

/--
`MsgQueue::DumpMsgQueue` during its first `rounds` answered receives; the loop
ends, or blocks for good, at the first receive that brings nothing.
-/
def dumpMsgQueue
    (fd : Int32) :
    Nat →
      Process Object Queue Obj →
      Process Object Queue Obj
  | 0, process =>
      process
  | rounds + 1, process =>
      match process.kernel.mqReceive fd true with
      | none =>
          process
      | some (msg, kernel) =>
          dumpMsgQueue fd rounds
            (freeIn { process with kernel } msg).1

end Functions

end WkcRuntime.MsgQueue
