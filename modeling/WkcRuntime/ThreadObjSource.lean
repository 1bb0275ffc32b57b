import WkcRuntime.Machine
import WkcRuntime.MessageQueue

namespace WkcRuntime.ThreadObj

open MessageQueue

/-!
# Thread objects and `StopAllThreads`

`basic/ThreadObj.cpp` and the loop of `basic/ThreadWithMsgQueue.cpp`.  A plain
object runs a function of the user, which may end at any time; an object with a
queue runs `LoopReadMsg(true)`, whose `Receive` first blocks in a `select`
without timeout.  Of a message the loop only reads the id, so a queue holds ids.
`StopAllThreads` keeps the list of objects locked while it runs; the answers of
`select` and `mq_receive` are part of the step of a worker.
-/

/-- `MSG_ID_STOP_THREAD`. -/
def msgIdStopThread : UInt64 :=
  1

/-- `ERR_THREAD_QUEUE_NOT_INITIALIZED`. -/
def errThreadQueueNotInitialized : Int32 :=
  -1110

/-- `THREAD_TYPE_WORK_FUNCTION` and `THREAD_TYPE_WITH_QUEUE`. -/
inductive ThreadType where
  | workFunction
  | withQueue
  deriving DecidableEq, Repr

/-- Where the thread of an object stands. -/
inductive Worker where
  | notStarted
  | function
  | testFlag
  | receive
  | select
  | mqReceive
  | processMsg (msgId : UInt64)
  | sleep
  | clear
  | finished
  deriving DecidableEq, Repr

/-- How `select` on the queue of the object ends. -/
inductive Select where
  | failed
  | notOurQueue
  | readable
  deriving DecidableEq, Repr

/-- What a worker is answered in one step. -/
structure Answer where
  functionEnds : Bool
  select : Select
  receive : Bool
  deriving DecidableEq, Repr

/-- A `ThreadObj` or a `ThreadWithMsgQueue`, with its queue and its thread. -/
structure Object where
  threadType : ThreadType
  initialized : Bool
  msgQueueFd : Int32
  queue : Mqueue UInt64
  joinable : Bool
  stopRequested : Bool
  nrOfProcessedMsgs : UInt32
  worker : Worker

/-- One step of the thread of an object. -/
def Object.workerStep?
    (object : Object)
    (answer : Answer) :
    Option Object :=
  match object.worker with
  | .notStarted =>
      none
  | .function =>
      if answer.functionEnds then
        some { object with worker := .finished }
      else
        some object
  | .testFlag =>
      if object.stopRequested then
        some { object with worker := .clear }
      else
        some { object with worker := .receive }
  | .receive =>
      if object.msgQueueFd ≤ 0 then
        some { object with worker := .testFlag }
      else
        some { object with worker := .select }
  | .select =>
      match answer.select with
      | .failed =>
          some { object with worker := .testFlag }
      | .notOurQueue =>
          some { object with worker := .sleep }
      | .readable =>
          match object.queue.messages with
          | [] =>
              none
          | _ :: _ =>
              some { object with worker := .mqReceive }
  | .mqReceive =>
      match object.queue.messages with
      | [] =>
          some { object with worker := .testFlag }
      | (_, msgId) :: rest =>
          if answer.receive then
            some { object with
              queue := { object.queue with messages := rest }
              worker := .processMsg msgId }
          else
            some { object with worker := .testFlag }
  | .processMsg msgId =>
      if msgId ≠ msgIdStopThread then
        some { object with
          nrOfProcessedMsgs := object.nrOfProcessedMsgs + 1
          worker := .testFlag }
      else
        some { object with stopRequested := true, worker := .testFlag }
  | .sleep =>
      some { object with worker := .testFlag }
  | .clear =>
      match object.queue.messages with
      | [] =>
          some { object with worker := .finished }
      | _ :: rest =>
          if answer.receive then
            some { object with
              queue := { object.queue with messages := rest } }
          else
            some { object with worker := .finished }
  | .finished =>
      none

/-- Where `StopAllThreads` stands in its loop over the list. -/
inductive Manager (Id : Type) where
  | idle
  | forEach (rest : List Id)
  | join (pObj : Id) (rest : List Id)
  deriving DecidableEq, Repr

/-- All objects, the static list and the thread that stops them. -/
structure State (Id : Type) where
  object : Id → Object
  gList : List Id
  manager : Manager Id

/-- A call of the user or a step of a thread. -/
inductive Action (Id : Type) where
  | startThread (id : Id)
  | send (id : Id) (msgId : UInt64) (prio : UInt32)
  | stopAllThreads
  | manager
  | worker (id : Id) (answer : Answer)
  deriving DecidableEq, Repr

section Steps

variable {Id : Type} [DecidableEq Id]

/-- Replace one object. -/
def State.setObject
    (state : State Id)
    (id : Id)
    (object : Object) :
    State Id :=
  { state with object := Function.update state.object id object }

/-- `StartThread` of either class. -/
def startThread
    (state : State Id)
    (id : Id) :
    State Id × Int32 :=
  let this := state.object id
  match this.threadType with
  | .withQueue =>
      if ¬ this.initialized then
        (state, errThreadQueueNotInitialized)
      else if this.joinable then
        (state, 0)
      else
        ({ state.setObject id { this with
            stopRequested := false
            joinable := true
            worker := .testFlag } with
          gList := id :: state.gList }, 0)
  | .workFunction =>
      if this.joinable then
        (state, 0)
      else
        ({ state.setObject id { this with
            stopRequested := false
            joinable := true
            worker := .function } with
          gList := id :: state.gList }, 0)

/-- `mq_send` of a message to the queue of an object. -/
def send
    (state : State Id)
    (id : Id)
    (msgId : UInt64)
    (prio : UInt32) :
    State Id :=
  let this := state.object id
  if this.queue.messages.length < this.queue.maxmsg then
    state.setObject id { this with
      queue := { this.queue with
        messages := insertByPriority prio msgId this.queue.messages } }
  else
    state

/-- One step of `StopAllThreads`; `join` waits for the end of the thread. -/
def managerStep?
    (state : State Id) :
    Option (State Id) :=
  match state.manager with
  | .idle =>
      none
  | .forEach [] =>
      some { state with gList := [], manager := .idle }
  | .forEach (pObj :: rest) =>
      if (state.object pObj).joinable then
        some { state.setObject pObj
            { state.object pObj with stopRequested := true } with
          manager := .join pObj rest }
      else
        some { state with manager := .forEach rest }
  | .join pObj rest =>
      if (state.object pObj).worker = .finished then
        some { state.setObject pObj
            { state.object pObj with joinable := false } with
          manager := .forEach rest }
      else
        none

/-- One step; nobody starts threads or sends while `StopAllThreads` runs. -/
def step?
    (state : State Id) :
    Action Id → Option (State Id)
  | .startThread id =>
      if state.manager = .idle then
        some (startThread state id).1
      else
        none
  | .send id msgId prio =>
      if state.manager = .idle then
        some (send state id msgId prio)
      else
        none
  | .stopAllThreads =>
      if state.manager = .idle then
        some { state with manager := .forEach state.gList }
      else
        none
  | .manager =>
      managerStep? state
  | .worker id answer =>
      ((state.object id).workerStep? answer).map (state.setObject id)

/-- Objects that are not started yet, with any queues. -/
def machine : Machine (State Id) (Action Id) where
  Initial := fun state =>
    state.gList = [] ∧
      state.manager = .idle ∧
      ∀ id,
        (state.object id).worker = .notStarted ∧
          (state.object id).joinable = false ∧
          (state.object id).stopRequested = true
  step? := step?

end Steps

end WkcRuntime.ThreadObj
