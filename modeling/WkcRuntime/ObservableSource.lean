import WkcRuntime.MsgQueueSource

namespace WkcRuntime.Observable

open Mesg MsgQueue

/-!
# Subscriptions and notification

`ObservableQueue` and `ObservableFunction` of `basic/` keep a list of
subscriptions, newest first.  The two classes differ in what a subscriber is (a
descriptor, the address of a function object), in when `Add` refuses its
argument and in how `Notify` delivers; everything else is the same code and is
defined once.

`attempts` records the subscribers to which a delivery was attempted.
-/

/-- `ERR_OBS_MSG_SIZE_NOT_SET`. -/
def errObsMsgSizeNotSet : Int32 :=
  -1521

/-- `MESG_PRIO_LOW`. -/
def mesgPrioLow : UInt32 :=
  0

/-- `Element_T`. -/
structure ElementT (Subscriber : Type) where
  subscriber : Subscriber
  ulMsgId : UInt64
  ulCbId : UInt64
  deriving DecidableEq, Repr

/-- The static counter, what deliveries act on, and the attempted ones. -/
structure Notification (World Subscriber : Type) where
  world : World
  gExecuteCnt : Int32
  attempts : List Subscriber

section Registry

variable {Subscriber : Type} [DecidableEq Subscriber]

/-- The test of `Add` and `IsHas`: a wildcard entry or an equal one. -/
def ElementT.covers
    (subscriber : Subscriber)
    (ulMsgId : UInt64)
    (e : ElementT Subscriber) :
    Bool :=
  (decide (e.subscriber = subscriber) && decide (e.ulMsgId = 0)) ||
    (decide (e.subscriber = subscriber) && decide (e.ulMsgId = ulMsgId))

/-- `Add`, after the check of its argument. -/
def add
    (refused : Bool)
    (mList : List (ElementT Subscriber))
    (subscriber : Subscriber)
    (ulMsgId ulCbId : UInt64) :
    List (ElementT Subscriber) :=
  if refused then
    mList
  else if mList.any (ElementT.covers subscriber ulMsgId) then
    mList
  else
    ⟨subscriber, ulMsgId, ulCbId⟩ :: mList

/-- `Del`: only the equal entries are removed. -/
def del
    (mList : List (ElementT Subscriber))
    (subscriber : Subscriber)
    (ulMsgId : UInt64) :
    List (ElementT Subscriber) :=
  mList.filter fun e =>
    !(decide (e.subscriber = subscriber) && decide (e.ulMsgId = ulMsgId))

omit [DecidableEq Subscriber] in
/-- `Clear`. -/
def clear
    (_mList : List (ElementT Subscriber)) :
    List (ElementT Subscriber) :=
  []

/-- `IsHas`. -/
def isHas
    (mList : List (ElementT Subscriber))
    (subscriber : Subscriber)
    (ulMsgId : UInt64) :
    Bool :=
  mList.any (ElementT.covers subscriber ulMsgId)

/-- The entries that `Notify` visits for a message. -/
def ElementT.matches
    {Subscriber : Type}
    (ulMsgId : UInt64)
    (e : ElementT Subscriber) :
    Bool :=
  decide (e.ulMsgId = 0) || decide (e.ulMsgId = ulMsgId)

end Registry

section Notify

variable {World Subscriber : Type}

/-- Deliver a copy of a message; the number of earlier attempts is an index. -/
abbrev Deliver (World Subscriber : Type) :=
  Nat → World → Subscriber → MesgT → World × Int32

/-- The loop of `Notify`, with `rc` as it stands. -/
def notifyEach
    (deliver : Deliver World Subscriber) :
    List (ElementT Subscriber) →
      MesgT →
      Int32 →
      Notification World Subscriber →
      Notification World Subscriber × MesgT × Int32
  | [], pMsg, rc, notification =>
      (notification, pMsg, rc)
  | e :: rest, pMsg, rc, notification =>
      if e.matches pMsg.ulMsgId then
        let tagged := pMsg.cbId e.ulCbId
        let delivered :=
          deliver notification.attempts.length
            notification.world e.subscriber tagged
        notifyEach deliver rest tagged delivered.2
          { world := delivered.1
            gExecuteCnt := notification.gExecuteCnt + 1
            attempts := notification.attempts ++ [e.subscriber] }
      else
        notifyEach deliver rest pMsg rc notification

/-- `Notify`; a null message is `none`. -/
def notify
    (deliver : Deliver World Subscriber)
    (mList : List (ElementT Subscriber))
    (pMsg : Option MesgT)
    (notification : Notification World Subscriber) :
    Notification World Subscriber × Option MesgT × Int32 :=
  match pMsg with
  | none =>
      (notification, none, -1)
  | some msg =>
      if msg.tpMsgData.1.isSome ∧ msg.tpMsgData.2 = 0 then
        (notification, some msg, errObsMsgSizeNotSet)
      else
        let notified := notifyEach deliver mList msg 0 notification
        (notified.1, some notified.2.1, notified.2.2)

end Notify

/-- The calls on one observable that change its list. -/
inductive Op (Subscriber : Type) where
  | add
      (subscriber : Subscriber)
      (refusal : Bool)
      (ulMsgId ulCbId : UInt64)
  | del (subscriber : Subscriber) (ulMsgId : UInt64)
  | clear
  deriving DecidableEq, Repr

end WkcRuntime.Observable

namespace WkcRuntime.ObservableQueue

open Mesg MsgQueue Observable

/-- The argument check of `Add`, given what `IsBlocking` says. -/
def refuses (fd : Int32) (isBlocking : Bool) : Bool :=
  decide (fd = 0) || isBlocking

/-- `ObservableQueue::Add`. -/
def add
    (mList : List (ElementT Int32))
    (fd : Int32)
    (isBlocking : Bool)
    (ulMsgId ulCbId : UInt64) :
    List (ElementT Int32) :=
  Observable.add (refuses fd isBlocking) mList fd ulMsgId ulCbId

/-- `ObservableQueue::Del`. -/
def del
    (mList : List (ElementT Int32))
    (fd : Int32)
    (ulMsgId : UInt64) :
    List (ElementT Int32) :=
  Observable.del mList fd ulMsgId

/-- `ObservableQueue::Clear`. -/
def clear (mList : List (ElementT Int32)) : List (ElementT Int32) :=
  Observable.clear mList

/-- `ObservableQueue::IsHas`. -/
def isHas
    (mList : List (ElementT Int32))
    (fd : Int32)
    (ulMsgId : UInt64) :
    Bool :=
  Observable.isHas mList fd ulMsgId

/-- The list after one call. -/
def step
    (mList : List (ElementT Int32)) :
    Op Int32 → List (ElementT Int32)
  | .add fd isBlocking ulMsgId ulCbId =>
      add mList fd isBlocking ulMsgId ulCbId
  | .del fd ulMsgId =>
      del mList fd ulMsgId
  | .clear =>
      clear mList

section Notify

variable {Object Queue Obj : Type}
variable [DecidableEq Object] [DecidableEq Queue]

/-- Copy the message into a temporary and send that to the queue. -/
def deliver
    (answers : Nat → Allocation × Bool) :
    Deliver (Process Object Queue Obj) Int32 :=
  fun attempt process fd pMsg =>
    let tmpMsg :=
      Mesg.assign (answers attempt).1 process.heap mesg pMsg
    let sent :=
      MsgQueue.send { process with heap := tmpMsg.1 } fd tmpMsg.2
        mesgPrioLow (answers attempt).2
    (sent.1, sent.2.2)

/-- `ObservableQueue::Notify`. -/
def notify
    (answers : Nat → Allocation × Bool)
    (mList : List (ElementT Int32))
    (pMsg : Option MesgT)
    (notification : Notification (Process Object Queue Obj) Int32) :
    Notification (Process Object Queue Obj) Int32 ×
      Option MesgT × Int32 :=
  Observable.notify (deliver answers) mList pMsg notification

/-- The descriptors to which one `Notify` attempts a delivery. -/
def attempts
    (answers : Nat → Allocation × Bool)
    (process : Process Object Queue Obj)
    (gExecuteCnt : Int32)
    (mList : List (ElementT Int32))
    (pMsg : Option MesgT) :
    List Int32 :=
  (notify answers mList pMsg ⟨process, gExecuteCnt, []⟩).1.attempts

end Notify

end WkcRuntime.ObservableQueue

namespace WkcRuntime.ObservableFunction

open Mesg Observable

/-- The address of a `std::function` object. -/
abbrev FunctionId := Nat

/-- The argument check of `Add`, given whether the object is empty. -/
def refuses (_function : FunctionId) (isNull : Bool) : Bool :=
  isNull

/-- `ObservableFunction::Add`. -/
def add
    (mList : List (ElementT FunctionId))
    (function : FunctionId)
    (isNull : Bool)
    (ulMsgId ulCbId : UInt64) :
    List (ElementT FunctionId) :=
  Observable.add (refuses function isNull) mList function
    ulMsgId ulCbId

/-- `ObservableFunction::Del`. -/
def del
    (mList : List (ElementT FunctionId))
    (function : FunctionId)
    (ulMsgId : UInt64) :
    List (ElementT FunctionId) :=
  Observable.del mList function ulMsgId

/-- `ObservableFunction::Clear`. -/
def clear
    (mList : List (ElementT FunctionId)) :
    List (ElementT FunctionId) :=
  Observable.clear mList

/-- `ObservableFunction::IsHas`. -/
def isHas
    (mList : List (ElementT FunctionId))
    (function : FunctionId)
    (ulMsgId : UInt64) :
    Bool :=
  Observable.isHas mList function ulMsgId

/-- The list after one call. -/
def step
    (mList : List (ElementT FunctionId)) :
    Op FunctionId → List (ElementT FunctionId)
  | .add function isNull ulMsgId ulCbId =>
      add mList function isNull ulMsgId ulCbId
  | .del function ulMsgId =>
      del mList function ulMsgId
  | .clear =>
      clear mList

section Notify

variable {World Obj : Type}

/-- What the called functions do with their message and with the program. -/
abbrev Behaviour (World Obj : Type) :=
  FunctionId → Heap Obj × World → MesgT → (Heap Obj × World) × Int32

/-- Copy the message into a temporary and call the function on that. -/
def deliver
    (call : Behaviour World Obj)
    (answers : Nat → Allocation) :
    Deliver (Heap Obj × World) FunctionId :=
  fun attempt world function pMsg =>
    let tmpMsg := Mesg.assign (answers attempt) world.1 mesg pMsg
    call function (tmpMsg.1, world.2) tmpMsg.2

/-- `ObservableFunction::Notify`. -/
def notify
    (call : Behaviour World Obj)
    (answers : Nat → Allocation)
    (mList : List (ElementT FunctionId))
    (pMsg : Option MesgT)
    (notification : Notification (Heap Obj × World) FunctionId) :
    Notification (Heap Obj × World) FunctionId ×
      Option MesgT × Int32 :=
  Observable.notify (deliver call answers) mList pMsg notification

/-- The functions that one `Notify` calls. -/
def attempts
    (call : Behaviour World Obj)
    (answers : Nat → Allocation)
    (world : Heap Obj × World)
    (gExecuteCnt : Int32)
    (mList : List (ElementT FunctionId))
    (pMsg : Option MesgT) :
    List FunctionId :=
  (notify call answers mList pMsg ⟨world, gExecuteCnt, []⟩).1.attempts

end Notify

end WkcRuntime.ObservableFunction
