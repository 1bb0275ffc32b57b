import WkcRuntime.Machine
import WkcRuntime.MsgQueueSource

namespace WkcRuntime.MsgQueue

open Mesg MessageQueue

/-!
# Opening and closing `MsgQueue` objects

The constructor, both `Open` overloads, `Close`, `Unlink`, `Clear` and the
destructor of `basic/MsgQueue.cpp`, over any number of objects and one call
after the other.  `gMap` is a map from descriptor numbers to objects; the kernel
gives a number that is not in use to the next `mq_open`, so that a number may
come back after it was closed.

The answers of `mq_open`, `mq_close` and `mq_receive` are arguments.  A receive
inside `Clear` that would block for good never returns, and then neither does
`Clear`; one that is interrupted or refused ends its loop.
-/

/-- `ERR_MSG_QUEUE_CLOSE_FAILED`. -/
def errMsgQueueCloseFailed : Int32 :=
  -1410

/-- `ERR_MSG_QUEUE_CLOSE_NO_HANDLE`. -/
def errMsgQueueCloseNoHandle : Int32 :=
  -1411

/-- `ERR_MSG_QUEUE_NAME_UNKNOWN`. -/
def errMsgQueueNameUnknown : Int32 :=
  -1417

/-- `ERR_MSG_QUEUE_OPEN_FAILED`. -/
def errMsgQueueOpenFailed : Int32 :=
  -1418

/-- `ERR_MSG_QUEUE_UNLINK_FAILED`. -/
def errMsgQueueUnlinkFailed : Int32 :=
  -1424

/-- `ERR_MSG_QUEUE_PTR_IS_NULL`. -/
def errMsgQueuePtrIsNull : Int32 :=
  -1426

/--
The objects of a process with their remaining members, the names of kernel
queues and the number of queues created so far.

Two fields are history: an object is `opened` if its last `Open` succeeded and
it was not closed since, and it `holds` the queue that `Open` gave it until it
is closed or opened again.
-/
structure Registry (Object Obj : Type) where
  process : Process Object Nat Obj
  msgQueueName : Object → String
  msgQueueSize : Object → Int64
  alive : Object → Bool
  linked : String → Bool
  created : Nat
  opened : Object → Bool
  holds : Object → Option Nat

namespace Registry

variable {Object Obj : Type}

/-- `m_msgQueueFd` of an object. -/
def fdOf
    (registry : Registry Object Obj)
    (this : Object) :
    Int32 :=
  (registry.process.object this).msgQueueFd

/-- What a descriptor number refers to at the moment. -/
def descriptor
    (registry : Registry Object Obj) :
    Int32 → Option Nat :=
  registry.process.kernel.descriptor

/-- The object that `gMap` has for a number. -/
def gMap
    (registry : Registry Object Obj) :
    Int32 → Option Object :=
  registry.process.gMap

/-- The messages of a kernel queue. -/
def messages
    (registry : Registry Object Obj)
    (queue : Nat) :
    List (UInt32 × MesgT) :=
  (registry.process.kernel.queue queue).messages

/-- Replace the state of the kernel. -/
def withKernel
    (registry : Registry Object Obj)
    (kernel : Kernel Nat MesgT) :
    Registry Object Obj :=
  { registry with process := { registry.process with kernel } }

variable [DecidableEq Object]

/-- Replace the members of one object that the process keeps. -/
def setObject
    (registry : Registry Object Obj)
    (this : Object)
    (object : MsgQueueObject) :
    Registry Object Obj :=
  { registry with
    process :=
      { registry.process with
        object :=
          Function.update registry.process.object this object } }

/-- `MsgQueue::AddMsgQueue`. -/
def addMsgQueue
    (registry : Registry Object Obj)
    (fd : Int32)
    (this : Object) :
    Registry Object Obj :=
  { registry with
    process :=
      { registry.process with
        gMap := Function.update registry.process.gMap fd (some this) } }

omit [DecidableEq Object] in
/-- `MsgQueue::DelMsgQueue`, which erases whatever the number maps to. -/
def delMsgQueue
    (registry : Registry Object Obj)
    (fd : Int32) :
    Registry Object Obj :=
  { registry with
    process :=
      { registry.process with
        gMap := Function.update registry.process.gMap fd none } }

end Registry

section Functions

variable {Object Obj : Type} [DecidableEq Object]

/--
`MsgQueue::MsgQueue`; the members that it does not initialise keep what the
storage held.
-/
def construct
    (registry : Registry Object Obj)
    (this : Object) :
    Registry Object Obj :=
  { registry.setObject this
      { registry.process.object this with
        msgQueueFd := -1
        msgQueueNotInUse := false
        maxMsgInQueue := 0 } with
    msgQueueName := Function.update registry.msgQueueName this ""
    msgQueueSize := Function.update registry.msgQueueSize this 0
    alive := Function.update registry.alive this true }

/--
What `mq_open` answers: a descriptor only if it may create a queue and the name
is not empty.
-/
def mqOpenAnswer
    (name : String)
    (oCreat : Bool)
    (answer : Option Int32) :
    Option Int32 :=
  if oCreat ∧ name ≠ "" then
    answer
  else
    none

/--
The common part of both `Open` overloads: unlink the name, set the members, and
open a new queue.
-/
def openQueue
    (resetsLastMsgMsgId : Bool)
    (registry : Registry Object Obj)
    (this : Object)
    (name : String)
    (maxmsg : Int64)
    (oCreat : Bool)
    (answer : Option Int32) :
    Registry Object Obj × Int32 :=
  let object := registry.process.object this
  let prepared :=
    { object with
      receiveMsgCnt := 0
      sendMsgCnt := 0
      lastMsgMsgId :=
        if resetsLastMsgMsgId then 0 else object.lastMsgMsgId
      maxMsgInQueue := 0 }
  let named :=
    { registry with
      linked := Function.update registry.linked name false
      msgQueueName :=
        Function.update registry.msgQueueName this name
      msgQueueSize :=
        Function.update registry.msgQueueSize this maxmsg }
  match mqOpenAnswer name oCreat answer with
  | none =>
      ({ named.setObject this { prepared with msgQueueFd := -1 } with
          opened := Function.update registry.opened this false
          holds := Function.update registry.holds this none },
        errMsgQueueOpenFailed)
  | some fd =>
      let opened :=
        { named.setObject this { prepared with msgQueueFd := fd } with
          linked := Function.update registry.linked name true
          created := registry.created + 1
          opened := Function.update registry.opened this true
          holds := Function.update registry.holds this
            (some registry.created) }
      ((opened.withKernel
          (registry.process.kernel.mqOpen fd
            registry.created maxmsg.toInt.toNat)).addMsgQueue fd this,
        0)

/-- `Open` with a null pointer. -/
def openNull
    (registry : Registry Object Obj)
    (this : Object) :
    Registry Object Obj × Int32 :=
  ({ registry with
      opened := Function.update registry.opened this false },
    errMsgQueuePtrIsNull)

/-- `MsgQueue::Open(name, flag, mode, maxmsg)`. -/
def openMaxmsg
    (registry : Registry Object Obj)
    (this : Object)
    (name : Option String)
    (maxmsg : Int64)
    (oCreat : Bool)
    (answer : Option Int32) :
    Registry Object Obj × Int32 :=
  match name with
  | none =>
      openNull registry this
  | some name =>
      openQueue true registry this name maxmsg oCreat answer

/--
`MsgQueue::Open(name, flag, mode, pattr)`; of the attributes it reads
`mq_maxmsg`.
-/
def openAttr
    (registry : Registry Object Obj)
    (this : Object)
    (name : Option String)
    (pattr : Option Int64)
    (oCreat : Bool)
    (answer : Option Int32) :
    Registry Object Obj × Int32 :=
  match name, pattr with
  | some name, some maxmsg =>
      openQueue false registry this name maxmsg oCreat answer
  | _, _ =>
      openNull registry this

/-- `MsgQueue::Close`. -/
def close
    (registry : Registry Object Obj)
    (this : Object)
    (closes : Bool) :
    Registry Object Obj × Int32 :=
  if registry.fdOf this < 0 then
    (registry, errMsgQueueCloseNoHandle)
  else
    match registry.process.kernel.mqClose
        (registry.fdOf this) closes with
    | none =>
        (registry, errMsgQueueCloseFailed)
    | some kernel =>
        let closed :=
          { registry.withKernel kernel with
            opened := Function.update registry.opened this false
            holds := Function.update registry.holds this none }
        (closed.delMsgQueue (registry.fdOf this), 0)

/-- `MsgQueue::Clear`. -/
def clear
    (registry : Registry Object Obj)
    (this : Object)
    (rounds : Nat) :
    Registry Object Obj :=
  { registry with
    process :=
      dumpMsgQueue (registry.fdOf this) rounds registry.process }

/-- `mq_unlink` at the end of `MsgQueue::Unlink`. -/
def mqUnlink
    (registry : Registry Object Obj)
    (name : String) :
    Registry Object Obj × Int32 :=
  if registry.linked name then
    ({ registry with
        linked := Function.update registry.linked name false },
      0)
  else
    (registry, errMsgQueueUnlinkFailed)

/-- `MsgQueue::Unlink`; the code of `Close` is dropped. -/
def unlink
    (registry : Registry Object Obj)
    (this : Object)
    (rounds : Nat)
    (closes : Bool) :
    Registry Object Obj × Int32 :=
  if registry.msgQueueName this = "" then
    (registry, errMsgQueueNameUnknown)
  else
    mqUnlink (close (clear registry this rounds) this closes).1
      (registry.msgQueueName this)

/-- `MsgQueue::~MsgQueue`. -/
def destroy
    (registry : Registry Object Obj)
    (this : Object)
    (rounds : Nat)
    (closes : Bool) :
    Registry Object Obj :=
  let unlinked := (unlink registry this rounds closes).1
  { unlinked with
    alive := Function.update unlinked.alive this false
    opened := Function.update unlinked.opened this false
    holds := Function.update unlinked.holds this none }

end Functions

/-- One call, with everything the kernel answers during it. -/
inductive Operation (Object : Type) where
  | construct (this : Object)
  | openMaxmsg
      (this : Object)
      (name : Option String)
      (maxmsg : Int64)
      (oCreat : Bool)
      (answer : Option Int32)
  | openAttr
      (this : Object)
      (name : Option String)
      (pattr : Option Int64)
      (oCreat : Bool)
      (answer : Option Int32)
  | send
      (this : Object)
      (pclsMsg : MesgT)
      (s32Prio : UInt32)
      (accepts : Bool)
  | sendTo
      (fd : Int32)
      (pclsMsg : MesgT)
      (s32Prio : UInt32)
      (accepts : Bool)
  | receive
      (this : Object)
      (pclsMsg : MesgT)
      (isPolling : Bool)
      (answers : Answers)
  | clear (this : Object) (rounds : Nat)
  | close (this : Object) (closes : Bool)
  | unlink (this : Object) (rounds : Nat) (closes : Bool)
  | destroy (this : Object) (rounds : Nat) (closes : Bool)

/-- The object on which a member function is called. -/
def Operation.on? {Object : Type} : Operation Object → Option Object
  | .construct this => some this
  | .openMaxmsg this _ _ _ _ => some this
  | .openAttr this _ _ _ _ => some this
  | .send this _ _ _ => some this
  | .sendTo _ _ _ _ => none
  | .receive this _ _ _ => some this
  | .clear this _ => some this
  | .close this _ => some this
  | .unlink this _ _ => some this
  | .destroy this _ _ => some this

section Steps

variable {Object Obj : Type} [DecidableEq Object]

/-- The kernel gives out numbers of at least zero that are not in use. -/
def Answerable
    (registry : Registry Object Obj) :
    Option Int32 → Prop
  | none => True
  | some fd => 0 ≤ fd ∧ registry.descriptor fd = none

instance
    (registry : Registry Object Obj) :
    ∀ answer, Decidable (Answerable registry answer)
  | none => isTrue trivial
  | some fd =>
      inferInstanceAs
        (Decidable (0 ≤ fd ∧ registry.descriptor fd = none))

/-- A call on a living object. -/
def onAlive
    (registry : Registry Object Obj)
    (this : Object)
    (next : Registry Object Obj) :
    Option (Registry Object Obj) :=
  if registry.alive this = true then
    some next
  else
    none

omit [DecidableEq Object] in
/-- A call goes through exactly on a living object. -/
theorem onAlive_eq_some_iff
    {registry next after : Registry Object Obj}
    {this : Object} :
    onAlive registry this next = some after ↔
      registry.alive this = true ∧ next = after := by
  rw [onAlive, Option.ite_none_right_eq_some, Option.some.injEq]

omit [DecidableEq Object] in
/-- An `Open` goes through exactly with an answer that the kernel can give. -/
theorem answered_eq_some_iff
    {registry next after : Registry Object Obj}
    {this : Object}
    {answer : Option Int32} :
    (if Answerable registry answer then
        onAlive registry this next
      else
        none) = some after ↔
      Answerable registry answer ∧
        registry.alive this = true ∧
        next = after := by
  rw [Option.ite_none_right_eq_some, onAlive_eq_some_iff]

/-- A call that leaves everything but the process alone. -/
def withProcess
    (registry : Registry Object Obj)
    (process : Process Object Nat Obj) :
    Registry Object Obj :=
  { registry with process }

/-- One call after the other. -/
def registryStep?
    (registry : Registry Object Obj) :
    Operation Object → Option (Registry Object Obj)
  | .construct this =>
      if registry.alive this = false then
        some (construct registry this)
      else
        none
  | .openMaxmsg this name maxmsg oCreat answer =>
      if Answerable registry answer then
        onAlive registry this
          (openMaxmsg registry this name maxmsg oCreat answer).1
      else
        none
  | .openAttr this name pattr oCreat answer =>
      if Answerable registry answer then
        onAlive registry this
          (openAttr registry this name pattr oCreat answer).1
      else
        none
  | .send this pclsMsg s32Prio accepts =>
      onAlive registry this
        (withProcess registry
          (send registry.process (registry.fdOf this)
            pclsMsg s32Prio accepts).1)
  | .sendTo fd pclsMsg s32Prio accepts =>
      some (withProcess registry
        (send registry.process fd pclsMsg s32Prio accepts).1)
  | .receive this pclsMsg isPolling answers =>
      onAlive registry this
        (withProcess registry
          (receive registry.process this pclsMsg isPolling answers).1)
  | .clear this rounds =>
      onAlive registry this (clear registry this rounds)
  | .close this closes =>
      onAlive registry this (close registry this closes).1
  | .unlink this rounds closes =>
      onAlive registry this (unlink registry this rounds closes).1
  | .destroy this rounds closes =>
      onAlive registry this (destroy registry this rounds closes)

omit [DecidableEq Object] in
/-- A process that has just started, over any storage for its objects. -/
def Registry.atStart
    (storage : Object → MsgQueueObject) :
    Registry Object Obj where
  process :=
    { heap := Heap.empty
      kernel :=
        { descriptor := fun _ => none
          queue := fun _ => { maxmsg := 0, messages := [] } }
      object := storage
      gMap := fun _ => none
      gReceiveMsgCnt := 0
      gSendMsgCnt := 0 }
  msgQueueName := fun _ => ""
  msgQueueSize := fun _ => 0
  alive := fun _ => false
  linked := fun _ => false
  created := 0
  opened := fun _ => false
  holds := fun _ => none

/-- Storage with nothing in it. -/
def blankStorage
    {Object : Type} :
    Object → MsgQueueObject :=
  fun _ =>
    { msgQueueFd := 0
      msgQueueNotInUse := false
      maxMsgInQueue := 0
      lastMsgMsgId := 0
      receiveMsgCnt := 0
      sendMsgCnt := 0 }

/-- Any calls on any number of queue objects. -/
def registryMachine :
    Machine (Registry Object Obj) (Operation Object) where
  Initial := fun registry =>
    ∃ storage, registry = Registry.atStart storage
  step? := registryStep?

end Steps

end WkcRuntime.MsgQueue
