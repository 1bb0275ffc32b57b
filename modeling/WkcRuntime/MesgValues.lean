import WkcRuntime.Machine
import WkcRuntime.MsgQueueSource

namespace WkcRuntime.MesgValues

open Mesg MessageQueue MsgQueue

/-!
# Messages as values

What `Mesg` and `MsgQueue` are for, without pointers and without a heap: a
message is its header, its payload bytes and the value of its object.  Copying
duplicates a value, sending moves one from the hands of a caller into a queue,
receiving moves one out of it, and nothing else happens to any other message.
-/

/-- A message with what it points to. -/
@[ext] structure Content (Obj : Type) where
  ulMsgId : UInt64
  tpMsgCmd : UInt64 × UInt64
  bytes : Option (List UInt8)
  size : Int32
  ulCbId : UInt64
  u32SeqCnt : UInt32
  object : Option Obj
  deriving DecidableEq, Repr

/-- The setters of the header. -/
inductive HeaderSetter where
  | msgId (ulMsgId : UInt64)
  | msgReqLong (slData : UInt64)
  | cbId (ulCbId : UInt64)
  | seqCnt (u32SeqCnt : UInt32)
  deriving DecidableEq, Repr

namespace Content

variable {Obj : Type}

/-- A new message. -/
def blank : Content Obj where
  ulMsgId := 0
  tpMsgCmd := (0, 0)
  bytes := none
  size := 0
  ulCbId := 0
  u32SeqCnt := 0
  object := none

/-- The message without payload and object. -/
def released (content : Content Obj) : Content Obj :=
  { content with
    bytes := none
    size := if content.bytes.isSome then 0 else content.size
    object := none }

/-- The message whose payload and object the queue has taken over. -/
def handedOver (content : Content Obj) : Content Obj :=
  { content with bytes := none, size := 0, object := none }

/-- A copy; the payload is missing where there is no memory for it. -/
def copy (content : Content Obj) (allocated : Bool) : Content Obj :=
  if content.bytes.isSome ∧ 0 < content.size ∧ allocated then
    content
  else
    { content with bytes := none, size := 0 }

/-- A copy has the header and the object of its source. -/
theorem copy_eq (content : Content Obj) (allocated : Bool) :
    content.copy allocated =
      { content with
        bytes := (content.copy allocated).bytes
        size := (content.copy allocated).size } := by
  simp only [copy]
  split <;> rfl

/-- The message has neither payload nor object. -/
def HoldsNothing (content : Content Obj) : Prop :=
  content.bytes = none ∧ content.object = none

instance (content : Content Obj) : Decidable content.HoldsNothing :=
  decidable_of_iff
    (content.bytes.isNone = true ∧ content.object.isNone = true)
    (by simp only [HoldsNothing, Option.isNone_iff_eq_none])

/-- Releasing what holds nothing changes nothing. -/
theorem HoldsNothing.released_eq
    {content : Content Obj}
    (nothing : content.HoldsNothing) :
    content.released = content := by
  obtain ⟨noBytes, noObject⟩ := nothing
  cases content
  simp_all [released]

/-- The message with another header. -/
def set (content : Content Obj) : HeaderSetter → Content Obj
  | .msgId ulMsgId =>
      { content with ulMsgId }
  | .msgReqLong slData =>
      { content with tpMsgCmd := (slData, content.tpMsgCmd.2) }
  | .cbId ulCbId =>
      { content with ulCbId }
  | .seqCnt u32SeqCnt =>
      { content with u32SeqCnt }

end Content

/-- The messages in the hands of callers, and those in the queues. -/
structure Values (Slot Object Queue Obj : Type) where
  mesg : Slot → Option (Content Obj)
  kernel : Kernel Queue (Content Obj)
  msgQueueFd : Object → Int32

/-- One call; no address occurs in it. -/
inductive Call (Slot Object Obj : Type) where
  | construct (slot : Slot)
  | copyConstruct (slot source : Slot) (allocated : Bool)
  | assign (slot source : Slot) (allocated : Bool)
  | set (slot : Slot) (setter : HeaderSetter)
  | free (slot : Slot)
  | handData (slot : Slot) (bytes : List UInt8) (size : Int32)
  | handObj (slot : Slot) (value : Obj)
  | destroy (slot : Slot)
  | send (slot : Slot) (fd : Int32) (prio : UInt32) (accepts : Bool)
  | receive
      (slot : Slot)
      (owner : Object)
      (isPolling : Bool)
      (answers : Answers)
  | dump (fd : Int32) (rounds : Nat)

section Steps

variable {Slot Object Queue Obj : Type}
variable [DecidableEq Slot] [DecidableEq Queue]

omit [DecidableEq Queue] in
/-- Replace the queues and one message. -/
def Values.put
    (values : Values Slot Object Queue Obj)
    (kernel : Kernel Queue (Content Obj))
    (slot : Slot)
    (entry : Option (Content Obj)) :
    Values Slot Object Queue Obj where
  mesg := Function.update values.mesg slot entry
  kernel := kernel
  msgQueueFd := values.msgQueueFd

/-- A send moves the message into the queue, or it is gone. -/
def sendValue
    (kernel : Kernel Queue (Content Obj))
    (fd : Int32)
    (content : Content Obj)
    (prio : UInt32)
    (accepts : Bool) :
    Kernel Queue (Content Obj) × Content Obj :=
  if fd ≤ 0 then
    (kernel, content.released)
  else
    match kernel.mqSend fd content prio accepts with
    | none =>
        (kernel, content.released)
    | some next =>
        (next, content.handedOver)

/-- The first message of a queue moves into the hand. -/
def takeValue
    (kernel : Kernel Queue (Content Obj))
    (fd : Int32)
    (content : Content Obj)
    (answers : Bool) :
    Kernel Queue (Content Obj) × Content Obj :=
  match kernel.mqReceive fd answers with
  | none =>
      (kernel, content)
  | some (first, next) =>
      (next, first)

/-- A receive takes a message, if its descriptor and `select` let it. -/
def receiveValue
    (kernel : Kernel Queue (Content Obj))
    (fd : Int32)
    (content : Content Obj)
    (isPolling : Bool)
    (answers : Answers) :
    Kernel Queue (Content Obj) × Content Obj :=
  if 0 < fd ∧ (isPolling → answers.select = .readable) then
    takeValue kernel fd content answers.receive
  else
    (kernel, content)

/-- Drop the first messages of a queue. -/
def dumpValues
    (fd : Int32) :
    Nat → Kernel Queue (Content Obj) → Kernel Queue (Content Obj)
  | 0, kernel =>
      kernel
  | rounds + 1, kernel =>
      match kernel.mqReceive fd true with
      | none =>
          kernel
      | some (_, next) =>
          dumpValues fd rounds next

/-- One call. -/
def step?
    (values : Values Slot Object Queue Obj) :
    Call Slot Object Obj → Option (Values Slot Object Queue Obj)
  | .construct slot =>
      match values.mesg slot with
      | none =>
          some (values.put values.kernel slot (some .blank))
      | some _ =>
          none
  | .copyConstruct slot source allocated =>
      match values.mesg slot, values.mesg source with
      | none, some content =>
          some (values.put values.kernel slot
            (some (content.copy allocated)))
      | _, _ =>
          none
  | .assign slot source allocated =>
      match values.mesg slot, values.mesg source with
      | some _, some content =>
          if slot = source then
            some values
          else
            some (values.put values.kernel slot
              (some (content.copy allocated)))
      | _, _ =>
          none
  | .set slot setter =>
      (values.mesg slot).map fun content =>
        values.put values.kernel slot (some (content.set setter))
  | .free slot =>
      (values.mesg slot).map fun content =>
        values.put values.kernel slot (some content.released)
  | .handData slot bytes size =>
      (values.mesg slot).bind fun content =>
        if content.bytes = none ∧ 0 < size ∧
            size.toNatClampNeg ≤ bytes.length then
          some (values.put values.kernel slot
            (some { content with
              bytes := some (bytes.take size.toNatClampNeg)
              size }))
        else
          none
  | .handObj slot value =>
      (values.mesg slot).bind fun content =>
        if content.object.isNone then
          some (values.put values.kernel slot
            (some { content with object := some value }))
        else
          none
  | .destroy slot =>
      (values.mesg slot).bind fun content =>
        if content.HoldsNothing then
          some (values.put values.kernel slot none)
        else
          none
  | .send slot fd prio accepts =>
      (values.mesg slot).map fun content =>
        let sent := sendValue values.kernel fd content prio accepts
        values.put sent.1 slot (some sent.2)
  | .receive slot owner isPolling answers =>
      (values.mesg slot).bind fun content =>
        if content.HoldsNothing then
          let received :=
            receiveValue values.kernel (values.msgQueueFd owner) content
              isPolling answers
          some (values.put received.1 slot (some received.2))
        else
          none
  | .dump fd rounds =>
      some { values with kernel := dumpValues fd rounds values.kernel }

/-- No messages at the start. -/
def machine :
    Machine (Values Slot Object Queue Obj) (Call Slot Object Obj) where
  Initial := fun values =>
    (∀ slot, values.mesg slot = none) ∧
      ∀ queue, (values.kernel.queue queue).messages = []
  step? := step?

end Steps

end WkcRuntime.MesgValues
