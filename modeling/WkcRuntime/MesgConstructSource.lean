import WkcRuntime.MsgQueueSource

namespace WkcRuntime.MesgConstruct

open Mesg MessageQueue MsgQueue

/-!
# Constructed messages and what is done with them

The constructor `Mesg::Mesg(ulMsgId)` of `basic/Mesg.h` and the calls on any
number of messages that may follow it: setters and getters, the three kinds of
copies, `Free`, `Send`, `SendMsg` and `Receive`.  Every call shows what it
returns and which blocks and objects it releases, reads and clones.
-/

/--
Default initialisation of `MESG_T`: the constructor of `std::tuple`
value-initialises its elements, and the other members keep what the storage held.
-/
def defaultInit (storage : MesgT) : MesgT :=
  { storage with
    tpMsgCmd := (0, 0)
    tpMsgData := (none, 0) }

/--
`Mesg::Mesg(ulMsgId)`.  The `Mesg()` in its body constructs another, temporary
message.
-/
def mesgOfId
    (storage : MesgT)
    (ulMsgId : UInt64) :
    MesgT :=
  (defaultInit storage).msgId ulMsgId

/-- The getters, and reading the public `mMsg` as a whole. -/
inductive Getter where
  | msgId
  | msgReqLong
  | msgDataPtr
  | msgDataSize
  | msgData
  | cbId
  | seqCnt
  | msgObjPtr
  | mMsg
  deriving DecidableEq, Repr

/-- What a getter returns. -/
inductive Value where
  | ulong (value : UInt64)
  | uint (value : UInt32)
  | int (value : Int32)
  | block (pointer : Option BlockId)
  | data (pointer : Option BlockId) (size : Int32)
  | obj (pointer : Option ObjId)
  | mMsg (value : MesgT)
  deriving DecidableEq, Repr

/-- The value that a getter returns. -/
def Getter.read (this : MesgT) : Getter → Value
  | .msgId => .ulong this.ulMsgId
  | .msgReqLong => .ulong this.tpMsgCmd.1
  | .msgDataPtr => .block this.tpMsgData.1
  | .msgDataSize => .int this.tpMsgData.2
  | .msgData => .data this.tpMsgData.1 this.tpMsgData.2
  | .cbId => .ulong this.ulCbId
  | .seqCnt => .uint this.u32SeqCnt
  | .msgObjPtr => .obj this.pclsMsgObj
  | .mMsg => .mMsg this

/-- The setters with their arguments. -/
inductive Setter where
  | msgId (ulMsgId : UInt64)
  | msgReqLong (slData : UInt64)
  | msgData (pointer : Option BlockId) (size : Int32)
  | cbId (ulCbId : UInt64)
  | seqCnt (u32SeqCnt : UInt32)
  | msgObjPtr (pclsMsgObj : Option ObjId)
  deriving DecidableEq, Repr

/-- The message after a setter. -/
def Setter.write (this : MesgT) : Setter → MesgT
  | .msgId ulMsgId => this.msgId ulMsgId
  | .msgReqLong slData => this.msgReqLong slData
  | .msgData pointer size => this.msgData pointer size
  | .cbId ulCbId => this.cbId ulCbId
  | .seqCnt u32SeqCnt => this.seqCnt u32SeqCnt
  | .msgObjPtr pclsMsgObj => this.msgObjPtr pclsMsgObj

/-- One use of a block or an object. -/
inductive Access where
  | freeBlock (pointer : BlockId)
  | deleteObj (pointer : ObjId)
  | duplicateBlock (target source : BlockId) (size : Nat)
  | cloneObj (target source : ObjId)
  deriving DecidableEq, Repr

/-- What a use does to the heap. -/
def Access.run {Obj : Type} (heap : Heap Obj) : Access → Heap Obj
  | .freeBlock pointer => heap.freeBlock pointer
  | .deleteObj pointer => heap.deleteObj pointer
  | .duplicateBlock target source size =>
      heap.duplicateBlock target source size
  | .cloneObj target source => heap.cloneObj target source

/-- What `Free` releases. -/
def freeAccesses (this : MesgT) : List Access :=
  (this.tpMsgData.1.map Access.freeBlock).toList ++
    (this.pclsMsgObj.map Access.deleteObj).toList

/-- What the payload half of `CopyMsg` reads. -/
def copyDataAccesses
    (allocation : Allocation)
    (clsMsg : MesgT) :
    List Access :=
  match clsMsg.tpMsgData.1, allocation.block with
  | some sigPtr, some pointer =>
      if 0 < clsMsg.tpMsgData.2 then
        [.duplicateBlock pointer sigPtr
          clsMsg.tpMsgData.2.toNatClampNeg]
      else
        []
  | _, _ =>
      []

/-- What `CopyMsg` releases, reads and clones. -/
def copyAccesses
    (allocation : Allocation)
    (this clsMsg : MesgT) :
    List Access :=
  freeAccesses this ++ copyDataAccesses allocation clsMsg ++
    (clsMsg.pclsMsgObj.map (Access.cloneObj allocation.obj)).toList

/-- The messages of a process by name, and everything else in it. -/
structure World (Name Object Queue Obj : Type) where
  mesg : Name → MesgT
  process : Process Object Queue Obj

/-- One call on a message, with the answers that it gets. -/
inductive Use (Name Object : Type) where
  | get (this : Name) (getter : Getter)
  | set (this : Name) (setter : Setter)
  | copyMsg (this clsMsg : Name) (allocation : Allocation)
  | copyConstruct (this clsMsg : Name) (allocation : Allocation)
  | assign (this clsMsg : Name) (allocation : Allocation)
  | free (this : Name)
  | send
      (fd : Int32)
      (this : Name)
      (s32Prio : UInt32)
      (accepts : Bool)
  | sendMsg
      (fd : Int32)
      (this : Name)
      (s32Prio : UInt32)
      (accepts : Bool)
  | receive
      (owner : Object)
      (this : Name)
      (isPolling : Bool)
      (answers : Answers)

/-- What one call shows. -/
structure Seen where
  value : Option Value := none
  rc : Int32 := 0
  accesses : List Access := []
  deriving DecidableEq, Repr

section Steps

variable {Name Object Queue Obj : Type}
variable [DecidableEq Name] [DecidableEq Object] [DecidableEq Queue]

namespace World

omit [DecidableEq Object] [DecidableEq Queue] in
/-- Replace one message and the rest of the process. -/
def put
    (world : World Name Object Queue Obj)
    (this : Name)
    (process : Process Object Queue Obj)
    (msg : MesgT) :
    World Name Object Queue Obj where
  mesg := Function.update world.mesg this msg
  process := process

omit [DecidableEq Object] [DecidableEq Queue] in
/-- The process with another heap. -/
def withHeap
    (world : World Name Object Queue Obj)
    (heap : Heap Obj) :
    Process Object Queue Obj :=
  { world.process with heap }

end World

/-- A `Send` shows its code and, if it failed, what its `Free` released. -/
def sendSeen
    (this : MesgT)
    (rc : Int32) :
    Seen where
  rc := rc
  accesses := if rc = 0 then [] else freeAccesses this

/--
One call.  A message that is copied onto itself is read after its pointers were
released or cleared.
-/
def step
    (world : World Name Object Queue Obj) :
    Use Name Object → World Name Object Queue Obj × Seen
  | .get this getter =>
      (world, { value := some (getter.read (world.mesg this)) })
  | .set this setter =>
      (world.put this world.process (setter.write (world.mesg this)),
        {})
  | .copyMsg this clsMsg allocation =>
      let msg := world.mesg this
      let source :=
        if clsMsg = this then
          (free world.process.heap msg).2
        else
          world.mesg clsMsg
      let copied :=
        Mesg.copyMsg allocation world.process.heap msg source
      (world.put this (world.withHeap copied.1) copied.2.1,
        { rc := copied.2.2
          accesses := copyAccesses allocation msg source })
  | .copyConstruct this clsMsg allocation =>
      let storage := defaultInit (world.mesg this)
      let cleared := (storage.msgData none 0).msgObjPtr none
      let source :=
        if clsMsg = this then
          cleared
        else
          world.mesg clsMsg
      let copied :=
        Mesg.copyConstruct allocation world.process.heap storage source
      (world.put this (world.withHeap copied.1) copied.2,
        { accesses := copyAccesses allocation cleared source })
  | .assign this clsMsg allocation =>
      if this = clsMsg then
        (world, {})
      else
        let copied :=
          Mesg.assign allocation world.process.heap
            (world.mesg this) (world.mesg clsMsg)
        (world.put this (world.withHeap copied.1) copied.2,
          { accesses :=
              copyAccesses allocation
                (world.mesg this) (world.mesg clsMsg) })
  | .free this =>
      let freed := freeIn world.process (world.mesg this)
      (world.put this freed.1 freed.2,
        { accesses := freeAccesses (world.mesg this) })
  | .send fd this s32Prio accepts =>
      let sent :=
        MsgQueue.send world.process fd (world.mesg this)
          s32Prio accepts
      (world.put this sent.1 sent.2.1,
        sendSeen (world.mesg this) sent.2.2)
  | .sendMsg fd this s32Prio accepts =>
      let sent :=
        MsgQueue.sendMsg world.process fd (world.mesg this)
          s32Prio accepts
      (world.put this sent.1 sent.2.1,
        sendSeen (world.mesg this) sent.2.2)
  | .receive owner this isPolling answers =>
      let received :=
        MsgQueue.receive world.process owner (world.mesg this)
          isPolling answers
      (world.put this received.1 received.2.1,
        { rc := received.2.2 })

end Steps

end WkcRuntime.MesgConstruct
