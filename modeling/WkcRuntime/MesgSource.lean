import Mathlib.Logic.Function.Basic

namespace WkcRuntime.Mesg

/-!
# Messages and the heap behind them

A `Mesg` of `basic/Mesg.cpp` is a plain `MESG_T` record: two of its fields are
raw pointers, to a payload block from `malloc` and to a `MsgObj`.  The heap
records which blocks and objects are live and what they contain.  Releasing or
reading one that is not live, and reading past the end of a block, raises
`fault` and changes nothing else, so that the absence of such errors is a
statement about states.

The answers of the allocator are arguments: the block that `malloc` returns (or
none) and the object that the virtual `Clone` creates.
-/

/-- The address of a payload block. -/
abbrev BlockId := Nat

/-- The address of a `MsgObj`. -/
abbrev ObjId := Nat

/-- The code of a payload that could not be allocated. -/
def errMsgCopyMsgAllocFailed : Int32 :=
  -1302

/-- `MESG_T`; the two command unions are their eight raw bytes. -/
structure MesgT where
  ulMsgId : UInt64
  tpMsgCmd : UInt64 × UInt64
  tpMsgData : Option BlockId × Int32
  ulCbId : UInt64
  u32SeqCnt : UInt32
  pclsMsgObj : Option ObjId
  deriving DecidableEq, Repr

/-- Live payload blocks with their bytes, live objects with their values. -/
structure Heap (Obj : Type) where
  block : BlockId → Option (List UInt8)
  obj : ObjId → Option Obj
  fault : Bool

namespace Heap

variable {Obj : Type}

/-- Nothing is allocated. -/
def empty : Heap Obj where
  block := fun _ => none
  obj := fun _ => none
  fault := false

/-- `free` of a payload block. -/
def freeBlock (pointer : BlockId) (heap : Heap Obj) : Heap Obj :=
  match heap.block pointer with
  | none =>
      { heap with fault := true }
  | some _ =>
      { heap with block := Function.update heap.block pointer none }

/-- `delete` of a `MsgObj`. -/
def deleteObj (pointer : ObjId) (heap : Heap Obj) : Heap Obj :=
  match heap.obj pointer with
  | none =>
      { heap with fault := true }
  | some _ =>
      { heap with obj := Function.update heap.obj pointer none }

/-- `malloc` of a block at an address and `memcpy` of `size` bytes into it. -/
def duplicateBlock
    (target source : BlockId)
    (size : Nat)
    (heap : Heap Obj) :
    Heap Obj :=
  match heap.block source with
  | none =>
      { heap with fault := true }
  | some bytes =>
      if bytes.length < size then
        { heap with fault := true }
      else
        { heap with
          block :=
            Function.update heap.block target
              (some (bytes.take size)) }

/-- `Clone` of a `MsgObj` into a new object at an address. -/
def cloneObj
    (target source : ObjId)
    (heap : Heap Obj) :
    Heap Obj :=
  match heap.obj source with
  | none =>
      { heap with fault := true }
  | some value =>
      { heap with
        obj := Function.update heap.obj target (some value) }

end Heap

/-- What the allocator answers during one copy. -/
structure Allocation where
  block : Option BlockId
  obj : ObjId
  deriving DecidableEq, Repr

/-- `Mesg::Mesg()`: all bytes zero. -/
def mesg : MesgT where
  ulMsgId := 0
  tpMsgCmd := (0, 0)
  tpMsgData := (none, 0)
  ulCbId := 0
  u32SeqCnt := 0
  pclsMsgObj := none

namespace MesgT

/-- `Mesg::MsgData(ptr, size)`. -/
def msgData
    (this : MesgT)
    (pointer : Option BlockId)
    (size : Int32) :
    MesgT :=
  { this with tpMsgData := (pointer, size) }

/-- `Mesg::MsgObjPtr(pclsMsgObj)`. -/
def msgObjPtr
    (this : MesgT)
    (pclsMsgObj : Option ObjId) :
    MesgT :=
  { this with pclsMsgObj }

/-- `Mesg::MsgId(ulMsgId)`. -/
def msgId (this : MesgT) (ulMsgId : UInt64) : MesgT :=
  { this with ulMsgId }

/-- `Mesg::MsgReqLong(slData)`; `slData` fills its whole union. -/
def msgReqLong (this : MesgT) (slData : UInt64) : MesgT :=
  { this with tpMsgCmd := (slData, this.tpMsgCmd.2) }

/-- `Mesg::SeqCnt(u32SeqCnt)`. -/
def seqCnt (this : MesgT) (u32SeqCnt : UInt32) : MesgT :=
  { this with u32SeqCnt }

/-- `Mesg::CbId(ulCbId)`. -/
def cbId (this : MesgT) (ulCbId : UInt64) : MesgT :=
  { this with ulCbId }

/-- The message owns neither a payload block nor an object. -/
def HoldsNothing (this : MesgT) : Prop :=
  this.tpMsgData.1 = none ∧ this.pclsMsgObj = none

instance (this : MesgT) : Decidable this.HoldsNothing :=
  inferInstanceAs (Decidable (_ ∧ _))

end MesgT

section Functions

variable {Obj : Type}

/-- The payload half of `Mesg::Free`. -/
def freeData
    (heap : Heap Obj)
    (this : MesgT) :
    Heap Obj × MesgT :=
  match this.tpMsgData.1 with
  | none =>
      (heap, this)
  | some pointer =>
      (heap.freeBlock pointer, this.msgData none 0)

/-- The object half of `Mesg::Free`. -/
def freeObj
    (heap : Heap Obj)
    (this : MesgT) :
    Heap Obj × MesgT :=
  match this.pclsMsgObj with
  | none =>
      (heap, this)
  | some pointer =>
      (heap.deleteObj pointer, this.msgObjPtr none)

/-- `Mesg::Free`. -/
def free
    (heap : Heap Obj)
    (this : MesgT) :
    Heap Obj × MesgT :=
  let released := freeData heap this
  freeObj released.1 released.2

/-- The payload half of `Mesg::CopyMsg`, after `Free`. -/
def copyData
    (allocation : Allocation)
    (heap : Heap Obj)
    (this clsMsg : MesgT) :
    Heap Obj × MesgT × Int32 :=
  match clsMsg.tpMsgData.1 with
  | none =>
      (heap, this.msgData none 0, 0)
  | some sigPtr =>
      if 0 < clsMsg.tpMsgData.2 then
        match allocation.block with
        | none =>
            (heap, this.msgData none 0, errMsgCopyMsgAllocFailed)
        | some pointer =>
            (heap.duplicateBlock pointer sigPtr
                clsMsg.tpMsgData.2.toNatClampNeg,
              this.msgData (some pointer) clsMsg.tpMsgData.2, 0)
      else
        (heap, this.msgData none 0, 0)

/-- The object half of `Mesg::CopyMsg`. -/
def copyObj
    (allocation : Allocation)
    (heap : Heap Obj)
    (this clsMsg : MesgT) :
    Heap Obj × MesgT :=
  match clsMsg.pclsMsgObj with
  | none =>
      (heap, this.msgObjPtr none)
  | some source =>
      (heap.cloneObj allocation.obj source,
        this.msgObjPtr (some allocation.obj))

/-- `Mesg::CopyMsg` from another message. -/
def copyMsg
    (allocation : Allocation)
    (heap : Heap Obj)
    (this clsMsg : MesgT) :
    Heap Obj × MesgT × Int32 :=
  let freed := free heap this
  let header :=
    { freed.2 with
      ulMsgId := clsMsg.ulMsgId
      tpMsgCmd := clsMsg.tpMsgCmd
      ulCbId := clsMsg.ulCbId
      u32SeqCnt := clsMsg.u32SeqCnt }
  let data := copyData allocation freed.1 header clsMsg
  let copied := copyObj allocation data.1 data.2.1 clsMsg
  (copied.1, copied.2, data.2.2)

/--
`Mesg::Mesg(const Mesg&)` on storage with any previous content: the pointer
fields are cleared before `CopyMsg` releases what they name.
-/
def copyConstruct
    (allocation : Allocation)
    (heap : Heap Obj)
    (storage clsMsg : MesgT) :
    Heap Obj × MesgT :=
  let copied :=
    copyMsg allocation heap
      ((storage.msgData none 0).msgObjPtr none) clsMsg
  (copied.1, copied.2.1)

/-- `Mesg::operator=` from another message; the code of `CopyMsg` is dropped. -/
def assign
    (allocation : Allocation)
    (heap : Heap Obj)
    (this clsMsg : MesgT) :
    Heap Obj × MesgT :=
  let copied := copyMsg allocation heap this clsMsg
  (copied.1, copied.2.1)

end Functions

end WkcRuntime.Mesg
