import WkcRuntime.MesgSource
import WkcRuntime.Custody

namespace WkcRuntime.Mesg

/-!
# The ledger of one heap

A heap without a fault is in order with a count of holders when both its blocks
and its objects are in custody of that count.  Each function on a message is
specified with the holders of everything else as an arbitrary summand `rest`:
`Free` gives up what the message holds, `CopyMsg` exchanges it for fresh
resources.
-/

/-- The payload pointer of a message. -/
def MesgT.dataPtr (this : MesgT) : Option BlockId :=
  this.tpMsgData.1

/-- The object pointer of a message. -/
def MesgT.objPtr (this : MesgT) : Option ObjId :=
  this.pclsMsgObj

/-- No fault so far, and one holder for each live block and object. -/
structure Ledger
    {Obj : Type}
    (heap : Heap Obj)
    (data : BlockId → Nat)
    (objs : ObjId → Nat) :
    Prop where
  noFault :
    heap.fault = false
  block :
    Custody heap.block data
  obj :
    Custody heap.obj objs

/-- The block of a message, while it is live, has all the bytes it announces. -/
def Intact
    {Obj : Type}
    (heap : Heap Obj)
    (this : MesgT) :
    Prop :=
  ∀ pointer bytes,
    this.dataPtr = some pointer →
    heap.block pointer = some bytes →
    this.tpMsgData.2.toNatClampNeg ≤ bytes.length

/-- Every block of the later heap was there before with the same bytes. -/
def Kept
    {Obj : Type}
    (before after : Heap Obj) :
    Prop :=
  ∀ pointer bytes,
    after.block pointer = some bytes →
    before.block pointer = some bytes

/-- What a message points to has not been released. -/
structure Live
    {Obj : Type}
    (heap : Heap Obj)
    (msg : MesgT) :
    Prop where
  block :
    ∀ pointer,
      msg.dataPtr = some pointer →
      (heap.block pointer).isSome = true
  obj :
    ∀ pointer,
      msg.objPtr = some pointer →
      (heap.obj pointer).isSome = true

/-- Two messages share neither a block nor an object. -/
def Unshared (first second : MesgT) : Prop :=
  (∀ pointer,
      second.dataPtr = some pointer →
      first.dataPtr ≠ some pointer) ∧
    ∀ pointer,
      second.objPtr = some pointer →
      first.objPtr ≠ some pointer

section Specifications

variable {Obj : Type}

/-- A message whose pointers are counted points to live resources. -/
theorem Ledger.live
    {heap : Heap Obj}
    {data : BlockId → Nat}
    {objs : ObjId → Nat}
    {msg : MesgT}
    (ledger : Ledger heap data objs)
    (heldData :
      ∀ pointer, msg.dataPtr = some pointer → 0 < data pointer)
    (heldObj :
      ∀ pointer, msg.objPtr = some pointer → 0 < objs pointer) :
    Live heap msg := by
  refine ⟨?_, ?_⟩
  · intro pointer points
    obtain ⟨bytes, stored⟩ :=
      ledger.block.live_of_held pointer (heldData pointer points)
    rw [stored]
    rfl
  · intro pointer points
    obtain ⟨value, stored⟩ :=
      ledger.obj.live_of_held pointer (heldObj pointer points)
    rw [stored]
    rfl

theorem Kept.refl (heap : Heap Obj) : Kept heap heap :=
  fun _ _ stored => stored

/-- Releasing blocks of other messages leaves a message intact. -/
theorem Intact.kept
    {before after : Heap Obj}
    {this : MesgT}
    (intact : Intact before this)
    (kept : Kept before after) :
    Intact after this :=
  fun pointer bytes points stored =>
    intact pointer bytes points (kept pointer bytes stored)

/-- A message without a payload pointer is intact. -/
theorem intact_of_dataPtr_none
    {heap : Heap Obj}
    {this : MesgT}
    (empty : this.dataPtr = none) :
    Intact heap this := by
  intro pointer bytes points
  simp [empty] at points

/-- `free` of the block of one message. -/
theorem Ledger.freeBlock
    {heap : Heap Obj}
    {rest : BlockId → Nat}
    {objs : ObjId → Nat}
    {pointer : BlockId}
    (ledger : Ledger heap (rest + holding (some pointer)) objs) :
    Ledger (heap.freeBlock pointer) rest objs := by
  obtain ⟨bytes, stored⟩ :=
    ledger.block.live_of_held pointer (by simp)
  unfold Heap.freeBlock
  simp only [stored]
  exact ⟨ledger.noFault, ledger.block.release, ledger.obj⟩

/-- `delete` of the object of one message. -/
theorem Ledger.deleteObj
    {heap : Heap Obj}
    {data : BlockId → Nat}
    {rest : ObjId → Nat}
    {pointer : ObjId}
    (ledger : Ledger heap data (rest + holding (some pointer))) :
    Ledger (heap.deleteObj pointer) data rest := by
  obtain ⟨value, stored⟩ :=
    ledger.obj.live_of_held pointer (by simp)
  unfold Heap.deleteObj
  simp only [stored]
  exact ⟨ledger.noFault, ledger.block, ledger.obj.release⟩

theorem kept_freeBlock
    (heap : Heap Obj)
    (pointer : BlockId) :
    Kept heap (heap.freeBlock pointer) := by
  intro other bytes stored
  unfold Heap.freeBlock at stored
  cases live : heap.block pointer with
  | none =>
      simpa [live] using stored
  | some old =>
      simp only [live] at stored
      by_cases same : other = pointer
      · subst other
        simp at stored
      · simpa [same] using stored

@[simp] theorem deleteObj_block
    (heap : Heap Obj)
    (pointer : ObjId) :
    (heap.deleteObj pointer).block = heap.block := by
  unfold Heap.deleteObj
  split <;> rfl

/-- `Free` releases what the message holds and nothing else. -/
theorem Ledger.free
    {heap : Heap Obj}
    {rest : BlockId → Nat}
    {restObjs : ObjId → Nat}
    (this : MesgT)
    (ledger :
      Ledger heap
        (rest + holding this.dataPtr)
        (restObjs + holding this.objPtr)) :
    Ledger (free heap this).1 rest restObjs := by
  have afterData :
      Ledger (freeData heap this).1 rest
        (restObjs + holding (freeData heap this).2.objPtr) := by
    unfold freeData
    cases points : this.tpMsgData.1 with
    | none =>
        simpa [MesgT.dataPtr, points] using ledger
    | some pointer =>
        simp only [MesgT.dataPtr, points] at ledger
        exact ledger.freeBlock
  unfold Mesg.free freeObj
  cases points : (freeData heap this).2.pclsMsgObj with
  | none =>
      simpa [MesgT.objPtr, points] using afterData
  | some pointer =>
      simp only [MesgT.objPtr, points] at afterData
      simpa [points] using afterData.deleteObj

/-- After `Free` the message holds nothing. -/
theorem free_holdsNothing
    (heap : Heap Obj)
    (this : MesgT) :
    (free heap this).2.HoldsNothing := by
  unfold Mesg.free freeObj freeData MesgT.HoldsNothing
  cases data : this.tpMsgData.1 <;>
    cases obj : this.pclsMsgObj <;>
    simp [data, obj, MesgT.msgData, MesgT.msgObjPtr]

/-- `Free` creates no block and changes none. -/
theorem kept_free
    (heap : Heap Obj)
    (this : MesgT) :
    Kept heap (free heap this).1 := by
  have afterData : Kept heap (freeData heap this).1 := by
    unfold freeData
    split
    · exact Kept.refl heap
    · exact kept_freeBlock heap _
  have afterObj :
      (freeObj (freeData heap this).1 (freeData heap this).2).1.block =
        (freeData heap this).1.block := by
    unfold freeObj
    split
    · rfl
    · exact deleteObj_block _ _
  intro pointer bytes stored
  exact afterData pointer bytes (by
    rw [← afterObj]
    exact stored)

/-- The allocator hands out addresses that are not live. -/
structure Allocation.Fresh
    (allocation : Allocation)
    (heap : Heap Obj) :
    Prop where
  block :
    ∀ pointer,
      allocation.block = some pointer →
      heap.block pointer = none
  obj :
    heap.obj allocation.obj = none

instance
    (allocation : Allocation)
    (heap : Heap Obj) :
    Decidable (allocation.Fresh heap) :=
  decidable_of_iff
    ((∀ pointer ∈ allocation.block, heap.block pointer = none) ∧
      heap.obj allocation.obj = none)
    ⟨fun ⟨block, obj⟩ => ⟨block, obj⟩,
      fun fresh => ⟨fresh.block, fresh.obj⟩⟩

/-- Duplicating an intact live block into a fresh one. -/
theorem Ledger.duplicateBlock
    {heap : Heap Obj}
    {rest : BlockId → Nat}
    {objs : ObjId → Nat}
    {target source : BlockId}
    {size : Nat}
    {bytes : List UInt8}
    (ledger : Ledger heap rest objs)
    (fresh : heap.block target = none)
    (stored : heap.block source = some bytes)
    (fits : size ≤ bytes.length) :
    Ledger (heap.duplicateBlock target source size)
      (rest + holding (some target)) objs := by
  unfold Heap.duplicateBlock
  simp only [stored, Nat.not_lt.mpr fits, ↓reduceIte]
  exact ⟨ledger.noFault, ledger.block.acquire fresh _, ledger.obj⟩

/-- Cloning a live object into a fresh one. -/
theorem Ledger.cloneObj
    {heap : Heap Obj}
    {data : BlockId → Nat}
    {rest : ObjId → Nat}
    {target source : ObjId}
    {value : Obj}
    (ledger : Ledger heap data rest)
    (fresh : heap.obj target = none)
    (stored : heap.obj source = some value) :
    Ledger (heap.cloneObj target source)
      data (rest + holding (some target)) := by
  unfold Heap.cloneObj
  simp only [stored]
  exact ⟨ledger.noFault, ledger.block, ledger.obj.acquire fresh _⟩

@[simp] theorem cloneObj_block
    (heap : Heap Obj)
    (target source : ObjId) :
    (heap.cloneObj target source).block = heap.block := by
  unfold Heap.cloneObj
  split <;> rfl

@[simp] theorem duplicateBlock_obj
    (heap : Heap Obj)
    (target source : BlockId)
    (size : Nat) :
    (heap.duplicateBlock target source size).obj = heap.obj := by
  unfold Heap.duplicateBlock
  split
  · rfl
  · split <;> rfl

/-- Copying the payload leaves the objects alone. -/
theorem copyData_obj
    (allocation : Allocation)
    (heap : Heap Obj)
    (this clsMsg : MesgT) :
    (copyData allocation heap this clsMsg).1.obj = heap.obj := by
  unfold Mesg.copyData
  split
  · rfl
  · split
    · split
      · rfl
      · exact duplicateBlock_obj _ _ _ _
    · rfl

/-- Live blocks keep their bytes; new ones appear at fresh addresses only. -/
def Grown
    (before after : Heap Obj) :
    Prop :=
  ∀ pointer bytes,
    before.block pointer = some bytes →
    after.block pointer = some bytes

theorem grown_duplicateBlock
    {heap : Heap Obj}
    {target : BlockId}
    (fresh : heap.block target = none)
    (source : BlockId)
    (size : Nat) :
    Grown heap (heap.duplicateBlock target source size) := by
  intro pointer bytes stored
  have different : pointer ≠ target := by
    intro same
    subst pointer
    simp [fresh] at stored
  unfold Heap.duplicateBlock
  split
  · exact stored
  · split
    · exact stored
    · simpa [different] using stored

/-- A message whose block is live stays intact while the heap grows. -/
theorem Intact.grown
    {before after : Heap Obj}
    {this : MesgT}
    {data : BlockId → Nat}
    (intact : Intact before this)
    (grown : Grown before after)
    (custody : Custody before.block data)
    (held :
      ∀ pointer,
        this.dataPtr = some pointer →
        0 < data pointer) :
    Intact after this := by
  intro pointer bytes points stored
  obtain ⟨old, live⟩ := custody.live_of_held _ (held pointer points)
  have same : old = bytes := by
    simpa [grown pointer old live] using stored
  subst old
  exact intact pointer bytes points live

/--
The payload half of a copy: the target gets a fresh block with all the bytes of
the source, or no block at all.
-/
theorem Ledger.copyData
    {heap : Heap Obj}
    {rest : BlockId → Nat}
    {objs : ObjId → Nat}
    (this : MesgT)
    {clsMsg : MesgT}
    {allocation : Allocation}
    (ledger : Ledger heap rest objs)
    (held :
      ∀ pointer,
        clsMsg.dataPtr = some pointer →
        0 < rest pointer)
    (intact : Intact heap clsMsg)
    (fresh :
      ∀ pointer,
        allocation.block = some pointer →
        heap.block pointer = none) :
    let copied := copyData allocation heap this clsMsg
    Ledger copied.1 (rest + holding copied.2.1.dataPtr) objs ∧
      Intact copied.1 copied.2.1 ∧
      Grown heap copied.1 ∧
      copied.1.obj = heap.obj := by
  have unchanged :
      Ledger heap (rest + holding (this.msgData none 0).dataPtr) objs ∧
        Intact heap (this.msgData none 0) ∧
        Grown heap heap ∧
        heap.obj = heap.obj := by
    refine ⟨?_, intact_of_dataPtr_none rfl,
      fun _ _ stored => stored, rfl⟩
    simpa [MesgT.dataPtr, MesgT.msgData] using ledger
  unfold Mesg.copyData
  cases points : clsMsg.tpMsgData.1 with
  | none =>
      exact unchanged
  | some sigPtr =>
      have pointsHere : clsMsg.dataPtr = some sigPtr := points
      by_cases sized : 0 < clsMsg.tpMsgData.2
      · cases answered : allocation.block with
        | none =>
            simpa only [sized, ↓reduceIte] using unchanged
        | some pointer =>
            obtain ⟨bytes, stored⟩ :=
              ledger.block.live_of_held _ (held sigPtr pointsHere)
            have fits := intact sigPtr bytes pointsHere stored
            have free := fresh pointer answered
            simp only [sized, ↓reduceIte]
            refine ⟨ledger.duplicateBlock free stored fits, ?_,
              grown_duplicateBlock free _ _,
              duplicateBlock_obj heap _ _ _⟩
            intro other otherBytes otherPoints otherStored
            simp only [MesgT.dataPtr, MesgT.msgData,
              Option.some.injEq] at otherPoints
            subst other
            simp only [Heap.duplicateBlock, stored,
              Nat.not_lt.mpr fits, ↓reduceIte,
              Function.update_self, Option.some.injEq] at otherStored
            subst otherBytes
            simp [MesgT.msgData, fits]
      · simpa only [sized, ↓reduceIte] using unchanged

/-- The object half of a copy: the target gets a fresh clone, or no object. -/
theorem Ledger.copyObj
    {heap : Heap Obj}
    {data : BlockId → Nat}
    {rest : ObjId → Nat}
    (this clsMsg : MesgT)
    (allocation : Allocation)
    (ledger : Ledger heap data rest)
    (held :
      ∀ pointer,
        clsMsg.objPtr = some pointer →
        0 < rest pointer)
    (fresh : heap.obj allocation.obj = none) :
    let copied := copyObj allocation heap this clsMsg
    Ledger copied.1 data (rest + holding copied.2.objPtr) ∧
      copied.1.block = heap.block ∧
      copied.2.tpMsgData = this.tpMsgData := by
  unfold Mesg.copyObj
  cases points : clsMsg.pclsMsgObj with
  | none =>
      refine ⟨?_, rfl, rfl⟩
      simpa [MesgT.objPtr, MesgT.msgObjPtr] using ledger
  | some source =>
      obtain ⟨value, stored⟩ :=
        ledger.obj.live_of_held _ (held source points)
      exact ⟨ledger.cloneObj fresh stored,
        cloneObj_block heap _ _, rfl⟩

/--
`CopyMsg` releases what the target held and gives it fresh copies of what the
source holds; every other message stays intact.
-/
theorem Ledger.copyMsg
    {heap : Heap Obj}
    {rest : BlockId → Nat}
    {restObjs : ObjId → Nat}
    (this clsMsg : MesgT)
    (allocation : Allocation)
    (ledger :
      Ledger heap
        (rest + holding this.dataPtr)
        (restObjs + holding this.objPtr))
    (heldData :
      ∀ pointer,
        clsMsg.dataPtr = some pointer →
        0 < rest pointer)
    (heldObj :
      ∀ pointer,
        clsMsg.objPtr = some pointer →
        0 < restObjs pointer)
    (intact : Intact heap clsMsg)
    (fresh : allocation.Fresh (Mesg.free heap this).1) :
    let copied := copyMsg allocation heap this clsMsg
    Ledger copied.1
        (rest + holding copied.2.1.dataPtr)
        (restObjs + holding copied.2.1.objPtr) ∧
      Intact copied.1 copied.2.1 ∧
      ∀ other : MesgT,
        (∀ pointer,
          other.dataPtr = some pointer →
          0 < rest pointer) →
        Intact heap other →
        Intact copied.1 other := by
  have freed := ledger.free this
  have kept := kept_free heap this
  let header : MesgT :=
    { (Mesg.free heap this).2 with
      ulMsgId := clsMsg.ulMsgId
      tpMsgCmd := clsMsg.tpMsgCmd
      ulCbId := clsMsg.ulCbId
      u32SeqCnt := clsMsg.u32SeqCnt }
  obtain ⟨dataLedger, dataIntact, grown, sameObj⟩ :=
    freed.copyData header heldData (intact.kept kept) fresh.block
  let data :=
    Mesg.copyData allocation (Mesg.free heap this).1 header clsMsg
  obtain ⟨objLedger, sameBlock, sameData⟩ :=
    dataLedger.copyObj data.2.1 clsMsg allocation heldObj
      (sameObj ▸ fresh.obj)
  have samePtr :
      (Mesg.copyObj allocation data.1 data.2.1 clsMsg).2.dataPtr =
        data.2.1.dataPtr :=
    congrArg Prod.fst sameData
  refine ⟨?_, ?_, ?_⟩
  · rw [← samePtr] at objLedger
    exact objLedger
  · intro pointer bytes points stored
    have sizes :=
      dataIntact pointer bytes (samePtr.symm.trans points) (by
        rw [← sameBlock]
        exact stored)
    have sameSize :
        (Mesg.copyObj allocation data.1 data.2.1 clsMsg).2.tpMsgData.2 =
          data.2.1.tpMsgData.2 :=
      congrArg Prod.snd sameData
    rw [← sameSize] at sizes
    exact sizes
  · intro other held otherIntact pointer bytes points stored
    exact (otherIntact.kept kept).grown grown freed.block held
      pointer bytes points (by
        rw [← sameBlock]
        exact stored)

end Specifications

end WkcRuntime.Mesg
