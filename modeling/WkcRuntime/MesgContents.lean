import WkcRuntime.MesgAccesses
import WkcRuntime.MesgLedger
import WkcRuntime.MesgValues

namespace WkcRuntime.MesgValues

open Mesg MessageQueue MsgQueue

/-!
# What a message says

The contents of a message are read through its pointers.  Each function on
messages does to the contents of the message in hand what it means, and touches
no block and no object that another message holds.
-/

section Contents

variable {Obj : Type}

/-- The value of a message in a heap. -/
def contentOf (heap : Heap Obj) (msg : MesgT) : Content Obj where
  ulMsgId := msg.ulMsgId
  tpMsgCmd := msg.tpMsgCmd
  bytes :=
    msg.dataPtr.bind fun pointer =>
      (heap.block pointer).map (List.take msg.tpMsgData.2.toNatClampNeg)
  size := msg.tpMsgData.2
  ulCbId := msg.ulCbId
  u32SeqCnt := msg.u32SeqCnt
  object := msg.objPtr.bind heap.obj

/-- The blocks and the objects that somebody holds are as before. -/
structure Untouched
    (held heldObjs : Nat → Nat)
    (before after : Heap Obj) :
    Prop where
  block :
    ∀ pointer,
      0 < held pointer →
      after.block pointer = before.block pointer
  obj :
    ∀ pointer,
      0 < heldObjs pointer →
      after.obj pointer = before.obj pointer

variable {held heldObjs : Nat → Nat}
variable {before middle after : Heap Obj}

theorem Untouched.refl (heap : Heap Obj) : Untouched held heldObjs heap heap :=
  ⟨fun _ _ => rfl, fun _ _ => rfl⟩

theorem Untouched.trans
    (first : Untouched held heldObjs before middle)
    (second : Untouched held heldObjs middle after) :
    Untouched held heldObjs before after :=
  ⟨fun pointer holds =>
      (second.block pointer holds).trans (first.block pointer holds),
    fun pointer holds =>
      (second.obj pointer holds).trans (first.obj pointer holds)⟩

/-- A message that holds what was not touched says what it said. -/
theorem Untouched.contentOf_eq
    (untouched : Untouched held heldObjs before after)
    {msg : MesgT}
    (holdsData :
      ∀ pointer, msg.dataPtr = some pointer → 0 < held pointer)
    (holdsObj :
      ∀ pointer, msg.objPtr = some pointer → 0 < heldObjs pointer) :
    contentOf after msg = contentOf before msg := by
  have sameBytes :
      (contentOf after msg).bytes = (contentOf before msg).bytes := by
    simp only [contentOf]
    cases points : msg.dataPtr with
    | none =>
        rfl
    | some pointer =>
        simp only [Option.bind_some,
          untouched.block pointer (holdsData pointer points)]
  have sameObject :
      (contentOf after msg).object = (contentOf before msg).object := by
    simp only [contentOf]
    cases points : msg.objPtr with
    | none =>
        rfl
    | some pointer =>
        simp only [Option.bind_some,
          untouched.obj pointer (holdsObj pointer points)]
  simp only [contentOf] at sameBytes sameObject ⊢
  rw [sameBytes, sameObject]

section Free

variable {heap : Heap Obj}
variable {this : MesgT}

/-- `Free` touches no block but the one of its message. -/
theorem free_block
    {pointer : BlockId}
    (other : this.dataPtr ≠ some pointer) :
    (free heap this).1.block pointer = heap.block pointer := by
  have afterObj :
      (free heap this).1.block = (freeData heap this).1.block := by
    simp only [Mesg.free, freeObj]
    split
    · rfl
    · exact deleteObj_block _ _
  rw [afterObj, freeData]
  split
  · rfl
  · next own points =>
      have different : pointer ≠ own := by
        rintro rfl
        exact other points
      simp only [Heap.freeBlock]
      split
      · rfl
      · exact Function.update_of_ne different _ _

/-- `Free` touches no object but the one of its message. -/
theorem free_obj
    {pointer : ObjId}
    (other : this.objPtr ≠ some pointer) :
    (free heap this).1.obj pointer = heap.obj pointer := by
  have sameObj : (freeData heap this).2.pclsMsgObj = this.pclsMsgObj := by
    unfold freeData
    split <;> rfl
  have afterData : (freeData heap this).1.obj = heap.obj := by
    unfold freeData Heap.freeBlock
    split
    · rfl
    · split <;> rfl
  simp only [Mesg.free, freeObj, sameObj]
  split
  · rw [afterData]
  · next own points =>
      have different : pointer ≠ own := by
        rintro rfl
        exact other points
      have kept :
          Function.update (freeData heap this).1.obj own none pointer =
            heap.obj pointer := by
        rw [Function.update_of_ne different, afterData]
      simp only [Heap.deleteObj]
      split
      · rw [afterData]
      · exact kept

variable {rest restObjs : Nat → Nat}

/-- `Free` touches nothing that another message holds. -/
theorem untouched_free
    (ledger :
      Ledger heap
        (rest + holding this.dataPtr)
        (restObjs + holding this.objPtr)) :
    Untouched rest restObjs heap (free heap this).1 := by
  refine ⟨?_, ?_⟩
  · intro pointer holds
    apply free_block
    intro points
    have custody := ledger.block
    rw [points] at custody
    exact Nat.ne_of_gt holds custody.rest_eq_zero
  · intro pointer holds
    apply free_obj
    intro points
    have custody := ledger.obj
    rw [points] at custody
    exact Nat.ne_of_gt holds custody.rest_eq_zero

/-- What a message points to is live. -/
theorem live_of_ledger
    (ledger :
      Ledger heap
        (rest + holding this.dataPtr)
        (restObjs + holding this.objPtr)) :
    Live heap this := by
  apply ledger.live
  · intro pointer points
    simp [points]
  · intro pointer points
    simp [points]

/-- `Free` leaves the header. -/
theorem contentOf_free (live : Live heap this) :
    contentOf (free heap this).1 (free heap this).2 =
      (contentOf heap this).released := by
  have isReleased : (free heap this).2 = MesgConstruct.released this := by
    rw [MesgConstruct.free_eq]
  have noBytes : (MesgConstruct.released this).dataPtr = none := by
    rw [← isReleased]
    exact (free_holdsNothing heap this).1
  have noObj : (MesgConstruct.released this).objPtr = none := rfl
  have size :
      (MesgConstruct.released this).tpMsgData.2 =
        if (contentOf heap this).bytes.isSome then 0
        else this.tpMsgData.2 := by
    rw [MesgConstruct.released]
    by_cases isNone : this.tpMsgData.1 = none
    · have noPtr : this.dataPtr = none := isNone
      simp only [contentOf, noPtr, Option.bind_none, Option.isSome_none,
        Bool.false_eq_true, if_false, if_pos isNone]
    · obtain ⟨pointer, points⟩ := Option.ne_none_iff_exists'.mp isNone
      have somePtr : this.dataPtr = some pointer := points
      simp only [contentOf, somePtr, Option.bind_some, Option.isSome_map,
        live.block pointer somePtr, if_true, if_neg isNone]
  rw [isReleased]
  simp only [contentOf] at size
  simp only [contentOf, Content.released, noBytes, noObj, Option.bind_none,
    size]
  rfl

end Free

section Copy

variable {heap : Heap Obj}
variable {this clsMsg : MesgT}
variable {allocation : Allocation}
variable {rest restObjs : Nat → Nat}

/-- A heap that grows at an address that is not live touches nothing held. -/
theorem untouched_of_grown
    {objs : ObjId → Nat}
    (ledger : Ledger before rest objs)
    (grown : Grown before after)
    (sameObj :
      ∀ pointer, 0 < restObjs pointer → after.obj pointer = before.obj pointer) :
    Untouched rest restObjs before after := by
  refine ⟨?_, sameObj⟩
  intro pointer holds
  obtain ⟨bytes, stored⟩ := ledger.block.live_of_held pointer holds
  rw [grown pointer bytes stored, stored]

/-- Cloning into a fresh object touches no other object. -/
theorem cloneObj_obj_of_held
    {data : BlockId → Nat}
    (ledger : Ledger heap data restObjs)
    (fresh : heap.obj allocation.obj = none)
    (msg : MesgT)
    {pointer : ObjId}
    (holds : 0 < restObjs pointer) :
    (copyObj allocation heap msg clsMsg).1.obj pointer =
      heap.obj pointer := by
  have different := ledger.obj.ne_of_held holds fresh
  unfold copyObj
  split
  · rfl
  · simp only [Heap.cloneObj]
    split
    · rfl
    · exact Function.update_of_ne different _ _

/-- `CopyMsg` touches nothing that another message holds. -/
theorem untouched_copyMsg
    (ledger :
      Ledger heap
        (rest + holding this.dataPtr)
        (restObjs + holding this.objPtr))
    (heldData :
      ∀ pointer, clsMsg.dataPtr = some pointer → 0 < rest pointer)
    (intact : Intact heap clsMsg)
    (fresh : allocation.Fresh (free heap this).1) :
    Untouched rest restObjs heap
      (copyMsg allocation heap this clsMsg).1 := by
  have freed := ledger.free this
  have kept := kept_free heap this
  let header : MesgT :=
    { (free heap this).2 with
      ulMsgId := clsMsg.ulMsgId
      tpMsgCmd := clsMsg.tpMsgCmd
      ulCbId := clsMsg.ulCbId
      u32SeqCnt := clsMsg.u32SeqCnt }
  obtain ⟨dataLedger, _, grown, sameObj⟩ :=
    freed.copyData header heldData (intact.kept kept) fresh.block
  have freshObj :
      (copyData allocation (free heap this).1 header clsMsg).1.obj
          allocation.obj =
        none := by
    rw [sameObj]
    exact fresh.obj
  have copied :
      Untouched rest restObjs (free heap this).1
        (copyMsg allocation heap this clsMsg).1 := by
    refine untouched_of_grown freed ?_ ?_
    · intro pointer bytes stored
      have data := grown pointer bytes stored
      rw [← data]
      simp only [copyMsg, copyObj]
      split
      · rfl
      · rw [cloneObj_block]
    · intro pointer holds
      rw [← sameObj]
      exact cloneObj_obj_of_held dataLedger freshObj _ holds
  exact (untouched_free ledger).trans copied

/-- The payload of a copy, where there is memory for it. -/
theorem bytes_copyData
    {msg : MesgT}
    (live : Live heap clsMsg)
    (intact : Intact heap clsMsg) :
    let copied := copyData allocation heap msg clsMsg
    let content := (contentOf heap clsMsg).copy allocation.block.isSome
    (contentOf copied.1 copied.2.1).bytes = content.bytes ∧
      copied.2.1.tpMsgData.2 = content.size := by
  have missing :
      ∀ content : Content Obj,
        ¬ (content.bytes.isSome = true ∧ 0 < content.size ∧
          allocation.block.isSome = true) →
        (content.copy allocation.block.isSome).bytes = none ∧
          (content.copy allocation.block.isSome).size = 0 := by
    intro content refused
    rw [Content.copy, if_neg refused]
    exact ⟨rfl, rfl⟩
  simp only [copyData]
  cases points : clsMsg.tpMsgData.1 with
  | none =>
      have noPtr : clsMsg.dataPtr = none := points
      obtain ⟨noBytes, noSize⟩ :=
        missing (contentOf heap clsMsg) (by simp [contentOf, noPtr])
      exact ⟨noBytes.symm, noSize.symm⟩
  | some sigPtr =>
      have somePtr : clsMsg.dataPtr = some sigPtr := points
      obtain ⟨bytes, stored⟩ :=
        Option.isSome_iff_exists.mp (live.block sigPtr somePtr)
      have fits := intact sigPtr bytes somePtr stored
      by_cases sized : 0 < clsMsg.tpMsgData.2
      · cases answered : allocation.block with
        | none =>
            rw [answered] at missing
            obtain ⟨noBytes, noSize⟩ :=
              missing (contentOf heap clsMsg) (by simp)
            simp only [sized, if_true]
            exact ⟨noBytes.symm, noSize.symm⟩
        | some pointer =>
            have full :
                (contentOf heap clsMsg).copy true = contentOf heap clsMsg := by
              rw [Content.copy, if_pos]
              refine ⟨?_, sized, rfl⟩
              simp only [contentOf, somePtr, Option.bind_some, stored,
                Option.map_some, Option.isSome_some]
            simp only [sized, if_true, Option.isSome_some, full]
            refine ⟨?_, rfl⟩
            simp only [contentOf, MesgT.dataPtr, MesgT.msgData,
              Option.bind_some, Heap.duplicateBlock, stored,
              Nat.not_lt.mpr fits, if_false, Function.update_self,
              Option.map_some, List.take_take, Nat.min_self, points]
      · obtain ⟨noBytes, noSize⟩ :=
          missing (contentOf heap clsMsg) (by simp [contentOf, sized])
        simp only [sized, if_false]
        exact ⟨noBytes.symm, noSize.symm⟩

/-- The object of a copy is a clone. -/
theorem object_copyObj
    {msg : MesgT}
    (live :
      ∀ pointer,
        clsMsg.objPtr = some pointer →
        (heap.obj pointer).isSome = true) :
    (contentOf (copyObj allocation heap msg clsMsg).1
        (copyObj allocation heap msg clsMsg).2).object =
      (contentOf heap clsMsg).object := by
  simp only [copyObj, contentOf]
  cases points : clsMsg.pclsMsgObj with
  | none =>
      have noPtr : clsMsg.objPtr = none := points
      rw [noPtr]
      rfl
  | some source =>
      obtain ⟨value, stored⟩ :=
        Option.isSome_iff_exists.mp (live source points)
      simp only [points, Option.bind_some, stored, Heap.cloneObj,
        MesgT.objPtr, MesgT.msgObjPtr, Function.update_self]

/-- `CopyMsg` makes a message that says what its source says. -/
theorem contentOf_copyMsg
    (ledger :
      Ledger heap
        (rest + holding this.dataPtr)
        (restObjs + holding this.objPtr))
    (heldData :
      ∀ pointer, clsMsg.dataPtr = some pointer → 0 < rest pointer)
    (heldObj :
      ∀ pointer, clsMsg.objPtr = some pointer → 0 < restObjs pointer)
    (intact : Intact heap clsMsg) :
    contentOf (copyMsg allocation heap this clsMsg).1
        (copyMsg allocation heap this clsMsg).2.1 =
      (contentOf heap clsMsg).copy allocation.block.isSome := by
  have freed := ledger.free this
  have same := (untouched_free ledger).contentOf_eq heldData heldObj
  have live := freed.live heldData heldObj
  let header : MesgT :=
    { (free heap this).2 with
      ulMsgId := clsMsg.ulMsgId
      tpMsgCmd := clsMsg.tpMsgCmd
      ulCbId := clsMsg.ulCbId
      u32SeqCnt := clsMsg.u32SeqCnt }
  let data := copyData allocation (free heap this).1 header clsMsg
  let copied := copyObj allocation data.1 data.2.1 clsMsg
  have kept := intact.kept (kept_free heap this)
  obtain ⟨bytes, size⟩ :=
    @bytes_copyData Obj (free heap this).1 clsMsg allocation header live kept
  have sameObj : data.1.obj = (free heap this).1.obj := copyData_obj ..
  have object :
      (contentOf copied.1 copied.2).object =
        (contentOf (free heap this).1 clsMsg).object := by
    have stillLive : ∀ pointer,
        clsMsg.objPtr = some pointer → (data.1.obj pointer).isSome := by
      rw [sameObj]
      exact live.obj
    rw [object_copyObj stillLive]
    simp only [contentOf, sameObj]
  have sameBlock : copied.1.block = data.1.block := by
    simp only [copied, copyObj]
    split
    · rfl
    · exact cloneObj_block ..
  have sameData : copied.2.tpMsgData = data.2.1.tpMsgData := by
    simp only [copied, copyObj]
    split <;> rfl
  have header : copied.2 = MesgConstruct.copied allocation clsMsg :=
    congrArg (fun outcome => outcome.2.1)
      (MesgConstruct.copyMsg_eq allocation heap this clsMsg)
  rw [← same, Content.copy_eq, ← bytes, ← size]
  change contentOf copied.1 copied.2 = _
  apply Content.ext
  case bytes =>
    change
      (copied.2.tpMsgData.1.bind fun pointer =>
          (copied.1.block pointer).map
            (List.take copied.2.tpMsgData.2.toNatClampNeg)) =
        data.2.1.tpMsgData.1.bind fun pointer =>
          (data.1.block pointer).map
            (List.take data.2.1.tpMsgData.2.toNatClampNeg)
    rw [sameBlock, sameData]
  case size =>
    exact congrArg Prod.snd sameData
  case object =>
    exact object
  all_goals
    simp only [contentOf, header]
    rfl

end Copy

end Contents

end WkcRuntime.MesgValues
