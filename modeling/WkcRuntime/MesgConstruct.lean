import WkcRuntime.MesgAccesses
import WkcRuntime.MsgQueueTable
import WkcRuntime.TwoRuns

namespace WkcRuntime.MesgConstruct

open Mesg MessageQueue MsgQueue

/-!
# What a constructed message remembers

`Mesg(ulMsgId)` leaves three members as the storage had them.  A mark says for
each of them whether it still is a leftover that differs from what `Mesg()` and
`MsgId(ulMsgId)` would have made; copies, queues and receives carry marks along
with the messages.  One of the two constructions can be told from the other as
soon as a call uses a marked member, and not before.
-/

/-- The members of a message that are leftovers. -/
structure Mark where
  cbId : Bool
  seqCnt : Bool
  obj : Bool
  deriving DecidableEq, Repr

namespace Mark

/-- Nothing is a leftover. -/
def clean : Mark where
  cbId := false
  seqCnt := false
  obj := false

/-- What the storage leaves behind. -/
def leftover (storage : MesgT) : Mark where
  cbId := storage.ulCbId != 0
  seqCnt := storage.u32SeqCnt != 0
  obj := storage.pclsMsgObj.isSome

/-- The object pointer was written or released. -/
def withoutObj (mark : Mark) : Mark :=
  { mark with obj := false }

end Mark

/-- A setter replaces a leftover. -/
def Setter.clear (mark : Mark) : Setter → Mark
  | .cbId _ => { mark with cbId := false }
  | .seqCnt _ => { mark with seqCnt := false }
  | .msgObjPtr _ => mark.withoutObj
  | _ => mark

/-- A getter reads a leftover. -/
def Getter.Reads (mark : Mark) : Getter → Prop
  | .cbId => mark.cbId = true
  | .seqCnt => mark.seqCnt = true
  | .msgObjPtr => mark.obj = true
  | .mMsg => mark ≠ .clean
  | _ => False

instance (mark : Mark) : ∀ getter, Decidable (Getter.Reads mark getter)
  | .cbId => inferInstanceAs (Decidable (mark.cbId = true))
  | .seqCnt => inferInstanceAs (Decidable (mark.seqCnt = true))
  | .msgObjPtr => inferInstanceAs (Decidable (mark.obj = true))
  | .mMsg => inferInstanceAs (Decidable (mark ≠ .clean))
  | .msgId => isFalse id
  | .msgReqLong => isFalse id
  | .msgDataPtr => isFalse id
  | .msgDataSize => isFalse id
  | .msgData => isFalse id

/-- The marks of all messages, those in the queues included. -/
structure Marks (Name Object Queue : Type) where
  ofMesg : Name → Mark
  kernel : Kernel Queue Mark
  fd : Object → Int32

section Marks

variable {Name Object Queue : Type}
variable [DecidableEq Name] [DecidableEq Queue]

namespace Marks

omit [DecidableEq Queue] in
/-- Replace the mark of one message. -/
def put
    (marks : Marks Name Object Queue)
    (this : Name)
    (mark : Mark) :
    Marks Name Object Queue :=
  { marks with ofMesg := Function.update marks.ofMesg this mark }

/-- A message that is sent takes its mark along and gives its object away. -/
def sendStep
    (marks : Marks Name Object Queue)
    (fd : Int32)
    (this : Name)
    (s32Prio : UInt32)
    (accepts : Bool) :
    Marks Name Object Queue :=
  let mark := marks.ofMesg this
  let sent := marks.put this mark.withoutObj
  if fd ≤ 0 then
    sent
  else
    match marks.kernel.mqSend fd mark s32Prio accepts with
    | none => sent
    | some kernel => { sent with kernel }

/-- A `Send` that fails deletes the object. -/
def SendUses
    (marks : Marks Name Object Queue)
    (fd : Int32)
    (this : Name)
    (s32Prio : UInt32)
    (accepts : Bool) :
    Prop :=
  (marks.ofMesg this).obj = true ∧
    Refused marks.kernel fd (marks.ofMesg this) s32Prio accepts

instance
    (marks : Marks Name Object Queue)
    (fd : Int32)
    (this : Name)
    (s32Prio : UInt32)
    (accepts : Bool) :
    Decidable (marks.SendUses fd this s32Prio accepts) :=
  inferInstanceAs (Decidable (_ ∧ _))

/-- The marks after a call. -/
def step
    (marks : Marks Name Object Queue) :
    Use Name Object → Marks Name Object Queue
  | .get _ _ =>
      marks
  | .set this setter =>
      marks.put this (setter.clear (marks.ofMesg this))
  | .copyMsg this clsMsg _ =>
      marks.put this (marks.ofMesg clsMsg).withoutObj
  | .copyConstruct this clsMsg _ =>
      marks.put this (marks.ofMesg clsMsg).withoutObj
  | .assign this clsMsg _ =>
      if this = clsMsg then
        marks
      else
        marks.put this (marks.ofMesg clsMsg).withoutObj
  | .free this =>
      marks.put this (marks.ofMesg this).withoutObj
  | .send fd this s32Prio accepts =>
      marks.sendStep fd this s32Prio accepts
  | .sendMsg fd this s32Prio accepts =>
      marks.sendStep fd this s32Prio accepts
  | .receive owner this isPolling answers =>
      match gate (marks.fd owner) isPolling answers with
      | some _ =>
          marks
      | none =>
          match marks.kernel.mqReceive (marks.fd owner)
              answers.receive with
          | none =>
              marks
          | some (mark, kernel) =>
              { marks.put this mark with kernel }

/-- A call uses a leftover. -/
def Uses
    (marks : Marks Name Object Queue) :
    Use Name Object → Prop
  | .get this getter =>
      getter.Reads (marks.ofMesg this)
  | .set _ _ =>
      False
  | .copyMsg this clsMsg _ =>
      (marks.ofMesg this).obj = true ∨ (marks.ofMesg clsMsg).obj = true
  | .copyConstruct this clsMsg _ =>
      clsMsg ≠ this ∧ (marks.ofMesg clsMsg).obj = true
  | .assign this clsMsg _ =>
      this ≠ clsMsg ∧
        ((marks.ofMesg this).obj = true ∨
          (marks.ofMesg clsMsg).obj = true)
  | .free this =>
      (marks.ofMesg this).obj = true
  | .send fd this s32Prio accepts =>
      marks.SendUses fd this s32Prio accepts
  | .sendMsg fd this s32Prio accepts =>
      marks.SendUses fd this s32Prio accepts
  | .receive _ _ _ _ =>
      False

instance
    (marks : Marks Name Object Queue) :
    ∀ use, Decidable (marks.Uses use)
  | .get this getter =>
      inferInstanceAs (Decidable (getter.Reads (marks.ofMesg this)))
  | .set _ _ => isFalse id
  | .copyMsg _ _ _ => inferInstanceAs (Decidable (_ ∨ _))
  | .copyConstruct _ _ _ => inferInstanceAs (Decidable (_ ∧ _))
  | .assign _ _ _ => inferInstanceAs (Decidable (_ ∧ (_ ∨ _)))
  | .free this =>
      inferInstanceAs (Decidable ((marks.ofMesg this).obj = true))
  | .send fd this s32Prio accepts =>
      inferInstanceAs
        (Decidable (marks.SendUses fd this s32Prio accepts))
  | .sendMsg fd this s32Prio accepts =>
      inferInstanceAs
        (Decidable (marks.SendUses fd this s32Prio accepts))
  | .receive _ _ _ _ => isFalse id

end Marks

end Marks

/-- Two messages differ in the marked members and in no other ones. -/
structure Agrees (mark : Mark) (stale fresh : MesgT) : Prop where
  ulMsgId :
    stale.ulMsgId = fresh.ulMsgId
  tpMsgCmd :
    stale.tpMsgCmd = fresh.tpMsgCmd
  tpMsgData :
    stale.tpMsgData = fresh.tpMsgData
  cbId :
    mark.cbId = true ↔ stale.ulCbId ≠ fresh.ulCbId
  seqCnt :
    mark.seqCnt = true ↔ stale.u32SeqCnt ≠ fresh.u32SeqCnt
  obj :
    mark.obj = false →
    stale.pclsMsgObj = fresh.pclsMsgObj
  leftover :
    mark.obj = true →
    stale.pclsMsgObj ≠ none ∧ fresh.pclsMsgObj = none

/-- A message in both runs, with its mark. -/
structure Twin where
  mark : Mark
  stale : MesgT
  fresh : MesgT
  agrees : Agrees mark stale fresh

/-- The run on old storage, and the run with everything cleared. -/
inductive Side where
  | stale
  | fresh

namespace Twin

/-- The message as one run has it. -/
def view (side : Side) (twin : Twin) : MesgT :=
  match side with
  | .stale => twin.stale
  | .fresh => twin.fresh

/-- A message that is the same in both runs. -/
def same (msg : MesgT) : Twin where
  mark := .clean
  stale := msg
  fresh := msg
  agrees := by constructor <;> simp [Mark.clean]

/-- `Mesg(ulMsgId)` and `Mesg()` with `MsgId(ulMsgId)`. -/
def constructed (storage : MesgT) (ulMsgId : UInt64) : Twin where
  mark := .leftover storage
  stale := mesgOfId storage ulMsgId
  fresh := mesg.msgId ulMsgId
  agrees := by
    constructor <;>
      simp [Mark.leftover, mesgOfId, defaultInit, mesg, MesgT.msgId,
        Option.isSome_iff_ne_none]

/-- The message after a setter. -/
def write (setter : Setter) (twin : Twin) : Twin where
  mark := setter.clear twin.mark
  stale := setter.write twin.stale
  fresh := setter.write twin.fresh
  agrees := by
    obtain ⟨id, cmd, data, cbId, seqCnt, obj, leftover⟩ := twin.agrees
    cases setter <;> constructor <;>
      simp_all [Setter.clear, Setter.write, MesgT.msgId,
        MesgT.msgReqLong, MesgT.msgData, MesgT.cbId, MesgT.seqCnt,
        MesgT.msgObjPtr, Mark.withoutObj]

/-- The message after `Free`. -/
def released (twin : Twin) : Twin where
  mark := twin.mark.withoutObj
  stale := MesgConstruct.released twin.stale
  fresh := MesgConstruct.released twin.fresh
  agrees := by
    obtain ⟨id, cmd, data, cbId, seqCnt, _, _⟩ := twin.agrees
    constructor <;>
      simp_all [MesgConstruct.released, Mark.withoutObj]

/-- The message after a `Send` that succeeded. -/
def sent (twin : Twin) : Twin :=
  (twin.write (.msgData none 0)).write (.msgObjPtr none)

/-- The storage of a copy that is about to be constructed. -/
def cleared (twin : Twin) : Twin where
  mark := twin.mark.withoutObj
  stale := ((defaultInit twin.stale).msgData none 0).msgObjPtr none
  fresh := ((defaultInit twin.fresh).msgData none 0).msgObjPtr none
  agrees := by
    obtain ⟨id, cmd, data, cbId, seqCnt, _, _⟩ := twin.agrees
    constructor <;>
      simp_all [defaultInit, MesgT.msgData, MesgT.msgObjPtr,
        Mark.withoutObj]

/-- A copy of a message whose object pointer is no leftover. -/
def copied
    (allocation : Allocation)
    (twin : Twin)
    (unmarked : twin.mark.obj = false) :
    Twin where
  mark := twin.mark.withoutObj
  stale := MesgConstruct.copied allocation twin.stale
  fresh := MesgConstruct.copied allocation twin.fresh
  agrees := by
    obtain ⟨id, cmd, data, cbId, seqCnt, obj, _⟩ := twin.agrees
    have sameObj := obj unmarked
    constructor <;>
      simp_all [MesgConstruct.copied, copiedData, Mark.withoutObj]

/-- A message whose object pointer is no leftover has the same one twice. -/
theorem view_obj
    {twin : Twin}
    (unmarked : twin.mark.obj = false)
    (side : Side) :
    (twin.view side).pclsMsgObj = twin.fresh.pclsMsgObj := by
  cases side with
  | stale => exact twin.agrees.obj unmarked
  | fresh => rfl

/-- A message has the same payload twice. -/
theorem view_data
    (twin : Twin)
    (side : Side) :
    (twin.view side).tpMsgData = twin.fresh.tpMsgData := by
  cases side with
  | stale => exact twin.agrees.tpMsgData
  | fresh => rfl

/-- A message has the same id twice. -/
theorem view_msgId
    (twin : Twin)
    (side : Side) :
    (twin.view side).ulMsgId = twin.fresh.ulMsgId := by
  cases side with
  | stale => exact twin.agrees.ulMsgId
  | fresh => rfl

/-- `Free` of an unmarked message does the same twice. -/
theorem view_freeAccesses
    {twin : Twin}
    (unmarked : twin.mark.obj = false)
    (side : Side) :
    freeAccesses (twin.view side) = freeAccesses twin.fresh := by
  unfold freeAccesses
  rw [view_obj unmarked, view_data]

/-- `CopyMsg` of unmarked messages does the same twice. -/
theorem view_copyAccesses
    {twin source : Twin}
    (allocation : Allocation)
    (unmarked : twin.mark.obj = false)
    (sourceUnmarked : source.mark.obj = false)
    (side : Side) :
    copyAccesses allocation (twin.view side) (source.view side) =
      copyAccesses allocation twin.fresh source.fresh := by
  unfold copyAccesses copyDataAccesses
  rw [view_freeAccesses unmarked, view_obj sourceUnmarked, view_data]

/-- `CopyMsg` returns the same code twice. -/
theorem view_copyRc
    (allocation : Allocation)
    (source : Twin)
    (side : Side) :
    copyRc allocation (source.view side) =
      copyRc allocation source.fresh := by
  unfold copyRc
  rw [view_data]

/-- A message is the same twice if and only if nothing of it is a leftover. -/
theorem stale_eq_fresh_iff (twin : Twin) :
    twin.stale = twin.fresh ↔ twin.mark = .clean := by
  obtain ⟨id, cmd, data, cbId, seqCnt, obj, leftover⟩ := twin.agrees
  constructor
  · intro equal
    have noCbId : twin.mark.cbId = false := by
      simpa [equal] using cbId
    have noSeqCnt : twin.mark.seqCnt = false := by
      simpa [equal] using seqCnt
    have noObj : twin.mark.obj = false := by
      apply Bool.eq_false_iff.mpr
      intro marked
      obtain ⟨held, nothing⟩ := leftover marked
      exact held (equal ▸ nothing)
    calc
      twin.mark =
          ⟨twin.mark.cbId, twin.mark.seqCnt, twin.mark.obj⟩ := rfl
      _ = .clean := by rw [noCbId, noSeqCnt, noObj]; rfl
  · intro clean
    have sameCbId : twin.stale.ulCbId = twin.fresh.ulCbId := by
      simpa [clean, Mark.clean] using cbId
    have sameSeqCnt : twin.stale.u32SeqCnt = twin.fresh.u32SeqCnt := by
      simpa [clean, Mark.clean] using seqCnt
    have sameObj := obj (by rw [clean]; rfl)
    calc
      twin.stale =
          ⟨twin.stale.ulMsgId, twin.stale.tpMsgCmd,
            twin.stale.tpMsgData, twin.stale.ulCbId,
            twin.stale.u32SeqCnt, twin.stale.pclsMsgObj⟩ := rfl
      _ = twin.fresh := by
          rw [id, cmd, data, sameCbId, sameSeqCnt, sameObj]

/-- A getter returns the same twice if and only if it reads no leftover. -/
theorem read_eq_iff
    (twin : Twin)
    (getter : Getter) :
    getter.read twin.stale = getter.read twin.fresh ↔
      ¬ getter.Reads twin.mark := by
  have agrees := twin.agrees
  cases getter with
  | msgId => simp [Getter.read, Getter.Reads, agrees.ulMsgId]
  | msgReqLong => simp [Getter.read, Getter.Reads, agrees.tpMsgCmd]
  | msgDataPtr => simp [Getter.read, Getter.Reads, agrees.tpMsgData]
  | msgDataSize => simp [Getter.read, Getter.Reads, agrees.tpMsgData]
  | msgData => simp [Getter.read, Getter.Reads, agrees.tpMsgData]
  | cbId => simp [Getter.read, Getter.Reads, agrees.cbId]
  | seqCnt => simp [Getter.read, Getter.Reads, agrees.seqCnt]
  | msgObjPtr =>
      simp only [Getter.read, Getter.Reads, Value.obj.injEq]
      cases marked : twin.mark.obj with
      | false =>
          simp [agrees.obj marked]
      | true =>
          obtain ⟨held, nothing⟩ := agrees.leftover marked
          simp [nothing, held]
  | mMsg =>
      simp [Getter.read, Getter.Reads, stale_eq_fresh_iff]

/-- A getter that reads no leftover returns the same twice. -/
theorem view_read
    {twin : Twin}
    {getter : Getter}
    (unread : ¬ getter.Reads twin.mark)
    (side : Side) :
    getter.read (twin.view side) = getter.read twin.fresh := by
  cases side with
  | stale => exact (twin.read_eq_iff getter).mpr unread
  | fresh => rfl

/-- An object pointer that is a leftover is there in one run only. -/
theorem obj_length
    {Result : Type}
    (twin : Twin)
    (use : ObjId → Result) :
    (twin.stale.pclsMsgObj.map use).toList.length =
      (twin.fresh.pclsMsgObj.map use).toList.length +
        twin.mark.obj.toNat := by
  cases marked : twin.mark.obj with
  | false =>
      simp [twin.agrees.obj marked]
  | true =>
      obtain ⟨held, nothing⟩ := twin.agrees.leftover marked
      obtain ⟨pointer, stored⟩ := Option.ne_none_iff_exists'.mp held
      simp [stored, nothing]

/-- `Free` of a leftover deletes an object in one run only. -/
theorem freeAccesses_length (twin : Twin) :
    (freeAccesses twin.stale).length =
      (freeAccesses twin.fresh).length + twin.mark.obj.toNat := by
  unfold freeAccesses
  rw [List.length_append, List.length_append, twin.obj_length,
    twin.agrees.tpMsgData, Nat.add_assoc]

/-- A copy of a leftover clones an object in one run only. -/
theorem copyAccesses_length
    (allocation : Allocation)
    (twin source : Twin) :
    (copyAccesses allocation twin.stale source.stale).length =
      (copyAccesses allocation twin.fresh source.fresh).length +
        (twin.mark.obj.toNat + source.mark.obj.toNat) := by
  have sameData :
      copyDataAccesses allocation source.stale =
        copyDataAccesses allocation source.fresh := by
    unfold copyDataAccesses
    rw [source.agrees.tpMsgData]
  unfold copyAccesses
  simp only [List.length_append, freeAccesses_length,
    source.obj_length, sameData]
  omega

end Twin

/--
Both runs at once.  All messages, those in the queues included, are twins; the
rest of the process is the same twice, and its own kernel is not looked at.
-/
structure Pair (Name Object Queue Obj : Type) where
  twin : Name → Twin
  kernel : Kernel Queue Twin
  process : Process Object Queue Obj

namespace Pair

variable {Name Object Queue Obj : Type}

/-- The state of one run. -/
def view
    (side : Side)
    (pair : Pair Name Object Queue Obj) :
    World Name Object Queue Obj where
  mesg := fun name => (pair.twin name).view side
  process :=
    { pair.process with kernel := pair.kernel.map (Twin.view side) }

/-- The marks of both runs. -/
def marks
    (pair : Pair Name Object Queue Obj) :
    Marks Name Object Queue where
  ofMesg := fun name => (pair.twin name).mark
  kernel := pair.kernel.map Twin.mark
  fd := fun owner => (pair.process.object owner).msgQueueFd

variable [DecidableEq Name]

/-- Replace one message and the rest of the process. -/
def put
    (pair : Pair Name Object Queue Obj)
    (this : Name)
    (process : Process Object Queue Obj)
    (kernel : Kernel Queue Twin)
    (twin : Twin) :
    Pair Name Object Queue Obj where
  twin := Function.update pair.twin this twin
  kernel := kernel
  process := process

/-- Replacing in both runs replaces in each of them. -/
theorem view_put
    (pair : Pair Name Object Queue Obj)
    (this : Name)
    (process : Process Object Queue Obj)
    (kernel : Kernel Queue Twin)
    (twin : Twin)
    (side : Side) :
    (pair.put this process kernel twin).view side =
      (pair.view side).put this
        { process with kernel := kernel.map (Twin.view side) }
        (twin.view side) := by
  unfold put view World.put
  congr 1
  exact Function.comp_update (Twin.view side) pair.twin this twin

/-- The marks after a replacement that keeps the handles. -/
theorem marks_put
    {pair : Pair Name Object Queue Obj}
    {this : Name}
    {process : Process Object Queue Obj}
    {kernel : Kernel Queue Twin}
    {twin : Twin}
    (sameFd :
      ∀ owner,
        (process.object owner).msgQueueFd =
          (pair.process.object owner).msgQueueFd) :
    (pair.put this process kernel twin).marks =
      { pair.marks.put this twin.mark with
        kernel := kernel.map Twin.mark } := by
  unfold put marks Marks.put
  congr 1
  · exact Function.comp_update Twin.mark pair.twin this twin
  · exact funext sameFd

end Pair

section Kernels

variable {Object Queue Obj Msg Other : Type}
variable [DecidableEq Object] [DecidableEq Queue]

omit [DecidableEq Object] in
/-- Whether a `Send` fails does not depend on what the messages say. -/
theorem refused_map
    (read : Msg → Other)
    (kernel : Kernel Queue Msg)
    (fd : Int32)
    (msg : Msg)
    (s32Prio : UInt32)
    (accepts : Bool) :
    Refused (kernel.map read) fd (read msg) s32Prio accepts ↔
      Refused kernel fd msg s32Prio accepts := by
  unfold Refused
  rw [Kernel.mqSend_map, Option.isNone_map]

omit [DecidableEq Queue] in
/-- Entering `Receive` does not look at the kernel. -/
theorem entered_withKernel
    (process : Process Object Queue Obj)
    (kernel : Kernel Queue MesgT)
    (owner : Object) :
    entered { process with kernel } owner =
      { entered process owner with kernel } := by
  unfold entered
  split <;> rfl

omit [DecidableEq Queue] in
/-- What a `Receive` counts is the same twice. -/
theorem countReceived_view
    (process : Process Object Queue Obj)
    (kernel : Kernel Queue Twin)
    (owner : Object)
    (twin : Twin)
    (getattr : Bool)
    (side : Side) :
    countReceived
        { process with kernel := kernel.map (Twin.view side) }
        owner (twin.view side) getattr =
      { countReceived
          { process with kernel := kernel.map (Twin.view .fresh) }
          owner twin.fresh getattr with
        kernel := kernel.map (Twin.view side) } := by
  unfold countReceived curMsgsInQueue
  simp only [Kernel.mqCurmsgs_map, twin.view_msgId side]

end Kernels

section Simulation

variable {Name Object Queue Obj : Type}
variable [DecidableEq Name] [DecidableEq Object] [DecidableEq Queue]

/-- One call in both runs shows the same and leads to the next pair. -/
structure Simulates
    (pair : Pair Name Object Queue Obj)
    (use : Use Name Object)
    (next : Pair Name Object Queue Obj)
    (seen : Seen) :
    Prop where
  marks :
    next.marks = pair.marks.step use
  view :
    ∀ side, step (pair.view side) use = (next.view side, seen)

/-- A getter that reads no leftover. -/
theorem simulates_get
    {pair : Pair Name Object Queue Obj}
    {this : Name}
    {getter : Getter}
    (unused : ¬ pair.marks.Uses (.get this getter)) :
    Simulates pair (.get this getter) pair
      { value := some (getter.read (pair.twin this).fresh) } where
  marks := rfl
  view := by
    intro side
    have same := Twin.view_read unused side
    simp only [step, Pair.view, same]

/-- Every setter. -/
theorem simulates_set
    (pair : Pair Name Object Queue Obj)
    (this : Name)
    (setter : Setter) :
    Simulates pair (.set this setter)
      (pair.put this pair.process pair.kernel
        ((pair.twin this).write setter)) {} where
  marks := Pair.marks_put fun _ => rfl
  view := by
    intro side
    rw [Pair.view_put]
    cases side <;> rfl

/-- `CopyMsg` from a message without a leftover onto another one. -/
theorem copyMsg_view
    {Obj : Type}
    (allocation : Allocation)
    (heap : Heap Obj)
    {twin source : Twin}
    (unmarked : twin.mark.obj = false)
    (sourceUnmarked : source.mark.obj = false)
    (side : Side) :
    Mesg.copyMsg allocation heap (twin.view side) (source.view side) =
      ((copyAccesses allocation twin.fresh source.fresh).foldl
          Access.run heap,
        (source.copied allocation sourceUnmarked).view side,
        copyRc allocation source.fresh) := by
  rw [copyMsg_eq, Twin.view_copyAccesses allocation unmarked
    sourceUnmarked, Twin.view_copyRc]
  cases side <;> rfl

/-- What `CopyMsg` does to a world, and what is kept of its code. -/
def copyStep
    (world : World Name Object Queue Obj)
    (this : Name)
    (allocation : Allocation)
    (target source : MesgT)
    (keep : Int32 → Int32) :
    World Name Object Queue Obj × Seen :=
  let copied :=
    Mesg.copyMsg allocation world.process.heap target source
  (world.put this (world.withHeap copied.1) copied.2.1,
    { rc := keep copied.2.2
      accesses := copyAccesses allocation target source })

/-- Every copy that neither releases nor clones a leftover. -/
theorem simulates_copyStep
    {pair : Pair Name Object Queue Obj}
    {use : Use Name Object}
    {target source : Twin}
    (this : Name)
    (allocation : Allocation)
    (keep : Int32 → Int32)
    (unmarked : target.mark.obj = false)
    (sourceUnmarked : source.mark.obj = false)
    (marks :
      pair.marks.step use =
        pair.marks.put this source.mark.withoutObj)
    (copies :
      ∀ side,
        step (pair.view side) use =
          copyStep (pair.view side) this allocation
            (target.view side) (source.view side) keep) :
    ∃ next seen, Simulates pair use next seen := by
  refine ⟨pair.put this
      { pair.process with
        heap :=
          (copyAccesses allocation target.fresh source.fresh).foldl
            Access.run pair.process.heap }
      pair.kernel (source.copied allocation sourceUnmarked),
    { rc := keep (copyRc allocation source.fresh)
      accesses := copyAccesses allocation target.fresh source.fresh },
    ?_, ?_⟩
  · rw [marks]
    exact Pair.marks_put fun _ => rfl
  · intro side
    have copied :=
      copyMsg_view allocation pair.process.heap unmarked
        sourceUnmarked side
    have shown :=
      Twin.view_copyAccesses allocation unmarked sourceUnmarked side
    have sameHeap :
        (pair.view side).process.heap = pair.process.heap := rfl
    rw [copies, Pair.view_put, copyStep, sameHeap, copied, shown]
    rfl

/-- `CopyMsg` that neither releases nor clones a leftover. -/
theorem simulates_copyMsg
    {pair : Pair Name Object Queue Obj}
    {this clsMsg : Name}
    {allocation : Allocation}
    (unused : ¬ pair.marks.Uses (.copyMsg this clsMsg allocation)) :
    ∃ next seen,
      Simulates pair (.copyMsg this clsMsg allocation) next seen := by
  obtain ⟨thisMarked, clsMarked⟩ := not_or.mp unused
  have unmarked : (pair.twin this).mark.obj = false :=
    Bool.eq_false_iff.mpr thisMarked
  have clsUnmarked : (pair.twin clsMsg).mark.obj = false :=
    Bool.eq_false_iff.mpr clsMarked
  by_cases itself : clsMsg = this
  · subst clsMsg
    apply simulates_copyStep this allocation id unmarked
      (show (pair.twin this).released.mark.obj = false from rfl) rfl
    intro side
    have source :
        (free (pair.view side).process.heap
          ((pair.twin this).view side)).2 =
          (pair.twin this).released.view side := by
      rw [free_eq]
      cases side <;> rfl
    rw [← source]
    simp only [step, ↓reduceIte]
    rfl
  · apply simulates_copyStep this allocation id unmarked
      clsUnmarked rfl
    intro side
    simp only [step, itself, ↓reduceIte]
    rfl

/-- A copy constructor that clones no leftover. -/
theorem simulates_copyConstruct
    {pair : Pair Name Object Queue Obj}
    {this clsMsg : Name}
    {allocation : Allocation}
    (unused :
      ¬ pair.marks.Uses (.copyConstruct this clsMsg allocation)) :
    ∃ next seen,
      Simulates pair (.copyConstruct this clsMsg allocation)
        next seen := by
  have cleared
      (side : Side) :
      (pair.twin this).cleared.view side =
        ((defaultInit ((pair.view side).mesg this)).msgData none
          0).msgObjPtr none := by
    cases side <;> rfl
  by_cases itself : clsMsg = this
  · subst clsMsg
    apply simulates_copyStep this allocation (fun _ => 0)
      (show (pair.twin this).cleared.mark.obj = false from rfl)
      (show (pair.twin this).cleared.mark.obj = false from rfl) rfl
    intro side
    rw [cleared]
    simp only [step, ↓reduceIte]
    rfl
  · have clsUnmarked : (pair.twin clsMsg).mark.obj = false := by
      apply Bool.eq_false_iff.mpr
      exact fun marked => unused ⟨itself, marked⟩
    apply simulates_copyStep this allocation (fun _ => 0)
      (show (pair.twin this).cleared.mark.obj = false from rfl)
      clsUnmarked rfl
    intro side
    rw [cleared]
    simp only [step, itself, ↓reduceIte]
    rfl

/-- An assignment that neither releases nor clones a leftover. -/
theorem simulates_assign
    {pair : Pair Name Object Queue Obj}
    {this clsMsg : Name}
    {allocation : Allocation}
    (unused : ¬ pair.marks.Uses (.assign this clsMsg allocation)) :
    ∃ next seen,
      Simulates pair (.assign this clsMsg allocation) next seen := by
  by_cases itself : this = clsMsg
  · refine ⟨pair, {}, ?_, ?_⟩
    · simp only [Marks.step, itself, ↓reduceIte]
    · intro side
      simp only [step, itself, ↓reduceIte]
  · obtain ⟨thisMarked, clsMarked⟩ :=
      not_or.mp fun marked => unused ⟨itself, marked⟩
    apply simulates_copyStep this allocation (fun _ => 0)
      (Bool.eq_false_iff.mpr thisMarked)
      (Bool.eq_false_iff.mpr clsMarked)
    · simp only [Marks.step, itself, ↓reduceIte]
      rfl
    · intro side
      simp only [step, itself, ↓reduceIte]
      rfl

omit [DecidableEq Name] [DecidableEq Object] [DecidableEq Queue] in
/-- A process after `Free` of an unmarked message. -/
theorem processFreed_view
    {twin : Twin}
    (pair : Pair Name Object Queue Obj)
    (unmarked : twin.mark.obj = false)
    (side : Side) :
    processFreed (pair.view side).process (twin.view side) =
      { processFreed pair.process twin.fresh with
        kernel := pair.kernel.map (Twin.view side) } := by
  unfold processFreed
  rw [Twin.view_freeAccesses unmarked]
  rfl

/-- `Free` that releases no leftover. -/
theorem simulates_free
    {pair : Pair Name Object Queue Obj}
    {this : Name}
    (unused : ¬ pair.marks.Uses (.free this)) :
    Simulates pair (.free this)
      (pair.put this
        (processFreed pair.process (pair.twin this).fresh)
        pair.kernel (pair.twin this).released)
      { accesses := freeAccesses (pair.twin this).fresh } where
  marks := Pair.marks_put fun _ => rfl
  view := by
    intro side
    have unmarked : (pair.twin this).mark.obj = false :=
      Bool.eq_false_iff.mpr unused
    have mesg :
        (pair.view side).mesg this = (pair.twin this).view side := rfl
    simp only [step, freeIn_eq, mesg]
    rw [processFreed_view pair unmarked, Pair.view_put,
      Twin.view_freeAccesses unmarked]
    cases side <;> rfl

omit [DecidableEq Object] in
/-- The marks after a `Send` that fails. -/
theorem sendStep_refused
    {marks : Marks Name Object Queue}
    {fd : Int32}
    {this : Name}
    {s32Prio : UInt32}
    {accepts : Bool}
    (refused :
      Refused marks.kernel fd (marks.ofMesg this) s32Prio accepts) :
    marks.sendStep fd this s32Prio accepts =
      marks.put this (marks.ofMesg this).withoutObj := by
  unfold Marks.sendStep
  by_cases noHandle : fd ≤ 0
  · simp [noHandle]
  · have failed :=
      Option.isNone_iff_eq_none.mp (refused.resolve_left noHandle)
    simp [noHandle, failed]

/-- A `Send` that fails and releases no leftover. -/
theorem simulates_refused
    {pair : Pair Name Object Queue Obj}
    {fd : Int32}
    {this : Name}
    {s32Prio : UInt32}
    {accepts : Bool}
    (unmarked : (pair.twin this).mark.obj = false)
    (refused :
      Refused pair.kernel fd (pair.twin this) s32Prio accepts) :
    Simulates pair (.send fd this s32Prio accepts)
      (pair.put this
        (processFreed pair.process (pair.twin this).fresh)
        pair.kernel (pair.twin this).released)
      (sendSeen (pair.twin this).fresh (refusal fd)) where
  marks := by
    refine Eq.trans (Pair.marks_put fun _ => rfl) ?_
    exact (sendStep_refused
      ((refused_map Twin.mark ..).mpr refused)).symm
  view := by
    intro side
    have mesg :
        (pair.view side).mesg this = (pair.twin this).view side := rfl
    have viewRefused :
        Refused (pair.view side).process.kernel fd
          ((pair.twin this).view side) s32Prio accepts :=
      (refused_map (Twin.view side) ..).mpr refused
    simp only [step, mesg, send_refused viewRefused, sendSeen]
    rw [processFreed_view pair unmarked, Pair.view_put,
      Twin.view_freeAccesses unmarked]
    cases side <;> rfl

/-- A `Send` that hands the message to the kernel. -/
theorem simulates_accepted
    {pair : Pair Name Object Queue Obj}
    {fd : Int32}
    {this : Name}
    {s32Prio : UInt32}
    {accepts : Bool}
    {kernel : Kernel Queue Twin}
    (positive : ¬ fd ≤ 0)
    (stored :
      pair.kernel.mqSend fd (pair.twin this) s32Prio accepts =
        some kernel) :
    Simulates pair (.send fd this s32Prio accepts)
      (pair.put this (countSent pair.process fd) kernel
        (pair.twin this).sent) {} where
  marks := by
    refine Eq.trans
      (Pair.marks_put (sameNumbers_countSent pair.process fd).fd) ?_
    have sent :
        pair.marks.kernel.mqSend fd (pair.marks.ofMesg this)
            s32Prio accepts =
          some (kernel.map Twin.mark) := by
      have mapped :=
        Kernel.mqSend_map Twin.mark pair.kernel fd (pair.twin this)
          s32Prio accepts
      rwa [stored] at mapped
    simp only [Marks.step, Marks.sendStep, sent, positive, ↓reduceIte]
    rfl
  view := by
    intro side
    have mesg :
        (pair.view side).mesg this = (pair.twin this).view side := rfl
    have viewStored :
        (pair.view side).process.kernel.mqSend fd
            ((pair.twin this).view side) s32Prio accepts =
          some (kernel.map (Twin.view side)) := by
      have mapped :=
        Kernel.mqSend_map (Twin.view side) pair.kernel fd
          (pair.twin this) s32Prio accepts
      rwa [stored] at mapped
    have counted :=
      countSent_withKernel pair.process
        (kernel.map (Twin.view side)) fd
    simp only [step, mesg, send, positive, viewStored, sendSeen,
      ↓reduceIte]
    rw [Pair.view_put, ← counted]
    cases side <;> rfl

/-- A `Send` that releases no leftover. -/
theorem simulates_send
    {pair : Pair Name Object Queue Obj}
    {fd : Int32}
    {this : Name}
    {s32Prio : UInt32}
    {accepts : Bool}
    (unused : ¬ pair.marks.Uses (.send fd this s32Prio accepts)) :
    ∃ next seen,
      Simulates pair (.send fd this s32Prio accepts) next seen := by
  by_cases refused :
      Refused pair.kernel fd (pair.twin this) s32Prio accepts
  · have marksRefused :
        Refused pair.marks.kernel fd (pair.marks.ofMesg this)
          s32Prio accepts :=
      (refused_map Twin.mark ..).mpr refused
    have unmarked : (pair.twin this).mark.obj = false := by
      apply Bool.eq_false_iff.mpr
      exact fun marked => unused ⟨marked, marksRefused⟩
    exact ⟨_, _, simulates_refused unmarked refused⟩
  · obtain ⟨positive, accepted⟩ := not_or.mp refused
    obtain ⟨kernel, stored⟩ :
        ∃ kernel,
          pair.kernel.mqSend fd (pair.twin this) s32Prio accepts =
            some kernel := by
      refine Option.ne_none_iff_exists'.mp ?_
      simpa using accepted
    exact ⟨_, _, simulates_accepted positive stored⟩

/-- `SendMsg` does what `Send` does. -/
theorem step_sendMsg
    (world : World Name Object Queue Obj)
    (fd : Int32)
    (this : Name)
    (s32Prio : UInt32)
    (accepts : Bool) :
    step world (.sendMsg fd this s32Prio accepts) =
      step world (.send fd this s32Prio accepts) := by
  simp only [step, sendMsg_eq_send]

omit [DecidableEq Name] [DecidableEq Queue] in
/-- Entering `Receive` keeps all handles. -/
theorem entered_fd
    (process : Process Object Queue Obj)
    (owner other : Object) :
    ((entered process owner).object other).msgQueueFd =
      (process.object other).msgQueueFd := by
  unfold entered
  split
  · rfl
  · by_cases same : other = owner
    · subst other
      simp
    · simp [same]

omit [DecidableEq Name] [DecidableEq Queue] in
/-- Counting a received message keeps all handles. -/
theorem countReceived_fd
    (process : Process Object Queue Obj)
    (owner other : Object)
    (msg : MesgT)
    (getattr : Bool) :
    ((countReceived process owner msg getattr).object
        other).msgQueueFd =
      (process.object other).msgQueueFd := by
  unfold countReceived
  by_cases same : other = owner
  · subst other
    simp
  · simp [same]

omit [DecidableEq Name] [DecidableEq Queue] in
/-- Both runs enter `Receive` alike. -/
theorem entered_view
    (pair : Pair Name Object Queue Obj)
    (owner : Object)
    (side : Side) :
    entered (pair.view side).process owner =
      { entered pair.process owner with
        kernel := pair.kernel.map (Twin.view side) } :=
  entered_withKernel pair.process _ owner

omit [DecidableEq Name] in
/-- Both runs receive the same twin. -/
theorem mqReceive_view
    (pair : Pair Name Object Queue Obj)
    (owner : Object)
    (answers : Bool)
    (side : Side) :
    (entered (pair.view side).process owner).kernel.mqReceive
        ((entered (pair.view side).process owner).object
          owner).msgQueueFd answers =
      (pair.kernel.mqReceive
        (pair.process.object owner).msgQueueFd answers).map
          fun taken =>
            (taken.1.view side, taken.2.map (Twin.view side)) := by
  rw [entered_fd, ← Kernel.mqReceive_map, entered_view]
  rfl

/-- A `Receive` that brings no message. -/
theorem simulates_unreceived
    {pair : Pair Name Object Queue Obj}
    {owner : Object}
    {this : Name}
    {isPolling : Bool}
    {answers : Answers}
    (rc : Int32)
    (marks :
      pair.marks.step (.receive owner this isPolling answers) =
        pair.marks)
    (returns :
      ∀ side,
        receive (pair.view side).process owner
            ((pair.view side).mesg this) isPolling answers =
          (entered (pair.view side).process owner,
            (pair.view side).mesg this, rc)) :
    Simulates pair (.receive owner this isPolling answers)
      (pair.put this (entered pair.process owner) pair.kernel
        (pair.twin this)) { rc } where
  marks := by
    rw [marks, Pair.marks_put (entered_fd pair.process owner)]
    have unchanged :=
      Function.update_eq_self this pair.marks.ofMesg
    simp only [Marks.put]
    exact congrArg
      (fun ofMesg => { pair.marks with ofMesg }) unchanged
  view := by
    intro side
    simp only [step, returns]
    rw [Pair.view_put, entered_view]
    rfl

/-- A `Receive` that brings a message. -/
theorem simulates_received
    {pair : Pair Name Object Queue Obj}
    {owner : Object}
    {this : Name}
    {isPolling : Bool}
    {answers : Answers}
    {twin : Twin}
    {kernel : Kernel Queue Twin}
    (passed :
      gate (pair.process.object owner).msgQueueFd isPolling answers =
        none)
    (received :
      pair.kernel.mqReceive (pair.process.object owner).msgQueueFd
          answers.receive =
        some (twin, kernel)) :
    Simulates pair (.receive owner this isPolling answers)
      (pair.put this
        (countReceived
          { entered pair.process owner with
            kernel := kernel.map (Twin.view .fresh) }
          owner twin.fresh answers.getattr)
        kernel twin) { rc := 0 } where
  marks := by
    have marksPassed :
        gate (pair.marks.fd owner) isPolling answers = none := passed
    have marksReceived :
        pair.marks.kernel.mqReceive (pair.marks.fd owner)
            answers.receive =
          some (twin.mark, kernel.map Twin.mark) := by
      have mapped :=
        Kernel.mqReceive_map Twin.mark pair.kernel
          (pair.process.object owner).msgQueueFd answers.receive
      rwa [received] at mapped
    have sameFd (other : Object) :=
      (countReceived_fd
        { entered pair.process owner with
          kernel := kernel.map (Twin.view .fresh) }
        owner other twin.fresh answers.getattr).trans
        (entered_fd pair.process owner other)
    rw [Pair.marks_put sameFd]
    simp only [Marks.step, marksPassed, marksReceived]
  view := by
    intro side
    have viewPassed :
        gate ((pair.view side).process.object owner).msgQueueFd
            isPolling answers =
          none := passed
    have viewReceived :=
      mqReceive_view pair owner answers.receive side
    have counted :=
      countReceived_view (entered pair.process owner) kernel
        owner twin answers.getattr side
    rw [received] at viewReceived
    simp only [step, receive_eq, viewPassed, receiveInto,
      viewReceived, Option.map_some]
    rw [Pair.view_put, ← counted, entered_view]

/-- Every `Receive`. -/
theorem simulates_receive
    (pair : Pair Name Object Queue Obj)
    (owner : Object)
    (this : Name)
    (isPolling : Bool)
    (answers : Answers) :
    ∃ next seen,
      Simulates pair (.receive owner this isPolling answers)
        next seen := by
  have viewGate
      (side : Side) :
      gate ((pair.view side).process.object owner).msgQueueFd
          isPolling answers =
        gate (pair.process.object owner).msgQueueFd
          isPolling answers := rfl
  have marksGate :
      gate (pair.marks.fd owner) isPolling answers =
        gate (pair.process.object owner).msgQueueFd
          isPolling answers := rfl
  cases gated :
      gate (pair.process.object owner).msgQueueFd isPolling
        answers with
  | some rc =>
      refine ⟨_, _, simulates_unreceived rc ?_ fun side => ?_⟩
      · simp only [Marks.step, marksGate, gated]
      · simp only [receive_eq, viewGate, gated]
  | none =>
      cases received :
          pair.kernel.mqReceive
            (pair.process.object owner).msgQueueFd
            answers.receive with
      | none =>
          refine ⟨_, _,
            simulates_unreceived errMsgQueueReceiveFailed ?_
              fun side => ?_⟩
          · have nothing :
                pair.marks.kernel.mqReceive (pair.marks.fd owner)
                    answers.receive =
                  none := by
              have mapped :=
                Kernel.mqReceive_map Twin.mark pair.kernel
                  (pair.process.object owner).msgQueueFd
                  answers.receive
              rwa [received] at mapped
            simp only [Marks.step, marksGate, gated, nothing]
          · have nothing :=
              mqReceive_view pair owner answers.receive side
            rw [received] at nothing
            simp only [receive_eq, viewGate, gated, receiveInto,
              nothing, Option.map_none]
      | some taken =>
          exact ⟨_, _, simulates_received gated received⟩

/-- A call that uses no leftover. -/
theorem simulates_unused
    {pair : Pair Name Object Queue Obj}
    {use : Use Name Object}
    (unused : ¬ pair.marks.Uses use) :
    ∃ next seen, Simulates pair use next seen := by
  cases use with
  | get this getter =>
      exact ⟨_, _, simulates_get unused⟩
  | set this setter =>
      exact ⟨_, _, simulates_set pair this setter⟩
  | copyMsg this clsMsg allocation =>
      exact simulates_copyMsg unused
  | copyConstruct this clsMsg allocation =>
      exact simulates_copyConstruct unused
  | assign this clsMsg allocation =>
      exact simulates_assign unused
  | free this =>
      exact ⟨_, _, simulates_free unused⟩
  | send fd this s32Prio accepts =>
      exact simulates_send unused
  | sendMsg fd this s32Prio accepts =>
      obtain ⟨next, seen, simulates⟩ := simulates_send unused
      refine ⟨next, seen, simulates.marks, fun side => ?_⟩
      rw [step_sendMsg]
      exact simulates.view side
  | receive owner this isPolling answers =>
      exact simulates_receive pair owner this isPolling answers

/-- Seen things with uses in different numbers are different. -/
theorem seen_ne_of_length
    {first second : Seen}
    {extra : Nat}
    (length :
      first.accesses.length = second.accesses.length + extra)
    (positive : 0 < extra) :
    first ≠ second := by
  rintro rfl
  omega

/-- One marked pointer or the other. -/
theorem extra_pos
    {first second : Bool}
    (marked : first = true ∨ second = true) :
    0 < first.toNat + second.toNat := by
  rcases marked with rfl | rfl <;> rw [Bool.toNat_true] <;> omega

/-- A `Send` that deletes a leftover. -/
theorem send_used
    {pair : Pair Name Object Queue Obj}
    {fd : Int32}
    {this : Name}
    {s32Prio : UInt32}
    {accepts : Bool}
    (used : pair.marks.SendUses fd this s32Prio accepts) :
    (step (pair.view .stale) (.send fd this s32Prio accepts)).2 ≠
      (step (pair.view .fresh) (.send fd this s32Prio accepts)).2 := by
  obtain ⟨marked, refused⟩ := used
  have shows
      (side : Side) :
      (step (pair.view side) (.send fd this s32Prio accepts)).2 =
        sendSeen ((pair.twin this).view side) (refusal fd) := by
    have mesg :
        (pair.view side).mesg this = (pair.twin this).view side := rfl
    have viewRefused :
        Refused (pair.view side).process.kernel fd
          ((pair.twin this).view side) s32Prio accepts :=
      (refused_map (Twin.view side) ..).mpr
        ((refused_map Twin.mark ..).mp refused)
    simp only [step, mesg, send_refused viewRefused]
  rw [shows, shows]
  apply seen_ne_of_length _ (show 0 < (1 : Nat) by decide)
  simp only [sendSeen, refusal_ne_zero, ↓reduceIte]
  have longer := (pair.twin this).freeAccesses_length
  rwa [show (pair.twin this).mark.obj = true from marked] at longer

/-- A call that uses a leftover shows it. -/
theorem step_used
    {pair : Pair Name Object Queue Obj}
    {use : Use Name Object}
    (used : pair.marks.Uses use) :
    (step (pair.view .stale) use).2 ≠
      (step (pair.view .fresh) use).2 := by
  cases use with
  | get this getter =>
      intro same
      have readsSame :=
        Option.some.inj (congrArg Seen.value same)
      exact ((pair.twin this).read_eq_iff getter).mp readsSame used
  | set this setter =>
      exact used.elim
  | copyMsg this clsMsg allocation =>
      by_cases itself : clsMsg = this
      · subst clsMsg
        simp only [step, ↓reduceIte, free_eq]
        exact seen_ne_of_length
          (Twin.copyAccesses_length allocation (pair.twin this)
            (pair.twin this).released)
          (extra_pos (.inl (used.elim id id)))
      · simp only [step, itself, ↓reduceIte]
        exact seen_ne_of_length
          (Twin.copyAccesses_length allocation (pair.twin this)
            (pair.twin clsMsg))
          (extra_pos used)
  | copyConstruct this clsMsg allocation =>
      simp only [step, used.1, ↓reduceIte]
      exact seen_ne_of_length
        (Twin.copyAccesses_length allocation (pair.twin this).cleared
          (pair.twin clsMsg))
        (extra_pos (.inr used.2))
  | assign this clsMsg allocation =>
      simp only [step, used.1, ↓reduceIte]
      exact seen_ne_of_length
        (Twin.copyAccesses_length allocation (pair.twin this)
          (pair.twin clsMsg))
        (extra_pos used.2)
  | free this =>
      have longer := (pair.twin this).freeAccesses_length
      rw [show (pair.twin this).mark.obj = true from used] at longer
      exact seen_ne_of_length longer (by decide)
  | send fd this s32Prio accepts =>
      exact send_used used
  | sendMsg fd this s32Prio accepts =>
      rw [step_sendMsg, step_sendMsg]
      exact send_used used
  | receive owner this isPolling answers =>
      exact used.elim

/-- Two worlds are the runs of one pair with the given marks. -/
def Related
    (marks : Marks Name Object Queue)
    (stale fresh : World Name Object Queue Obj) :
    Prop :=
  ∃ pair : Pair Name Object Queue Obj,
    pair.marks = marks ∧
      pair.view .stale = stale ∧
      pair.view .fresh = fresh

/-- Marks track what can be told about the construction. -/
theorem tracks :
    TwoRuns.Tracks (@step Name Object Queue Obj _ _ _)
      Marks.step Marks.Uses Related where
  unused := by
    rintro _ _ _ use ⟨pair, rfl, rfl, rfl⟩ unused
    obtain ⟨next, seen, simulates⟩ := simulates_unused unused
    rw [simulates.view, simulates.view]
    exact ⟨rfl, next, simulates.marks, rfl, rfl⟩
  used := by
    rintro _ _ _ use ⟨pair, rfl, rfl, rfl⟩ used
    exact step_used used

/-- A world in which one message has just been constructed. -/
def World.withMesg
    (world : World Name Object Queue Obj)
    (this : Name)
    (msg : MesgT) :
    World Name Object Queue Obj :=
  world.put this world.process msg

/-- The marks after `Mesg(ulMsgId)` on some storage. -/
def Marks.constructed
    (world : World Name Object Queue Obj)
    (this : Name)
    (storage : MesgT) :
    Marks Name Object Queue where
  ofMesg :=
    Function.update (fun _ => .clean) this (.leftover storage)
  kernel := world.process.kernel.map fun _ => .clean
  fd := fun owner => (world.process.object owner).msgQueueFd

omit [DecidableEq Name] [DecidableEq Object] [DecidableEq Queue] in
/-- Messages that are the same twice are read as they were. -/
theorem map_same_view
    (kernel : Kernel Queue MesgT)
    (side : Side) :
    (kernel.map Twin.same).map (Twin.view side) = kernel := by
  have reads : Twin.view side ∘ Twin.same = id := by
    funext msg
    cases side <;> rfl
  rw [Kernel.map_map, reads, Kernel.map_id]

omit [DecidableEq Object] [DecidableEq Queue] in
/-- The two constructions are the runs of one pair. -/
theorem related_constructed
    (world : World Name Object Queue Obj)
    (this : Name)
    (storage : MesgT)
    (ulMsgId : UInt64) :
    Related (.constructed world this storage)
      (world.withMesg this (mesgOfId storage ulMsgId))
      (world.withMesg this (mesg.msgId ulMsgId)) := by
  let before : Pair Name Object Queue Obj :=
    { twin := fun name => .same (world.mesg name)
      kernel := world.process.kernel.map .same
      process := world.process }
  have unread
      (side : Side)
      (msg : MesgT) :
      (before.view side).put this
          { world.process with
            kernel := before.kernel.map (Twin.view side) } msg =
        world.withMesg this msg := by
    rw [show before.kernel.map (Twin.view side) = world.process.kernel
      from map_same_view world.process.kernel side]
    cases side <;> rfl
  refine ⟨before.put this before.process before.kernel
    (.constructed storage ulMsgId), ?_, ?_, ?_⟩
  · rw [Pair.marks_put fun _ => rfl]
    simp only [before, Marks.constructed, Kernel.map_map]
    rfl
  · rw [Pair.view_put]
    exact unread .stale _
  · rw [Pair.view_put]
    exact unread .fresh _

/--
`Mesg(ulMsgId)` on old storage shows the same as `Mesg()` with `MsgId(ulMsgId)`
if and only if no call uses a leftover of the storage.
-/
theorem constructs_alike_iff_unused
    (world : World Name Object Queue Obj)
    (this : Name)
    (storage : MesgT)
    (ulMsgId : UInt64)
    (uses : List (Use Name Object)) :
    TwoRuns.outputs step
          (world.withMesg this (mesgOfId storage ulMsgId)) uses =
        TwoRuns.outputs step
          (world.withMesg this (mesg.msgId ulMsgId)) uses ↔
      TwoRuns.Unused Marks.step Marks.Uses
        (Marks.constructed world this storage) uses :=
  tracks.outputs_eq_iff
    (related_constructed world this storage ulMsgId) uses

/-- A message whose object pointer is what the storage happened to hold. -/
def staleObj : MesgT :=
  mesg.msgObjPtr (some 7)

/-- Nothing is allocated and no queue is open. -/
def emptyWorld : World Unit Unit Unit Unit where
  mesg := fun _ => Mesg.mesg
  process :=
    { heap := Heap.empty
      kernel :=
        { descriptor := fun _ => none
          queue := fun _ => { maxmsg := 0, messages := [] } }
      object := fun _ =>
        { msgQueueFd := -1
          msgQueueNotInUse := false
          maxMsgInQueue := 0
          lastMsgMsgId := 0
          receiveMsgCnt := 0
          sendMsgCnt := 0 }
      gMap := fun _ => none
      gReceiveMsgCnt := 0
      gSendMsgCnt := 0 }

/-- `Mesg(1)` on storage with an old object pointer, and then `Free`. -/
theorem free_deletes_leftover :
    ¬ ∀ (world : World Unit Unit Unit Unit)
        (storage : MesgT)
        (ulMsgId : UInt64)
        (uses : List (Use Unit Unit)),
        TwoRuns.outputs step
            (world.withMesg () (mesgOfId storage ulMsgId)) uses =
          TwoRuns.outputs step
            (world.withMesg () (mesg.msgId ulMsgId)) uses := by
  intro claimed
  have same := claimed emptyWorld staleObj 1 [.free ()]
  exact absurd same (by decide)

/--
`Mesg(ulMsgId)` hides the storage from every later call only where there is
nothing to hide.
-/
theorem constructs_alike_forever_iff_zero
    (world : World Name Object Queue Obj)
    (this : Name)
    (storage : MesgT)
    (ulMsgId : UInt64) :
    (∀ uses : List (Use Name Object),
      TwoRuns.outputs step
          (world.withMesg this (mesgOfId storage ulMsgId)) uses =
        TwoRuns.outputs step
          (world.withMesg this (mesg.msgId ulMsgId)) uses) ↔
      storage.ulCbId = 0 ∧
        storage.u32SeqCnt = 0 ∧
        storage.pclsMsgObj = none := by
  have zero :
      (Twin.constructed storage ulMsgId).mark = .clean ↔
        storage.ulCbId = 0 ∧
          storage.u32SeqCnt = 0 ∧
          storage.pclsMsgObj = none := by
    simp [Twin.constructed, Mark.leftover, Mark.clean]
  rw [← zero, ← Twin.stale_eq_fresh_iff]
  constructor
  · intro alike
    have shown := alike [.get this .mMsg]
    simpa [TwoRuns.outputs, step, World.withMesg, World.put,
      Getter.read, Twin.constructed] using shown
  · intro same uses
    exact congrArg
      (fun msg =>
        TwoRuns.outputs step (world.withMesg this msg) uses) same

end Simulation

end WkcRuntime.MesgConstruct
