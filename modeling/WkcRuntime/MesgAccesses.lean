import WkcRuntime.MesgConstructSource

namespace WkcRuntime.MesgConstruct

open Mesg MessageQueue MsgQueue

/-!
# What a call on messages shows

The code, the message and the uses of memory that each call comes to, without
the heap.  The uses that a call shows are all that happens to the heap.
-/

section Accesses

variable {Obj : Type}

/-- A message after `Free`. -/
def released (this : MesgT) : MesgT :=
  { this with
    tpMsgData :=
      if this.tpMsgData.1 = none then this.tpMsgData else (none, 0)
    pclsMsgObj := none }

/-- `Free` releases what it shows. -/
theorem free_eq
    (heap : Heap Obj)
    (this : MesgT) :
    free heap this =
      ((freeAccesses this).foldl Access.run heap, released this) := by
  rcases this with ⟨_, _, ⟨_ | pointer, _⟩, _, _, _ | obj⟩ <;>
    simp [free, freeData, freeObj, freeAccesses, released,
      MesgT.msgData, MesgT.msgObjPtr, Access.run]

/-- The payload that `CopyMsg` allocates. -/
def copiedData
    (allocation : Allocation)
    (clsMsg : MesgT) :
    Option BlockId × Int32 :=
  match clsMsg.tpMsgData.1, allocation.block with
  | some _, some pointer =>
      if 0 < clsMsg.tpMsgData.2 then
        (some pointer, clsMsg.tpMsgData.2)
      else
        (none, 0)
  | _, _ =>
      (none, 0)

/-- The code of `CopyMsg`. -/
def copyRc
    (allocation : Allocation)
    (clsMsg : MesgT) :
    Int32 :=
  match clsMsg.tpMsgData.1, allocation.block with
  | some _, none =>
      if 0 < clsMsg.tpMsgData.2 then errMsgCopyMsgAllocFailed else 0
  | _, _ =>
      0

/-- The message that `CopyMsg` makes, whatever it is copied onto. -/
def copied
    (allocation : Allocation)
    (clsMsg : MesgT) :
    MesgT :=
  { clsMsg with
    tpMsgData := copiedData allocation clsMsg
    pclsMsgObj := clsMsg.pclsMsgObj.map fun _ => allocation.obj }

/-- `CopyMsg` releases, reads and clones what it shows. -/
theorem copyMsg_eq
    (allocation : Allocation)
    (heap : Heap Obj)
    (this clsMsg : MesgT) :
    copyMsg allocation heap this clsMsg =
      ((copyAccesses allocation this clsMsg).foldl Access.run heap,
        copied allocation clsMsg, copyRc allocation clsMsg) := by
  unfold copyMsg copyAccesses
  simp only [free_eq, List.foldl_append]
  cases data : clsMsg.tpMsgData.1 <;>
    cases obj : clsMsg.pclsMsgObj <;>
    cases answered : allocation.block <;>
    by_cases positive : 0 < clsMsg.tpMsgData.2 <;>
    simp [copyData, copyObj, copyDataAccesses, copied, copiedData,
      copyRc, MesgT.msgData, MesgT.msgObjPtr, Access.run, data, obj,
      answered, positive]

end Accesses

section Steps

variable {Name Object Queue Obj : Type}
variable [DecidableEq Name] [DecidableEq Object] [DecidableEq Queue]

/-- The process after `Free` of a message. -/
def processFreed
    (process : Process Object Queue Obj)
    (this : MesgT) :
    Process Object Queue Obj :=
  { process with
    heap := (freeAccesses this).foldl Access.run process.heap }

omit [DecidableEq Object] [DecidableEq Queue] in
/-- `Free` in a process. -/
theorem freeIn_eq
    (process : Process Object Queue Obj)
    (this : MesgT) :
    freeIn process this = (processFreed process this, released this) := by
  simp [freeIn, processFreed, free_eq]

omit [DecidableEq Queue] in
/-- Counting a sent message does not look at the kernel. -/
theorem countSent_withKernel
    (process : Process Object Queue Obj)
    (kernel : Kernel Queue MesgT)
    (fd : Int32) :
    countSent { process with kernel } fd =
      { countSent process fd with kernel } := by
  unfold countSent
  cases process.gMap fd <;> rfl

/-- The code of a `Send` that fails. -/
def refusal (fd : Int32) : Int32 :=
  if fd ≤ 0 then errMsgQueueSendHandleIsNull else errMsgQueueSendFailed

theorem refusal_ne_zero (fd : Int32) : refusal fd ≠ 0 := by
  unfold refusal
  split <;> decide

/-- `Send` gets no further than `mq_send`, whatever the message says. -/
def Refused
    {Msg : Type}
    (kernel : Kernel Queue Msg)
    (fd : Int32)
    (msg : Msg)
    (s32Prio : UInt32)
    (accepts : Bool) :
    Prop :=
  fd ≤ 0 ∨ (kernel.mqSend fd msg s32Prio accepts).isNone = true

instance
    {Msg : Type}
    (kernel : Kernel Queue Msg)
    (fd : Int32)
    (msg : Msg)
    (s32Prio : UInt32)
    (accepts : Bool) :
    Decidable (Refused kernel fd msg s32Prio accepts) :=
  inferInstanceAs (Decidable (_ ∨ _))

/-- A failed `Send` frees its message. -/
theorem send_refused
    {process : Process Object Queue Obj}
    {fd : Int32}
    {pclsMsg : MesgT}
    {s32Prio : UInt32}
    {accepts : Bool}
    (refused : Refused process.kernel fd pclsMsg s32Prio accepts) :
    send process fd pclsMsg s32Prio accepts =
      (processFreed process pclsMsg, released pclsMsg, refusal fd) := by
  unfold send refusal
  by_cases noHandle : fd ≤ 0
  · simp [noHandle, freeIn_eq]
  · have failed :=
      Option.isNone_iff_eq_none.mp (refused.resolve_left noHandle)
    simp [noHandle, failed, freeIn_eq]

/-- A `Send` that does not fail hands the message to the kernel. -/
theorem send_accepted
    {process : Process Object Queue Obj}
    {fd : Int32}
    {pclsMsg : MesgT}
    {s32Prio : UInt32}
    {accepts : Bool}
    (accepted : ¬ Refused process.kernel fd pclsMsg s32Prio accepts) :
    ∃ kernel,
      process.kernel.mqSend fd pclsMsg s32Prio accepts = some kernel ∧
        send process fd pclsMsg s32Prio accepts =
          ({ countSent process fd with kernel },
            (pclsMsg.msgData none 0).msgObjPtr none, 0) := by
  obtain ⟨positive, sent⟩ := not_or.mp accepted
  cases stored : process.kernel.mqSend fd pclsMsg s32Prio accepts with
  | none =>
      simp [stored] at sent
  | some kernel =>
      refine ⟨kernel, rfl, ?_⟩
      simp [send, positive, stored, countSent_withKernel]

/-- Freeing once more after a failure does nothing. -/
theorem sendMsg_eq_send
    (process : Process Object Queue Obj)
    (fd : Int32)
    (this : MesgT)
    (s32Prio : UInt32)
    (accepts : Bool) :
    sendMsg process fd this s32Prio accepts =
      send process fd this s32Prio accepts := by
  unfold sendMsg
  by_cases refused : Refused process.kernel fd this s32Prio accepts
  · rw [send_refused refused]
    have nothingLeft : freeAccesses (released this) = [] := by
      unfold freeAccesses released
      by_cases empty : this.tpMsgData.1 = none <;> simp [empty]
    have settled : released (released this) = released this := by
      unfold released
      by_cases empty : this.tpMsgData.1 = none <;> simp [empty]
    simp [refusal_ne_zero, freeIn_eq, processFreed, nothingLeft,
      settled]
  · obtain ⟨kernel, _, sent⟩ := send_accepted refused
    simp [sent]

/-- The process in which `Receive` asks the kernel. -/
def entered
    (process : Process Object Queue Obj)
    (owner : Object) :
    Process Object Queue Obj :=
  if (process.object owner).msgQueueFd ≤ 0 then
    process
  else
    { process with
      object := Function.update process.object owner
        { process.object owner with msgQueueNotInUse := false } }

/-- The code of a `Receive` that returns before its `mq_receive`. -/
def gate
    (fd : Int32)
    (isPolling : Bool)
    (answers : Answers) :
    Option Int32 :=
  if fd ≤ 0 then
    some errMsgQueueSendHandleIsNull
  else if isPolling then
    match answers.select with
    | .failed => some errMsgQueueSelectFailed
    | .notOurQueue => some errMsgQueueSelectButNotOurQueue
    | .readable => none
  else
    none

/-- `Receive` is its gate and then `mq_receive`. -/
theorem receive_eq
    (process : Process Object Queue Obj)
    (owner : Object)
    (pclsMsg : MesgT)
    (isPolling : Bool)
    (answers : Answers) :
    receive process owner pclsMsg isPolling answers =
      match gate (process.object owner).msgQueueFd isPolling
          answers with
      | some rc =>
          (entered process owner, pclsMsg, rc)
      | none =>
          receiveInto (entered process owner) owner pclsMsg answers := by
  unfold receive gate entered
  by_cases noHandle : (process.object owner).msgQueueFd ≤ 0
  · simp [noHandle]
  · cases isPolling <;> cases answers.select <;> simp [noHandle]

/-- `Receive` touches no block and no object. -/
theorem receive_heap
    (process : Process Object Queue Obj)
    (owner : Object)
    (pclsMsg : MesgT)
    (isPolling : Bool)
    (answers : Answers) :
    (receive process owner pclsMsg isPolling answers).1.heap =
      process.heap := by
  have enters : (entered process owner).heap = process.heap := by
    unfold entered
    split <;> rfl
  rw [receive_eq]
  split
  · exact enters
  · unfold receiveInto
    split <;> exact enters

/-- A call changes the heap by the uses that it shows. -/
theorem step_heap
    (world : World Name Object Queue Obj)
    (use : Use Name Object) :
    (step world use).1.process.heap =
      (step world use).2.accesses.foldl Access.run
        world.process.heap := by
  have sendHeap
      (fd : Int32)
      (this : Name)
      (s32Prio : UInt32)
      (accepts : Bool) :
      (step world (.send fd this s32Prio accepts)).1.process.heap =
        (step world (.send fd this s32Prio accepts)).2.accesses.foldl
          Access.run world.process.heap := by
    by_cases refused :
        Refused world.process.kernel fd (world.mesg this)
          s32Prio accepts
    · simp [step, World.put, sendSeen, send_refused refused,
        refusal_ne_zero, processFreed]
    · obtain ⟨kernel, _, sent⟩ := send_accepted refused
      simp [step, World.put, sendSeen, sent]
  cases use with
  | get this getter => rfl
  | set this setter => rfl
  | copyMsg this clsMsg allocation =>
      simp only [step, World.put, World.withHeap, copyMsg_eq]
  | copyConstruct this clsMsg allocation =>
      simp only [step, World.put, World.withHeap, copyConstruct,
        copyMsg_eq]
  | assign this clsMsg allocation =>
      simp only [step]
      split
      · rfl
      · simp only [World.put, World.withHeap, assign, copyMsg_eq]
  | free this =>
      simp only [step, World.put, freeIn_eq, processFreed]
  | send fd this s32Prio accepts =>
      exact sendHeap fd this s32Prio accepts
  | sendMsg fd this s32Prio accepts =>
      have sent := sendHeap fd this s32Prio accepts
      simp only [step] at sent ⊢
      rw [sendMsg_eq_send]
      exact sent
  | receive owner this isPolling answers =>
      simp [step, World.put, receive_heap]

end Steps

end WkcRuntime.MesgConstruct
