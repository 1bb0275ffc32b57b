import WkcRuntime.MesgContents
import WkcRuntime.MesgOwnership

namespace WkcRuntime.MesgValues

open Mesg MessageQueue MsgQueue

/-!
# Messages behind pointers refine messages as values

`view` reads a system of messages, queues and a heap as values, `erase` drops
the addresses from a call.  `Means` says what one call is worth: the messages
outside the hand are untouched, the queues and the message in hand say what the
values say.  Each function gets one such lemma; a step is then one `put`, and a
run of the code is a run of the values.
-/

/-- The setters of `Mesg` for the header. -/
def setHeader (this : MesgT) : HeaderSetter → MesgT
  | .msgId ulMsgId =>
      this.msgId ulMsgId
  | .msgReqLong slData =>
      this.msgReqLong slData
  | .cbId ulCbId =>
      this.cbId ulCbId
  | .seqCnt u32SeqCnt =>
      this.seqCnt u32SeqCnt

/-- One call of the code: a setter, or a call that moves what a message holds. -/
inductive Operation (Slot Object Obj : Type) where
  | call (action : Action Slot Object Obj)
  | set (slot : Slot) (setter : HeaderSetter)

/-- The call without its addresses. -/
def erase
    {Slot Object Obj : Type} :
    Operation Slot Object Obj → Call Slot Object Obj
  | .call (.construct slot) =>
      .construct slot
  | .call (.copyConstruct slot source _ allocation) =>
      .copyConstruct slot source allocation.block.isSome
  | .call (.assign slot source allocation) =>
      .assign slot source allocation.block.isSome
  | .call (.free slot) =>
      .free slot
  | .call (.handData slot _ bytes size) =>
      .handData slot bytes size
  | .call (.handObj slot _ value) =>
      .handObj slot value
  | .call (.destroy slot) =>
      .destroy slot
  | .call (.send slot fd prio accepts) =>
      .send slot fd prio accepts
  | .call (.sendMsg slot fd prio accepts) =>
      .send slot fd prio accepts
  | .call (.receive slot owner isPolling answers) =>
      .receive slot owner isPolling answers
  | .call (.dump fd rounds) =>
      .dump fd rounds
  | .set slot setter =>
      .set slot setter

section Calls

variable {Object Queue Obj : Type}

/-- The queues with what their messages say. -/
def queuesOf
    (process : Process Object Queue Obj) :
    Kernel Queue (Content Obj) :=
  process.kernel.map (contentOf process.heap)

/-- What a call on one message is worth in values. -/
structure Means
    (rest restObjs : Nat → Nat)
    (before after : Process Object Queue Obj)
    (entry : Option MesgT)
    (kernel : Kernel Queue (Content Obj))
    (content : Option (Content Obj)) :
    Prop where
  untouched :
    Untouched rest restObjs before.heap after.heap
  queues :
    queuesOf after = kernel
  content :
    entry.map (contentOf after.heap) = content
  msgQueueFd :
    ∀ owner,
      (after.object owner).msgQueueFd = (before.object owner).msgQueueFd

variable {rest restObjs : Nat → Nat}
variable {process : Process Object Queue Obj}

/-- A call that leaves heap and queues alone. -/
theorem Means.of_same
    {next : Process Object Queue Obj}
    {entry : Option MesgT}
    {content : Option (Content Obj)}
    (sameHeap : next.heap = process.heap)
    (sameKernel : next.kernel = process.kernel)
    (sameFd :
      ∀ owner,
        (next.object owner).msgQueueFd =
          (process.object owner).msgQueueFd)
    (reads : entry.map (contentOf process.heap) = content) :
    Means rest restObjs process next entry (queuesOf process) content where
  untouched := by
    rw [sameHeap]
    exact Untouched.refl _
  queues := by
    rw [queuesOf, sameHeap, sameKernel]
    rfl
  content := by
    rw [sameHeap]
    exact reads
  msgQueueFd := sameFd

/-- One call after another. -/
theorem Means.trans
    {middle after : Process Object Queue Obj}
    {entry last : Option MesgT}
    {kernel final : Kernel Queue (Content Obj)}
    {content reads : Option (Content Obj)}
    (first : Means rest restObjs process middle entry kernel content)
    (second : Means rest restObjs middle after last final reads) :
    Means rest restObjs process after last final reads where
  untouched := first.untouched.trans second.untouched
  queues := second.queues
  content := second.content
  msgQueueFd := fun owner =>
    (second.msgQueueFd owner).trans (first.msgQueueFd owner)

variable [Fintype Queue]

/-- What is untouched for the queued messages too leaves the queues as values. -/
theorem map_contentOf_of_untouched
    {kernel : Kernel Queue MesgT}
    {before after : Heap Obj}
    (untouched :
      Untouched
        (rest + queuedHolders MesgT.dataPtr kernel)
        (restObjs + queuedHolders MesgT.objPtr kernel)
        before after) :
    kernel.map (contentOf after) = kernel.map (contentOf before) := by
  apply Kernel.map_congr
  intro queue entry member
  have queued : Queued kernel entry.2 := ⟨queue, entry, member, rfl⟩
  apply untouched.contentOf_eq
  · intro pointer points
    exact Nat.add_pos_right _ (queuedHolders_pos queued points)
  · intro pointer points
    exact Nat.add_pos_right _ (queuedHolders_pos queued points)

/-- A call that changes the heap alone. -/
theorem Means.of_untouched
    {heap : Heap Obj}
    {entry : Option MesgT}
    {content : Option (Content Obj)}
    (untouched :
      Untouched
        (rest + queuedHolders MesgT.dataPtr process.kernel)
        (restObjs + queuedHolders MesgT.objPtr process.kernel)
        process.heap heap)
    (reads : entry.map (contentOf heap) = content) :
    Means rest restObjs process { process with heap } entry
      (queuesOf process) content where
  untouched :=
    ⟨fun pointer held => untouched.block pointer (Nat.add_pos_left held _),
      fun pointer held => untouched.obj pointer (Nat.add_pos_left held _)⟩
  queues := map_contentOf_of_untouched untouched
  content := reads
  msgQueueFd := fun _ => rfl

variable {this clsMsg : MesgT}

/-- `Free` takes payload and object off the message in hand. -/
theorem means_freeIn
    (inHand : InHand rest restObjs process (some this)) :
    Means rest restObjs process (freeIn process this).1
      (some (freeIn process this).2)
      (queuesOf process)
      (some (contentOf process.heap this).released) := by
  apply Means.of_untouched (untouched_free inHand.ledger)
  exact congrArg some (contentOf_free (live_of_ledger inHand.ledger))

/-- `CopyMsg` makes the message in hand say what its source says. -/
theorem means_copyMsg
    {allocation : Allocation}
    (inHand : InHand rest restObjs process (some this))
    (heldData :
      ∀ pointer, clsMsg.dataPtr = some pointer → 0 < rest pointer)
    (heldObj :
      ∀ pointer, clsMsg.objPtr = some pointer → 0 < restObjs pointer)
    (intact : Intact process.heap clsMsg)
    (fresh : allocation.Fresh (Mesg.free process.heap this).1) :
    let copied := copyMsg allocation process.heap this clsMsg
    Means rest restObjs process { process with heap := copied.1 }
      (some copied.2.1)
      (queuesOf process)
      (some
        ((contentOf process.heap clsMsg).copy
          allocation.block.isSome)) := by
  have dataAside := fun pointer points =>
    Nat.add_pos_left (heldData pointer points)
      (queuedHolders MesgT.dataPtr process.kernel pointer)
  have objAside := fun pointer points =>
    Nat.add_pos_left (heldObj pointer points)
      (queuedHolders MesgT.objPtr process.kernel pointer)
  apply Means.of_untouched
  · exact untouched_copyMsg inHand.ledger dataAside intact fresh
  · exact congrArg some
      (contentOf_copyMsg inHand.ledger dataAside objAside intact)

/-- A payload of the caller is what the message in hand says from then on. -/
theorem means_handData
    {pointer : BlockId}
    {bytes : List UInt8}
    {size : Int32}
    (inHand : InHand rest restObjs process (some this))
    (fresh : process.heap.block pointer = none) :
    Means rest restObjs process
      { process with
        heap :=
          { process.heap with
            block := Function.update process.heap.block
              pointer (some bytes) } }
      (some (this.msgData (some pointer) size))
      (queuesOf process)
      (some
        { contentOf process.heap this with
          bytes := some (bytes.take size.toNatClampNeg)
          size }) := by
  apply Means.of_untouched
  · refine ⟨?_, fun _ _ => rfl⟩
    intro other held
    have different :=
      inHand.ledger.block.ne_of_held (Nat.add_pos_left held _) fresh
    exact Function.update_of_ne different _ _
  · simp [contentOf, MesgT.dataPtr, MesgT.objPtr, MesgT.msgData]

/-- The same for an object of the caller. -/
theorem means_handObj
    {pointer : ObjId}
    {value : Obj}
    (inHand : InHand rest restObjs process (some this))
    (fresh : process.heap.obj pointer = none) :
    Means rest restObjs process
      { process with
        heap :=
          { process.heap with
            obj := Function.update process.heap.obj
              pointer (some value) } }
      (some (this.msgObjPtr (some pointer)))
      (queuesOf process)
      (some
        { contentOf process.heap this with object := some value }) := by
  apply Means.of_untouched
  · refine ⟨fun _ _ => rfl, ?_⟩
    intro other held
    have different :=
      inHand.ledger.obj.ne_of_held (Nat.add_pos_left held _) fresh
    exact Function.update_of_ne different _ _
  · simp [contentOf, MesgT.dataPtr, MesgT.objPtr, MesgT.msgObjPtr]

omit [Fintype Queue] in
/-- A message without pointers says that it holds nothing. -/
theorem holdsNothing_contentOf
    (heap : Heap Obj)
    (nothing : this.HoldsNothing) :
    (contentOf heap this).HoldsNothing := by
  have noData : this.dataPtr = none := nothing.1
  have noObj : this.objPtr = none := nothing.2
  constructor
  · simp only [contentOf, noData, Option.bind_none]
  · simp only [contentOf, noObj, Option.bind_none]

variable [DecidableEq Object] [DecidableEq Queue]

omit [Fintype Queue] [DecidableEq Queue] in
/-- Counting a sent message changes no descriptor. -/
theorem countSent_msgQueueFd
    (process : Process Object Queue Obj)
    (fd : Int32)
    (owner : Object) :
    ((countSent process fd).object owner).msgQueueFd =
      (process.object owner).msgQueueFd := by
  unfold countSent
  split
  · rfl
  · next counted _ =>
      by_cases same : owner = counted
      · subst owner
        simp only [Function.update_self]
      · simp only [Function.update_of_ne same]

/-- `Send` moves the message in hand into its queue. -/
theorem means_send
    (inHand : InHand rest restObjs process (some this))
    (fd : Int32)
    (prio : UInt32)
    (accepts : Bool) :
    let sent := MsgQueue.send process fd this prio accepts
    let value :=
      sendValue (queuesOf process) fd (contentOf process.heap this) prio
        accepts
    Means rest restObjs process sent.1 (some sent.2.1)
      value.1 (some value.2) := by
  have mapped :=
    Kernel.mqSend_map (contentOf process.heap) process.kernel fd this prio
      accepts
  simp only [MsgQueue.send, sendValue]
  by_cases badHandle : fd ≤ 0
  · simp only [badHandle, if_true]
    exact means_freeIn inHand
  · simp only [badHandle, if_false, queuesOf, mapped]
    cases process.kernel.mqSend fd this prio accepts with
    | none =>
        exact means_freeIn inHand
    | some kernel =>
        refine ⟨?_, ?_, ?_, ?_⟩
        · rw [countSent_heap]
          exact Untouched.refl _
        · simp only [queuesOf, countSent_heap, countSent_kernel]
          rfl
        · rw [countSent_heap]
          rfl
        · exact countSent_msgQueueFd _ fd

omit [Fintype Queue] [DecidableEq Object] in
/-- What was sent holds nothing. -/
theorem holdsNothing_sendValue
    (kernel : Kernel Queue (Content Obj))
    (fd : Int32)
    (content : Content Obj)
    (prio : UInt32)
    (accepts : Bool) :
    (sendValue kernel fd content prio accepts).2.HoldsNothing := by
  unfold sendValue
  split
  · exact ⟨rfl, rfl⟩
  · split <;> exact ⟨rfl, rfl⟩

/-- `SendMsg` is worth a `Send`: its second release finds nothing. -/
theorem means_sendMsg
    (inHand : InHand rest restObjs process (some this))
    (fd : Int32)
    (prio : UInt32)
    (accepts : Bool) :
    let sent := MsgQueue.sendMsg process fd this prio accepts
    let value :=
      sendValue (queuesOf process) fd (contentOf process.heap this) prio
        accepts
    Means rest restObjs process sent.1 (some sent.2.1)
      value.1 (some value.2) := by
  have sentMeans := means_send inHand fd prio accepts
  obtain ⟨afterSend, _, _⟩ := inHand.sendCall fd prio accepts
  simp only [MsgQueue.sendMsg]
  split
  · have freedMeans := means_freeIn afterSend
    have reads := Option.some.inj sentMeans.content
    have nothing :=
      holdsNothing_sendValue (queuesOf process) fd
        (contentOf process.heap this) prio accepts
    rw [reads, sentMeans.queues, nothing.released_eq] at freedMeans
    exact sentMeans.trans freedMeans
  · exact sentMeans

omit [Fintype Queue] in
/-- `mq_receive` brings the first message of its queue into the hand. -/
theorem means_receiveInto
    (this : MesgT)
    (owner : Object)
    (answers : Answers) :
    let received := receiveInto process owner this answers
    let value :=
      takeValue (queuesOf process) (process.object owner).msgQueueFd
        (contentOf process.heap this) answers.receive
    Means rest restObjs process received.1 (some received.2.1)
      value.1 (some value.2) := by
  have mapped :=
    Kernel.mqReceive_map (contentOf process.heap) process.kernel
      (process.object owner).msgQueueFd answers.receive
  simp only [receiveInto, takeValue, queuesOf, mapped]
  cases process.kernel.mqReceive
      (process.object owner).msgQueueFd answers.receive with
  | none =>
      exact Means.of_same rfl rfl (fun _ => rfl) rfl
  | some taken =>
      obtain ⟨msg, kernel⟩ := taken
      refine ⟨Untouched.refl _, rfl, rfl, ?_⟩
      intro other
      by_cases same : other = owner
      · subst other
        simp only [countReceived, Function.update_self]
      · simp only [countReceived, Function.update_of_ne same]

omit [Fintype Queue] in
/-- `Receive` is worth what its descriptor and `select` let through. -/
theorem means_receive
    (owner : Object)
    (isPolling : Bool)
    (answers : Answers) :
    let received := MsgQueue.receive process owner this isPolling answers
    let value :=
      receiveValue (queuesOf process) (process.object owner).msgQueueFd
        (contentOf process.heap this) isPolling answers
    Means rest restObjs process received.1 (some received.2.1)
      value.1 (some value.2) := by
  simp only [MsgQueue.receive, receiveValue]
  by_cases badHandle : (process.object owner).msgQueueFd ≤ 0
  · simp only [badHandle, if_true, Int32.not_lt.mpr badHandle, false_and,
      if_false]
    exact Means.of_same rfl rfl (fun _ => rfl) rfl
  · have opened : 0 < (process.object owner).msgQueueFd :=
      Int32.not_le.mp badHandle
    let inUse : Process Object Queue Obj :=
      { process with
        object := Function.update process.object owner
          { process.object owner with msgQueueNotInUse := false } }
    have sameFd :
        ∀ other,
          (inUse.object other).msgQueueFd =
            (process.object other).msgQueueFd := by
      intro other
      by_cases same : other = owner
      · subst other
        simp only [inUse, Function.update_self]
      · simp only [inUse, Function.update_of_ne same]
    have refused :
        Means rest restObjs process inUse (some this)
          (queuesOf process) (some (contentOf process.heap this)) :=
      Means.of_same rfl rfl sameFd rfl
    have taken :=
      refused.trans (means_receiveInto this owner answers)
    rw [sameFd owner] at taken
    simp only [badHandle, if_false, opened, true_and]
    cases isPolling with
    | false =>
        exact taken
    | true =>
        cases selected : answers.select with
        | failed =>
            exact refused
        | notOurQueue =>
            exact refused
        | readable =>
            exact taken

omit [DecidableEq Object] in
/-- `DumpMsgQueue` drops messages and leaves every hand alone. -/
theorem means_dump
    (inHand : InHand rest restObjs process none)
    (fd : Int32)
    (rounds : Nat) :
    Means rest restObjs process (dumpMsgQueue fd rounds process) none
      (dumpValues fd rounds (queuesOf process)) none := by
  induction rounds generalizing process with
  | zero =>
      exact Means.of_same rfl rfl (fun _ => rfl) rfl
  | succ rounds inductionHypothesis =>
      have mapped :=
        Kernel.mqReceive_map (contentOf process.heap) process.kernel fd true
      simp only [dumpMsgQueue, dumpValues, queuesOf, mapped]
      cases taken : process.kernel.mqReceive fd true with
      | none =>
          exact Means.of_same rfl rfl (fun _ => rfl) rfl
      | some outcome =>
          obtain ⟨msg, kernel⟩ := outcome
          have received := inHand.receive rfl rfl taken
          obtain ⟨freed, nothing, _⟩ := received.freeIn
          have dropped := means_freeIn received
          have later :=
            inductionHypothesis
              (freed.of_nothing _ nothing.1 nothing.2 rfl rfl)
          rw [dropped.queues] at later
          have start :
              Means rest restObjs process { process with kernel } none
                (queuesOf { process with kernel }) none :=
            ⟨Untouched.refl _, rfl, rfl, fun _ => rfl⟩
          exact (start.trans dropped).trans later

end Calls

section Runs

variable {Slot Object Queue Obj : Type}

/-- A system of messages, queues and a heap, read as values. -/
def view
    (system : System Slot Object Queue Obj) :
    Values Slot Object Queue Obj where
  mesg := fun slot =>
    (system.mesg slot).map (contentOf system.process.heap)
  kernel := queuesOf system.process
  msgQueueFd := fun owner => (system.process.object owner).msgQueueFd

variable [DecidableEq Slot] [DecidableEq Object] [DecidableEq Queue]

/-- One call of the code on the system. -/
def operate?
    (system : System Slot Object Queue Obj) :
    Operation Slot Object Obj → Option (System Slot Object Queue Obj)
  | .call action =>
      MsgQueue.step? system action
  | .set slot setter =>
      (system.mesg slot).map fun this =>
        system.put system.process slot (some (setHeader this setter))

/-- The calls and the setters, from a start without messages. -/
def operations :
    Machine
      (System Slot Object Queue Obj)
      (Operation Slot Object Obj) where
  Initial := MsgQueue.machine.Initial
  step? := operate?

/-- A start without messages is one without values. -/
theorem initial_view
    {system : System Slot Object Queue Obj}
    (initial : operations.Initial system) :
    machine.Initial (view system) := by
  obtain ⟨_, noMesg, noQueued⟩ := initial
  refine ⟨?_, ?_⟩
  · intro slot
    simp only [view, noMesg slot, Option.map_none]
  · intro queue
    simp only [view, queuesOf, Kernel.map_queue, noQueued queue,
      List.map_nil]

variable [Fintype Slot] [Fintype Queue]

omit [DecidableEq Object] [DecidableEq Queue] in
/-- A setter leaves what its message holds. -/
theorem owned_set
    {system : System Slot Object Queue Obj}
    {slot : Slot}
    {this : MesgT}
    (owned : Owned system)
    (stored : system.mesg slot = some this)
    (setter : HeaderSetter) :
    Owned (system.put system.process slot
      (some (setHeader this setter))) := by
  have inHand := owned.inHand stored
  have sameData : (setHeader this setter).tpMsgData = this.tpMsgData := by
    cases setter <;> rfl
  have sameObj : (setHeader this setter).pclsMsgObj = this.pclsMsgObj := by
    cases setter <;> rfl
  refine owned.put ⟨?_, ?_, inHand.queued⟩ (Spares.refl _ _)
  · have ledger := inHand.ledger
    simp only [Option.bind_some, MesgT.dataPtr, MesgT.objPtr] at ledger ⊢
    rw [sameData, sameObj]
    exact ledger
  · rintro msg ⟨rfl⟩
    have intact := inHand.intact this rfl
    simp only [Intact, MesgT.dataPtr] at intact ⊢
    rw [sameData]
    exact intact

/-- Every operation keeps one owner for each payload and object. -/
theorem owned_operate
    {system next : System Slot Object Queue Obj}
    {operation : Operation Slot Object Obj}
    (owned : Owned system)
    (stepped : operate? system operation = some next) :
    Owned next := by
  cases operation with
  | call action =>
      exact owned_step owned stepped
  | set slot setter =>
      simp only [operate?, Option.map_eq_some_iff] at stepped
      obtain ⟨this, stored, rfl⟩ := stepped
      exact owned_set owned stored setter

omit [DecidableEq Slot] [DecidableEq Object] [DecidableEq Queue]
  [Fintype Queue] in
/-- Constructed messages say what they said if nothing they hold was touched. -/
theorem map_contentOf_mesg
    {mesg : Slot → Option MesgT}
    {before after : Heap Obj}
    (untouched :
      Untouched
        (slotHolders MesgT.dataPtr mesg)
        (slotHolders MesgT.objPtr mesg)
        before after)
    (slot : Slot) :
    (mesg slot).map (contentOf after) =
      (mesg slot).map (contentOf before) := by
  cases stored : mesg slot with
  | none =>
      rfl
  | some msg =>
      have same :=
        untouched.contentOf_eq
          (fun _ points => slotHolders_pos slot msg stored points)
          (fun _ points => slotHolders_pos slot msg stored points)
      exact congrArg some same

omit [DecidableEq Object] [DecidableEq Queue] [Fintype Queue] in
/-- The message in hand put back into its slot, in values. -/
theorem view_put
    {system : System Slot Object Queue Obj}
    {slot : Slot}
    {process : Process Object Queue Obj}
    {entry : Option MesgT}
    {kernel : Kernel Queue (Content Obj)}
    {content : Option (Content Obj)}
    (means :
      Means
        (system.others slot MesgT.dataPtr)
        (system.others slot MesgT.objPtr)
        system.process process entry kernel content) :
    (view system).put kernel slot content =
      view (system.put process slot entry) := by
  simp only [view, Values.put, Values.mk.injEq]
  refine ⟨?_, means.queues.symm, ?_⟩
  · funext other
    by_cases same : other = slot
    · subst other
      simp only [System.put, Function.update_self, means.content]
    · have unchanged := map_contentOf_mesg means.untouched other
      simp only [Function.update_of_ne same] at unchanged
      simp only [System.put, Function.update_of_ne same, unchanged]
  · funext owner
    exact (means.msgQueueFd owner).symm

omit [DecidableEq Slot] [DecidableEq Object] [DecidableEq Queue]
  [Fintype Slot] [Fintype Queue] in
/-- What the message of a slot says. -/
theorem view_mesg
    {system : System Slot Object Queue Obj}
    {slot : Slot}
    {entry : Option MesgT}
    (stored : system.mesg slot = entry) :
    (view system).mesg slot =
      entry.map (contentOf system.process.heap) := by
  subst stored
  rfl

omit [DecidableEq Object] [DecidableEq Queue] in
/-- A copy of the message of another slot, in values. -/
theorem view_copy
    {system : System Slot Object Queue Obj}
    {slot source : Slot}
    {this clsMsg : MesgT}
    {allocation : Allocation}
    (owned : Owned system)
    (different : source ≠ slot)
    (sourceStored : system.mesg source = some clsMsg)
    (inHand :
      InHand
        (system.others slot MesgT.dataPtr)
        (system.others slot MesgT.objPtr)
        system.process (some this))
    (fresh :
      allocation.Fresh (Mesg.free system.process.heap this).1) :
    let copied := copyMsg allocation system.process.heap this clsMsg
    (view system).put (view system).kernel slot
        (some
          ((contentOf system.process.heap clsMsg).copy
            allocation.block.isSome)) =
      view (system.put { system.process with heap := copied.1 }
        slot (some copied.2.1)) := by
  have aside :
      Function.update system.mesg slot none source = some clsMsg := by
    rw [Function.update_of_ne different, sourceStored]
  apply view_put
  apply means_copyMsg inHand _ _ (owned.slots source clsMsg sourceStored)
    fresh
  · intro pointer points
    exact slotHolders_pos source clsMsg aside points
  · intro pointer points
    exact slotHolders_pos source clsMsg aside points

omit [Fintype Queue] [DecidableEq Object] in
/-- A setter, in values. -/
theorem view_set
    {system : System Slot Object Queue Obj}
    {slot : Slot}
    {this : MesgT}
    (stored : system.mesg slot = some this)
    (setter : HeaderSetter) :
    step? (view system) (.set slot setter) =
      some (view (system.put system.process slot
        (some (setHeader this setter)))) := by
  simp only [step?, view_mesg stored, Option.map_some]
  apply congrArg some
  apply view_put
  apply Means.of_same rfl rfl (fun _ => rfl)
  cases setter <;> rfl

omit [DecidableEq Slot] [DecidableEq Object] in
/-- `DumpMsgQueue`, in values. -/
theorem view_dump
    {system : System Slot Object Queue Obj}
    (owned : Owned system)
    (fd : Int32)
    (rounds : Nat) :
    { view system with
        kernel := dumpValues fd rounds (view system).kernel } =
      view { system with
        process := dumpMsgQueue fd rounds system.process } := by
  have dumped := means_dump owned.emptyHand fd rounds
  simp only [view, Values.mk.injEq]
  refine ⟨?_, dumped.queues.symm, ?_⟩
  · funext slot
    exact (map_contentOf_mesg dumped.untouched slot).symm
  · funext owner
    exact (dumped.msgQueueFd owner).symm

/-- Every call of the code is the same call on values. -/
theorem view_step
    {system next : System Slot Object Queue Obj}
    {action : Action Slot Object Obj}
    (owned : Owned system)
    (stepped : MsgQueue.step? system action = some next) :
    step? (view system) (erase (.call action)) = some (view next) := by
  cases action with
  | construct slot =>
      cases stored : system.mesg slot with
      | some this =>
          simp [MsgQueue.step?, stored] at stepped
      | none =>
          simp only [MsgQueue.step?, stored, Option.some.injEq] at stepped
          subst next
          simp only [erase, step?, view_mesg stored, Option.map_none]
          exact congrArg some
            (view_put (Means.of_same rfl rfl (fun _ => rfl) rfl))
  | copyConstruct slot source storage allocation =>
      cases stored : system.mesg slot with
      | some this =>
          simp [MsgQueue.step?, stored] at stepped
      | none =>
          cases sourceStored : system.mesg source with
          | none =>
              simp [MsgQueue.step?, stored, sourceStored] at stepped
          | some clsMsg =>
              simp only [MsgQueue.step?, stored, sourceStored,
                Option.ite_none_right_eq_some,
                Option.some.injEq] at stepped
              obtain ⟨fresh, rfl⟩ := stepped
              have different : source ≠ slot := by
                rintro rfl
                simp [stored] at sourceStored
              simp only [erase, step?, view_mesg stored,
                view_mesg sourceStored, Option.map_none, Option.map_some]
              exact congrArg some
                (view_copy owned different sourceStored
                  ((owned.inHand stored).of_nothing _ rfl rfl rfl rfl)
                  fresh)
  | assign slot source allocation =>
      cases stored : system.mesg slot with
      | none =>
          simp [MsgQueue.step?, stored] at stepped
      | some this =>
          cases sourceStored : system.mesg source with
          | none =>
              simp [MsgQueue.step?, stored, sourceStored] at stepped
          | some clsMsg =>
              simp only [erase, step?, view_mesg stored,
                view_mesg sourceStored, Option.map_some]
              by_cases same : slot = source
              · simp only [MsgQueue.step?, sourceStored, same, if_true,
                  Option.some.injEq] at stepped
                subst next
                simp only [same, if_true]
              · simp only [MsgQueue.step?, stored, sourceStored, same,
                  if_false, Option.ite_none_right_eq_some,
                  Option.some.injEq] at stepped
                obtain ⟨fresh, rfl⟩ := stepped
                simp only [same, if_false]
                exact congrArg some
                  (view_copy owned (Ne.symm same) sourceStored
                    (owned.inHand stored) fresh)
  | free slot =>
      simp only [MsgQueue.step?, Option.map_eq_some_iff] at stepped
      obtain ⟨this, stored, rfl⟩ := stepped
      simp only [erase, step?, view_mesg stored, Option.map_some]
      exact congrArg some (view_put (means_freeIn (owned.inHand stored)))
  | handData slot pointer bytes size =>
      cases stored : system.mesg slot with
      | none =>
          simp [MsgQueue.step?, stored] at stepped
      | some this =>
          cases live : system.process.heap.block pointer with
          | some old =>
              simp [MsgQueue.step?, stored, live] at stepped
          | none =>
              simp only [MsgQueue.step?, stored, live,
                Option.ite_none_right_eq_some,
                Option.some.injEq] at stepped
              obtain ⟨⟨noData, sized, fits⟩, rfl⟩ := stepped
              have noBytes :
                  (contentOf system.process.heap this).bytes = none := by
                simp only [contentOf, noData, Option.bind_none]
              simp only [erase, step?, view_mesg stored, Option.map_some,
                Option.bind_some, noBytes, sized, fits, and_self, if_true]
              exact congrArg some
                (view_put (means_handData (owned.inHand stored) live))
  | handObj slot pointer value =>
      cases stored : system.mesg slot with
      | none =>
          simp [MsgQueue.step?, stored] at stepped
      | some this =>
          cases live : system.process.heap.obj pointer with
          | some old =>
              simp [MsgQueue.step?, stored, live] at stepped
          | none =>
              simp only [MsgQueue.step?, stored, live,
                Option.ite_none_right_eq_some,
                Option.some.injEq] at stepped
              obtain ⟨noObj, rfl⟩ := stepped
              have noObject :
                  (contentOf system.process.heap this).object = none := by
                simp only [contentOf, noObj, Option.bind_none]
              simp only [erase, step?, view_mesg stored, Option.map_some,
                Option.bind_some, noObject, Option.isNone_none, if_true]
              exact congrArg some
                (view_put (means_handObj (owned.inHand stored) live))
  | destroy slot =>
      cases stored : system.mesg slot with
      | none =>
          simp [MsgQueue.step?, stored] at stepped
      | some this =>
          simp only [MsgQueue.step?, stored,
            Option.ite_none_right_eq_some, Option.some.injEq] at stepped
          obtain ⟨nothing, rfl⟩ := stepped
          simp only [erase, step?, view_mesg stored, Option.map_some,
            Option.bind_some,
            holdsNothing_contentOf system.process.heap nothing, if_true]
          exact congrArg some
            (view_put (Means.of_same rfl rfl (fun _ => rfl) rfl))
  | send slot fd prio accepts =>
      simp only [MsgQueue.step?, Option.map_eq_some_iff] at stepped
      obtain ⟨this, stored, rfl⟩ := stepped
      simp only [erase, step?, view_mesg stored, Option.map_some]
      exact congrArg some
        (view_put (means_send (owned.inHand stored) fd prio accepts))
  | sendMsg slot fd prio accepts =>
      simp only [MsgQueue.step?, Option.map_eq_some_iff] at stepped
      obtain ⟨this, stored, rfl⟩ := stepped
      simp only [erase, step?, view_mesg stored, Option.map_some]
      exact congrArg some
        (view_put (means_sendMsg (owned.inHand stored) fd prio accepts))
  | receive slot owner isPolling answers =>
      cases stored : system.mesg slot with
      | none =>
          simp [MsgQueue.step?, stored] at stepped
      | some this =>
          simp only [MsgQueue.step?, stored,
            Option.ite_none_right_eq_some, Option.some.injEq] at stepped
          obtain ⟨nothing, rfl⟩ := stepped
          simp only [erase, step?, view_mesg stored, Option.map_some,
            Option.bind_some,
            holdsNothing_contentOf system.process.heap nothing, if_true]
          exact congrArg some
            (view_put (means_receive owner isPolling answers))
  | dump fd rounds =>
      simp only [MsgQueue.step?, Option.some.injEq] at stepped
      subst next
      simp only [erase, step?]
      exact congrArg some (view_dump owned fd rounds)

/-- One process with one open queue, before any message. -/
def messageStart : System Bool Unit Unit Unit where
  process := trafficStart.process
  mesg := fun _ => none

/--
Fill a message, send a copy of it, let the allocator refuse the payload of the
next copy, lose that one at a bad descriptor, and receive the first.
-/
def messageOperations : List (Operation Bool Unit Unit) :=
  [.call (.construct false),
    .set false (.msgId 5),
    .call (.handData false 7 [1, 2, 3] 2),
    .call (.handObj false 3 ()),
    .call (.copyConstruct true false mesg ⟨some 8, 4⟩),
    .call (.send true 1 0 true),
    .call (.assign true false ⟨none, 5⟩),
    .call (.sendMsg true 0 0 true),
    .call (.free false),
    .call (.receive true () true ⟨.readable, true, true⟩)]

end Runs

end WkcRuntime.MesgValues
