import WkcRuntime.MsgQueueTable
import WkcRuntime.ThreadObjSource

namespace WkcRuntime.MsgQueue

open Mesg MessageQueue
open ThreadObj (errThreadQueueNotInitialized msgIdStopThread)

/-!
# Opening a queue again

`MsgQueue` objects and the `ThreadWithMsgQueue` objects around them, called one
after the other.  `Open` sets the members before `mq_open` has answered and
takes its answer as the descriptor even if it is `-1`; `Init` raises
`m_initialized`, and nothing lowers it.  An open that fails leaves an object as
it was only if the object already looked as the failure leaves it, and a raised
flag stands for a descriptor that `Send` and `Receive` accept as long as no such
failure, no descriptor `0` and no `Close` of that number gets in between.
-/

/-- `MESG_PRIO_LOW`. -/
def mesgPrioLow : UInt32 :=
  0

/--
The queues of a process and, for those that are the `m_msgQueue` of a
`ThreadWithMsgQueue`, its `m_initialized`.
-/
structure QueueThreads (Object Obj : Type) where
  registry : Registry Object Obj
  initialized : Object → Bool

/-- A call on a queue or on the thread object around it. -/
inductive ThreadCall (Object : Type) where
  | queue (operation : Operation Object)
  | init
      (this : Object)
      (ps8MsgQueueName : String)
      (lMsgQueueSize : Int64)
      (answer : Option Int32)
  | sendMsg
      (this : Object)
      (pMsg : MesgT)
      (accepts : Bool)
  | stopThread (this : Object) (accepts : Bool)

namespace QueueThreads

section Functions

variable {Object Obj : Type} [DecidableEq Object]

omit [DecidableEq Object] in
/-- Replace what a call on the queue of a thread changed. -/
def withProcess
    (threads : QueueThreads Object Obj)
    (process : Process Object Nat Obj) :
    QueueThreads Object Obj :=
  { threads with
    registry := MsgQueue.withProcess threads.registry process }

omit [DecidableEq Object] in
/-- The name that `Init` opens: the given one and the address of the object. -/
def queueName
    (address : Object → Int)
    (this : Object)
    (ps8MsgQueueName : String) :
    String :=
  ps8MsgQueueName ++ toString (address this)

/-- `ThreadWithMsgQueue::Init`. -/
def init
    (address : Object → Int)
    (threads : QueueThreads Object Obj)
    (this : Object)
    (ps8MsgQueueName : String)
    (lMsgQueueSize : Int64)
    (answer : Option Int32) :
    QueueThreads Object Obj × Int32 :=
  let opened :=
    openMaxmsg threads.registry this
      (some (queueName address this ps8MsgQueueName))
      lMsgQueueSize true answer
  if opened.2 ≥ 0 then
    ({ registry := opened.1
       initialized :=
         Function.update threads.initialized this true },
      opened.2)
  else
    ({ threads with registry := opened.1 }, opened.2)

/-- `ThreadWithMsgQueue::SendMsg`. -/
def sendMsg
    (threads : QueueThreads Object Obj)
    (this : Object)
    (pMsg : MesgT)
    (accepts : Bool) :
    QueueThreads Object Obj × MesgT × Int32 :=
  if threads.initialized this then
    let sent :=
      send threads.registry.process (threads.registry.fdOf this)
        pMsg mesgPrioLow accepts
    (threads.withProcess sent.1, sent.2)
  else
    let freed := freeIn threads.registry.process pMsg
    (threads.withProcess freed.1, freed.2,
      if pMsg.ulMsgId ≠ msgIdStopThread then
        errThreadQueueNotInitialized
      else
        0)

/-- `ThreadWithMsgQueue::StopThread`, as far as the queue is concerned. -/
def stopThread
    (threads : QueueThreads Object Obj)
    (this : Object)
    (accepts : Bool) :
    QueueThreads Object Obj :=
  if threads.initialized this then
    threads.withProcess
      (MsgQueue.sendMsg threads.registry.process
        (threads.registry.fdOf this)
        { mesg with ulMsgId := msgIdStopThread }
        mesgPrioLow accepts).1
  else
    threads

/-- The flags after a call on a queue; only the constructor sets one. -/
def initializedAfter
    (initialized : Object → Bool) :
    Operation Object → Object → Bool
  | .construct this =>
      Function.update initialized this false
  | _ =>
      initialized

/-- One call after the other. -/
def step?
    (address : Object → Int)
    (threads : QueueThreads Object Obj) :
    ThreadCall Object → Option (QueueThreads Object Obj)
  | .queue operation =>
      (registryStep? threads.registry operation).map fun registry =>
        { registry
          initialized :=
            initializedAfter threads.initialized operation }
  | .init this ps8MsgQueueName lMsgQueueSize answer =>
      if threads.registry.alive this = true ∧
          Answerable threads.registry answer then
        some (init address threads this ps8MsgQueueName
          lMsgQueueSize answer).1
      else
        none
  | .sendMsg this pMsg accepts =>
      if threads.registry.alive this = true then
        some (sendMsg threads this pMsg accepts).1
      else
        none
  | .stopThread this accepts =>
      if threads.registry.alive this = true then
        some (stopThread threads this accepts)
      else
        none

/-- A process that has just started, over any storage for its objects. -/
def machine
    (address : Object → Int) :
    Machine (QueueThreads Object Obj) (ThreadCall Object) where
  Initial := fun threads =>
    ∃ storage, threads.registry = Registry.atStart storage
  step? := step? address

end Functions

section Properties

variable {Object Obj : Type} [DecidableEq Object]

/-- The object on which an `Open` or an `Init` fails in `mq_open`. -/
def failedOpen?
    (address : Object → Int)
    (threads : QueueThreads Object Obj) :
    ThreadCall Object → Option Object
  | .queue (.openMaxmsg this name maxmsg oCreat answer) =>
      if (openMaxmsg threads.registry this name maxmsg
          oCreat answer).2 = errMsgQueueOpenFailed then
        some this
      else
        none
  | .queue (.openAttr this name pattr oCreat answer) =>
      if (openAttr threads.registry this name pattr
          oCreat answer).2 = errMsgQueueOpenFailed then
        some this
      else
        none
  | .init this ps8MsgQueueName lMsgQueueSize answer =>
      if (init address threads this ps8MsgQueueName
          lMsgQueueSize answer).2 = errMsgQueueOpenFailed then
        some this
      else
        none
  | _ =>
      none

omit [DecidableEq Object] in
/-- The members of an object, `gMap` and the flags are as before. -/
structure Unchanged
    (before after : QueueThreads Object Obj)
    (this : Object) :
    Prop where
  msgQueueFd :
    after.registry.fdOf this = before.registry.fdOf this
  msgQueueName :
    after.registry.msgQueueName this =
      before.registry.msgQueueName this
  msgQueueSize :
    after.registry.msgQueueSize this =
      before.registry.msgQueueSize this
  receiveMsgCnt :
    (after.registry.process.object this).receiveMsgCnt =
      (before.registry.process.object this).receiveMsgCnt
  sendMsgCnt :
    (after.registry.process.object this).sendMsgCnt =
      (before.registry.process.object this).sendMsgCnt
  maxMsgInQueue :
    (after.registry.process.object this).maxMsgInQueue =
      (before.registry.process.object this).maxMsgInQueue
  gMap :
    after.registry.gMap = before.registry.gMap
  initialized :
    after.initialized = before.initialized

/--
Neither `Send` nor `Receive` refuses the descriptor of an object as no handle,
and the kernel has it open.
-/
structure Accepted
    (registry : Registry Object Obj)
    (this : Object) :
    Prop where
  sends :
    ∀ pclsMsg s32Prio accepts,
      (send registry.process (registry.fdOf this)
        pclsMsg s32Prio accepts).2.2 ≠ errMsgQueueSendHandleIsNull
  receives :
    ∀ pclsMsg isPolling answers,
      (receive registry.process this
        pclsMsg isPolling answers).2.2 ≠ errMsgQueueSendHandleIsNull
  isOpen :
    (registry.descriptor (registry.fdOf this)).isSome = true

/-- A raised flag stands for an accepted descriptor. -/
def Sound (threads : QueueThreads Object Obj) : Prop :=
  ∀ this,
    threads.registry.alive this = true →
    threads.initialized this = true →
    Accepted threads.registry this

omit [DecidableEq Object] in
/-- An object as an `Open` that fails in `mq_open` leaves it. -/
structure AsFailed
    (registry : Registry Object Obj)
    (this : Object)
    (name : String)
    (maxmsg : Int64) :
    Prop where
  msgQueueFd :
    registry.fdOf this = -1
  msgQueueName :
    registry.msgQueueName this = name
  msgQueueSize :
    registry.msgQueueSize this = maxmsg
  receiveMsgCnt :
    (registry.process.object this).receiveMsgCnt = 0
  sendMsgCnt :
    (registry.process.object this).sendMsgCnt = 0
  maxMsgInQueue :
    (registry.process.object this).maxMsgInQueue = 0

omit [DecidableEq Object] in
/--
An open that fails finds the object as it leaves it, and one that succeeds for a
thread with a raised flag does not get the descriptor `0`.
-/
def CarefulOpen
    (registry : Registry Object Obj)
    (initialized : Object → Bool)
    (this : Object)
    (name : String)
    (maxmsg : Int64)
    (oCreat : Bool)
    (answer : Option Int32) :
    Prop :=
  match mqOpenAnswer name oCreat answer with
  | none =>
      AsFailed registry this name maxmsg
  | some fd =>
      initialized this = true →
      fd ≠ 0

omit [DecidableEq Object] in
/-- No thread with a raised flag uses the number that an object closes. -/
def SparesHandles
    (registry : Registry Object Obj)
    (initialized : Object → Bool)
    (this : Object)
    (closes : Bool) :
    Prop :=
  closes = true →
  ∀ other,
    registry.alive other = true →
    initialized other = true →
    registry.fdOf other ≠ registry.fdOf this

/-- A failed open changed nothing, and every raised flag is still right. -/
structure Intact
    (address : Object → Int)
    (threads : QueueThreads Object Obj)
    (call : ThreadCall Object)
    (next : QueueThreads Object Obj) :
    Prop where
  unchanged :
    ∀ this,
      failedOpen? address threads call = some this →
      Unchanged threads next this
  sound :
    Sound next

/-- The calls that a raised flag and an open object survive. -/
def Careful
    (address : Object → Int)
    (threads : QueueThreads Object Obj) :
    ThreadCall Object → Prop
  | .queue (.openMaxmsg this (some name) maxmsg oCreat answer) =>
      CarefulOpen threads.registry threads.initialized
        this name maxmsg oCreat answer
  | .queue (.openAttr this (some name) (some maxmsg) oCreat answer) =>
      CarefulOpen threads.registry threads.initialized
        this name maxmsg oCreat answer
  | .queue (.close this closes) =>
      SparesHandles threads.registry threads.initialized this closes
  | .queue (.unlink this _ closes) =>
      threads.registry.msgQueueName this ≠ "" →
      SparesHandles threads.registry threads.initialized this closes
  | .queue (.destroy this _ closes) =>
      threads.registry.msgQueueName this ≠ "" →
      SparesHandles threads.registry
        (Function.update threads.initialized this false) this closes
  | .init this ps8MsgQueueName lMsgQueueSize answer =>
      CarefulOpen threads.registry
        (Function.update threads.initialized this true)
        this (queueName address this ps8MsgQueueName)
        lMsgQueueSize true answer
  | _ =>
      True

end Properties

end QueueThreads

section Handles

variable {Object Queue Obj : Type}
variable [DecidableEq Object] [DecidableEq Queue]

/-- `Send` refuses exactly the numbers that are not positive. -/
theorem send_refuses_iff
    {process : Process Object Queue Obj}
    {fd : Int32}
    {pclsMsg : MesgT}
    {s32Prio : UInt32}
    {accepts : Bool} :
    (send process fd pclsMsg s32Prio accepts).2.2 =
        errMsgQueueSendHandleIsNull ↔
      fd ≤ 0 := by
  unfold send
  by_cases noHandle : fd ≤ 0
  · simp [noHandle]
  · have failed : errMsgQueueSendFailed ≠ errMsgQueueSendHandleIsNull := by
      decide
    have succeeded : 0 ≠ errMsgQueueSendHandleIsNull := by
      decide
    simp only [noHandle, ↓reduceIte, iff_false]
    split
    · exact failed
    · exact succeeded

/-- `Receive` refuses exactly the numbers that are not positive. -/
theorem receive_refuses_iff
    {process : Process Object Queue Obj}
    {owner : Object}
    {pclsMsg : MesgT}
    {isPolling : Bool}
    {answers : Answers} :
    (receive process owner pclsMsg isPolling answers).2.2 =
        errMsgQueueSendHandleIsNull ↔
      (process.object owner).msgQueueFd ≤ 0 := by
  have taken :
      ∀ process : Process Object Queue Obj,
        (receiveInto process owner pclsMsg answers).2.2 ≠
          errMsgQueueSendHandleIsNull := by
    intro process
    have failed :
        errMsgQueueReceiveFailed ≠ errMsgQueueSendHandleIsNull := by
      decide
    have succeeded : 0 ≠ errMsgQueueSendHandleIsNull := by
      decide
    unfold receiveInto
    split
    · exact failed
    · exact succeeded
  unfold receive
  by_cases noHandle : (process.object owner).msgQueueFd ≤ 0
  · simp [noHandle]
  · simp only [noHandle, ↓reduceIte, iff_false]
    cases isPolling with
    | false =>
        exact taken _
    | true =>
        have failed :
            errMsgQueueSelectFailed ≠ errMsgQueueSendHandleIsNull := by
          decide
        have notOurs :
            errMsgQueueSelectButNotOurQueue ≠
              errMsgQueueSendHandleIsNull := by
          decide
        cases answers.select with
        | failed => exact failed
        | notOurQueue => exact notOurs
        | readable => exact taken _

/-- The accepted descriptors are the positive ones that are open. -/
theorem QueueThreads.accepted_iff
    {registry : Registry Object Obj}
    {this : Object} :
    QueueThreads.Accepted registry this ↔
      0 < registry.fdOf this ∧
        (registry.descriptor (registry.fdOf this)).isSome = true := by
  constructor
  · intro accepted
    have sends :=
      accepted.sends mesg mesgPrioLow true
    rw [ne_eq, send_refuses_iff, Int32.not_le] at sends
    exact ⟨sends, accepted.isOpen⟩
  · rintro ⟨positive, isOpen⟩
    refine ⟨?_, ?_, isOpen⟩
    · intro pclsMsg s32Prio accepts
      rw [ne_eq, send_refuses_iff, Int32.not_le]
      exact positive
    · intro pclsMsg isPolling answers
      rw [ne_eq, receive_refuses_iff, Int32.not_le]
      exact positive

end Handles

namespace Table

variable {Object : Type}

/-- A raised flag stands for an open number above zero. -/
def Kept
    (table : Table Object)
    (initialized : Object → Bool) :
    Prop :=
  ∀ this,
    table.alive this = true →
    initialized this = true →
    0 < table.fdOf this ∧
      (table.descriptor (table.fdOf this)).isSome = true

variable [DecidableEq Object]

/-- A fresh object has no flag. -/
theorem Kept.construct
    {table : Table Object}
    {initialized : Object → Bool}
    (kept : table.Kept initialized)
    (this : Object) :
    (table.construct this).Kept
      (Function.update initialized this false) := by
  intro other alive raised
  by_cases here : other = this
  · subst other
    simp at raised
  · simp only [Table.construct, Function.update_of_ne here]
      at alive raised ⊢
    exact kept other alive raised

/-- A failing open of an object without a handle loses nothing. -/
theorem Kept.openQueue_none
    {table : Table Object}
    {initialized : Object → Bool}
    (kept : table.Kept initialized)
    {this : Object}
    {name : String}
    {oCreat : Bool}
    {answer : Option Int32}
    (failed : mqOpenAnswer name oCreat answer = none)
    (noHandle : table.fdOf this = -1) :
    (table.openQueue this name oCreat answer).Kept initialized := by
  intro other alive raised
  unfold Table.openQueue at alive ⊢
  rw [failed] at alive ⊢
  have handle := kept other alive raised
  have elsewhere : other ≠ this := by
    rintro rfl
    rw [noHandle] at handle
    exact absurd handle.1 (by decide)
  simpa only [Function.update_of_ne elsewhere] using handle

/-- An open that succeeds gives a raised flag the new number. -/
theorem Kept.openQueue_iff
    {table : Table Object}
    {before after : Object → Bool}
    (kept : table.Kept before)
    {this : Object}
    {name : String}
    {oCreat : Bool}
    {answer : Option Int32}
    {fd : Int32}
    (answered : mqOpenAnswer name oCreat answer = some fd)
    (alive : table.alive this = true)
    (nonneg : 0 ≤ fd)
    (elsewhere :
      ∀ other,
        other ≠ this →
        after other = before other) :
    (table.openQueue this name oCreat answer).Kept after ↔
      (after this = true → fd ≠ 0) := by
  unfold Table.openQueue
  rw [answered]
  constructor
  · rintro keptAfter raised rfl
    have handle := keptAfter this alive raised
    simp only [Function.update_self] at handle
    exact absurd handle.1 (by decide)
  · intro positive other aliveOther raised
    by_cases here : other = this
    · subst other
      have handle : 0 < fd :=
        Int32.lt_of_le_of_ne nonneg (Ne.symm (positive raised))
      simpa using handle
    · rw [elsewhere other here] at raised
      obtain ⟨handle, isOpen⟩ := kept other aliveOther raised
      simp only [Function.update_of_ne here]
      refine ⟨handle, ?_⟩
      by_cases reused : table.fdOf other = fd
      · simp [reused]
      · rwa [Function.update_of_ne reused]

/-- `Close` takes the handle of every raised flag with the same number. -/
theorem Kept.close_iff
    {table : Table Object}
    {initialized : Object → Bool}
    (kept : table.Kept initialized)
    (this : Object)
    (closes : Bool) :
    (table.close this closes).Kept initialized ↔
      (closes = true →
        ∀ other,
          table.alive other = true →
          initialized other = true →
          table.fdOf other ≠ table.fdOf this) := by
  constructor
  · intro keptAfter closed other alive raised same
    obtain ⟨handle, isOpen⟩ := kept other alive raised
    have goesThrough : table.Closes this closes := by
      rw [same] at handle isOpen
      exact ⟨closed, Int32.not_lt.mpr (Int32.le_of_lt handle), isOpen⟩
    unfold Table.close at keptAfter
    rw [if_pos goesThrough] at keptAfter
    have lost := (keptAfter other alive raised).2
    simp [same] at lost
  · intro spared
    unfold Table.close
    split
    · next goesThrough =>
        intro other alive raised
        obtain ⟨handle, isOpen⟩ := kept other alive raised
        have apart := spared goesThrough.1 other alive raised
        refine ⟨handle, ?_⟩
        simpa only [Function.update_of_ne apart] using isOpen
    · exact kept

/-- `Unlink` closes unless the object has no name. -/
theorem Kept.unlink_iff
    {table : Table Object}
    {initialized : Object → Bool}
    (kept : table.Kept initialized)
    (this : Object)
    (closes : Bool) :
    (table.unlink this closes).Kept initialized ↔
      (table.msgQueueName this ≠ "" →
        closes = true →
        ∀ other,
          table.alive other = true →
          initialized other = true →
          table.fdOf other ≠ table.fdOf this) := by
  unfold Table.unlink
  by_cases nameless : table.msgQueueName this = ""
  · simp [nameless, kept]
  · simp only [nameless, ↓reduceIte, ne_eq, not_false_eq_true,
      forall_const]
    exact kept.close_iff this closes

/-- A flag that is lowered stands for nothing. -/
theorem Kept.lower
    {table : Table Object}
    {initialized : Object → Bool}
    (kept : table.Kept initialized)
    (this : Object) :
    table.Kept (Function.update initialized this false) := by
  intro other alive raised
  by_cases here : other = this
  · subst other
    simp at raised
  · rw [Function.update_of_ne here] at raised
    exact kept other alive raised

/-- After the destructor only the flags of the other objects count. -/
theorem Kept.destroy_iff
    {table : Table Object}
    {initialized : Object → Bool}
    (kept : table.Kept initialized)
    (this : Object)
    (closes : Bool) :
    (table.destroy this closes).Kept initialized ↔
      (table.msgQueueName this ≠ "" →
        closes = true →
        ∀ other,
          table.alive other = true →
          Function.update initialized this false other = true →
          table.fdOf other ≠ table.fdOf this) := by
  rw [← (kept.lower this).unlink_iff this closes]
  constructor
  · intro keptAfter other alive raised
    by_cases here : other = this
    · subst other
      simp at raised
    · rw [Function.update_of_ne here] at raised
      refine keptAfter other ?_ raised
      simpa [Table.destroy, here] using alive
  · intro keptAfter other alive raised
    by_cases here : other = this
    · subst other
      simp [Table.destroy] at alive
    · simp only [Table.destroy, Function.update_of_ne here] at alive
      refine keptAfter other alive ?_
      rwa [Function.update_of_ne here]

end Table

namespace QueueThreads

variable {Object Obj : Type} [DecidableEq Object]

/-- Raised flags in terms of the table of numbers. -/
theorem sound_iff
    {threads : QueueThreads Object Obj} :
    Sound threads ↔
      threads.registry.table.Kept threads.initialized := by
  unfold Sound Table.Kept
  simp only [accepted_iff]
  rfl

/-- No object lives at the start. -/
theorem sound_atStart
    {address : Object → Int}
    {threads : QueueThreads Object Obj}
    (start : (machine address).Initial threads) :
    Sound threads := by
  obtain ⟨storage, started⟩ := start
  intro this alive
  rw [started] at alive
  cases alive

section Opening

variable {resetsLastMsgMsgId : Bool}
variable {threads : QueueThreads Object Obj}
variable {this : Object} {name : String} {maxmsg : Int64}
variable {oCreat : Bool} {answer : Option Int32}

/-- `Open` fails exactly if `mq_open` does. -/
theorem openQueue_fails_iff
    {registry : Registry Object Obj} :
    (openQueue resetsLastMsgMsgId registry this name maxmsg
        oCreat answer).2 = errMsgQueueOpenFailed ↔
      mqOpenAnswer name oCreat answer = none := by
  have succeeded : 0 ≠ errMsgQueueOpenFailed := by
    decide
  unfold openQueue
  cases mqOpenAnswer name oCreat answer with
  | none => simp
  | some fd => simpa using succeeded

/-- What a failing `Open` writes was there only if it failed before. -/
theorem unchanged_iff_asFailed
    (failed : mqOpenAnswer name oCreat answer = none) :
    Unchanged threads
        { threads with
          registry :=
            (openQueue resetsLastMsgMsgId threads.registry this name
              maxmsg oCreat answer).1 }
        this ↔
      AsFailed threads.registry this name maxmsg := by
  have written :
      ∀ {registry : Registry Object Obj},
        (openQueue resetsLastMsgMsgId threads.registry this name
          maxmsg oCreat answer).1 = registry →
        (registry.process.object this).msgQueueFd = -1 ∧
          registry.msgQueueName this = name ∧
          registry.msgQueueSize this = maxmsg ∧
          (registry.process.object this).receiveMsgCnt = 0 ∧
          (registry.process.object this).sendMsgCnt = 0 ∧
          (registry.process.object this).maxMsgInQueue = 0 ∧
          registry.gMap = threads.registry.gMap := by
    rintro registry rfl
    simp [openQueue, failed, Registry.setObject, Registry.gMap]
  obtain ⟨fd, named, size, received, sent, most, owners⟩ := written rfl
  constructor
  · intro unchanged
    exact
      { msgQueueFd := unchanged.msgQueueFd.symm.trans fd
        msgQueueName := unchanged.msgQueueName.symm.trans named
        msgQueueSize := unchanged.msgQueueSize.symm.trans size
        receiveMsgCnt := unchanged.receiveMsgCnt.symm.trans received
        sendMsgCnt := unchanged.sendMsgCnt.symm.trans sent
        maxMsgInQueue := unchanged.maxMsgInQueue.symm.trans most }
  · intro before
    exact
      { msgQueueFd := fd.trans before.msgQueueFd.symm
        msgQueueName := named.trans before.msgQueueName.symm
        msgQueueSize := size.trans before.msgQueueSize.symm
        receiveMsgCnt := received.trans before.receiveMsgCnt.symm
        sendMsgCnt := sent.trans before.sendMsgCnt.symm
        maxMsgInQueue := most.trans before.maxMsgInQueue.symm
        gMap := owners
        initialized := rfl }

/-- One open, with the flags that a success leaves behind. -/
theorem openQueue_iff
    (sound : Sound threads)
    (alive : threads.registry.alive this = true)
    (answerable : Answerable threads.registry answer)
    {raised after : Object → Bool}
    (elsewhere :
      ∀ other,
        other ≠ this →
        raised other = threads.initialized other)
    (onFailure :
      mqOpenAnswer name oCreat answer = none →
      after = threads.initialized)
    (onSuccess :
      mqOpenAnswer name oCreat answer ≠ none →
      after = raised) :
    ((mqOpenAnswer name oCreat answer = none →
        Unchanged threads
          { registry :=
              (openQueue resetsLastMsgMsgId threads.registry this
                name maxmsg oCreat answer).1
            initialized := after }
          this) ∧
      Sound
        { registry :=
            (openQueue resetsLastMsgMsgId threads.registry this
              name maxmsg oCreat answer).1
          initialized := after }) ↔
      CarefulOpen threads.registry raised this name maxmsg
        oCreat answer := by
  rw [sound_iff] at sound ⊢
  rw [table_openQueue]
  unfold CarefulOpen
  cases answered : mqOpenAnswer name oCreat answer with
  | none =>
      obtain rfl := onFailure answered
      simp only [forall_const]
      rw [unchanged_iff_asFailed answered]
      constructor
      · exact And.left
      · intro before
        exact ⟨before, sound.openQueue_none answered before.msgQueueFd⟩
  | some fd =>
      obtain rfl := onSuccess (by simp [answered])
      obtain ⟨_, rfl⟩ := mqOpenAnswer_eq_some answered
      simp only [reduceCtorEq, false_implies, true_and]
      exact sound.openQueue_iff answered alive answerable.1 elsewhere

end Opening

section Calls

variable {address : Object → Int}
variable {threads next : QueueThreads Object Obj}

/-- A call that fails in no `mq_open` only has to keep the flags right. -/
theorem intact_iff_sound
    {call : ThreadCall Object}
    (noOpen : failedOpen? address threads call = none) :
    Intact address threads call next ↔ Sound next := by
  constructor
  · exact Intact.sound
  · intro sound
    refine ⟨?_, sound⟩
    intro this failed
    rw [noOpen] at failed
    cases failed

/-- A call that opens has to leave its own object alone when it fails. -/
theorem intact_iff_of_open
    {call : ThreadCall Object}
    {this : Object}
    {Fails : Prop}
    [Decidable Fails]
    (opens :
      failedOpen? address threads call =
        if Fails then some this else none) :
    Intact address threads call next ↔
      (Fails → Unchanged threads next this) ∧ Sound next := by
  constructor
  · intro intact
    refine ⟨?_, intact.sound⟩
    intro failed
    exact intact.unchanged this (by rw [opens, if_pos failed])
  · rintro ⟨unchanged, sound⟩
    refine ⟨?_, sound⟩
    intro other failed
    rw [opens, Option.ite_none_right_eq_some, Option.some.injEq]
      at failed
    obtain ⟨failed, rfl⟩ := failed
    exact unchanged failed

/-- A change of the process that keeps all numbers keeps the flags right. -/
theorem sound_withProcess
    {process : Process Object Nat Obj}
    (sound : Sound threads)
    (same : SameNumbers threads.registry.process process) :
    Sound (threads.withProcess process) := by
  rw [sound_iff] at sound ⊢
  unfold withProcess
  rw [same.table_eq]
  exact sound

/-- `Mesg::SendMsg` keeps all numbers. -/
theorem sameNumbers_sendMsg
    {process : Process Object Nat Obj}
    {fd : Int32}
    {this : MesgT}
    {s32Prio : UInt32}
    {accepts : Bool} :
    SameNumbers process
      (MsgQueue.sendMsg process fd this s32Prio accepts).1 := by
  have sent := sameNumbers_send process fd this s32Prio accepts
  unfold MsgQueue.sendMsg
  simp only
  split
  · exact ⟨sent.gMap, sent.descriptor, sent.fd⟩
  · exact sent

/-- An `Open` with a name on a queue. -/
theorem intact_open_iff
    {resetsLastMsgMsgId : Bool}
    {operation : Operation Object}
    {this : Object}
    {name : String}
    {maxmsg : Int64}
    {oCreat : Bool}
    {answer : Option Int32}
    (sound : Sound threads)
    (alive : threads.registry.alive this = true)
    (answerable : Answerable threads.registry answer)
    (opens :
      failedOpen? address threads (.queue operation) =
        if (openQueue resetsLastMsgMsgId threads.registry this name
            maxmsg oCreat answer).2 = errMsgQueueOpenFailed then
          some this
        else
          none) :
    Intact address threads (.queue operation)
        { registry :=
            (openQueue resetsLastMsgMsgId threads.registry this name
              maxmsg oCreat answer).1
          initialized := threads.initialized } ↔
      CarefulOpen threads.registry threads.initialized this name
        maxmsg oCreat answer := by
  rw [intact_iff_of_open opens, openQueue_fails_iff]
  exact openQueue_iff sound alive answerable
    (fun _ _ => rfl) (fun _ => rfl) (fun _ => rfl)

/-- `Init` is `Open`, and raises the flag unless `mq_open` fails. -/
theorem init_eq
    {this : Object}
    {ps8MsgQueueName : String}
    {lMsgQueueSize : Int64}
    {answer : Option Int32} :
    init address threads this ps8MsgQueueName lMsgQueueSize answer =
      ({ registry :=
           (openQueue true threads.registry this
             (queueName address this ps8MsgQueueName)
             lMsgQueueSize true answer).1
         initialized :=
           if mqOpenAnswer (queueName address this ps8MsgQueueName)
               true answer = none then
             threads.initialized
           else
             Function.update threads.initialized this true },
        (openQueue true threads.registry this
          (queueName address this ps8MsgQueueName)
          lMsgQueueSize true answer).2) := by
  have refused : ¬ errMsgQueueOpenFailed ≥ 0 := by
    decide
  have granted : (0 : Int32) ≥ 0 := by
    decide
  simp only [init, openMaxmsg, openQueue]
  cases mqOpenAnswer (queueName address this ps8MsgQueueName)
      true answer with
  | none => simp only [refused, ↓reduceIte]
  | some fd => simp only [granted, ↓reduceIte, reduceCtorEq]

/-- `Init` of a thread. -/
theorem intact_init_iff
    {this : Object}
    {ps8MsgQueueName : String}
    {lMsgQueueSize : Int64}
    {answer : Option Int32}
    (sound : Sound threads)
    (alive : threads.registry.alive this = true)
    (answerable : Answerable threads.registry answer) :
    Intact address threads
        (.init this ps8MsgQueueName lMsgQueueSize answer)
        (init address threads this ps8MsgQueueName
          lMsgQueueSize answer).1 ↔
      CarefulOpen threads.registry
        (Function.update threads.initialized this true) this
        (queueName address this ps8MsgQueueName)
        lMsgQueueSize true answer := by
  rw [intact_iff_of_open rfl, init_eq, openQueue_fails_iff]
  refine openQueue_iff sound alive answerable ?_ ?_ ?_
  · intro other elsewhere
    exact Function.update_of_ne elsewhere _ _
  · intro failed
    exact if_pos failed
  · intro answered
    exact if_neg answered

/-- A call on a queue. -/
theorem intact_queue_iff
    {operation : Operation Object}
    {registry : Registry Object Obj}
    (sound : Sound threads)
    (stepped :
      registryStep? threads.registry operation = some registry) :
    Intact address threads (.queue operation)
        { registry
          initialized :=
            initializedAfter threads.initialized operation } ↔
      Careful address threads (.queue operation) := by
  have kept := sound_iff.mp sound
  -- Unless the call opens, only the table of numbers matters.
  have onTable :
      failedOpen? address threads (.queue operation) = none →
      (Intact address threads (.queue operation)
          { registry
            initialized :=
              initializedAfter threads.initialized operation } ↔
        (threads.registry.table.step operation).Kept
          (initializedAfter threads.initialized operation)) := by
    intro noOpen
    rw [intact_iff_sound noOpen, sound_iff, table_registryStep stepped]
  cases operation with
  | construct this =>
      exact (onTable rfl).trans
        (iff_of_true (kept.construct this) trivial)
  | openMaxmsg this name maxmsg oCreat answer =>
      obtain ⟨answerable, alive, rfl⟩ := answered_eq_some_iff.mp stepped
      cases name with
      | none =>
          exact (onTable (by rfl)).trans (iff_of_true kept trivial)
      | some name =>
          exact intact_open_iff sound alive answerable rfl
  | openAttr this name pattr oCreat answer =>
      obtain ⟨answerable, alive, rfl⟩ := answered_eq_some_iff.mp stepped
      cases name with
      | none =>
          exact (onTable (by rfl)).trans (iff_of_true kept trivial)
      | some name =>
          cases pattr with
          | none =>
              exact (onTable (by rfl)).trans (iff_of_true kept trivial)
          | some maxmsg =>
              exact intact_open_iff sound alive answerable rfl
  | send this pclsMsg s32Prio accepts =>
      exact (onTable rfl).trans (iff_of_true kept trivial)
  | sendTo fd pclsMsg s32Prio accepts =>
      exact (onTable rfl).trans (iff_of_true kept trivial)
  | receive this pclsMsg isPolling answers =>
      exact (onTable rfl).trans (iff_of_true kept trivial)
  | clear this rounds =>
      exact (onTable rfl).trans (iff_of_true kept trivial)
  | close this closes =>
      exact (onTable rfl).trans (kept.close_iff this closes)
  | unlink this rounds closes =>
      exact (onTable rfl).trans (kept.unlink_iff this closes)
  | destroy this rounds closes =>
      exact (onTable rfl).trans (kept.destroy_iff this closes)

/-- One call from a state in which every raised flag is right. -/
theorem intact_iff_careful
    {call : ThreadCall Object}
    (sound : Sound threads)
    (stepped : step? address threads call = some next) :
    Intact address threads call next ↔
      Careful address threads call := by
  cases call with
  | queue operation =>
      simp only [step?, Option.map_eq_some_iff] at stepped
      obtain ⟨registry, stepped, rfl⟩ := stepped
      exact intact_queue_iff sound stepped
  | init this ps8MsgQueueName lMsgQueueSize answer =>
      simp only [step?, Option.ite_none_right_eq_some,
        Option.some.injEq] at stepped
      obtain ⟨⟨alive, answerable⟩, rfl⟩ := stepped
      exact intact_init_iff sound alive answerable
  | sendMsg this pMsg accepts =>
      simp only [step?, Option.ite_none_right_eq_some,
        Option.some.injEq] at stepped
      obtain ⟨_, rfl⟩ := stepped
      rw [intact_iff_sound rfl]
      refine iff_of_true ?_ trivial
      unfold sendMsg
      split
      · exact sound_withProcess sound (sameNumbers_send ..)
      · exact sound_withProcess sound ⟨rfl, rfl, fun _ => rfl⟩
  | stopThread this accepts =>
      simp only [step?, Option.ite_none_right_eq_some,
        Option.some.injEq] at stepped
      obtain ⟨_, rfl⟩ := stepped
      rw [intact_iff_sound rfl]
      refine iff_of_true ?_ trivial
      unfold stopThread
      split
      · exact sound_withProcess sound sameNumbers_sendMsg
      · exact sound

/--
As long as all calls are careful, every raised flag stands for an accepted
descriptor; and the next call leaves it at that, and changes nothing if it fails
in `mq_open`, exactly if it is careful too.
-/
theorem reopen_intact_iff
    (reachable :
      (machine address).ReachableWhere (Careful address) threads) :
    Sound threads ∧
      ∀ call next,
        (machine address).step? threads call = some next →
        (Intact address threads call next ↔
          Careful address threads call) := by
  have sound : Sound threads := by
    apply reachable.invariant
    · exact sound_atStart
    · intro threads next call sound careful stepped
      exact ((intact_iff_careful sound stepped).mpr careful).sound
  refine ⟨sound, ?_⟩
  intro call next stepped
  exact intact_iff_careful sound stepped

end Calls

section Instances

/-- One thread that was constructed. -/
def constructedThread : QueueThreads Unit Unit where
  registry := construct (Registry.atStart blankStorage) ()
  initialized := fun _ => false

/-- The thread after an `Init` that got the descriptor `3`. -/
def initializedThread : QueueThreads Unit Unit :=
  (init (fun _ => 0) constructedThread () "/q" 8 (some 3)).1

/-- `mq_open` gives the descriptor it is asked for. -/
theorem mqOpenAnswer_queueName
    (answer : Option Int32) :
    mqOpenAnswer (queueName (fun _ : Unit => 0) () "/q") true answer =
      answer := by
  have named : queueName (fun _ : Unit => 0) () "/q" ≠ "" := by
    simp [queueName]
  simp [mqOpenAnswer, named]

/-- An `Init` on a living object goes through. -/
theorem step_init
    {threads : QueueThreads Unit Unit}
    {answer : Option Int32}
    (alive : threads.registry.alive () = true)
    (answerable : Answerable threads.registry answer) :
    (machine fun _ => 0).step? threads (.init () "/q" 8 answer) =
      some (init (fun _ => 0) threads () "/q" 8 answer).1 := by
  simp [machine, step?, alive, answerable]

/-- The thread is reached by careful calls. -/
theorem reachable_initializedThread :
    (machine fun _ => 0).ReachableWhere (Careful fun _ => 0)
      initializedThread := by
  have start :
      (machine fun _ => 0).Initial
        (⟨Registry.atStart blankStorage, fun _ => false⟩ :
          QueueThreads Unit Unit) :=
    ⟨blankStorage, rfl⟩
  have constructed :
      (machine fun _ => 0).step?
          (⟨Registry.atStart blankStorage, fun _ => false⟩ :
            QueueThreads Unit Unit)
          (.queue (.construct ())) =
        some constructedThread := by
    simp [machine, step?, registryStep?, Registry.atStart,
      constructedThread, initializedAfter]
  have initialized :
      (machine fun _ => 0).step? constructedThread
          (.init () "/q" 8 (some 3)) =
        some initializedThread :=
    step_init rfl ⟨by decide, rfl⟩
  have careful :
      Careful (fun _ => 0) constructedThread
        (.init () "/q" 8 (some 3)) := by
    simp only [Careful, CarefulOpen, mqOpenAnswer_queueName]
    decide
  exact .step
    (.step (.initial start)
      (show Careful _ _ (.queue (.construct ())) from trivial)
      constructed)
    careful initialized

/-- The flag of the initialized thread is raised and right. -/
theorem reopen_intact_after_init :
    initializedThread.initialized () = true ∧
      Sound initializedThread ∧
      ∀ call next,
        (machine fun _ => 0).step? initializedThread call = some next →
        (Intact (fun _ => 0) initializedThread call next ↔
          Careful (fun _ => 0) initializedThread call) := by
  refine ⟨?_, reopen_intact_iff reachable_initializedThread⟩
  simp [initializedThread, init_eq, mqOpenAnswer_queueName]

/--
An `Init` of the initialized thread that fails takes its descriptor and leaves
its flag raised.
-/
theorem failed_init_leaves_flag :
    ¬ ∀ threads : QueueThreads Unit Unit,
      (machine fun _ => 0).Reachable threads →
      ∀ call next,
        (machine fun _ => 0).step? threads call = some next →
        Intact (fun _ => 0) threads call next := by
  intro intact
  have reachable :
      (machine fun _ => 0).Reachable initializedThread :=
    reachable_initializedThread.mono fun _ => trivial
  have alive : initializedThread.registry.alive () = true := by
    simp [initializedThread, init_eq, openQueue, Registry.addMsgQueue,
      Registry.withKernel, Registry.setObject, constructedThread,
      construct, mqOpenAnswer_queueName]
  have raised : initializedThread.initialized () = true := by
    simp [initializedThread, init_eq, mqOpenAnswer_queueName]
  have refused :
      (init (fun _ => 0) initializedThread () "/q" 8 none).1 =
        { registry :=
            (openQueue true initializedThread.registry ()
              (queueName (fun _ => 0) () "/q") 8 true none).1
          initialized := initializedThread.initialized } := by
    rw [init_eq, mqOpenAnswer_queueName, if_pos rfl]
  have failed :
      (machine fun _ => 0).step? initializedThread
          (.init () "/q" 8 none) =
        some (init (fun _ => 0) initializedThread () "/q" 8 none).1 :=
    step_init alive trivial
  have sound := (intact _ reachable _ _ failed).sound
  rw [refused, sound_iff, table_openQueue] at sound
  have handle := (sound () ?_ raised).1
  · simp [Table.openQueue, mqOpenAnswer_queueName] at handle
  · simpa [Table.openQueue, mqOpenAnswer_queueName, Registry.table]
      using alive

end Instances

end QueueThreads

end WkcRuntime.MsgQueue
