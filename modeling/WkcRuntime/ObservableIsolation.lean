import WkcRuntime.ObservableReports

namespace WkcRuntime.Mesg

/-!
# Subscribers do not see each other

`ObservableFunction::Notify` copies the caller's message once for every matching
subscriber.  The copy lives in a fresh payload block and a fresh object, so
whatever a callback does with it, the caller's message and with it every later
copy stay what they were.  Two runs with different callbacks hand out the same
contents.

What the callbacks are given is what they log when they are called.
-/

/-- The block and the object of a message are what they were. -/
structure SameAt
    {Obj : Type}
    (msg : MesgT)
    (before after : Heap Obj) :
    Prop where
  block :
    ∀ pointer,
      msg.dataPtr = some pointer →
      after.block pointer = before.block pointer
  obj :
    ∀ pointer,
      msg.objPtr = some pointer →
      after.obj pointer = before.obj pointer

/-- A message with a positive size or no payload, and with what it points to. -/
structure Presented
    {Obj : Type}
    (heap : Heap Obj)
    (msg : MesgT) :
    Prop where
  sized :
    msg.dataPtr.isSome = true →
    0 < msg.tpMsgData.2
  stored :
    (payload heap msg).isSome = true
  object :
    ∀ pointer,
      msg.objPtr = some pointer →
      (heap.obj pointer).isSome = true

section Copies

variable {Obj : Type}
variable {before middle after : Heap Obj}
variable {msg : MesgT}

theorem SameAt.refl (msg : MesgT) (heap : Heap Obj) :
    SameAt msg heap heap :=
  ⟨fun _ _ => rfl, fun _ _ => rfl⟩

theorem SameAt.trans
    (first : SameAt msg before middle)
    (second : SameAt msg middle after) :
    SameAt msg before after :=
  ⟨fun pointer points =>
      (second.block pointer points).trans (first.block pointer points),
    fun pointer points =>
      (second.obj pointer points).trans (first.obj pointer points)⟩

/-- The payload of a message depends on its own block alone. -/
theorem SameAt.payload_eq
    (same : SameAt msg before after) :
    payload after msg = payload before msg := by
  unfold payload
  cases points : msg.dataPtr with
  | none => rfl
  | some pointer => simp only [same.block pointer points]

/-- A message stays presented while its block and object stay the same. -/
theorem Presented.same
    (presented : Presented before msg)
    (same : SameAt msg before after) :
    Presented after msg := by
  refine ⟨presented.sized, ?_, ?_⟩
  · rw [same.payload_eq]
    exact presented.stored
  · intro pointer points
    rw [same.obj pointer points]
    exact presented.object pointer points

/-- A presented message has its block and its object. -/
theorem Presented.live
    {heap : Heap Obj}
    (presented : Presented heap msg) :
    Live heap msg := by
  refine ⟨?_, presented.object⟩
  intro pointer points
  have announced := presented.sized (by rw [points]; rfl)
  obtain ⟨bytes, stored⟩ := Option.isSome_iff_exists.mp presented.stored
  obtain ⟨content, inBlock, _⟩ :=
    (payload_eq_some_iff points announced).mp stored
  rw [inBlock]
  rfl

section Assign

variable {heap : Heap Obj}
variable {allocation : Allocation}

/-- Copying the payload keeps the live blocks. -/
theorem grown_copyData
    (fresh : allocation.Fresh heap)
    (this clsMsg : MesgT) :
    Grown heap (copyData allocation heap this clsMsg).1 := by
  intro pointer bytes stored
  unfold copyData
  split
  · exact stored
  · split
    · split
      · exact stored
      · next target allocated =>
          exact grown_duplicateBlock (fresh.block target allocated) _ _
            pointer bytes stored
    · exact stored

/-- A copy keeps what another message points to. -/
theorem sameAt_assign
    (fresh : allocation.Fresh heap)
    (live : Live heap msg)
    (source : MesgT) :
    SameAt msg heap (assign allocation heap mesg source).1 := by
  rw [assign_mesg]
  constructor
  · intro pointer points
    obtain ⟨bytes, stored⟩ :=
      Option.isSome_iff_exists.mp (live.block pointer points)
    have kept :=
      grown_copyData fresh (headerOf source) source pointer bytes stored
    rw [stored, copyObj]
    split
    · exact kept
    · rw [cloneObj_block]
      exact kept
  · intro pointer points
    have different : pointer ≠ allocation.obj := by
      rintro rfl
      have isSome := live.obj _ points
      rw [fresh.obj] at isSome
      cases isSome
    unfold copyObj
    split
    · rw [copyData_obj]
    · unfold Heap.cloneObj
      split
      · rw [copyData_obj]
      · simp only [Function.update_of_ne different, copyData_obj]

/-- The payload pointer of a copy is what the allocator gave. -/
theorem assign_dataPtr
    {pointer : BlockId}
    {source : MesgT}
    (points :
      (assign allocation heap mesg source).2.dataPtr = some pointer) :
    allocation.block = some pointer := by
  rw [assign_mesg] at points
  have sameData :
      (copyObj allocation
          (copyData allocation heap (headerOf source) source).1
          (copyData allocation heap (headerOf source) source).2.1
          source).2.dataPtr =
        (copyData allocation heap (headerOf source)
          source).2.1.dataPtr := by
    unfold copyObj
    split <;> rfl
  rw [sameData] at points
  unfold copyData at points
  split at points
  · cases points
  · split at points
    · split at points
      · cases points
      · next target allocated =>
          rw [allocated]
          exact points
    · cases points

/-- The object of a copy is a clone at the address that the allocator gave. -/
theorem assign_objPtr
    (source : MesgT) :
    (assign allocation heap mesg source).2.objPtr =
      source.objPtr.map fun _ => allocation.obj := by
  rw [assign_mesg, copyObj]
  unfold MesgT.objPtr
  split
  · next none =>
      rw [none]
      rfl
  · next pointer points =>
      rw [points]
      rfl

/-- The clone has the value of the object. -/
theorem assign_obj_clone
    {pointer : ObjId}
    {value : Obj}
    {source : MesgT}
    (points : source.objPtr = some pointer)
    (live : heap.obj pointer = some value) :
    (assign allocation heap mesg source).1.obj allocation.obj =
      some value := by
  have pclsMsgObj : source.pclsMsgObj = some pointer := points
  rw [assign_mesg]
  simp only [copyObj, pclsMsgObj, Heap.cloneObj, copyData_obj, live,
    Function.update_self]

/-- A copy at fresh addresses shares nothing with any other message. -/
theorem unshared_assign
    (fresh : allocation.Fresh heap)
    (live : Live heap msg)
    (source : MesgT) :
    Unshared (assign allocation heap mesg source).2 msg := by
  constructor
  · intro pointer points shared
    have isSome := live.block pointer points
    rw [fresh.block pointer (assign_dataPtr shared)] at isSome
    cases isSome
  · intro pointer points shared
    have isSome := live.obj pointer points
    rw [assign_objPtr] at shared
    obtain ⟨_, _, rfl⟩ := Option.map_eq_some_iff.mp shared
    rw [fresh.obj] at isSome
    cases isSome

end Assign

end Copies

end WkcRuntime.Mesg

namespace WkcRuntime.Observable

open Mesg

section Worlds

variable {World Subscriber : Type}

/-- What the deliveries to the given entries leave behind. -/
def worldAfter
    (deliver : Deliver World Subscriber)
    (msg : MesgT) :
    List (ElementT Subscriber) →
      Nat →
      World →
      World
  | [], _, world =>
      world
  | e :: rest, attempt, world =>
      worldAfter deliver msg rest (attempt + 1)
        (deliver attempt world e.subscriber (msg.cbId e.ulCbId)).1

/-- A message is tagged anew for every entry. -/
theorem worldAfter_cbId
    (deliver : Deliver World Subscriber)
    (msg : MesgT)
    (ulCbId : UInt64)
    (entries : List (ElementT Subscriber))
    (attempt : Nat)
    (world : World) :
    worldAfter deliver (msg.cbId ulCbId) entries attempt world =
      worldAfter deliver msg entries attempt world := by
  induction entries generalizing attempt world with
  | nil =>
      rfl
  | cons e rest inductionHypothesis =>
      exact inductionHypothesis (attempt + 1) _

/-- The loop leaves behind what the deliveries to matching entries do. -/
theorem notifyEach_world
    (deliver : Deliver World Subscriber)
    (mList : List (ElementT Subscriber))
    (pMsg : MesgT)
    (rc : Int32)
    (notification : Notification World Subscriber) :
    (notifyEach deliver mList pMsg rc notification).1.world =
      worldAfter deliver pMsg
        (mList.filter (ElementT.matches pMsg.ulMsgId))
        notification.attempts.length notification.world := by
  induction mList generalizing pMsg rc notification with
  | nil =>
      rfl
  | cons e rest inductionHypothesis =>
      unfold notifyEach
      cases matched : e.matches pMsg.ulMsgId with
      | false =>
          simp [inductionHypothesis, matched]
      | true =>
          have sameId : (pMsg.cbId e.ulCbId).ulMsgId = pMsg.ulMsgId :=
            rfl
          simp [inductionHypothesis, matched, sameId, worldAfter_cbId,
            worldAfter]

/-- What `Notify` leaves behind for a message that it does not refuse. -/
theorem notify_world
    (deliver : Deliver World Subscriber)
    (mList : List (ElementT Subscriber))
    {msg : MesgT}
    (deliverable : Deliverable msg)
    (notification : Notification World Subscriber) :
    (notify deliver mList (some msg) notification).1.world =
      worldAfter deliver msg
        (mList.filter (ElementT.matches msg.ulMsgId))
        notification.attempts.length notification.world := by
  have accepted :
      ¬ (msg.tpMsgData.1.isSome = true ∧ msg.tpMsgData.2 = 0) :=
    fun ⟨points, noSize⟩ => deliverable points noSize
  simp only [notify, accepted, ↓reduceIte, notifyEach_world]

/-- A delivery leaves behind and returns what `deliver` does. -/
theorem deliver_of_mem_deliveriesFrom
    {deliver : Deliver World Subscriber}
    {msg : MesgT}
    {entries : List (ElementT Subscriber)}
    {attempt : Nat}
    {world : World}
    {d : Delivery World Subscriber}
    (member : d ∈ deliveriesFrom deliver msg entries attempt world) :
    deliver d.attempt d.world d.subscriber d.pMsg = (d.after, d.rc) := by
  induction entries generalizing attempt world with
  | nil =>
      cases member
  | cons e rest inductionHypothesis =>
      rcases List.mem_cons.mp member with rfl | later
      · rfl
      · exact inductionHypothesis later

/-- The loop changes at most the tag of the message. -/
theorem notifyEach_message
    (deliver : Deliver World Subscriber)
    (mList : List (ElementT Subscriber))
    (pMsg : MesgT)
    (rc : Int32)
    (notification : Notification World Subscriber) :
    ∃ ulCbId,
      (notifyEach deliver mList pMsg rc notification).2.1 =
        pMsg.cbId ulCbId := by
  induction mList generalizing pMsg rc notification with
  | nil =>
      exact ⟨pMsg.ulCbId, rfl⟩
  | cons e rest inductionHypothesis =>
      unfold notifyEach
      split
      · obtain ⟨ulCbId, tagged⟩ := inductionHypothesis (pMsg.cbId e.ulCbId)
          _ _
        exact ⟨ulCbId, tagged⟩
      · exact inductionHypothesis pMsg rc notification

/-- `Notify` changes at most the tag of its message. -/
theorem notify_message
    (deliver : Deliver World Subscriber)
    (mList : List (ElementT Subscriber))
    (msg : MesgT)
    (notification : Notification World Subscriber) :
    ∃ ulCbId,
      (notify deliver mList (some msg) notification).2.1 =
        some (msg.cbId ulCbId) := by
  simp only [notify]
  split
  · exact ⟨msg.ulCbId, rfl⟩
  · obtain ⟨ulCbId, tagged⟩ :=
      notifyEach_message deliver mList msg 0 notification
    exact ⟨ulCbId, congrArg some tagged⟩

end Worlds

end WkcRuntime.Observable

namespace WkcRuntime.ObservableFunction

open Mesg Observable

variable {World Obj : Type}

/-- The value of the object of a message. -/
def objectOf
    (heap : Heap Obj)
    (msg : MesgT) :
    Option Obj :=
  msg.objPtr.bind heap.obj

/-- What a function can read from the message that it is called with. -/
structure Received (Obj : Type) where
  function : FunctionId
  ulMsgId : UInt64
  tpMsgCmd : UInt64 × UInt64
  u32SeqCnt : UInt32
  ulCbId : UInt64
  data : Option (List UInt8)
  object : Option Obj

/-- The message as a function finds it. -/
def received
    (function : FunctionId)
    (message : Heap Obj × MesgT) :
    Received Obj where
  function
  ulMsgId := message.2.ulMsgId
  tpMsgCmd := message.2.tpMsgCmd
  u32SeqCnt := message.2.u32SeqCnt
  ulCbId := message.2.ulCbId
  data := payload message.1 message.2
  object := objectOf message.1 message.2

/-- The calls of one `Notify`, as the functions log them. -/
def calls
    (call : Behaviour World Obj)
    (answers : Nat → Allocation)
    (mList : List (ElementT FunctionId))
    (msg : MesgT)
    (notification : Notification (Heap Obj × World) FunctionId) :
    List (Given Obj) :=
  (notify (logged call) answers mList (some msg)
    (withLog notification)).1.world.2.2

/-- What a called function can read from its message. -/
def Given.received (given : Given Obj) : Received Obj :=
  ObservableFunction.received given.function (given.heap, given.pMsg)

/-- The temporary of one delivery, which it has its function called with. -/
def tmpMsg
    (answers : Nat → Allocation)
    (d : Delivery (Heap Obj × World) FunctionId) :
    Heap Obj × MesgT :=
  assign (answers d.attempt) d.world.1 mesg d.pMsg

/-- No function touches a message that it was not given. -/
def Spares
    (msg : MesgT)
    (call : Behaviour World Obj) :
    Prop :=
  ∀ function state given,
    Unshared given msg →
    SameAt msg state.1 (call function state given).1.1

/-- The allocator succeeds, at addresses that are not in use. -/
def Allocates
    (answers : Nat → Allocation)
    (d : Delivery (Heap Obj × World) FunctionId) :
    Prop :=
  (answers d.attempt).Fresh d.world.1 ∧
    (d.pMsg.NeedsBlock → (answers d.attempt).block.isSome = true)

/-- The temporary has the contents of the caller's message. -/
theorem received_tmpMsg
    {answers : Nat → Allocation}
    {d : Delivery (Heap Obj × World) FunctionId}
    (allocates : Allocates answers d)
    (presented : Presented d.world.1 d.pMsg) :
    received d.subscriber (tmpMsg answers d) =
      received d.subscriber (d.world.1, d.pMsg) := by
  have full :
      FullCopy (d.world.1, d.pMsg) (tmpMsg answers d) :=
    (fullCopy_assign_iff (answers d.attempt) d.world.1 d.pMsg).mpr
      allocates.2
  obtain ⟨ulMsgId, tpMsgCmd, _, ulCbId, u32SeqCnt, _⟩ :=
    MesgT.mk.inj full.1
  obtain ⟨bytes, stored⟩ := Option.isSome_iff_exists.mp presented.stored
  have data :
      payload (tmpMsg answers d).1 (tmpMsg answers d).2 =
        payload d.world.1 d.pMsg :=
    (full.2.2 bytes stored).trans stored.symm
  have object :
      objectOf (tmpMsg answers d).1 (tmpMsg answers d).2 =
        objectOf d.world.1 d.pMsg := by
    unfold objectOf tmpMsg
    rw [assign_objPtr]
    cases points : d.pMsg.objPtr with
    | none =>
        rfl
    | some pointer =>
        obtain ⟨value, live⟩ :=
          Option.isSome_iff_exists.mp (presented.object pointer points)
        exact (assign_obj_clone points live).trans live.symm
  simp only [received, data, object, ulMsgId, tpMsgCmd, u32SeqCnt, ulCbId]

/-- The log of the deliveries to the given entries. -/
theorem log_worldAfter
    (call : Behaviour World Obj)
    (answers : Nat → Allocation)
    (msg : MesgT)
    (entries : List (ElementT FunctionId))
    (attempt : Nat)
    (world : Heap Obj × (World × List (Given Obj))) :
    (worldAfter (deliver (logged call) answers) msg entries attempt
        world).2.2 =
      world.2.2 ++
        (deliveriesFrom (deliver call answers) msg entries attempt
            (unlogged world)).map
          fun d =>
            ⟨d.subscriber, (tmpMsg answers d).1, (tmpMsg answers d).2⟩ := by
  induction entries generalizing attempt world with
  | nil =>
      exact (List.append_nil _).symm
  | cons e rest inductionHypothesis =>
      rw [worldAfter, inductionHypothesis]
      exact List.append_assoc ..

/-- Each delivery calls its function with its temporary. -/
theorem calls_eq
    (call : Behaviour World Obj)
    (answers : Nat → Allocation)
    (mList : List (ElementT FunctionId))
    {msg : MesgT}
    (deliverable : Deliverable msg)
    (notification : Notification (Heap Obj × World) FunctionId) :
    calls call answers mList msg notification =
      (deliveries (deliver call answers) mList msg notification).map
        fun d =>
          ⟨d.subscriber, (tmpMsg answers d).1, (tmpMsg answers d).2⟩ := by
  rw [calls, notify, notify_world _ _ deliverable, log_worldAfter,
    deliveries_eq _ _ deliverable]
  rfl

/--
What the functions are called with by one `Notify` is the caller's message with
the tag of each matching entry, in memory of its own, and the caller's message
stays what it was.
-/
structure Isolated
    (call : Behaviour World Obj)
    (answers : Nat → Allocation)
    (mList : List (ElementT FunctionId))
    (msg : MesgT)
    (notification : Notification (Heap Obj × World) FunctionId) :
    Prop where
  contents :
    (calls call answers mList msg notification).map Given.received =
      (mList.filter (ElementT.matches msg.ulMsgId)).map fun e =>
        received e.subscriber
          (notification.world.1, msg.cbId e.ulCbId)
  unshared :
    ∀ d ∈ deliveries (deliver (logged call) answers) mList msg
        (withLog notification),
      ∃ given,
        d.after.2.2 = d.world.2.2 ++ [given] ∧
          ∀ other,
            Live d.world.1 other →
            Unshared given.pMsg other
  message :
    ∃ ulCbId,
      (notify call answers mList (some msg) notification).2.1 =
        some (msg.cbId ulCbId)
  memory :
    SameAt msg notification.world.1
      (notify call answers mList (some msg) notification).1.world.1

section Runs

variable {call : Behaviour World Obj}
variable {answers : Nat → Allocation}
variable {msg : MesgT}

/-- One delivery leaves the caller's message alone. -/
theorem sameAt_deliver
    (spares : Spares msg call)
    {attempt : Nat}
    {world : Heap Obj × World}
    (function : FunctionId)
    (ulCbId : UInt64)
    (presented : Presented world.1 msg)
    (fresh : (answers attempt).Fresh world.1) :
    SameAt msg world.1
      (deliver call answers attempt world function
        (msg.cbId ulCbId)).1.1 := by
  have copied :=
    sameAt_assign fresh presented.live (msg.cbId ulCbId)
  have called :=
    spares function
      ((assign (answers attempt) world.1 mesg (msg.cbId ulCbId)).1,
        world.2)
      (assign (answers attempt) world.1 mesg (msg.cbId ulCbId)).2
      (unshared_assign fresh presented.live (msg.cbId ulCbId))
  exact copied.trans called

/-- What a function would receive depends on the caller's message alone. -/
theorem received_same
    {before after : Heap Obj}
    (same : SameAt msg before after)
    (function : FunctionId)
    (ulCbId : UInt64) :
    received function (after, msg.cbId ulCbId) =
      received function (before, msg.cbId ulCbId) := by
  have data :
      payload after (msg.cbId ulCbId) = payload before (msg.cbId ulCbId) :=
    same.payload_eq
  have object :
      objectOf after (msg.cbId ulCbId) =
        objectOf before (msg.cbId ulCbId) := by
    unfold objectOf
    cases points : (msg.cbId ulCbId).objPtr with
    | none => rfl
    | some pointer => exact same.obj pointer points
  simp only [received, data, object]

/-- Every delivery finds the caller's message as it was, and leaves it so. -/
theorem sameAt_deliveriesFrom
    (spares : Spares msg call)
    (entries : List (ElementT FunctionId))
    {attempt : Nat}
    {world : Heap Obj × World}
    (presented : Presented world.1 msg)
    (allocates :
      ∀ d ∈ deliveriesFrom (deliver call answers) msg entries
          attempt world,
        Allocates answers d) :
    (∀ d ∈ deliveriesFrom (deliver call answers) msg entries attempt world,
        SameAt msg world.1 d.world.1) ∧
      SameAt msg world.1
        (worldAfter (deliver call answers) msg entries attempt
          world).1 := by
  induction entries generalizing attempt world with
  | nil =>
      exact ⟨by simp [deliveriesFrom], SameAt.refl msg world.1⟩
  | cons e rest inductionHypothesis =>
      have first := allocates _ List.mem_cons_self
      have same :=
        sameAt_deliver spares e.subscriber e.ulCbId presented first.1
      obtain ⟨during, afterwards⟩ :=
        inductionHypothesis (presented.same same)
          (fun d member => allocates d (List.mem_cons_of_mem _ member))
      refine ⟨?_, same.trans afterwards⟩
      intro d member
      rcases List.mem_cons.mp member with rfl | later
      · exact SameAt.refl msg world.1
      · exact same.trans (during d later)

/-- So all functions receive the contents of the caller's message. -/
theorem contents_deliveriesFrom
    (spares : Spares msg call)
    (entries : List (ElementT FunctionId))
    {attempt : Nat}
    {world : Heap Obj × World}
    (presented : Presented world.1 msg)
    (allocates :
      ∀ d ∈ deliveriesFrom (deliver call answers) msg entries
          attempt world,
        Allocates answers d) :
    (deliveriesFrom (deliver call answers) msg entries
          attempt world).map
        (fun d => received d.subscriber (tmpMsg answers d)) =
      entries.map fun e =>
        received e.subscriber (world.1, msg.cbId e.ulCbId) := by
  have same :=
    (sameAt_deliveriesFrom spares entries presented allocates).1
  have each :
      ∀ d ∈ deliveriesFrom (deliver call answers) msg entries
          attempt world,
        received d.subscriber (tmpMsg answers d) =
          received d.subscriber (world.1, d.pMsg) := by
    intro d member
    obtain ⟨e, _, tagged⟩ := exists_entry_of_mem_deliveriesFrom member
    have found : Presented d.world.1 d.pMsg := by
      have there := presented.same (same d member)
      rw [tagged]
      exact ⟨there.sized, there.stored, there.object⟩
    rw [received_tmpMsg (allocates d member) found, tagged]
    exact received_same (same d member) d.subscriber e.ulCbId
  have listed :=
    map_deliveriesFrom (deliver call answers) msg entries attempt world
  calc
    (deliveriesFrom (deliver call answers) msg entries attempt world).map
          (fun d => received d.subscriber (tmpMsg answers d)) =
        ((deliveriesFrom (deliver call answers) msg entries
            attempt world).map (fun d => (d.subscriber, d.pMsg))).map
          (fun given => received given.1 (world.1, given.2)) := by
      rw [List.map_map]
      exact List.map_congr_left each
    _ = entries.map fun e =>
          received e.subscriber (world.1, msg.cbId e.ulCbId) := by
      rw [listed, List.map_map]
      rfl

/-- One `Notify` isolates its functions. -/
theorem isolated_of_spares
    (spares : Spares msg call)
    (mList : List (ElementT FunctionId))
    (notification : Notification (Heap Obj × World) FunctionId)
    (presented : Presented notification.world.1 msg)
    (allocates :
      ∀ d ∈ deliveries (deliver call answers) mList msg notification,
        Allocates answers d) :
    Isolated call answers mList msg notification := by
  have deliverable : Deliverable msg := by
    intro points noSize
    have sized := presented.sized points
    rw [noSize] at sized
    exact absurd sized (by decide)
  refine ⟨?_, ?_, ?_, ?_⟩
  · rw [calls_eq _ _ _ deliverable, List.map_map]
    rw [deliveries_eq _ _ deliverable] at allocates ⊢
    exact contents_deliveriesFrom spares _ presented allocates
  · intro d member
    have unlogs :
        d.map unlogged ∈
          deliveries (deliver call answers) mList msg notification := by
      rw [← map_unlogged_deliveries call answers mList deliverable]
      exact List.mem_map_of_mem member
    rw [deliveries_eq _ _ deliverable] at member
    have left :
        (deliver (logged call) answers d.attempt d.world d.subscriber
          d.pMsg).1 = d.after :=
      congrArg Prod.fst (deliver_of_mem_deliveriesFrom member)
    refine
      ⟨⟨d.subscriber, (tmpMsg answers (d.map unlogged)).1,
        (tmpMsg answers (d.map unlogged)).2⟩, ?_, ?_⟩
    · rw [← left]
      rfl
    · intro other live
      exact unshared_assign (allocates _ unlogs).1 live d.pMsg
  · exact notify_message ..
  · rw [deliveries_eq _ _ deliverable] at allocates
    rw [notify, notify_world _ _ deliverable]
    exact (sameAt_deliveriesFrom spares _ presented allocates).2

end Runs

/--
Two runs of `Notify` that start from the same message, with callbacks that spare
it and an allocator that succeeds, isolate their functions and call them with the
same contents, whatever the callbacks do.
-/
theorem notify_isolates
    {call otherCall : Behaviour World Obj}
    {answers otherAnswers : Nat → Allocation}
    (mList : List (ElementT FunctionId))
    {msg : MesgT}
    {notification otherNotification :
      Notification (Heap Obj × World) FunctionId}
    (presented : Presented notification.world.1 msg)
    (sameMessage :
      SameAt msg notification.world.1 otherNotification.world.1)
    (spares : Spares msg call)
    (otherSpares : Spares msg otherCall)
    (allocates :
      ∀ d ∈ deliveries (deliver call answers) mList msg notification,
        Allocates answers d)
    (otherAllocates :
      ∀ d ∈ deliveries (deliver otherCall otherAnswers) mList msg
          otherNotification,
        Allocates otherAnswers d) :
    Isolated call answers mList msg notification ∧
      Isolated otherCall otherAnswers mList msg otherNotification ∧
      (calls call answers mList msg notification).map Given.received =
        (calls otherCall otherAnswers mList msg
            otherNotification).map Given.received := by
  have first :=
    isolated_of_spares spares mList notification presented allocates
  have second :=
    isolated_of_spares otherSpares mList otherNotification
      (presented.same sameMessage) otherAllocates
  refine ⟨first, second, ?_⟩
  rw [first.contents, second.contents]
  apply List.map_congr_left
  intro e _
  exact (received_same sameMessage e.subscriber e.ulCbId).symm

/-- `ThreadApp::FunctionMsg` of the demo: release the message. -/
def functionMsg : Behaviour World Obj :=
  fun _ state pMsg =>
    (((free state.1 pMsg).1, state.2), 0)

/-- Releasing one message spares every message that shares nothing with it. -/
theorem spares_functionMsg
    (msg : MesgT) :
    Spares msg (functionMsg : Behaviour World Obj) := by
  intro function state given unshared
  change SameAt msg state.1 (free state.1 given).1
  have data : SameAt msg state.1 (freeData state.1 given).1 := by
    unfold freeData
    cases points : given.tpMsgData.1 with
    | none =>
        exact SameAt.refl msg state.1
    | some pointer =>
        constructor
        · intro other otherPoints
          have different : other ≠ pointer := by
            rintro rfl
            exact unshared.1 other otherPoints points
          simp only [Heap.freeBlock]
          split
          · rfl
          · exact Function.update_of_ne different ..
        · intro other _
          simp only [Heap.freeBlock]
          split <;> rfl
  have sameObj :
      (freeData state.1 given).2.pclsMsgObj = given.pclsMsgObj := by
    unfold freeData
    split <;> rfl
  apply data.trans
  unfold free freeObj
  dsimp only
  rw [sameObj]
  cases points : given.pclsMsgObj with
  | none =>
      exact SameAt.refl msg _
  | some pointer =>
      constructor
      · intro other _
        simp only [Heap.deleteObj]
        split <;> rfl
      · intro other otherPoints
        have different : other ≠ pointer := by
          rintro rfl
          exact unshared.2 other otherPoints points
        simp only [Heap.deleteObj]
        split
        · rfl
        · exact Function.update_of_ne different ..

/-- A payload of one byte for two functions. -/
def oneByte : MesgT :=
  { mesg with tpMsgData := (some 7, 1) }

/-- Two subscribers for everything, and one for another message. -/
def threeEntries : List (ElementT FunctionId) :=
  [⟨1, 0, 5⟩, ⟨3, 9, 4⟩, ⟨2, 0, 6⟩]

/-- Two functions release their copies, or keep them: they receive the same. -/
theorem notify_isolates_released_or_kept :
    Isolated functionMsg (fun _ => ⟨some 8, 0⟩) threeEntries oneByte
        ⟨(oneBlock, ()), 0, []⟩ ∧
      Isolated (fun _ state _ => (state, 0))
        (fun attempt => ⟨some (8 + attempt), 0⟩) threeEntries oneByte
        ⟨(oneBlock, ()), 0, []⟩ ∧
      (calls functionMsg (fun _ => ⟨some 8, 0⟩) threeEntries oneByte
          ⟨(oneBlock, ()), 0, []⟩).map Given.received =
        (calls (fun _ state _ => (state, 0))
            (fun attempt => ⟨some (8 + attempt), 0⟩) threeEntries oneByte
            ⟨(oneBlock, ()), 0, []⟩).map Given.received := by
  have presented : Presented oneBlock oneByte :=
    ⟨fun _ => by decide, by decide, fun _ points => by cases points⟩
  have deliverable : Deliverable oneByte :=
    fun _ => by decide
  refine notify_isolates threeEntries presented
    (SameAt.refl oneByte oneBlock) (spares_functionMsg oneByte)
    (fun _ _ _ _ => SameAt.refl oneByte _) ?_ ?_
  · intro d member
    rw [deliveries_eq _ _ deliverable] at member
    change d ∈ [_, _] at member
    rcases List.mem_pair.mp member with rfl | rfl
    · exact ⟨by decide, fun _ => rfl⟩
    · exact ⟨by decide, fun _ => rfl⟩
  · intro d member
    rw [deliveries_eq _ _ deliverable] at member
    change d ∈ [_, _] at member
    rcases List.mem_pair.mp member with rfl | rfl
    · exact ⟨by decide, fun _ => rfl⟩
    · exact ⟨by decide, fun _ => rfl⟩

end WkcRuntime.ObservableFunction
