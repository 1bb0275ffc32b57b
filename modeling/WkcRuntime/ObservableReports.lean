import WkcRuntime.MesgLedger
import WkcRuntime.ObservableSubscriptions

namespace WkcRuntime.Mesg

/-!
# Which failures `Notify` reports

`Notify` keeps the result of each delivery in one variable, so the result that
it returns is the one of the last delivery.  The code of a payload that could
not be allocated does not get that far: `operator=` drops it, and the message is
delivered without its payload.  For both classes the outcomes of the single
deliveries tell exactly when a failure stays unreported.

A delivery is judged by what it leaves behind: by the message that is in the
queue afterwards, and by the message in a log that the called function keeps.
-/

/-- The message announces payload bytes, which a copy has to allocate. -/
def MesgT.NeedsBlock (this : MesgT) : Prop :=
  this.dataPtr.isSome = true ∧ 0 < this.tpMsgData.2

instance (this : MesgT) : Decidable this.NeedsBlock :=
  inferInstanceAs (Decidable (_ ∧ _))

/-- The payload bytes of a message, if its block has all of them. -/
def payload
    {Obj : Type}
    (heap : Heap Obj)
    (this : MesgT) :
    Option (List UInt8) :=
  match this.dataPtr with
  | none =>
      some []
  | some pointer =>
      if 0 < this.tpMsgData.2 then
        (heap.block pointer).bind fun bytes =>
          if bytes.length < this.tpMsgData.2.toNatClampNeg then
            none
          else
            some (bytes.take this.tpMsgData.2.toNatClampNeg)
      else
        some []

/-- The fields that `CopyMsg` copies into an empty message first. -/
def headerOf (clsMsg : MesgT) : MesgT :=
  { mesg with
    ulMsgId := clsMsg.ulMsgId
    tpMsgCmd := clsMsg.tpMsgCmd
    ulCbId := clsMsg.ulCbId
    u32SeqCnt := clsMsg.u32SeqCnt }

/-- A copy has the header of its source and all payload bytes of it. -/
def FullCopy
    {Obj : Type}
    (source copy : Heap Obj × MesgT) :
    Prop :=
  headerOf copy.2 = headerOf source.2 ∧
    (source.2.NeedsBlock →
        copy.2.NeedsBlock ∧
          copy.2.tpMsgData.2 = source.2.tpMsgData.2) ∧
    ∀ bytes,
      payload source.1 source.2 = some bytes →
      payload copy.1 copy.2 = some bytes

section Copies

variable {Obj : Type}

/-- The payload depends on the blocks alone. -/
theorem payload_congr
    {before after : Heap Obj}
    (same : before.block = after.block)
    (this : MesgT) :
    payload before this = payload after this := by
  unfold payload
  rw [same]

/-- Cloning the object leaves the payload alone. -/
theorem fullCopy_copyObj
    (source : Heap Obj × MesgT)
    (allocation : Allocation)
    (heap : Heap Obj)
    (this clsMsg : MesgT) :
    FullCopy source (copyObj allocation heap this clsMsg) ↔
      FullCopy source (heap, this) := by
  unfold copyObj
  cases clsMsg.pclsMsgObj with
  | none =>
      exact Iff.rfl
  | some object =>
      have same :
          payload (heap.cloneObj allocation.obj object)
              (this.msgObjPtr (some allocation.obj)) =
            payload heap this :=
        payload_congr (cloneObj_block _ _ _) this
      simp only [FullCopy, same]
      rfl

/-- Assigning to an empty message releases nothing. -/
theorem assign_mesg
    (allocation : Allocation)
    (heap : Heap Obj)
    (msg : MesgT) :
    assign allocation heap mesg msg =
      copyObj allocation
        (copyData allocation heap (headerOf msg) msg).1
        (copyData allocation heap (headerOf msg) msg).2.1 msg :=
  rfl

/-- A message that announces no bytes has an empty payload. -/
theorem payload_of_not_needsBlock
    (heap : Heap Obj)
    {this : MesgT}
    (none : ¬ this.NeedsBlock) :
    payload heap this = some [] := by
  unfold payload
  cases points : this.dataPtr with
  | none =>
      rfl
  | some pointer =>
      have noBytes : ¬ 0 < this.tpMsgData.2 :=
        fun bytes => none ⟨by rw [points]; rfl, bytes⟩
      simp only [noBytes, ↓reduceIte]

/-- The payload bytes are the first ones of the block. -/
theorem payload_eq_some_iff
    {heap : Heap Obj}
    {this : MesgT}
    {pointer : BlockId}
    {bytes : List UInt8}
    (points : this.dataPtr = some pointer)
    (announced : 0 < this.tpMsgData.2) :
    payload heap this = some bytes ↔
      ∃ content,
        heap.block pointer = some content ∧
          this.tpMsgData.2.toNatClampNeg ≤ content.length ∧
          bytes = content.take this.tpMsgData.2.toNatClampNeg := by
  unfold payload
  simp only [points, announced, ↓reduceIte, Option.bind_eq_some_iff]
  constructor
  · rintro ⟨content, stored, taken⟩
    split at taken
    · cases taken
    · next long =>
        exact ⟨content, stored, Nat.not_lt.mp long,
          (Option.some.inj taken).symm⟩
  · rintro ⟨content, stored, long, rfl⟩
    exact ⟨content, stored, if_neg (Nat.not_lt.mpr long)⟩

/-- A copy is full unless it has to allocate and cannot. -/
theorem fullCopy_assign_iff
    (allocation : Allocation)
    (heap : Heap Obj)
    (msg : MesgT) :
    FullCopy (heap, msg) (assign allocation heap mesg msg) ↔
      (msg.NeedsBlock → allocation.block.isSome = true) := by
  rw [assign_mesg, fullCopy_copyObj]
  by_cases needs : msg.NeedsBlock
  · obtain ⟨pointer, points⟩ := Option.isSome_iff_exists.mp needs.1
    have sigPtr : msg.tpMsgData.1 = some pointer := points
    cases allocated : allocation.block with
    | none =>
        simp only [copyData, sigPtr, needs.2, ↓reduceIte, allocated]
        constructor
        · intro full
          exact absurd (full.2.1 needs).1.1 Bool.false_ne_true
        · intro available
          exact absurd (available needs) Bool.false_ne_true
    | some target =>
        simp only [copyData, sigPtr, needs.2, ↓reduceIte, allocated,
          Option.isSome_some, implies_true, iff_true]
        refine ⟨rfl, fun _ => ⟨⟨rfl, needs.2⟩, rfl⟩, ?_⟩
        intro bytes stored
        obtain ⟨content, inBlock, long, rfl⟩ :=
          (payload_eq_some_iff points needs.2).mp stored
        have live : heap.block pointer = some content := inBlock
        apply (@payload_eq_some_iff _ _
          ((headerOf msg).msgData (some target) msg.tpMsgData.2)
          target _ rfl needs.2).mpr
        refine ⟨content.take msg.tpMsgData.2.toNatClampNeg, ?_, ?_, ?_⟩
        · simp only [Heap.duplicateBlock, live, Nat.not_lt.mpr long,
            ↓reduceIte, Function.update_self]
        · exact (List.length_take_of_le long).ge
        · exact (List.take_of_length_le
            (List.length_take_of_le long).le).symm
  · have noCopy :
        copyData allocation heap (headerOf msg) msg =
          (heap, headerOf msg, 0) := by
      unfold copyData
      cases points : msg.tpMsgData.1 with
      | none =>
          rfl
      | some pointer =>
          have noBytes : ¬ 0 < msg.tpMsgData.2 :=
            fun bytes => needs ⟨by
              rw [MesgT.dataPtr, points]
              rfl, bytes⟩
          simp only [noBytes, ↓reduceIte]
          rfl
    simp only [noCopy, needs, false_implies, iff_true]
    refine ⟨rfl, fun needed => absurd needed needs, ?_⟩
    intro bytes stored
    rw [payload_of_not_needsBlock heap needs] at stored
    exact stored

end Copies

end WkcRuntime.Mesg

namespace WkcRuntime.Observable

open Mesg MsgQueue

section Record

variable {World Subscriber : Type}

/-- One delivery: what it started from, left behind and returned. -/
structure Delivery (World Subscriber : Type) where
  attempt : Nat
  world : World
  subscriber : Subscriber
  pMsg : MesgT
  after : World
  rc : Int32

/-- Deliver, and write the delivery down. -/
def recorded
    (deliver : Deliver World Subscriber) :
    Deliver (World × List (Delivery World Subscriber)) Subscriber :=
  fun attempt state subscriber pMsg =>
    let delivered := deliver attempt state.1 subscriber pMsg
    ((delivered.1,
        state.2 ++
          [⟨attempt, state.1, subscriber, pMsg, delivered.1,
            delivered.2⟩]),
      delivered.2)

/-- The deliveries of one `Notify`, in their order. -/
def deliveries
    (deliver : Deliver World Subscriber)
    (mList : List (ElementT Subscriber))
    (msg : MesgT)
    (notification : Notification World Subscriber) :
    List (Delivery World Subscriber) :=
  (notify (recorded deliver) mList (some msg)
    { world := (notification.world, [])
      gExecuteCnt := notification.gExecuteCnt
      attempts := notification.attempts }).1.world.2

/-- The deliveries to the given entries, one after another. -/
def deliveriesFrom
    (deliver : Deliver World Subscriber)
    (msg : MesgT) :
    List (ElementT Subscriber) →
      Nat →
      World →
      List (Delivery World Subscriber)
  | [], _, _ =>
      []
  | e :: rest, attempt, world =>
      let tagged := msg.cbId e.ulCbId
      let delivered := deliver attempt world e.subscriber tagged
      ⟨attempt, world, e.subscriber, tagged, delivered.1, delivered.2⟩ ::
        deliveriesFrom deliver msg rest (attempt + 1) delivered.1

/-- A message is tagged anew for every entry. -/
theorem deliveriesFrom_cbId
    (deliver : Deliver World Subscriber)
    (msg : MesgT)
    (ulCbId : UInt64)
    (entries : List (ElementT Subscriber))
    (attempt : Nat)
    (world : World) :
    deliveriesFrom deliver (msg.cbId ulCbId) entries attempt world =
      deliveriesFrom deliver msg entries attempt world := by
  induction entries generalizing attempt world with
  | nil =>
      rfl
  | cons e rest inductionHypothesis =>
      simp only [deliveriesFrom, inductionHypothesis]
      rfl

/-- The loop delivers to the matching entries, one after another. -/
theorem notifyEach_recorded
    (deliver : Deliver World Subscriber)
    (mList : List (ElementT Subscriber))
    (pMsg : MesgT)
    (rc : Int32)
    (notification :
      Notification (World × List (Delivery World Subscriber)) Subscriber) :
    (notifyEach (recorded deliver) mList pMsg rc
        notification).1.world.2 =
      notification.world.2 ++
        deliveriesFrom deliver pMsg
          (mList.filter (ElementT.matches pMsg.ulMsgId))
          notification.attempts.length notification.world.1 := by
  induction mList generalizing pMsg rc notification with
  | nil =>
      simp [notifyEach, deliveriesFrom]
  | cons e rest inductionHypothesis =>
      unfold notifyEach
      cases matched : e.matches pMsg.ulMsgId with
      | false =>
          simp [inductionHypothesis, matched]
      | true =>
          have sameId : (pMsg.cbId e.ulCbId).ulMsgId = pMsg.ulMsgId :=
            rfl
          simp [inductionHypothesis, matched, sameId, deliveriesFrom_cbId,
            deliveriesFrom, recorded]

/-- The loop returns what the last delivery returned. -/
theorem notifyEach_rc
    (deliver : Deliver World Subscriber)
    (mList : List (ElementT Subscriber))
    (pMsg : MesgT)
    (rc : Int32)
    (notification : Notification World Subscriber) :
    (notifyEach deliver mList pMsg rc notification).2.2 =
      (((deliveriesFrom deliver pMsg
          (mList.filter (ElementT.matches pMsg.ulMsgId))
          notification.attempts.length notification.world).getLast?).map
        Delivery.rc).getD rc := by
  induction mList generalizing pMsg rc notification with
  | nil =>
      simp [notifyEach, deliveriesFrom]
  | cons e rest inductionHypothesis =>
      unfold notifyEach
      cases matched : e.matches pMsg.ulMsgId with
      | false =>
          simp [inductionHypothesis, matched]
      | true =>
          have sameId : (pMsg.cbId e.ulCbId).ulMsgId = pMsg.ulMsgId :=
            rfl
          simp only [↓reduceIte, inductionHypothesis, sameId,
            deliveriesFrom_cbId, List.filter_cons, matched, deliveriesFrom,
            List.getLast?_cons, List.length_append, List.length_singleton]
          cases
            (deliveriesFrom deliver pMsg
              (rest.filter (ElementT.matches pMsg.ulMsgId))
              (notification.attempts.length + 1)
              (deliver notification.attempts.length notification.world
                e.subscriber (pMsg.cbId e.ulCbId)).1).getLast? with
          | none => rfl
          | some last => rfl

/-- What `Notify` returns for a message that it does not refuse. -/
theorem notify_rc
    (deliver : Deliver World Subscriber)
    (mList : List (ElementT Subscriber))
    {msg : MesgT}
    (deliverable : Deliverable msg)
    (notification : Notification World Subscriber) :
    (notify deliver mList (some msg) notification).2.2 =
      ((deliveries deliver mList msg notification).getLast?.map
        Delivery.rc).getD 0 := by
  have accepted :
      ¬ (msg.tpMsgData.1.isSome = true ∧ msg.tpMsgData.2 = 0) :=
    fun ⟨points, noSize⟩ => deliverable points noSize
  simp only [deliveries, notify, accepted, ↓reduceIte, notifyEach_rc,
    notifyEach_recorded, List.nil_append]

/-- The deliveries of a message that is not refused. -/
theorem deliveries_eq
    (deliver : Deliver World Subscriber)
    (mList : List (ElementT Subscriber))
    {msg : MesgT}
    (deliverable : Deliverable msg)
    (notification : Notification World Subscriber) :
    deliveries deliver mList msg notification =
      deliveriesFrom deliver msg
        (mList.filter (ElementT.matches msg.ulMsgId))
        notification.attempts.length notification.world := by
  have accepted :
      ¬ (msg.tpMsgData.1.isSome = true ∧ msg.tpMsgData.2 = 0) :=
    fun ⟨points, noSize⟩ => deliverable points noSize
  simp only [deliveries, notify, accepted, ↓reduceIte,
    notifyEach_recorded, List.nil_append]

/-- One delivery for each entry, with the tag of the entry. -/
theorem map_deliveriesFrom
    (deliver : Deliver World Subscriber)
    (msg : MesgT)
    (entries : List (ElementT Subscriber))
    (attempt : Nat)
    (world : World) :
    (deliveriesFrom deliver msg entries attempt world).map
        (fun d => (d.subscriber, d.pMsg)) =
      entries.map fun e => (e.subscriber, msg.cbId e.ulCbId) := by
  induction entries generalizing attempt world with
  | nil =>
      rfl
  | cons e rest inductionHypothesis =>
      simp only [deliveriesFrom, List.map_cons, inductionHypothesis]

/-- A delivery is made to one of the entries. -/
theorem exists_entry_of_mem_deliveriesFrom
    {deliver : Deliver World Subscriber}
    {msg : MesgT}
    {entries : List (ElementT Subscriber)}
    {attempt : Nat}
    {world : World}
    {d : Delivery World Subscriber}
    (member : d ∈ deliveriesFrom deliver msg entries attempt world) :
    ∃ e ∈ entries, d.pMsg = msg.cbId e.ulCbId := by
  have listed :
      (d.subscriber, d.pMsg) ∈
        entries.map fun e => (e.subscriber, msg.cbId e.ulCbId) := by
    rw [← map_deliveriesFrom deliver msg entries attempt world]
    exact List.mem_map_of_mem member
  obtain ⟨e, inEntries, same⟩ := List.mem_map.mp listed
  exact ⟨e, inEntries, (Prod.mk.inj same).2.symm⟩

/-- A delivery, seen in a part of the world. -/
def Delivery.map
    {Part : Type}
    (part : World → Part)
    (d : Delivery World Subscriber) :
    Delivery Part Subscriber :=
  ⟨d.attempt, part d.world, d.subscriber, d.pMsg, part d.after, d.rc⟩

/-- Deliveries that act alike on a part of the world are alike there. -/
theorem map_part_deliveriesFrom
    {Part : Type}
    {part : World → Part}
    {deliver : Deliver World Subscriber}
    {deliverPart : Deliver Part Subscriber}
    (same :
      ∀ attempt world subscriber pMsg,
        (part (deliver attempt world subscriber pMsg).1,
            (deliver attempt world subscriber pMsg).2) =
          deliverPart attempt (part world) subscriber pMsg)
    (msg : MesgT)
    (entries : List (ElementT Subscriber))
    (attempt : Nat)
    (world : World) :
    (deliveriesFrom deliver msg entries attempt world).map
        (Delivery.map part) =
      deliveriesFrom deliverPart msg entries attempt (part world) := by
  induction entries generalizing attempt world with
  | nil =>
      rfl
  | cons e rest inductionHypothesis =>
      have first := same attempt world e.subscriber (msg.cbId e.ulCbId)
      simp only [deliveriesFrom, List.map_cons, inductionHypothesis,
        ← first]
      rfl

/-- How one delivery ends: its result, and whether `malloc` had a block. -/
structure Outcome where
  rc : Int32
  allocated : Bool
  deriving DecidableEq, Repr

/-- The outcomes of single deliveries to the given entries, one after another. -/
def outcomesFrom
    (outcome : Nat → World → Subscriber → MesgT → World × Outcome)
    (msg : MesgT) :
    List (ElementT Subscriber) →
      Nat →
      World →
      List Outcome
  | [], _, _ =>
      []
  | e :: rest, attempt, world =>
      let ended := outcome attempt world e.subscriber (msg.cbId e.ulCbId)
      ended.2 :: outcomesFrom outcome msg rest (attempt + 1) ended.1

/--
The message is refused, the last delivery fails, or all deliveries succeed and
none of them lacks memory for the payload.
-/
def NothingHidden
    (msg : MesgT)
    (outcomes : List Outcome) :
    Prop :=
  ¬ Deliverable msg ∨
    (∃ last, outcomes.getLast? = some last ∧ last.rc ≠ 0) ∨
    ∀ outcome ∈ outcomes,
      outcome.rc = 0 ∧
        (msg.NeedsBlock → outcome.allocated = true)

/--
A result of 0 says that each matching entry was served with a complete copy and
that each of these deliveries returned 0.
-/
def ReportsFailures
    (Complete : Delivery World Subscriber → Prop)
    (mList : List (ElementT Subscriber))
    (msg : MesgT)
    (rc : Int32)
    (served : List (Delivery World Subscriber)) :
    Prop :=
  rc = 0 →
    served.map (fun d => (d.subscriber, d.pMsg)) =
        (mList.filter (ElementT.matches msg.ulMsgId)).map
          (fun e => (e.subscriber, msg.cbId e.ulCbId)) ∧
      ∀ d ∈ served, d.rc = 0 ∧ Complete d

/-- A delivery ends as the outcome says, complete unless a block was missing. -/
def EndsAs
    (Complete : Delivery World Subscriber → Prop)
    (msg : MesgT)
    (d : Delivery World Subscriber)
    (outcome : Outcome) :
    Prop :=
  d.rc = outcome.rc ∧
    (d.rc = 0 →
      (Complete d ↔ (msg.NeedsBlock → outcome.allocated = true)))

/-- Deliveries that each end as an outcome says do so one after another. -/
theorem deliveriesFrom_endAs
    {Part : Type}
    {part : World → Part}
    {deliver : Deliver World Subscriber}
    {outcome : Nat → Part → Subscriber → MesgT → Part × Outcome}
    {Complete : Delivery World Subscriber → Prop}
    {msg : MesgT}
    (same :
      ∀ attempt world subscriber pMsg,
        part (deliver attempt world subscriber pMsg).1 =
          (outcome attempt (part world) subscriber pMsg).1)
    (endsAs :
      ∀ attempt world subscriber ulCbId,
        EndsAs Complete msg
          ⟨attempt, world, subscriber, msg.cbId ulCbId,
            (deliver attempt world subscriber (msg.cbId ulCbId)).1,
            (deliver attempt world subscriber (msg.cbId ulCbId)).2⟩
          (outcome attempt (part world) subscriber
            (msg.cbId ulCbId)).2)
    (entries : List (ElementT Subscriber))
    (attempt : Nat)
    (world : World) :
    List.Forall₂ (EndsAs Complete msg)
      (deliveriesFrom deliver msg entries attempt world)
      (outcomesFrom outcome msg entries attempt (part world)) := by
  induction entries generalizing attempt world with
  | nil =>
      exact .nil
  | cons e rest inductionHypothesis =>
      refine .cons (endsAs attempt world e.subscriber e.ulCbId) ?_
      rw [← same]
      exact inductionHypothesis (attempt + 1) _

/-- The last results are the same. -/
theorem getLast?_rc_of_endAs
    {Complete : Delivery World Subscriber → Prop}
    {msg : MesgT}
    {served : List (Delivery World Subscriber)}
    {outcomes : List Outcome}
    (endAs : List.Forall₂ (EndsAs Complete msg) served outcomes) :
    served.getLast?.map Delivery.rc = outcomes.getLast?.map Outcome.rc := by
  have results : served.map Delivery.rc = outcomes.map Outcome.rc := by
    induction endAs with
    | nil =>
        rfl
    | cons first _ inductionHypothesis =>
        rw [List.map_cons, List.map_cons, first.1, inductionHypothesis]
  rw [← List.getLast?_map, results, List.getLast?_map]

/-- All deliveries are complete where no outcome is a failure. -/
theorem forall_complete_iff
    {Complete : Delivery World Subscriber → Prop}
    {msg : MesgT}
    {served : List (Delivery World Subscriber)}
    {outcomes : List Outcome}
    (endAs : List.Forall₂ (EndsAs Complete msg) served outcomes) :
    (∀ d ∈ served, d.rc = 0 ∧ Complete d) ↔
      ∀ outcome ∈ outcomes,
        outcome.rc = 0 ∧
          (msg.NeedsBlock → outcome.allocated = true) := by
  induction endAs with
  | nil =>
      simp
  | cons first _ inductionHypothesis =>
      rw [List.forall_mem_cons, List.forall_mem_cons, inductionHypothesis]
      refine and_congr_left fun _ => ?_
      rw [← first.1]
      exact and_congr_right first.2

/-- The result of the last delivery hides the failures before it. -/
theorem reportsFailures_iff
    {Complete : Delivery World Subscriber → Prop}
    {mList : List (ElementT Subscriber)}
    {msg : MesgT}
    {rc : Int32}
    {served : List (Delivery World Subscriber)}
    {outcomes : List Outcome}
    (refused : ¬ Deliverable msg → rc ≠ 0)
    (last :
      Deliverable msg →
      rc = (served.getLast?.map Delivery.rc).getD 0)
    (listed :
      Deliverable msg →
      served.map (fun d => (d.subscriber, d.pMsg)) =
        (mList.filter (ElementT.matches msg.ulMsgId)).map
          (fun e => (e.subscriber, msg.cbId e.ulCbId)))
    (endAs :
      Deliverable msg →
      List.Forall₂ (EndsAs Complete msg) served outcomes) :
    ReportsFailures Complete mList msg rc served ↔
      NothingHidden msg outcomes := by
  by_cases deliverable : Deliverable msg
  · have result := last deliverable
    rw [getLast?_rc_of_endAs (endAs deliverable)] at result
    have complete := forall_complete_iff (endAs deliverable)
    constructor
    · intro reports
      right
      by_cases zero : rc = 0
      · exact .inr (complete.mp (reports zero).2)
      · left
        cases ended : outcomes.getLast? with
        | none =>
            rw [ended] at result
            exact absurd result zero
        | some outcome =>
            rw [ended] at result
            exact ⟨outcome, rfl, fun isZero => zero (result.trans isZero)⟩
    · rintro (noMessage | ⟨outcome, ended, failed⟩ | succeeded) zero
      · exact absurd deliverable noMessage
      · rw [ended] at result
        exact absurd (result.symm.trans zero) failed
      · exact ⟨listed deliverable, complete.mpr succeeded⟩
  · constructor
    · intro _
      exact .inl deliverable
    · intro _ zero
      exact absurd zero (refused deliverable)

/-- A refused message is reported. -/
theorem notify_refused
    (deliver : Deliver World Subscriber)
    (mList : List (ElementT Subscriber))
    {msg : MesgT}
    (refused : ¬ Deliverable msg)
    (notification : Notification World Subscriber) :
    (notify deliver mList (some msg) notification).2.2 ≠ 0 := by
  have noSize :
      msg.tpMsgData.1.isSome = true ∧ msg.tpMsgData.2 = 0 := by
    simpa [Deliverable] using refused
  simp only [notify, noSize, and_self, ↓reduceIte]
  decide

/-- A delivery is made for each matching entry, with the tag of the entry. -/
theorem map_deliveries
    (deliver : Deliver World Subscriber)
    (mList : List (ElementT Subscriber))
    {msg : MesgT}
    (deliverable : Deliverable msg)
    (notification : Notification World Subscriber) :
    (deliveries deliver mList msg notification).map
        (fun d => (d.subscriber, d.pMsg)) =
      (mList.filter (ElementT.matches msg.ulMsgId)).map
        (fun e => (e.subscriber, msg.cbId e.ulCbId)) := by
  rw [deliveries_eq deliver mList deliverable]
  exact map_deliveriesFrom ..

end Record

end WkcRuntime.Observable

namespace WkcRuntime.ObservableQueue

open Mesg MsgQueue Observable

variable {Object Queue Obj : Type}

/-- The queue has one more message, a full copy of the one to deliver. -/
def Complete
    (d : Delivery (Process Object Queue Obj) Int32) :
    Prop :=
  ∃ tmpMsg,
    d.after.kernel.messagesAt d.subscriber =
        MessageQueue.insertByPriority mesgPrioLow tmpMsg
          (d.world.kernel.messagesAt d.subscriber) ∧
      FullCopy (d.world.heap, d.pMsg) (d.after.heap, tmpMsg)

variable [DecidableEq Object] [DecidableEq Queue]

/-- How one queue takes a copy of the message: the result of `MsgQueue::Send`. -/
def outcome
    (answers : Nat → Allocation × Bool)
    (attempt : Nat)
    (process : Process Object Queue Obj)
    (fd : Int32)
    (pMsg : MesgT) :
    Process Object Queue Obj × Outcome :=
  let copied := Mesg.assign (answers attempt).1 process.heap mesg pMsg
  let sent :=
    MsgQueue.send { process with heap := copied.1 } fd copied.2
      mesgPrioLow (answers attempt).2
  (sent.1, ⟨sent.2.2, (answers attempt).1.block.isSome⟩)

/-- The outcomes at the matching entries. -/
def outcomes
    (answers : Nat → Allocation × Bool)
    (mList : List (ElementT Int32))
    (msg : MesgT)
    (notification : Notification (Process Object Queue Obj) Int32) :
    List Outcome :=
  outcomesFrom (outcome answers) msg
    (mList.filter (ElementT.matches msg.ulMsgId))
    notification.attempts.length notification.world

/-- `Notify` returns 0 only if all matching queues got a full copy. -/
def ReportsFailures
    (answers : Nat → Allocation × Bool)
    (mList : List (ElementT Int32))
    (msg : MesgT)
    (notification : Notification (Process Object Queue Obj) Int32) :
    Prop :=
  Observable.ReportsFailures Complete mList msg
    (notify answers mList (some msg) notification).2.2
    (deliveries (deliver answers) mList msg notification)

/-- A send that succeeds leaves the message in its queue. -/
theorem send_eq_zero
    {process : Process Object Queue Obj}
    {fd : Int32}
    {pclsMsg : MesgT}
    {s32Prio : UInt32}
    {accepts : Bool}
    (sent : (MsgQueue.send process fd pclsMsg s32Prio accepts).2.2 = 0) :
    (MsgQueue.send process fd pclsMsg s32Prio accepts).1.heap =
        process.heap ∧
      (MsgQueue.send process fd pclsMsg s32Prio
          accepts).1.kernel.messagesAt fd =
        MessageQueue.insertByPriority s32Prio pclsMsg
          (process.kernel.messagesAt fd) := by
  unfold MsgQueue.send at sent ⊢
  split at sent
  · cases sent
  · next positive =>
      rw [if_neg positive]
      split at sent
      · cases sent
      · next kernel queued =>
          exact ⟨countSent_heap .., by
            rw [countSent_kernel]
            exact MessageQueue.Kernel.messagesAt_of_mqSend queued⟩

/-- A delivery to a queue ends as its outcome says. -/
theorem deliver_endsAs
    (answers : Nat → Allocation × Bool)
    (msg : MesgT)
    (attempt : Nat)
    (process : Process Object Queue Obj)
    (fd : Int32)
    (ulCbId : UInt64) :
    EndsAs Complete msg
      ⟨attempt, process, fd, msg.cbId ulCbId,
        (deliver answers attempt process fd (msg.cbId ulCbId)).1,
        (deliver answers attempt process fd (msg.cbId ulCbId)).2⟩
      (outcome answers attempt process fd (msg.cbId ulCbId)).2 := by
  refine ⟨rfl, fun succeeded => ?_⟩
  obtain ⟨sameHeap, inserted⟩ := send_eq_zero succeeded
  rw [show msg.NeedsBlock ↔ (msg.cbId ulCbId).NeedsBlock from Iff.rfl]
  refine Iff.trans ?_
    (fullCopy_assign_iff (answers attempt).1 process.heap
      (msg.cbId ulCbId))
  constructor
  · rintro ⟨tmpMsg, queued, full⟩
    have same :=
      MessageQueue.insertByPriority_injective (inserted.symm.trans queued)
    subst same
    dsimp only [deliver] at full
    rwa [sameHeap] at full
  · intro full
    refine ⟨_, inserted, ?_⟩
    dsimp only [deliver]
    rwa [sameHeap]

/-- `Notify` reports unless a failure is hidden by a later success. -/
theorem reportsFailures_iff
    (answers : Nat → Allocation × Bool)
    (mList : List (ElementT Int32))
    (msg : MesgT)
    (notification : Notification (Process Object Queue Obj) Int32) :
    ReportsFailures answers mList msg notification ↔
      NothingHidden msg (outcomes answers mList msg notification) := by
  refine Observable.reportsFailures_iff ?_ ?_ ?_ ?_
  · intro refused
    exact notify_refused _ _ refused _
  · intro deliverable
    exact notify_rc _ _ deliverable _
  · intro deliverable
    exact map_deliveries _ _ deliverable _
  · intro deliverable
    rw [deliveries_eq _ _ deliverable]
    have same
        (attempt : Nat)
        (process : Process Object Queue Obj)
        (fd : Int32)
        (pMsg : MesgT) :
        id (deliver answers attempt process fd pMsg).1 =
          (outcome answers attempt (id process) fd pMsg).1 :=
      rfl
    exact deliveriesFrom_endAs same (deliver_endsAs answers msg) _ _ _

end WkcRuntime.ObservableQueue

namespace WkcRuntime.ObservableFunction

open Mesg Observable

variable {World Obj : Type}

/-- One call of a function: the heap that it finds and its message. -/
structure Given (Obj : Type) where
  function : FunctionId
  heap : Heap Obj
  pMsg : MesgT

/-- The same functions, which log their calls. -/
def logged
    (call : Behaviour World Obj) :
    Behaviour (World × List (Given Obj)) Obj :=
  fun function state pMsg =>
    let called := call function (state.1, state.2.1) pMsg
    ((called.1.1,
        (called.1.2, state.2.2 ++ [⟨function, state.1, pMsg⟩])),
      called.2)

/-- The world without the log. -/
def unlogged
    (world : Heap Obj × (World × List (Given Obj))) :
    Heap Obj × World :=
  (world.1, world.2.1)

/-- A notification that starts with an empty log. -/
def withLog
    (notification : Notification (Heap Obj × World) FunctionId) :
    Notification (Heap Obj × (World × List (Given Obj))) FunctionId :=
  { world := (notification.world.1, (notification.world.2, []))
    gExecuteCnt := notification.gExecuteCnt
    attempts := notification.attempts }

/-- The function logs one call, with a full copy of the message to deliver. -/
def Complete
    (d : Delivery (Heap Obj × (World × List (Given Obj))) FunctionId) :
    Prop :=
  ∃ given,
    d.after.2.2 = d.world.2.2 ++ [given] ∧
      given.function = d.subscriber ∧
      FullCopy (d.world.1, d.pMsg) (given.heap, given.pMsg)

/-- How one function takes a copy of the message: what it returns. -/
def outcome
    (call : Behaviour World Obj)
    (answers : Nat → Allocation)
    (attempt : Nat)
    (world : Heap Obj × World)
    (function : FunctionId)
    (pMsg : MesgT) :
    (Heap Obj × World) × Outcome :=
  let copied := Mesg.assign (answers attempt) world.1 mesg pMsg
  let called := call function (copied.1, world.2) copied.2
  (called.1, ⟨called.2, (answers attempt).block.isSome⟩)

/-- The outcomes at the matching entries. -/
def outcomes
    (call : Behaviour World Obj)
    (answers : Nat → Allocation)
    (mList : List (ElementT FunctionId))
    (msg : MesgT)
    (notification : Notification (Heap Obj × World) FunctionId) :
    List Outcome :=
  outcomesFrom (outcome call answers) msg
    (mList.filter (ElementT.matches msg.ulMsgId))
    notification.attempts.length notification.world

/-- `Notify` returns 0 only if all matching functions got a full copy. -/
def ReportsFailures
    (call : Behaviour World Obj)
    (answers : Nat → Allocation)
    (mList : List (ElementT FunctionId))
    (msg : MesgT)
    (notification : Notification (Heap Obj × World) FunctionId) :
    Prop :=
  Observable.ReportsFailures Complete mList msg
    (notify call answers mList (some msg) notification).2.2
    (deliveries (deliver (logged call) answers) mList msg
      (withLog notification))

/-- Logging changes neither the memory nor the result of a delivery. -/
theorem unlogged_deliver
    (call : Behaviour World Obj)
    (answers : Nat → Allocation)
    (attempt : Nat)
    (world : Heap Obj × (World × List (Given Obj)))
    (function : FunctionId)
    (pMsg : MesgT) :
    (unlogged
          (deliver (logged call) answers attempt world function pMsg).1,
        (deliver (logged call) answers attempt world function pMsg).2) =
      deliver call answers attempt (unlogged world) function pMsg :=
  rfl

/-- The deliveries of one `Notify` are the same without the log. -/
theorem map_unlogged_deliveries
    (call : Behaviour World Obj)
    (answers : Nat → Allocation)
    (mList : List (ElementT FunctionId))
    {msg : MesgT}
    (deliverable : Deliverable msg)
    (notification : Notification (Heap Obj × World) FunctionId) :
    (deliveries (deliver (logged call) answers) mList msg
          (withLog notification)).map (Delivery.map unlogged) =
      deliveries (deliver call answers) mList msg notification := by
  rw [deliveries_eq _ _ deliverable, deliveries_eq _ _ deliverable]
  exact map_part_deliveriesFrom (unlogged_deliver call answers) msg _ _ _

/-- A delivery to a function ends as its outcome says. -/
theorem deliver_endsAs
    (call : Behaviour World Obj)
    (answers : Nat → Allocation)
    (msg : MesgT)
    (attempt : Nat)
    (world : Heap Obj × (World × List (Given Obj)))
    (function : FunctionId)
    (ulCbId : UInt64) :
    EndsAs Complete msg
      ⟨attempt, world, function, msg.cbId ulCbId,
        (deliver (logged call) answers attempt world function
          (msg.cbId ulCbId)).1,
        (deliver (logged call) answers attempt world function
          (msg.cbId ulCbId)).2⟩
      (outcome call answers attempt (unlogged world) function
        (msg.cbId ulCbId)).2 := by
  refine ⟨rfl, fun _ => ?_⟩
  rw [show msg.NeedsBlock ↔ (msg.cbId ulCbId).NeedsBlock from Iff.rfl]
  refine Iff.trans ?_
    (fullCopy_assign_iff (answers attempt) world.1 (msg.cbId ulCbId))
  constructor
  · rintro ⟨given, noted, _, full⟩
    obtain rfl := List.singleton_inj.mp (List.append_cancel_left noted)
    exact full
  · intro full
    exact ⟨_, rfl, rfl, full⟩

/-- `Notify` reports unless a failure is hidden by a later success. -/
theorem reportsFailures_iff
    (call : Behaviour World Obj)
    (answers : Nat → Allocation)
    (mList : List (ElementT FunctionId))
    (msg : MesgT)
    (notification : Notification (Heap Obj × World) FunctionId) :
    ReportsFailures call answers mList msg notification ↔
      NothingHidden msg
        (outcomes call answers mList msg notification) := by
  refine Observable.reportsFailures_iff ?_ ?_ ?_ ?_
  · intro refused
    exact notify_refused _ _ refused _
  · intro deliverable
    rw [notify, notify_rc _ _ deliverable,
      ← map_unlogged_deliveries call answers mList deliverable,
      List.getLast?_map, Option.map_map]
    rfl
  · intro deliverable
    exact map_deliveries _ _ deliverable _
  · intro deliverable
    rw [deliveries_eq _ _ deliverable]
    exact deliveriesFrom_endAs (fun _ _ _ _ => rfl)
      (deliver_endsAs call answers msg) _ _ (withLog notification).world

end WkcRuntime.ObservableFunction

namespace WkcRuntime.Observable

open Mesg MsgQueue

variable {Object Queue Obj World : Type}
variable [DecidableEq Object] [DecidableEq Queue]

/--
For both classes: a result of 0 means that all matching subscribers were served
exactly when the message is refused, the last delivery fails, or no delivery
and no allocation fails.
-/
theorem notify_reports_iff
    (queueAnswers : Nat → Allocation × Bool)
    (process : Notification (Process Object Queue Obj) Int32)
    (queues : List (ElementT Int32))
    (call : ObservableFunction.Behaviour World Obj)
    (functionAnswers : Nat → Allocation)
    (world :
      Notification (Heap Obj × World) ObservableFunction.FunctionId)
    (functions : List (ElementT ObservableFunction.FunctionId))
    (msg : MesgT) :
    (ObservableQueue.ReportsFailures queueAnswers queues msg process ↔
        NothingHidden msg
          (ObservableQueue.outcomes queueAnswers queues msg process)) ∧
      (ObservableFunction.ReportsFailures call functionAnswers functions
          msg world ↔
        NothingHidden msg
          (ObservableFunction.outcomes call functionAnswers functions
            msg world)) :=
  ⟨ObservableQueue.reportsFailures_iff ..,
    ObservableFunction.reportsFailures_iff ..⟩

/-- A heap with one payload block of one byte. -/
def oneBlock : Heap Unit where
  block := fun pointer =>
    if pointer = 7 then
      some [1]
    else
      none
  obj := fun _ => none
  fault := false

/-- The second of the two functions fails. -/
def oneFails : ObservableFunction.Behaviour Unit Unit :=
  fun function state _ =>
    (state, if function = 2 then -5 else 0)

/-- Memory for payloads has run out. -/
def noMemory (_attempt : Nat) : Allocation :=
  ⟨none, 0⟩

/--
A function that fails is followed by one that does not, and `Notify` returns 0;
so it does when the only copy of the payload could not be allocated.
-/
theorem failure_hidden :
    ¬ ObservableFunction.ReportsFailures oneFails noMemory
        [⟨2, 0, 0⟩, ⟨1, 0, 0⟩] mesg ⟨(Heap.empty, ()), 0, []⟩ ∧
      ¬ ObservableFunction.ReportsFailures oneFails noMemory
        [⟨1, 0, 0⟩] { mesg with tpMsgData := (some 7, 1) }
        ⟨(oneBlock, ()), 0, []⟩ := by
  constructor
  · intro reports
    obtain ⟨returned, _⟩ := (reports rfl).2 _ (.head _)
    exact absurd returned (by decide)
  · intro reports
    obtain ⟨_, given, noted, _, full⟩ := (reports rfl).2 _ (.head _)
    obtain rfl := List.singleton_inj.mp (List.append_cancel_left noted)
    exact absurd (full.2.1 ⟨rfl, by decide⟩).1.1 (by decide)

end WkcRuntime.Observable
