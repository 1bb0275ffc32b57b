import WkcRuntime.MesgTraffic

namespace WkcRuntime.MsgQueue

open Mesg MessageQueue

/-!
# One owner for every payload and every object

Each call works on the message of one slot.  `InHand` is the ledger of the heap
at such a call: the message in hand, the queued messages, and the holders of
everything else as a summand `rest` that the call leaves alone.  Every function
keeps `InHand` and spares the messages counted by `rest`; the invariant of the
system is the same ledger with nothing in hand.
-/

/-- The payload pointer of a message that may be absent. -/
abbrev dataOf (entry : Option MesgT) : Option BlockId :=
  entry.bind MesgT.dataPtr

/-- The object pointer of a message that may be absent. -/
abbrev objOf (entry : Option MesgT) : Option ObjId :=
  entry.bind MesgT.objPtr

section Calls

variable {Object Queue Obj : Type}
variable [Fintype Queue]

/-- The ledger with one message, or none, in the hand of a call. -/
structure InHand
    (rest restObjs : Nat → Nat)
    (process : Process Object Queue Obj)
    (entry : Option MesgT) :
    Prop where
  ledger :
    Ledger process.heap
      (rest + queuedHolders MesgT.dataPtr process.kernel +
        holding (dataOf entry))
      (restObjs + queuedHolders MesgT.objPtr process.kernel +
        holding (objOf entry))
  intact :
    ∀ msg,
      entry = some msg →
      Intact process.heap msg
  queued :
    ∀ msg,
      Queued process.kernel msg →
      Intact process.heap msg

/-- Messages whose blocks are counted in `rest` stay intact. -/
def Spares
    (rest : Nat → Nat)
    (before after : Heap Obj) :
    Prop :=
  ∀ other : MesgT,
    (∀ pointer,
      other.dataPtr = some pointer →
      0 < rest pointer) →
    Intact before other →
    Intact after other

theorem Spares.refl
    (rest : Nat → Nat)
    (heap : Heap Obj) :
    Spares rest heap heap :=
  fun _ _ intact => intact

theorem Spares.trans
    {rest : Nat → Nat}
    {first second third : Heap Obj}
    (firstSecond : Spares rest first second)
    (secondThird : Spares rest second third) :
    Spares rest first third :=
  fun other held intact =>
    secondThird other held (firstSecond other held intact)

theorem Kept.spares
    {before after : Heap Obj}
    (kept : Kept before after)
    (rest : Nat → Nat) :
    Spares rest before after :=
  fun _ _ intact => intact.kept kept

variable {rest restObjs : Nat → Nat}
variable {process : Process Object Queue Obj}

/-- A message that holds nothing adds nothing to the ledger. -/
theorem InHand.of_nothing
    {entry : Option MesgT}
    (inHand : InHand rest restObjs process entry)
    (other : Option MesgT)
    (noData : dataOf entry = none)
    (noObj : objOf entry = none)
    (otherNoData : dataOf other = none)
    (otherNoObj : objOf other = none) :
    InHand rest restObjs process other where
  ledger := by
    rw [otherNoData.trans noData.symm, otherNoObj.trans noObj.symm]
    exact inHand.ledger
  intact := by
    intro msg named
    subst named
    exact intact_of_dataPtr_none otherNoData
  queued := inHand.queued

/-- Only the heap and the kernel of a process matter. -/
theorem InHand.congr
    {next : Process Object Queue Obj}
    {entry : Option MesgT}
    (inHand : InHand rest restObjs process entry)
    (sameHeap : next.heap = process.heap)
    (sameKernel : next.kernel = process.kernel) :
    InHand rest restObjs next entry where
  ledger := by
    rw [sameHeap, sameKernel]
    exact inHand.ledger
  intact := by
    rw [sameHeap]
    exact inHand.intact
  queued := by
    rw [sameHeap, sameKernel]
    exact inHand.queued

/-- `Free` releases what the message in hand holds. -/
theorem InHand.freeIn
    {this : MesgT}
    (inHand : InHand rest restObjs process (some this)) :
    InHand rest restObjs
        (freeIn process this).1 (some (freeIn process this).2) ∧
      (freeIn process this).2.HoldsNothing ∧
      Spares rest process.heap (freeIn process this).1.heap := by
  have nothing := free_holdsNothing process.heap this
  have kept := kept_free process.heap this
  have released := inHand.ledger.free this
  refine ⟨⟨?_, ?_, ?_⟩, nothing, Kept.spares kept rest⟩
  · have noData : dataOf (some (Mesg.free process.heap this).2) = none :=
      nothing.1
    have noObj : objOf (some (Mesg.free process.heap this).2) = none :=
      nothing.2
    simp only [MsgQueue.freeIn, noData, noObj, holding_none, add_zero]
    exact released
  · rintro msg ⟨rfl⟩
    exact intact_of_dataPtr_none nothing.1
  · intro msg queued
    exact (inHand.queued msg queued).kept kept

variable [DecidableEq Queue]

/-- A received message comes into a hand that held nothing. -/
theorem InHand.receive
    {entry : Option MesgT}
    {fd : Int32}
    {answers : Bool}
    {msg : MesgT}
    {kernel : Kernel Queue MesgT}
    (inHand : InHand rest restObjs process entry)
    (noData : dataOf entry = none)
    (noObj : objOf entry = none)
    (received :
      process.kernel.mqReceive fd answers = some (msg, kernel)) :
    InHand rest restObjs { process with kernel } (some msg) := by
  obtain ⟨queue, prio, remaining, _, stored, rfl⟩ :=
    Kernel.mqReceive_cases received
  have wasQueued : Queued process.kernel msg :=
    ⟨queue, (prio, msg), by simp [stored], rfl⟩
  refine ⟨?_, ?_, ?_⟩
  · have ledger := inHand.ledger
    simp only [noData, noObj, holding_none, add_zero] at ledger
    rw [queuedHolders_take MesgT.dataPtr stored,
      queuedHolders_take MesgT.objPtr stored,
      ← add_assoc, ← add_assoc] at ledger
    exact ledger
  · rintro other ⟨rfl⟩
    exact inHand.queued msg wasQueued
  · intro other queued
    rcases queued_setMessages queued with
      ⟨entry, member, rfl⟩ | before
    · exact inHand.queued entry.2
        ⟨queue, entry, by simp [stored, member], rfl⟩
    · exact inHand.queued other before

/-- A sent message leaves the hand for the queue. -/
theorem InHand.send
    {this : MesgT}
    {fd : Int32}
    {prio : UInt32}
    {accepts : Bool}
    {kernel : Kernel Queue MesgT}
    (inHand : InHand rest restObjs process (some this))
    (sent :
      process.kernel.mqSend fd this prio accepts = some kernel) :
    InHand rest restObjs { process with kernel } none := by
  obtain ⟨queue, _, rfl⟩ := Kernel.mqSend_cases sent
  refine ⟨?_, ?_, ?_⟩
  · have ledger := inHand.ledger
    simp only [Option.bind_some] at ledger
    simp only [queuedHolders_insert, Option.bind_none, holding_none,
      add_zero, ← add_assoc]
    exact ledger
  · intro msg named
    cases named
  · intro msg queued
    rcases queued_setMessages queued with
      ⟨entry, member, rfl⟩ | before
    · have among :=
        (insertByPriority_perm prio this _).mem_iff.mp member
      rcases List.mem_cons.mp among with rfl | old
      · exact inHand.intact this rfl
      · exact inHand.queued entry.2 ⟨queue, entry, old, rfl⟩
    · exact inHand.queued msg before

variable [DecidableEq Object]

/--
`Send` leaves its message holding nothing: what it held was released or is now
held by the queue.
-/
theorem InHand.sendCall
    {this : MesgT}
    (inHand : InHand rest restObjs process (some this))
    (fd : Int32)
    (prio : UInt32)
    (accepts : Bool) :
    let sent := MsgQueue.send process fd this prio accepts
    InHand rest restObjs sent.1 (some sent.2.1) ∧
      sent.2.1.HoldsNothing ∧
      Spares rest process.heap sent.1.heap := by
  unfold MsgQueue.send
  by_cases badHandle : fd ≤ 0
  · simp only [badHandle, ↓reduceIte]
    exact inHand.freeIn
  · simp only [badHandle, ↓reduceIte]
    cases sent : process.kernel.mqSend fd this prio accepts with
    | none =>
        exact inHand.freeIn
    | some kernel =>
        have queued := (inHand.send sent).of_nothing
          (some ((this.msgData none 0).msgObjPtr none))
          rfl rfl rfl rfl
        refine ⟨queued.congr ?_ ?_, ⟨rfl, rfl⟩, ?_⟩
        · exact countSent_heap _ _
        · exact countSent_kernel _ _
        · simpa using Spares.refl rest process.heap

/-- `SendMsg` may release a second time what `Send` has released. -/
theorem InHand.sendMsgCall
    {this : MesgT}
    (inHand : InHand rest restObjs process (some this))
    (fd : Int32)
    (prio : UInt32)
    (accepts : Bool) :
    let sent := MsgQueue.sendMsg process fd this prio accepts
    InHand rest restObjs sent.1 (some sent.2.1) ∧
      Spares rest process.heap sent.1.heap := by
  obtain ⟨afterSend, _, spared⟩ := inHand.sendCall fd prio accepts
  unfold MsgQueue.sendMsg
  by_cases failed : (MsgQueue.send process fd this prio accepts).2.2 ≠ 0
  · obtain ⟨afterFree, _, sparedAgain⟩ := afterSend.freeIn
    simp only [failed, ne_eq, not_false_eq_true, ↓reduceIte]
    exact ⟨afterFree, spared.trans sparedAgain⟩
  · simp only [failed, ↓reduceIte]
    exact ⟨afterSend, spared⟩

/-- `Receive` into a message that holds nothing. -/
theorem InHand.receiveCall
    {this : MesgT}
    (inHand : InHand rest restObjs process (some this))
    (nothing : this.HoldsNothing)
    (owner : Object)
    (isPolling : Bool)
    (answers : Answers) :
    let received := MsgQueue.receive process owner this isPolling answers
    InHand rest restObjs received.1 (some received.2.1) ∧
      received.1.heap = process.heap := by
  have received :
      ∀ current : Process Object Queue Obj,
        current.heap = process.heap →
        current.kernel = process.kernel →
        let outcome := receiveInto current owner this answers
        InHand rest restObjs outcome.1 (some outcome.2.1) ∧
          outcome.1.heap = process.heap := by
    intro current sameHeap sameKernel
    have currentHand := inHand.congr sameHeap sameKernel
    unfold receiveInto
    cases taken :
        current.kernel.mqReceive
          (current.object owner).msgQueueFd answers.receive with
    | none =>
        exact ⟨currentHand, sameHeap⟩
    | some outcome =>
        exact ⟨(currentHand.receive nothing.1 nothing.2 taken).congr rfl rfl,
          sameHeap⟩
  unfold MsgQueue.receive
  by_cases badHandle : (process.object owner).msgQueueFd ≤ 0
  · simp only [badHandle, ↓reduceIte]
    exact ⟨inHand, trivial⟩
  · simp only [badHandle, ↓reduceIte]
    split
    · cases answers.select with
      | failed =>
          exact ⟨inHand.congr rfl rfl, rfl⟩
      | notOurQueue =>
          exact ⟨inHand.congr rfl rfl, rfl⟩
      | readable =>
          exact received _ rfl rfl
    · exact received _ rfl rfl

omit [DecidableEq Object] in
/-- `DumpMsgQueue` releases what the messages it takes hold. -/
theorem InHand.dump
    (inHand : InHand rest restObjs process none)
    (fd : Int32)
    (rounds : Nat) :
    InHand rest restObjs (dumpMsgQueue fd rounds process) none ∧
      Spares rest process.heap (dumpMsgQueue fd rounds process).heap := by
  induction rounds generalizing process with
  | zero =>
      exact ⟨inHand, Spares.refl rest process.heap⟩
  | succ rounds inductionHypothesis =>
      unfold dumpMsgQueue
      cases taken : process.kernel.mqReceive fd true with
      | none =>
          exact ⟨inHand, Spares.refl rest process.heap⟩
      | some outcome =>
          obtain ⟨freed, nothing, spared⟩ :=
            (inHand.receive rfl rfl taken).freeIn
          obtain ⟨dumped, sparedLater⟩ :=
            inductionHypothesis
              (freed.of_nothing _ nothing.1 nothing.2 rfl rfl)
          exact ⟨dumped, spared.trans sparedLater⟩

end Calls

section Runs

variable {Slot Object Queue Obj : Type}
variable [Fintype Slot] [Fintype Queue]

/-- The ledger of the heap under the count of all messages. -/
structure Owned
    (system : System Slot Object Queue Obj) :
    Prop where
  ledger :
    Ledger system.process.heap
      (system.holders MesgT.dataPtr)
      (system.holders MesgT.objPtr)
  slots :
    ∀ slot msg,
      system.mesg slot = some msg →
      Intact system.process.heap msg
  queued :
    ∀ msg,
      Queued system.process.kernel msg →
      Intact system.process.heap msg

/-- Without messages and with an empty heap nothing is held. -/
theorem owned_initial
    {system : System Slot Object Queue Obj}
    (emptyHeap : system.process.heap = Heap.empty)
    (noMesg : ∀ slot, system.mesg slot = none)
    (noQueued :
      ∀ queue,
        (system.process.kernel.queue queue).messages = []) :
    Owned system := by
  have nobody :
      ∀ (pointer : MesgT → Option Nat) resource,
        system.holders pointer resource = 0 := by
    intro pointer resource
    have slots :
        slotHolders pointer system.mesg resource = 0 := by
      apply tally_eq_zero_iff.mpr
      intro slot
      simp [noMesg slot]
    have queues :
        queuedHolders pointer system.process.kernel resource = 0 := by
      apply tally_eq_zero_iff.mpr
      intro queue
      simp [holdersInQueue, noQueued queue]
    simp [System.holders, slots, queues]
  refine ⟨⟨?_, ?_, ?_⟩, ?_, ?_⟩
  · rw [emptyHeap]
    rfl
  · intro resource
    rw [nobody, emptyHeap]
    rfl
  · intro resource
    rw [nobody, emptyHeap]
    rfl
  · intro slot msg stored
    simp [noMesg slot] at stored
  · rintro msg ⟨queue, entry, member, _⟩
    simp [noQueued queue] at member

variable [DecidableEq Slot]

/-- What the messages outside one slot hold. -/
def System.others
    (system : System Slot Object Queue Obj)
    (slot : Slot)
    (pointer : MesgT → Option Nat) :
    Nat → Nat :=
  slotHolders pointer (Function.update system.mesg slot none)

/-- The message of a slot, or its absence, taken in hand. -/
theorem Owned.inHand
    {system : System Slot Object Queue Obj}
    (owned : Owned system)
    {slot : Slot}
    {entry : Option MesgT}
    (stored : system.mesg slot = entry) :
    InHand
      (system.others slot MesgT.dataPtr)
      (system.others slot MesgT.objPtr)
      system.process entry := by
  subst stored
  have split :
      ∀ pointer : MesgT → Option Nat,
        system.holders pointer =
          system.others slot pointer +
              queuedHolders pointer system.process.kernel +
            holding ((system.mesg slot).bind pointer) := by
    intro pointer
    have placed :=
      slotHolders_update pointer system.mesg slot (system.mesg slot)
    rw [Function.update_eq_self] at placed
    rw [System.holders, placed]
    exact add_right_comm _ _ _
  refine ⟨?_, owned.slots slot, owned.queued⟩
  rw [← split, ← split]
  exact owned.ledger

/-- The message in hand put back into its slot. -/
theorem Owned.put
    {system : System Slot Object Queue Obj}
    (owned : Owned system)
    {slot : Slot}
    {process : Process Object Queue Obj}
    {entry : Option MesgT}
    (inHand :
      InHand
        (system.others slot MesgT.dataPtr)
        (system.others slot MesgT.objPtr)
        process entry)
    (spared :
      Spares (system.others slot MesgT.dataPtr)
        system.process.heap process.heap) :
    Owned (system.put process slot entry) := by
  have join :
      ∀ pointer : MesgT → Option Nat,
        (system.put process slot entry).holders pointer =
          system.others slot pointer +
              queuedHolders pointer process.kernel +
            holding (entry.bind pointer) := by
    intro pointer
    rw [System.holders, System.put, slotHolders_update]
    exact add_right_comm _ _ _
  refine ⟨?_, ?_, inHand.queued⟩
  · rw [join, join]
    exact inHand.ledger
  · intro other msg stored
    by_cases same : other = slot
    · subst other
      simp only [System.put, Function.update_self] at stored
      exact inHand.intact msg stored
    · simp only [System.put, Function.update_of_ne same] at stored
      refine spared msg ?_ (owned.slots other msg stored)
      intro pointer points
      refine slotHolders_pos other msg ?_ points
      rw [Function.update_of_ne same]
      exact stored

/-- `CopyMsg` from the message of another slot into the one in hand. -/
theorem Owned.copyMsg
    {system : System Slot Object Queue Obj}
    (owned : Owned system)
    {slot source : Slot}
    {this clsMsg : MesgT}
    {allocation : Allocation}
    (different : source ≠ slot)
    (sourceStored : system.mesg source = some clsMsg)
    (inHand :
      InHand
        (system.others slot MesgT.dataPtr)
        (system.others slot MesgT.objPtr)
        system.process (some this))
    (fresh :
      allocation.Fresh (Mesg.free system.process.heap this).1) :
    let copied :=
      Mesg.copyMsg allocation system.process.heap this clsMsg
    Owned (system.put { system.process with heap := copied.1 }
      slot (some copied.2.1)) := by
  have sourceHeld :
      ∀ (pointer : MesgT → Option Nat) resource,
        pointer clsMsg = some resource →
        0 < (system.others slot pointer +
          queuedHolders pointer system.process.kernel) resource := by
    intro pointer resource points
    refine Nat.add_pos_left
      (slotHolders_pos source clsMsg ?_ points) _
    rw [Function.update_of_ne different]
    exact sourceStored
  obtain ⟨ledger, intact, others⟩ :=
    inHand.ledger.copyMsg this clsMsg allocation
      (sourceHeld MesgT.dataPtr) (sourceHeld MesgT.objPtr)
      (owned.slots source clsMsg sourceStored) fresh
  refine owned.put ⟨ledger, ?_, ?_⟩ ?_
  · rintro msg ⟨rfl⟩
    exact intact
  · intro msg queued
    refine others msg ?_ (owned.queued msg queued)
    intro pointer points
    exact Nat.add_pos_right _ (queuedHolders_pos queued points)
  · intro other held otherIntact
    refine others other ?_ otherIntact
    intro pointer points
    exact Nat.add_pos_left (held pointer points) _

/-- A payload of the caller handed to the message in hand. -/
theorem Owned.handData
    {system : System Slot Object Queue Obj}
    (owned : Owned system)
    {slot : Slot}
    {this : MesgT}
    {pointer : BlockId}
    {bytes : List UInt8}
    {size : Int32}
    (stored : system.mesg slot = some this)
    (fresh : system.process.heap.block pointer = none)
    (noData : this.dataPtr = none)
    (fits : size.toNatClampNeg ≤ bytes.length) :
    Owned (system.put
      { system.process with
        heap :=
          { system.process.heap with
            block := Function.update system.process.heap.block
              pointer (some bytes) } }
      slot (some (this.msgData (some pointer) size))) := by
  have inHand := owned.inHand stored
  have custody := inHand.ledger.block
  have nothing : dataOf (some this) = none := noData
  simp only [nothing, holding_none, add_zero] at custody
  have others :
      ∀ other : MesgT,
        Intact system.process.heap other →
        (∀ named,
          other.dataPtr = some named →
          0 < (system.others slot MesgT.dataPtr +
            queuedHolders MesgT.dataPtr
              system.process.kernel) named) →
        Intact
          { system.process.heap with
            block := Function.update system.process.heap.block
              pointer (some bytes) } other := by
    intro other intact held
    refine intact.grown ?_ custody held
    intro named old live
    have different : named ≠ pointer := by
      rintro rfl
      simp [fresh] at live
    simpa [different] using live
  refine owned.put ⟨⟨inHand.ledger.noFault, ?_, ?_⟩, ?_, ?_⟩ ?_
  · exact custody.acquire fresh bytes
  · exact inHand.ledger.obj
  · rintro msg ⟨rfl⟩ named old points live
    simp only [MesgT.dataPtr, MesgT.msgData,
      Option.some.injEq] at points
    subst named
    simp only [Function.update_self, Option.some.injEq] at live
    subst old
    exact fits
  · intro msg queued
    exact others msg (owned.queued msg queued)
      (fun _ points =>
        Nat.add_pos_right _ (queuedHolders_pos queued points))
  · intro other held intact
    exact others other intact
      (fun named points => Nat.add_pos_left (held named points) _)

/-- An object of the caller handed to the message in hand. -/
theorem Owned.handObj
    {system : System Slot Object Queue Obj}
    (owned : Owned system)
    {slot : Slot}
    {this : MesgT}
    {pointer : ObjId}
    {value : Obj}
    (stored : system.mesg slot = some this)
    (fresh : system.process.heap.obj pointer = none)
    (noObj : this.objPtr = none) :
    Owned (system.put
      { system.process with
        heap :=
          { system.process.heap with
            obj := Function.update system.process.heap.obj
              pointer (some value) } }
      slot (some (this.msgObjPtr (some pointer)))) := by
  have inHand := owned.inHand stored
  have custody := inHand.ledger.obj
  have nothing : objOf (some this) = none := noObj
  simp only [nothing, holding_none, add_zero] at custody
  refine owned.put ⟨⟨inHand.ledger.noFault, ?_, ?_⟩, ?_, ?_⟩ ?_
  · exact inHand.ledger.block
  · exact custody.acquire fresh value
  · rintro msg ⟨rfl⟩
    exact inHand.intact this rfl
  · exact inHand.queued
  · exact Spares.refl _ _

variable [DecidableEq Object] [DecidableEq Queue]

omit [DecidableEq Slot] [DecidableEq Object] [DecidableEq Queue] in
/-- The ledger with no message of a slot in hand. -/
theorem Owned.emptyHand
    {system : System Slot Object Queue Obj}
    (owned : Owned system) :
    InHand
      (slotHolders MesgT.dataPtr system.mesg)
      (slotHolders MesgT.objPtr system.mesg)
      system.process none := by
  refine ⟨?_, (fun _ named => nomatch named), owned.queued⟩
  simp only [Option.bind_none, holding_none, add_zero]
  exact owned.ledger

omit [DecidableEq Slot] [DecidableEq Object] in
/-- `DumpMsgQueue` takes no message of a slot in hand. -/
theorem Owned.dump
    {system : System Slot Object Queue Obj}
    (owned : Owned system)
    (fd : Int32)
    (rounds : Nat) :
    Owned { system with
      process := dumpMsgQueue fd rounds system.process } := by
  obtain ⟨dumped, spared⟩ := owned.emptyHand.dump fd rounds
  refine ⟨?_, ?_, dumped.queued⟩
  · have ledger := dumped.ledger
    simp only [Option.bind_none, holding_none, add_zero] at ledger
    exact ledger
  · intro slot msg stored
    exact spared msg
      (fun _ points => slotHolders_pos _ _ stored points)
      (owned.slots slot msg stored)

/-- Every call keeps the ledger. -/
theorem owned_step
    {system next : System Slot Object Queue Obj}
    {action : Action Slot Object Obj}
    (owned : Owned system)
    (stepped : step? system action = some next) :
    Owned next := by
  cases action with
  | construct slot =>
      cases stored : system.mesg slot with
      | some this =>
          simp [step?, stored] at stepped
      | none =>
          simp only [step?, stored, Option.some.injEq] at stepped
          subst next
          exact owned.put
            ((owned.inHand stored).of_nothing _ rfl rfl rfl rfl)
            (Spares.refl _ _)
  | copyConstruct slot source storage allocation =>
      cases stored : system.mesg slot with
      | some this =>
          simp [step?, stored] at stepped
      | none =>
          cases sourceStored : system.mesg source with
          | none =>
              simp [step?, stored, sourceStored] at stepped
          | some clsMsg =>
              simp only [step?, stored, sourceStored,
                Option.ite_none_right_eq_some,
                Option.some.injEq] at stepped
              obtain ⟨fresh, rfl⟩ := stepped
              have different : source ≠ slot := by
                rintro rfl
                simp [stored] at sourceStored
              exact owned.copyMsg different sourceStored
                ((owned.inHand stored).of_nothing _ rfl rfl rfl rfl)
                fresh
  | assign slot source allocation =>
      cases stored : system.mesg slot with
      | none =>
          simp [step?, stored] at stepped
      | some this =>
          cases sourceStored : system.mesg source with
          | none =>
              simp [step?, stored, sourceStored] at stepped
          | some clsMsg =>
              by_cases same : slot = source
              · simp only [step?, sourceStored, same,
                  ↓reduceIte, Option.some.injEq] at stepped
                subst next
                exact owned
              · simp only [step?, stored, sourceStored, same,
                  ↓reduceIte, Option.ite_none_right_eq_some,
                  Option.some.injEq] at stepped
                obtain ⟨fresh, rfl⟩ := stepped
                exact owned.copyMsg (Ne.symm same) sourceStored
                  (owned.inHand stored) fresh
  | free slot =>
      simp only [step?, Option.map_eq_some_iff] at stepped
      obtain ⟨this, stored, rfl⟩ := stepped
      obtain ⟨freed, _, spared⟩ := (owned.inHand stored).freeIn
      exact owned.put freed spared
  | handData slot pointer bytes size =>
      cases stored : system.mesg slot with
      | none =>
          simp [step?, stored] at stepped
      | some this =>
          cases live : system.process.heap.block pointer with
          | some old =>
              simp [step?, stored, live] at stepped
          | none =>
              simp only [step?, stored, live,
                Option.ite_none_right_eq_some,
                Option.some.injEq] at stepped
              obtain ⟨⟨noData, _, fits⟩, rfl⟩ := stepped
              exact owned.handData stored live noData fits
  | handObj slot pointer value =>
      cases stored : system.mesg slot with
      | none =>
          simp [step?, stored] at stepped
      | some this =>
          cases live : system.process.heap.obj pointer with
          | some old =>
              simp [step?, stored, live] at stepped
          | none =>
              simp only [step?, stored, live,
                Option.ite_none_right_eq_some,
                Option.some.injEq] at stepped
              obtain ⟨noObj, rfl⟩ := stepped
              exact owned.handObj stored live noObj
  | destroy slot =>
      cases stored : system.mesg slot with
      | none =>
          simp [step?, stored] at stepped
      | some this =>
          simp only [step?, stored, Option.ite_none_right_eq_some,
            Option.some.injEq] at stepped
          obtain ⟨nothing, rfl⟩ := stepped
          exact owned.put
            ((owned.inHand stored).of_nothing _ nothing.1 nothing.2
              rfl rfl)
            (Spares.refl _ _)
  | send slot fd prio accepts =>
      simp only [step?, Option.map_eq_some_iff] at stepped
      obtain ⟨this, stored, rfl⟩ := stepped
      obtain ⟨sent, _, spared⟩ :=
        (owned.inHand stored).sendCall fd prio accepts
      exact owned.put sent spared
  | sendMsg slot fd prio accepts =>
      simp only [step?, Option.map_eq_some_iff] at stepped
      obtain ⟨this, stored, rfl⟩ := stepped
      obtain ⟨sent, spared⟩ :=
        (owned.inHand stored).sendMsgCall fd prio accepts
      exact owned.put sent spared
  | receive slot owner isPolling answers =>
      cases stored : system.mesg slot with
      | none =>
          simp [step?, stored] at stepped
      | some this =>
          simp only [step?, stored, Option.ite_none_right_eq_some,
            Option.some.injEq] at stepped
          obtain ⟨nothing, rfl⟩ := stepped
          obtain ⟨received, sameHeap⟩ :=
            (owned.inHand stored).receiveCall nothing owner isPolling
              answers
          apply owned.put received
          rw [sameHeap]
          exact Spares.refl _ _
  | dump fd rounds =>
      simp only [step?, Option.some.injEq] at stepped
      subst next
      exact owned.dump fd rounds

/--
In every reachable state every live payload block and every live object has
exactly one holder among the constructed and the queued messages, whatever a
message names is live, and no call has released or read what was not.
-/
theorem one_owner
    {system : System Slot Object Queue Obj}
    (reachable : machine.Reachable system) :
    system.process.heap.fault = false ∧
      (∀ pointer,
        (system.process.heap.block pointer).isSome = true →
        system.holders MesgT.dataPtr pointer = 1) ∧
      (∀ pointer,
        0 < system.holders MesgT.dataPtr pointer →
        (system.process.heap.block pointer).isSome = true) ∧
      (∀ pointer,
        (system.process.heap.obj pointer).isSome = true →
        system.holders MesgT.objPtr pointer = 1) ∧
      ∀ pointer,
        0 < system.holders MesgT.objPtr pointer →
        (system.process.heap.obj pointer).isSome = true := by
  have owned : Owned system := by
    apply reachable.invariant
    · rintro state ⟨emptyHeap, noMesg, noQueued⟩
      exact owned_initial emptyHeap noMesg noQueued
    · intro state next action owned _ stepped
      exact owned_step owned stepped
  obtain ⟨noFault, block, obj⟩ := owned.ledger
  refine ⟨noFault, ?_, ?_, ?_, ?_⟩
  · intro pointer live
    simpa [live] using block pointer
  · intro pointer held
    obtain ⟨bytes, stored⟩ := block.live_of_held _ held
    simp [stored]
  · intro pointer live
    simpa [live] using obj pointer
  · intro pointer held
    obtain ⟨value, stored⟩ := obj.live_of_held _ held
    simp [stored]

/--
Hand a payload and an object to one message, send a copy of it, let the
allocator refuse the payload of a second copy, assign that copy to itself and
send it to a bad descriptor.
-/
def trafficSchedule : List (Action (Fin 3) Unit Unit) :=
  [.construct 0,
    .handData 0 7 [1, 2] 2,
    .handObj 0 3 (),
    .copyConstruct 1 0 mesg ⟨some 8, 4⟩,
    .send 1 1 0 true,
    .copyConstruct 2 0 mesg ⟨none, 5⟩,
    .assign 2 2 ⟨none, 6⟩,
    .sendMsg 2 0 0 true]

/-- One process with one open queue, before any message. -/
def trafficStart : System (Fin 3) Unit Unit Unit where
  process := {
    heap := Heap.empty
    kernel := {
      descriptor := fun fd =>
        if fd = 1 then
          some ()
        else
          none
      queue := fun _ => ⟨2, []⟩ }
    object := fun _ => ⟨1, true, 0, 0, 0, 0⟩
    gMap := fun _ => none
    gReceiveMsgCnt := 0
    gSendMsgCnt := 0 }
  mesg := fun _ => none

/-- A message and the queued copy of it own one payload each. -/
theorem one_owner_of_copies :
    ∃ system : System (Fin 3) Unit Unit Unit,
      (system.process.heap.block 7).isSome = true ∧
        (system.process.heap.block 8).isSome = true ∧
        system.holders MesgT.dataPtr 7 = 1 ∧
        system.holders MesgT.dataPtr 8 = 1 := by
  obtain ⟨system, reachable, live⟩ :=
    Machine.exists_reachable
      machine
      trafficStart
      trafficSchedule
      (fun system =>
        (system.process.heap.block 7).isSome &&
          (system.process.heap.block 8).isSome)
      ⟨rfl, fun _ => rfl, fun _ => rfl⟩
      (by decide)
  obtain ⟨first, second⟩ := Bool.and_eq_true_iff.mp live
  have owned := (one_owner reachable).2.1
  exact ⟨system, first, second, owned 7 first, owned 8 second⟩

end Runs

end WkcRuntime.MsgQueue
