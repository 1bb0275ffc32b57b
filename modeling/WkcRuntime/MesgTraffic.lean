import WkcRuntime.Machine
import WkcRuntime.Tally
import WkcRuntime.MesgLedger
import WkcRuntime.MsgQueueSource

namespace WkcRuntime.MsgQueue

open Mesg MessageQueue

/-!
# Messages in slots and in queues

A run constructs, copies, assigns, frees, sends, receives and destroys `Mesg`
objects over any number of queues.  A caller hands a payload or an object of
its own to a message that has none.  The holders of a block or an object are
the constructed messages and the queued ones that name it.
-/

/-- A process together with its constructed `Mesg` objects. -/
structure System (Slot Object Queue Obj : Type) where
  process : Process Object Queue Obj
  mesg : Slot → Option MesgT

/-- One call, with everything its environment answers. -/
inductive Action (Slot Object Obj : Type) where
  | construct (slot : Slot)
  | copyConstruct
      (slot source : Slot)
      (storage : MesgT)
      (allocation : Allocation)
  | assign (slot source : Slot) (allocation : Allocation)
  | free (slot : Slot)
  | handData
      (slot : Slot)
      (pointer : BlockId)
      (bytes : List UInt8)
      (size : Int32)
  | handObj (slot : Slot) (pointer : ObjId) (value : Obj)
  | destroy (slot : Slot)
  | send (slot : Slot) (fd : Int32) (prio : UInt32) (accepts : Bool)
  | sendMsg (slot : Slot) (fd : Int32) (prio : UInt32) (accepts : Bool)
  | receive
      (slot : Slot)
      (owner : Object)
      (isPolling : Bool)
      (answers : Answers)
  | dump (fd : Int32) (rounds : Nat)

section Traffic

variable {Slot Object Queue Obj : Type}
variable [DecidableEq Slot] [DecidableEq Object] [DecidableEq Queue]

/-- Store a process and one message, or the absence of one. -/
def System.put
    (system : System Slot Object Queue Obj)
    (process : Process Object Queue Obj)
    (slot : Slot)
    (entry : Option MesgT) :
    System Slot Object Queue Obj where
  process := process
  mesg := Function.update system.mesg slot entry

/-- One call on the system. -/
def step?
    (system : System Slot Object Queue Obj)
    (action : Action Slot Object Obj) :
    Option (System Slot Object Queue Obj) :=
  let process := system.process
  match action with
  | .construct slot =>
      match system.mesg slot with
      | none =>
          some (system.put process slot (some mesg))
      | some _ =>
          none
  | .copyConstruct slot source storage allocation =>
      match system.mesg slot, system.mesg source with
      | none, some clsMsg =>
          if allocation.Fresh process.heap then
            let copied :=
              Mesg.copyConstruct allocation process.heap storage clsMsg
            some (system.put { process with heap := copied.1 }
              slot (some copied.2))
          else
            none
      | _, _ =>
          none
  | .assign slot source allocation =>
      match system.mesg slot, system.mesg source with
      | some this, some clsMsg =>
          if slot = source then
            some system
          else if allocation.Fresh (Mesg.free process.heap this).1 then
            let copied := Mesg.assign allocation process.heap this clsMsg
            some (system.put { process with heap := copied.1 }
              slot (some copied.2))
          else
            none
      | _, _ =>
          none
  | .free slot =>
      (system.mesg slot).map fun this =>
        let freed := freeIn process this
        system.put freed.1 slot (some freed.2)
  | .handData slot pointer bytes size =>
      match system.mesg slot, process.heap.block pointer with
      | some this, none =>
          if this.dataPtr = none ∧ 0 < size ∧
              size.toNatClampNeg ≤ bytes.length then
            some (system.put
              { process with
                heap :=
                  { process.heap with
                    block := Function.update process.heap.block
                      pointer (some bytes) } }
              slot (some (this.msgData (some pointer) size)))
          else
            none
      | _, _ =>
          none
  | .handObj slot pointer value =>
      match system.mesg slot, process.heap.obj pointer with
      | some this, none =>
          if this.objPtr = none then
            some (system.put
              { process with
                heap :=
                  { process.heap with
                    obj := Function.update process.heap.obj
                      pointer (some value) } }
              slot (some (this.msgObjPtr (some pointer))))
          else
            none
      | _, _ =>
          none
  | .destroy slot =>
      match system.mesg slot with
      | none =>
          none
      | some this =>
          if this.HoldsNothing then
            some (system.put process slot none)
          else
            none
  | .send slot fd prio accepts =>
      (system.mesg slot).map fun this =>
        let sent := MsgQueue.send process fd this prio accepts
        system.put sent.1 slot (some sent.2.1)
  | .sendMsg slot fd prio accepts =>
      (system.mesg slot).map fun this =>
        let sent := MsgQueue.sendMsg process fd this prio accepts
        system.put sent.1 slot (some sent.2.1)
  | .receive slot owner isPolling answers =>
      match system.mesg slot with
      | none =>
          none
      | some this =>
          if this.HoldsNothing then
            let received :=
              MsgQueue.receive process owner this isPolling answers
            some (system.put received.1 slot (some received.2.1))
          else
            none
  | .dump fd rounds =>
      some { system with process := dumpMsgQueue fd rounds process }

/-- Start without messages, with empty queues and an empty heap. -/
def machine :
    Machine (System Slot Object Queue Obj) (Action Slot Object Obj) where
  Initial := fun system =>
    system.process.heap = Heap.empty ∧
      (∀ slot, system.mesg slot = none) ∧
      ∀ queue, (system.process.kernel.queue queue).messages = []
  step? := step?

end Traffic

section Queues

variable {Queue : Type}

/-- The message is in some queue. -/
def Queued
    (kernel : Kernel Queue MesgT)
    (msg : MesgT) :
    Prop :=
  ∃ queue entry,
    entry ∈ (kernel.queue queue).messages ∧ entry.2 = msg

variable [DecidableEq Queue]

/--
After the messages of one queue are replaced, every queued message was queued
before or is among the new ones.
-/
theorem queued_setMessages
    {kernel : Kernel Queue MesgT}
    {queue : Queue}
    {messages : List (UInt32 × MesgT)}
    {msg : MesgT}
    (queued : Queued (kernel.setMessages queue messages) msg) :
    (∃ entry ∈ messages, entry.2 = msg) ∨ Queued kernel msg := by
  obtain ⟨other, entry, member, named⟩ := queued
  by_cases same : other = queue
  · subst other
    simp only [Kernel.setMessages, Function.update_self] at member
    exact Or.inl ⟨entry, member, named⟩
  · simp only [Kernel.setMessages, Function.update_of_ne same] at member
    exact Or.inr ⟨other, entry, member, named⟩

end Queues

section Holders

variable {Slot Object Queue Obj : Type}
variable [Fintype Slot] [Fintype Queue]

/-- How many constructed messages name each resource. -/
def slotHolders
    (pointer : MesgT → Option Nat)
    (mesg : Slot → Option MesgT) :
    Nat → Nat :=
  fun resource =>
    tally (fun entry => holding (entry.bind pointer) resource) mesg

/-- How often the messages of one queue name a resource. -/
def holdersInQueue
    (pointer : MesgT → Option Nat)
    (messages : List (UInt32 × MesgT))
    (resource : Nat) :
    Nat :=
  (messages.map fun entry => holding (pointer entry.2) resource).sum

/-- How many queued messages name each resource. -/
def queuedHolders
    (pointer : MesgT → Option Nat)
    (kernel : Kernel Queue MesgT) :
    Nat → Nat :=
  fun resource =>
    tally
      (fun queue => holdersInQueue pointer queue.messages resource)
      kernel.queue

/-- How many messages, constructed or queued, name each resource. -/
def System.holders
    (system : System Slot Object Queue Obj)
    (pointer : MesgT → Option Nat) :
    Nat → Nat :=
  slotHolders pointer system.mesg +
    queuedHolders pointer system.process.kernel

/-- A queued message counts among the holders of what it names. -/
theorem queuedHolders_pos
    {pointer : MesgT → Option Nat}
    {kernel : Kernel Queue MesgT}
    {msg : MesgT}
    {resource : Nat}
    (queued : Queued kernel msg)
    (points : pointer msg = some resource) :
    0 < queuedHolders pointer kernel resource := by
  obtain ⟨queue, entry, member, rfl⟩ := queued
  rw [Nat.pos_iff_ne_zero]
  intro zero
  have inQueue : holdersInQueue pointer _ resource = 0 :=
    tally_eq_zero_iff.mp zero queue
  have atEntry : holding (pointer entry.2) resource = 0 :=
    List.sum_eq_zero_iff.mp inQueue _ (List.mem_map_of_mem member)
  simp [points] at atEntry

/-- A constructed message counts among the holders of what it names. -/
theorem slotHolders_pos
    {pointer : MesgT → Option Nat}
    {mesg : Slot → Option MesgT}
    (slot : Slot)
    (msg : MesgT)
    {resource : Nat}
    (stored : mesg slot = some msg)
    (points : pointer msg = some resource) :
    0 < slotHolders pointer mesg resource := by
  rw [Nat.pos_iff_ne_zero]
  intro zero
  have atSlot : holding ((mesg slot).bind pointer) resource = 0 :=
    tally_eq_zero_iff.mp zero slot
  simp [stored, points] at atSlot

variable [DecidableEq Slot] [DecidableEq Queue]

/-- The message of one slot, split off the count. -/
theorem slotHolders_update
    (pointer : MesgT → Option Nat)
    (mesg : Slot → Option MesgT)
    (slot : Slot)
    (entry : Option MesgT) :
    slotHolders pointer (Function.update mesg slot entry) =
      slotHolders pointer (Function.update mesg slot none) +
        holding (entry.bind pointer) := by
  funext resource
  have placed :=
    tally_update
      (fun entry => holding (Option.bind entry pointer) resource)
      mesg slot entry
  have vacated :=
    tally_update
      (fun entry => holding (Option.bind entry pointer) resource)
      mesg slot none
  simp only [Option.bind_none, holding_none, Pi.zero_apply] at vacated
  simp only [slotHolders, Pi.add_apply]
  omega

/-- Replacing the messages of one queue exchanges their holders. -/
theorem queuedHolders_setMessages
    (pointer : MesgT → Option Nat)
    (kernel : Kernel Queue MesgT)
    (queue : Queue)
    (messages : List (UInt32 × MesgT))
    (resource : Nat) :
    queuedHolders pointer (kernel.setMessages queue messages) resource +
        holdersInQueue pointer (kernel.queue queue).messages resource =
      queuedHolders pointer kernel resource +
        holdersInQueue pointer messages resource :=
  tally_update
    (fun queue : Mqueue MesgT =>
      holdersInQueue pointer queue.messages resource)
    kernel.queue queue { kernel.queue queue with messages }

/-- A sent message joins the holders among the queued ones. -/
theorem queuedHolders_insert
    (pointer : MesgT → Option Nat)
    (kernel : Kernel Queue MesgT)
    (queue : Queue)
    (prio : UInt32)
    (msg : MesgT) :
    queuedHolders pointer
        (kernel.setMessages queue
          (insertByPriority prio msg (kernel.queue queue).messages)) =
      queuedHolders pointer kernel + holding (pointer msg) := by
  funext resource
  have inserted :
      holdersInQueue pointer
          (insertByPriority prio msg (kernel.queue queue).messages)
          resource =
        holding (pointer msg) resource +
          holdersInQueue pointer (kernel.queue queue).messages resource := by
    have permuted :=
      (insertByPriority_perm prio msg (kernel.queue queue).messages).map
        (fun entry => holding (pointer entry.2) resource)
    simpa [holdersInQueue] using permuted.sum_eq
  have counted :=
    queuedHolders_setMessages pointer kernel queue
      (insertByPriority prio msg (kernel.queue queue).messages) resource
  simp only [Pi.add_apply]
  omega

/-- A received message leaves the holders among the queued ones. -/
theorem queuedHolders_take
    (pointer : MesgT → Option Nat)
    {kernel : Kernel Queue MesgT}
    {queue : Queue}
    {prio : UInt32}
    {msg : MesgT}
    {rest : List (UInt32 × MesgT)}
    (stored : (kernel.queue queue).messages = (prio, msg) :: rest) :
    queuedHolders pointer kernel =
      queuedHolders pointer (kernel.setMessages queue rest) +
        holding (pointer msg) := by
  funext resource
  have taken :
      holdersInQueue pointer (kernel.queue queue).messages resource =
        holding (pointer msg) resource +
          holdersInQueue pointer rest resource := by
    simp [holdersInQueue, stored]
  have counted :=
    queuedHolders_setMessages pointer kernel queue rest resource
  simp only [Pi.add_apply]
  omega

end Holders

end WkcRuntime.MsgQueue
