import WkcRuntime.MesgLedger
import WkcRuntime.MsgQueueRegistry

namespace WkcRuntime.MsgQueue

open Mesg MessageQueue

/-!
# Draining a queue

`DumpMsgQueue` receives until a receive fails.  On a descriptor that was opened
with `O_NONBLOCK` the receive behind the last message fails; without the flag it
waits for a message that nobody sends, so that `Clear`, `Unlink` and the
destructor do not return.  The flags of a descriptor are those of the `Open`
that got it from the kernel.
-/

/-- `O_ACCMODE`. -/
def oAccmode : Int32 :=
  3

/-- `O_WRONLY`. -/
def oWronly : Int32 :=
  1

/-- `O_CREAT`. -/
def oCreatFlag : Int32 :=
  64

/-- `O_NONBLOCK`. -/
def oNonblock : Int32 :=
  2048

/-- The flags of an `Open` include read access. -/
def Reads (flag : Int32) : Prop :=
  flag &&& oAccmode ≠ oWronly

instance (flag : Int32) : Decidable (Reads flag) :=
  inferInstanceAs (Decidable (_ ≠ _))

/-- The flags of an `Open` include `O_NONBLOCK`. -/
def Nonblocking (flag : Int32) : Prop :=
  flag &&& oNonblock ≠ 0

instance (flag : Int32) : Decidable (Nonblocking flag) :=
  inferInstanceAs (Decidable (_ ≠ _))

/-- How one `mq_receive` ends when nobody sends. -/
inductive Reception (Queue : Type) where
  | message (msg : MesgT) (kernel : Kernel Queue MesgT)
  | failed
  | blocks

section Drain

variable {Object Queue Obj : Type} [DecidableEq Queue]

/-- `mq_receive` on a descriptor with the given flags. -/
def receiveWith
    (kernel : Kernel Queue MesgT)
    (fd flag : Int32) :
    Reception Queue :=
  if Reads flag then
    match kernel.mqReceive fd true with
    | some (msg, next) =>
        .message msg next
    | none =>
        if (kernel.descriptor fd).isSome ∧ ¬ Nonblocking flag then
          .blocks
        else
          .failed
  else
    .failed

/--
The loop of `MsgQueue::DumpMsgQueue` and the message `clsMsg` that it receives
into; `none` while it has not returned.
-/
def drain
    (fd flag : Int32) :
    Nat →
      Process Object Queue Obj →
      MesgT →
      Option (Process Object Queue Obj × MesgT)
  | 0, _, _ =>
      none
  | rounds + 1, process, clsMsg =>
      match receiveWith process.kernel fd flag with
      | .message msg kernel =>
          let freed := freeIn { process with kernel } msg
          drain fd flag rounds freed.1 freed.2
      | .failed =>
          some (process, clsMsg)
      | .blocks =>
          none

/--
Where the descriptor may be read, a loop that has returned has done what
`dumpMsgQueue` does with as many answered receives.
-/
theorem dumpMsgQueue_of_drain
    [DecidableEq Object]
    {fd flag : Int32}
    (reads : Reads flag)
    {rounds : Nat}
    {process : Process Object Queue Obj}
    {clsMsg : MesgT}
    {final : Process Object Queue Obj × MesgT}
    (returned : drain fd flag rounds process clsMsg = some final) :
    dumpMsgQueue fd rounds process = final.1 := by
  induction rounds generalizing process clsMsg with
  | zero =>
      cases returned
  | succ rounds inductionHypothesis =>
      simp only [drain, receiveWith, if_pos reads] at returned
      rw [dumpMsgQueue]
      cases received : process.kernel.mqReceive fd true with
      | some result =>
          simp only [received] at returned
          exact inductionHypothesis returned
      | none =>
          simp only [received] at returned
          split at returned
          · next ended =>
              split at ended <;> cases ended
          · cases returned
            rfl
          · cases returned

/-- The messages of a queue own different live blocks and objects. -/
structure Deposited
    (heap : Heap Obj)
    (messages : List (UInt32 × MesgT)) :
    Prop where
  noFault :
    heap.fault = false
  live :
    ∀ entry ∈ messages, Live heap entry.2
  apart :
    messages.Pairwise fun first second =>
      Unshared second.2 first.2

/--
What the messages own is released and everything else is as before.  Without a
fault nothing was released twice.
-/
structure FreedExactly
    (before after : Heap Obj)
    (messages : List (UInt32 × MesgT)) :
    Prop where
  noFault :
    after.fault = false
  freedBlock :
    ∀ entry ∈ messages,
      ∀ pointer,
        entry.2.dataPtr = some pointer →
        after.block pointer = none
  keptBlock :
    ∀ pointer,
      (∀ entry ∈ messages, entry.2.dataPtr ≠ some pointer) →
      after.block pointer = before.block pointer
  freedObj :
    ∀ entry ∈ messages,
      ∀ pointer,
        entry.2.objPtr = some pointer →
        after.obj pointer = none
  keptObj :
    ∀ pointer,
      (∀ entry ∈ messages, entry.2.objPtr ≠ some pointer) →
      after.obj pointer = before.obj pointer

/-- A store without the resource that a pointer names. -/
def without
    {Resource Value : Type}
    [DecidableEq Resource]
    (store : Resource → Option Value) :
    Option Resource → Resource → Option Value
  | none =>
      store
  | some pointer =>
      Function.update store pointer none

theorem without_of_eq
    {Resource Value : Type}
    [DecidableEq Resource]
    (store : Resource → Option Value)
    {pointer : Option Resource}
    {resource : Resource}
    (points : pointer = some resource) :
    without store pointer resource = none := by
  subst pointer
  exact Function.update_self ..

theorem without_of_ne
    {Resource Value : Type}
    [DecidableEq Resource]
    (store : Resource → Option Value)
    {pointer : Option Resource}
    {resource : Resource}
    (different : pointer ≠ some resource) :
    without store pointer resource = store resource := by
  cases pointer with
  | none =>
      rfl
  | some other =>
      apply Function.update_of_ne
      rintro rfl
      exact different rfl

/-- `Free` takes exactly what the message points to out of the heap. -/
theorem free_eq_without
    {heap : Heap Obj}
    {msg : MesgT}
    (live : Live heap msg) :
    (free heap msg).1 =
      { block := without heap.block msg.dataPtr
        obj := without heap.obj msg.objPtr
        fault := heap.fault } := by
  have blockLive := live.block
  have objLive := live.obj
  unfold MesgT.dataPtr at blockLive ⊢
  unfold MesgT.objPtr at objLive ⊢
  cases data : msg.tpMsgData.1 with
  | none =>
      cases object : msg.pclsMsgObj with
      | none =>
          simp only [free, freeData, data, freeObj, object, without]
      | some pointer =>
          obtain ⟨value, live⟩ :=
            Option.isSome_iff_exists.mp (objLive pointer object)
          simp only [free, freeData, data, freeObj, object, without,
            Heap.deleteObj, live]
  | some block =>
      obtain ⟨bytes, stored⟩ :=
        Option.isSome_iff_exists.mp (blockLive block data)
      cases object : msg.pclsMsgObj with
      | none =>
          simp only [free, freeData, data, freeObj, MesgT.msgData, object,
            without, Heap.freeBlock, stored]
      | some pointer =>
          obtain ⟨value, live⟩ :=
            Option.isSome_iff_exists.mp (objLive pointer object)
          simp only [free, freeData, data, freeObj, MesgT.msgData, object,
            without, Heap.freeBlock, stored, Heap.deleteObj, live]

/-- The messages behind the first one still own what they point to. -/
theorem Deposited.freeFirst
    {heap : Heap Obj}
    {first : UInt32 × MesgT}
    {rest : List (UInt32 × MesgT)}
    (deposited : Deposited heap (first :: rest)) :
    Deposited (free heap first.2).1 rest := by
  obtain ⟨firstApart, restApart⟩ :=
    List.pairwise_cons.mp deposited.apart
  rw [free_eq_without (deposited.live first List.mem_cons_self)]
  refine ⟨deposited.noFault, ?_, restApart⟩
  intro entry member
  have live := deposited.live entry (List.mem_cons_of_mem first member)
  have apart := firstApart entry member
  constructor
  · intro pointer points
    dsimp only
    rw [without_of_ne heap.block
      (fun same => apart.1 pointer same points)]
    exact live.block pointer points
  · intro pointer points
    dsimp only
    rw [without_of_ne heap.obj
      (fun same => apart.2 pointer same points)]
    exact live.obj pointer points

/-- Without messages there is nothing to release. -/
theorem freedExactly_nil
    {heap : Heap Obj}
    (noFault : heap.fault = false) :
    FreedExactly heap heap [] :=
  ⟨noFault, by simp, fun _ _ => rfl, by simp, fun _ _ => rfl⟩

/-- Releasing the first message and then the others releases them all. -/
theorem FreedExactly.cons
    {heap after : Heap Obj}
    {first : UInt32 × MesgT}
    {rest : List (UInt32 × MesgT)}
    (live : Live heap first.2)
    (freed : FreedExactly (free heap first.2).1 after rest)
    (apart : ∀ entry ∈ rest, Unshared entry.2 first.2) :
    FreedExactly heap after (first :: rest) := by
  rw [free_eq_without live] at freed
  refine ⟨freed.noFault, ?_, ?_, ?_, ?_⟩
  · intro entry member pointer points
    rcases List.mem_cons.mp member with rfl | later
    · rw [freed.keptBlock pointer
        (fun other inRest => (apart other inRest).1 pointer points)]
      exact without_of_eq heap.block points
    · exact freed.freedBlock entry later pointer points
  · intro pointer unnamed
    rw [freed.keptBlock pointer
      (fun entry inRest => unnamed entry (List.mem_cons_of_mem _ inRest))]
    exact without_of_ne heap.block (unnamed first List.mem_cons_self)
  · intro entry member pointer points
    rcases List.mem_cons.mp member with rfl | later
    · rw [freed.keptObj pointer
        (fun other inRest => (apart other inRest).2 pointer points)]
      exact without_of_eq heap.obj points
    · exact freed.freedObj entry later pointer points
  · intro pointer unnamed
    rw [freed.keptObj pointer
      (fun entry inRest => unnamed entry (List.mem_cons_of_mem _ inRest))]
    exact without_of_ne heap.obj (unnamed first List.mem_cons_self)

/-- One queue is drained, its messages are released, nothing else changes. -/
structure Drained
    (queue : Queue)
    (before after : Process Object Queue Obj) :
    Prop where
  empty :
    (after.kernel.queue queue).messages = []
  others :
    ∀ other,
      other ≠ queue →
      after.kernel.queue other = before.kernel.queue other
  freed :
    FreedExactly before.heap after.heap
      (before.kernel.queue queue).messages

/-- On a non-blocking descriptor the loop returns, whatever is queued. -/
theorem exists_drain
    {fd flag : Int32}
    (reads : Reads flag)
    (nonblocking : Nonblocking flag)
    {process : Process Object Queue Obj}
    {queue : Queue}
    (opened : process.kernel.descriptor fd = some queue)
    (deposited :
      Deposited process.heap (process.kernel.queue queue).messages)
    (clsMsg : MesgT) :
    ∃ rounds final,
      drain fd flag rounds process clsMsg = some final ∧
        Drained queue process final.1 := by
  generalize stored : (process.kernel.queue queue).messages = messages
    at deposited
  induction messages generalizing process clsMsg with
  | nil =>
      have received : process.kernel.mqReceive fd true = none := by
        rw [Kernel.mqReceive_eq_none_iff, Kernel.messagesAt, opened]
        exact stored
      refine ⟨1, (process, clsMsg), ?_, stored, fun _ _ => rfl, ?_⟩
      · simp [drain, receiveWith, reads, received, nonblocking]
      · rw [stored]
        exact freedExactly_nil deposited.noFault
  | cons first rest inductionHypothesis =>
      have received :
          process.kernel.mqReceive fd true =
            some (first.2, process.kernel.setMessages queue rest) := by
        simp [Kernel.mqReceive, opened, stored]
      obtain ⟨firstApart, _⟩ := List.pairwise_cons.mp deposited.apart
      have live := deposited.live first List.mem_cons_self
      let next :=
        freeIn
          { process with kernel := process.kernel.setMessages queue rest }
          first.2
      have nextStored :
          (next.1.kernel.queue queue).messages = rest := by
        rw [show next.1.kernel = process.kernel.setMessages queue rest
          from rfl, Kernel.setMessages_messages, if_pos rfl]
      obtain ⟨rounds, final, returned, drained⟩ :=
        @inductionHypothesis next.1 opened next.2 nextStored
          deposited.freeFirst
      have freed := drained.freed
      rw [nextStored] at freed
      refine ⟨rounds + 1, final, ?_, drained.empty, ?_, ?_⟩
      · simp only [drain, receiveWith, if_pos reads, received]
        exact returned
      · intro other different
        rw [drained.others other different]
        exact Function.update_of_ne different ..
      · rw [stored]
        exact freed.cons live firstApart

/-- On a blocking descriptor it never returns. -/
theorem drain_eq_none
    {fd flag : Int32}
    (reads : Reads flag)
    (blocking : ¬ Nonblocking flag)
    (rounds : Nat)
    {process : Process Object Queue Obj}
    {queue : Queue}
    (opened : process.kernel.descriptor fd = some queue)
    (clsMsg : MesgT) :
    drain fd flag rounds process clsMsg = none := by
  induction rounds generalizing process clsMsg with
  | zero =>
      rfl
  | succ rounds inductionHypothesis =>
      cases received : process.kernel.mqReceive fd true with
      | none =>
          simp [drain, receiveWith, reads, received, opened, blocking]
      | some result =>
          obtain ⟨other, prio, rest, sameFd, _, next⟩ :=
            Kernel.mqReceive_cases received
          simp only [drain, receiveWith, if_pos reads, received]
          apply inductionHypothesis
          rw [freeIn, next]
          exact opened

end Drain

/-- The objects of a process and the flags that their descriptors have. -/
structure Files (Object Obj : Type) where
  registry : Registry Object Obj
  oflags : Int32 → Int32

section Objects

variable {Object Obj : Type} [DecidableEq Object]

/-- An `Open` leaves its flags with the descriptor that it got. -/
def Files.opened
    (files : Files Object Obj)
    (this : Object)
    (flag : Int32)
    (result : Registry Object Obj × Int32) :
    Files Object Obj × Int32 :=
  ({ registry := result.1
     oflags :=
       if result.2 = 0 then
         Function.update files.oflags (result.1.fdOf this) flag
       else
         files.oflags },
    result.2)

/-- `MsgQueue::Open(name, flag, mode, maxmsg)`. -/
def openMaxmsgWith
    (files : Files Object Obj)
    (this : Object)
    (name : Option String)
    (flag : Int32)
    (maxmsg : Int64)
    (answer : Option Int32) :
    Files Object Obj × Int32 :=
  files.opened this flag
    (openMaxmsg files.registry this name maxmsg
      (decide (flag &&& oCreatFlag ≠ 0)) answer)

/-- `MsgQueue::Open(name, flag, mode, pattr)`. -/
def openAttrWith
    (files : Files Object Obj)
    (this : Object)
    (name : Option String)
    (flag : Int32)
    (pattr : Option Int64)
    (answer : Option Int32) :
    Files Object Obj × Int32 :=
  files.opened this flag
    (openAttr files.registry this name pattr
      (decide (flag &&& oCreatFlag ≠ 0)) answer)

/-- `MsgQueue::Clear`; `none` while it has not returned. -/
def clearWith
    (files : Files Object Obj)
    (this : Object)
    (rounds : Nat) :
    Option (Files Object Obj) :=
  (drain (files.registry.fdOf this)
      (files.oflags (files.registry.fdOf this)) rounds
      files.registry.process mesg).map fun drained =>
    { files with
      registry := { files.registry with process := drained.1 } }

/-- What `Unlink` does behind `Clear`; the code of `Close` is dropped. -/
def closeAndUnlink
    (files : Files Object Obj)
    (this : Object)
    (closes : Bool) :
    Files Object Obj × Int32 :=
  let unlinked :=
    mqUnlink (close files.registry this closes).1
      (files.registry.msgQueueName this)
  ({ files with registry := unlinked.1 }, unlinked.2)

/-- The end of an object. -/
def discard
    (files : Files Object Obj)
    (this : Object) :
    Files Object Obj :=
  { files with
    registry :=
      { files.registry with
        alive := Function.update files.registry.alive this false
        opened := Function.update files.registry.opened this false
        holds := Function.update files.registry.holds this none } }

/-- `MsgQueue::Unlink`. -/
def unlinkWith
    (files : Files Object Obj)
    (this : Object)
    (rounds : Nat)
    (closes : Bool) :
    Option (Files Object Obj × Int32) :=
  if files.registry.msgQueueName this = "" then
    some (files, errMsgQueueNameUnknown)
  else
    (clearWith files this rounds).map fun cleared =>
      closeAndUnlink cleared this closes

/-- `MsgQueue::~MsgQueue`. -/
def destroyWith
    (files : Files Object Obj)
    (this : Object)
    (rounds : Nat)
    (closes : Bool) :
    Option (Files Object Obj) :=
  (unlinkWith files this rounds closes).map fun unlinked =>
    discard unlinked.1 this

/-- The object has an open descriptor with the flags of its `Open`. -/
structure HoldsOpen
    (files : Files Object Obj)
    (this : Object)
    (flag : Int32)
    (queue : Nat) :
    Prop where
  name :
    files.registry.msgQueueName this ≠ ""
  descriptor :
    files.registry.descriptor (files.registry.fdOf this) = some queue
  flags :
    files.oflags (files.registry.fdOf this) = flag

/-- Both overloads of `Open`, when they succeed, open the object. -/
theorem holdsOpen_opened
    {files : Files Object Obj}
    {this : Object}
    {flag : Int32}
    {resets oCreat : Bool}
    {name : String}
    {maxmsg : Int64}
    {answer : Option Int32}
    (succeeded :
      (openQueue resets files.registry this name maxmsg oCreat
        answer).2 = 0) :
    HoldsOpen
      (files.opened this flag
        (openQueue resets files.registry this name maxmsg oCreat
          answer)).1
      this flag files.registry.created := by
  unfold openQueue at succeeded ⊢
  cases answered : mqOpenAnswer name oCreat answer with
  | none =>
      simp only [answered] at succeeded
      exact absurd succeeded (by decide)
  | some fd =>
      have named : name ≠ "" := by
        unfold mqOpenAnswer at answered
        split at answered
        · next creates => exact creates.2
        · cases answered
      refine ⟨?_, ?_, ?_⟩
      · simp [Files.opened, Registry.addMsgQueue, Registry.withKernel,
          Registry.setObject, named]
      · simp [Files.opened, Registry.addMsgQueue, Registry.withKernel,
          Registry.setObject, Registry.descriptor, Registry.fdOf,
          Kernel.mqOpen]
      · simp [Files.opened, Registry.addMsgQueue, Registry.withKernel,
          Registry.setObject, Registry.fdOf]

/-- `Open(name, flag, mode, maxmsg)`, when it succeeds, opens the object. -/
theorem holdsOpen_openMaxmsgWith
    {files : Files Object Obj}
    {this : Object}
    {name : Option String}
    {flag : Int32}
    {maxmsg : Int64}
    {answer : Option Int32}
    (succeeded :
      (openMaxmsgWith files this name flag maxmsg answer).2 = 0) :
    HoldsOpen (openMaxmsgWith files this name flag maxmsg answer).1
      this flag files.registry.created := by
  cases name with
  | none =>
      exact absurd succeeded (by
        simp only [openMaxmsgWith, openMaxmsg, openNull, Files.opened]
        decide)
  | some name =>
      exact holdsOpen_opened succeeded

/-- `Open(name, flag, mode, pattr)`, when it succeeds, opens the object. -/
theorem holdsOpen_openAttrWith
    {files : Files Object Obj}
    {this : Object}
    {name : Option String}
    {flag : Int32}
    {pattr : Option Int64}
    {answer : Option Int32}
    (succeeded :
      (openAttrWith files this name flag pattr answer).2 = 0) :
    HoldsOpen (openAttrWith files this name flag pattr answer).1
      this flag files.registry.created := by
  cases name with
  | none =>
      exact absurd succeeded (by
        simp only [openAttrWith, openAttr, openNull, Files.opened]
        decide)
  | some name =>
      cases pattr with
      | none =>
          exact absurd succeeded (by
            simp only [openAttrWith, openAttr, openNull, Files.opened]
            decide)
      | some maxmsg =>
          exact holdsOpen_opened succeeded

/-- Closing a descriptor takes nothing out of a queue or the heap. -/
theorem Drained.close
    {queue : Nat}
    {before : Process Object Nat Obj}
    {registry : Registry Object Obj}
    (drained : Drained queue before registry.process)
    (this : Object)
    (closes : Bool) :
    Drained queue before
      (MsgQueue.close registry this closes).1.process := by
  unfold MsgQueue.close
  split
  · exact drained
  · split
    · exact drained
    · next kernel closed =>
        obtain ⟨_, _, rfl⟩ := Kernel.mqClose_eq_some_iff.mp closed
        exact ⟨drained.empty, drained.others, drained.freed⟩

omit [DecidableEq Object] in
/-- Unlinking a name takes nothing out of a queue or the heap. -/
theorem mqUnlink_process
    (registry : Registry Object Obj)
    (name : String) :
    (mqUnlink registry name).1.process = registry.process := by
  unfold mqUnlink
  split <;> rfl

variable {files : Files Object Obj}
variable {this : Object}
variable {flag : Int32}
variable {queue : Nat}

omit [DecidableEq Object] in
/-- On a blocking descriptor `Clear` never returns. -/
theorem HoldsOpen.clear_eq_none
    (opened : HoldsOpen files this flag queue)
    (reads : Reads flag)
    (blocking : ¬ Nonblocking flag)
    (rounds : Nat) :
    clearWith files this rounds = none := by
  rw [clearWith, opened.flags,
    drain_eq_none reads blocking rounds opened.descriptor]
  rfl

/-- On a blocking descriptor `Unlink` never returns. -/
theorem HoldsOpen.unlink_eq_none
    (opened : HoldsOpen files this flag queue)
    (reads : Reads flag)
    (blocking : ¬ Nonblocking flag)
    (rounds : Nat)
    (closes : Bool) :
    unlinkWith files this rounds closes = none := by
  rw [unlinkWith, if_neg opened.name,
    opened.clear_eq_none reads blocking]
  rfl

omit [DecidableEq Object] in
/-- On a non-blocking descriptor `Clear` drains the queue. -/
theorem HoldsOpen.exists_clear
    (opened : HoldsOpen files this flag queue)
    (reads : Reads flag)
    (nonblocking : Nonblocking flag)
    (deposited :
      Deposited files.registry.process.heap
        (files.registry.messages queue)) :
    ∃ rounds cleared,
      clearWith files this rounds = some cleared ∧
        Drained queue files.registry.process
          cleared.registry.process := by
  obtain ⟨rounds, final, returned, drained⟩ :=
    exists_drain reads nonblocking opened.descriptor deposited mesg
  refine ⟨rounds,
    { files with
      registry := { files.registry with process := final.1 } },
    ?_, drained⟩
  rw [clearWith, opened.flags, returned]
  rfl

/-- On a non-blocking descriptor `Unlink` drains the queue. -/
theorem HoldsOpen.exists_unlink
    (opened : HoldsOpen files this flag queue)
    (reads : Reads flag)
    (nonblocking : Nonblocking flag)
    (deposited :
      Deposited files.registry.process.heap
        (files.registry.messages queue))
    (closes : Bool) :
    ∃ rounds unlinked,
      unlinkWith files this rounds closes = some unlinked ∧
        Drained queue files.registry.process
          unlinked.1.registry.process := by
  obtain ⟨rounds, cleared, returned, drained⟩ :=
    opened.exists_clear reads nonblocking deposited
  refine ⟨rounds, closeAndUnlink cleared this closes, ?_, ?_⟩
  · rw [unlinkWith, if_neg opened.name, returned]
    rfl
  · dsimp only [closeAndUnlink]
    rw [mqUnlink_process]
    exact drained.close this closes

/--
On a descriptor that may be read `Clear`, `Unlink` and the destructor return
with the queue empty and its messages released exactly when it was opened with
`O_NONBLOCK`.
-/
theorem clear_drains_iff
    (opened : HoldsOpen files this flag queue)
    (reads : Reads flag)
    (deposited :
      Deposited files.registry.process.heap
        (files.registry.messages queue))
    (closes : Bool) :
    ((∃ rounds cleared,
          clearWith files this rounds = some cleared ∧
            Drained queue files.registry.process
              cleared.registry.process) ↔
        Nonblocking flag) ∧
      ((∃ rounds unlinked,
          unlinkWith files this rounds closes = some unlinked ∧
            Drained queue files.registry.process
              unlinked.1.registry.process) ↔
        Nonblocking flag) ∧
      ((∃ rounds destroyed,
          destroyWith files this rounds closes = some destroyed ∧
            Drained queue files.registry.process
              destroyed.registry.process) ↔
        Nonblocking flag) := by
  refine ⟨⟨?_, ?_⟩, ⟨?_, ?_⟩, ⟨?_, ?_⟩⟩
  · rintro ⟨rounds, cleared, returned, _⟩
    by_contra blocking
    rw [opened.clear_eq_none reads blocking] at returned
    cases returned
  · intro nonblocking
    exact opened.exists_clear reads nonblocking deposited
  · rintro ⟨rounds, unlinked, returned, _⟩
    by_contra blocking
    rw [opened.unlink_eq_none reads blocking] at returned
    cases returned
  · intro nonblocking
    exact opened.exists_unlink reads nonblocking deposited closes
  · rintro ⟨rounds, destroyed, returned, _⟩
    by_contra blocking
    rw [destroyWith, opened.unlink_eq_none reads blocking] at returned
    cases returned
  · intro nonblocking
    obtain ⟨rounds, unlinked, returned, drained⟩ :=
      opened.exists_unlink reads nonblocking deposited closes
    refine ⟨rounds, discard unlinked.1 this, ?_, drained⟩
    rw [destroyWith, returned]
    rfl

/-- One object with nothing open, two payload blocks and two `MsgObj`s. -/
def unopened : Files Unit Unit where
  registry :=
    { process :=
        { heap :=
            { block := fun pointer =>
                if pointer = 7 then some [1]
                else if pointer = 8 then some [2, 3]
                else none
              obj := fun pointer => if pointer < 2 then some () else none
              fault := false }
          kernel := ⟨fun _ => none, fun _ => ⟨0, []⟩⟩
          object := fun _ => ⟨-1, false, 0, 0, 0, 0⟩
          gMap := fun _ => none
          gReceiveMsgCnt := 0
          gSendMsgCnt := 0 }
      msgQueueName := fun _ => ""
      msgQueueSize := fun _ => 0
      alive := fun _ => true
      linked := fun _ => false
      created := 0
      opened := fun _ => false
      holds := fun _ => none }
  oflags := fun _ => 0

/-- Two messages with a payload and an object each. -/
def twoMessages : List (UInt32 × MesgT) :=
  [(1, { mesg with tpMsgData := (some 7, 1), pclsMsgObj := some 0 }),
    (0, { mesg with tpMsgData := (some 8, 2), pclsMsgObj := some 1 })]

/-- The object, opened with some flags and with two messages in its queue. -/
def withTwoMessages (flag : Int32) : Files Unit Unit :=
  let opened :=
    (openMaxmsgWith unopened () (some "/q") flag 8 (some 3)).1
  { opened with
    registry :=
      opened.registry.withKernel
        (opened.registry.process.kernel.setMessages 0 twoMessages) }

/-- `Open` gives the descriptor its flags, whatever is sent afterwards. -/
theorem holdsOpen_withTwoMessages
    (flag : Int32)
    (creates : flag &&& oCreatFlag ≠ 0) :
    HoldsOpen (withTwoMessages flag) () flag 0 := by
  have succeeded :
      (openMaxmsgWith unopened () (some "/q") flag 8 (some 3)).2 = 0 := by
    simp [openMaxmsgWith, openMaxmsg, openQueue, mqOpenAnswer, creates,
      Files.opened]
  have opened := holdsOpen_openMaxmsgWith succeeded
  exact ⟨opened.name, opened.descriptor, opened.flags⟩

/-- The two messages own different blocks and objects. -/
theorem deposited_withTwoMessages
    (flag : Int32) :
    Deposited (withTwoMessages flag).registry.process.heap
      ((withTwoMessages flag).registry.messages 0) := by
  have heap :
      (withTwoMessages flag).registry.process.heap =
        unopened.registry.process.heap := by
    simp only [withTwoMessages, openMaxmsgWith, openMaxmsg, openQueue,
      Files.opened, Registry.withKernel]
    split <;> rfl
  have messages :
      (withTwoMessages flag).registry.messages 0 = twoMessages := by
    simp only [withTwoMessages, Registry.messages, Registry.withKernel,
      Kernel.setMessages_messages, ↓reduceIte]
  rw [heap, messages]
  refine ⟨rfl, ?_, List.pairwise_pair.mpr ?_⟩
  · intro entry member
    rcases List.mem_pair.mp member with rfl | rfl
    · constructor <;> rintro pointer ⟨⟩ <;> rfl
    · constructor <;> rintro pointer ⟨⟩ <;> rfl
  · constructor <;> rintro pointer ⟨⟩ ⟨⟩

/-- A queue opened with `O_CREAT | O_RDWR | O_NONBLOCK` is drained. -/
theorem clear_drains_nonblocking :
    ∃ rounds cleared,
      clearWith (withTwoMessages 2114) () rounds = some cleared ∧
        Drained 0 (withTwoMessages 2114).registry.process
          cleared.registry.process :=
  (clear_drains_iff (holdsOpen_withTwoMessages 2114 (by decide))
    (by decide) (deposited_withTwoMessages 2114) true).1.mpr (by decide)

/-- On one opened with `O_CREAT | O_RDWR` the call does not return. -/
theorem clear_blocks :
    HoldsOpen (withTwoMessages 66) () 66 0 ∧
      Reads 66 ∧
      Deposited (withTwoMessages 66).registry.process.heap
        ((withTwoMessages 66).registry.messages 0) ∧
      ¬ ∃ rounds cleared,
        clearWith (withTwoMessages 66) () rounds = some cleared := by
  have opened := holdsOpen_withTwoMessages 66 (by decide)
  refine ⟨opened, by decide, deposited_withTwoMessages 66, ?_⟩
  rintro ⟨rounds, cleared, returned⟩
  rw [opened.clear_eq_none (by decide) (by decide)] at returned
  cases returned

end Objects

end WkcRuntime.MsgQueue
