import WkcRuntime.MsgQueueTable

namespace WkcRuntime.MsgQueue

open Mesg MessageQueue

/-!
# Queue objects that get in each other's way

An object keeps its descriptor number when it is closed, and the kernel may give
the number to another object.  Every later call that goes through the kept
number acts on the other object's queue.  A call leaves the queues of other
objects alone exactly when its own number is not that of a queue which another
living object has open, or when it takes and closes nothing there.
-/

variable {Object Obj : Type}

/-- A living object's number refers to the queue that its last `Open` made. -/
def Table.HasOpen
    (table : Table Object)
    (this : Object)
    (queue : Nat) :
    Prop :=
  table.alive this = true ∧
    table.holds this = some queue ∧
    table.descriptor (table.fdOf this) = some queue

/-- The number of an object is one that another object has open. -/
def Table.Foreign
    (table : Table Object)
    (this : Object) :
    Prop :=
  ∃ other queue,
    other ≠ this ∧
      table.HasOpen other queue ∧
      table.fdOf other = table.fdOf this

/-- A message waits in the queue that the object's number refers to. -/
def Waiting
    (registry : Registry Object Obj)
    (this : Object) :
    Prop :=
  ∃ queue,
    registry.descriptor (registry.fdOf this) = some queue ∧
      registry.messages queue ≠ []

/-- A `Receive` gets as far as a message. -/
def ReceiveTakes
    (registry : Registry Object Obj)
    (this : Object)
    (isPolling : Bool)
    (answers : Answers) :
    Prop :=
  ¬ registry.fdOf this ≤ 0 ∧
    (isPolling = true → answers.select = .readable) ∧
    answers.receive = true ∧
    Waiting registry this

/-- A `Clear` gets as far as a message. -/
def ClearTakes
    (registry : Registry Object Obj)
    (this : Object)
    (rounds : Nat) :
    Prop :=
  rounds ≠ 0 ∧ Waiting registry this

/-- A call that takes or closes something through another object's number. -/
def Interferes
    (registry : Registry Object Obj) :
    Operation Object → Prop
  | .receive this _ isPolling answers =>
      registry.table.Foreign this ∧
        ReceiveTakes registry this isPolling answers
  | .clear this rounds =>
      registry.table.Foreign this ∧ ClearTakes registry this rounds
  | .close this closes =>
      registry.table.Foreign this ∧ closes = true
  | .unlink this rounds closes =>
      registry.table.Foreign this ∧
        (ClearTakes registry this rounds ∨ closes = true)
  | .destroy this rounds closes =>
      registry.table.Foreign this ∧
        (ClearTakes registry this rounds ∨ closes = true)
  | _ =>
      False

/--
No message was taken out of a queue that another living object has open, its
number was not closed and its entry in `gMap` was not removed.
-/
def SparesOthers
    (registry : Registry Object Obj)
    (operation : Operation Object)
    (next : Registry Object Obj) :
    Prop :=
  ∀ other queue,
    operation.on? ≠ some other →
    registry.table.HasOpen other queue →
    (registry.messages queue).Sublist (next.messages queue) ∧
      next.descriptor (registry.fdOf other) = some queue ∧
      (registry.gMap (registry.fdOf other) = some other →
        next.gMap (registry.fdOf other) = some other)

section Messages

variable {Queue : Type} [DecidableEq Queue]

/-- Each round of `DumpMsgQueue` takes one message out of one queue. -/
theorem dumpMsgQueue_messages
    (fd : Int32)
    (rounds : Nat)
    (process : Process Object Queue Obj)
    (queue : Queue) :
    ((dumpMsgQueue fd rounds process).kernel.queue queue).messages =
      if process.kernel.descriptor fd = some queue then
        (process.kernel.queue queue).messages.drop rounds
      else
        (process.kernel.queue queue).messages := by
  induction rounds generalizing process with
  | zero =>
      simp [dumpMsgQueue]
  | succ rounds inductionHypothesis =>
      unfold dumpMsgQueue
      split
      · rename_i nothing
        unfold Kernel.mqReceive at nothing
        split
        · rename_i found
          cases stored : (process.kernel.queue queue).messages with
          | nil => rfl
          | cons first rest => simp [found, stored] at nothing
        · rfl
      · rename_i msg kernel received
        obtain ⟨target, prio, rest, refers, stored, rfl⟩ :=
          Kernel.mqReceive_cases received
        rw [inductionHypothesis]
        simp only [freeIn, Kernel.setMessages_messages]
        by_cases same : queue = target
        · subst queue
          simp [refers, stored]
        · have elsewhere : process.kernel.descriptor fd ≠ some queue := by
            rw [refers]
            exact fun equal => same (Option.some.inj equal).symm
          simp [elsewhere, same]

variable [DecidableEq Object]

/-- `Send` takes nothing out of any queue. -/
theorem send_messages
    (process : Process Object Queue Obj)
    (fd : Int32)
    (pclsMsg : MesgT)
    (s32Prio : UInt32)
    (accepts : Bool)
    (queue : Queue) :
    (process.kernel.queue queue).messages.Sublist
      ((send process fd pclsMsg s32Prio accepts).1.kernel.queue
        queue).messages := by
  unfold send
  split
  · exact List.Sublist.refl _
  · cases sent : process.kernel.mqSend fd pclsMsg s32Prio accepts with
    | none =>
        exact List.Sublist.refl _
    | some kernel =>
        obtain ⟨target, _, rfl⟩ := Kernel.mqSend_cases sent
        simp only [countSent_kernel, Kernel.setMessages_messages]
        split
        · rename_i same
          rw [same]
          exact sublist_insertByPriority _ _ _
        · exact List.Sublist.refl _

end Messages

section Effects

/-- The first messages are gone from the queue of one number, no others. -/
def Drops
    (registry next : Registry Object Obj)
    (this : Object)
    (taken : Nat) :
    Prop :=
  ∀ queue,
    next.messages queue =
      if registry.descriptor (registry.fdOf this) = some queue then
        (registry.messages queue).drop taken
      else
        registry.messages queue

/-- One number is closed and its entry erased, or nothing is. -/
def Erases
    (registry next : Registry Object Obj)
    (this : Object)
    (closed : Bool) :
    Prop :=
  ∀ fd,
    if closed = true ∧ fd = registry.fdOf this then
      next.descriptor fd = none
    else
      next.descriptor fd = registry.descriptor fd ∧
        next.gMap fd = registry.gMap fd

/-- Dropping nothing is no change. -/
theorem drops_zero
    {registry next : Registry Object Obj}
    {this : Object}
    (same : next.messages = registry.messages) :
    Drops registry next this 0 := by
  intro queue
  rw [same, List.drop_zero, ite_self]

/-- A call that leaves the table alone erases nothing. -/
theorem erases_of_table_eq
    {registry next : Registry Object Obj}
    {this : Object}
    (same : next.table = registry.table) :
    Erases registry next this false := by
  intro fd
  rw [if_neg (by simp)]
  exact ⟨congrFun (congrArg Table.descriptor same) fd,
    congrFun (congrArg Table.gMap same) fd⟩

/-- Erasing is a matter of the tables alone. -/
theorem Erases.congr
    {before after registry next : Registry Object Obj}
    {this : Object}
    {closed : Bool}
    (erases : Erases before after this closed)
    (sameBefore : before.table = registry.table)
    (sameAfter : next.table = after.table) :
    Erases registry next this closed := by
  have number : before.fdOf = registry.fdOf :=
    congrArg Table.fdOf sameBefore
  have numbers : before.descriptor = registry.descriptor :=
    congrArg Table.descriptor sameBefore
  have entries : before.gMap = registry.gMap :=
    congrArg Table.gMap sameBefore
  have nextNumbers : next.descriptor = after.descriptor :=
    congrArg Table.descriptor sameAfter
  have nextEntries : next.gMap = after.gMap :=
    congrArg Table.gMap sameAfter
  unfold Erases at erases ⊢
  rw [← number, ← numbers, ← entries, nextNumbers, nextEntries]
  exact erases

/--
What a call does to other objects is decided by what it drops and erases at its
own number: nothing else is in reach.
-/
theorem sparesOthers_iff
    {registry next : Registry Object Obj}
    {operation : Operation Object}
    {this : Object}
    {taken : Nat}
    {closed : Bool}
    (sane : registry.table.Sane)
    (on : operation.on? = some this)
    (drops : Drops registry next this taken)
    (erases : Erases registry next this closed) :
    SparesOthers registry operation next ↔
      ¬ (registry.table.Foreign this ∧
        (ClearTakes registry this taken ∨ closed = true)) := by
  constructor
  · rintro spares
      ⟨⟨other, queue, different, hasOpen, sameNumber⟩, effect⟩
    have notOn : operation.on? ≠ some other := by
      rw [on]
      exact fun equal => different (Option.some.inj equal).symm
    obtain ⟨kept, stays, _⟩ := spares other queue notOn hasOpen
    have refers :
        registry.descriptor (registry.fdOf this) = some queue :=
      (congrArg registry.descriptor sameNumber).symm.trans hasOpen.2.2
    rcases effect with ⟨some, target, refersToo, nonempty⟩ | gone
    · obtain rfl := Option.some.inj (refers.symm.trans refersToo)
      have shorter := kept.length_le
      rw [drops queue, if_pos refers, List.length_drop] at shorter
      have positive := List.length_pos_iff.mpr nonempty
      omega
    · have erased := erases (registry.fdOf other)
      rw [if_pos ⟨gone, sameNumber⟩] at erased
      rw [erased] at stays
      cases stays
  · intro harmless other queue notOn hasOpen
    have different : other ≠ this := by
      rintro rfl
      exact notOn on
    by_cases sameNumber : registry.fdOf other = registry.fdOf this
    · have foreign : registry.table.Foreign this :=
        ⟨other, queue, different, hasOpen, sameNumber⟩
      obtain ⟨nothing, open'⟩ :=
        not_or.mp (fun effect => harmless ⟨foreign, effect⟩)
      have refers :
          registry.descriptor (registry.fdOf this) = some queue :=
        (congrArg registry.descriptor sameNumber).symm.trans
          hasOpen.2.2
      have erased := erases (registry.fdOf other)
      rw [if_neg (fun both => open' both.1)] at erased
      refine ⟨?_, erased.1.trans hasOpen.2.2, erased.2.trans⟩
      rw [drops queue, if_pos refers]
      by_cases none : taken = 0
      · rw [none, List.drop_zero]
      · have empty : registry.messages queue = [] := by
          by_contra nonempty
          exact nothing ⟨none, queue, refers, nonempty⟩
        rw [empty]
        exact List.nil_sublist _
    · have elsewhere :
          registry.descriptor (registry.fdOf this) ≠ some queue :=
        fun refers => sameNumber (sane.single hasOpen.2.2 refers)
      have erased := erases (registry.fdOf other)
      rw [if_neg (fun both => sameNumber both.2)] at erased
      refine ⟨?_, erased.1.trans hasOpen.2.2, erased.2.trans⟩
      rw [drops queue, if_neg elsewhere]

variable [DecidableEq Object]

/-- `mq_receive` drops one message if it is answered and finds one. -/
theorem exists_drops_receiveInto
    (process : Process Object Nat Obj)
    (this : Object)
    (pclsMsg : MesgT)
    (answers : Answers) :
    ∃ taken,
      (∀ queue,
        ((receiveInto process this pclsMsg answers).1.kernel.queue
            queue).messages =
          if process.kernel.descriptor
              (process.object this).msgQueueFd = some queue then
            (process.kernel.queue queue).messages.drop taken
          else
            (process.kernel.queue queue).messages) ∧
      ∀ queue,
        process.kernel.descriptor (process.object this).msgQueueFd =
          some queue →
        (process.kernel.queue queue).messages ≠ [] →
        (taken ≠ 0 ↔ answers.receive = true) := by
  unfold receiveInto
  split
  · rename_i nothing
    refine ⟨0, ?_, ?_⟩
    · intro queue
      rw [List.drop_zero, ite_self]
    · intro queue refers nonempty
      obtain ⟨first, rest, stored⟩ := List.exists_cons_of_ne_nil nonempty
      simpa [Kernel.mqReceive, refers, stored] using nothing
  · rename_i msg kernel received
    have answered : answers.receive = true := by
      by_contra refused
      rw [Bool.not_eq_true] at refused
      obtain ⟨queue, prio, rest, refers, stored, _⟩ :=
        Kernel.mqReceive_cases received
      simp [Kernel.mqReceive, refers, stored, refused] at received
    obtain ⟨target, prio, rest, refers, stored, rfl⟩ :=
      Kernel.mqReceive_cases received
    refine ⟨1, ?_, ?_⟩
    · intro queue
      simp only [countReceived, Kernel.setMessages_messages, refers,
        Option.some.injEq, eq_comm]
      split
      · rename_i same
        subst same
        rw [stored, List.drop_one, List.tail_cons]
      · rfl
    · intro queue _ _
      exact iff_of_true (by decide) answered

/-- `Receive` drops one message exactly when it gets as far as one. -/
theorem exists_drops_receive
    (registry : Registry Object Obj)
    (this : Object)
    (pclsMsg : MesgT)
    (isPolling : Bool)
    (answers : Answers) :
    ∃ taken,
      Drops registry
        (withProcess registry
          (receive registry.process this pclsMsg isPolling answers).1)
        this taken ∧
      (ClearTakes registry this taken ↔
        ReceiveTakes registry this isPolling answers) := by
  have untouched :
      ∀ {next : Registry Object Obj},
        next.messages = registry.messages →
        ¬ ReceiveTakes registry this isPolling answers →
        ∃ taken,
          Drops registry next this taken ∧
          (ClearTakes registry this taken ↔
            ReceiveTakes registry this isPolling answers) := by
    intro next same refused
    exact ⟨0, drops_zero same,
      iff_of_false (fun takes => takes.1 rfl) refused⟩
  unfold receive
  by_cases noHandle : (registry.process.object this).msgQueueFd ≤ 0
  · simp only [noHandle, ↓reduceIte]
    exact untouched rfl (fun takes => takes.1 noHandle)
  · simp only [noHandle, ↓reduceIte]
    by_cases reaches : isPolling = true → answers.select = .readable
    · obtain ⟨taken, drops, answered⟩ :=
        exists_drops_receiveInto
          { registry.process with
            object := Function.update registry.process.object this
              { registry.process.object this with
                msgQueueNotInUse := false } }
          this pclsMsg answers
      simp only [Function.update_self] at drops answered
      refine ⟨taken, ?_, ?_⟩
      · intro queue
        refine Eq.trans ?_ (drops queue)
        cases isPolling with
        | false => rfl
        | true => simp only [reaches rfl, ↓reduceIte]; rfl
      · constructor
        · rintro ⟨some, queue, refers, nonempty⟩
          exact ⟨noHandle, reaches,
            (answered queue refers nonempty).mp some,
            queue, refers, nonempty⟩
        · rintro ⟨_, _, accepted, queue, refers, nonempty⟩
          exact ⟨(answered queue refers nonempty).mpr accepted,
            queue, refers, nonempty⟩
    · refine untouched ?_ (fun takes => reaches takes.2.1)
      obtain ⟨polling, notReadable⟩ := Classical.not_imp.mp reaches
      cases answered : answers.select with
      | failed => simp only [polling, ↓reduceIte]; rfl
      | notOurQueue => simp only [polling, ↓reduceIte]; rfl
      | readable => exact absurd answered notReadable

omit [DecidableEq Object] in
/-- `Clear` drops as many messages as it was answered. -/
theorem drops_clear
    (registry : Registry Object Obj)
    (this : Object)
    (rounds : Nat) :
    Drops registry (clear registry this rounds) this rounds :=
  fun queue =>
    dumpMsgQueue_messages (registry.fdOf this) rounds
      registry.process queue

/-- `Close` moves no message. -/
theorem messages_close
    (registry : Registry Object Obj)
    (this : Object)
    (closes : Bool) :
    (close registry this closes).1.messages = registry.messages := by
  unfold close
  split
  · rfl
  · split
    · rfl
    · rename_i kernel answered
      obtain ⟨_, _, rfl⟩ := Kernel.mqClose_eq_some_iff.mp answered
      rfl

/-- `Close` erases the number of the object if the kernel closes it. -/
theorem erases_close
    (registry : Registry Object Obj)
    (this : Object)
    (closes : Bool) :
    Erases registry (close registry this closes).1 this
      (decide (registry.table.Closes this closes)) := by
  have after := table_close registry this closes
  by_cases accepted : registry.table.Closes this closes
  · rw [Table.close, if_pos accepted] at after
    intro fd
    have descriptor :
        (close registry this closes).1.descriptor fd =
          Function.update registry.descriptor
            (registry.fdOf this) none fd :=
      congrFun (congrArg Table.descriptor after) fd
    have gMap :
        (close registry this closes).1.gMap fd =
          Function.update registry.gMap
            (registry.fdOf this) none fd :=
      congrFun (congrArg Table.gMap after) fd
    rw [descriptor, gMap]
    by_cases here : fd = registry.fdOf this
    · simp [accepted, here]
    · simp [here]
  · rw [Table.close, if_neg accepted] at after
    rw [decide_eq_false accepted]
    exact erases_of_table_eq after

/-- `Unlink` of an object with a name drops and erases what it was answered. -/
theorem unlink_effects
    (registry : Registry Object Obj)
    (this : Object)
    (rounds : Nat)
    (closes : Bool)
    (named : registry.msgQueueName this ≠ "") :
    Drops registry (unlink registry this rounds closes).1 this rounds ∧
      Erases registry (unlink registry this rounds closes).1 this
        (decide (registry.table.Closes this closes)) := by
  have cleared := table_clear registry this rounds
  have unlinked :
      (unlink registry this rounds closes).1.table =
        (close (clear registry this rounds) this closes).1.table := by
    rw [unlink, if_neg named, table_mqUnlink]
  constructor
  · intro queue
    have moved :
        (unlink registry this rounds closes).1.messages =
          (clear registry this rounds).messages := by
      rw [unlink, if_neg named, mqUnlink]
      split
      · exact messages_close (clear registry this rounds) this closes
      · exact messages_close (clear registry this rounds) this closes
    rw [moved]
    exact drops_clear registry this rounds queue
  · have erases := erases_close (clear registry this rounds) this closes
    rw [cleared] at erases
    exact erases.congr cleared unlinked

omit [DecidableEq Object] in
/-- Through another object's number a close goes through if it is answered. -/
theorem closes_iff_of_foreign
    {table : Table Object}
    (sane : table.Sane)
    {this : Object}
    (foreign : table.Foreign this)
    (closes : Bool) :
    table.Closes this closes ↔ closes = true := by
  obtain ⟨other, queue, _, hasOpen, sameNumber⟩ := foreign
  have refers : table.descriptor (table.fdOf this) = some queue :=
    sameNumber ▸ hasOpen.2.2
  constructor
  · exact fun accepted => accepted.1
  · intro accepted
    exact ⟨accepted, Int32.not_lt.mpr (sane.nonneg refers),
      Option.isSome_iff_exists.mpr ⟨queue, refers⟩⟩

omit [DecidableEq Object] in
/-- A living object without a name has no number either. -/
theorem not_foreign_of_nameless
    {table : Table Object}
    (sane : table.Sane)
    {this : Object}
    (alive : table.alive this = true)
    (nameless : table.msgQueueName this = "") :
    ¬ table.Foreign this := by
  rintro ⟨other, queue, _, hasOpen, sameNumber⟩
  have refers : table.descriptor (table.fdOf this) = some queue :=
    sameNumber ▸ hasOpen.2.2
  exact sane.named alive (sane.nonneg refers) nameless

omit [DecidableEq Object] in
/-- A call that leaves messages, numbers and entries alone spares everybody. -/
theorem sparesOthers_of_same
    {registry next : Registry Object Obj}
    {operation : Operation Object}
    (messages : next.messages = registry.messages)
    (descriptor : next.descriptor = registry.descriptor)
    (gMap : next.gMap = registry.gMap) :
    SparesOthers registry operation next := by
  intro other queue _ hasOpen
  rw [messages, descriptor, gMap]
  exact ⟨List.Sublist.refl _, hasOpen.2.2, id⟩

/-- `Open` reaches only its own object and a number that nobody has. -/
theorem sparesOthers_openQueue
    {registry : Registry Object Obj}
    {operation : Operation Object}
    {this : Object}
    (sane : registry.table.Sane)
    (resetsLastMsgMsgId : Bool)
    (name : String)
    (maxmsg : Int64)
    (oCreat : Bool)
    {answer : Option Int32}
    (answerable :
      ∀ fd,
        answer = some fd →
        0 ≤ fd ∧ registry.descriptor fd = none) :
    SparesOthers registry operation
      (openQueue resetsLastMsgMsgId registry this name maxmsg
        oCreat answer).1 := by
  intro other queue _ hasOpen
  unfold openQueue
  cases answered : mqOpenAnswer name oCreat answer with
  | none =>
      exact ⟨List.Sublist.refl _, hasOpen.2.2, id⟩
  | some fd =>
      obtain ⟨_, rfl⟩ := mqOpenAnswer_eq_some answered
      obtain ⟨_, unused⟩ := answerable fd rfl
      have older : queue ≠ registry.created :=
        Nat.ne_of_lt (sane.older hasOpen.2.2)
      have elsewhere : registry.fdOf other ≠ fd := by
        rintro rfl
        cases unused.symm.trans hasOpen.2.2
      refine ⟨?_, ?_, ?_⟩
      · simp [Registry.messages, Registry.withKernel,
          Registry.addMsgQueue, Kernel.mqOpen, older]
      · exact (Function.update_of_ne elsewhere ..).trans hasOpen.2.2
      · exact (Function.update_of_ne elsewhere ..).trans

/-- `Send` takes nothing out and keeps all numbers. -/
theorem sparesOthers_send
    {registry : Registry Object Obj}
    {operation : Operation Object}
    (fd : Int32)
    (pclsMsg : MesgT)
    (s32Prio : UInt32)
    (accepts : Bool) :
    SparesOthers registry operation
      (withProcess registry
        (send registry.process fd pclsMsg s32Prio accepts).1) := by
  intro other queue _ hasOpen
  have same :=
    sameNumbers_send registry.process fd pclsMsg s32Prio accepts
  refine ⟨send_messages .., ?_, ?_⟩
  · exact (congrFun same.descriptor _).trans hasOpen.2.2
  · exact (congrFun same.gMap _).trans

/-- What `Unlink`, also in the destructor, does to other objects. -/
theorem sparesOthers_unlink_iff
    {registry : Registry Object Obj}
    {operation : Operation Object}
    {this : Object}
    {rounds : Nat}
    {closes : Bool}
    (sane : registry.table.Sane)
    (alive : registry.alive this = true)
    (on : operation.on? = some this) :
    SparesOthers registry operation
        (unlink registry this rounds closes).1 ↔
      ¬ (registry.table.Foreign this ∧
        (ClearTakes registry this rounds ∨ closes = true)) := by
  by_cases nameless : registry.msgQueueName this = ""
  · have none := not_foreign_of_nameless sane alive nameless
    have unchanged :
        (unlink registry this rounds closes).1 = registry := by
      rw [unlink, if_pos nameless]
    rw [unchanged, sparesOthers_iff sane on (drops_zero rfl)
      (erases_of_table_eq rfl)]
    simp [none]
  · obtain ⟨drops, erases⟩ :=
      unlink_effects registry this rounds closes nameless
    rw [sparesOthers_iff sane on drops erases]
    apply not_congr
    apply and_congr_right
    intro foreign
    simp [closes_iff_of_foreign sane foreign]

/-- A call spares other objects exactly when it does not interfere. -/
theorem sparesOthers_step_iff
    {registry next : Registry Object Obj}
    {operation : Operation Object}
    (sane : registry.table.Sane)
    (stepped : registryStep? registry operation = some next) :
    SparesOthers registry operation next ↔
      ¬ Interferes registry operation := by
  cases operation with
  | construct this =>
      simp only [registryStep?, Option.ite_none_right_eq_some,
        Option.some.injEq] at stepped
      obtain ⟨_, rfl⟩ := stepped
      exact iff_of_true (sparesOthers_of_same rfl rfl rfl) id
  | openMaxmsg this name maxmsg oCreat answer =>
      obtain ⟨answerable, _, rfl⟩ := answered_eq_some_iff.mp stepped
      apply iff_of_true _ id
      cases name with
      | none =>
          exact sparesOthers_of_same rfl rfl rfl
      | some name =>
          apply sparesOthers_openQueue sane
          rintro fd rfl
          exact answerable
  | openAttr this name pattr oCreat answer =>
      obtain ⟨answerable, _, rfl⟩ := answered_eq_some_iff.mp stepped
      apply iff_of_true _ id
      cases name with
      | none =>
          exact sparesOthers_of_same rfl rfl rfl
      | some name =>
          cases pattr with
          | none =>
              exact sparesOthers_of_same rfl rfl rfl
          | some maxmsg =>
              apply sparesOthers_openQueue sane
              rintro fd rfl
              exact answerable
  | send this pclsMsg s32Prio accepts =>
      obtain ⟨_, rfl⟩ := onAlive_eq_some_iff.mp stepped
      exact iff_of_true (sparesOthers_send _ _ _ _) id
  | sendTo fd pclsMsg s32Prio accepts =>
      obtain rfl := Option.some.inj stepped
      exact iff_of_true (sparesOthers_send _ _ _ _) id
  | receive this pclsMsg isPolling answers =>
      have table := table_registryStep stepped
      obtain ⟨_, rfl⟩ := onAlive_eq_some_iff.mp stepped
      obtain ⟨taken, drops, takes⟩ :=
        exists_drops_receive registry this pclsMsg isPolling answers
      rw [sparesOthers_iff sane rfl drops (erases_of_table_eq table)]
      simp [Interferes, takes]
  | clear this rounds =>
      obtain ⟨_, rfl⟩ := onAlive_eq_some_iff.mp stepped
      rw [sparesOthers_iff sane rfl (drops_clear registry this rounds)
        (erases_of_table_eq (table_clear registry this rounds))]
      simp [Interferes]
  | close this closes =>
      obtain ⟨_, rfl⟩ := onAlive_eq_some_iff.mp stepped
      rw [sparesOthers_iff sane rfl
        (drops_zero (messages_close registry this closes))
        (erases_close registry this closes)]
      apply not_congr
      apply and_congr_right
      intro foreign
      simp [ClearTakes, closes_iff_of_foreign sane foreign]
  | unlink this rounds closes =>
      obtain ⟨alive, rfl⟩ := onAlive_eq_some_iff.mp stepped
      exact sparesOthers_unlink_iff sane alive rfl
  | destroy this rounds closes =>
      obtain ⟨alive, rfl⟩ := onAlive_eq_some_iff.mp stepped
      exact sparesOthers_unlink_iff sane alive rfl

end Effects

section Runs

variable [DecidableEq Object]

/-- The call, if it can be made, spares the queues of other objects. -/
def LeavesOthersAlone
    (registry : Registry Object Obj)
    (operation : Operation Object) :
    Prop :=
  ∀ next,
    registryMachine.step? registry operation = some next →
    SparesOthers registry operation next

/-- The call, if it can be made, does not interfere. -/
def Harmless
    (registry : Registry Object Obj)
    (operation : Operation Object) :
    Prop :=
  (registryMachine.step? registry operation).isSome = true →
  ¬ Interferes registry operation

/-- The numbers are sane in every run. -/
theorem sane_of_reachable
    {registry : Registry Object Obj}
    (reachable : registryMachine.Reachable registry) :
    registry.table.Sane := by
  apply reachable.invariant
  · rintro _ ⟨storage, rfl⟩
    exact sane_atStart storage
  · intro before after operation sane _ stepped
    exact sane_registryStep sane stepped

/-- In a reachable state, leaving others alone is not interfering. -/
theorem leavesOthersAlone_iff
    {registry : Registry Object Obj}
    (operation : Operation Object)
    (reachable : registryMachine.Reachable registry) :
    LeavesOthersAlone registry operation ↔
      Harmless registry operation := by
  have sane := sane_of_reachable reachable
  constructor
  · intro spares possible
    obtain ⟨next, stepped⟩ := Option.isSome_iff_exists.mp possible
    exact (sparesOthers_step_iff sane stepped).mp (spares next stepped)
  · intro harmless next stepped
    apply (sparesOthers_step_iff sane stepped).mpr
    exact harmless (Option.isSome_iff_exists.mpr ⟨next, stepped⟩)

/--
In a sequence of calls every call leaves the queues of other living objects
alone exactly when no call of the sequence takes a message or closes a
descriptor through a number that another living object has open.
-/
theorem leavesOthersAlone_iff_harmless
    (storage : Object → MsgQueueObject)
    (operations : List (Operation Object)) :
    registryMachine.Respects LeavesOthersAlone
        (Registry.atStart storage : Registry Object Obj) operations ↔
      registryMachine.Respects Harmless
        (Registry.atStart storage : Registry Object Obj)
        operations :=
  Machine.respects_congr leavesOthersAlone_iff
    (.initial ⟨storage, rfl⟩) operations

/-- The object and the name of an `Open` that gets as far as the kernel. -/
def Operation.opens? : Operation Object → Option (Object × String)
  | .openMaxmsg this (some name) _ _ _ => some (this, name)
  | .openAttr this (some name) (some _) _ _ => some (this, name)
  | _ => none

/-- Different objects are opened under different names. -/
def DistinctNames (operations : List (Operation Object)) : Prop :=
  (operations.filterMap Operation.opens?).Pairwise
    fun first second => first.2 = second.2 → first.1 = second.1

instance (operations : List (Operation Object)) :
    Decidable (DistinctNames operations) :=
  inferInstanceAs (Decidable (List.Pairwise _ _))

/--
An object is closed, another one is opened and gets its number, and the
destructor of the first one closes the queue of the second.
-/
theorem destructor_closes_other :
    ¬ ∀ (storage : Fin 2 → MsgQueueObject)
        (operations : List (Operation (Fin 2))),
      DistinctNames operations →
      registryMachine.Respects LeavesOthersAlone
        (Registry.atStart storage : Registry (Fin 2) Unit)
        operations := by
  intro alone
  have accepted :
      (registryMachine.run?
        (Registry.atStart blankStorage : Registry (Fin 2) Unit)
        [
          .construct 0,
          .openMaxmsg 0 (some "/a") 8 true (some 3),
          .close 0 true,
          .construct 1,
          .openMaxmsg 1 (some "/b") 8 true (some 3)
        ]).map (fun registry =>
          (registry.alive 1, registry.holds 1, registry.fdOf 1,
            registry.fdOf 0, registry.alive 0,
            registry.descriptor 3)) =
        some (true, some 1, 3, 3, true, some 1) := by
    decide
  rw [Option.map_eq_some_iff] at accepted
  obtain ⟨registry, ran, facts⟩ := accepted
  simp only [Prod.mk.injEq] at facts
  obtain ⟨alive, holds, fd, stale, caller, refers⟩ := facts
  have spares :=
    Machine.Respects.last
      (alone _ (_ ++ [.destroy 0 0 true]) (by decide)) ran
  have stepped :
      registryStep? registry (.destroy 0 0 true) =
        some (destroy registry 0 0 true) :=
    if_pos caller
  have hasOpen : registry.table.HasOpen 1 1 :=
    ⟨alive, holds, (congrArg registry.descriptor fd).trans refers⟩
  have reachable : registryMachine.Reachable registry :=
    Machine.Reachable.run (.initial ⟨blankStorage, rfl⟩) ran
  apply (sparesOthers_step_iff (sane_of_reachable reachable)
    stepped).mp (spares _ stepped)
  exact ⟨⟨1, 1, by decide, hasOpen, fd.trans stale.symm⟩, Or.inr rfl⟩

end Runs

end WkcRuntime.MsgQueue
