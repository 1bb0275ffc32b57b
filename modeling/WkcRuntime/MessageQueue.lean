import Mathlib.Logic.Function.Basic
import Mathlib.Algebra.BigOperators.Group.List.Basic

namespace WkcRuntime.MessageQueue

/-!
# POSIX message queues

Descriptors refer to queues of whole messages.  A queue keeps the messages of
higher priority first and, within one priority, in the order of arrival; a
receive takes the first one.  A call that the kernel may refuse for reasons
outside this state takes its answer as an argument.
-/

/-- One kernel queue: its capacity and its messages in the order of receipt. -/
structure Mqueue (Msg : Type) where
  maxmsg : Nat
  messages : List (UInt32 × Msg)

/-- The open descriptors of a process and the queues they refer to. -/
structure Kernel (Queue Msg : Type) where
  descriptor : Int32 → Option Queue
  queue : Queue → Mqueue Msg

/-- Insert behind every message of the same or a higher priority. -/
def insertByPriority
    {Msg : Type}
    (prio : UInt32)
    (msg : Msg) :
    List (UInt32 × Msg) → List (UInt32 × Msg)
  | [] =>
      [(prio, msg)]
  | first :: rest =>
      if first.1 < prio then
        (prio, msg) :: first :: rest
      else
        first :: insertByPriority prio msg rest

/-- Insertion adds exactly the new message. -/
theorem insertByPriority_perm
    {Msg : Type}
    (prio : UInt32)
    (msg : Msg)
    (messages : List (UInt32 × Msg)) :
    (insertByPriority prio msg messages).Perm
      ((prio, msg) :: messages) := by
  induction messages with
  | nil =>
      exact List.Perm.refl _
  | cons first rest inductionHypothesis =>
      simp only [insertByPriority]
      split
      · exact List.Perm.refl _
      · exact (inductionHypothesis.cons first).trans
          (List.Perm.swap _ _ _)

/-- What was inserted can be read off the result. -/
theorem insertByPriority_injective
    {Msg : Type}
    {prio : UInt32}
    {msg other : Msg}
    {messages : List (UInt32 × Msg)}
    (same :
      insertByPriority prio msg messages =
        insertByPriority prio other messages) :
    msg = other := by
  induction messages with
  | nil =>
      exact (Prod.mk.inj (List.singleton_inj.mp same)).2
  | cons first rest inductionHypothesis =>
      simp only [insertByPriority] at same
      split at same
      · exact (Prod.mk.inj (List.cons.inj same).1).2
      · exact inductionHypothesis (List.cons.inj same).2

/-- Insertion keeps the messages that were there, in their order. -/
theorem sublist_insertByPriority
    {Msg : Type}
    (prio : UInt32)
    (msg : Msg)
    (messages : List (UInt32 × Msg)) :
    messages.Sublist (insertByPriority prio msg messages) := by
  induction messages with
  | nil =>
      exact List.nil_sublist _
  | cons first rest inductionHypothesis =>
      simp only [insertByPriority]
      split
      · exact List.sublist_cons_self _ _
      · exact inductionHypothesis.cons_cons first

/-- Messages in the order of receipt: no later one has a higher priority. -/
def Ordered {Msg : Type} (messages : List (UInt32 × Msg)) : Prop :=
  messages.Pairwise fun first later => later.1 ≤ first.1

/-- The messages of one priority. -/
def ofPriority
    {Msg : Type}
    (prio : UInt32)
    (messages : List (UInt32 × Msg)) :
    List (UInt32 × Msg) :=
  messages.filter fun entry => decide (entry.1 = prio)

/-- Insertion keeps the order of receipt. -/
theorem Ordered.insertByPriority
    {Msg : Type}
    {prio : UInt32}
    {msg : Msg}
    {messages : List (UInt32 × Msg)}
    (ordered : Ordered messages) :
    Ordered (insertByPriority prio msg messages) := by
  induction messages with
  | nil =>
      exact List.pairwise_singleton _ _
  | cons first rest inductionHypothesis =>
      obtain ⟨above, restOrdered⟩ := List.pairwise_cons.mp ordered
      simp only [MessageQueue.insertByPriority]
      split
      · next below =>
          refine List.pairwise_cons.mpr ⟨?_, ordered⟩
          intro entry member
          obtain rfl | inRest := List.mem_cons.mp member
          · exact UInt32.le_of_lt below
          · exact UInt32.le_trans (above entry inRest)
              (UInt32.le_of_lt below)
      · next notBelow =>
          refine List.pairwise_cons.mpr
            ⟨?_, inductionHypothesis restOrdered⟩
          intro entry member
          have spread :=
            (insertByPriority_perm prio msg rest).mem_iff.mp member
          obtain rfl | inRest := List.mem_cons.mp spread
          · exact UInt32.not_lt.mp notBelow
          · exact above entry inRest

/-- Within one priority a new message comes last. -/
theorem Ordered.ofPriority_insert
    {Msg : Type}
    {prio : UInt32}
    {msg : Msg}
    {messages : List (UInt32 × Msg)}
    (ordered : Ordered messages)
    (priority : UInt32) :
    ofPriority priority (MessageQueue.insertByPriority prio msg messages) =
      ofPriority priority messages ++ ofPriority priority [(prio, msg)] := by
  induction messages with
  | nil =>
      rfl
  | cons first rest inductionHypothesis =>
      obtain ⟨above, restOrdered⟩ := List.pairwise_cons.mp ordered
      simp only [MessageQueue.insertByPriority]
      split
      · next below =>
          by_cases same : prio = priority
          · -- Nothing behind has the priority of the new message.
            have none : ofPriority priority (first :: rest) = [] := by
              refine List.filter_eq_nil_iff.mpr ?_
              intro entry member
              rw [decide_eq_true_iff]
              rintro isPriority
              have atMost : entry.1 ≤ first.1 := by
                obtain rfl | inRest := List.mem_cons.mp member
                · exact UInt32.le_refl _
                · exact above entry inRest
              rw [isPriority, ← same] at atMost
              exact UInt32.lt_irrefl _
                (UInt32.lt_of_lt_of_le below atMost)
            rw [none, List.nil_append]
            simp only [ofPriority, List.filter_cons] at none ⊢
            simp only [none]
            rfl
          · simp only [ofPriority, List.filter_cons, same, decide_false,
              Bool.false_eq_true, if_false, List.filter_nil,
              List.append_nil]
      · have placed := inductionHypothesis restOrdered
        simp only [ofPriority, List.filter_cons] at placed ⊢
        rw [placed]
        split <;> rfl

namespace Kernel

variable {Queue Msg : Type} [DecidableEq Queue]

/-- Replace the messages of one queue. -/
def setMessages
    (kernel : Kernel Queue Msg)
    (queue : Queue)
    (messages : List (UInt32 × Msg)) :
    Kernel Queue Msg :=
  { kernel with
    queue :=
      Function.update kernel.queue queue
        { kernel.queue queue with messages } }

/-- One queue has the new messages and every other one its old ones. -/
theorem setMessages_messages
    (kernel : Kernel Queue Msg)
    (queue other : Queue)
    (messages : List (UInt32 × Msg)) :
    ((kernel.setMessages queue messages).queue other).messages =
      if other = queue then messages
      else (kernel.queue other).messages := by
  unfold setMessages
  by_cases same : other = queue
  · subst other
    simp
  · simp [same]

/-- Replacing messages changes no capacity. -/
@[simp] theorem setMessages_maxmsg
    (kernel : Kernel Queue Msg)
    (queue other : Queue)
    (messages : List (UInt32 × Msg)) :
    ((kernel.setMessages queue messages).queue other).maxmsg =
      (kernel.queue other).maxmsg := by
  unfold setMessages
  by_cases same : other = queue
  · subst other
    simp
  · simp [same]

/-- Replacing messages changes no descriptor. -/
@[simp] theorem setMessages_descriptor
    (kernel : Kernel Queue Msg)
    (queue : Queue)
    (messages : List (UInt32 × Msg)) :
    (kernel.setMessages queue messages).descriptor = kernel.descriptor :=
  rfl

/-- `mq_send`; `none` stands for `-1`. -/
def mqSend
    (kernel : Kernel Queue Msg)
    (fd : Int32)
    (msg : Msg)
    (prio : UInt32)
    (accepts : Bool) :
    Option (Kernel Queue Msg) :=
  match kernel.descriptor fd with
  | none =>
      none
  | some queue =>
      if accepts ∧
          (kernel.queue queue).messages.length <
            (kernel.queue queue).maxmsg then
        some (kernel.setMessages queue
          (insertByPriority prio msg (kernel.queue queue).messages))
      else
        none

/-- `mq_receive`; `none` stands for `-1`. -/
def mqReceive
    (kernel : Kernel Queue Msg)
    (fd : Int32)
    (answers : Bool) :
    Option (Msg × Kernel Queue Msg) :=
  match kernel.descriptor fd with
  | none =>
      none
  | some queue =>
      match (kernel.queue queue).messages with
      | [] =>
          none
      | first :: rest =>
          if answers then
            some (first.2, kernel.setMessages queue rest)
          else
            none

/-- `mq_curmsgs` of `mq_getattr`; `none` stands for `-1`. -/
def mqCurmsgs
    (kernel : Kernel Queue Msg)
    (fd : Int32)
    (answers : Bool) :
    Option Int64 :=
  match kernel.descriptor fd with
  | none =>
      none
  | some queue =>
      if answers then
        some (Int64.ofNat (kernel.queue queue).messages.length)
      else
        none

/-- `mq_open` that creates a queue and answers with a descriptor for it. -/
def mqOpen
    (kernel : Kernel Queue Msg)
    (fd : Int32)
    (queue : Queue)
    (maxmsg : Nat) :
    Kernel Queue Msg where
  descriptor := Function.update kernel.descriptor fd (some queue)
  queue :=
    Function.update kernel.queue queue { maxmsg, messages := [] }

omit [DecidableEq Queue] in
/-- `mq_close`; `none` stands for `-1`. -/
def mqClose
    (kernel : Kernel Queue Msg)
    (fd : Int32)
    (closes : Bool) :
    Option (Kernel Queue Msg) :=
  match kernel.descriptor fd with
  | none =>
      none
  | some _ =>
      if closes then
        some { kernel with
          descriptor := Function.update kernel.descriptor fd none }
      else
        none

omit [DecidableEq Queue] in
/-- A successful close frees the number of an open descriptor. -/
theorem mqClose_eq_some_iff
    {kernel next : Kernel Queue Msg}
    {fd : Int32}
    {closes : Bool} :
    kernel.mqClose fd closes = some next ↔
      (∃ queue, kernel.descriptor fd = some queue) ∧
        closes = true ∧
        next = { kernel with
          descriptor := Function.update kernel.descriptor fd none } := by
  unfold mqClose
  cases kernel.descriptor fd with
  | none =>
      simp
  | some queue =>
      cases closes <;> simp [eq_comm]

omit [DecidableEq Queue] in
/-- A close that is answered fails only on a number that is not open. -/
theorem mqClose_eq_none_iff
    {kernel : Kernel Queue Msg}
    {fd : Int32} :
    kernel.mqClose fd true = none ↔ kernel.descriptor fd = none := by
  unfold mqClose
  cases kernel.descriptor fd <;> simp

/-- A successful send inserts the message into the queue of its descriptor. -/
theorem mqSend_cases
    {kernel next : Kernel Queue Msg}
    {fd : Int32}
    {msg : Msg}
    {prio : UInt32}
    {accepts : Bool}
    (sent : kernel.mqSend fd msg prio accepts = some next) :
    ∃ queue,
      kernel.descriptor fd = some queue ∧
        next = kernel.setMessages queue
          (insertByPriority prio msg (kernel.queue queue).messages) := by
  unfold mqSend at sent
  cases opened : kernel.descriptor fd with
  | none =>
      simp [opened] at sent
  | some queue =>
      simp only [opened, Option.ite_none_right_eq_some,
        Option.some.injEq] at sent
      exact ⟨queue, rfl, sent.2.symm⟩

/-- A successful receive takes the first message of its queue. -/
theorem mqReceive_cases
    {kernel next : Kernel Queue Msg}
    {fd : Int32}
    {answers : Bool}
    {msg : Msg}
    (received : kernel.mqReceive fd answers = some (msg, next)) :
    ∃ queue prio rest,
      kernel.descriptor fd = some queue ∧
        (kernel.queue queue).messages = (prio, msg) :: rest ∧
        next = kernel.setMessages queue rest := by
  unfold mqReceive at received
  cases opened : kernel.descriptor fd with
  | none =>
      simp [opened] at received
  | some queue =>
      cases stored : (kernel.queue queue).messages with
      | nil =>
          simp [opened, stored] at received
      | cons first rest =>
          simp only [opened, stored, Option.ite_none_right_eq_some,
            Option.some.injEq, Prod.mk.injEq] at received
          obtain ⟨_, rfl, rfl⟩ := received
          exact ⟨queue, first.1, rest, rfl, stored, rfl⟩

omit [DecidableEq Queue] in
/-- A queue holds no more messages than it has room for. -/
def Fits
    (kernel : Kernel Queue Msg)
    (queue : Queue) :
    Prop :=
  (kernel.queue queue).messages.length ≤ (kernel.queue queue).maxmsg

/-- A send never overfills a queue and takes nothing out of it. -/
theorem Fits.mqSend
    {kernel next : Kernel Queue Msg}
    {queue : Queue}
    {fd : Int32}
    {msg : Msg}
    {prio : UInt32}
    {accepts : Bool}
    (fits : kernel.Fits queue)
    (sent : kernel.mqSend fd msg prio accepts = some next) :
    next.Fits queue ∧
      next.descriptor = kernel.descriptor ∧
      (next.queue queue).maxmsg = (kernel.queue queue).maxmsg ∧
      (kernel.queue queue).messages.length ≤
        (next.queue queue).messages.length := by
  unfold Kernel.mqSend at sent
  cases opened : kernel.descriptor fd with
  | none =>
      simp [opened] at sent
  | some target =>
      simp only [opened, Option.ite_none_right_eq_some,
        Option.some.injEq] at sent
      obtain ⟨⟨_, room⟩, rfl⟩ := sent
      refine ⟨?_, rfl, setMessages_maxmsg .., ?_⟩
      · unfold Fits at fits ⊢
        rw [setMessages_maxmsg, setMessages_messages]
        split
        · next same =>
            subst target
            rw [(insertByPriority_perm ..).length_eq, List.length_cons]
            exact room
        · exact fits
      · rw [setMessages_messages]
        split
        · next same =>
            subst target
            exact (sublist_insertByPriority ..).length_le
        · exact Nat.le_refl _

omit [DecidableEq Queue] in
/-- What a descriptor gives access to, in the order of receipt. -/
def messagesAt
    (kernel : Kernel Queue Msg)
    (fd : Int32) :
    List (UInt32 × Msg) :=
  match kernel.descriptor fd with
  | none =>
      []
  | some queue =>
      (kernel.queue queue).messages

omit [DecidableEq Queue] in
/-- A number that is not open gives access to nothing. -/
theorem messagesAt_of_closed
    {kernel : Kernel Queue Msg}
    {fd : Int32}
    (closed : kernel.descriptor fd = none) :
    kernel.messagesAt fd = [] := by
  rw [messagesAt, closed]

omit [DecidableEq Queue] in
/-- An open number gives access to the messages of its queue. -/
theorem messagesAt_of_open
    {kernel : Kernel Queue Msg}
    {fd : Int32}
    {queue : Queue}
    (opened : kernel.descriptor fd = some queue) :
    kernel.messagesAt fd = (kernel.queue queue).messages := by
  rw [messagesAt, opened]

/-- A new queue is empty. -/
@[simp] theorem messagesAt_mqOpen
    {kernel : Kernel Queue Msg}
    {fd : Int32}
    {queue : Queue}
    {maxmsg : Nat} :
    (kernel.mqOpen fd queue maxmsg).messagesAt fd = [] := by
  simp [messagesAt, mqOpen]

/-- A successful send inserts the message behind its descriptor. -/
theorem messagesAt_of_mqSend
    {kernel next : Kernel Queue Msg}
    {fd : Int32}
    {msg : Msg}
    {prio : UInt32}
    {accepts : Bool}
    (sent : kernel.mqSend fd msg prio accepts = some next) :
    next.messagesAt fd =
      insertByPriority prio msg (kernel.messagesAt fd) := by
  obtain ⟨queue, opened, rfl⟩ := mqSend_cases sent
  simp [messagesAt, setMessages, opened]

/-- A successful receive takes the first message behind its descriptor. -/
theorem messagesAt_of_mqReceive
    {kernel next : Kernel Queue Msg}
    {fd : Int32}
    {answers : Bool}
    {msg : Msg}
    (received : kernel.mqReceive fd answers = some (msg, next)) :
    ∃ prio,
      kernel.messagesAt fd = (prio, msg) :: next.messagesAt fd := by
  obtain ⟨queue, prio, rest, opened, stored, rfl⟩ :=
    mqReceive_cases received
  exact ⟨prio, by simp [messagesAt, setMessages, opened, stored]⟩

/-- Only an empty queue gives nothing to a receive that is answered. -/
theorem mqReceive_eq_none_iff
    {kernel : Kernel Queue Msg}
    {fd : Int32} :
    kernel.mqReceive fd true = none ↔ kernel.messagesAt fd = [] := by
  unfold mqReceive messagesAt
  cases kernel.descriptor fd with
  | none =>
      simp
  | some queue =>
      cases stored : (kernel.queue queue).messages <;> simp [stored]

/-- A receive that is answered takes the first message. -/
theorem exists_mqReceive
    {kernel : Kernel Queue Msg}
    {fd : Int32}
    {first : UInt32 × Msg}
    {rest : List (UInt32 × Msg)}
    (stored : kernel.messagesAt fd = first :: rest) :
    ∃ next,
      kernel.mqReceive fd true = some (first.2, next) ∧
        next.messagesAt fd = rest := by
  cases received : kernel.mqReceive fd true with
  | none =>
      rw [mqReceive_eq_none_iff.mp received] at stored
      cases stored
  | some result =>
      obtain ⟨prio, split⟩ := messagesAt_of_mqReceive received
      obtain ⟨rfl, rfl⟩ := List.cons.inj (stored.symm.trans split)
      exact ⟨result.2, rfl, rfl⟩

section Map

variable {Other : Type}

omit [DecidableEq Queue] in
/-- Read every queued message through a function. -/
def map
    (read : Msg → Other)
    (kernel : Kernel Queue Msg) :
    Kernel Queue Other where
  descriptor := kernel.descriptor
  queue := fun queue =>
    { maxmsg := (kernel.queue queue).maxmsg
      messages := (kernel.queue queue).messages.map (Prod.map id read) }

omit [DecidableEq Queue] in
@[simp] theorem map_descriptor
    (read : Msg → Other)
    (kernel : Kernel Queue Msg) :
    (kernel.map read).descriptor = kernel.descriptor :=
  rfl

omit [DecidableEq Queue] in
@[simp] theorem map_queue
    (read : Msg → Other)
    (kernel : Kernel Queue Msg)
    (queue : Queue) :
    (kernel.map read).queue queue =
      { maxmsg := (kernel.queue queue).maxmsg
        messages :=
          (kernel.queue queue).messages.map (Prod.map id read) } :=
  rfl

omit [DecidableEq Queue] in
/-- Reading twice is reading through the composition. -/
theorem map_map
    {Third : Type}
    (read : Msg → Other)
    (again : Other → Third)
    (kernel : Kernel Queue Msg) :
    (kernel.map read).map again = kernel.map (again ∘ read) := by
  simp only [map, List.map_map, Prod.map_comp_map, Function.comp_id]

omit [DecidableEq Queue] in
/-- Two readings that agree on the queued messages read the same queues. -/
theorem map_congr
    {read again : Msg → Other}
    {kernel : Kernel Queue Msg}
    (same :
      ∀ queue,
        ∀ entry ∈ (kernel.queue queue).messages,
          read entry.2 = again entry.2) :
    kernel.map read = kernel.map again := by
  simp only [map, mk.injEq, true_and]
  funext queue
  simp only [Mqueue.mk.injEq, true_and]
  apply List.map_congr_left
  intro entry member
  exact Prod.ext rfl (same queue entry member)

omit [DecidableEq Queue] in
/-- Reading messages as they are changes nothing. -/
theorem map_id (kernel : Kernel Queue Msg) :
    kernel.map id = kernel := by
  simp [map]

/-- Where a message goes does not depend on what it says. -/
theorem map_insertByPriority
    (read : Msg → Other)
    (prio : UInt32)
    (msg : Msg)
    (messages : List (UInt32 × Msg)) :
    (insertByPriority prio msg messages).map (Prod.map id read) =
      insertByPriority prio (read msg)
        (messages.map (Prod.map id read)) := by
  induction messages with
  | nil =>
      rfl
  | cons first rest inductionHypothesis =>
      simp only [insertByPriority, List.map_cons, Prod.map_fst, id_eq]
      split
      · rfl
      · rw [List.map_cons, inductionHypothesis]

/-- Replacing messages and reading them, in either order. -/
theorem map_setMessages
    (read : Msg → Other)
    (kernel : Kernel Queue Msg)
    (queue : Queue)
    (messages : List (UInt32 × Msg)) :
    (kernel.setMessages queue messages).map read =
      (kernel.map read).setMessages queue
        (messages.map (Prod.map id read)) := by
  unfold map setMessages
  congr 1
  funext other
  by_cases same : other = queue
  · subst other
    simp
  · simp [same]

/-- `mq_send` does not look into the messages. -/
theorem mqSend_map
    (read : Msg → Other)
    (kernel : Kernel Queue Msg)
    (fd : Int32)
    (msg : Msg)
    (prio : UInt32)
    (accepts : Bool) :
    (kernel.map read).mqSend fd (read msg) prio accepts =
      (kernel.mqSend fd msg prio accepts).map (map read) := by
  unfold mqSend
  cases opened : kernel.descriptor fd with
  | none =>
      simp [opened]
  | some queue =>
      simp only [map_descriptor, opened, map_queue, List.length_map]
      split
      · simp [map_setMessages, map_insertByPriority]
      · rfl

/-- `mq_receive` does not look into the messages. -/
theorem mqReceive_map
    (read : Msg → Other)
    (kernel : Kernel Queue Msg)
    (fd : Int32)
    (answers : Bool) :
    (kernel.map read).mqReceive fd answers =
      (kernel.mqReceive fd answers).map
        (fun taken => (read taken.1, taken.2.map read)) := by
  unfold mqReceive
  cases opened : kernel.descriptor fd with
  | none =>
      simp [opened]
  | some queue =>
      cases stored : (kernel.queue queue).messages with
      | nil =>
          simp [opened, stored]
      | cons first rest =>
          cases answers <;> simp [opened, stored, map_setMessages]

omit [DecidableEq Queue] in
/-- `mq_getattr` does not look into the messages. -/
theorem mqCurmsgs_map
    (read : Msg → Other)
    (kernel : Kernel Queue Msg)
    (fd : Int32)
    (answers : Bool) :
    (kernel.map read).mqCurmsgs fd answers =
      kernel.mqCurmsgs fd answers := by
  simp [mqCurmsgs]

end Map

end Kernel

end WkcRuntime.MessageQueue
