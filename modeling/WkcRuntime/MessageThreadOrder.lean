import WkcRuntime.MessageThreadPayloads

namespace WkcRuntime.MessageThread

open MessageQueue
open ThreadObj (Select msgIdStopThread)

/-!
# In which order messages are handled

A thread with a message queue handles the messages of one priority in the order
in which the queue has accepted them, from whatever threads they come: what has
left the queue and what still waits is, priority by priority, what was put in.
The loop, the drain behind it and the drain of the destructor take the
messages; `mq_close` drops the rest.
-/

/-- How a message leaves the queue. -/
inductive Exit where
  | loop
  | clear
  | close
  deriving DecidableEq, Repr

/-- The message that a send puts into the queue, if it does. -/
def State.puts
    (state : State)
    (msg : Message)
    (s32Prio : UInt32)
    (accepts : Bool) :
    List (UInt32 × Message) :=
  if (MessageThread.send state msg s32Prio accepts).2 = 0 then
    [(s32Prio, msg)]
  else
    []

/-- What a step puts into the queue. -/
def State.entering
    (state : State) :
    Action → List (UInt32 × Message)
  | .sendMsg msgId carries accepts =>
      if state.initialized then
        (state.issue carries).puts ⟨msgId, state.newPayload carries⟩
          mesgPrioLow accepts
      else
        []
  | .send msgId carries s32Prio accepts =>
      (state.issue carries).puts ⟨msgId, state.newPayload carries⟩ s32Prio
        accepts
  | .owner accepts =>
      match state.owner with
      | .sendStop _ =>
          state.puts ⟨msgIdStopThread, none⟩ mesgPrioLow accepts
      | _ =>
          []
  | _ =>
      []

/-- What a step takes out of the queue, and how. -/
def State.leaving
    (state : State) :
    Action → List (Exit × UInt32 × Message)
  | .worker _ =>
      match state.worker with
      | .mqReceive =>
          state.messages.head?.toList.map (Exit.loop, ·)
      | .clear =>
          state.messages.head?.toList.map (Exit.clear, ·)
      | _ =>
          []
  | .owner _ =>
      match state.owner with
      | .clear =>
          state.messages.head?.toList.map (Exit.clear, ·)
      | .close =>
          state.messages.map (Exit.close, ·)
      | _ =>
          []
  | _ =>
      []

/-- The message in the hands of the worker. -/
def Worker.message : Worker → List Message
  | .processMsg msg =>
      [msg]
  | .notStarted | .testFlag | .receive | .select | .mqReceive | .sleep
  | .clear | .finished =>
      []

/-- The message that a step of the loop processes, or takes for a stop. -/
def State.handling
    (state : State) :
    Action → List Message
  | .worker _ =>
      state.worker.message
  | _ =>
      []

section Steps

variable {state next : State}
variable {action : Action}

/-- A send inserts exactly the message that it puts into the queue. -/
theorem ofPriority_send
    (ordered : Ordered state.messages)
    (msg : Message)
    (s32Prio : UInt32)
    (accepts : Bool)
    (prio : UInt32) :
    ofPriority prio (send state msg s32Prio accepts).1.messages =
      ofPriority prio state.messages ++
        ofPriority prio (state.puts msg s32Prio accepts) := by
  rw [State.puts]
  obtain ⟨code, failed, sent⟩ | ⟨_, kernel, queued, sent⟩ :=
    send_cases state msg s32Prio accepts
  · rw [sent, if_neg failed]
    exact (List.append_nil _).symm
  · rw [sent, if_pos rfl]
    change
      ofPriority prio (kernel.messagesAt state.msgQueueFd) =
        ofPriority prio state.messages ++ ofPriority prio [(s32Prio, msg)]
    rw [Kernel.messagesAt_of_mqSend queued]
    exact ordered.ofPriority_insert prio

/-- A send keeps the order of receipt. -/
theorem ordered_send
    (ordered : Ordered state.messages)
    (msg : Message)
    (s32Prio : UInt32)
    (accepts : Bool) :
    Ordered (send state msg s32Prio accepts).1.messages := by
  obtain ⟨_, _, sent⟩ | ⟨_, kernel, queued, sent⟩ :=
    send_cases state msg s32Prio accepts
  · rw [sent]
    exact ordered
  · rw [sent]
    change Ordered (kernel.messagesAt state.msgQueueFd)
    rw [Kernel.messagesAt_of_mqSend queued]
    exact ordered.insertByPriority

/-- Handing over a message leaves the queue as the send does. -/
theorem messages_handOver
    (sender : State → Message → State × Int32)
    (msgId : UInt64)
    (carries : Bool) :
    (handOver sender state msgId carries).messages =
      (sender (state.issue carries)
        ⟨msgId, state.newPayload carries⟩).1.messages := by
  simp only [handOver]
  split <;> rfl

/--
The queue stays in the order of receipt, and of each priority it has what was
there and came in, without what went out.
-/
def Balanced
    (state next : State)
    (out come : List (UInt32 × Message)) :
    Prop :=
  Ordered next.messages ∧
    ∀ prio,
      ofPriority prio out ++ ofPriority prio next.messages =
        ofPriority prio state.messages ++ ofPriority prio come

/-- A step that leaves the queue alone. -/
theorem Balanced.same
    (ordered : Ordered state.messages)
    (same : next.messages = state.messages) :
    Balanced state next [] [] := by
  refine ⟨same ▸ ordered, ?_⟩
  intro prio
  rw [same]
  exact (List.append_nil _).symm

/-- A step that takes the first message. -/
theorem Balanced.take
    (ordered : Ordered state.messages)
    {entry : UInt32 × Message}
    (split : state.messages = entry :: next.messages) :
    Balanced state next [entry] [] := by
  rw [split] at ordered
  refine ⟨(List.pairwise_cons.mp ordered).2, ?_⟩
  intro prio
  rw [split]
  simp only [ofPriority, ← List.filter_append, List.singleton_append,
    List.append_nil]

/-- A step that drops the messages. -/
theorem Balanced.drop (emptied : next.messages = []) :
    Balanced state next state.messages [] := by
  refine ⟨emptied ▸ List.Pairwise.nil, ?_⟩
  intro prio
  rw [emptied]

/-- A step that sends a message. -/
theorem Balanced.put
    (ordered : Ordered state.messages)
    (sender : State)
    (msg : Message)
    (s32Prio : UInt32)
    (accepts : Bool)
    (before : sender.messages = state.messages)
    (after :
      next.messages = (send sender msg s32Prio accepts).1.messages) :
    Balanced state next [] (sender.puts msg s32Prio accepts) := by
  rw [← before] at ordered
  refine ⟨after ▸ ordered_send ordered msg s32Prio accepts, ?_⟩
  intro prio
  rw [after, ← before, ofPriority_send ordered]
  rfl

/-- What an answered receive does to the queue. -/
theorem messages_receive
    (fd : Int32)
    (isFd : state.msgQueueFd = fd)
    {taken : Option (Message × Kernel Nat Message)}
    (received : state.kernel.mqReceive fd true = taken) :
    (taken = none ∧ state.messages = []) ∨
      ∃ prio msg kernel,
        taken = some (msg, kernel) ∧
          state.messages = (prio, msg) :: kernel.messagesAt fd := by
  subst isFd
  cases taken with
  | none =>
      exact .inl ⟨rfl, Kernel.mqReceive_eq_none_iff.mp received⟩
  | some result =>
      obtain ⟨msg, kernel⟩ := result
      obtain ⟨prio, split⟩ := Kernel.messagesAt_of_mqReceive received
      exact .inr ⟨prio, msg, kernel, rfl, split⟩

/-- What a step of the owner does to the queue. -/
theorem balanced_ownerStep
    {accepts : Bool}
    (ordered : Ordered state.messages)
    (stepped : ownerStep? state accepts = some next) :
    Balanced state next
      ((state.leaving (.owner accepts)).map Prod.snd)
      (state.entering (.owner accepts)) := by
  simp only [State.leaving, State.entering]
  rw [ownerStep?] at stepped
  cases stands : state.owner <;> simp only [stands] at stepped ⊢
  case idle | dead =>
    cases stepped
  case sendStop destroys =>
    cases stepped
    exact .put ordered state _ _ accepts rfl rfl
  case testJoinable destroys =>
    split at stepped <;> cases stepped <;> exact .same ordered rfl
  case setFlag destroys =>
    cases stepped
    exact .same ordered rfl
  case join destroys =>
    rw [Option.ite_none_right_eq_some, Option.some.injEq] at stepped
    obtain ⟨_, rfl⟩ := stepped
    exact .same ordered rfl
  case clear =>
    obtain ⟨noMessage, empty⟩ | ⟨prio, msg, kernel, received, split⟩ :=
      messages_receive _ rfl
        (Eq.refl (state.kernel.mqReceive state.msgQueueFd true))
    · rw [noMessage] at stepped
      cases stepped
      rw [empty]
      exact .same ordered rfl
    · rw [received] at stepped
      cases stepped
      rw [split]
      exact .take ordered split
  case close =>
    have dropped :
        (state.messages.map (Exit.close, ·)).map Prod.snd =
          state.messages := by
      simp only [List.map_map, Function.comp_def, List.map_id']
    rw [dropped]
    cases closes : state.kernel.mqClose state.msgQueueFd true with
    | none =>
        rw [closes] at stepped
        cases stepped
        have empty : state.messages = [] :=
          Kernel.messagesAt_of_closed
            (Kernel.mqClose_eq_none_iff.mp closes)
        exact .drop empty
    | some kernel =>
        rw [closes] at stepped
        cases stepped
        obtain ⟨_, _, rfl⟩ := Kernel.mqClose_eq_some_iff.mp closes
        exact .drop
          (Kernel.messagesAt_of_closed (Function.update_self ..))

/-- What a step of the worker does to the queue. -/
theorem balanced_workerStep
    {answer : Select}
    (ordered : Ordered state.messages)
    (stepped : workerStep? state answer = some next) :
    Balanced state next
      ((state.leaving (.worker answer)).map Prod.snd)
      (state.entering (.worker answer)) := by
  simp only [State.leaving, State.entering]
  unfold workerStep? at stepped
  cases stands : state.worker <;> simp only [stands] at stepped ⊢
  case notStarted | finished =>
    cases stepped
  case testFlag | receive | select =>
    split at stepped <;> cases stepped <;> exact .same ordered rfl
  case processMsg msg =>
    split at stepped <;> cases stepped <;> exact .same ordered rfl
  case sleep =>
    cases stepped
    exact .same ordered rfl
  case mqReceive | clear =>
    obtain ⟨noMessage, empty⟩ | ⟨prio, msg, kernel, received, split⟩ :=
      messages_receive _ rfl
        (Eq.refl (state.kernel.mqReceive state.msgQueueFd true))
    · rw [noMessage] at stepped
      cases stepped
      rw [empty]
      exact .same ordered rfl
    · rw [received] at stepped
      cases stepped
      rw [split]
      exact .take ordered split

/-- What a step does to the queue. -/
theorem balanced_step
    (ordered : Ordered state.messages)
    (stepped : opened.step? state action = some next) :
    Balanced state next ((state.leaving action).map Prod.snd)
      (state.entering action) := by
  simp only [opened, machine, Option.ite_none_right_eq_some] at stepped
  obtain ⟨admitted, stepped⟩ := stepped
  cases action with
  | init name maxmsg answer =>
      cases admitted
  | startThread =>
      simp only [step?, Option.ite_none_right_eq_some, Option.some.injEq,
        startThread] at stepped
      obtain ⟨_, rfl⟩ := stepped
      split
      · split <;> exact .same ordered rfl
      · exact .same ordered rfl
  | stopThread | destroy =>
      simp only [step?, Option.ite_none_right_eq_some,
        Option.some.injEq] at stepped
      obtain ⟨_, rfl⟩ := stepped
      exact .same ordered rfl
  | owner accepts =>
      exact balanced_ownerStep ordered stepped
  | worker answer =>
      exact balanced_workerStep ordered stepped
  | sendMsg msgId carries accepts =>
      simp only [step?, Option.ite_none_right_eq_some,
        Option.some.injEq] at stepped
      obtain ⟨_, rfl⟩ := stepped
      have after :=
        @messages_handOver state (sendMsg · · accepts) msgId carries
      rw [State.entering]
      by_cases isInitialized : state.initialized = true
      · have stillInitialized : (state.issue carries).initialized = true :=
          isInitialized
        rw [if_pos isInitialized]
        refine .put ordered (state.issue carries) _ _ accepts rfl ?_
        rw [after, sendMsg, if_pos stillInitialized]
      · have stillNot : ¬ (state.issue carries).initialized = true :=
          isInitialized
        rw [if_neg isInitialized]
        refine .same ordered ?_
        rw [after, sendMsg, if_neg stillNot]
        rfl
  | send msgId carries s32Prio accepts =>
      simp only [step?, Option.some.injEq] at stepped
      subst next
      exact .put ordered (state.issue carries) _ _ accepts rfl
        (messages_handOver _ msgId carries)

/-- A worker that rests holds no message. -/
theorem Worker.message_of_rests
    {worker : Worker}
    (rests : worker.rests = true) :
    worker.message = [] := by
  cases worker <;> first | rfl | cases rests

/-- The messages that a step takes for the loop. -/
def State.looping (state : State) (action : Action) : List Message :=
  ((state.leaving action).filter fun entry =>
    decide (entry.1 = Exit.loop)).map fun entry => entry.2.2

/-- What the owner takes out is not for the loop. -/
theorem looping_owner (state : State) (accepts : Bool) :
    state.looping (.owner accepts) = [] := by
  simp only [State.looping, State.leaving]
  split
  · cases state.messages.head? <;> rfl
  · simp [List.filter_map]
  · rfl

/-- What a step of the worker does to its hands. -/
theorem hand_workerStep
    {answer : Select}
    (stepped : workerStep? state answer = some next) :
    state.worker.message ++ next.worker.message =
      state.worker.message ++ state.looping (.worker answer) := by
  simp only [State.looping, State.leaving]
  unfold workerStep? at stepped
  cases stands : state.worker <;> simp only [stands] at stepped ⊢
  case notStarted | finished =>
    cases stepped
  case testFlag | receive | select =>
    split at stepped <;> cases stepped <;> rfl
  case processMsg msg =>
    split at stepped <;> cases stepped <;> rfl
  case sleep =>
    cases stepped
    rfl
  case mqReceive =>
    obtain ⟨noMessage, empty⟩ | ⟨prio, msg, kernel, received, split⟩ :=
      messages_receive _ rfl
        (Eq.refl (state.kernel.mqReceive state.msgQueueFd true))
    · rw [noMessage] at stepped
      cases stepped
      rw [empty]
      rfl
    · rw [received] at stepped
      cases stepped
      rw [split]
      rfl
  case clear =>
    obtain ⟨noMessage, empty⟩ | ⟨prio, msg, kernel, received, split⟩ :=
      messages_receive _ rfl
        (Eq.refl (state.kernel.mqReceive state.msgQueueFd true))
    · rw [noMessage] at stepped
      cases stepped
      rw [empty]
      rfl
    · rw [received] at stepped
      cases stepped
      rw [split]
      rfl

/-- What a step does to the hands of the worker. -/
theorem hand_step
    (placed : Placed state)
    (stepped : opened.step? state action = some next) :
    state.handling action ++ next.worker.message =
      state.worker.message ++ state.looping action := by
  simp only [opened, machine, Option.ite_none_right_eq_some] at stepped
  obtain ⟨admitted, stepped⟩ := stepped
  have frame :
      state.looping action = [] →
      state.handling action = [] →
      next.worker.message = state.worker.message →
      state.handling action ++ next.worker.message =
        state.worker.message ++ state.looping action := by
    intro noLoop noHandling same
    rw [noLoop, noHandling, same]
    exact (List.append_nil _).symm
  cases action with
  | init name maxmsg answer =>
      cases admitted
  | startThread =>
      simp only [step?, Option.ite_none_right_eq_some, Option.some.injEq,
        startThread] at stepped
      obtain ⟨_, rfl⟩ := stepped
      apply frame rfl rfl
      split
      · split
        · rfl
        · next unjoinable =>
            have rests := placed.joined (Bool.eq_false_iff.mpr unjoinable)
            exact (Worker.message_of_rests rests).symm
      · rfl
  | stopThread | destroy =>
      simp only [step?, Option.ite_none_right_eq_some,
        Option.some.injEq] at stepped
      obtain ⟨_, rfl⟩ := stepped
      exact frame rfl rfl rfl
  | owner accepts =>
      apply frame (looping_owner state accepts) rfl
      cases ownerStep_cases stepped <;> rfl
  | worker answer =>
      exact hand_workerStep stepped
  | sendMsg msgId carries accepts =>
      simp only [step?, Option.ite_none_right_eq_some,
        Option.some.injEq] at stepped
      obtain ⟨_, isNext⟩ := stepped
      apply frame rfl rfl
      have sent := handOver_sendMsg state msgId carries accepts
      rw [isNext] at sent
      cases sent <;> rfl
  | send msgId carries s32Prio accepts =>
      simp only [step?, Option.some.injEq] at stepped
      apply frame rfl rfl
      have sent := handOver_send state msgId carries s32Prio accepts
      rw [stepped] at sent
      cases sent <;> rfl

end Steps

section Runs

variable {start final : State}
variable {actions : List Action}

/-- Behind `Init` the queue is empty, and nobody holds a message. -/
theorem empty_of_initial (initial : opened.Initial start) :
    start.messages = [] ∧ start.worker.message = [] := by
  obtain ⟨name, maxmsg, fd, _, rfl⟩ := initial
  refine ⟨?_, rfl⟩
  simp only [init, State.messages]
  exact Kernel.messagesAt_mqOpen

/--
In every run behind a successful `Init`, whoever sends and however often the
thread is stopped and started again: of each priority the messages that have
left the queue, in this order, and those that wait are the accepted ones in the
order in which they were accepted; the loop handles what it takes in the order
in which it takes it; and what waits is ordered by priority, so that the next
receive takes a message of the highest one.
-/
theorem handled_in_order
    (initial : opened.Initial start)
    (accepted : opened.run? start actions = some final) :
    (∀ prio,
      ofPriority prio
            ((opened.trace State.leaving start actions).map Prod.snd) ++
          ofPriority prio final.messages =
        ofPriority prio (opened.trace State.entering start actions)) ∧
      opened.trace State.handling start actions ++ final.worker.message =
        ((opened.trace State.leaving start actions).filter fun entry =>
          decide (entry.1 = Exit.loop)).map (fun entry => entry.2.2) ∧
      Ordered final.messages := by
  obtain ⟨noMessages, noHand⟩ := empty_of_initial initial
  have startOrdered : Ordered start.messages := by
    rw [noMessages]
    exact List.Pairwise.nil
  refine ⟨?_, ?_, ?_⟩
  · intro prio
    have stock :=
      @Machine.run?_stock _ _ _ opened (fun state => Ordered state.messages)
        (fun state => ofPriority prio state.messages)
        (fun state action => ofPriority prio (state.entering action))
        (fun state action =>
          ofPriority prio ((state.leaving action).map Prod.snd))
        (fun ordered stepped => (balanced_step ordered stepped).1)
        (fun ordered stepped => (balanced_step ordered stepped).2 prio)
        start final actions startOrdered accepted
    simp only [noMessages] at stock
    simp only [ofPriority, Machine.map_trace, Machine.filter_trace]
    exact stock
  · have stock :=
      @Machine.run?_stock _ _ _ opened Placed
        (fun state => state.worker.message)
        State.looping State.handling
        (fun placed stepped => placed.step stepped)
        (fun placed stepped => hand_step placed stepped)
        start final actions (placed_of_initial initial) accepted
    simp only [noHand, List.nil_append] at stock
    rw [stock, Machine.filter_trace, Machine.map_trace]
    rfl
  · exact
      Machine.run?_invariant
        (fun ordered stepped => (balanced_step ordered stepped).1)
        startOrdered accepted

/-- Three sends, of which the second one overtakes the first, and a receive. -/
def sampleTraffic : List Action :=
  [
    .startThread,
    .send 7 true 0 true, .send 9 true 1 true, .sendMsg 8 false true,
    .worker .readable, .worker .readable, .worker .readable,
    .worker .readable, .worker .readable,
    .worker .readable, .worker .readable, .worker .readable,
    .worker .readable
  ]

/-- The message of the higher priority is gone, the others keep their order. -/
theorem handled_in_order_overtaking :
    ∃ final,
      opened.run? (init threadWithMsgQueue "/queue" 10 (some 3)).1
          sampleTraffic =
        some final ∧
      final.worker.message = [⟨7, some 0⟩] ∧
      ofPriority 0
            ((opened.trace State.leaving
              (init threadWithMsgQueue "/queue" 10 (some 3)).1
              sampleTraffic).map Prod.snd) ++
          ofPriority 0 final.messages =
        [(0, ⟨7, some 0⟩), (0, ⟨8, none⟩)] := by
  have initial :
      opened.Initial (init threadWithMsgQueue "/queue" 10 (some 3)).1 :=
    ⟨"/queue", 10, 3, by decide, rfl⟩
  have accepted :
      opened.run? (init threadWithMsgQueue "/queue" 10 (some 3)).1
          sampleTraffic =
        some _ := rfl
  refine ⟨_, accepted, rfl, ?_⟩
  rw [(handled_in_order initial accepted).1 0]
  decide

end Runs

end WkcRuntime.MessageThread
