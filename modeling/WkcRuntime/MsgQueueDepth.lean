import WkcRuntime.MsgQueueTable

namespace WkcRuntime.MsgQueueDepth

open Mesg MessageQueue MsgQueue

/-!
# The high-water mark of a queue object

Any number of threads send while one thread calls `MsgQueue::Receive`.  Each of
`mq_send`, `mq_receive` and `mq_getattr` is one step.  `Receive` learns the
depth of the queue after the fact, as what `mq_getattr` reports plus the message
that it took itself, so that a message sent between the two calls counts as if
it had been there all along.  The mark is right exactly as long as the queue is
not full when it is asked.
-/

/-- Where a thread stands inside `Send`. -/
inductive Sender where
  | outside
  | free (pclsMsg : MesgT)
  | count (fd : Int32)
  deriving DecidableEq, Repr

/--
Where the receiver stands inside `Receive`.  Before `mq_getattr` it has a
message, and `depth` is how many there were when it took it.
-/
inductive Receiver where
  | idle
  | select (pclsMsg : MesgT)
  | mqReceive (pclsMsg : MesgT)
  | mqGetattr (msg : MesgT) (depth : Nat)
  deriving DecidableEq, Repr

/-- How a `Receive` returned, and the depth that it found if it succeeded. -/
structure Return where
  msg : MesgT
  rc : Int32
  depth : Nat
  deriving DecidableEq, Repr

/-- The process, its threads and the returns of the receiver, newest first. -/
structure State (Tid Object Queue Obj : Type) where
  process : Process Object Queue Obj
  sender : Tid → Sender
  receiver : Receiver
  returned : List Return

/-- The next step of a sender or of the receiver. -/
inductive Action (Tid : Type) where
  | mqSend
      (thread : Tid)
      (fd : Int32)
      (pclsMsg : MesgT)
      (s32Prio : UInt32)
      (accepts : Bool)
  | sender (thread : Tid)
  | receive (pclsMsg : MesgT) (isPolling : Bool)
  | receiver (answers : Answers)

section Steps

variable {Tid Object Queue Obj : Type}
variable [DecidableEq Tid] [DecidableEq Object] [DecidableEq Queue]

namespace State

omit [DecidableEq Object] [DecidableEq Queue] in
/-- A sender goes on. -/
def setSender
    (state : State Tid Object Queue Obj)
    (thread : Tid)
    (sender : Sender) :
    State Tid Object Queue Obj :=
  { state with sender := Function.update state.sender thread sender }

omit [DecidableEq Tid] [DecidableEq Object] [DecidableEq Queue] in
/-- `Receive` returns. -/
def finish
    (state : State Tid Object Queue Obj)
    (result : Return) :
    State Tid Object Queue Obj :=
  { state with
    receiver := .idle
    returned := result :: state.returned }

omit [DecidableEq Tid] [DecidableEq Object] [DecidableEq Queue] in
/-- The messages of one queue. -/
def messages
    (state : State Tid Object Queue Obj)
    (queue : Queue) :
    List (UInt32 × MesgT) :=
  (state.process.kernel.queue queue).messages

omit [DecidableEq Tid] [DecidableEq Object] [DecidableEq Queue] in
/-- `m_maxMsgInQueue` of an object. -/
def mark
    (state : State Tid Object Queue Obj)
    (owner : Object) :
    Int64 :=
  (state.process.object owner).maxMsgInQueue

end State

omit [DecidableEq Object] in
/-- `Send` up to and including its `mq_send`. -/
def mqSend
    (state : State Tid Object Queue Obj)
    (thread : Tid)
    (fd : Int32)
    (pclsMsg : MesgT)
    (s32Prio : UInt32)
    (accepts : Bool) :
    State Tid Object Queue Obj :=
  if fd ≤ 0 then
    state.setSender thread (.free pclsMsg)
  else
    match state.process.kernel.mqSend fd pclsMsg s32Prio accepts with
    | none =>
        state.setSender thread (.free pclsMsg)
    | some kernel =>
        { state with
          process := { state.process with kernel }
        }.setSender thread (.count fd)

omit [DecidableEq Queue] in
/-- The rest of `Send`. -/
def senderStep?
    (state : State Tid Object Queue Obj)
    (thread : Tid) :
    Option (State Tid Object Queue Obj) :=
  match state.sender thread with
  | .outside =>
      none
  | .free pclsMsg =>
      some ({ state with
        process := (freeIn state.process pclsMsg).1
      }.setSender thread .outside)
  | .count fd =>
      some ({ state with
        process := countSent state.process fd
      }.setSender thread .outside)

omit [DecidableEq Tid] [DecidableEq Queue] in
/-- `Receive` up to its first call of the kernel. -/
def receive
    (owner : Object)
    (state : State Tid Object Queue Obj)
    (pclsMsg : MesgT)
    (isPolling : Bool) :
    State Tid Object Queue Obj :=
  let this := state.process.object owner
  if this.msgQueueFd ≤ 0 then
    state.finish
      { msg := pclsMsg
        rc := errMsgQueueSendHandleIsNull
        depth := 0 }
  else
    { state with
      process :=
        { state.process with
          object := Function.update state.process.object owner
            { this with msgQueueNotInUse := false } }
      receiver :=
        if isPolling then .select pclsMsg else .mqReceive pclsMsg }

/-- What `Receive` notes about a message before it asks for the depth. -/
def noteTaken
    (process : Process Object Queue Obj)
    (owner : Object)
    (msg : MesgT) :
    Process Object Queue Obj :=
  let this := process.object owner
  { process with
    gReceiveMsgCnt := process.gReceiveMsgCnt + 1
    object := Function.update process.object owner
      { this with
        lastMsgMsgId := msg.ulMsgId
        receiveMsgCnt := this.receiveMsgCnt + 1 } }

/-- `CurMsgsInQueue() + 1` and the new mark. -/
def noteDepth
    (process : Process Object Queue Obj)
    (owner : Object)
    (getattr : Bool) :
    Process Object Queue Obj :=
  let this := process.object owner
  let curmsgs := curMsgsInQueue process this.msgQueueFd getattr + 1
  { process with
    object := Function.update process.object owner
      { this with
        maxMsgInQueue :=
          if curmsgs > this.maxMsgInQueue then
            curmsgs
          else
            this.maxMsgInQueue } }

/-- The next call of the kernel inside `Receive` and what follows it. -/
def receiverStep?
    (owner : Object)
    (state : State Tid Object Queue Obj)
    (answers : Answers) :
    Option (State Tid Object Queue Obj) :=
  let fd := (state.process.object owner).msgQueueFd
  match state.receiver with
  | .idle =>
      none
  | .select pclsMsg =>
      match answers.select with
      | .failed =>
          some (state.finish
            { msg := pclsMsg
              rc := errMsgQueueSelectFailed
              depth := 0 })
      | .notOurQueue =>
          some (state.finish
            { msg := pclsMsg
              rc := errMsgQueueSelectButNotOurQueue
              depth := 0 })
      | .readable =>
          some { state with receiver := .mqReceive pclsMsg }
  | .mqReceive pclsMsg =>
      match state.process.kernel.mqReceive fd answers.receive with
      | none =>
          some (state.finish
            { msg := pclsMsg
              rc := errMsgQueueReceiveFailed
              depth := 0 })
      | some (msg, kernel) =>
          some { state with
            process := noteTaken { state.process with kernel } owner msg
            receiver := .mqGetattr msg
              (state.process.kernel.messagesAt fd).length }
  | .mqGetattr msg depth =>
      some ({ state with
        process := noteDepth state.process owner answers.getattr
      }.finish { msg, rc := 0, depth })

/-- One step of one thread. -/
def step?
    (owner : Object)
    (state : State Tid Object Queue Obj) :
    Action Tid → Option (State Tid Object Queue Obj)
  | .mqSend thread fd pclsMsg s32Prio accepts =>
      match state.sender thread with
      | .outside =>
          some (mqSend state thread fd pclsMsg s32Prio accepts)
      | _ =>
          none
  | .sender thread =>
      senderStep? state thread
  | .receive pclsMsg isPolling =>
      match state.receiver with
      | .idle => some (receive owner state pclsMsg isPolling)
      | _ => none
  | .receiver answers =>
      receiverStep? owner state answers

/-- `Open` has just given an object a new queue. -/
structure Opened
    (owner : Object)
    (queue : Queue)
    (maxmsg : Int64)
    (process : Process Object Queue Obj) :
    Prop where
  /-- `mq_open` refuses every other capacity. -/
  positive :
    0 < maxmsg
  descriptor :
    process.kernel.descriptor (process.object owner).msgQueueFd =
      some queue
  empty :
    process.kernel.queue queue =
      { maxmsg := maxmsg.toInt.toNat, messages := [] }
  mark :
    (process.object owner).maxMsgInQueue = 0

/-- Any threads that send and one that receives, after one `Open`. -/
def machine
    (owner : Object)
    (queue : Queue)
    (maxmsg : Int64) :
    Machine (State Tid Object Queue Obj) (Action Tid) where
  Initial := fun state =>
    Opened owner queue maxmsg state.process ∧
      state.sender = (fun _ => .outside) ∧
      state.receiver = .idle ∧
      state.returned = []
  step? := step? owner

end Steps

section Source

variable {Tid Object Queue Obj : Type}
variable [DecidableEq Tid] [DecidableEq Object] [DecidableEq Queue]

omit [DecidableEq Queue] in
/-- The two notes of `Receive` are its counting. -/
theorem noteDepth_noteTaken
    (process : Process Object Queue Obj)
    (owner : Object)
    (msg : MesgT)
    (getattr : Bool) :
    noteDepth (noteTaken process owner msg) owner getattr =
      countReceived process owner msg getattr := by
  simp [noteDepth, noteTaken, countReceived, curMsgsInQueue]

/-- A `Send` that nobody interrupts is `MsgQueue::Send`. -/
theorem send_uninterrupted
    (owner : Object)
    (queue : Queue)
    (maxmsg : Int64)
    (state : State Tid Object Queue Obj)
    (thread : Tid)
    (fd : Int32)
    (pclsMsg : MesgT)
    (s32Prio : UInt32)
    (accepts : Bool)
    (outside : state.sender thread = .outside) :
    ((machine owner queue maxmsg).run? state
        [.mqSend thread fd pclsMsg s32Prio accepts,
          .sender thread]).map State.process =
      some (MsgQueue.send state.process fd pclsMsg s32Prio accepts).1 := by
  simp only [Machine.run?, machine, step?, outside]
  by_cases noHandle : fd ≤ 0
  · simp [mqSend, MsgQueue.send, noHandle, senderStep?, State.setSender]
  · cases sent :
        state.process.kernel.mqSend fd pclsMsg s32Prio accepts with
    | none =>
        simp [mqSend, MsgQueue.send, noHandle, sent, senderStep?,
          State.setSender]
    | some kernel =>
        simp [mqSend, MsgQueue.send, noHandle, sent, senderStep?,
          State.setSender]

/-- From `mq_receive` on, `Receive` does what `receiveInto` does. -/
theorem receiveInto_uninterrupted
    (owner : Object)
    (queue : Queue)
    (maxmsg : Int64)
    (state : State Tid Object Queue Obj)
    (pclsMsg : MesgT)
    (answers : Answers)
    (fuel : Nat) :
    let returns :=
      (machine owner queue maxmsg).settle
        (fun later => later.receiver = .idle) (.receiver answers)
        (fuel + 2) { state with receiver := .mqReceive pclsMsg }
    let whole := receiveInto state.process owner pclsMsg answers
    returns.process = whole.1 ∧
      ∃ depth,
        returns.returned =
          ⟨whole.2.1, whole.2.2, depth⟩ :: state.returned := by
  cases received :
      state.process.kernel.mqReceive
        (state.process.object owner).msgQueueFd answers.receive with
  | none =>
      cases fuel <;>
        simp [Machine.settle, machine, step?, receiverStep?,
          State.finish, receiveInto, received]
  | some taken =>
      cases fuel <;>
        simp [Machine.settle, machine, step?, receiverStep?,
          State.finish, receiveInto, received, noteDepth_noteTaken]

/-- A `Receive` that nobody interrupts is `MsgQueue::Receive`. -/
theorem receive_uninterrupted
    (owner : Object)
    (queue : Queue)
    (maxmsg : Int64)
    (state : State Tid Object Queue Obj)
    (pclsMsg : MesgT)
    (isPolling : Bool)
    (answers : Answers) :
    let returns :=
      (machine owner queue maxmsg).settle
        (fun later => later.receiver = .idle) (.receiver answers) 3
        (receive owner state pclsMsg isPolling)
    let whole :=
      MsgQueue.receive state.process owner pclsMsg isPolling answers
    returns.process = whole.1 ∧
      ∃ depth,
        returns.returned =
          ⟨whole.2.1, whole.2.2, depth⟩ :: state.returned := by
  by_cases noHandle : (state.process.object owner).msgQueueFd ≤ 0
  · simp [receive, MsgQueue.receive, noHandle, State.finish,
      Machine.settle]
  · simp only [receive, MsgQueue.receive, noHandle, ↓reduceIte]
    cases isPolling with
    | false =>
        exact receiveInto_uninterrupted owner queue maxmsg
          { state with process := _ } pclsMsg answers 1
    | true =>
        cases selected : answers.select with
        | failed =>
            simp [Machine.settle, machine, step?, receiverStep?,
              State.finish, selected]
        | notOurQueue =>
            simp [Machine.settle, machine, step?, receiverStep?,
              State.finish, selected]
        | readable =>
            simp only [↓reduceIte]
            rw [Machine.settle]
            simp only [reduceCtorEq, ↓reduceIte]
            simp only [machine, step?, receiverStep?, selected]
            exact receiveInto_uninterrupted owner queue maxmsg
              { state with process := _ } pclsMsg answers 0

omit [DecidableEq Queue] in
/-- What both `Open` overloads leave behind when they succeed. -/
theorem opened_of_openQueue
    {resetsLastMsgMsgId : Bool}
    {registry next : Registry Object Obj}
    {this : Object}
    {name : String}
    {maxmsg : Int64}
    {oCreat : Bool}
    {answer : Option Int32}
    (positive : 0 < maxmsg)
    (succeeded :
      openQueue resetsLastMsgMsgId registry this name maxmsg oCreat
        answer = (next, 0)) :
    Opened this registry.created maxmsg next.process := by
  have failed : errMsgQueueOpenFailed ≠ 0 := by decide
  unfold openQueue at succeeded
  cases answered : mqOpenAnswer name oCreat answer with
  | none =>
      simp only [answered, Prod.mk.injEq] at succeeded
      exact absurd succeeded.2 failed
  | some fd =>
      simp only [answered, Prod.mk.injEq, and_true] at succeeded
      subst next
      refine ⟨positive, ?_, ?_, ?_⟩ <;>
        simp [Registry.withKernel, Registry.addMsgQueue,
          Registry.setObject, Kernel.mqOpen]

omit [DecidableEq Queue] in
/-- A successful `Open(name, flag, mode, maxmsg)` opens a new queue. -/
theorem opened_of_openMaxmsg
    {registry next : Registry Object Obj}
    {this : Object}
    {name : Option String}
    {maxmsg : Int64}
    {oCreat : Bool}
    {answer : Option Int32}
    (positive : 0 < maxmsg)
    (succeeded :
      openMaxmsg registry this name maxmsg oCreat answer = (next, 0)) :
    Opened this registry.created maxmsg next.process := by
  cases name with
  | none =>
      cases succeeded
  | some name =>
      exact opened_of_openQueue positive succeeded

/-- A successful `Open(name, flag, mode, pattr)` opens a new queue. -/
theorem opened_of_openAttr
    {registry next : Registry Object Obj}
    {this : Object}
    {name : Option String}
    {maxmsg : Int64}
    {oCreat : Bool}
    {answer : Option Int32}
    (positive : 0 < maxmsg)
    (succeeded :
      openAttr registry this name (some maxmsg) oCreat answer =
        (next, 0)) :
    Opened this registry.created maxmsg next.process := by
  cases name with
  | none =>
      cases succeeded
  | some name =>
      exact opened_of_openQueue positive succeeded

end Source

section Moves

variable {Tid Object Queue Obj : Type}
variable [DecidableEq Tid] [DecidableEq Object] [DecidableEq Queue]

/-- Everything that one step can do. -/
inductive Moves
    (owner : Object)
    (state : State Tid Object Queue Obj) :
    Action Tid → State Tid Object Queue Obj → Prop where
  | sends
      {thread : Tid}
      {fd : Int32}
      {pclsMsg : MesgT}
      {s32Prio : UInt32}
      {accepts : Bool} :
      Moves owner state
        (.mqSend thread fd pclsMsg s32Prio accepts)
        (mqSend state thread fd pclsMsg s32Prio accepts)
  | frees
      {thread : Tid}
      {pclsMsg : MesgT} :
      Moves owner state (.sender thread)
        ({ state with
          process := (freeIn state.process pclsMsg).1
        }.setSender thread .outside)
  | counts
      {thread : Tid}
      {fd : Int32} :
      Moves owner state (.sender thread)
        ({ state with
          process := countSent state.process fd
        }.setSender thread .outside)
  | enters
      {pclsMsg : MesgT}
      {isPolling : Bool} :
      Moves owner state (.receive pclsMsg isPolling)
        (receive owner state pclsMsg isPolling)
  | fails
      {answers : Answers}
      {failure : Return}
      (failed : failure.rc ≠ 0)
      (waits :
        ∀ msg depth, state.receiver ≠ .mqGetattr msg depth) :
      Moves owner state (.receiver answers) (state.finish failure)
  | selects
      {answers : Answers}
      {pclsMsg : MesgT}
      (selecting : state.receiver = .select pclsMsg) :
      Moves owner state (.receiver answers)
        { state with receiver := .mqReceive pclsMsg }
  | takes
      {answers : Answers}
      {pclsMsg msg : MesgT}
      {kernel : Kernel Queue MesgT}
      (receiving : state.receiver = .mqReceive pclsMsg)
      (received :
        state.process.kernel.mqReceive
            (state.process.object owner).msgQueueFd
            answers.receive =
          some (msg, kernel)) :
      Moves owner state (.receiver answers)
        { state with
          process := noteTaken { state.process with kernel } owner msg
          receiver := .mqGetattr msg
            (state.process.kernel.messagesAt
              (state.process.object owner).msgQueueFd).length }
  | notes
      {answers : Answers}
      {msg : MesgT}
      {depth : Nat}
      (asks : state.receiver = .mqGetattr msg depth) :
      Moves owner state (.receiver answers)
        ({ state with
          process := noteDepth state.process owner answers.getattr
        }.finish { msg, rc := 0, depth })

/-- A call of the kernel inside `Receive` is one of the moves. -/
theorem moves_of_receiverStep?
    {owner : Object}
    {state next : State Tid Object Queue Obj}
    {answers : Answers}
    (stepped : receiverStep? owner state answers = some next) :
    Moves owner state (.receiver answers) next := by
  have selectFailed : errMsgQueueSelectFailed ≠ 0 := by decide
  have notOurQueue : errMsgQueueSelectButNotOurQueue ≠ 0 := by decide
  have receiveFailed : errMsgQueueReceiveFailed ≠ 0 := by decide
  unfold receiverStep? at stepped
  cases standing : state.receiver with
  | idle =>
      simp [standing] at stepped
  | select pclsMsg =>
      have waits :
          ∀ msg depth, state.receiver ≠ .mqGetattr msg depth := by
        simp [standing]
      simp only [standing] at stepped
      cases selected : answers.select with
      | failed =>
          simp only [selected, Option.some.injEq] at stepped
          subst next
          exact .fails selectFailed waits
      | notOurQueue =>
          simp only [selected, Option.some.injEq] at stepped
          subst next
          exact .fails notOurQueue waits
      | readable =>
          simp only [selected, Option.some.injEq] at stepped
          subst next
          exact .selects standing
  | mqReceive pclsMsg =>
      simp only [standing] at stepped
      cases received :
          state.process.kernel.mqReceive
            (state.process.object owner).msgQueueFd
            answers.receive with
      | none =>
          simp only [received, Option.some.injEq] at stepped
          subst next
          exact .fails receiveFailed (by simp [standing])
      | some taken =>
          simp only [received, Option.some.injEq] at stepped
          subst next
          exact .takes standing received
  | mqGetattr msg depth =>
      simp only [standing, Option.some.injEq] at stepped
      subst next
      exact .notes standing

/-- Every step is one of the moves. -/
theorem moves_of_step?
    {owner : Object}
    {queue : Queue}
    {maxmsg : Int64}
    {state next : State Tid Object Queue Obj}
    {action : Action Tid}
    (stepped :
      (machine owner queue maxmsg).step? state action = some next) :
    Moves owner state action next := by
  cases action with
  | mqSend thread fd pclsMsg s32Prio accepts =>
      simp only [machine, step?] at stepped
      cases standing : state.sender thread with
      | outside =>
          simp only [standing, Option.some.injEq] at stepped
          subst next
          exact .sends
      | free pclsMsg =>
          simp [standing] at stepped
      | count fd =>
          simp [standing] at stepped
  | sender thread =>
      simp only [machine, step?, senderStep?] at stepped
      cases standing : state.sender thread with
      | outside =>
          simp [standing] at stepped
      | free pclsMsg =>
          simp only [standing, Option.some.injEq] at stepped
          subst next
          exact .frees
      | count fd =>
          simp only [standing, Option.some.injEq] at stepped
          subst next
          exact .counts
  | receive pclsMsg isPolling =>
      simp only [machine, step?] at stepped
      cases standing : state.receiver with
      | idle =>
          simp only [standing, Option.some.injEq] at stepped
          subst next
          exact .enters
      | select pclsMsg =>
          simp [standing] at stepped
      | mqReceive pclsMsg =>
          simp [standing] at stepped
      | mqGetattr msg depth =>
          simp [standing] at stepped
  | receiver answers =>
      exact moves_of_receiverStep? stepped

end Moves

section HighWater

variable {Tid Object Queue Obj : Type}

/--
The mark is no higher than the capacity, and no lower than what any successful
`Receive` found.
-/
structure Sound
    (owner : Object)
    (maxmsg : Int64)
    (state : State Tid Object Queue Obj) :
    Prop where
  bounded :
    state.mark owner ≤ maxmsg
  covers :
    ∀ result ∈ state.returned,
      result.rc = 0 →
      (result.depth : Int) ≤ (state.mark owner).toInt

/--
`mq_getattr` is asked while the queue has room; if it fails, the mark is already
as high as the depth that was found.
-/
def AsksInTime
    (owner : Object)
    (queue : Queue)
    (state : State Tid Object Queue Obj)
    (answers : Answers) :
    Receiver → Prop
  | .mqGetattr _ depth =>
      if answers.getattr = true then
        (state.messages queue).length <
          (state.process.kernel.queue queue).maxmsg
      else
        (depth : Int) ≤ (state.mark owner).toInt
  | _ =>
      True

instance
    (owner : Object)
    (queue : Queue)
    (state : State Tid Object Queue Obj)
    (answers : Answers) :
    ∀ receiver,
      Decidable (AsksInTime owner queue state answers receiver)
  | .mqGetattr _ depth =>
      inferInstanceAs
        (Decidable
          (if answers.getattr = true then
            (state.messages queue).length <
              (state.process.kernel.queue queue).maxmsg
          else
            (depth : Int) ≤ (state.mark owner).toInt))
  | .idle => isTrue trivial
  | .select _ => isTrue trivial
  | .mqReceive _ => isTrue trivial

/-- A step that does not ask for the depth of a full queue. -/
def Careful
    (owner : Object)
    (queue : Queue)
    (state : State Tid Object Queue Obj) :
    Action Tid → Prop
  | .receiver answers =>
      AsksInTime owner queue state answers state.receiver
  | _ =>
      True

instance
    (owner : Object)
    (queue : Queue)
    (state : State Tid Object Queue Obj) :
    ∀ action, Decidable (Careful owner queue state action)
  | .receiver answers =>
      inferInstanceAs
        (Decidable
          (AsksInTime owner queue state answers state.receiver))
  | .mqSend _ _ _ _ _ => isTrue trivial
  | .sender _ => isTrue trivial
  | .receive _ _ => isTrue trivial

/-- What holds in every state, whether or not the mark is right. -/
structure Invariant
    (owner : Object)
    (queue : Queue)
    (maxmsg : Int64)
    (state : State Tid Object Queue Obj) :
    Prop where
  positive :
    0 < maxmsg
  descriptor :
    state.process.kernel.descriptor
        (state.process.object owner).msgQueueFd =
      some queue
  capacity :
    (state.process.kernel.queue queue).maxmsg = maxmsg.toInt.toNat
  fits :
    state.process.kernel.Fits queue
  nonneg :
    0 ≤ state.mark owner
  found :
    ∀ {msg depth},
      state.receiver = .mqGetattr msg depth →
      depth ≤ (state.messages queue).length + 1 ∧
        depth ≤ maxmsg.toInt.toNat

variable [DecidableEq Tid] [DecidableEq Object] [DecidableEq Queue]

omit [DecidableEq Tid] [DecidableEq Object] [DecidableEq Queue] in
/-- A step that leaves the kernel and the handle alone. -/
theorem Invariant.of_sameKernel
    {owner : Object}
    {queue : Queue}
    {maxmsg : Int64}
    {state next : State Tid Object Queue Obj}
    (invariant : Invariant owner queue maxmsg state)
    (kernel : next.process.kernel = state.process.kernel)
    (fd :
      (next.process.object owner).msgQueueFd =
        (state.process.object owner).msgQueueFd)
    (nonneg : 0 ≤ next.mark owner)
    (found :
      ∀ {msg depth},
        next.receiver = .mqGetattr msg depth →
        state.receiver = .mqGetattr msg depth) :
    Invariant owner queue maxmsg next where
  positive := invariant.positive
  descriptor := by
    rw [kernel, fd]
    exact invariant.descriptor
  capacity := by
    rw [kernel]
    exact invariant.capacity
  fits := by
    rw [kernel]
    exact invariant.fits
  nonneg := nonneg
  found := by
    intro msg depth asks
    unfold State.messages
    rw [kernel]
    exact invariant.found (found asks)

omit [DecidableEq Queue] in
/-- Counting a sent message touches no mark. -/
theorem maxMsgInQueue_countSent
    (process : Process Object Queue Obj)
    (fd : Int32)
    (owner : Object) :
    ((countSent process fd).object owner).maxMsgInQueue =
      (process.object owner).maxMsgInQueue := by
  unfold countSent
  split
  · rfl
  · next other _ =>
      by_cases same : owner = other
      · subst other
        simp
      · simp [same]

omit [DecidableEq Object] in
/-- `mq_send` only adds to a queue that has room. -/
theorem invariant_mqSend
    {owner : Object}
    {queue : Queue}
    {maxmsg : Int64}
    {state : State Tid Object Queue Obj}
    (invariant : Invariant owner queue maxmsg state)
    (thread : Tid)
    (fd : Int32)
    (pclsMsg : MesgT)
    (s32Prio : UInt32)
    (accepts : Bool) :
    Invariant owner queue maxmsg
      (mqSend state thread fd pclsMsg s32Prio accepts) := by
  unfold mqSend
  split
  · exact invariant.of_sameKernel rfl rfl invariant.nonneg id
  · split
    · exact invariant.of_sameKernel rfl rfl invariant.nonneg id
    · next kernel sent =>
        obtain ⟨fits, descriptor, capacity, grows⟩ :=
          invariant.fits.mqSend sent
        refine
          { positive := invariant.positive
            descriptor := ?_
            capacity := capacity.trans invariant.capacity
            fits := fits
            nonneg := invariant.nonneg
            found := ?_ }
        · exact (congrFun descriptor _).trans invariant.descriptor
        · intro msg depth asks
          obtain ⟨near, below⟩ := invariant.found asks
          exact ⟨Nat.le_trans near (Nat.succ_le_succ grows), below⟩

omit [DecidableEq Queue] in
/-- Counting a sent message touches no queue. -/
theorem invariant_counted
    {owner : Object}
    {queue : Queue}
    {maxmsg : Int64}
    {state : State Tid Object Queue Obj}
    (invariant : Invariant owner queue maxmsg state)
    (thread : Tid)
    (fd : Int32) :
    Invariant owner queue maxmsg
      ({ state with
        process := countSent state.process fd
      }.setSender thread .outside) := by
  refine invariant.of_sameKernel
    (countSent_kernel ..)
    ((sameNumbers_countSent ..).fd owner) ?_ id
  unfold State.mark
  simp only [State.setSender, maxMsgInQueue_countSent]
  exact invariant.nonneg

omit [DecidableEq Queue] [DecidableEq Tid] in
/-- The start of `Receive` asks the kernel nothing. -/
theorem invariant_receive
    {owner : Object}
    {queue : Queue}
    {maxmsg : Int64}
    {state : State Tid Object Queue Obj}
    (invariant : Invariant owner queue maxmsg state)
    (pclsMsg : MesgT)
    (isPolling : Bool) :
    Invariant owner queue maxmsg
      (receive owner state pclsMsg isPolling) := by
  have nonneg := invariant.nonneg
  by_cases noHandle : (state.process.object owner).msgQueueFd ≤ 0
  · simp only [receive, noHandle, ↓reduceIte]
    exact invariant.of_sameKernel rfl rfl nonneg nofun
  · simp only [receive, noHandle, ↓reduceIte]
    refine invariant.of_sameKernel rfl ?_ ?_ ?_
    · simp
    · simpa [State.mark] using nonneg
    · intro msg depth asks
      cases isPolling <;> cases asks

omit [DecidableEq Tid] in
/-- Taking a message finds a depth within the capacity. -/
theorem invariant_taken
    {owner : Object}
    {queue : Queue}
    {maxmsg : Int64}
    {state : State Tid Object Queue Obj}
    {answers : Answers}
    {msg : MesgT}
    {kernel : Kernel Queue MesgT}
    (invariant : Invariant owner queue maxmsg state)
    (received :
      state.process.kernel.mqReceive
          (state.process.object owner).msgQueueFd answers.receive =
        some (msg, kernel)) :
    Invariant owner queue maxmsg
      { state with
        process := noteTaken { state.process with kernel } owner msg
        receiver := .mqGetattr msg
          (state.process.kernel.messagesAt
            (state.process.object owner).msgQueueFd).length } := by
  obtain ⟨target, prio, rest, opened, stored, rfl⟩ :=
    Kernel.mqReceive_cases received
  obtain rfl :=
    Option.some.inj (opened.symm.trans invariant.descriptor)
  have fits := invariant.fits
  unfold Kernel.Fits at fits
  rw [stored, List.length_cons] at fits
  refine
    { positive := invariant.positive
      descriptor := ?_
      capacity := ?_
      fits := ?_
      nonneg := ?_
      found := ?_ }
  · simpa [noteTaken] using opened
  · simpa [noteTaken] using invariant.capacity
  · simp only [noteTaken, Kernel.Fits, Kernel.setMessages_messages,
      Kernel.setMessages_maxmsg, ↓reduceIte]
    omega
  · simpa [noteTaken, State.mark] using invariant.nonneg
  · intro message depth asks
    cases asks
    rw [Kernel.messagesAt_of_open opened, stored, List.length_cons]
    simp only [State.messages, noteTaken,
      Kernel.setMessages_messages, ↓reduceIte]
    rw [← invariant.capacity]
    exact ⟨Nat.le_refl _, fits⟩

omit [DecidableEq Queue] in
/-- The new mark is the larger one of the old mark and the depth. -/
theorem maxMsgInQueue_noteDepth
    (process : Process Object Queue Obj)
    (owner : Object)
    (getattr : Bool) :
    ((noteDepth process owner getattr).object owner).maxMsgInQueue.toInt =
      max (process.object owner).maxMsgInQueue.toInt
        (curMsgsInQueue process (process.object owner).msgQueueFd
          getattr + 1).toInt := by
  simp only [noteDepth, Function.update_self]
  split
  · next higher =>
      have higher := Int64.lt_iff_toInt_lt.mp higher
      omega
  · next notHigher =>
      have notHigher := mt Int64.lt_iff_toInt_lt.mpr notHigher
      omega

omit [DecidableEq Tid] [DecidableEq Queue] in
/-- Asking for the depth lowers no mark. -/
theorem invariant_noted
    {owner : Object}
    {queue : Queue}
    {maxmsg : Int64}
    {state : State Tid Object Queue Obj}
    (invariant : Invariant owner queue maxmsg state)
    (getattr : Bool)
    (result : Return) :
    Invariant owner queue maxmsg
      ({ state with
        process := noteDepth state.process owner getattr
      }.finish result) := by
  have nonneg := Int64.le_iff_toInt_le.mp invariant.nonneg
  refine invariant.of_sameKernel rfl ?_ ?_ nofun
  · simp [State.finish, noteDepth]
  · rw [Int64.le_iff_toInt_le]
    simp only [State.mark, State.finish, maxMsgInQueue_noteDepth]
    exact Int.le_trans nonneg (Int.le_max_left ..)

/-- Every step keeps the invariant. -/
theorem Invariant.step
    {owner : Object}
    {queue : Queue}
    {maxmsg : Int64}
    {state next : State Tid Object Queue Obj}
    {action : Action Tid}
    (invariant : Invariant owner queue maxmsg state)
    (stepped :
      (machine owner queue maxmsg).step? state action = some next) :
    Invariant owner queue maxmsg next := by
  have nonneg := invariant.nonneg
  cases moves_of_step? stepped with
  | sends => exact invariant_mqSend invariant ..
  | frees => exact invariant.of_sameKernel rfl rfl nonneg id
  | counts => exact invariant_counted invariant ..
  | enters => exact invariant_receive invariant ..
  | fails => exact invariant.of_sameKernel rfl rfl nonneg nofun
  | selects => exact invariant.of_sameKernel rfl rfl nonneg nofun
  | takes _ received => exact invariant_taken invariant received
  | notes => exact invariant_noted invariant ..

/-- A step that neither moves the mark nor ends a successful `Receive`. -/
structure Quiet
    (owner : Object)
    (queue : Queue)
    (state next : State Tid Object Queue Obj)
    (action : Action Tid) :
    Prop where
  mark :
    next.mark owner = state.mark owner
  returned :
    ∀ result ∈ next.returned,
      result.rc = 0 →
      result ∈ state.returned
  careful :
    Careful owner queue state action

omit [DecidableEq Tid] [DecidableEq Object] [DecidableEq Queue] in
/-- A failed `Receive` adds no successful return. -/
theorem mem_returned_of_failed
    {state : State Tid Object Queue Obj}
    {failure result : Return}
    (failed : failure.rc ≠ 0)
    (member : result ∈ (state.finish failure).returned)
    (succeeded : result.rc = 0) :
    result ∈ state.returned := by
  rcases List.mem_cons.mp member with rfl | older
  · exact absurd succeeded failed
  · exact older

omit [DecidableEq Tid] [DecidableEq Object] [DecidableEq Queue] in
/-- A receiver that is not about to ask for the depth is careful. -/
theorem careful_of_waits
    {owner : Object}
    {queue : Queue}
    {state : State Tid Object Queue Obj}
    {answers : Answers}
    (waits :
      ∀ msg depth, state.receiver ≠ .mqGetattr msg depth) :
    Careful owner queue state (.receiver answers) := by
  unfold Careful
  cases standing : state.receiver with
  | idle => trivial
  | select pclsMsg => trivial
  | mqReceive pclsMsg => trivial
  | mqGetattr msg depth => exact absurd standing (waits msg depth)

/-- Every step is quiet or asks for the depth. -/
theorem step?_cases
    {owner : Object}
    {queue : Queue}
    {maxmsg : Int64}
    {state next : State Tid Object Queue Obj}
    {action : Action Tid}
    (stepped :
      (machine owner queue maxmsg).step? state action = some next) :
    (∃ answers msg depth,
      action = .receiver answers ∧
        state.receiver = .mqGetattr msg depth ∧
        next =
          { state with
            process := noteDepth state.process owner answers.getattr
          }.finish { msg, rc := 0, depth }) ∨
      Quiet owner queue state next action := by
  have refused : errMsgQueueSendHandleIsNull ≠ 0 := by decide
  cases moves_of_step? stepped with
  | sends =>
      right
      unfold mqSend
      split
      · exact ⟨rfl, fun _ member _ => member, trivial⟩
      · split <;> exact ⟨rfl, fun _ member _ => member, trivial⟩
  | frees =>
      exact .inr ⟨rfl, fun _ member _ => member, trivial⟩
  | counts =>
      exact .inr ⟨maxMsgInQueue_countSent ..,
        fun _ member _ => member, trivial⟩
  | enters =>
      right
      by_cases noHandle :
          (state.process.object owner).msgQueueFd ≤ 0
      · simp only [receive, noHandle, ↓reduceIte]
        exact ⟨rfl, fun _ => mem_returned_of_failed refused, trivial⟩
      · simp only [receive, noHandle, ↓reduceIte]
        exact ⟨by simp [State.mark], fun _ member _ => member, trivial⟩
  | fails failed waits =>
      exact .inr ⟨rfl, fun _ => mem_returned_of_failed failed,
        careful_of_waits waits⟩
  | selects selecting =>
      exact .inr ⟨rfl, fun _ member _ => member,
        careful_of_waits (by simp [selecting])⟩
  | takes receiving received =>
      exact .inr ⟨by simp [State.mark, noteTaken],
        fun _ member _ => member,
        careful_of_waits (by simp [receiving])⟩
  | notes asks =>
      exact .inl ⟨_, _, _, rfl, asks, rfl⟩

omit [DecidableEq Tid] [DecidableEq Object] [DecidableEq Queue] in
/-- A quiet step keeps a sound mark sound. -/
theorem Sound.quiet
    {owner : Object}
    {queue : Queue}
    {maxmsg : Int64}
    {state next : State Tid Object Queue Obj}
    {action : Action Tid}
    (sound : Sound owner maxmsg state)
    (quiet : Quiet owner queue state next action) :
    Sound owner maxmsg next where
  bounded := by
    rw [quiet.mark]
    exact sound.bounded
  covers := by
    intro result member succeeded
    rw [quiet.mark]
    exact sound.covers result
      (quiet.returned result member succeeded) succeeded

omit [DecidableEq Tid] [DecidableEq Queue] in
/--
After `mq_getattr` the mark is sound if what was reported is within the capacity
and the larger one of report and old mark covers what was found.
-/
theorem sound_noted_iff
    {owner : Object}
    {maxmsg : Int64}
    {state : State Tid Object Queue Obj}
    {getattr : Bool}
    {msg : MesgT}
    {depth : Nat}
    {reported : Int}
    (sound : Sound owner maxmsg state)
    (reports :
      (curMsgsInQueue state.process
        (state.process.object owner).msgQueueFd getattr + 1).toInt =
        reported) :
    Sound owner maxmsg
        ({ state with
          process := noteDepth state.process owner getattr
        }.finish { msg, rc := 0, depth }) ↔
      reported ≤ maxmsg.toInt ∧
        (depth : Int) ≤ max (state.mark owner).toInt reported := by
  have mark :
      (State.mark
        ({ state with
          process := noteDepth state.process owner getattr
        }.finish { msg, rc := 0, depth }) owner).toInt =
        max (state.mark owner).toInt reported := by
    rw [← reports]
    exact maxMsgInQueue_noteDepth ..
  have bounded := Int64.le_iff_toInt_le.mp sound.bounded
  constructor
  · intro later
    have within := Int64.le_iff_toInt_le.mp later.bounded
    have covered := later.covers _ List.mem_cons_self rfl
    rw [mark] at within covered
    exact ⟨by omega, covered⟩
  · rintro ⟨within, covered⟩
    constructor
    · rw [Int64.le_iff_toInt_le, mark]
      omega
    · intro result member succeeded
      rw [mark]
      rcases List.mem_cons.mp member with rfl | older
      · exact covered
      · exact Int.le_trans (sound.covers result older succeeded)
          (Int.le_max_left ..)

omit [DecidableEq Tid] [DecidableEq Object] [DecidableEq Queue] in
/-- What an answered `mq_getattr` reports, plus one, if that is a number. -/
theorem reported_of_answered
    {owner : Object}
    {queue : Queue}
    {state : State Tid Object Queue Obj}
    (opened :
      state.process.kernel.descriptor
          (state.process.object owner).msgQueueFd =
        some queue)
    (small : (state.messages queue).length + 1 < 2 ^ 63) :
    (curMsgsInQueue state.process
        (state.process.object owner).msgQueueFd true + 1).toInt =
      (state.messages queue).length + 1 := by
  have one : (1 : Int64) = Int64.ofNat 1 := rfl
  simp only [curMsgsInQueue, Kernel.mqCurmsgs, opened, ↓reduceIte]
  rw [one, ← Int64.ofNat_add]
  exact Int64.toInt_ofNat_of_lt small

omit [DecidableEq Tid] [DecidableEq Object] [DecidableEq Queue] in
/-- A refused `mq_getattr` is reported as a negative depth. -/
theorem reported_of_refused
    (process : Process Object Queue Obj)
    (fd : Int32) :
    (curMsgsInQueue process fd false + 1).toInt = -1413 := by
  have refused :
      curMsgsInQueue process fd false = errMsgQueueGetnrFailed := by
    unfold curMsgsInQueue Kernel.mqCurmsgs
    cases process.kernel.descriptor fd <;> rfl
  rw [refused]
  decide

omit [DecidableEq Tid] [DecidableEq Queue] in
/-- The mark stays sound when the depth is asked in time. -/
theorem sound_of_asksInTime
    {owner : Object}
    {queue : Queue}
    {maxmsg : Int64}
    {state : State Tid Object Queue Obj}
    {answers : Answers}
    {msg : MesgT}
    {depth : Nat}
    (invariant : Invariant owner queue maxmsg state)
    (sound : Sound owner maxmsg state)
    (asks : state.receiver = .mqGetattr msg depth)
    (inTime : AsksInTime owner queue state answers state.receiver) :
    Sound owner maxmsg
      ({ state with
        process := noteDepth state.process owner answers.getattr
      }.finish { msg, rc := 0, depth }) := by
  have positive := Int64.lt_iff_toInt_lt.mp invariant.positive
  have limit := Int64.toInt_lt maxmsg
  have near := (invariant.found asks).1
  simp only [asks, AsksInTime, invariant.capacity] at inTime
  simp only [Int64.toInt_zero] at positive
  cases answered : answers.getattr with
  | false =>
      simp only [answered, Bool.false_eq_true, ↓reduceIte] at inTime
      rw [sound_noted_iff sound (reported_of_refused ..)]
      exact ⟨by omega, by omega⟩
  | true =>
      simp only [answered, ↓reduceIte] at inTime
      have small : (state.messages queue).length + 1 < 2 ^ 63 := by
        omega
      rw [sound_noted_iff sound
        (reported_of_answered invariant.descriptor small)]
      exact ⟨by omega, by omega⟩

omit [DecidableEq Tid] [DecidableEq Queue] in
/-- A depth that is not asked in time makes the mark wrong. -/
theorem asksInTime_of_sound
    {owner : Object}
    {queue : Queue}
    {maxmsg : Int64}
    {state : State Tid Object Queue Obj}
    {answers : Answers}
    {msg : MesgT}
    {depth : Nat}
    (invariant : Invariant owner queue maxmsg state)
    (sound : Sound owner maxmsg state)
    (countable : maxmsg < Int64.maxValue)
    (asks : state.receiver = .mqGetattr msg depth)
    (later :
      Sound owner maxmsg
        ({ state with
          process := noteDepth state.process owner answers.getattr
        }.finish { msg, rc := 0, depth })) :
    AsksInTime owner queue state answers state.receiver := by
  have positive := Int64.lt_iff_toInt_lt.mp invariant.positive
  have limit := Int64.lt_iff_toInt_lt.mp countable
  have nonneg := Int64.le_iff_toInt_le.mp invariant.nonneg
  have fits : (state.messages queue).length ≤ maxmsg.toInt.toNat :=
    invariant.capacity ▸ invariant.fits
  simp only [Int64.toInt_maxValue] at limit
  simp only [Int64.toInt_zero] at positive nonneg
  simp only [asks, AsksInTime, invariant.capacity]
  cases answered : answers.getattr with
  | false =>
      rw [answered,
        sound_noted_iff sound (reported_of_refused ..)] at later
      simp only [Bool.false_eq_true, ↓reduceIte]
      omega
  | true =>
      have small : (state.messages queue).length + 1 < 2 ^ 63 := by
        omega
      rw [answered,
        sound_noted_iff sound
          (reported_of_answered invariant.descriptor small)] at later
      simp only [↓reduceIte]
      omega

/-- A careful step keeps a sound mark sound. -/
theorem Sound.step
    {owner : Object}
    {queue : Queue}
    {maxmsg : Int64}
    {state next : State Tid Object Queue Obj}
    {action : Action Tid}
    (invariant : Invariant owner queue maxmsg state)
    (sound : Sound owner maxmsg state)
    (careful : Careful owner queue state action)
    (stepped :
      (machine owner queue maxmsg).step? state action = some next) :
    Sound owner maxmsg next := by
  rcases step?_cases stepped with
    ⟨answers, msg, depth, rfl, asks, rfl⟩ | quiet
  · exact sound_of_asksInTime invariant sound asks careful
  · exact sound.quiet quiet

/-- From a sound mark a step leads to a sound one if and only if it is careful. -/
theorem sound_step_iff
    {owner : Object}
    {queue : Queue}
    {maxmsg : Int64}
    {state next : State Tid Object Queue Obj}
    {action : Action Tid}
    (invariant : Invariant owner queue maxmsg state)
    (sound : Sound owner maxmsg state)
    (countable : maxmsg < Int64.maxValue)
    (stepped :
      (machine owner queue maxmsg).step? state action = some next) :
    Sound owner maxmsg next ↔ Careful owner queue state action := by
  refine ⟨?_, fun careful => sound.step invariant careful stepped⟩
  rcases step?_cases stepped with
    ⟨answers, msg, depth, rfl, asks, rfl⟩ | quiet
  · exact asksInTime_of_sound invariant sound countable asks
  · exact fun _ => quiet.careful

/-- The invariant holds in every run, careful or not. -/
theorem invariant_of_reachable
    {owner : Object}
    {queue : Queue}
    {maxmsg : Int64}
    {state : State Tid Object Queue Obj}
    (reachable : (machine owner queue maxmsg).Reachable state) :
    Invariant owner queue maxmsg state := by
  apply Machine.ReachableWhere.invariant _ _ reachable
  · rintro start ⟨opened, _, idle, _⟩
    refine
      { positive := opened.positive
        descriptor := opened.descriptor
        capacity := by rw [opened.empty]
        fits := ?_
        nonneg := ?_
        found := ?_ }
    · simp [Kernel.Fits, opened.empty]
    · rw [State.mark, opened.mark]
      exact Int64.le_refl 0
    · intro msg depth asks
      rw [idle] at asks
      cases asks
  · intro before after action invariant _ stepped
    exact invariant.step stepped

/-- The mark is sound in every state of a careful run. -/
theorem sound_of_careful
    {owner : Object}
    {queue : Queue}
    {maxmsg : Int64}
    {state : State Tid Object Queue Obj}
    (reachable :
      (machine owner queue maxmsg).ReachableWhere
        (Careful owner queue) state) :
    Sound owner maxmsg state := by
  induction reachable with
  | initial start =>
      obtain ⟨opened, _, _, nothing⟩ := start
      constructor
      · rw [State.mark, opened.mark]
        exact Int64.le_of_lt opened.positive
      · rw [nothing]
        exact nofun
  | step before careful stepped inductionHypothesis =>
      have invariant :=
        invariant_of_reachable (before.mono fun _ => trivial)
      exact inductionHypothesis.step invariant careful stepped

/--
In every run that never asks for the depth of a full queue, the mark is within
the capacity and covers every depth found by a successful `Receive`; the first
step that does not keep to this makes the mark wrong.
-/
theorem mark_sound_iff_careful
    {owner : Object}
    {queue : Queue}
    {maxmsg : Int64}
    {state : State Tid Object Queue Obj}
    (reachable :
      (machine owner queue maxmsg).ReachableWhere
        (Careful owner queue) state) :
    Sound owner maxmsg state ∧
      (maxmsg < Int64.maxValue →
        ∀ action next,
          (machine owner queue maxmsg).step? state action =
            some next →
          (Sound owner maxmsg next ↔
            Careful owner queue state action)) := by
  have sound := sound_of_careful reachable
  have invariant :=
    invariant_of_reachable (reachable.mono fun _ => trivial)
  refine ⟨sound, ?_⟩
  intro countable action next stepped
  exact sound_step_iff invariant sound countable stepped

/-- One queue of one message, under descriptor 3, just opened. -/
def justOpened : State Bool Unit Unit Unit where
  process :=
    { heap := Heap.empty
      kernel :=
        { descriptor := fun _ => some ()
          queue := fun _ => { maxmsg := 1, messages := [] } }
      object := fun _ =>
        { msgQueueFd := 3
          msgQueueNotInUse := false
          maxMsgInQueue := 0
          lastMsgMsgId := 0
          receiveMsgCnt := 0
          sendMsgCnt := 0 }
      gMap := fun _ => some ()
      gReceiveMsgCnt := 0
      gSendMsgCnt := 0 }
  sender := fun _ => .outside
  receiver := .idle
  returned := []

/-- The state is one that the machine starts in. -/
theorem justOpened_initial :
    (machine () () 1).Initial justOpened :=
  ⟨⟨by decide, rfl, rfl, rfl⟩, rfl, rfl, rfl⟩

/-- Every call of the kernel is answered. -/
def answered : Answers where
  select := .readable
  receive := true
  getattr := true

/-- One message sent and received without a send in between. -/
theorem mark_sound_iff_careful_received :
    ∃ state : State Bool Unit Unit Unit,
      (machine () () 1).ReachableWhere (Careful () ()) state ∧
        (state.mark () = 1 ∧ state.returned.length = 1) ∧
        Sound () 1 state ∧
        ((1 : Int64) < Int64.maxValue →
          ∀ action next,
            (machine () () 1).step? state action = some next →
            (Sound () 1 next ↔ Careful () () state action)) := by
  obtain ⟨state, reachable, checked⟩ :=
    Machine.ReachableWhere.exists_of_run
      (machine () () 1) (Careful () ()) justOpened
      [.mqSend true 3 mesg 0 true, .sender true,
        .receive mesg true, .receiver answered,
        .receiver answered, .receiver answered]
      (fun state =>
        decide (state.mark () = 1 ∧ state.returned.length = 1))
      justOpened_initial (by decide) (by decide)
  exact ⟨state, reachable, of_decide_eq_true checked,
    mark_sound_iff_careful reachable⟩

/--
A second message arrives between `mq_receive` and `mq_getattr`, and the mark of
a queue of one message becomes two.
-/
theorem mark_exceeds_capacity :
    ¬ ∀ state : State Bool Unit Unit Unit,
      (machine () () 1).Reachable state →
      Sound () 1 state := by
  intro claimed
  obtain ⟨state, reachable, checked⟩ :=
    Machine.exists_reachable
      (machine () () 1) justOpened
      [.mqSend true 3 mesg 0 true, .receive mesg false,
        .receiver answered, .mqSend false 3 mesg 0 true,
        .receiver answered]
      (fun state => decide (state.mark () = 2))
      justOpened_initial (by decide)
  have bounded := (claimed state reachable).bounded
  rw [of_decide_eq_true checked] at bounded
  exact absurd bounded (by decide)

end HighWater

end WkcRuntime.MsgQueueDepth
