import WkcRuntime.MsgQueueRegistry

namespace WkcRuntime.MsgQueueThreads

open Mesg MessageQueue MsgQueue

/-!
# Senders and owners of queue objects

The static `MsgQueue::Send(fd, ...)` and `MsgQueue::MsgQueueName(fd)` of any
threads run against `Open` and the destructor of the objects, each in the thread
that owns it.  A step is one critical section of `gMapMtx` or one statement
outside.  `Send` keeps the pointer that it looked up and uses it after the lock
is released: for a member of the object it reads after a failed `mq_send`, and
for one it writes after a successful one.

Objects are not reused.  A flag records a use of an object whose destruction has
completed.
-/

/-- The members of an object. -/
structure Members extends MsgQueueObject where
  msgQueueName : String
  msgQueueSize : Int64

/-- Where the owner of an object stands. -/
inductive Owner where
  | unborn
  | idle
  | assign
      (rest : List (Members → Members))
      (name : String)
      (maxmsg : Int64)
      (oCreat : Bool)
  | addMsgQueue (fd : Int32)
  | testName
  | clear
  | close
  | mqClose
  | delMsgQueue
  | mqUnlink
  | complete
  | dead

namespace Owner

/-- The destruction of the object has completed. -/
def isDead : Owner → Bool
  | .dead => true
  | _ => false

/-- The next step completes the destruction of the object. -/
def isComplete : Owner → Bool
  | .complete => true
  | _ => false

end Owner

/-- Where a thread stands inside `MsgQueue::Send`. -/
inductive Caller (Object : Type) where
  | outside
  | msgQueuePtr (fd : Int32) (pclsMsg : MesgT) (s32Prio : UInt32)
  | mqSend
      (p : Option Object)
      (fd : Int32)
      (pclsMsg : MesgT)
      (s32Prio : UInt32)
  | logFailure (p : Option Object)
  | free
  | msgData (p : Option Object)
  | msgObjPtr (p : Option Object)
  | countAll (p : Option Object)
  | countOwn (p : Option Object)

/-- The pointer that a thread still has a use for. -/
def Caller.held? {Object : Type} : Caller Object → Option Object
  | .mqSend p _ _ _ => p
  | .logFailure p => p
  | .msgData p => p
  | .msgObjPtr p => p
  | .countAll p => p
  | .countOwn p => p
  | _ => none

/-- The kernel, the objects with their owners, `gMap` and the threads. -/
structure State (Tid Object : Type) where
  kernel : Kernel Nat MesgT
  created : Nat
  linked : String → Bool
  members : Object → Members
  owner : Object → Owner
  gMap : Int32 → Option Object
  gSendMsgCnt : UInt64
  caller : Tid → Caller Object
  touchedDead : Bool

/-- What the kernel answers in one step of an owner. -/
structure OwnerAnswer where
  fd : Option Int32 := none
  receives : Bool := false
  closes : Bool := false
  deriving DecidableEq, Repr

/-- A call, or the next step of an owner or of a thread inside `Send`. -/
inductive Action (Tid Object : Type) where
  | construct (this : Object)
  | openMaxmsg
      (this : Object)
      (name : Option String)
      (maxmsg : Int64)
      (oCreat : Bool)
  | openAttr
      (this : Object)
      (name : Option String)
      (pattr : Option Int64)
      (oCreat : Bool)
  | destroy (this : Object)
  | owner (this : Object) (answer : OwnerAnswer)
  | send
      (thread : Tid)
      (fd : Int32)
      (pclsMsg : MesgT)
      (s32Prio : UInt32)
  | msgQueueName (thread : Tid) (fd : Int32)
  | caller (thread : Tid) (accepts : Bool)

section Steps

variable {Tid Object : Type} [DecidableEq Tid] [DecidableEq Object]

namespace State

omit [DecidableEq Tid] in
/-- The owner of an object goes on. -/
def setOwner
    (state : State Tid Object)
    (this : Object)
    (owner : Owner) :
    State Tid Object :=
  { state with owner := Function.update state.owner this owner }

omit [DecidableEq Tid] in
@[simp] theorem setOwner_owner
    (state : State Tid Object)
    (this : Object)
    (owner : Owner) :
    (state.setOwner this owner).owner this = owner :=
  Function.update_self ..

omit [DecidableEq Object] in
/-- A thread goes on. -/
def setCaller
    (state : State Tid Object)
    (thread : Tid)
    (caller : Caller Object) :
    State Tid Object :=
  { state with caller := Function.update state.caller thread caller }

omit [DecidableEq Tid] in
/-- Assign to members of an object. -/
def setMembers
    (state : State Tid Object)
    (this : Object)
    (update : Members → Members) :
    State Tid Object :=
  { state with
    members :=
      Function.update state.members this
        (update (state.members this)) }

omit [DecidableEq Tid] [DecidableEq Object] in
/-- Read or write a member through a pointer that may be null. -/
def touch
    (state : State Tid Object) :
    Option Object → State Tid Object
  | none =>
      state
  | some p =>
      { state with
        touchedDead :=
          state.touchedDead || (state.owner p).isDead }

end State

omit [DecidableEq Tid] in
/-- `MsgQueue::MsgQueue`. -/
def construct
    (state : State Tid Object)
    (this : Object) :
    State Tid Object :=
  (state.setMembers this fun members =>
    { members with
      msgQueueFd := -1
      msgQueueName := ""
      msgQueueNotInUse := false
      msgQueueSize := 0
      maxMsgInQueue := 0 }).setOwner this .idle

/-- The assignments at the start of `Open`. -/
def openAssignments
    (resetsLastMsgMsgId : Bool)
    (name : String)
    (maxmsg : Int64) :
    List (Members → Members) :=
  [fun members => { members with receiveMsgCnt := 0 },
    fun members => { members with sendMsgCnt := 0 }] ++
  (if resetsLastMsgMsgId then
    [fun members => { members with lastMsgMsgId := 0 }]
  else
    []) ++
  [fun members => { members with msgQueueName := name },
    fun members => { members with msgQueueSize := maxmsg },
    fun members => { members with maxMsgInQueue := 0 }]

omit [DecidableEq Tid] in
/-- The common part of both `Open` overloads up to its `mq_unlink`. -/
def openQueue
    (resetsLastMsgMsgId : Bool)
    (state : State Tid Object)
    (this : Object)
    (name : String)
    (maxmsg : Int64)
    (oCreat : Bool) :
    State Tid Object :=
  { state with
    linked := Function.update state.linked name false
  }.setOwner this
    (.assign (openAssignments resetsLastMsgMsgId name maxmsg)
      name maxmsg oCreat)

omit [DecidableEq Tid] in
/-- `MsgQueue::Open(name, flag, mode, maxmsg)` up to its `mq_unlink`. -/
def openMaxmsg
    (state : State Tid Object)
    (this : Object)
    (name : Option String)
    (maxmsg : Int64)
    (oCreat : Bool) :
    State Tid Object :=
  match name with
  | none => state
  | some name => openQueue true state this name maxmsg oCreat

omit [DecidableEq Tid] in
/-- `MsgQueue::Open(name, flag, mode, pattr)` up to its `mq_unlink`. -/
def openAttr
    (state : State Tid Object)
    (this : Object)
    (name : Option String)
    (pattr : Option Int64)
    (oCreat : Bool) :
    State Tid Object :=
  match name, pattr with
  | some name, some maxmsg =>
      openQueue false state this name maxmsg oCreat
  | _, _ => state

omit [DecidableEq Tid] in
/-- `mq_open` and the assignment of its result to `m_msgQueueFd`. -/
def mqOpen?
    (state : State Tid Object)
    (this : Object)
    (name : String)
    (maxmsg : Int64)
    (oCreat : Bool)
    (answer : Option Int32) :
    Option (State Tid Object) :=
  match mqOpenAnswer name oCreat answer with
  | none =>
      some ((state.setMembers this fun members =>
        { members with msgQueueFd := -1 }).setOwner this .idle)
  | some fd =>
      if 0 ≤ fd ∧ state.kernel.descriptor fd = none then
        some (({ state with
            kernel :=
              state.kernel.mqOpen fd state.created
                maxmsg.toInt.toNat
            created := state.created + 1
            linked := Function.update state.linked name true
          }.setMembers this fun members =>
            { members with msgQueueFd := fd }).setOwner this
              (.addMsgQueue fd))
      else
        none

omit [DecidableEq Tid] in
/--
The next statement of `Open`, or of the destructor with the `Unlink`, `Clear`
and `Close` inside it.
-/
def ownerStep?
    (state : State Tid Object)
    (this : Object)
    (answer : OwnerAnswer) :
    Option (State Tid Object) :=
  let members := state.members this
  match state.owner this with
  | .unborn =>
      none
  | .idle =>
      none
  | .assign (update :: rest) name maxmsg oCreat =>
      some ((state.setMembers this update).setOwner this
        (.assign rest name maxmsg oCreat))
  | .assign [] name maxmsg oCreat =>
      mqOpen? state this name maxmsg oCreat answer.fd
  | .addMsgQueue fd =>
      some ({ state with
        gMap := Function.update state.gMap fd (some this)
      }.setOwner this .idle)
  | .testName =>
      if members.msgQueueName = "" then
        some (state.setOwner this .complete)
      else
        some (state.setOwner this .clear)
  | .clear =>
      match state.kernel.mqReceive members.msgQueueFd
          answer.receives with
      | none =>
          some (state.setOwner this .close)
      | some (_, kernel) =>
          some { state with kernel }
  | .close =>
      if members.msgQueueFd < 0 then
        some (state.setOwner this .mqUnlink)
      else
        some (state.setOwner this .mqClose)
  | .mqClose =>
      match state.kernel.mqClose members.msgQueueFd
          answer.closes with
      | none =>
          some (state.setOwner this .mqUnlink)
      | some kernel =>
          some ({ state with kernel }.setOwner this .delMsgQueue)
  | .delMsgQueue =>
      some ({ state with
        gMap := Function.update state.gMap members.msgQueueFd none
      }.setOwner this .mqUnlink)
  | .mqUnlink =>
      some ({ state with
        linked :=
          Function.update state.linked members.msgQueueName false
      }.setOwner this .complete)
  | .complete =>
      some (state.setOwner this .dead)
  | .dead =>
      none

/-- The next statement of a thread inside `Send`. -/
def callerStep?
    (state : State Tid Object)
    (thread : Tid)
    (accepts : Bool) :
    Option (State Tid Object) :=
  match state.caller thread with
  | .outside =>
      none
  | .msgQueuePtr fd pclsMsg s32Prio =>
      some (state.setCaller thread
        (.mqSend (state.gMap fd) fd pclsMsg s32Prio))
  | .mqSend p fd pclsMsg s32Prio =>
      match state.kernel.mqSend fd pclsMsg s32Prio accepts with
      | none =>
          some (state.setCaller thread (.logFailure p))
      | some kernel =>
          some ({ state with kernel }.setCaller thread (.msgData p))
  | .logFailure p =>
      some ((state.touch p).setCaller thread .free)
  | .free =>
      some (state.setCaller thread .outside)
  | .msgData p =>
      some (state.setCaller thread (.msgObjPtr p))
  | .msgObjPtr p =>
      some (state.setCaller thread (.countAll p))
  | .countAll p =>
      some ({ state with
        gSendMsgCnt := state.gSendMsgCnt + 1
      }.setCaller thread (.countOwn p))
  | .countOwn none =>
      some (state.setCaller thread .outside)
  | .countOwn (some p) =>
      some (((state.touch (some p)).setMembers p fun members =>
        { members with
          sendMsgCnt := members.sendMsgCnt + 1
        }).setCaller thread .outside)

/-- `Send` up to its test of the handle. -/
def send
    (state : State Tid Object)
    (thread : Tid)
    (fd : Int32)
    (pclsMsg : MesgT)
    (s32Prio : UInt32) :
    State Tid Object :=
  if fd ≤ 0 then
    state.setCaller thread .free
  else
    state.setCaller thread (.msgQueuePtr fd pclsMsg s32Prio)

/-- One step of one thread. -/
def step?
    (state : State Tid Object) :
    Action Tid Object → Option (State Tid Object)
  | .construct this =>
      match state.owner this with
      | .unborn => some (construct state this)
      | _ => none
  | .openMaxmsg this name maxmsg oCreat =>
      match state.owner this with
      | .idle => some (openMaxmsg state this name maxmsg oCreat)
      | _ => none
  | .openAttr this name pattr oCreat =>
      match state.owner this with
      | .idle => some (openAttr state this name pattr oCreat)
      | _ => none
  | .destroy this =>
      match state.owner this with
      | .idle => some (state.setOwner this .testName)
      | _ => none
  | .owner this answer =>
      ownerStep? state this answer
  | .send thread fd pclsMsg s32Prio =>
      match state.caller thread with
      | .outside => some (send state thread fd pclsMsg s32Prio)
      | _ => none
  | .msgQueueName thread fd =>
      match state.caller thread with
      | .outside => some (state.touch (state.gMap fd))
      | _ => none
  | .caller thread accepts =>
      callerStep? state thread accepts

omit [DecidableEq Tid] [DecidableEq Object] in
/-- No object yet and no thread inside a call. -/
def State.atStart
    (storage : Object → Members) :
    State Tid Object where
  kernel :=
    { descriptor := fun _ => none
      queue := fun _ => { maxmsg := 0, messages := [] } }
  created := 0
  linked := fun _ => false
  members := storage
  owner := fun _ => .unborn
  gMap := fun _ => none
  gSendMsgCnt := 0
  caller := fun _ => .outside
  touchedDead := false

/-- Any threads that send and any objects with their owners. -/
def machine : Machine (State Tid Object) (Action Tid Object) where
  Initial := fun state => ∃ storage, state = State.atStart storage
  step? := step?

end Steps

end WkcRuntime.MsgQueueThreads
