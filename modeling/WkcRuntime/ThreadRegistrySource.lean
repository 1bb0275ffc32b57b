import WkcRuntime.Machine
import Mathlib.Logic.Function.Basic

namespace WkcRuntime.ThreadRegistry

/-!
# The registry of `basic/ThreadObj.cpp`

The static `gList` holds the addresses of the objects whose threads
`StopAllThreads` has to stop.  Any number of objects are constructed, used and
destroyed one operation after another; an address may be used again.  An
operation on an object that is not alive, and one that follows the address of
such an object, has no result.

`StartThread` lists the object before it creates the `std::thread`.  The
creation may throw, which leaves the function there.  Threads that are waited
for end.
-/

/-- The members that the operations read or write; `joinable` is `m_thread`'s. -/
structure Object where
  threadName : String
  stopRequested : Bool
  joinable : Bool
  deriving DecidableEq, Repr

namespace Object

/-- `ThreadObj::ThreadObj`. -/
def construct : Object where
  threadName := ""
  stopRequested := true
  joinable := false

/-- `m_thread.join()`. -/
def join (object : Object) : Object :=
  { object with joinable := false }

/-- `m_thread.detach()`. -/
def detach (object : Object) : Object :=
  { object with joinable := false }

end Object

/-- The objects that are alive, and the registry. -/
structure State (Address : Type) where
  objects : Address → Option Object
  gList : List Address

/-- Before the first object. -/
def State.initial
    {Address : Type} :
    State Address where
  objects := fun _ => none
  gList := []

section Operations

variable {Address : Type} [DecidableEq Address]

namespace State

/-- Write the members of an object. -/
def store
    (this : Address)
    (object : Object)
    (state : State Address) :
    State Address :=
  { state with
    objects := Function.update state.objects this (some object) }

/-- `AddThreadObj`. -/
def addThreadObj
    (this : Address)
    (state : State Address) :
    State Address :=
  { state with gList := this :: state.gList }

/-- `DelThreadObj`. -/
def delThreadObj
    (this : Address)
    (state : State Address) :
    State Address :=
  { state with
    gList := state.gList.filter fun other => decide (other ≠ this) }

/-- The end of an object's life. -/
def free
    (this : Address)
    (state : State Address) :
    State Address :=
  { state with objects := Function.update state.objects this none }

end State

/-- The constructor, at an address that no live object has. -/
def construct
    (this : Address)
    (state : State Address) :
    Option (State Address) :=
  match state.objects this with
  | none =>
      some (state.store this .construct)
  | some _ =>
      none

/-- `StartThread`; `creates` says whether the `std::thread` is created. -/
def startThread
    (this : Address)
    (name : Option String)
    (creates : Bool)
    (state : State Address) :
    Option (State Address) :=
  match state.objects this with
  | none =>
      none
  | some object =>
      if object.joinable then
        some state
      else
        let started :=
          { object with
            threadName := name.getD "(Unknown)"
            stopRequested := false }
        let listed := (state.store this started).addThreadObj this
        if creates then
          some (listed.store this { started with joinable := true })
        else
          some listed

/-- `StopThread`. -/
def stopThread
    (this : Address)
    (isWaiting : Bool)
    (state : State Address) :
    Option (State Address) :=
  match state.objects this with
  | none =>
      none
  | some object =>
      if object.joinable then
        let stopping := { object with stopRequested := true }
        let stopped :=
          if isWaiting then stopping.join else stopping.detach
        some ((state.store this stopped).delThreadObj this)
      else
        some state

/-- `~ThreadObj`. -/
def destroy
    (this : Address)
    (state : State Address) :
    Option (State Address) :=
  (stopThread this true state).map (State.free this)

/-- The function that `StopAllThreads` applies to every element. -/
def stopListed
    (state : State Address)
    (pObj : Address) :
    Option (State Address) :=
  match state.objects pObj with
  | none =>
      none
  | some object =>
      if object.joinable then
        some (state.store pObj
          { object with stopRequested := true }.join)
      else
        some state

/-- `StopAllThreads`. -/
def stopAllThreads
    (state : State Address) :
    Option (State Address) :=
  (state.gList.foldlM stopListed state).map fun stopped =>
    { stopped with gList := [] }

end Operations

/-- One operation. -/
inductive Action (Address : Type) where
  | construct (this : Address)
  | startThread
      (this : Address)
      (name : Option String)
      (creates : Bool)
  | stopThread (this : Address) (isWaiting : Bool)
  | stopAllThreads
  | destroy (this : Address)
  deriving DecidableEq, Repr

/-- One operation of the program. -/
def step?
    {Address : Type}
    [DecidableEq Address]
    (state : State Address) :
    Action Address → Option (State Address)
  | .construct this => construct this state
  | .startThread this name creates =>
      startThread this name creates state
  | .stopThread this isWaiting => stopThread this isWaiting state
  | .stopAllThreads => stopAllThreads state
  | .destroy this => destroy this state

/-- Any sequence of operations. -/
def machine
    {Address : Type}
    [DecidableEq Address] :
    Machine (State Address) (Action Address) where
  Initial := fun state => state = .initial
  step? := step?

end WkcRuntime.ThreadRegistry
