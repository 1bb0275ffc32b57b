import WkcRuntime.Machine
import WkcRuntime.ConditionVariable

namespace WkcRuntime.QueueR

open ConditionVariable

/-!
# The blocking queue of `utils/queue_r.hpp`

A `std::queue` is guarded by one mutex and one condition variable.  A step is
one stretch of a member function under the mutex; every stretch ends by
releasing it, in the destructor of the lock or inside `data_cond.wait`.  Copying
a value does not throw.
-/

/-- The overload that fills a reference and the one that returns a pointer. -/
inductive Form where
  | reference
  | sharedPtr
  deriving DecidableEq, Repr

/-- How a thread left the wait set: by `notify_one`, or by itself. -/
inductive Wake where
  | notified
  | spurious
  deriving DecidableEq, Repr

/-- The calls of the queue and their arguments. -/
inductive Call (T : Type) where
  | push (newValue : T)
  | tryPop (form : Form)
  | waitPop (form : Form)
  deriving DecidableEq, Repr

/--
One finished call.  A pop carries the value that it filled in or returned;
`false` and the empty pointer are `none`.
-/
structure Return (Tid T : Type) where
  thread : Tid
  call : Call T
  value : Option T := none
  deriving DecidableEq, Repr

/-- The queue, the threads inside `wait_pop` and the calls finished so far. -/
structure State (Tid T : Type) where
  dataQueue : List T
  pool : Pool Tid Form Wake
  returned : List (Return Tid T)

/-- The default constructor. -/
def construct
    {Tid T : Type} :
    State Tid T where
  dataQueue := []
  pool := fun _ => .outside
  returned := []

section Calls

variable {Tid T : Type} [DecidableEq Tid] [Fintype Tid]

/-- `push`; `chosen` is the sleeper that `notify_one` unblocks. -/
def push
    (thread : Tid)
    (newValue : T)
    (chosen : Option Tid)
    (state : State Tid T) :
    Option (State Tid T) :=
  (wakeOne? .notified chosen state.pool).map fun pool =>
    { dataQueue := state.dataQueue ++ [newValue]
      pool
      returned :=
        { thread, call := .push newValue } :: state.returned }

/-- Both forms of `try_pop`. -/
def tryPop
    (thread : Tid)
    (form : Form)
    (state : State Tid T) :
    State Tid T :=
  match state.dataQueue with
  | [] =>
      { state with
        returned :=
          { thread, call := .tryPop form } :: state.returned }
  | front :: rest =>
      { state with
        dataQueue := rest
        returned :=
          { thread
            call := .tryPop form
            value := some front } :: state.returned }

/--
The loop of `data_cond.wait` in both forms of `wait_pop`: an empty queue sends
the thread to sleep, and with a value the call goes on to its return.
-/
def waitPop
    (thread : Tid)
    (form : Form)
    (state : State Tid T) :
    State Tid T :=
  match state.dataQueue with
  | [] =>
      { state with
        pool := Function.update state.pool thread (.asleep form) }
  | front :: rest =>
      { dataQueue := rest
        pool := Function.update state.pool thread .outside
        returned :=
          { thread
            call := .waitPop form
            value := some front } :: state.returned }

end Calls

/-- One scheduled step of one thread, or of the condition variable. -/
inductive Action (Tid T : Type) where
  | push (thread : Tid) (newValue : T) (chosen : Option Tid)
  | tryPop (thread : Tid) (form : Form)
  | waitPop (thread : Tid) (form : Form)
  | spurious (thread : Tid)
  | resume (thread : Tid)
  deriving DecidableEq, Repr

section Steps

variable {Tid T : Type} [DecidableEq Tid] [Fintype Tid]

/-- One step of the queue and the threads that use it. -/
def step?
    (state : State Tid T) :
    Action Tid T → Option (State Tid T)
  | .push thread newValue chosen =>
      if state.pool thread = .outside then
        push thread newValue chosen state
      else
        none
  | .tryPop thread form =>
      if state.pool thread = .outside then
        some (tryPop thread form state)
      else
        none
  | .waitPop thread form =>
      if state.pool thread = .outside then
        some (waitPop thread form state)
      else
        none
  | .spurious thread =>
      match state.pool thread with
      | .asleep form =>
          some { state with
            pool := Function.update state.pool thread
              (.woken form .spurious) }
      | _ =>
          none
  | .resume thread =>
      match state.pool thread with
      | .woken form _ =>
          some (waitPop thread form state)
      | _ =>
          none

/-- Any threads using one queue. -/
def machine : Machine (State Tid T) (Action Tid T) where
  Initial := fun state => state = construct
  step? := step?

end Steps

end WkcRuntime.QueueR
