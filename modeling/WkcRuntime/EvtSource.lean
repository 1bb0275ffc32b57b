import WkcRuntime.Machine
import WkcRuntime.ConditionVariable

namespace WkcRuntime.Evt

open ConditionVariable

/-!
# The event of `ipc/evt.c`

`evt_mtx` is one `int` that is set by a signal and reset by the wait that sees
it, guarded by a mutex and a condition variable.  A step is one stretch of code
between getting and releasing the mutex.  The handle is valid and the pthread
calls succeed, except that a timed wait may time out and that reading the clock
before it may fail.

Of `pthread_cond_signal` only what the standard promises is used: it unblocks
one or more of the blocked threads if there are any.  A timed wait that it
unblocks may still report `ETIMEDOUT`.
-/

/-- The timeout that selects the untimed branch, `(unsigned long)-1`. -/
def infinite : UInt64 :=
  -1

/-- What the condition wait returned: `0` or `ETIMEDOUT`. -/
inductive Wake where
  | unblocked
  | timedOut
  deriving DecidableEq, Repr

/-- Every wait may return `0`, and only a timed one `ETIMEDOUT`. -/
def admits
    (ulMilsecond : UInt64) :
    Wake → Bool
  | .unblocked => true
  | .timedOut => decide (ulMilsecond ≠ infinite)

/-- The two calls on an event. -/
inductive Call where
  | signal
  | wait (ulMilsecond : UInt64)
  deriving DecidableEq, Repr

/-- One finished call and its code. -/
structure Return (Tid : Type) where
  thread : Tid
  call : Call
  rc : Int32
  deriving DecidableEq, Repr

/-- The event, the threads inside its waits and the calls finished so far. -/
structure State (Tid : Type) where
  state : Int32
  pool : Pool Tid UInt64 Wake
  returned : List (Return Tid)

/-- `evt_mtx_create`: the structure comes zeroed from `calloc`. -/
def evtMtxCreate
    {Tid : Type} :
    State Tid where
  state := 0
  pool := fun _ => .outside
  returned := []

/-- Unlock the mutex and return from the call. -/
def State.finish
    {Tid : Type}
    (thread : Tid)
    (call : Call)
    (rc : Int32)
    (event : State Tid) :
    State Tid :=
  { event with
    returned := { thread, call, rc } :: event.returned }

section Calls

variable {Tid : Type} [DecidableEq Tid] [Fintype Tid]

omit [DecidableEq Tid] in
/-- `evt_mtx_signal`; `chosen` says whom the signal unblocks, and how. -/
def evtMtxSignal
    (thread : Tid)
    (chosen : Tid → Option Wake)
    (event : State Tid) :
    Option (State Tid) :=
  if event.state = 0 then
    (wakeSome? admits chosen event.pool).map fun pool =>
      { event with state := 1, pool }.finish thread .signal 0
  else
    some (event.finish thread .signal 0)

/--
The loop test of `evt_mtx_wait`, made with the mutex held, and the reset that
follows the loop.
-/
def evtMtxWait
    (thread : Tid)
    (ulMilsecond : UInt64)
    (event : State Tid) :
    State Tid :=
  if event.state ≠ 1 then
    { event with
      pool :=
        Function.update event.pool thread (.asleep ulMilsecond) }
  else
    { event with
      state := 0
      pool := Function.update event.pool thread .outside
    }.finish thread (.wait ulMilsecond) 0

/--
The rest of `evt_mtx_wait` once the condition wait holds the mutex again.  The
timed branch returns on `ETIMEDOUT` before the loop test.
-/
def evtMtxWaitResume
    (thread : Tid)
    (ulMilsecond : UInt64)
    (wake : Wake)
    (event : State Tid) :
    State Tid :=
  if ulMilsecond ≠ infinite ∧ wake = .timedOut then
    { event with
      pool := Function.update event.pool thread .outside
    }.finish thread (.wait ulMilsecond) (-1)
  else
    evtMtxWait thread ulMilsecond event

end Calls

/-- One scheduled step of one thread, or of the condition variable. -/
inductive Action (Tid : Type) where
  | signal (thread : Tid) (chosen : Tid → Option Wake)
  | wait (thread : Tid) (ulMilsecond : UInt64)
  | clockFails (thread : Tid) (ulMilsecond : UInt64)
  | spurious (thread : Tid)
  | timeout (thread : Tid)
  | resume (thread : Tid)

section Steps

variable {Tid : Type} [DecidableEq Tid] [Fintype Tid]

/-- One step of the event and the threads that use it. -/
def step?
    (event : State Tid) :
    Action Tid → Option (State Tid)
  | .signal thread chosen =>
      if event.pool thread = .outside then
        evtMtxSignal thread chosen event
      else
        none
  | .wait thread ulMilsecond =>
      if event.pool thread = .outside then
        some (evtMtxWait thread ulMilsecond event)
      else
        none
  | .clockFails thread ulMilsecond =>
      if ulMilsecond ≠ infinite ∧ event.pool thread = .outside then
        some (event.finish thread (.wait ulMilsecond) (-1))
      else
        none
  | .spurious thread =>
      match event.pool thread with
      | .asleep ulMilsecond =>
          some { event with
            pool := Function.update event.pool thread
              (.woken ulMilsecond .unblocked) }
      | _ =>
          none
  | .timeout thread =>
      match event.pool thread with
      | .asleep ulMilsecond =>
          if ulMilsecond ≠ infinite then
            some { event with
              pool := Function.update event.pool thread
                (.woken ulMilsecond .timedOut) }
          else
            none
      | _ =>
          none
  | .resume thread =>
      match event.pool thread with
      | .woken ulMilsecond wake =>
          some (evtMtxWaitResume thread ulMilsecond wake event)
      | _ =>
          none

/-- Any threads using one event. -/
def machine : Machine (State Tid) (Action Tid) where
  Initial := fun event => event = evtMtxCreate
  step? := step?

end Steps

end WkcRuntime.Evt
