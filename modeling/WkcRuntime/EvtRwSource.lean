import WkcRuntime.Machine
import WkcRuntime.ConditionVariable

namespace WkcRuntime.EvtRw

open ConditionVariable

/-!
# The readers' event of `ipc/evt.c`

`evt_rw` has a flag that a broadcast sets and a poll resets, and a count of the
readers inside its condition waits.  A step is one stretch of code between
getting and releasing the mutex.  The handle is valid and the pthread calls
succeed, except that a condition wait may end with any code and that reading
the clock before a timed one may fail.

A broadcast unblocks every thread that is blocked on the condition variable.
A wait may also end without one, with `0` (a spurious wakeup), with `ETIMEDOUT`
if it is timed, or with another error; an error that is reported before the
mutex was released changes nothing in between.  `evt_rd_wait` returns with the
mutex locked when it cannot read the clock, and `mutex` names that thread.

A count of readers past `INT_MAX` has no result.  The broadcasts so far, and
those that a waiting thread found when it entered, are history.
-/

/-- The timeout that selects the untimed branch, `(unsigned long)-1`. -/
def infinite : UInt64 :=
  -1

/-- `ETIMEDOUT`. -/
def etimedout : Int32 :=
  110

/-- `INT_MAX`. -/
def intMax : Int32 :=
  2147483647

/-- The three calls on an event. -/
inductive Call where
  | broadcast
  | reset
  | wait (ulMilsecond : UInt64)
  deriving DecidableEq, Repr

/-- One finished call, its code, and the broadcasts executed during it. -/
structure Return (Tid : Type) where
  thread : Tid
  call : Call
  rc : Int32
  heard : Nat
  deriving DecidableEq, Repr

/-- The event, the readers inside its waits and the history. -/
structure State (Tid : Type) where
  s32Rd : Int32
  s32Wr : Int32
  mutex : Option Tid
  pool : Pool Tid UInt64 Int32
  broadcasts : Nat
  entered : Tid → Nat
  returned : List (Return Tid)

/-- `evt_rw_create`: the structure comes zeroed from `calloc`. -/
def evtRwCreate
    {Tid : Type} :
    State Tid where
  s32Rd := 0
  s32Wr := 0
  mutex := none
  pool := fun _ => .outside
  broadcasts := 0
  entered := fun _ => 0
  returned := []

/-- Unlock the mutex and return from a call that never waited. -/
def State.finish
    {Tid : Type}
    (thread : Tid)
    (call : Call)
    (rc : Int32)
    (event : State Tid) :
    State Tid :=
  { event with
    returned := { thread, call, rc, heard := 0 } :: event.returned }

section Calls

variable {Tid : Type} [DecidableEq Tid]

/-- `evt_wr_broadcast`. -/
def evtWrBroadcast
    (thread : Tid)
    (event : State Tid) :
    State Tid :=
  { event with
    s32Wr := 1
    pool :=
      if 0 < event.s32Rd then wakeAll 0 event.pool else event.pool
    broadcasts := event.broadcasts + 1
  }.finish thread .broadcast 0

/-- `evt_rd_reset`. -/
def evtRdReset
    (thread : Tid)
    (event : State Tid) :
    State Tid :=
  { event with s32Wr := 0 }.finish thread .reset 0

/-- The branch of `evt_rd_wait` for the timeout `0`. -/
def poll
    (thread : Tid)
    (event : State Tid) :
    State Tid :=
  if event.s32Wr ≠ 1 then
    event.finish thread (.wait 0) (-1)
  else
    { event with s32Wr := 0 }.finish thread (.wait 0) 0

/-- `++s32Rd` and the condition wait, which releases the mutex. -/
def sleep
    (thread : Tid)
    (ulMilsecond : UInt64)
    (event : State Tid) :
    Option (State Tid) :=
  if event.s32Rd = intMax then
    none
  else
    some { event with
      s32Rd := event.s32Rd + 1
      pool :=
        Function.update event.pool thread (.asleep ulMilsecond) }

/-- `evt_rd_wait` up to its first release of the mutex. -/
def evtRdWait
    (thread : Tid)
    (ulMilsecond : UInt64)
    (event : State Tid) :
    Option (State Tid) :=
  if ulMilsecond = 0 then
    some (poll thread event)
  else
    sleep thread ulMilsecond { event with
      entered :=
        Function.update event.entered thread event.broadcasts }

/-- The loop around the condition wait goes on after this code. -/
def Repeats
    (ulMilsecond : UInt64)
    (rc : Int32) :
    Prop :=
  if ulMilsecond = infinite then
    rc ≠ 0
  else
    rc ≠ 0 ∧ rc ≠ etimedout

instance (ulMilsecond : UInt64) (rc : Int32) :
    Decidable (Repeats ulMilsecond rc) :=
  inferInstanceAs (Decidable
    (if ulMilsecond = infinite then rc ≠ 0 else rc ≠ 0 ∧ rc ≠ etimedout))

/-- Unlock the mutex and return from a call that waited. -/
def State.leave
    (thread : Tid)
    (ulMilsecond : UInt64)
    (rc : Int32)
    (event : State Tid) :
    State Tid :=
  { event with
    pool := Function.update event.pool thread .outside
    returned :=
      { thread
        call := .wait ulMilsecond
        rc
        heard := event.broadcasts - event.entered thread
      } :: event.returned }

/-- `--s32Rd` and the test of the loop, with the mutex held again. -/
def evtRdWaitResume
    (thread : Tid)
    (ulMilsecond : UInt64)
    (rc : Int32)
    (event : State Tid) :
    Option (State Tid) :=
  if Repeats ulMilsecond rc then
    sleep thread ulMilsecond { event with s32Rd := event.s32Rd - 1 }
  else
    some ({ event with s32Rd := event.s32Rd - 1 }.leave thread
      ulMilsecond rc)

/-- The error return of `evt_rd_wait`, with the mutex still locked. -/
def evtRdWaitClockFails
    (thread : Tid)
    (ulMilsecond : UInt64)
    (event : State Tid) :
    State Tid :=
  { event.finish thread (.wait ulMilsecond) (-1) with
    mutex := some thread }

end Calls

/-- One scheduled step of one thread, or of the condition variable. -/
inductive Action (Tid : Type) where
  | broadcast (thread : Tid)
  | reset (thread : Tid)
  | wait (thread : Tid) (ulMilsecond : UInt64)
  | clockFails (thread : Tid) (ulMilsecond : UInt64)
  | spurious (thread : Tid)
  | timeout (thread : Tid)
  | error (thread : Tid) (rc : Int32)
  | resume (thread : Tid)
  deriving DecidableEq, Repr

section Steps

variable {Tid : Type} [DecidableEq Tid]

/-- The thread may start a call that begins with locking the free mutex. -/
def CanEnter
    (event : State Tid)
    (thread : Tid) :
    Prop :=
  event.mutex = none ∧ event.pool thread = .outside

instance (event : State Tid) (thread : Tid) :
    Decidable (CanEnter event thread) :=
  inferInstanceAs (Decidable (_ ∧ _))

/-- The condition wait of a sleeping thread ends with this code. -/
def wake
    (thread : Tid)
    (admits : UInt64 → Bool)
    (rc : Int32)
    (event : State Tid) :
    Option (State Tid) :=
  match event.pool thread with
  | .asleep ulMilsecond =>
      if admits ulMilsecond then
        some { event with
          pool := Function.update event.pool thread
            (.woken ulMilsecond rc) }
      else
        none
  | _ =>
      none

/-- One step of the event and the threads that use it. -/
def step?
    (event : State Tid) :
    Action Tid → Option (State Tid)
  | .broadcast thread =>
      if CanEnter event thread then
        some (evtWrBroadcast thread event)
      else
        none
  | .reset thread =>
      if CanEnter event thread then
        some (evtRdReset thread event)
      else
        none
  | .wait thread ulMilsecond =>
      if CanEnter event thread then
        evtRdWait thread ulMilsecond event
      else
        none
  | .clockFails thread ulMilsecond =>
      if CanEnter event thread ∧
          ulMilsecond ≠ 0 ∧ ulMilsecond ≠ infinite then
        some (evtRdWaitClockFails thread ulMilsecond event)
      else
        none
  | .spurious thread =>
      wake thread (fun _ => true) 0 event
  | .timeout thread =>
      wake thread (fun ulMilsecond => decide (ulMilsecond ≠ infinite))
        etimedout event
  | .error thread rc =>
      if rc ≠ 0 ∧ rc ≠ etimedout then
        wake thread (fun _ => true) rc event
      else
        none
  | .resume thread =>
      match event.pool thread with
      | .woken ulMilsecond rc =>
          if event.mutex = none then
            evtRdWaitResume thread ulMilsecond rc event
          else
            none
      | _ =>
          none

/-- Any threads using one event. -/
def machine : Machine (State Tid) (Action Tid) where
  Initial := fun event => event = evtRwCreate
  step? := step?

end Steps

end WkcRuntime.EvtRw
