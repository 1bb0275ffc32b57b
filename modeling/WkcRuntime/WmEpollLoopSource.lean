import WkcRuntime.Machine
import WkcRuntime.TimedWaits

namespace WkcRuntime.WmEpollLoop

open TimedWaits (Timespec)

/-!
# The event loop of `ipc/wm_epoll.c`

`wm_epoll_start`, `wm_epoll_stop` and `wm_epoll_handle` on the static `gstIns`,
the loop threads in `ep_thread`, and the timer calls that they make.  Any
number of application threads and the callbacks of the loop threads call the
three functions; a step is one access to shared state, or one call into the
kernel.

Addresses of `wm_epoll_t` and of `evt_t` are numbers, and a null pointer is
`none`.  Of a registered event only its descriptor is kept.  A wait for an event
returns once the event is set: the condition variable behind it is the subject of
the model of `evt_mtx`.

The application opens, watches and closes descriptors of its own.  Its
`wm_epoll_add` and `wm_epoll_remove` need a handle that is live, and it closes
only descriptors that the current handle does not watch; an application that uses
a handle after the stop of its loop, or closes a watched descriptor, is not
modelled.

`undefined` records the use of a freed `wm_epoll_t` or `evt_t` and a join that
POSIX leaves undefined; an event that is removed while its batch is dispatched
is the subject of the model of `wm_epoll_wait`.  `given`, `gaveFreed` and
`unwatched` are history: the handles that `wm_epoll_handle` gave away, whether
one of them was already freed, and the loop threads whose `wm_epoll_add` of the
idle timer has failed.
-/

/-- `struct itimerspec`. -/
structure Itimerspec where
  itInterval : Timespec
  itValue : Timespec
  deriving DecidableEq, Repr

/-- The seconds and nanoseconds that `wm_epoll_timer_set` computes. -/
def timespecOf (ms : Int32) : Timespec where
  tvSec := (ms / 1000).toInt64
  tvNsec := (ms % 1000 * 1000 * 1000).toInt64

/-- `timerfd_settime` refuses times out of range with `EINVAL`. -/
def Itimerspec.Valid (its : Itimerspec) : Prop :=
  (its.itInterval.Valid ∧ 0 ≤ its.itInterval.tvSec) ∧
    its.itValue.Valid ∧ 0 ≤ its.itValue.tvSec

instance (its : Itimerspec) : Decidable its.Valid :=
  inferInstanceAs
    (Decidable
      ((its.itInterval.Valid ∧ 0 ≤ its.itInterval.tvSec) ∧
        its.itValue.Valid ∧ 0 ≤ its.itValue.tvSec))

/-- A timer with a first expiry; a value of zero disarms it. -/
def Itimerspec.armed (its : Itimerspec) : Bool :=
  decide (its.itValue ≠ ⟨0, 0⟩)

/-- What an open descriptor refers to. -/
inductive Kind where
  | epoll
  | timer (its : Itimerspec)
  | other
  deriving DecidableEq, Repr

/-- An open file, and the loop thread that opened it, if it was one. -/
structure OpenFile where
  kind : Kind
  opener : Option Nat
  deriving DecidableEq, Repr

/-- The open descriptors of the process. -/
abbrev Files :=
  Int32 → Option OpenFile

/-- `timerfd_settime`; `none` stands for `-1`. -/
def timerfdSettime
    (files : Files)
    (fd : Int32)
    (its : Itimerspec) :
    Option Files :=
  match files fd with
  | some ⟨.timer _, opener⟩ =>
      if its.Valid then
        some (Function.update files fd (some ⟨.timer its, opener⟩))
      else
        none
  | _ =>
      none

/-- `wm_epoll_timer_set`. -/
def wmEpollTimerSet
    (files : Files)
    (fd msDelay msInterval : Int32) :
    Files × Int32 :=
  match timerfdSettime files fd
      ⟨timespecOf msInterval, timespecOf msDelay⟩ with
  | none =>
      (files, -1)
  | some files =>
      (files, 0)

/-- `wm_epoll_timer_open`; `created` is the answer of `timerfd_create`. -/
def wmEpollTimerOpen
    (files : Files)
    (opener : Option Nat)
    (created : Option Int32)
    (msDelay msInterval : Int32) :
    Files × Int32 :=
  match created with
  | none =>
      (files, -1)
  | some fd =>
      let opened :=
        Function.update files fd
          (some ⟨.timer ⟨⟨0, 0⟩, ⟨0, 0⟩⟩, opener⟩)
      let set := wmEpollTimerSet opened fd msDelay msInterval
      (set.1, if set.2 ≠ 0 then -1 else fd)

/-- `wm_ins_t`. -/
structure WmIns where
  loop : Bool
  thrId : Option Nat
  handle : Option Nat
  idleFd : Int32
  evtHandle : Option Nat
  deriving DecidableEq, Repr

/-- `gstIns` before its first use and after `memset`. -/
def WmIns.zero : WmIns where
  loop := false
  thrId := none
  handle := none
  idleFd := 0
  evtHandle := none

/-- `wm_epoll_t` with the descriptors of its list, the first one first. -/
structure WmEpollT where
  fd : Int32
  head : List Int32
  deriving DecidableEq, Repr

/-- Where a loop thread stands in `ep_thread`. -/
inductive Phase where
  | create
  | openTimer
  | add
  | signal
  | testLoop
  | callWait
  | epollWait (handle : Nat)
  | dispatch (ready : List Int32)
  | destroy
  | closing (handle : Nat)
  | finished
  | joined
  deriving DecidableEq, Repr

/-- Who makes calls: an application thread, or a callback of a loop thread. -/
inductive Caller (Tid : Type) where
  | app (tid : Tid)
  | loop (thread : Nat)
  deriving DecidableEq, Repr

/-- Where a caller stands in one of the three calls. -/
inductive Pc where
  | outside
  | startLoop
  | startEvt
  | startCreate
  | startWait
  | startWaiting (evt : Nat)
  | startDestroy
  | stopLoop
  | stopTimer
  | stopJoin
  | stopMemset
  | handleRead
  deriving DecidableEq, Repr

/-- The static data, the heap, the kernel, the threads and the history. -/
structure State (Tid : Type) where
  gstIns : WmIns
  handles : Nat → Option WmEpollT
  evts : Nat → Option Int32
  files : Files
  created : Nat
  threads : Nat → Option Phase
  calls : Caller Tid → Pc
  undefined : Bool
  given : List (Option Nat)
  gaveFreed : Bool
  unwatched : List Nat

/-- What the environment answers to a step. -/
structure Answers where
  memory : Option Nat
  fd : Option Int32
  accepts : Bool
  ready : List Int32
  deriving DecidableEq, Repr

section Steps

variable {Tid : Type} [DecidableEq Tid]

namespace State

/-- A caller moves on. -/
def goto
    (state : State Tid)
    (caller : Caller Tid)
    (pc : Pc) :
    State Tid :=
  { state with calls := Function.update state.calls caller pc }

omit [DecidableEq Tid] in
/-- A loop thread moves on. -/
def enter
    (state : State Tid)
    (thread : Nat)
    (phase : Phase) :
    State Tid :=
  { state with
    threads := Function.update state.threads thread (some phase) }

omit [DecidableEq Tid] in
/-- `gstIns` is written. -/
def setIns (state : State Tid) (gstIns : WmIns) : State Tid :=
  { state with gstIns }

omit [DecidableEq Tid] in
/-- A `wm_epoll_t` is written, or freed. -/
def setHandle
    (state : State Tid)
    (handle : Nat)
    (epoll : Option WmEpollT) :
    State Tid :=
  { state with handles := Function.update state.handles handle epoll }

omit [DecidableEq Tid] in
/-- An `evt_t` is written, or freed. -/
def setEvt
    (state : State Tid)
    (evt : Nat)
    (value : Option Int32) :
    State Tid :=
  { state with evts := Function.update state.evts evt value }

omit [DecidableEq Tid] in
/-- A descriptor is opened, or closed. -/
def setFile
    (state : State Tid)
    (fd : Int32)
    (file : Option OpenFile) :
    State Tid :=
  { state with files := Function.update state.files fd file }

omit [DecidableEq Tid] in
/-- The program has used freed memory, or joined what it must not join. -/
def fault (state : State Tid) : State Tid :=
  { state with undefined := true }

end State

omit [DecidableEq Tid] in
/-- A loop thread calls only from within a callback. -/
def State.mayCall (state : State Tid) : Caller Tid → Bool
  | .app _ =>
      true
  | .loop thread =>
      match state.threads thread with
      | some (.dispatch (_ :: _)) =>
          true
      | _ =>
          false

/-- `wm_epoll_start` up to its test. -/
def wmEpollStart
    (state : State Tid)
    (caller : Caller Tid) :
    State Tid :=
  if state.gstIns.loop then state else state.goto caller .startLoop

/-- `wm_epoll_stop` up to its test. -/
def wmEpollStop
    (state : State Tid)
    (caller : Caller Tid) :
    State Tid :=
  if state.gstIns.loop then state.goto caller .stopLoop else state

/-- `wm_epoll_handle` up to its test; `phandle` is a valid pointer. -/
def wmEpollHandle
    (state : State Tid)
    (caller : Caller Tid) :
    State Tid :=
  if state.gstIns.loop then state.goto caller .handleRead else state

/-- `evt_mtx_create`; `memory` is the answer of `calloc`. -/
def evtMtxCreate
    (state : State Tid)
    (memory : Option Nat) :
    State Tid :=
  match memory with
  | none =>
      state
  | some evt =>
      (state.setEvt evt (some 0)).setIns
        { state.gstIns with evtHandle := some evt }

/-- `pthread_create`. -/
def pthreadCreate
    (state : State Tid)
    (accepts : Bool) :
    State Tid :=
  if accepts then
    { state.enter state.created .create with
      gstIns := { state.gstIns with thrId := some state.created }
      created := state.created + 1 }
  else
    state

/-- `pthread_join`: a thread that joins itself gets `EDEADLK`. -/
def pthreadJoin?
    (state : State Tid)
    (caller : Caller Tid) :
    Option (State Tid) :=
  match state.gstIns.thrId with
  | none =>
      some state.fault
  | some thread =>
      if caller = .loop thread then
        some (state.goto caller .stopMemset)
      else
        match state.threads thread with
        | some .finished =>
            some ((state.enter thread .joined).goto caller .stopMemset)
        | none | some .joined =>
            some state.fault
        | some _ =>
            none

/-- `evt_mtx_wait` without a timeout, once it is inside the loop. -/
def evtMtxWaiting?
    (state : State Tid)
    (caller : Caller Tid)
    (evt : Nat) :
    Option (State Tid) :=
  match state.evts evt with
  | none =>
      some state.fault
  | some value =>
      if value = 1 then
        some ((state.setEvt evt (some 0)).goto caller .startDestroy)
      else
        none

/-- `evt_mtx_destroy`. -/
def evtMtxDestroy (state : State Tid) : State Tid :=
  match state.gstIns.evtHandle with
  | none =>
      state
  | some evt =>
      match state.evts evt with
      | none =>
          state.fault
      | some _ =>
          state.setEvt evt none

omit [DecidableEq Tid] in
/-- A handle that `wm_epoll_handle` gives away. -/
def State.give (state : State Tid) : State Tid :=
  { state with
    given := state.gstIns.handle :: state.given
    gaveFreed :=
      state.gaveFreed ||
        match state.gstIns.handle with
        | none =>
            false
        | some handle =>
            (state.handles handle).isNone }

/-- The next step of the call that a caller is in. -/
def callStep?
    (state : State Tid)
    (caller : Caller Tid)
    (answers : Answers) :
    Option (State Tid) :=
  match state.calls caller with
  | .outside =>
      none
  | .startLoop =>
      some ((state.setIns { state.gstIns with loop := true }).goto caller
        .startEvt)
  | .startEvt =>
      if ∀ evt ∈ answers.memory, state.evts evt = none then
        some ((evtMtxCreate state answers.memory).goto caller .startCreate)
      else
        none
  | .startCreate =>
      some ((pthreadCreate state answers.accepts).goto caller .startWait)
  | .startWait =>
      match state.gstIns.evtHandle with
      | none =>
          some (state.goto caller .startDestroy)
      | some evt =>
          some (state.goto caller (.startWaiting evt))
  | .startWaiting evt =>
      evtMtxWaiting? state caller evt
  | .startDestroy =>
      some ((evtMtxDestroy state).goto caller .outside)
  | .stopLoop =>
      some ((state.setIns { state.gstIns with loop := false }).goto caller
        .stopTimer)
  | .stopTimer =>
      let set := wmEpollTimerSet state.files state.gstIns.idleFd 10 10
      some ({ state with files := set.1 }.goto caller .stopJoin)
  | .stopJoin =>
      pthreadJoin? state caller
  | .stopMemset =>
      some ((state.setIns WmIns.zero).goto caller .outside)
  | .handleRead =>
      some (state.give.goto caller .outside)

/-- `wm_epoll_create` in `ep_thread`. -/
def loopCreate
    (state : State Tid)
    (thread : Nat)
    (memory : Option Nat)
    (fd : Option Int32) :
    State Tid :=
  match memory, fd with
  | some handle, some fd =>
      ((state.setFile fd (some ⟨.epoll, some thread⟩)).setHandle handle
        (some ⟨fd, []⟩)).setIns
          { state.gstIns with handle := some handle }
  | _, _ =>
      state

/-- `wm_epoll_timer_open` in `ep_thread`. -/
def loopOpenTimer
    (state : State Tid)
    (thread : Nat)
    (created : Option Int32) :
    State Tid :=
  let opened := wmEpollTimerOpen state.files (some thread) created 100 3000
  { state with
    files := opened.1
    gstIns := { state.gstIns with idleFd := opened.2 } }

/-- `wm_epoll_add` of a descriptor to a handle that is not null. -/
def addFd
    (state : State Tid)
    (handle : Nat)
    (epoll : WmEpollT)
    (fd : Int32) :
    State Tid :=
  if fd ∈ epoll.head then
    state
  else
    state.setHandle handle (some { epoll with head := fd :: epoll.head })

omit [DecidableEq Tid] in
/-- The idle timer of a thread is open, but not watched. -/
def State.leaveUnwatched
    (state : State Tid)
    (thread : Nat) :
    State Tid :=
  { state with unwatched := thread :: state.unwatched }

/-- `wm_epoll_add` of the idle timer in `ep_thread`. -/
def loopAdd
    (state : State Tid)
    (thread : Nat)
    (accepts : Bool) :
    State Tid :=
  match state.gstIns.handle with
  | none =>
      state.leaveUnwatched thread
  | some handle =>
      match state.handles handle with
      | none =>
          state.fault
      | some epoll =>
          if accepts ∧ (state.files state.gstIns.idleFd).isSome then
            addFd state handle epoll state.gstIns.idleFd
          else
            state.leaveUnwatched thread

/-- `evt_mtx_signal` in `ep_thread`. -/
def loopSignal (state : State Tid) : State Tid :=
  match state.gstIns.evtHandle with
  | none =>
      state
  | some evt =>
      match state.evts evt with
      | none =>
          state.fault
      | some value =>
          if value = 0 then state.setEvt evt (some 1) else state

omit [DecidableEq Tid] in
/-- `epoll_wait` reports a descriptor; a timer has to be armed for it. -/
def State.ready (state : State Tid) (fd : Int32) : Bool :=
  match state.files fd with
  | none =>
      false
  | some ⟨.timer its, _⟩ =>
      its.armed
  | some _ =>
      true

/-- The size of the array that `wm_epoll_wait` gives to `epoll_wait`. -/
def maxEvents : Nat :=
  32

omit [DecidableEq Tid] in
/-- `epoll_wait` reports ready descriptors of the list, none of them twice. -/
def State.Reports
    (state : State Tid)
    (epoll : WmEpollT)
    (ready : List Int32) :
    Prop :=
  ready.Nodup ∧ ready.length ≤ maxEvents ∧
    ∀ fd ∈ ready, fd ∈ epoll.head ∧ state.ready fd

omit [DecidableEq Tid] in
instance
    (state : State Tid)
    (epoll : WmEpollT)
    (ready : List Int32) :
    Decidable (state.Reports epoll ready) :=
  haveI : Decidable (∀ fd ∈ ready, fd ∈ epoll.head ∧ state.ready fd) :=
    List.decidableBAll _ ready
  inferInstanceAs
    (Decidable
      (ready.Nodup ∧ ready.length ≤ maxEvents ∧
        ∀ fd ∈ ready, fd ∈ epoll.head ∧ state.ready fd))

omit [DecidableEq Tid] in
/-- A descriptor that the kernel gives out was not open. -/
def State.Unused (state : State Tid) (fd : Option Int32) : Prop :=
  ∀ fd' ∈ fd, 0 ≤ fd' ∧ state.files fd' = none

omit [DecidableEq Tid] in
instance (state : State Tid) (fd : Option Int32) :
    Decidable (state.Unused fd) :=
  Option.decidableForallMem fd

/--
`wm_epoll_wait` once it is in the kernel: some ready descriptors, or an
interruption.
-/
def loopWait?
    (state : State Tid)
    (thread handle : Nat)
    (ready : List Int32) :
    Option (State Tid) :=
  match state.handles handle with
  | none =>
      some state.fault
  | some epoll =>
      match ready with
      | [] =>
          some (state.enter thread .testLoop)
      | first :: rest =>
          if state.Reports epoll (first :: rest) then
            some (state.enter thread (.dispatch (first :: rest)))
          else
            none

/--
The loop of `wm_epoll_destroy` and what is behind it: one event after the other
is closed and freed, and at the end the epoll descriptor and the handle.
-/
def loopClosing
    (state : State Tid)
    (thread handle : Nat) :
    State Tid :=
  match state.handles handle with
  | none =>
      state.fault
  | some ⟨fd, []⟩ =>
      ((state.setFile fd none).setHandle handle none).enter thread .finished
  | some ⟨fd, pos :: rest⟩ =>
      (state.setFile pos none).setHandle handle (some ⟨fd, rest⟩)

/-- The next step of a loop thread. -/
def loopStep?
    (state : State Tid)
    (thread : Nat)
    (answers : Answers) :
    Option (State Tid) :=
  match state.threads thread with
  | none | some .finished | some .joined =>
      none
  | some .create =>
      if (∀ handle ∈ answers.memory, state.handles handle = none) ∧
          state.Unused answers.fd then
        some ((loopCreate state thread answers.memory answers.fd).enter
          thread .openTimer)
      else
        none
  | some .openTimer =>
      if state.Unused answers.fd then
        some ((loopOpenTimer state thread answers.fd).enter thread .add)
      else
        none
  | some .add =>
      some ((loopAdd state thread answers.accepts).enter thread .signal)
  | some .signal =>
      some ((loopSignal state).enter thread .testLoop)
  | some .testLoop =>
      if state.gstIns.loop then
        some (state.enter thread .callWait)
      else
        some (state.enter thread .destroy)
  | some .callWait =>
      match state.gstIns.handle with
      | none =>
          some (state.enter thread .testLoop)
      | some handle =>
          some (state.enter thread (.epollWait handle))
  | some (.epollWait handle) =>
      loopWait? state thread handle answers.ready
  | some (.dispatch []) =>
      some (state.enter thread .testLoop)
  | some (.dispatch (_ :: rest)) =>
      if state.calls (.loop thread) = .outside then
        some (state.enter thread (.dispatch rest))
      else
        none
  | some .destroy =>
      match state.gstIns.handle with
      | none =>
          some (state.enter thread .finished)
      | some handle =>
          some (state.enter thread (.closing handle))
  | some (.closing handle) =>
      some (loopClosing state thread handle)

/-- A call, a step in a call, a step of a loop, or a use of descriptors. -/
inductive Action (Tid : Type) where
  | start (caller : Caller Tid)
  | stop (caller : Caller Tid)
  | handle (caller : Caller Tid)
  | call (caller : Caller Tid) (answers : Answers)
  | loop (thread : Nat) (answers : Answers)
  | openFd (fd : Int32) (kind : Kind)
  | closeFd (fd : Int32)
  | addFd (caller : Caller Tid) (handle : Nat) (fd : Int32)
  | removeFd (caller : Caller Tid) (handle : Nat) (fd : Int32)
  deriving DecidableEq

omit [DecidableEq Tid] in
/-- A descriptor that the application has opened. -/
def State.owns (state : State Tid) (fd : Int32) : Bool :=
  match state.files fd with
  | some ⟨_, none⟩ =>
      true
  | _ =>
      false

omit [DecidableEq Tid] in
/-- The current handle, if it is there, watches a descriptor. -/
def State.watches (state : State Tid) (fd : Int32) : Bool :=
  match state.gstIns.handle with
  | none =>
      false
  | some handle =>
      match state.handles handle with
      | none =>
          false
      | some epoll =>
          decide (fd ∈ epoll.head)

/-- The application starts one of the three calls. -/
def enterCall
    (state : State Tid)
    (caller : Caller Tid)
    (called : State Tid → Caller Tid → State Tid) :
    Option (State Tid) :=
  if state.calls caller = .outside ∧ state.mayCall caller then
    some (called state caller)
  else
    none

/-- One step. -/
def step? (state : State Tid) : Action Tid → Option (State Tid)
  | .start caller =>
      enterCall state caller wmEpollStart
  | .stop caller =>
      enterCall state caller wmEpollStop
  | .handle caller =>
      enterCall state caller wmEpollHandle
  | .call caller answers =>
      callStep? state caller answers
  | .loop thread answers =>
      loopStep? state thread answers
  | .openFd fd kind =>
      if 0 ≤ fd ∧ state.files fd = none then
        some (state.setFile fd (some ⟨kind, none⟩))
      else
        none
  | .closeFd fd =>
      if state.owns fd ∧ state.watches fd = false then
        some (state.setFile fd none)
      else
        none
  | .addFd caller handle fd =>
      if state.mayCall caller ∧ state.owns fd then
        (state.handles handle).map fun epoll =>
          WmEpollLoop.addFd state handle epoll fd
      else
        none
  | .removeFd caller handle fd =>
      if state.mayCall caller ∧ state.owns fd then
        (state.handles handle).map fun epoll =>
          state.setHandle handle
            (some { epoll with head := epoll.head.erase fd })
      else
        none

/-- Before the first call: a process with some descriptors open. -/
def machine : Machine (State Tid) (Action Tid) where
  Initial := fun state =>
    ∃ files : Files,
      (∀ fd file, files fd = some file → 0 ≤ fd ∧ file.opener = none) ∧
      state =
        { gstIns := WmIns.zero
          handles := fun _ => none
          evts := fun _ => none
          files
          created := 0
          threads := fun _ => none
          calls := fun _ => .outside
          undefined := false
          given := []
          gaveFreed := false
          unwatched := [] }
  step? := step?

end Steps

end WkcRuntime.WmEpollLoop
