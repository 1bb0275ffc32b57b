import Mathlib.Logic.Function.Basic
import WkcRuntime.Machine

namespace WkcRuntime.WmEpoll

/-!
# Events registered with an epoll handle

`ipc/wm_epoll.c` on one open handle.  The kernel keeps, for each descriptor of
its interest list, the events and the pointer to a `wm_event_t` that
`epoll_ctl` was given; `epoll_wait` copies the pointers of some ready descriptors
into a batch, and `wm_epoll_wait` follows them one by one.  Between two of them
the callbacks and other threads may call any function on the handle; the exit
callback of `wm_epoll_remove` runs between the unlinking of its event and
`free`.

Every successful `wm_epoll_add` is a registration with a number of its own.
`removed` collects the numbers of the removed ones; `readFreed` and
`calledRemoved` record that the dispatch loop has followed a pointer to freed
memory or called the callback of a removed registration.
-/

/-- The address of a `wm_event_t`. -/
abbrev Addr := Nat

/-- `wm_pfn_t`, the address of a callback. -/
abbrev WmPfn := Nat

/-- A `void *` argument. -/
abbrev Arg := Nat

/-- `wm_event_t`; the list node is a position in the list of the handle. -/
structure WmEvent where
  fd : Int32
  pfnEvent : WmPfn
  parg1 : Arg
  pfnExit : Option WmPfn
  parg2 : Arg
  deriving DecidableEq, Repr

/-- One call of a callback. -/
structure Call where
  pfn : WmPfn
  fd : Int32
  arg : Arg
  deriving DecidableEq, Repr

/-- The handle, the kernel, the running calls and the history. -/
structure State where
  heap : Addr → Option (WmEvent × Nat)
  head : List Addr
  interest : Int32 → Option (UInt32 × Addr)
  batch : List Addr
  exiting : List Addr
  calls : List Call
  registrations : Nat
  removed : List Nat
  readFreed : Bool
  calledRemoved : Bool

/-- `wm_epoll_create`. -/
def wmEpollCreate : State where
  heap := fun _ => none
  head := []
  interest := fun _ => none
  batch := []
  exiting := []
  calls := []
  registrations := 0
  removed := []
  readFreed := false
  calledRemoved := false

/-- The first event in the list with a descriptor. -/
def State.findFd (state : State) (fd : Int32) : Option Addr :=
  state.head.find? fun pos =>
    match state.heap pos with
    | none =>
        false
    | some (event, _) =>
        decide (event.fd = fd)

/-- Put a new event into the list and into the kernel. -/
def State.link
    (state : State)
    (pe : Addr)
    (event : WmEvent)
    (events : UInt32) :
    State :=
  { state with
    heap := Function.update state.heap pe
      (some (event, state.registrations))
    interest := Function.update state.interest event.fd
      (some (events, pe))
    head := pe :: state.head
    registrations := state.registrations + 1 }

/--
`wm_epoll_add`; `memory` is the answer of `calloc`, and `accepts` tells whether
`epoll_ctl` has no other reason to fail than a descriptor that it already has.
-/
def wmEpollAdd
    (state : State)
    (fd : Int32)
    (events : UInt32)
    (pevent : Option WmPfn)
    (pArg1 : Arg)
    (pexit : Option WmPfn)
    (pArg2 : Arg)
    (memory : Option Addr)
    (accepts : Bool) :
    State × Int32 :=
  match pevent, memory with
  | some pfnEvent, some pe =>
      if accepts then
        match state.interest fd with
        | some _ =>
            (state, 0)
        | none =>
            (state.link pe ⟨fd, pfnEvent, pArg1, pexit, pArg2⟩ events, 0)
      else
        (state, -1)
  | _, _ =>
      (state, -1)

/-- Give the kernel new events for a watched descriptor. -/
def State.watch
    (state : State)
    (fd : Int32)
    (events : UInt32)
    (pos : Addr) :
    State :=
  { state with
    interest := Function.update state.interest fd (some (events, pos)) }

/-- `wm_epoll_modify`; a failure of `epoll_ctl` is only logged. -/
def wmEpollModify
    (state : State)
    (fd : Int32)
    (events : UInt32)
    (accepts : Bool) :
    State × Int32 :=
  match state.findFd fd with
  | none =>
      (state, -1)
  | some pos =>
      if accepts ∧ (state.interest fd).isSome then
        (state.watch fd events pos, 0)
      else
        (state, 0)

/-- `free` of an event. -/
def State.freeEvent (state : State) (pos : Addr) : State :=
  { state with heap := Function.update state.heap pos none }

/-- Take an event out of the list and out of the kernel. -/
def State.unlink
    (state : State)
    (pos : Addr)
    (fd : Int32)
    (registration : Nat) :
    State :=
  { state with
    head := state.head.erase pos
    interest := Function.update state.interest fd none
    removed := registration :: state.removed }

/--
`wm_epoll_remove` up to its exit callback: the event leaves the list and the
kernel.  Without an exit callback it is freed at once.
-/
def wmEpollRemove (state : State) (fd : Int32) : State :=
  match state.findFd fd with
  | none =>
      state
  | some pos =>
      match state.heap pos with
      | none =>
          state
      | some (event, registration) =>
          match event.pfnExit with
          | none =>
              (state.unlink pos fd registration).freeEvent pos
          | some pfnExit =>
              { state.unlink pos fd registration with
                calls := state.calls ++ [⟨pfnExit, event.fd, event.parg2⟩]
                exiting := pos :: state.exiting }

/-- `wm_epoll_remove` behind its exit callback. -/
def wmEpollRemoveEnd (state : State) (pos : Addr) : Option State :=
  if pos ∈ state.exiting then
    some { state.freeEvent pos with exiting := state.exiting.erase pos }
  else
    none

/-- The size of the array that `wm_epoll_wait` gives to `epoll_wait`. -/
def maxEvents : Nat :=
  32

/--
`epoll_wait` of `wm_epoll_wait`: the pointers of some ready descriptors, each
of the interest list and none twice.
-/
def epollWait (state : State) (ready : List Int32) : Option State :=
  if state.batch = [] ∧ ready.Nodup ∧ ready.length ≤ maxEvents ∧
      ready.all (fun fd => (state.interest fd).isSome) then
    some { state with
      batch := ready.filterMap fun fd =>
        (state.interest fd).map Prod.snd }
  else
    none

/-- One round of the loop in `wm_epoll_wait`. -/
def dispatch (state : State) : Option State :=
  match state.batch with
  | [] =>
      none
  | pe :: rest =>
      match state.heap pe with
      | none =>
          some { state with batch := rest, readFreed := true }
      | some (event, registration) =>
          some { state with
            batch := rest
            calls := state.calls ++
              [⟨event.pfnEvent, event.fd, event.parg1⟩]
            calledRemoved :=
              state.calledRemoved ||
                decide (registration ∈ state.removed) }

/-- A step of the loop, of a callback or of another thread. -/
inductive Action where
  | add
      (fd : Int32)
      (events : UInt32)
      (pevent : Option WmPfn)
      (pArg1 : Arg)
      (pexit : Option WmPfn)
      (pArg2 : Arg)
      (memory : Option Addr)
      (accepts : Bool)
  | modify (fd : Int32) (events : UInt32) (accepts : Bool)
  | remove (fd : Int32)
  | removeEnd (pos : Addr)
  | epollWait (ready : List Int32)
  | dispatch
  deriving DecidableEq, Repr

/-- One step; `calloc` answers with memory that is not in use. -/
def step? (state : State) : Action → Option State
  | .add fd events pevent pArg1 pexit pArg2 memory accepts =>
      if ∀ pe ∈ memory, state.heap pe = none then
        some (wmEpollAdd state fd events pevent pArg1 pexit pArg2
          memory accepts).1
      else
        none
  | .modify fd events accepts =>
      some (wmEpollModify state fd events accepts).1
  | .remove fd =>
      some (wmEpollRemove state fd)
  | .removeEnd pos =>
      wmEpollRemoveEnd state pos
  | .epollWait ready =>
      WmEpoll.epollWait state ready
  | .dispatch =>
      WmEpoll.dispatch state

/-- All runs on one handle, from `wm_epoll_create` on. -/
def machine : Machine State Action where
  Initial := fun state => state = wmEpollCreate
  step? := step?

end WkcRuntime.WmEpoll
