import WkcRuntime.CircularList
import WkcRuntime.WmEpollSource

namespace WkcRuntime.WmEpoll

open CircularList

/-!
# The list and the kernel behind an epoll handle

The same functions of `ipc/wm_epoll.c` as in the model of the dispatch loop, one
level lower: the events of a handle are chained by the nodes of `utils/list.h`,
the loops follow those nodes, and `epoll_ctl` is a function of its own with
error codes.  The callbacks do not call back into the library, so every
operation runs without a break, and `wm_epoll_destroy` ends the handle.

A loop gives no result when it reads memory that is not in use or runs out of
fuel.  `made` and `exits` are the history: the registrations in the order of
their numbers, newest first, and the exit callbacks that were called.
-/

/-- The places of a `struct list_head`, and the other values of its fields. -/
inductive Node where
  | null
  | head
  | event (pos : Addr)
  | poison1
  | poison2
  deriving DecidableEq, Repr

/-- What the kernel keeps for each descriptor. -/
abbrev Interest :=
  Int32 → Option (UInt32 × Addr)

/-- The reasons of `epoll_ctl` to fail. -/
inductive Errno where
  | eexist
  | enoent
  | other
  deriving DecidableEq, Repr

/-- `EPOLL_CTL_ADD`; `accepts` excludes every reason but `EEXIST`. -/
def ctlAdd
    (interest : Interest)
    (fd : Int32)
    (events : UInt32)
    (pointer : Addr)
    (accepts : Bool) :
    Except Errno Interest :=
  if accepts then
    match interest fd with
    | some _ =>
        .error .eexist
    | none =>
        .ok (Function.update interest fd (some (events, pointer)))
  else
    .error .other

/-- `EPOLL_CTL_MOD`; `accepts` excludes every reason but `ENOENT`. -/
def ctlMod
    (interest : Interest)
    (fd : Int32)
    (events : UInt32)
    (pointer : Addr)
    (accepts : Bool) :
    Except Errno Interest :=
  if accepts then
    match interest fd with
    | some _ =>
        .ok (Function.update interest fd (some (events, pointer)))
    | none =>
        .error .enoent
  else
    .error .other

/-- `EPOLL_CTL_DEL`. -/
def ctlDel
    (interest : Interest)
    (fd : Int32) :
    Except Errno Interest :=
  match interest fd with
  | some _ =>
      .ok (Function.update interest fd none)
  | none =>
      .error .enoent

/-- An event and the number of its registration. -/
abbrev Registration :=
  WmEvent × Nat

/-- The call of the exit callback of a registration, if it has one. -/
def exitOf (registration : Registration) : Option (Call × Nat) :=
  registration.1.pfnExit.map fun pfnExit =>
    (⟨pfnExit, registration.1.fd, registration.1.parg2⟩, registration.2)

/-- The memory of a handle, its kernel object and the history. -/
structure Handle where
  links : Links Node
  heap : Addr → Option Registration
  interest : Interest
  made : List Registration
  removed : List Nat
  exits : List (Call × Nat)
  closed : List Int32

namespace Handle

/-- `wm_epoll_create`. -/
def wmEpollCreate : Handle where
  links := initListHead ⟨fun _ => .null, fun _ => .null⟩ .head
  heap := fun _ => none
  interest := fun _ => none
  made := []
  removed := []
  exits := []
  closed := []

/-- More rounds than a loop over the list can take. -/
def rounds (handle : Handle) : Nat :=
  handle.made.length + 1

/-- The nodes of the list from the first one on. -/
def nodes (handle : Handle) : Option (List Node) :=
  walk handle.links .head handle.rounds (handle.links.next .head)

/-- The successor of a node in memory that is in use. -/
def nextOf? (handle : Handle) : Node → Option Node
  | .head =>
      some (handle.links.next .head)
  | .event pos =>
      (handle.heap pos).map fun _ => handle.links.next (.event pos)
  | .null | .poison1 | .poison2 =>
      none

/-- The answer of `calloc` with the values that `wm_epoll_add` puts there. -/
def storeEvent
    (handle : Handle)
    (pe : Addr)
    (registration : Registration) :
    Handle :=
  { handle with
    heap := Function.update handle.heap pe (some registration) }

/-- `free` of an event. -/
def freeEvent (handle : Handle) (pos : Addr) : Handle :=
  { handle with heap := Function.update handle.heap pos none }

/-- The kernel has taken an event, and `list_add` puts it into the list. -/
def link
    (handle : Handle)
    (pe : Addr)
    (registration : Registration)
    (interest : Interest) :
    Handle :=
  { handle with
    interest
    links := listAdd handle.links (.event pe) .head
    made := registration :: handle.made }

/-- `wm_epoll_add`; `memory` is the answer of `calloc`. -/
def wmEpollAdd
    (handle : Handle)
    (fd : Int32)
    (events : UInt32)
    (pevent : Option WmPfn)
    (pArg1 : Arg)
    (pexit : Option WmPfn)
    (pArg2 : Arg)
    (memory : Option Addr)
    (accepts : Bool) :
    Handle × Int32 :=
  match pevent, memory with
  | some pfnEvent, some pe =>
      let registration : Registration :=
        (⟨fd, pfnEvent, pArg1, pexit, pArg2⟩, handle.made.length)
      let stored := handle.storeEvent pe registration
      match ctlAdd stored.interest fd events pe accepts with
      | .error errno =>
          (stored.freeEvent pe, if errno = .eexist then 0 else -1)
      | .ok interest =>
          (stored.link pe registration interest, 0)
  | _, _ =>
      (handle, -1)

/--
The loop of `wm_epoll_modify` and `wm_epoll_remove`: the first event with a
descriptor, and what is stored there.
-/
def findFd
    (handle : Handle)
    (fd : Int32) :
    Nat → Node → Option (Option (Addr × Registration))
  | _ + 1, .head =>
      some none
  | fuel + 1, .event pos =>
      match handle.heap pos with
      | none =>
          none
      | some registration =>
          if registration.1.fd = fd then
            some (some (pos, registration))
          else
            handle.findFd fd fuel (handle.links.next (.event pos))
  | _, _ =>
      none

/-- `wm_epoll_modify`; an error of `epoll_ctl` is only logged. -/
def wmEpollModify
    (handle : Handle)
    (fd : Int32)
    (events : UInt32)
    (accepts : Bool) :
    Option (Handle × Int32) :=
  match handle.findFd fd handle.rounds (handle.links.next .head) with
  | none =>
      none
  | some none =>
      some (handle, -1)
  | some (some (pos, registration)) =>
      match ctlMod handle.interest registration.1.fd events pos accepts with
      | .ok interest =>
          some ({ handle with interest }, 0)
      | .error _ =>
          some (handle, 0)

/--
What `wm_epoll_remove` and `wm_epoll_destroy` do with an event before they free
it: `list_del`, `EPOLL_CTL_DEL`, whose error is only logged, and the exit
callback.
-/
def detach
    (handle : Handle)
    (pos : Addr)
    (registration : Registration) :
    Handle :=
  { handle with
    links := listDel handle.links .poison1 .poison2 (.event pos)
    interest :=
      match ctlDel handle.interest registration.1.fd with
      | .ok interest =>
          interest
      | .error _ =>
          handle.interest
    removed := registration.2 :: handle.removed
    exits := handle.exits ++ (exitOf registration).toList }

/-- `wm_epoll_remove`. -/
def wmEpollRemove (handle : Handle) (fd : Int32) : Option Handle :=
  match handle.findFd fd handle.rounds (handle.links.next .head) with
  | none =>
      none
  | some none =>
      some handle
  | some (some (pos, registration)) =>
      some ((handle.detach pos registration).freeEvent pos)

/-- `close` of the descriptor of an event. -/
def closeFd (handle : Handle) (fd : Int32) : Handle :=
  { handle with closed := handle.closed ++ [fd] }

/--
The loop of `wm_epoll_destroy`: `n` is the successor of `pos`, read before the
body frees the event at `pos`.
-/
def destroyLoop : Nat → Node → Node → Handle → Option Handle
  | _ + 1, .head, _, handle =>
      some handle
  | fuel + 1, .event pos, n, handle =>
      match handle.heap pos with
      | none =>
          none
      | some registration =>
          let freed :=
            ((handle.detach pos registration).closeFd
              registration.1.fd).freeEvent pos
          match freed.nextOf? n with
          | none =>
              none
          | some later =>
              destroyLoop fuel n later freed
  | _, _, _, _ =>
      none

/-- `wm_epoll_destroy` up to the release of the handle itself. -/
def wmEpollDestroy (handle : Handle) : Option Handle :=
  match handle.nextOf? (handle.links.next .head) with
  | none =>
      none
  | some n =>
      destroyLoop handle.rounds (handle.links.next .head) n handle

end Handle

/-- An operation on the handle before it is destroyed. -/
inductive Operation where
  | add
      (fd : Int32)
      (events : UInt32)
      (pevent : Option WmPfn)
      (pArg1 : Arg)
      (pexit : Option WmPfn)
      (pArg2 : Arg)
      (memory : Option Addr)
      (accepts : Bool)
  | modify (fd : Int32) (events : UInt32) (accepts : Bool)
  | remove (fd : Int32)
  deriving DecidableEq, Repr

/-- `calloc` answers with memory that is not in use. -/
def Handle.MemoryUnused (handle : Handle) : Operation → Prop
  | .add _ _ _ _ _ _ memory _ =>
      ∀ pe ∈ memory, handle.heap pe = none
  | .modify .. | .remove _ =>
      True

instance (handle : Handle) :
    ∀ operation, Decidable (handle.MemoryUnused operation)
  | .add _ _ _ _ _ _ memory _ =>
      inferInstanceAs (Decidable (∀ pe ∈ memory, handle.heap pe = none))
  | .modify .. | .remove _ =>
      .isTrue trivial

/-- One operation. -/
def Handle.operate? (handle : Handle) : Operation → Option Handle
  | .add fd events pevent pArg1 pexit pArg2 memory accepts =>
      some (handle.wmEpollAdd fd events pevent pArg1 pexit pArg2
        memory accepts).1
  | .modify fd events accepts =>
      (handle.wmEpollModify fd events accepts).map Prod.fst
  | .remove fd =>
      handle.wmEpollRemove fd

/-- The sequences of operations on one handle. -/
def registry : Machine Handle Operation where
  Initial := fun handle => handle = Handle.wmEpollCreate
  step? := fun handle operation =>
    if handle.MemoryUnused operation then
      handle.operate? operation
    else
      none

end WkcRuntime.WmEpoll
