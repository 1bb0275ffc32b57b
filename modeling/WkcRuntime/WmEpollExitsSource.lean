import WkcRuntime.WmEpollRegistrySource

namespace WkcRuntime.WmEpoll

/-!
# Exit callbacks that call back into the library

`wm_epoll_remove` and `wm_epoll_destroy` once more, with exit callbacks that
call `wm_epoll_remove` and `wm_epoll_modify` on the same handle, so that removals
nest.  What the callbacks do may depend on all exits called so far; it is given
as a function of these, so that every choice a callback can make is covered.

A call returns a handle or stops: at a read of memory that is not in use, or
because it is still running when the fuel is used up.
-/

/-- A call that an exit callback makes on its handle. -/
inductive ExitCall where
  | remove (fd : Int32)
  | modify (fd : Int32) (events : UInt32) (accepts : Bool)
  deriving DecidableEq, Repr

/-- The calls of an exit callback, given all exits so far, its own the last. -/
abbrev ExitBehaviour :=
  List (Call × Nat) → List ExitCall

/-- Why a call has not returned. -/
inductive Stop where
  | readFreed
  | running
  deriving DecidableEq, Repr

namespace Handle

/-- Run the exit callback of an event that was taken out, if it has one. -/
def callExit
    (body : Handle → Except Stop Handle)
    (handle : Handle)
    (registration : Registration) :
    Except Stop Handle :=
  match exitOf registration with
  | none =>
      .ok handle
  | some _ =>
      body handle

/-- `wm_epoll_remove`. -/
def wmEpollRemoveWith
    (body : Handle → Except Stop Handle)
    (handle : Handle)
    (fd : Int32) :
    Except Stop Handle :=
  match handle.findFd fd handle.rounds (handle.links.next .head) with
  | none =>
      .error .readFreed
  | some none =>
      .ok handle
  | some (some (pos, registration)) =>
      match callExit body (handle.detach pos registration)
          registration with
      | .error stop =>
          .error stop
      | .ok after =>
          .ok (after.freeEvent pos)

/-- One call of an exit callback. -/
def exitCall
    (body : Handle → Except Stop Handle)
    (handle : Handle) :
    ExitCall → Except Stop Handle
  | .remove fd =>
      handle.wmEpollRemoveWith body fd
  | .modify fd events accepts =>
      match handle.wmEpollModify fd events accepts with
      | none =>
          .error .readFreed
      | some outcome =>
          .ok outcome.1

/-- The calls of an exit callback, in their order. -/
def exitCalls
    (body : Handle → Except Stop Handle) :
    List ExitCall → Handle → Except Stop Handle
  | [], handle =>
      .ok handle
  | call :: rest, handle =>
      match handle.exitCall body call with
      | .error stop =>
          .error stop
      | .ok next =>
          exitCalls body rest next

/-- The body of an exit callback, in whose calls others may nest. -/
def exitBody
    (behaviour : ExitBehaviour) :
    Nat → Handle → Except Stop Handle
  | 0, _ =>
      .error .running
  | depth + 1, handle =>
      exitCalls (exitBody behaviour depth)
        (behaviour handle.exits) handle

/--
The loop of `wm_epoll_destroy`: `n` is the successor of `pos`, read before the
exit callback of the event at `pos` is called.
-/
def destroyLoopWith
    (body : Handle → Except Stop Handle) :
    Nat → Node → Node → Handle → Except Stop Handle
  | 0, _, _, _ =>
      .error .running
  | _ + 1, .head, _, handle =>
      .ok handle
  | fuel + 1, .event pos, n, handle =>
      match handle.heap pos with
      | none =>
          .error .readFreed
      | some registration =>
          match callExit body (handle.detach pos registration)
              registration with
          | .error stop =>
              .error stop
          | .ok after =>
              match after.heap pos with
              | none =>
                  .error .readFreed
              | some exited =>
                  let freed :=
                    (after.closeFd exited.1.fd).freeEvent pos
                  match freed.nextOf? n with
                  | none =>
                      .error .readFreed
                  | some later =>
                      destroyLoopWith body fuel n later freed
  | _ + 1, .null, _, _ | _ + 1, .poison1, _, _ | _ + 1, .poison2, _, _ =>
      .error .readFreed

/-- `wm_epoll_destroy` up to the release of the handle itself. -/
def wmEpollDestroyWith
    (behaviour : ExitBehaviour)
    (handle : Handle) :
    Except Stop Handle :=
  match handle.nextOf? (handle.links.next .head) with
  | none =>
      .error .readFreed
  | some n =>
      destroyLoopWith (exitBody behaviour handle.rounds) handle.rounds
        (handle.links.next .head) n handle

end Handle

end WkcRuntime.WmEpoll
