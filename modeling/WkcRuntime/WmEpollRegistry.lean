import WkcRuntime.WmEpollDispatch
import WkcRuntime.WmEpollRegistrySource

namespace WkcRuntime.WmEpoll

open CircularList

/-!
# The list and the kernel agree, and destruction cleans up

Read along the order of its list, a handle is a state of the dispatch model
whose loop never runs: each operation on the links is a run of that model.  The
agreement of list, kernel and memory is therefore the one proved there; what is
added is that the links spell out the order, that every loop ends within its
fuel and reads only memory in use, and that the exit callbacks called so far
and the ones still pending make up those of all registrations.
-/

/-- The handle as the dispatch model sees it, with the order of its list. -/
def Handle.toState (handle : Handle) (order : List Addr) : State where
  heap := handle.heap
  head := order
  interest := handle.interest
  batch := []
  exiting := []
  calls := handle.exits.map Prod.fst
  registrations := handle.made.length
  removed := handle.removed
  readFreed := false
  calledRemoved := false

/-- The exit callback that is still to be called for an event. -/
def Handle.pendingExit
    (handle : Handle)
    (pos : Addr) :
    Option (Call × Nat) :=
  (handle.heap pos).bind exitOf

/-- The descriptor of an event. -/
def Handle.fdOf (handle : Handle) (pos : Addr) : Option Int32 :=
  (handle.heap pos).map fun registration => registration.1.fd

/-- The links of a handle spell out an order that the dispatch model reaches. -/
structure Tracks (handle : Handle) (order : List Addr) : Prop where
  ring :
    Ring handle.links .head (order.map .event)
  simulated :
    machine.ReachableWhere SparesBatch (handle.toState order)
  owned :
    ∀ pos, handle.heap pos ≠ none → pos ∈ order
  few :
    order.length ≤ handle.made.length
  numbers :
    ∀ registration ∈ handle.made, registration.2 < handle.made.length
  exitsNodup :
    (handle.made.filterMap exitOf).Nodup
  balanced :
    (handle.exits ++ order.filterMap handle.pendingExit).Perm
      (handle.made.filterMap exitOf)

/-- The list and the kernel hold the same events, all in memory in use. -/
structure Handle.Agrees (handle : Handle) (order : List Addr) : Prop where
  listed :
    handle.nodes = some (order.map .event)
  nodup :
    order.Nodup
  watched :
    ∀ pos ∈ order,
      ∃ registration events,
        handle.heap pos = some registration ∧
          handle.interest registration.1.fd = some (events, pos)
  registered :
    ∀ fd events pos,
      handle.interest fd = some (events, pos) →
      pos ∈ order ∧
        ∃ registration,
          handle.heap pos = some registration ∧ registration.1.fd = fd

/-- What `wm_epoll_destroy` leaves behind of a handle. -/
structure Handle.Cleaned (handle final : Handle) : Prop where
  exitedOnce :
    ∀ registration ∈ handle.made, ∀ exit ∈ exitOf registration,
      final.exits.count exit = 1
  exitedOnly :
    ∀ exit ∈ final.exits,
      ∃ registration ∈ handle.made, exitOf registration = some exit
  closedOnce :
    ∀ fd,
      final.closed.count fd =
        if (handle.interest fd).isSome then 1 else 0
  freed :
    ∀ pos, final.heap pos = none

section Kernel

variable {interest next : Interest}
variable {fd : Int32}
variable {events : UInt32}
variable {pointer : Addr}
variable {accepts : Bool}

/-- `EPOLL_CTL_ADD` succeeds only on a descriptor that is not registered. -/
theorem ctlAdd_eq_ok_iff :
    ctlAdd interest fd events pointer accepts = .ok next ↔
      accepts = true ∧ interest fd = none ∧
        Function.update interest fd (some (events, pointer)) = next := by
  unfold ctlAdd
  cases accepts <;> cases interest fd <;> simp

/-- `EPOLL_CTL_MOD` succeeds only on a registered descriptor. -/
theorem ctlMod_eq_ok_iff :
    ctlMod interest fd events pointer accepts = .ok next ↔
      accepts = true ∧ (interest fd).isSome ∧
        Function.update interest fd (some (events, pointer)) = next := by
  unfold ctlMod
  cases accepts <;> cases interest fd <;> simp

/-- `EPOLL_CTL_DEL` succeeds on a registered descriptor. -/
theorem ctlDel_registered
    (registered : (interest fd).isSome) :
    ctlDel interest fd = .ok (Function.update interest fd none) := by
  obtain ⟨entry, isEntry⟩ := Option.isSome_iff_exists.mp registered
  simp [ctlDel, isEntry]

end Kernel

/-- The search in the list finds the listed event with a descriptor. -/
theorem Attached.findFd_eq
    {state : State}
    (attached : Attached state)
    {pos : Addr}
    {event : WmEvent}
    {registration : Nat}
    (member : pos ∈ state.head)
    (stored : state.heap pos = some (event, registration)) :
    state.findFd event.fd = some pos := by
  cases found : state.findFd event.fd with
  | none =>
      have missed := List.find?_eq_none.mp found pos member
      simp [stored] at missed
  | some other =>
      obtain ⟨otherMember, otherEvent, number, otherStored, same⟩ :=
        findFd_some found
      rw [attached.eq_of_fd_eq otherMember member otherStored stored same]

/-- The value of the first element stands before those of the others. -/
theorem filterMap_cons_toList
    {α β : Type}
    (value : α → Option β)
    (first : α)
    (rest : List α) :
    (first :: rest).filterMap value =
      (value first).toList ++ rest.filterMap value := by
  rw [List.filterMap_cons]
  cases value first <;> rfl

namespace Handle

variable {handle : Handle}

/-- Handles with the same memory have the same callbacks to call. -/
theorem filterMap_pendingExit_congr
    {next : Handle}
    {order : List Addr}
    (same : ∀ pos ∈ order, next.heap pos = handle.heap pos) :
    order.filterMap next.pendingExit =
      order.filterMap handle.pendingExit := by
  apply List.filterMap_congr
  intro pos member
  rw [pendingExit, pendingExit, same pos member]

/-- A registration that the list takes is the newest one. -/
theorem link_made
    {pe : Addr}
    {registration : Registration}
    {interest : Interest} :
    (handle.link pe registration interest).made =
      registration :: handle.made :=
  rfl

/-- Memory that is allocated and freed again is as before. -/
theorem freeEvent_storeEvent
    {pe : Addr}
    {registration : Registration}
    (unused : handle.heap pe = none) :
    (handle.storeEvent pe registration).freeEvent pe = handle := by
  have restored :
      Function.update (Function.update handle.heap pe (some registration))
        pe none = handle.heap := by
    rw [Function.update_idem, ← unused, Function.update_eq_self]
  simp only [storeEvent, freeEvent, restored]

/-- The search along a path of events in use finds what the list model finds. -/
theorem findFd_path
    {fd : Int32}
    {first : Node}
    {order : List Addr}
    {fuel : Nat}
    (path : Path handle.links first (order.map .event) .head)
    (used : ∀ pos ∈ order, handle.heap pos ≠ none)
    (enough : order.length < fuel) :
    handle.findFd fd fuel (handle.links.next first) =
      some
        (((handle.toState order).findFd fd).bind fun pos =>
          (handle.heap pos).map fun registration =>
            (pos, registration)) := by
  induction order generalizing first fuel with
  | nil =>
      obtain ⟨more, rfl⟩ := Nat.exists_eq_add_one.mpr enough
      have nextFirst : handle.links.next first = .head := path.1
      rw [nextFirst]
      rfl
  | cons pos rest inductionHypothesis =>
      obtain ⟨more, rfl⟩ :=
        Nat.exists_eq_add_one.mpr (Nat.zero_lt_of_lt enough)
      obtain ⟨⟨nextFirst, _⟩, later⟩ := path
      obtain ⟨registration, stored⟩ :=
        Option.ne_none_iff_exists'.mp (used pos List.mem_cons_self)
      have restFound :=
        inductionHypothesis later
          (fun other member => used other (List.mem_cons_of_mem _ member))
          (Nat.lt_of_succ_lt_succ enough)
      rw [nextFirst]
      by_cases isFd : registration.1.fd = fd
      · simp [findFd, State.findFd, toState, stored, isFd]
      · simp only [findFd, stored, if_neg isFd, restFound]
        simp [State.findFd, toState, stored, isFd]

/-- The successor of the first node is readable if all listed events are. -/
theorem exists_nextOf
    {order : List Addr}
    (path : Path handle.links .head (order.map .event) .head)
    (used :
      ∀ {pos},
        pos ∈ order →
        ∃ registration, handle.heap pos = some registration) :
    ∃ n, handle.nextOf? (handle.links.next .head) = some n := by
  cases order with
  | nil =>
      have nextHead : handle.links.next .head = .head := path.1
      exact ⟨.head, by rw [nextHead, nextOf?, nextHead]⟩
  | cons pos rest =>
      have nextHead : handle.links.next .head = .event pos := path.1.1
      obtain ⟨registration, stored⟩ := used List.mem_cons_self
      refine ⟨handle.links.next (.event pos), ?_⟩
      rw [nextHead, nextOf?, stored, Option.map_some]

end Handle

namespace Tracks

variable {handle : Handle}
variable {order : List Addr}

/-- The agreement of list, kernel and memory from the dispatch model. -/
theorem attached
    (tracks : Tracks handle order) :
    Attached (handle.toState order) :=
  (guarded_of_reachable tracks.simulated).attached

/-- The listed events are in memory in use. -/
theorem stored
    (tracks : Tracks handle order)
    {pos : Addr}
    (member : pos ∈ order) :
    ∃ registration, handle.heap pos = some registration := by
  obtain ⟨event, registration, _, stored, _⟩ :=
    tracks.attached.linked pos member
  exact ⟨(event, registration), stored⟩

/-- A new handle has an empty list. -/
theorem create :
    Tracks .wmEpollCreate [] where
  ring := Ring.init
  simulated := .initial rfl
  owned := fun _ used => (used rfl).elim
  few := Nat.le_refl 0
  numbers := fun _ member => by cases member
  exitsNodup := List.nodup_nil
  balanced := List.Perm.refl []

/-- The loops over the list have fuel enough. -/
theorem enough
    (tracks : Tracks handle order) :
    (order.map Node.event).length < handle.rounds := by
  rw [List.length_map]
  exact Nat.lt_succ_of_le tracks.few

/-- The loop that looks for a descriptor finds what the list model finds. -/
theorem findFd
    (tracks : Tracks handle order)
    (fd : Int32) :
    handle.findFd fd handle.rounds (handle.links.next .head) =
      some
        (((handle.toState order).findFd fd).bind fun pos =>
          (handle.heap pos).map fun registration =>
            (pos, registration)) := by
  apply Handle.findFd_path tracks.ring.path
  · intro pos member
    obtain ⟨registration, stored⟩ := tracks.stored member
    simp [stored]
  · exact Nat.lt_succ_of_le tracks.few

/-- A registration that list and kernel take. -/
theorem register
    (tracks : Tracks handle order)
    {pe : Addr}
    {event : WmEvent}
    {events : UInt32}
    (unused : handle.heap pe = none)
    (unwatched : handle.interest event.fd = none) :
    Tracks
      ((handle.storeEvent pe (event, handle.made.length)).link pe
        (event, handle.made.length)
        (Function.update handle.interest event.fd (some (events, pe))))
      (pe :: order) := by
  have notListed : pe ∉ order := by
    intro member
    obtain ⟨_, stored⟩ := tracks.stored member
    exact Option.some_ne_none _ (stored.symm.trans unused)
  constructor
  · apply tracks.ring.add
    simpa using notListed
  · have free : (handle.toState order).heap pe = none := unused
    have unregistered :
        (handle.toState order).interest event.fd = none := unwatched
    have stepped :
        machine.step? (handle.toState order)
            (.add event.fd events (some event.pfnEvent) event.parg1
              event.pfnExit event.parg2 (some pe) true) =
          some ((handle.toState order).link pe event events) := by
      simp only [machine, step?, wmEpollAdd, Option.mem_some, forall_eq',
        free, if_true, unregistered]
    exact .step tracks.simulated (by trivial) stepped
  · intro pos used
    by_cases same : pos = pe
    · exact List.mem_cons.mpr (.inl same)
    · apply List.mem_cons_of_mem
      apply tracks.owned
      intro empty
      exact used ((Function.update_of_ne same ..).trans empty)
  · exact Nat.succ_le_succ tracks.few
  · intro registration member
    rcases List.mem_cons.mp member with rfl | old
    · exact Nat.lt_succ_self _
    · exact Nat.lt_succ_of_lt (tracks.numbers registration old)
  · rw [Handle.link_made, List.filterMap_cons]
    split
    · exact tracks.exitsNodup
    · rename_i exit isExit
      refine List.nodup_cons.mpr ⟨?_, tracks.exitsNodup⟩
      intro earlier
      obtain ⟨old, oldMember, oldExit⟩ := List.mem_filterMap.mp earlier
      have below := tracks.numbers old oldMember
      obtain ⟨_, _, rfl⟩ := Option.map_eq_some_iff.mp isExit
      obtain ⟨_, _, same⟩ := Option.map_eq_some_iff.mp oldExit
      rw [(Prod.mk.inj same).2] at below
      exact Nat.lt_irrefl _ below
  · have oldHeap :
        ∀ pos ∈ order,
          Function.update handle.heap pe
            (some (event, handle.made.length)) pos = handle.heap pos :=
      fun pos member =>
        Function.update_of_ne (ne_of_mem_of_not_mem member notListed) ..
    have headPending :
        ((handle.storeEvent pe (event, handle.made.length)).link pe
          (event, handle.made.length)
          (Function.update handle.interest event.fd
            (some (events, pe)))).pendingExit pe =
          exitOf (event, handle.made.length) := by
      simp [Handle.pendingExit, Handle.link, Handle.storeEvent]
    rw [Handle.link_made, filterMap_cons_toList, filterMap_cons_toList,
      Handle.filterMap_pendingExit_congr oldHeap, headPending]
    exact (List.perm_append_comm_assoc ..).trans
      (tracks.balanced.append_left _)

/-- `wm_epoll_add` at memory that was not in use. -/
theorem add
    (tracks : Tracks handle order)
    (fd : Int32)
    (events : UInt32)
    (pevent : Option WmPfn)
    (pArg1 : Arg)
    (pexit : Option WmPfn)
    (pArg2 : Arg)
    {memory : Option Addr}
    (accepts : Bool)
    (unused : ∀ pe ∈ memory, handle.heap pe = none) :
    ∃ order',
      Tracks
        (handle.wmEpollAdd fd events pevent pArg1 pexit pArg2
          memory accepts).1
        order' := by
  unfold Handle.wmEpollAdd
  split
  · rename_i pfnEvent pe
    have unusedPe := unused pe rfl
    simp only
    split
    · refine ⟨order, ?_⟩
      rw [Handle.freeEvent_storeEvent unusedPe]
      exact tracks
    · rename_i interest added
      obtain ⟨_, unwatched, rfl⟩ := ctlAdd_eq_ok_iff.mp added
      exact ⟨pe :: order,
        tracks.register unusedPe unwatched⟩
  · exact ⟨order, tracks⟩

/-- The kernel takes new events for a listed descriptor. -/
theorem watch
    (tracks : Tracks handle order)
    {fd : Int32}
    {events : UInt32}
    {pos : Addr}
    (found : (handle.toState order).findFd fd = some pos)
    (watched : (handle.interest fd).isSome) :
    Tracks
      { handle with
        interest :=
          Function.update handle.interest fd (some (events, pos)) }
      order where
  ring := tracks.ring
  simulated := by
    have registered : ((handle.toState order).interest fd).isSome :=
      watched
    have stepped :
        machine.step? (handle.toState order) (.modify fd events true) =
          some ((handle.toState order).watch fd events pos) := by
      simp only [machine, step?, wmEpollModify, found, registered,
        and_self, if_true]
    exact .step tracks.simulated (by trivial) stepped
  owned := tracks.owned
  few := tracks.few
  numbers := tracks.numbers
  exitsNodup := tracks.exitsNodup
  balanced := tracks.balanced

/-- `wm_epoll_modify` returns and keeps the list. -/
theorem modify
    (tracks : Tracks handle order)
    (fd : Int32)
    (events : UInt32)
    (accepts : Bool) :
    ∃ next result,
      handle.wmEpollModify fd events accepts = some (next, result) ∧
        Tracks next order := by
  unfold Handle.wmEpollModify
  rw [tracks.findFd fd]
  cases found : (handle.toState order).findFd fd with
  | none =>
      exact ⟨handle, -1, rfl, tracks⟩
  | some pos =>
      obtain ⟨member, event, number, stored, rfl⟩ := findFd_some found
      have storedHere : handle.heap pos = some (event, number) := stored
      simp only [Option.bind_some, storedHere, Option.map_some]
      split
      · rename_i interest modified
        obtain ⟨_, watched, rfl⟩ := ctlMod_eq_ok_iff.mp modified
        exact ⟨_, 0, rfl, tracks.watch found watched⟩
      · exact ⟨handle, 0, rfl, tracks⟩

/-- Taking a listed event out is one call of `wm_epoll_remove`. -/
theorem simulated_takeOut
    (tracks : Tracks handle order)
    {pos : Addr}
    {event : WmEvent}
    {number : Nat}
    (member : pos ∈ order)
    (stored : handle.heap pos = some (event, number)) :
    machine.ReachableWhere SparesBatch
      (Handle.toState
        ((handle.detach pos (event, number)).freeEvent pos)
        (order.erase pos)) := by
  have attached := tracks.attached
  have found : (handle.toState order).findFd event.fd = some pos :=
    attached.findFd_eq member stored
  have watched : (handle.interest event.fd).isSome := by
    obtain ⟨events, watches⟩ := attached.interest_eq member stored
    exact Option.isSome_of_eq_some watches
  have spares : SparesBatch (handle.toState order) (.remove event.fd) :=
    fun _ _ => List.not_mem_nil
  have removal :
      machine.step? (handle.toState order) (.remove event.fd) =
        some (WmEpoll.wmEpollRemove (handle.toState order) event.fd) :=
    rfl
  have detached : ctlDel handle.interest event.fd =
      .ok (Function.update handle.interest event.fd none) :=
    ctlDel_registered watched
  have storedHere :
      (handle.toState order).heap pos = some (event, number) := stored
  -- With an exit the call returns in a second step, behind the exit.
  cases hasExit : event.pfnExit with
  | none =>
      have after :
          WmEpoll.wmEpollRemove (handle.toState order) event.fd =
            Handle.toState
              ((handle.detach pos (event, number)).freeEvent pos)
              (order.erase pos) := by
        simp only [WmEpoll.wmEpollRemove, found, storedHere, hasExit]
        simp [Handle.toState, Handle.detach, Handle.freeEvent, detached,
          exitOf, hasExit, State.unlink, State.freeEvent]
      rw [← after]
      exact .step tracks.simulated spares removal
  | some pfnExit =>
      have exiting :=
        Machine.ReachableWhere.step tracks.simulated spares removal
      have ended :
          machine.step?
              (WmEpoll.wmEpollRemove (handle.toState order) event.fd)
              (.removeEnd pos) =
            some
              (Handle.toState
                ((handle.detach pos (event, number)).freeEvent pos)
                (order.erase pos)) := by
        simp only [WmEpoll.wmEpollRemove, found, storedHere, hasExit]
        simp [machine, step?, wmEpollRemoveEnd, Handle.toState,
          Handle.detach, Handle.freeEvent, detached, exitOf, hasExit,
          State.unlink, State.freeEvent]
      exact exiting.step (by trivial) ended

/-- The exit of an event is run where the event is taken out. -/
theorem balanced_takeOut
    (tracks : Tracks handle order)
    {pos : Addr}
    {registration : Registration}
    (member : pos ∈ order)
    (stored : handle.heap pos = some registration) :
    (((handle.detach pos registration).freeEvent pos).exits ++
        (order.erase pos).filterMap
          ((handle.detach pos registration).freeEvent pos).pendingExit).Perm
      (handle.made.filterMap exitOf) := by
  have notErased : pos ∉ order.erase pos :=
    tracks.attached.nodup.not_mem_erase
  have oldHeap :
      ∀ other ∈ order.erase pos,
        Function.update handle.heap pos none other = handle.heap other :=
    fun other otherMember =>
      Function.update_of_ne (ne_of_mem_of_not_mem otherMember notErased) ..
  have pending :
      (order.filterMap handle.pendingExit).Perm
        ((exitOf registration).toList ++
          (order.erase pos).filterMap handle.pendingExit) := by
    have split := (List.perm_cons_erase member).filterMap
      handle.pendingExit
    rwa [filterMap_cons_toList, Handle.pendingExit, stored,
      Option.bind_some] at split
  rw [Handle.filterMap_pendingExit_congr oldHeap]
  simp only [Handle.freeEvent, Handle.detach, List.append_assoc]
  exact (pending.symm.append_left _).trans tracks.balanced

/-- A listed event leaves the list, the kernel and the memory. -/
theorem takeOut
    (tracks : Tracks handle order)
    {pos : Addr}
    {registration : Registration}
    (member : pos ∈ order)
    (stored : handle.heap pos = some registration) :
    Tracks
      ((handle.detach pos registration).freeEvent pos)
      (order.erase pos) := by
  obtain ⟨event, number⟩ := registration
  have nodup : order.Nodup := tracks.attached.nodup
  constructor
  · obtain ⟨before, after, rfl⟩ := List.append_of_mem member
    have notBefore : pos ∉ before := by
      intro inBefore
      exact (List.disjoint_of_nodup_append nodup) inBefore
        List.mem_cons_self
    rw [List.erase_append_right _ notBefore, List.erase_cons_head,
      List.map_append]
    apply Ring.del
    simpa using tracks.ring
  · exact tracks.simulated_takeOut member stored
  · intro other used
    by_cases same : other = pos
    · subst other
      exact (used (Function.update_self ..)).elim
    · refine nodup.mem_erase_iff.mpr ⟨same, tracks.owned other ?_⟩
      intro empty
      exact used ((Function.update_of_ne same ..).trans empty)
  · exact Nat.le_trans List.length_erase_le tracks.few
  · exact tracks.numbers
  · exact tracks.exitsNodup
  · exact tracks.balanced_takeOut member stored

/-- `wm_epoll_remove` returns. -/
theorem remove
    (tracks : Tracks handle order)
    (fd : Int32) :
    ∃ next order',
      handle.wmEpollRemove fd = some next ∧ Tracks next order' := by
  unfold Handle.wmEpollRemove
  rw [tracks.findFd fd]
  cases found : (handle.toState order).findFd fd with
  | none =>
      exact ⟨handle, order, rfl, tracks⟩
  | some pos =>
      obtain ⟨member, event, number, stored, rfl⟩ := findFd_some found
      have storedHere : handle.heap pos = some (event, number) := stored
      simp only [Option.bind_some, storedHere, Option.map_some]
      exact ⟨_, order.erase pos, rfl, tracks.takeOut member storedHere⟩

/-- Every operation at unused memory returns and keeps the agreement. -/
theorem operate
    (tracks : Tracks handle order)
    {operation : Operation}
    (unused : handle.MemoryUnused operation) :
    ∃ next order',
      handle.operate? operation = some next ∧ Tracks next order' := by
  cases operation with
  | add fd events pevent pArg1 pexit pArg2 memory accepts =>
      obtain ⟨order', added⟩ :=
        tracks.add fd events pevent pArg1 pexit pArg2 accepts unused
      exact ⟨_, order', rfl, added⟩
  | modify fd events accepts =>
      obtain ⟨next, result, modified, kept⟩ :=
        tracks.modify fd events accepts
      exact ⟨next, order, by rw [Handle.operate?, modified]; rfl, kept⟩
  | remove fd =>
      exact tracks.remove fd

/-- Closing a descriptor changes neither list nor kernel nor memory. -/
theorem closeFd
    (tracks : Tracks handle order)
    (fd : Int32) :
    Tracks (handle.closeFd fd) order where
  ring := tracks.ring
  simulated := tracks.simulated
  owned := tracks.owned
  few := tracks.few
  numbers := tracks.numbers
  exitsNodup := tracks.exitsNodup
  balanced := tracks.balanced

/-- The first node is in memory in use, so its successor can be read. -/
theorem exists_nextOf
    (tracks : Tracks handle order) :
    ∃ n, handle.nextOf? (handle.links.next .head) = some n :=
  Handle.exists_nextOf tracks.ring.path tracks.stored

/--
The loop of `wm_epoll_destroy` reads only memory in use, ends, empties the list
and closes the descriptors of its events.
-/
theorem destroyLoop
    (tracks : Tracks handle order)
    {fuel : Nat}
    {n : Node}
    (enough : order.length < fuel)
    (follows : handle.nextOf? (handle.links.next .head) = some n) :
    ∃ final,
      Handle.destroyLoop fuel (handle.links.next .head) n handle =
          some final ∧
        Tracks final [] ∧
        final.made = handle.made ∧
        final.closed = handle.closed ++ order.filterMap handle.fdOf := by
  induction order generalizing handle fuel n with
  | nil =>
      obtain ⟨more, rfl⟩ := Nat.exists_eq_add_one.mpr enough
      have nextHead : handle.links.next .head = .head := tracks.ring.path.1
      refine ⟨handle, ?_, tracks, rfl, (List.append_nil _).symm⟩
      rw [nextHead, Handle.destroyLoop]
  | cons pos rest inductionHypothesis =>
      obtain ⟨more, rfl⟩ :=
        Nat.exists_eq_add_one.mpr (Nat.zero_lt_of_lt enough)
      obtain ⟨⟨nextHead, _⟩, later⟩ := tracks.ring.path
      obtain ⟨registration, stored⟩ := tracks.stored List.mem_cons_self
      have freedTracks :=
        (tracks.takeOut List.mem_cons_self stored).closeFd
          registration.1.fd
      rw [List.erase_cons_head] at freedTracks
      rw [nextHead, Handle.nextOf?, stored, Option.map_some,
        Option.some.injEq] at follows
      have nextFreed :
          (((handle.detach pos registration).freeEvent pos).closeFd
            registration.1.fd).links.next .head = n := by
        rw [freedTracks.ring.path.next_eq, ← follows, later.next_eq]
      obtain ⟨afterwards, readable⟩ := freedTracks.exists_nextOf
      obtain ⟨final, looped, finalTracks, sameMade, closed⟩ :=
        inductionHypothesis freedTracks (Nat.lt_of_succ_lt_succ enough)
          readable
      have notRest : pos ∉ rest :=
        (List.nodup_cons.mp tracks.attached.nodup).1
      have sameFds :
          rest.filterMap
              (((handle.detach pos registration).freeEvent pos).closeFd
                registration.1.fd).fdOf =
            rest.filterMap handle.fdOf := by
        apply List.filterMap_congr
        intro other member
        have different := ne_of_mem_of_not_mem member notRest
        simp [Handle.fdOf, Handle.closeFd, Handle.freeEvent, Handle.detach,
          Function.update_of_ne different]
      refine ⟨final, ?_, finalTracks, sameMade, ?_⟩
      · rw [nextFreed] at readable looped
        rw [nextHead, Handle.destroyLoop, stored]
        have readableHere :
            (((handle.detach pos registration).closeFd
              registration.1.fd).freeEvent pos).nextOf? n =
                some afterwards :=
          readable
        simp only [readableHere]
        exact looped
      · rw [closed, sameFds, filterMap_cons_toList, Handle.fdOf, stored]
        simp [Handle.closeFd, Handle.freeEvent, Handle.detach]

/-- The list, the kernel and the memory agree along the order. -/
theorem agrees
    (tracks : Tracks handle order) :
    handle.Agrees order where
  listed := tracks.ring.walk_eq tracks.enough
  nodup := tracks.attached.nodup
  watched := by
    intro pos member
    obtain ⟨event, number, events, stored, watches, _⟩ :=
      tracks.attached.linked pos member
    exact ⟨(event, number), events, stored, watches⟩
  registered := by
    intro fd events pos registered
    obtain ⟨member, event, number, stored, same⟩ :=
      tracks.attached.watched fd events pos registered
    exact ⟨member, (event, number), stored, same⟩

/-- Each registered descriptor belongs to exactly one listed event. -/
theorem count_fdOf
    (tracks : Tracks handle order)
    (fd : Int32) :
    (order.filterMap handle.fdOf).count fd =
      if (handle.interest fd).isSome then 1 else 0 := by
  have agrees := tracks.agrees
  have nodup : (order.filterMap handle.fdOf).Nodup := by
    apply agrees.nodup.filterMap
    intro first second fd firstFd secondFd
    obtain ⟨firstContent, firstStored, rfl⟩ :=
      Option.map_eq_some_iff.mp firstFd
    obtain ⟨secondContent, secondStored, same⟩ :=
      Option.map_eq_some_iff.mp secondFd
    have firstUsed : handle.heap first ≠ none := by simp [firstStored]
    have secondUsed : handle.heap second ≠ none := by simp [secondStored]
    exact tracks.attached.eq_of_fd_eq
      (tracks.owned first firstUsed) (tracks.owned second secondUsed)
      firstStored secondStored same.symm
  have member :
      fd ∈ order.filterMap handle.fdOf ↔ (handle.interest fd).isSome := by
    rw [List.mem_filterMap, Option.isSome_iff_exists]
    constructor
    · rintro ⟨pos, inOrder, isFd⟩
      obtain ⟨registration, events, stored, watches⟩ :=
        agrees.watched pos inOrder
      obtain ⟨other, otherStored, rfl⟩ := Option.map_eq_some_iff.mp isFd
      rw [stored, Option.some.injEq] at otherStored
      subst otherStored
      exact ⟨(events, pos), watches⟩
    · rintro ⟨⟨events, pos⟩, watches⟩
      obtain ⟨inOrder, registration, stored, same⟩ :=
        agrees.registered fd events pos watches
      exact ⟨pos, inOrder, by rw [Handle.fdOf, stored, ← same]; rfl⟩
  split
  · rename_i watched
    exact List.count_eq_one_of_mem nodup (member.mpr watched)
  · rename_i unwatched
    exact List.count_eq_zero.mpr (mt member.mp unwatched)

/-- `wm_epoll_destroy` returns and leaves nothing behind. -/
theorem destroy
    (tracks : Tracks handle order)
    (noneClosed : handle.closed = []) :
    ∃ final,
      handle.wmEpollDestroy = some final ∧
        final.Agrees [] ∧ handle.Cleaned final := by
  obtain ⟨n, follows⟩ := tracks.exists_nextOf
  obtain ⟨final, looped, finalTracks, sameMade, closed⟩ :=
    tracks.destroyLoop (Nat.lt_succ_of_le tracks.few) follows
  have exits : final.exits.Perm (handle.made.filterMap exitOf) := by
    have balanced := finalTracks.balanced
    rwa [List.filterMap_nil, List.append_nil, sameMade] at balanced
  refine ⟨final, ?_, finalTracks.agrees, ?_, ?_, ?_, ?_⟩
  · rw [Handle.wmEpollDestroy, follows]
    exact looped
  · intro registration member exit isExit
    rw [exits.count_eq]
    apply List.count_eq_one_of_mem tracks.exitsNodup
    exact List.mem_filterMap.mpr ⟨registration, member, isExit⟩
  · intro exit called
    exact List.mem_filterMap.mp (exits.mem_iff.mp called)
  · intro fd
    rw [closed, noneClosed, List.nil_append, tracks.count_fdOf]
  · intro pos
    by_contra used
    exact List.not_mem_nil (finalTracks.owned pos used)

end Tracks

/-- Only `wm_epoll_destroy` closes descriptors. -/
theorem closed_operate
    {handle next : Handle}
    {operation : Operation}
    (operated : handle.operate? operation = some next) :
    next.closed = handle.closed := by
  cases operation with
  | add fd events pevent pArg1 pexit pArg2 memory accepts =>
      rw [Handle.operate?, Option.some.injEq] at operated
      subst next
      unfold Handle.wmEpollAdd
      split
      · simp only
        split <;> rfl
      · rfl
  | modify fd events accepts =>
      obtain ⟨⟨after, result⟩, modified, rfl⟩ :=
        Option.map_eq_some_iff.mp operated
      unfold Handle.wmEpollModify at modified
      split at modified
      · cases modified
      · cases modified
        rfl
      · split at modified <;> cases modified <;> rfl
  | remove fd =>
      rw [Handle.operate?, Handle.wmEpollRemove] at operated
      split at operated
      · cases operated
      · cases operated
        rfl
      · cases operated
        rfl

/-- Every sequence of operations keeps the agreement and closes nothing. -/
theorem exists_tracks
    {handle : Handle}
    (reachable : registry.Reachable handle) :
    (∃ order, Tracks handle order) ∧ handle.closed = [] := by
  apply reachable.invariant
  · rintro start rfl
    exact ⟨⟨[], Tracks.create⟩, rfl⟩
  · rintro before after operation ⟨⟨order, tracks⟩, noneClosed⟩ _ stepped
    simp only [registry, Option.ite_none_right_eq_some] at stepped
    obtain ⟨unused, operated⟩ := stepped
    obtain ⟨next, order', operatedTo, nextTracks⟩ := tracks.operate unused
    obtain rfl := Option.some.inj (operatedTo.symm.trans operated)
    exact ⟨⟨order', nextTracks⟩,
      (closed_operate operated).trans noneClosed⟩

/--
After every sequence of `wm_epoll_add`, `wm_epoll_modify` and
`wm_epoll_remove` the list and the kernel hold the same events, each for a
descriptor of its own and none of them freed; every further operation returns;
and `wm_epoll_destroy` returns with every exit callback called once over the
whole run, every descriptor that was still registered closed once, and no event
left in list, kernel or memory.
-/
theorem registry_agrees_and_destroy_cleans
    {handle : Handle}
    (reachable : registry.Reachable handle) :
    (∃ order, handle.Agrees order) ∧
      (∀ operation,
        handle.MemoryUnused operation →
        (registry.step? handle operation).isSome) ∧
      ∃ final,
        handle.wmEpollDestroy = some final ∧
          final.Agrees [] ∧ handle.Cleaned final := by
  obtain ⟨⟨order, tracks⟩, noneClosed⟩ := exists_tracks reachable
  refine ⟨⟨order, tracks.agrees⟩, ?_, tracks.destroy noneClosed⟩
  intro operation unused
  obtain ⟨next, _, operated, _⟩ := tracks.operate unused
  simp [registry, unused, operated]

/--
A second registration of a descriptor is refused with `EEXIST`, one event is
removed, and destruction cleans up behind the other one.
-/
theorem registry_agrees_and_destroy_cleans_twoEvents :
    ∃ handle final,
      registry.Reachable handle ∧
        handle.exits = [(⟨33, 5, 7⟩, 0)] ∧
        handle.wmEpollDestroy = some final ∧
        handle.Cleaned final := by
  obtain ⟨handle, reachable, called⟩ :=
    Machine.exists_reachable
      registry
      .wmEpollCreate
      [
        .add 5 1 (some 11) 0 (some 33) 7 (some 100) true,
        .add 6 1 (some 22) 0 (some 44) 8 (some 200) true,
        .add 6 1 (some 22) 0 (some 55) 9 (some 300) true,
        .modify 6 4 true,
        .remove 5
      ]
      (fun handle => decide (handle.exits = [(⟨33, 5, 7⟩, 0)]))
      rfl
      (by decide)
  obtain ⟨_, _, final, destroyed, _, cleaned⟩ :=
    registry_agrees_and_destroy_cleans reachable
  exact ⟨handle, final, reachable, of_decide_eq_true called, destroyed,
    cleaned⟩

end WkcRuntime.WmEpoll
