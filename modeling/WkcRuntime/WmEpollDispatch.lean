import WkcRuntime.WmEpollSource

namespace WkcRuntime.WmEpoll

/-!
# Which removals the dispatch loop survives

The list, the kernel and the heap agree on the registered events.  A batch of
pointers is taken from the kernel, so its events are registered at first; the
loop stays safe as long as no `wm_epoll_remove` removes an event that the loop
has still to dispatch.  A removal that does so is followed by an access to
freed memory or by a call for the removed registration as soon as the loop
gets there.
-/

/-- The list, the kernel and the heap agree on the registered events. -/
structure Attached (state : State) : Prop where
  nodup :
    state.head.Nodup
  linked :
    ∀ pos ∈ state.head,
      ∃ event registration events,
        state.heap pos = some (event, registration) ∧
          state.interest event.fd = some (events, pos) ∧
          registration ∉ state.removed ∧
          registration < state.registrations
  watched :
    ∀ fd events pos,
      state.interest fd = some (events, pos) →
      pos ∈ state.head ∧
        ∃ event registration,
          state.heap pos = some (event, registration) ∧ event.fd = fd
  numbered :
    ∀ first ∈ state.head, ∀ second ∈ state.head,
      ∀ firstEvent secondEvent registration,
        state.heap first = some (firstEvent, registration) →
        state.heap second = some (secondEvent, registration) →
        first = second
  exitingNodup :
    state.exiting.Nodup
  exiting :
    ∀ pos ∈ state.exiting,
      pos ∉ state.head ∧ state.heap pos ≠ none

/-- The removal takes no event that the loop has still to dispatch. -/
def SparesBatch (state : State) : Action → Prop
  | .remove fd =>
      ∀ pos ∈ state.findFd fd, pos ∉ state.batch
  | _ =>
      True

instance (state : State) :
    ∀ action, Decidable (SparesBatch state action)
  | .remove fd =>
      inferInstanceAs
        (Decidable (∀ pos ∈ state.findFd fd, pos ∉ state.batch))
  | .add .. | .modify .. | .removeEnd _ | .epollWait _ | .dispatch =>
      .isTrue trivial

/-- The loop has followed no pointer to freed memory or a removed event. -/
def State.Safe (state : State) : Prop :=
  state.readFreed = false ∧ state.calledRemoved = false

/-- A new handle has nothing registered. -/
theorem attached_wmEpollCreate : Attached wmEpollCreate where
  nodup := List.nodup_nil
  linked := fun _ member => by cases member
  watched := fun _ _ _ registered => by cases registered
  numbered := fun _ member => by cases member
  exitingNodup := List.nodup_nil
  exiting := fun _ member => by cases member

section Fields

variable {state : State}
variable {pe pos : Addr}
variable {event : WmEvent}
variable {events : UInt32}
variable {fd : Int32}

@[simp] theorem link_heap_self :
    (state.link pe event events).heap pe =
      some (event, state.registrations) :=
  Function.update_self ..

theorem link_heap_of_ne
    (different : pos ≠ pe) :
    (state.link pe event events).heap pos = state.heap pos :=
  Function.update_of_ne different ..

@[simp] theorem link_interest_self :
    (state.link pe event events).interest event.fd = some (events, pe) :=
  Function.update_self ..

theorem link_interest_of_ne
    (different : fd ≠ event.fd) :
    (state.link pe event events).interest fd = state.interest fd :=
  Function.update_of_ne different ..

theorem freeEvent_heap_of_ne
    (different : pos ≠ pe) :
    (state.freeEvent pe).heap pos = state.heap pos :=
  Function.update_of_ne different ..

end Fields

section Finding

variable {state : State}
variable {fd : Int32}
variable {pos : Addr}

/-- What the search in the list finds. -/
theorem findFd_some
    (found : state.findFd fd = some pos) :
    pos ∈ state.head ∧
      ∃ event registration,
        state.heap pos = some (event, registration) ∧ event.fd = fd := by
  refine ⟨List.mem_of_find?_eq_some found, ?_⟩
  have tested := List.find?_some found
  cases stored : state.heap pos with
  | none =>
      simp [stored] at tested
  | some content =>
      refine ⟨content.1, content.2, rfl, ?_⟩
      simpa [stored] using tested

end Finding

namespace Attached

variable {state : State}

/-- A new event at unused memory for a descriptor that is not watched. -/
theorem link
    (attached : Attached state)
    (removedOld : ∀ old ∈ state.removed, old < state.registrations)
    {pe : Addr}
    {event : WmEvent}
    {events : UInt32}
    (unused : state.heap pe = none)
    (unwatched : state.interest event.fd = none) :
    Attached (state.link pe event events) := by
  have notLinked : pe ∉ state.head := by
    intro member
    obtain ⟨_, _, _, stored, _⟩ := attached.linked pe member
    simp [unused] at stored
  have oldHeap :
      ∀ pos ∈ state.head,
        (state.link pe event events).heap pos = state.heap pos := by
    intro pos member
    apply link_heap_of_ne
    rintro rfl
    exact notLinked member
  have oldNumber :
      ∀ pos ∈ state.head, ∀ oldEvent,
        state.heap pos ≠ some (oldEvent, state.registrations) := by
    intro pos member oldEvent stored
    obtain ⟨_, _, _, other, _, _, below⟩ := attached.linked pos member
    rw [stored, Option.some.injEq, Prod.mk.injEq] at other
    rw [← other.2] at below
    exact Nat.lt_irrefl _ below
  refine ⟨List.nodup_cons.mpr ⟨notLinked, attached.nodup⟩,
    ?_, ?_, ?_, attached.exitingNodup, ?_⟩
  · intro pos member
    rcases List.mem_cons.mp member with rfl | old
    · refine ⟨event, state.registrations, events, link_heap_self,
        link_interest_self, ?_, Nat.lt_succ_self _⟩
      intro wasRemoved
      exact Nat.lt_irrefl _ (removedOld _ wasRemoved)
    · obtain ⟨oldEvent, registration, oldEvents, stored, watches,
        kept, below⟩ := attached.linked pos old
      refine ⟨oldEvent, registration, oldEvents,
        (oldHeap pos old).trans stored, ?_, kept,
        Nat.lt_succ_of_lt below⟩
      rw [link_interest_of_ne]
      · exact watches
      · intro same
        simp [same, unwatched] at watches
  · intro fd otherEvents pos registered
    by_cases same : fd = event.fd
    · subst fd
      rw [link_interest_self, Option.some.injEq,
        Prod.mk.injEq] at registered
      obtain ⟨_, rfl⟩ := registered
      exact ⟨List.mem_cons_self, event, state.registrations,
        link_heap_self, rfl⟩
    · rw [link_interest_of_ne same] at registered
      obtain ⟨member, oldEvent, registration, stored, descriptor⟩ :=
        attached.watched fd otherEvents pos registered
      exact ⟨List.mem_cons_of_mem _ member, oldEvent, registration,
        (oldHeap pos member).trans stored, descriptor⟩
  · intro first firstMember second secondMember firstEvent secondEvent
      registration firstStored secondStored
    rcases List.mem_cons.mp firstMember with rfl | firstOld <;>
      rcases List.mem_cons.mp secondMember with rfl | secondOld
    · rfl
    · rw [link_heap_self, Option.some.injEq,
        Prod.mk.injEq] at firstStored
      obtain ⟨_, rfl⟩ := firstStored
      rw [oldHeap second secondOld] at secondStored
      exact absurd secondStored (oldNumber second secondOld _)
    · rw [link_heap_self, Option.some.injEq,
        Prod.mk.injEq] at secondStored
      obtain ⟨_, rfl⟩ := secondStored
      rw [oldHeap first firstOld] at firstStored
      exact absurd firstStored (oldNumber first firstOld _)
    · rw [oldHeap first firstOld] at firstStored
      rw [oldHeap second secondOld] at secondStored
      exact attached.numbered first firstOld second secondOld _ _ _
        firstStored secondStored
  · intro pos member
    obtain ⟨unlinked, live⟩ := attached.exiting pos member
    have different : pos ≠ pe := by
      rintro rfl
      exact live unused
    constructor
    · intro inList
      rcases List.mem_cons.mp inList with same | old
      · exact different same
      · exact unlinked old
    · rw [link_heap_of_ne different]
      exact live

/-- A listed event is the one that the kernel has for its descriptor. -/
theorem interest_eq
    (attached : Attached state)
    {pos : Addr}
    {event : WmEvent}
    {registration : Nat}
    (member : pos ∈ state.head)
    (stored : state.heap pos = some (event, registration)) :
    ∃ events, state.interest event.fd = some (events, pos) := by
  obtain ⟨_, _, events, otherStored, watches, _⟩ :=
    attached.linked pos member
  rw [stored, Option.some.injEq, Prod.mk.injEq] at otherStored
  rw [← otherStored.1] at watches
  exact ⟨events, watches⟩

/-- Two listed events have different descriptors. -/
theorem eq_of_fd_eq
    (attached : Attached state)
    {first second : Addr}
    {firstEvent secondEvent : WmEvent}
    {firstNumber secondNumber : Nat}
    (firstMember : first ∈ state.head)
    (secondMember : second ∈ state.head)
    (firstStored : state.heap first = some (firstEvent, firstNumber))
    (secondStored :
      state.heap second = some (secondEvent, secondNumber))
    (same : firstEvent.fd = secondEvent.fd) :
    first = second := by
  obtain ⟨_, firstWatches⟩ :=
    attached.interest_eq firstMember firstStored
  obtain ⟨_, secondWatches⟩ :=
    attached.interest_eq secondMember secondStored
  rw [same, secondWatches, Option.some.injEq,
    Prod.mk.injEq] at firstWatches
  exact firstWatches.2.symm

/-- New events for a watched descriptor. -/
theorem watch
    (attached : Attached state)
    {fd : Int32}
    {events : UInt32}
    {pos : Addr}
    (found : state.findFd fd = some pos) :
    Attached (state.watch fd events pos) := by
  obtain ⟨member, event, registration, stored, rfl⟩ :=
    findFd_some found
  refine ⟨attached.nodup, ?_, ?_, attached.numbered,
    attached.exitingNodup, attached.exiting⟩
  · intro other otherMember
    obtain ⟨otherEvent, number, otherEvents, otherStored, watches,
      kept, below⟩ := attached.linked other otherMember
    by_cases same : otherEvent.fd = event.fd
    · obtain rfl := attached.eq_of_fd_eq otherMember member
        otherStored stored same
      exact ⟨otherEvent, number, events, otherStored,
        by rw [same]; exact Function.update_self .., kept, below⟩
    · exact ⟨otherEvent, number, otherEvents, otherStored,
        (Function.update_of_ne same ..).trans watches, kept, below⟩
  · intro other otherEvents otherPos registered
    by_cases same : other = event.fd
    · subst other
      simp only [State.watch, Function.update_self, Option.some.injEq,
        Prod.mk.injEq] at registered
      obtain ⟨_, rfl⟩ := registered
      exact ⟨member, event, registration, stored, rfl⟩
    · simp only [State.watch, Function.update_of_ne same] at registered
      exact attached.watched other otherEvents otherPos registered

/-- An unlinked event leaves the agreement of the others. -/
theorem unlink
    (attached : Attached state)
    {pos : Addr}
    {event : WmEvent}
    {registration : Nat}
    (member : pos ∈ state.head)
    (stored : state.heap pos = some (event, registration)) :
    Attached (state.unlink pos event.fd registration) := by
  have remains :
      ∀ other, other ∈ state.head.erase pos ↔
        other ≠ pos ∧ other ∈ state.head :=
    fun other => attached.nodup.mem_erase_iff
  refine ⟨attached.nodup.erase pos, ?_, ?_, ?_,
    attached.exitingNodup, ?_⟩
  · intro other otherMember
    obtain ⟨different, old⟩ := (remains other).mp otherMember
    obtain ⟨otherEvent, number, otherEvents, otherStored, watches,
      kept, below⟩ := attached.linked other old
    refine ⟨otherEvent, number, otherEvents, otherStored, ?_, ?_, below⟩
    · have otherFd : otherEvent.fd ≠ event.fd := by
        intro same
        exact different (attached.eq_of_fd_eq old member
          otherStored stored same)
      simp only [State.unlink, Function.update_of_ne otherFd]
      exact watches
    · intro wasRemoved
      rcases List.mem_cons.mp wasRemoved with rfl | earlier
      · exact different
          (attached.numbered other old pos member _ _ _
            otherStored stored)
      · exact kept earlier
  · intro fd events other registered
    simp only [State.unlink] at registered
    by_cases same : fd = event.fd
    · simp [same] at registered
    · rw [Function.update_of_ne same] at registered
      obtain ⟨otherMember, otherEvent, number, otherStored, descriptor⟩ :=
        attached.watched fd events other registered
      refine ⟨(remains other).mpr ⟨?_, otherMember⟩,
        otherEvent, number, otherStored, descriptor⟩
      rintro rfl
      rw [stored, Option.some.injEq, Prod.mk.injEq] at otherStored
      exact same (by rw [← descriptor, otherStored.1])
  · intro first firstMember second secondMember
    exact attached.numbered
      first ((remains first).mp firstMember).2
      second ((remains second).mp secondMember).2
  · intro other otherMember
    obtain ⟨unlinked, live⟩ := attached.exiting other otherMember
    exact ⟨fun inList => unlinked ((remains other).mp inList).2, live⟩

/-- Freeing an event that nothing refers to. -/
theorem freeEvent
    (attached : Attached state)
    {pos : Addr}
    (unlinked : pos ∉ state.head)
    (notExiting : pos ∉ state.exiting) :
    Attached (state.freeEvent pos) := by
  have kept :
      ∀ other ∈ state.head,
        (state.freeEvent pos).heap other = state.heap other := by
    intro other member
    apply freeEvent_heap_of_ne
    rintro rfl
    exact unlinked member
  refine ⟨attached.nodup, ?_, ?_, ?_, attached.exitingNodup, ?_⟩
  · intro other member
    rw [kept other member]
    exact attached.linked other member
  · intro fd events other registered
    obtain ⟨member, content⟩ :=
      attached.watched fd events other registered
    rw [kept other member]
    exact ⟨member, content⟩
  · intro first firstMember second secondMember
    rw [kept first firstMember, kept second secondMember]
    exact attached.numbered first firstMember second secondMember
  · intro other member
    have different : other ≠ pos := by
      rintro rfl
      exact notExiting member
    obtain ⟨otherUnlinked, live⟩ := attached.exiting other member
    refine ⟨otherUnlinked, ?_⟩
    rw [freeEvent_heap_of_ne different]
    exact live

/-- An unlinked event whose exit callback starts. -/
theorem enterExit
    (attached : Attached state)
    {pos : Addr}
    {calls : List Call}
    (unlinked : pos ∉ state.head)
    (live : state.heap pos ≠ none)
    (notExiting : pos ∉ state.exiting) :
    Attached
      { state with calls, exiting := pos :: state.exiting } where
  nodup := attached.nodup
  linked := attached.linked
  watched := attached.watched
  numbered := attached.numbered
  exitingNodup := List.nodup_cons.mpr ⟨notExiting, attached.exitingNodup⟩
  exiting := by
    intro other member
    rcases List.mem_cons.mp member with rfl | old
    · exact ⟨unlinked, live⟩
    · exact attached.exiting other old

/-- An exit callback that has returned. -/
theorem leaveExit
    (attached : Attached state)
    (pos : Addr) :
    Attached { state with exiting := state.exiting.erase pos } where
  nodup := attached.nodup
  linked := attached.linked
  watched := attached.watched
  numbered := attached.numbered
  exitingNodup := attached.exitingNodup.erase pos
  exiting := fun other member =>
    attached.exiting other (List.mem_of_mem_erase member)

end Attached

/-- The loop is safe and will only meet registered events. -/
structure Guarded (state : State) : Prop where
  attached :
    Attached state
  removedOld :
    ∀ old ∈ state.removed, old < state.registrations
  batch :
    ∀ pe ∈ state.batch, pe ∈ state.head
  safe :
    state.Safe

namespace Guarded

variable {state : State}

/-- `wm_epoll_add` at unused memory. -/
theorem add
    (guarded : Guarded state)
    (fd : Int32)
    (events : UInt32)
    (pevent : Option WmPfn)
    (pArg1 : Arg)
    (pexit : Option WmPfn)
    (pArg2 : Arg)
    {memory : Option Addr}
    (accepts : Bool)
    (unused : ∀ pe ∈ memory, state.heap pe = none) :
    Guarded
      (wmEpollAdd state fd events pevent pArg1 pexit pArg2
        memory accepts).1 := by
  unfold wmEpollAdd
  split
  · rename_i pfnEvent pe
    split
    · split
      · exact guarded
      · rename_i unwatched
        refine ⟨guarded.attached.link guarded.removedOld
          (unused pe rfl) unwatched, ?_, ?_, guarded.safe⟩
        · intro old member
          exact Nat.lt_succ_of_lt (guarded.removedOld old member)
        · intro other member
          exact List.mem_cons_of_mem _ (guarded.batch other member)
    · exact guarded
  · exact guarded

/-- `wm_epoll_modify`. -/
theorem modify
    (guarded : Guarded state)
    (fd : Int32)
    (events : UInt32)
    (accepts : Bool) :
    Guarded (wmEpollModify state fd events accepts).1 := by
  unfold wmEpollModify
  split
  · exact guarded
  · rename_i pos found
    split
    · exact ⟨guarded.attached.watch found, guarded.removedOld,
        guarded.batch, guarded.safe⟩
    · exact guarded

/-- `wm_epoll_remove` of an event that is not to be dispatched. -/
theorem remove
    (guarded : Guarded state)
    {fd : Int32}
    (spares : SparesBatch state (.remove fd)) :
    Guarded (wmEpollRemove state fd) := by
  unfold wmEpollRemove
  cases found : state.findFd fd with
  | none =>
      exact guarded
  | some pos =>
      obtain ⟨member, event, registration, stored, rfl⟩ :=
        findFd_some found
      have notExiting : pos ∉ state.exiting := by
        intro exits
        exact (guarded.attached.exiting pos exits).1 member
      have unlinked : pos ∉ state.head.erase pos :=
        guarded.attached.nodup.not_mem_erase
      have attached := guarded.attached.unlink member stored
      have removedOld :
          ∀ old ∈ registration :: state.removed,
            old < state.registrations := by
        intro old oldMember
        rcases List.mem_cons.mp oldMember with rfl | earlier
        · obtain ⟨_, _, _, otherStored, _, _, below⟩ :=
            guarded.attached.linked pos member
          rw [stored, Option.some.injEq, Prod.mk.injEq] at otherStored
          rw [otherStored.2]
          exact below
        · exact guarded.removedOld old earlier
      have batch :
          ∀ pe ∈ state.batch, pe ∈ state.head.erase pos := by
        intro pe peMember
        refine (guarded.attached.nodup.mem_erase_iff).mpr
          ⟨?_, guarded.batch pe peMember⟩
        rintro rfl
        exact spares pe found peMember
      simp only [stored]
      split
      · exact ⟨attached.freeEvent unlinked notExiting, removedOld,
          batch, guarded.safe⟩
      · refine ⟨attached.enterExit unlinked ?_ notExiting, removedOld,
          batch, guarded.safe⟩
        simp [State.unlink, stored]

/-- The end of `wm_epoll_remove` behind its exit callback. -/
theorem removeEnd
    (guarded : Guarded state)
    {pos : Addr}
    {next : State}
    (ended : wmEpollRemoveEnd state pos = some next) :
    Guarded next := by
  simp only [wmEpollRemoveEnd, Option.ite_none_right_eq_some,
    Option.some.injEq] at ended
  obtain ⟨exits, rfl⟩ := ended
  have unlinked := (guarded.attached.exiting pos exits).1
  have left : pos ∉ state.exiting.erase pos :=
    guarded.attached.exitingNodup.not_mem_erase
  exact ⟨(guarded.attached.leaveExit pos).freeEvent unlinked left,
    guarded.removedOld, guarded.batch, guarded.safe⟩

/-- The pointers from the kernel are registered events. -/
theorem epollWait
    (guarded : Guarded state)
    {ready : List Int32}
    {next : State}
    (waited : WmEpoll.epollWait state ready = some next) :
    Guarded next := by
  simp only [WmEpoll.epollWait, Option.ite_none_right_eq_some,
    Option.some.injEq] at waited
  obtain ⟨_, rfl⟩ := waited
  refine ⟨⟨guarded.attached.nodup, guarded.attached.linked,
    guarded.attached.watched, guarded.attached.numbered,
    guarded.attached.exitingNodup, guarded.attached.exiting⟩,
    guarded.removedOld, ?_, guarded.safe⟩
  intro pe member
  obtain ⟨fd, _, points⟩ := List.mem_filterMap.mp member
  obtain ⟨⟨events, pos⟩, registered, rfl⟩ :=
    Option.map_eq_some_iff.mp points
  exact (guarded.attached.watched fd events pos registered).1

/-- A registered event is dispatched safely. -/
theorem dispatch
    (guarded : Guarded state)
    {next : State}
    (dispatched : WmEpoll.dispatch state = some next) :
    Guarded next := by
  unfold WmEpoll.dispatch at dispatched
  cases batch : state.batch with
  | nil =>
      simp [batch] at dispatched
  | cons pe rest =>
      have member : pe ∈ state.head :=
        guarded.batch pe (by simp [batch])
      obtain ⟨event, registration, _, stored, _, kept, _⟩ :=
        guarded.attached.linked pe member
      simp only [batch, stored, kept, decide_false, Bool.or_false,
        Option.some.injEq] at dispatched
      subst next
      refine ⟨⟨guarded.attached.nodup, guarded.attached.linked,
        guarded.attached.watched, guarded.attached.numbered,
        guarded.attached.exitingNodup, guarded.attached.exiting⟩,
        guarded.removedOld, ?_, guarded.safe⟩
      intro other otherMember
      exact guarded.batch other (by simp [batch, otherMember])

/-- Every permitted step keeps the loop safe. -/
theorem step
    (guarded : Guarded state)
    {action : Action}
    {next : State}
    (spares : SparesBatch state action)
    (stepped : step? state action = some next) :
    Guarded next := by
  cases action with
  | add fd events pevent pArg1 pexit pArg2 memory accepts =>
      simp only [step?, Option.ite_none_right_eq_some,
        Option.some.injEq] at stepped
      obtain ⟨unused, rfl⟩ := stepped
      exact guarded.add fd events pevent pArg1 pexit pArg2 accepts unused
  | modify fd events accepts =>
      simp only [step?, Option.some.injEq] at stepped
      subst next
      exact guarded.modify fd events accepts
  | remove fd =>
      simp only [step?, Option.some.injEq] at stepped
      subst next
      exact guarded.remove spares
  | removeEnd pos =>
      exact guarded.removeEnd stepped
  | epollWait ready =>
      exact guarded.epollWait stepped
  | dispatch =>
      exact guarded.dispatch stepped

end Guarded

/-- Every state of a run that spares its batches is guarded. -/
theorem guarded_of_reachable
    {state : State}
    (reachable : machine.ReachableWhere SparesBatch state) :
    Guarded state := by
  apply reachable.invariant
  · rintro start rfl
    refine ⟨attached_wmEpollCreate, ?_, ?_, rfl, rfl⟩
    · intro old member
      cases member
    · intro pe member
      cases member
  · intro before after action guarded spares stepped
    exact guarded.step spares stepped

/-- A round of the loop moves on in the batch and frees nothing. -/
theorem dispatch_frame
    {state : State}
    {pe : Addr}
    {rest : List Addr}
    (batch : state.batch = pe :: rest) :
    ∃ next,
      dispatch state = some next ∧
        next.batch = rest ∧
        next.heap = state.heap ∧
        next.removed = state.removed := by
  unfold dispatch
  simp only [batch]
  cases state.heap pe with
  | none =>
      exact ⟨_, rfl, rfl, rfl, rfl⟩
  | some content =>
      exact ⟨_, rfl, rfl, rfl, rfl⟩

/-- The loop will meet a pointer to freed memory or to a removed event. -/
def Doomed (state : State) (pos : Addr) : Prop :=
  pos ∈ state.batch ∧
    ∀ event registration,
      state.heap pos = some (event, registration) →
      registration ∈ state.removed

/-- The loop alone leads a doomed state to an unsafe one. -/
theorem Doomed.exists_unsafe
    {state : State}
    {pos : Addr}
    (doomed : Doomed state pos) :
    ∃ actions final,
      machine.run? state actions = some final ∧ ¬ final.Safe := by
  obtain ⟨member, gone⟩ := doomed
  induction batch : state.batch generalizing state with
  | nil =>
      simp [batch] at member
  | cons pe rest inductionHypothesis =>
      by_cases same : pe = pos
      · subst pe
        cases stored : state.heap pos with
        | none =>
            refine ⟨[.dispatch],
              { state with batch := rest, readFreed := true }, ?_, ?_⟩
            · simp [machine, step?, dispatch, batch, stored]
            · simp [State.Safe]
        | some content =>
            obtain ⟨event, registration⟩ := content
            have wasRemoved := gone event registration stored
            refine ⟨[.dispatch],
              { state with
                batch := rest
                calls := state.calls ++
                  [⟨event.pfnEvent, event.fd, event.parg1⟩]
                calledRemoved := true }, ?_, ?_⟩
            · simp [machine, step?, dispatch, batch, stored, wasRemoved]
            · simp [State.Safe]
      · have later : pos ∈ rest := by
          rw [batch] at member
          exact (List.mem_cons.mp member).resolve_left (Ne.symm same)
        obtain ⟨middle, stepped, sameBatch, sameHeap, sameRemoved⟩ :=
          dispatch_frame batch
        obtain ⟨actions, final, ran, isUnsafe⟩ :=
          @inductionHypothesis middle
            (by rwa [sameBatch])
            (by rwa [sameHeap, sameRemoved])
            sameBatch
        refine ⟨.dispatch :: actions, final, ?_, isUnsafe⟩
        simp only [Machine.run?, machine, step?, stepped]
        exact ran

/-- A removal that does not spare the batch dooms the loop. -/
theorem doomed_of_not_sparesBatch
    {state : State}
    {action : Action}
    {next : State}
    (takes : ¬ SparesBatch state action)
    (stepped : machine.step? state action = some next) :
    ∃ pos, Doomed next pos := by
  cases action with
  | remove fd =>
      simp only [SparesBatch, Option.mem_def, not_forall,
        Decidable.not_not] at takes
      obtain ⟨pos, found, member⟩ := takes
      obtain ⟨_, event, registration, stored, rfl⟩ := findFd_some found
      simp only [machine, step?, Option.some.injEq] at stepped
      subst next
      refine ⟨pos, ?_⟩
      unfold wmEpollRemove
      simp only [found, stored]
      split
      · refine ⟨member, ?_⟩
        intro other number live
        simp [State.freeEvent] at live
      · refine ⟨member, ?_⟩
        intro other number live
        simp only [State.unlink, stored, Option.some.injEq,
          Prod.mk.injEq] at live
        simp [State.unlink, live.2]
  | add fd events pevent pArg1 pexit pArg2 memory accepts =>
      exact absurd trivial takes
  | modify fd events accepts =>
      exact absurd trivial takes
  | removeEnd pos =>
      exact absurd trivial takes
  | epollWait ready =>
      exact absurd trivial takes
  | dispatch =>
      exact absurd trivial takes

/--
The dispatch loop is safe exactly in the runs in which no `wm_epoll_remove`
removes an event of the batch that is still to be dispatched: such runs are
safe, and a removal that breaks the condition can be continued to an unsafe
state.
-/
theorem safe_iff_sparesBatch
    {state : State}
    (reachable : machine.ReachableWhere SparesBatch state) :
    state.Safe ∧
      ∀ next action,
        machine.step? state action = some next →
        ¬ SparesBatch state action →
        ∃ actions final,
          machine.run? next actions = some final ∧ ¬ final.Safe := by
  constructor
  · exact (guarded_of_reachable reachable).safe
  · intro next action stepped takes
    obtain ⟨pos, doomed⟩ := doomed_of_not_sparesBatch takes stepped
    exact doomed.exists_unsafe

/-- Two ready events, the first of which removes itself, are dispatched. -/
theorem safe_iff_sparesBatch_selfRemoval :
    ∃ state,
      machine.ReachableWhere SparesBatch state ∧
        state.calls = [⟨11, 5, 0⟩, ⟨22, 6, 0⟩] ∧
        state.Safe := by
  obtain ⟨state, reachable, called⟩ :=
    Machine.ReachableWhere.exists_of_run
      machine
      SparesBatch
      wmEpollCreate
      [
        .add 5 1 (some 11) 0 none 0 (some 100) true,
        .add 6 1 (some 22) 0 none 0 (some 200) true,
        .epollWait [5, 6],
        .dispatch,
        .remove 5,
        .dispatch
      ]
      (fun state =>
        decide (state.calls = [⟨11, 5, 0⟩, ⟨22, 6, 0⟩]))
      rfl (by decide) (by decide)
  exact ⟨state, reachable, of_decide_eq_true called,
    (safe_iff_sparesBatch reachable).1⟩

/--
Two descriptors are ready in one batch, the callback of the first removes the
second, and the loop follows the pointer to the freed event.
-/
theorem removal_in_batch_readFreed :
    ¬ ∀ state, machine.Reachable state → state.Safe := by
  intro alwaysSafe
  obtain ⟨state, reachable, freed⟩ :=
    Machine.exists_reachable
      machine
      wmEpollCreate
      [
        .add 5 1 (some 11) 0 none 0 (some 100) true,
        .add 6 1 (some 22) 0 none 0 (some 200) true,
        .epollWait [5, 6],
        .dispatch,
        .remove 6,
        .dispatch
      ]
      (fun state => state.readFreed)
      rfl
      (by decide)
  have safe := (alwaysSafe state reachable).1
  simp [freed] at safe

end WkcRuntime.WmEpoll
