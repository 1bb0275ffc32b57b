import WkcRuntime.WmEpollRegistry

namespace WkcRuntime.WmEpoll

open CircularList

/-!
# What the return codes of an epoll handle say

`wm_epoll_add` answers `0` for a new registration and also, as it does not count
`EEXIST` as an error, for a descriptor that is registered already; then the
earlier registration stays, with its events, callback and argument.
`wm_epoll_modify` answers `0` for every registered descriptor.  After `-1` of
either the handle is as it was.
-/

/-- What `wm_epoll_wait` calls when the kernel reports a descriptor. -/
def Handle.dispatch
    (handle : Handle)
    (fd : Int32) :
    Option Call :=
  (handle.interest fd).bind fun entry =>
    (handle.heap entry.2).map fun registration =>
      ⟨registration.1.pfnEvent, registration.1.fd, registration.1.parg1⟩

/--
The kernel reports a descriptor for some events and with the address of a listed
event, and `wm_epoll_wait` then makes the call of that event.
-/
structure Handle.Registered
    (handle : Handle)
    (fd : Int32)
    (events : UInt32)
    (event : WmEvent) :
    Prop where
  watched :
    ∃ pos number nodes,
      handle.interest fd = some (events, pos) ∧
        handle.heap pos = some (event, number) ∧
        handle.nodes = some nodes ∧
        Node.event pos ∈ nodes
  dispatched :
    handle.dispatch fd = some ⟨event.pfnEvent, fd, event.parg1⟩

/-- What the answer of one `wm_epoll_add` says. -/
structure AddTruthful
    (handle : Handle)
    (fd : Int32)
    (events : UInt32)
    (pevent : Option WmPfn)
    (pArg1 : Arg)
    (pexit : Option WmPfn)
    (pArg2 : Arg)
    (outcome : Handle × Int32) :
    Prop where
  codes :
    outcome.2 = 0 ∨ outcome.2 = -1
  added :
    outcome.2 = 0 →
    (¬ ∃ old event, handle.Registered fd old event) →
    ∃ pfnEvent,
      pevent = some pfnEvent ∧
        outcome.1.Registered fd events
          ⟨fd, pfnEvent, pArg1, pexit, pArg2⟩
  kept :
    outcome.2 = 0 →
    (∃ old event, handle.Registered fd old event) →
    outcome.1 = handle
  refused :
    outcome.2 = -1 →
    outcome.1 = handle

/-- What the answer of one `wm_epoll_modify` says. -/
structure ModifyTruthful
    (handle : Handle)
    (fd : Int32)
    (events : UInt32)
    (accepts : Bool)
    (outcome : Handle × Int32) :
    Prop where
  codes :
    outcome.2 = 0 ∨ outcome.2 = -1
  modified :
    outcome.2 = 0 →
    accepts = true →
    ∃ old event,
      handle.Registered fd old event ∧
        outcome.1.Registered fd events event
  refused :
    outcome.2 = -1 →
    outcome.1 = handle

/-- `EEXIST` stands for a registered descriptor. -/
theorem ctlAdd_eq_eexist
    {interest : Interest}
    {fd : Int32}
    {events : UInt32}
    {pointer : Addr}
    {accepts : Bool}
    (refused :
      ctlAdd interest fd events pointer accepts = .error .eexist) :
    (interest fd).isSome := by
  unfold ctlAdd at refused
  cases entry : interest fd with
  | some _ => rfl
  | none => cases accepts <;> simp [entry] at refused

/-- The two answers are different. -/
theorem answers_ne : (-1 : Int32) ≠ 0 := by
  decide

/-- A refusal that changes nothing says what it should. -/
theorem AddTruthful.of_refused
    {handle : Handle}
    {fd : Int32}
    {events : UInt32}
    {pevent : Option WmPfn}
    {pArg1 : Arg}
    {pexit : Option WmPfn}
    {pArg2 : Arg} :
    AddTruthful handle fd events pevent pArg1 pexit pArg2
      (handle, -1) where
  codes := Or.inr rfl
  added := fun succeeded => absurd succeeded answers_ne
  kept := fun _ _ => rfl
  refused := fun _ => rfl

/-- A refusal that changes nothing says what it should. -/
theorem ModifyTruthful.of_refused
    {handle : Handle}
    {fd : Int32}
    {events : UInt32}
    {accepts : Bool} :
    ModifyTruthful handle fd events accepts (handle, -1) where
  codes := Or.inr rfl
  modified := fun succeeded => absurd succeeded answers_ne
  refused := fun _ => rfl

namespace Tracks

variable {handle : Handle}
variable {order : List Addr}

/-- The kernel's entry of a descriptor is that of its listed event. -/
theorem registered_of
    (tracks : Tracks handle order)
    {fd : Int32}
    {events : UInt32}
    {pos : Addr}
    {event : WmEvent}
    {number : Nat}
    (watched : handle.interest fd = some (events, pos))
    (stored : handle.heap pos = some (event, number)) :
    handle.Registered fd events event := by
  have agrees := tracks.agrees
  obtain ⟨member, registration, storedToo, sameFd⟩ :=
    agrees.registered fd events pos watched
  obtain rfl := Option.some.inj (storedToo.symm.trans stored)
  constructor
  · exact ⟨pos, number, _, watched, stored, agrees.listed,
      List.mem_map_of_mem member⟩
  · subst sameFd
    simp [Handle.dispatch, watched, stored]

/-- Every descriptor that the kernel has is registered. -/
theorem exists_registered
    (tracks : Tracks handle order)
    {fd : Int32}
    (watched : (handle.interest fd).isSome) :
    ∃ events event, handle.Registered fd events event := by
  obtain ⟨⟨events, pos⟩, watches⟩ :=
    Option.isSome_iff_exists.mp watched
  obtain ⟨_, ⟨event, number⟩, stored, _⟩ :=
    tracks.agrees.registered fd events pos watches
  exact ⟨events, event, tracks.registered_of watches stored⟩

/-- A registered descriptor is one that the kernel has. -/
theorem watched_of_registered
    {fd : Int32}
    {events : UInt32}
    {event : WmEvent}
    (registered : handle.Registered fd events event) :
    (handle.interest fd).isSome := by
  obtain ⟨pos, number, nodes, watched, _⟩ := registered.watched
  exact Option.isSome_of_eq_some watched

/-- The answer of `wm_epoll_add`. -/
theorem add_truthful
    (tracks : Tracks handle order)
    (fd : Int32)
    (events : UInt32)
    (pevent : Option WmPfn)
    (pArg1 : Arg)
    (pexit : Option WmPfn)
    (pArg2 : Arg)
    {memory : Option Addr}
    (accepts : Bool)
    (unused : ∀ pe ∈ memory, handle.heap pe = none) :
    AddTruthful handle fd events pevent pArg1 pexit pArg2
      (handle.wmEpollAdd fd events pevent pArg1 pexit pArg2
        memory accepts) := by
  obtain ⟨order', after⟩ :=
    tracks.add fd events pevent pArg1 pexit pArg2 accepts unused
  unfold Handle.wmEpollAdd at after ⊢
  split
  · rename_i pfnEvent pe
    have unusedPe := unused pe rfl
    simp only at after ⊢
    split
    · rename_i errno refused
      rw [Handle.freeEvent_storeEvent unusedPe]
      by_cases eexist : errno = .eexist
      · subst errno
        have watched := ctlAdd_eq_eexist refused
        refine ⟨Or.inl rfl, ?_, fun _ _ => rfl, fun _ => rfl⟩
        intro _ unregistered
        exact absurd (tracks.exists_registered watched) unregistered
      · simp only [eexist, ↓reduceIte]
        exact AddTruthful.of_refused
    · rename_i interest added
      obtain ⟨_, unwatched, rfl⟩ := ctlAdd_eq_ok_iff.mp added
      rw [added] at after
      refine ⟨Or.inl rfl, ?_, ?_, ?_⟩
      · intro _ _
        exact ⟨pfnEvent, rfl,
          after.registered_of
            (Function.update_self ..) (Function.update_self ..)⟩
      · rintro _ ⟨old, event, registered⟩
        have watched := watched_of_registered registered
        rw [show handle.interest fd = none from unwatched] at watched
        cases watched
      · intro failed
        exact absurd failed.symm answers_ne
  · exact AddTruthful.of_refused

/-- The answer of `wm_epoll_modify`. -/
theorem modify_truthful
    (tracks : Tracks handle order)
    (fd : Int32)
    (events : UInt32)
    (accepts : Bool) :
    ∃ outcome,
      handle.wmEpollModify fd events accepts = some outcome ∧
        ModifyTruthful handle fd events accepts outcome := by
  unfold Handle.wmEpollModify
  rw [tracks.findFd fd]
  cases found : (handle.toState order).findFd fd with
  | none =>
      exact ⟨(handle, -1), rfl, ModifyTruthful.of_refused⟩
  | some pos =>
      obtain ⟨member, event, number, stored, rfl⟩ := findFd_some found
      have storedHere : handle.heap pos = some (event, number) := stored
      obtain ⟨old, watched⟩ :=
        tracks.attached.interest_eq member stored
      have watchedHere :
          handle.interest event.fd = some (old, pos) := watched
      simp only [Option.bind_some, storedHere, Option.map_some]
      split
      · rename_i interest modified
        obtain ⟨_, isSome, rfl⟩ := ctlMod_eq_ok_iff.mp modified
        refine ⟨_, rfl, Or.inl rfl, ?_, ?_⟩
        · intro _ _
          refine ⟨old, event,
            tracks.registered_of watchedHere storedHere, ?_⟩
          exact (tracks.watch found isSome).registered_of
            (Function.update_self ..) storedHere
        · intro failed
          exact absurd failed.symm answers_ne
      · rename_i errno refused
        refine ⟨_, rfl, Or.inl rfl, ?_, fun _ => rfl⟩
        rintro _ rfl
        simp [ctlMod, watchedHere] at refused

end Tracks

/--
After every sequence of operations: an answer `0` of `wm_epoll_add` to a
descriptor that was not registered means that it is, with the events, callback
and argument of the call; to one that was, that its registration is as before.
An answer `0` of `wm_epoll_modify` means that the descriptor is registered, and
has the events of the call if the kernel accepted them.  After `-1` the handle
is as before.
-/
theorem codes_truthful
    {handle : Handle}
    (reachable : registry.Reachable handle) :
    (∀ fd events pevent pArg1 pexit pArg2 memory accepts,
      (∀ pe ∈ memory, handle.heap pe = none) →
      AddTruthful handle fd events pevent pArg1 pexit pArg2
        (handle.wmEpollAdd fd events pevent pArg1 pexit pArg2
          memory accepts)) ∧
      ∀ fd events accepts,
        ∃ outcome,
          handle.wmEpollModify fd events accepts = some outcome ∧
            ModifyTruthful handle fd events accepts outcome := by
  obtain ⟨⟨order, tracks⟩, _⟩ := exists_tracks reachable
  constructor
  · intro fd events pevent pArg1 pexit pArg2 memory accepts unused
    exact tracks.add_truthful fd events pevent pArg1 pexit pArg2
      accepts unused
  · intro fd events accepts
    exact tracks.modify_truthful fd events accepts

/-- A registered descriptor is added once more. -/
theorem codes_truthful_second_add :
    ∃ handle,
      registry.Reachable handle ∧
        handle.dispatch 6 = some ⟨22, 6, 7⟩ ∧
        AddTruthful handle 6 4 (some 33) 9 none 0
          (handle.wmEpollAdd 6 4 (some 33) 9 none 0 (some 200) true) := by
  obtain ⟨handle, reachable, called⟩ :=
    Machine.exists_reachable
      registry
      .wmEpollCreate
      [.add 6 1 (some 22) 7 none 0 (some 100) true]
      (fun handle =>
        decide (handle.dispatch 6 = some ⟨22, 6, 7⟩) &&
          decide (handle.heap 200 = none))
      rfl
      (by decide)
  simp only [Bool.and_eq_true, decide_eq_true_eq] at called
  refine ⟨handle, reachable, called.1, ?_⟩
  apply (codes_truthful reachable).1
  rintro pe ⟨⟩
  exact called.2

/--
The second `wm_epoll_add` of a descriptor answers `0`, and the dispatcher goes
on to make the call of the first one.
-/
theorem add_zero_keeps_first :
    ¬ ∀ handle,
      registry.Reachable handle →
      ∀ fd events pevent pArg1 pexit pArg2 memory accepts,
        (∀ pe ∈ memory, handle.heap pe = none) →
        (handle.wmEpollAdd fd events pevent pArg1 pexit pArg2
          memory accepts).2 = 0 →
        ∃ pfnEvent,
          pevent = some pfnEvent ∧
            (handle.wmEpollAdd fd events pevent pArg1 pexit pArg2
              memory accepts).1.Registered fd events
                ⟨fd, pfnEvent, pArg1, pexit, pArg2⟩ := by
  intro registers
  obtain ⟨handle, reachable, called⟩ :=
    Machine.exists_reachable
      registry
      .wmEpollCreate
      [.add 6 1 (some 22) 7 none 0 (some 100) true]
      (fun handle =>
        decide
            ((handle.wmEpollAdd 6 4 (some 33) 9 none 0
              (some 200) true).2 = 0) &&
          (decide
              ((handle.wmEpollAdd 6 4 (some 33) 9 none 0
                (some 200) true).1.dispatch 6 = some ⟨22, 6, 7⟩) &&
            decide (handle.heap 200 = none)))
      rfl
      (by decide)
  simp only [Bool.and_eq_true, decide_eq_true_eq] at called
  obtain ⟨succeeded, calls, unused⟩ := called
  obtain ⟨pfnEvent, _, registered⟩ :=
    registers handle reachable 6 4 (some 33) 9 none 0 (some 200) true
      (by rintro pe ⟨⟩; exact unused)
      succeeded
  have same := calls.symm.trans registered.dispatched
  have sameArg : (7 : Arg) = 9 :=
    congrArg Call.arg (Option.some.inj same)
  exact absurd sameArg (by decide)

/--
`wm_epoll_modify` answers `0` also where its `epoll_ctl` has failed, and the
descriptor keeps the events that it had.
-/
theorem modify_zero_keeps_events :
    ¬ ∀ handle,
      registry.Reachable handle →
      ∀ fd events accepts outcome,
        handle.wmEpollModify fd events accepts = some outcome →
        outcome.2 = 0 →
        ∃ event, outcome.1.Registered fd events event := by
  intro modifies
  obtain ⟨handle, reachable, called⟩ :=
    Machine.exists_reachable
      registry
      .wmEpollCreate
      [.add 6 1 (some 22) 7 none 0 (some 100) true]
      (fun handle =>
        decide
          ((handle.wmEpollModify 6 4 false).map
              (fun outcome => (outcome.2, outcome.1.interest 6)) =
            some (0, some (1, 100))))
      rfl
      (by decide)
  rw [decide_eq_true_eq, Option.map_eq_some_iff] at called
  obtain ⟨outcome, modified, called⟩ := called
  obtain ⟨succeeded, unchanged⟩ := Prod.mk.inj called
  obtain ⟨_, registered⟩ :=
    modifies handle reachable 6 4 false outcome modified succeeded
  obtain ⟨_, _, _, watched, _⟩ := registered.watched
  rw [unchanged] at watched
  cases watched

end WkcRuntime.WmEpoll
