import WkcRuntime.LockOrder
import WkcRuntime.ListRLinearize

namespace WkcRuntime.ListR

open LinkedOrder

/-!
# The list from mutex operation to mutex operation

In the middle of an update a `next` is null and the nodes behind it hang on
local variables.  Nobody else can see that: the thread holds the mutex until the
pointers are in order again.  A turn is therefore one operation on a mutex with
everything that the thread does up to its next one, and between turns every
locked or awaited node can be reached from `head`, except for one that was just
unlinked.

The finer steps remain: a node is destroyed in a step of its own after it was
unlocked, and no step in between gives its mutex to anyone.  Threads lock the
nodes in the order of the list, which is why they never wait in a circle.
-/

variable {Tid T : Type}

/-- The number of steps, at most, before the next operation on a mutex. -/
def Pc.stretch :
    Pc T → Nat
  | .idle | .pushLock .. | .pushUnlock | .walkLock _ | .lockNext ..
  | .unlockCurrent .. | .unlockFound .. | .unlockRemoved ..
  | .stepOver .. | .unlockLast _ =>
      0
  | .pushNew _ | .pushStore .. | .readNext .. | .copyFound _
  | .relink .. =>
      1
  | .pushLink .. | .visit .. | .bypass .. | .destroy .. =>
      2
  | .pushTake .. | .detach .. =>
      3
  | .judge .. =>
      4

/-- The thread is about to lock or unlock a mutex, or in no call. -/
def Pc.AtMutex (pc : Pc T) : Prop :=
  pc.stretch = 0

instance (pc : Pc T) : Decidable pc.AtMutex :=
  inferInstanceAs (Decidable (_ = _))

/-- The node whose mutex a thread is about to lock. -/
def Pc.awaits :
    Pc T → Option NodeId
  | .pushLock .. | .walkLock _ =>
      some head
  | .lockNext _ _ next =>
      some next
  | _ =>
      none

/-- `remove_if` has unlinked the node and is about to unlock it. -/
def Pc.Unlinks
    (pc : Pc T)
    (id : NodeId) :
    Prop :=
  ∃ p current oldNext, pc = .unlockRemoved p current id oldNext

/-- The thread that an action moves. -/
def Action.tid :
    Action Tid T → Tid
  | .call tid _ =>
      tid
  | .run tid =>
      tid

namespace State

/-- The `next` pointers lead from `head` to a node. -/
def Reaches
    (state : State Tid T)
    (id : NodeId) :
    Prop :=
  Relation.ReflTransGen
    (fun before after => state.nextOf before = some after) head id

/-- A thread holds the mutex of a node or waits for it. -/
def Concerns
    (state : State Tid T)
    (tid : Tid)
    (id : NodeId) :
    Prop :=
  state.owner id = some tid ∨ (state.pc tid).awaits = some id

/-- This thread is about to lock or unlock a mutex, or in no call. -/
def Pauses
    (tid : Tid)
    (state : State Tid T) :
    Prop :=
  (state.pc tid).AtMutex

instance (tid : Tid) : DecidablePred (Pauses (T := T) tid) :=
  fun state => inferInstanceAs (Decidable (state.pc tid).AtMutex)

/-- Every thread is about to lock or unlock a mutex, or in no call. -/
def AtMutexes (state : State Tid T) : Prop :=
  ∀ tid, state.Pauses tid

variable [DecidableEq Tid]

/-- A thread takes a step and goes on to its next operation on a mutex. -/
def turn?
    (state : State Tid T)
    (action : Action Tid T) :
    Option (State Tid T) :=
  (machine.step? state action).map fun next =>
    machine.settle (Pauses action.tid) (.run action.tid)
      (next.pc action.tid).stretch next

end State

/-- Any number of threads on one list, seen at their mutex operations. -/
def turns
    [DecidableEq Tid] :
    Machine (State Tid T) (Action Tid T) where
  Initial := State.Fresh
  step? := State.turn?

/-- A thread at a mutex is not in the middle of an update. -/
theorem Pc.plain_of_atMutex
    {pc : Pc T}
    (atMutex : pc.AtMutex) :
    pc.Plain := by
  intro nextOf id
  cases pc <;>
    simp_all [Pc.AtMutex, Pc.stretch, Pc.successor]

/-- A thread that waits holds only the node before the awaited one. -/
theorem Pc.neighbours_of_awaits
    {pc : Pc T}
    {held id : NodeId}
    (awaits : pc.awaits = some id)
    (holds : held ∈ pc.holds) :
    pc.neighbours = some (held, id) := by
  cases pc <;>
    simp_all [Pc.awaits, Pc.holds, Pc.neighbours]

/-- A thread waits for the head, or for the neighbour of a node it holds. -/
theorem Pc.head_or_neighbour_of_awaits
    {pc : Pc T}
    {id : NodeId}
    (awaits : pc.awaits = some id) :
    id = head ∨ ∃ held, pc.neighbours = some (held, id) := by
  cases pc <;>
    simp_all [Pc.awaits, Pc.neighbours]

/-- At a mutex the only held node outside the list is one just unlinked. -/
theorem Pc.unlinks_of_spare
    {pc : Pc T}
    {id : NodeId}
    (atMutex : pc.AtMutex)
    (held : id ∈ pc.holds)
    (spare : pc.spare = some id) :
    pc.Unlinks id := by
  cases pc <;>
    simp_all [Pc.AtMutex, Pc.stretch, Pc.holds, Pc.spare, Pc.Unlinks]

/-- A call that returns is at a mutex. -/
theorem Pc.atMutex_of_returns
    {pc : Pc T}
    {id : NodeId}
    {found : Option (Shared T)}
    (returns : pc.returns = some (id, found)) :
    pc.AtMutex := by
  cases pc <;>
    simp_all [Pc.returns, Pc.AtMutex, Pc.stretch]

namespace State

variable {state next : State Tid T}
variable {order order' : List NodeId}
variable {tid : Tid}

namespace Chain

/-- An awaited node belongs to the list. -/
theorem awaited_mem
    (chain : state.Chain order)
    {id : NodeId}
    (awaits : (state.pc tid).awaits = some id) :
    id ∈ order := by
  rcases Pc.head_or_neighbour_of_awaits awaits with rfl | ⟨held, beside⟩
  · exact List.mem_of_mem_head? (chain.first ▸ rfl)
  · obtain ⟨behind, ahead, rfl⟩ := chain.split_neighbours beside
    simp

/-- Between turns every node of the list can be reached. -/
theorem reaches
    (chain : state.Chain order)
    (atMutexes : state.AtMutexes)
    {id : NodeId}
    (member : id ∈ order) :
    state.Reaches id := by
  have shown : ∀ other, state.nextOf other = state.successor other := by
    intro other
    cases owned : state.owner other with
    | none =>
        exact (successor_of_free owned).symm
    | some tid =>
        exact (successor_of_plain (Pc.plain_of_atMutex (atMutexes tid))
          (.inr owned)).symm
  have linked : Linked state.nextOf order :=
    chain.linked.congr fun other _ => shown other
  exact linked.reaches chain.first member

/-- Between turns every locked or awaited node is reachable or unlinked. -/
theorem reaches_or_unlinks
    (chain : state.Chain order)
    (atMutexes : state.AtMutexes)
    {id : NodeId}
    (concerns : state.Concerns tid id) :
    state.Reaches id ∨ (state.pc tid).Unlinks id := by
  rcases concerns with owned | awaits
  · have held := ((chain.station tid).held id).1 owned
    rcases Pc.stands_or_spare held with stands | spare
    · exact .inl (chain.reaches atMutexes
        ((chain.station tid).seated id stands))
    · exact .inr (Pc.unlinks_of_spare (atMutexes tid) held spare)
  · exact .inl (chain.reaches atMutexes (chain.awaited_mem awaits))

/-- A thread in a call that waits for no mutex can take its next step. -/
theorem run?_of_awaits_none
    [DecidableEq Tid]
    (state : State Tid T)
    (busy : state.pc tid ≠ .idle)
    (ready : (state.pc tid).awaits = none) :
    ∃ next, state.run? tid = some next := by
  cases located : state.pc tid with
  | visit body later =>
      cases body <;> simp [run?, located]
  | _ =>
      simp_all [run?, Pc.awaits]

/-- A free mutex can be locked. -/
theorem lock?_of_free
    [DecidableEq Tid]
    (state : State Tid T)
    {id : NodeId}
    {pc : Pc T}
    (free : state.owner id = none) :
    ∃ next, state.lock? id tid pc = some next := by
  cases stored : state.heap id <;> simp [lock?, stored, free]

/-- A thread that waits for a free mutex can lock it. -/
theorem run?_of_free
    [DecidableEq Tid]
    (state : State Tid T)
    {id : NodeId}
    (awaits : (state.pc tid).awaits = some id)
    (free : state.owner id = none) :
    ∃ next, state.run? tid = some next := by
  cases located : state.pc tid with
  | lockNext walk current later =>
      rw [located, Pc.awaits, Option.some.injEq] at awaits
      subst awaits
      simp only [run?, located]
      exact lock?_of_free state free
  | pushLock newNode value =>
      rw [located, Pc.awaits, Option.some.injEq] at awaits
      subst awaits
      simp only [run?, located]
      exact lock?_of_free (state.number tid _) free
  | walkLock walk =>
      rw [located, Pc.awaits, Option.some.injEq] at awaits
      subst awaits
      simp only [run?, located]
      exact lock?_of_free (state.number tid _) free
  | _ =>
      simp [located, Pc.awaits] at awaits

/-- Threads wait for nodes behind those that they hold. -/
theorem ascends
    (chain : state.Chain order)
    {held id : NodeId}
    (owned : state.owner held = some tid)
    (awaits : (state.pc tid).awaits = some id) :
    order.idxOf held < order.idxOf id := by
  have holds := ((chain.station tid).held held).1 owned
  obtain ⟨behind, ahead, rfl⟩ :=
    chain.split_neighbours (Pc.neighbours_of_awaits awaits holds)
  exact LockOrder.idxOf_lt_idxOf chain.nodup

/-- While a call is running some thread can take a step. -/
theorem exists_run
    [DecidableEq Tid]
    (chain : state.Chain order)
    (busy : ¬ state.Quiet) :
    ∃ tid next, state.run? tid = some next := by
  obtain ⟨tid, inCall⟩ := Classical.not_forall.1 busy
  cases awaits : (state.pc tid).awaits with
  | none =>
      exact ⟨tid, run?_of_awaits_none state inCall awaits⟩
  | some id =>
      rcases LockOrder.exists_ready (order.idxOf ·) order.length
          (fun _ => List.idxOf_le_length)
          (fun _ _ _ owned awaits => chain.ascends owned awaits)
          awaits with
        ⟨other, target, waits, free⟩ | ⟨other, held, owned, ready⟩
      · exact ⟨other, run?_of_free state waits free⟩
      · have holds := ((chain.station other).held held).1 owned
        have running : state.pc other ≠ .idle := by
          intro idle
          rw [idle] at holds
          cases holds
        exact ⟨other, run?_of_awaits_none state running ready⟩

/-- Writing a node destroys none. -/
theorem setNode_ne_none
    {id other : NodeId}
    {node : Node T}
    (stored : state.heap id ≠ none) :
    (state.setNode other (some node)).heap id ≠ none := by
  by_cases same : id = other
  · simp [setNode, same]
  · simpa [setNode, same] using stored

/-- Only the destructor in `remove_if` makes a node disappear. -/
theorem located_of_destroyed
    [DecidableEq Tid]
    (progress : state.Progress tid order order' next)
    {id : NodeId}
    (stored : state.heap id ≠ none)
    (destroyed : next.heap id = none) :
    ∃ p current, state.pc tid = .destroy p current (some id) := by
  cases progress with
  | newNode | take | link | store | visitOn | visitStop | judgeKeep
  | judgeDrop | detach | bypass | relink =>
      exact (setNode_ne_none stored destroyed).elim
  | startPush | startWalk | leave | reachEnd | reachNext | lockNext
  | unlockCurrent | copyFound | unlockRemoved | stepOver =>
      exact (stored destroyed).elim
  | @destroy _ p current removed located =>
      by_cases same : id = removed
      · exact ⟨p, current, same ▸ located⟩
      · simp only [goto, setNode, Function.update_of_ne same] at destroyed
        exact (stored destroyed).elim

/-- A node that is about to be destroyed concerns no thread. -/
theorem unconcerned_of_destroy
    (chain : state.Chain order)
    {p : T → Bool × T}
    {current id : NodeId}
    (located : state.pc tid = .destroy p current (some id))
    (other : Tid) :
    ¬ state.Concerns other id := by
  have isSpare : (state.pc tid).spare = some id := by
    rw [located]
    rfl
  rintro (owned | awaits)
  · rw [chain.free_of_destroy located] at owned
    cases owned
  · exact ((chain.station tid).spare id isSpare).1
      (chain.awaited_mem awaits)

/-- A node concerns no thread when it is destroyed. -/
theorem unconcerned_of_destroyed
    [DecidableEq Tid]
    (chain : state.Chain order)
    {action : Action Tid T}
    {id : NodeId}
    (stepped : machine.step? state action = some next)
    (stored : state.heap id ≠ none)
    (destroyed : next.heap id = none)
    (other : Tid) :
    ¬ state.Concerns other id := by
  rcases chain.step_cases stepped with
    ⟨tid, begun, rfl, located, rfl⟩ | ⟨tid, order', rfl, progress⟩
  · exact (stored destroyed).elim
  · obtain ⟨p, current, located⟩ :=
      located_of_destroyed progress stored destroyed
    exact chain.unconcerned_of_destroy located other

/-- Between two operations on mutexes a thread gets closer to the second. -/
theorem stretch_lt
    [DecidableEq Tid]
    (progress : state.Progress tid order order' next)
    (between : ¬ (state.pc tid).AtMutex) :
    (next.pc tid).stretch < (state.pc tid).stretch := by
  cases progress with
  | newNode located | take located | link located | store located
  | reachEnd located | reachNext located | visitOn located
  | visitStop located | copyFound located | judgeKeep located
  | judgeDrop located | detach located | bypass located
  | relink located | destroy located =>
      simp [located, newNode, goto, Pc.stretch]
  | startPush located | startWalk located | lockNext located
  | unlockCurrent located | unlockRemoved located
  | stepOver located =>
      simp [located, Pc.AtMutex, Pc.stretch] at between
  | leave located =>
      exact (between (Pc.atMutex_of_returns located)).elim

/-- A step keeps the chain and the places of the other threads. -/
theorem moved
    [DecidableEq Tid]
    (chain : state.Chain order)
    {action : Action Tid T}
    (stepped : machine.step? state action = some next) :
    (∃ order', next.Chain order') ∧
      ∀ other, other ≠ action.tid → next.pc other = state.pc other := by
  rcases chain.step_cases stepped with
    ⟨tid, begun, rfl, located, rfl⟩ | ⟨tid, order', rfl, progress⟩
  · refine ⟨⟨order, chain.call located begun⟩, ?_⟩
    intro other different
    exact Function.update_of_ne different _ _
  · exact ⟨⟨order', chain.step progress⟩, (chain.moves progress).pc⟩

/-- A thread between two operations on mutexes can go on to the second. -/
theorem lowers
    [DecidableEq Tid]
    (chain : state.Chain order)
    (between : ¬ (state.pc tid).AtMutex) :
    ∃ next,
      machine.step? state (.run tid) = some next ∧
        (next.pc tid).stretch < (state.pc tid).stretch := by
  have busy : state.pc tid ≠ .idle := by
    intro idle
    exact between (by rw [idle]; rfl)
  have ready : (state.pc tid).awaits = none := by
    cases located : state.pc tid <;>
      simp_all [Pc.AtMutex, Pc.stretch, Pc.awaits]
  obtain ⟨next, stepped⟩ := run?_of_awaits_none state busy ready
  obtain ⟨order', progress⟩ := chain.progress stepped
  exact ⟨next, stepped, stretch_lt progress between⟩

/-- What a thread leaves as it is until its turn is over. -/
structure Turning
    (start : State Tid T)
    (tid : Tid)
    (state : State Tid T) :
    Prop where
  chained : ∃ order, state.Chain order
  others : ∀ other, other ≠ tid → state.pc other = start.pc other

/-- A turn goes on until the thread pauses, and moves no other thread. -/
theorem turning
    [DecidableEq Tid]
    (chain : state.Chain order)
    {action : Action Tid T}
    (turned : state.turn? action = some next) :
    next.Pauses action.tid ∧ Turning state action.tid next := by
  obtain ⟨middle, stepped, rfl⟩ := Option.map_eq_some_iff.1 turned
  obtain ⟨chained, others⟩ := chain.moved stepped
  have begun : Turning state action.tid middle := ⟨chained, others⟩
  have goesOn :
      ∀ {before after : State Tid T},
        Turning state action.tid before →
        machine.step? before (.run action.tid) = some after →
        Turning state action.tid after := by
    rintro before after ⟨⟨order, chain⟩, same⟩ stepped
    obtain ⟨kept, others⟩ := chain.moved stepped
    refine ⟨kept, ?_⟩
    intro other different
    rw [others other different, same other different]
  constructor
  · apply Machine.settle_settled _ begun (Nat.le_refl _)
    intro before turning between
    obtain ⟨order, chain⟩ := turning.chained
    obtain ⟨after, stepped, closer⟩ := chain.lowers between
    exact ⟨after, stepped, goesOn turning stepped, closer⟩
  · exact Machine.settle_invariant goesOn begun

/-- After a turn every thread is again at a mutex, or in no call. -/
theorem atMutexes_turn
    [DecidableEq Tid]
    (chain : state.Chain order)
    (atMutexes : state.AtMutexes)
    {action : Action Tid T}
    (turned : state.turn? action = some next) :
    next.AtMutexes := by
  obtain ⟨pauses, turning⟩ := chain.turning turned
  intro tid
  by_cases mover : tid = action.tid
  · rw [mover]
    exact pauses
  · unfold Pauses
    rw [turning.others tid mover]
    exact atMutexes tid

end Chain

/-- Turns lead to states of the finer steps with every thread at a mutex. -/
theorem reachable_of_turns
    [DecidableEq Tid]
    (reachable : turns.Reachable state) :
    machine.Reachable state ∧ state.AtMutexes := by
  apply reachable.invariant
  · intro state fresh
    refine ⟨.initial fresh, ?_⟩
    intro tid
    unfold Pauses
    rw [fresh.pc tid]
    rfl
  · rintro state next action ⟨reached, atMutexes⟩ _ turned
    obtain ⟨order, chain, _⟩ := linearized reached
    refine ⟨?_, chain.atMutexes_turn atMutexes turned⟩
    obtain ⟨middle, stepped, rfl⟩ := Option.map_eq_some_iff.1 turned
    exact Machine.settle_invariant
      (fun reached stepped => reached.step trivial stepped)
      (reached.step trivial stepped)

end State

/--
Between turns every node that a thread holds or waits for is reachable from
`head` or was just unlinked by that thread.  At every step a node is destroyed
only when it concerns no thread, no access goes wrong, and while a call is
running some thread can go on, in turns and in single steps.
-/
theorem handOverHand_safe
    [DecidableEq Tid] :
    (∀ state : State Tid T,
      turns.Reachable state →
      machine.Reachable state ∧
        (∀ tid id,
          state.Concerns tid id →
          state.Reaches id ∨ (state.pc tid).Unlinks id) ∧
        (¬ state.Quiet →
          ∃ tid next, turns.step? state (.run tid) = some next)) ∧
      ∀ state : State Tid T,
        machine.Reachable state →
        state.fault = false ∧
          (∀ action next id,
            machine.step? state action = some next →
            state.heap id ≠ none →
            next.heap id = none →
            ∀ tid, ¬ state.Concerns tid id) ∧
          (¬ state.Quiet →
            ∃ tid next, machine.step? state (.run tid) = some next) := by
  constructor
  · intro state reachable
    obtain ⟨reached, atMutexes⟩ := State.reachable_of_turns reachable
    obtain ⟨order, chain, _⟩ := State.linearized reached
    refine ⟨reached, ?_, ?_⟩
    · intro tid id concerns
      exact chain.reaches_or_unlinks atMutexes concerns
    · intro busy
      obtain ⟨tid, next, stepped⟩ := chain.exists_run busy
      exact ⟨tid, _, Option.map_eq_some_iff.2 ⟨next, stepped, rfl⟩⟩
  · intro state reachable
    obtain ⟨order, chain, _⟩ := State.linearized reachable
    refine ⟨chain.sound, ?_, chain.exists_run⟩
    intro action next id stepped stored destroyed
    exact chain.unconcerned_of_destroyed stepped stored destroyed

/--
One thread removes the only node while another waits for the head: the node is
still locked after it was unlinked, and free when it is destroyed.
-/
theorem handOverHand_safe_removing :
    (∃ state : State Bool Nat,
      state.owner 1 = some true ∧
        (state.Reaches 1 ∨ (state.pc true).Unlinks 1) ∧
        ∃ tid next, turns.step? state (.run tid) = some next) ∧
      ∃ state next : State Bool Nat,
        machine.step? state (.run true) = some next ∧
          state.heap 1 ≠ none ∧
          next.heap 1 = none ∧
          ∀ tid, ¬ state.Concerns tid 1 := by
  constructor
  · obtain ⟨state, reachable, unlinked⟩ :=
      Machine.exists_reachable
        turns
        (State.create : State Bool Nat)
        [
          .call false (.pushFront 5),
          .run false,
          .run false,
          .call true (.walk (.removeIf fun value => (true, value))),
          .run true,
          .run true,
          .call false (.walk (.visit (.forEach (· + 1))))
        ]
        (fun state =>
          decide (state.owner 1 = some true) && !(state.pc true).isIdle)
        State.fresh_create
        (by decide)
    rw [Bool.and_eq_true, decide_eq_true_eq, Bool.not_eq_true'] at unlinked
    obtain ⟨owned, inCall⟩ := unlinked
    obtain ⟨_, reaches, goesOn⟩ :=
      handOverHand_safe.1 state reachable
    refine ⟨state, owned, reaches true 1 (.inl owned), goesOn ?_⟩
    intro quiet
    rw [quiet true] at inCall
    cases inCall
  · obtain ⟨state, reachable, destroys⟩ :=
      Machine.exists_reachable
        machine
        (State.create : State Bool Nat)
        (.call false (.pushFront 5) :: List.replicate 6 (.run false) ++
          .call true (.walk (.removeIf fun value => (true, value))) ::
          List.replicate 8 (.run true) ++
          [.call false (.walk (.visit (.forEach (· + 1))))])
        (fun state =>
          (state.heap 1).isSome &&
            decide ((machine.step? state (.run true)).map
              (fun next => (next.heap 1).isNone) = some true))
        State.fresh_create
        (by decide)
    rw [Bool.and_eq_true, decide_eq_true_eq,
      Option.map_eq_some_iff] at destroys
    obtain ⟨isSome, next, stepped, isNone⟩ := destroys
    have stored : state.heap 1 ≠ none := Option.isSome_iff_ne_none.1 isSome
    have destroyed : next.heap 1 = none := Option.isNone_iff_eq_none.1 isNone
    obtain ⟨_, free, _⟩ := handOverHand_safe.2 state reachable
    exact ⟨state, next, stepped, stored, destroyed,
      free (.run true) next 1 stepped stored destroyed⟩

end WkcRuntime.ListR
