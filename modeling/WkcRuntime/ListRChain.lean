import WkcRuntime.LinkedOrder
import WkcRuntime.ListRSource

namespace WkcRuntime.ListR

open LinkedOrder

/-!
# The chain of nodes behind `list_r`

While threads insert and remove nodes the pointers alone do not show the list:
a `next` that is being moved is null for a while.  The invariant therefore
speaks of an order of nodes, and of the successor of a node as the thread that
holds its mutex is about to establish it.

A thread owns the nodes whose mutex it holds and the node that it has made, or
unlinked, and that no pointer leads to.  What a thread does not own it does not
change, so the invariant of one thread survives the steps of the others.
-/

variable {Tid T : Type}

/-- The nodes whose mutex a thread holds. -/
def Pc.holds :
    Pc T → List NodeId
  | .idle | .pushNew _ | .pushLock .. | .walkLock _ =>
      []
  | .pushTake .. | .pushLink .. | .pushStore .. | .pushUnlock =>
      [head]
  | .readNext _ current | .lockNext _ current _ | .destroy _ current _
  | .unlockLast current =>
      [current]
  | .unlockCurrent _ current next | .judge _ current next
  | .detach _ current next | .bypass _ current next _
  | .relink _ current next _ _ | .unlockRemoved _ current next _
  | .stepOver _ current next =>
      [current, next]
  | .visit _ next | .copyFound next | .unlockFound next _ =>
      [next]

/-- The node of a thread that no pointer of the list leads to. -/
def Pc.spare :
    Pc T → Option NodeId
  | .pushLock newNode _ | .pushTake newNode _ | .pushLink newNode _ _
  | .pushStore newNode _ =>
      some newNode
  | .detach _ _ next | .bypass _ _ next _ | .relink _ _ next _ _
  | .unlockRemoved _ _ next _ =>
      some next
  | .destroy _ _ oldNext =>
      oldNext
  | _ =>
      none

/-- The held nodes of a thread that belong to the list. -/
def Pc.stands :
    Pc T → List NodeId
  | .detach _ current _ | .bypass _ current _ _
  | .relink _ current _ _ _ | .unlockRemoved _ current _ _ =>
      [current]
  | pc =>
      pc.holds

/-- Two nodes that a thread takes for neighbours. -/
def Pc.neighbours :
    Pc T → Option (NodeId × NodeId)
  | .lockNext _ current next | .unlockCurrent _ current next
  | .judge _ current next | .stepOver _ current next =>
      some (current, next)
  | _ =>
      none

/-- The successor that a node has, or is about to get from this thread. -/
def Pc.successor
    (nextOf : NodeId → Option NodeId)
    (id : NodeId) :
    Pc T → Option NodeId
  | .pushLink _ _ rest | .relink _ _ _ _ rest =>
      rest
  | .pushStore newNode _ =>
      nextOf newNode
  | .detach _ _ next | .bypass _ _ next _ =>
      nextOf next
  | _ =>
      nextOf id

/-- A thread holds the mutex of a node, or the node is its own. -/
def Pc.Owns
    (pc : Pc T)
    (id : NodeId) :
    Prop :=
  id ∈ pc.holds ∨ pc.spare = some id

/-- A held node belongs to the list or is the thread's own. -/
theorem Pc.stands_or_spare
    {pc : Pc T}
    {id : NodeId}
    (held : id ∈ pc.holds) :
    id ∈ pc.stands ∨ pc.spare = some id := by
  cases pc <;>
    simp_all [Pc.holds, Pc.stands, Pc.spare, eq_comm]

/-- A thread stands on nodes that it holds. -/
theorem Pc.holds_of_stands
    {pc : Pc T}
    {id : NodeId}
    (stands : id ∈ pc.stands) :
    id ∈ pc.holds := by
  cases pc <;>
    simp_all [Pc.holds, Pc.stands]

/-- Of two neighbours a thread stands on the first. -/
theorem Pc.stands_of_neighbours
    {pc : Pc T}
    {current next : NodeId}
    (neighbours : pc.neighbours = some (current, next)) :
    current ∈ pc.stands := by
  cases pc <;>
    simp_all [Pc.neighbours, Pc.stands, Pc.holds]

namespace State

/-- The pointer in a node. -/
def nextOf
    (state : State Tid T)
    (id : NodeId) :
    Option NodeId :=
  (state.heap id).bind Node.next

/-- The successor of a node, whatever its `next` is at the moment. -/
def successor
    (state : State Tid T)
    (id : NodeId) :
    Option NodeId :=
  match state.owner id with
  | none =>
      state.nextOf id
  | some tid =>
      (state.pc tid).successor state.nextOf id

/-- What a thread in the middle of an update knows of its nodes. -/
def Fields
    (state : State Tid T) :
    Pc T → Prop
  | .pushLock newNode value | .pushTake newNode value =>
      state.heap newNode = some ⟨some ⟨newNode, value⟩, none⟩
  | .pushLink newNode value _ =>
      state.heap newNode = some ⟨some ⟨newNode, value⟩, none⟩ ∧
        state.nextOf head = none
  | .pushStore newNode value =>
      (∃ rest,
        state.heap newNode = some ⟨some ⟨newNode, value⟩, rest⟩) ∧
        state.nextOf head = none
  | .visit _ next | .copyFound next =>
      next ≠ head
  | .detach _ current next =>
      state.nextOf current = some next
  | .bypass _ current next oldNext =>
      state.nextOf current = none ∧ oldNext = some next
  | .relink _ current next oldNext _ =>
      state.nextOf current = none ∧
        state.nextOf next = none ∧
          oldNext = some next
  | .unlockRemoved _ _ next oldNext =>
      state.nextOf next = none ∧ oldNext = some next
  | .destroy _ _ oldNext =>
      ∃ next, oldNext = some next ∧ state.nextOf next = none
  | _ =>
      True

/-- What one thread holds, stands on and knows. -/
structure Station
    (state : State Tid T)
    (order : List NodeId)
    (tid : Tid) :
    Prop where
  held :
    ∀ id, state.owner id = some tid ↔ id ∈ (state.pc tid).holds
  seated :
    ∀ id,
      id ∈ (state.pc tid).stands →
      id ∈ order
  neighbours :
    ∀ current next,
      (state.pc tid).neighbours = some (current, next) →
      state.successor current = some next
  spare :
    ∀ id,
      (state.pc tid).spare = some id →
      id ∉ order ∧ state.heap id ≠ none
  fields : state.Fields (state.pc tid)

/-- The nodes in order, their successors and the threads among them. -/
structure Chain
    (state : State Tid T)
    (order : List NodeId) :
    Prop where
  sound : state.fault = false
  first : order.head? = some head
  nodup : order.Nodup
  linked : Linked state.successor order
  stored :
    ∀ id,
      id ∈ order →
      ∃ node,
        state.heap id = some node ∧ (node.data = none ↔ id = head)
  fresh : ∀ id, state.heap id ≠ none → id < state.fresh
  station : ∀ tid, state.Station order tid
  single :
    ∀ tid other id,
      (state.pc tid).spare = some id →
      (state.pc other).spare = some id →
      tid = other

/-- A thread changes no node beyond those in `own`, and no other thread. -/
structure Moves
    (own : NodeId → Prop)
    (state next : State Tid T)
    (tid : Tid) :
    Prop where
  pc : ∀ other, other ≠ tid → next.pc other = state.pc other
  ticket :
    ∀ other, other ≠ tid → next.ticket other = state.ticket other
  visited :
    ∀ other, other ≠ tid → next.visited other = state.visited other
  heap :
    ∀ id,
      state.heap id ≠ none →
      ¬ own id →
      next.heap id = state.heap id
  owner :
    ∀ id other,
      other ≠ tid →
      (next.owner id = some other ↔ state.owner id = some other)

/-- A free mutex that the thread did not lock stays free. -/
theorem Moves.free
    {own : NodeId → Prop}
    {state next : State Tid T}
    {tid : Tid}
    (moves : Moves own state next tid)
    {id : NodeId}
    (free : state.owner id = none)
    (unlocked : next.owner id ≠ some tid) :
    next.owner id = none := by
  cases owned : next.owner id with
  | none =>
      rfl
  | some other =>
      have different : other ≠ tid := by
        rintro rfl
        exact unlocked owned
      have before := (moves.owner id other different).1 owned
      rw [free] at before
      cases before

namespace Chain

variable {state next : State Tid T}
variable {order order' : List NodeId}
variable {tid : Tid}

/-- No two threads own the same node. -/
theorem owns_unique
    (chain : state.Chain order)
    {other : Tid}
    {id : NodeId}
    (mine : (state.pc tid).Owns id)
    (theirs : (state.pc other).Owns id) :
    tid = other := by
  have spare_or : ∀ tid, (state.pc tid).Owns id →
      (state.pc tid).spare = some id ∨
        state.owner id = some tid ∧ id ∈ order := by
    intro tid owns
    rcases owns with held | spare
    · rcases Pc.stands_or_spare held with stands | spare
      · exact .inr ⟨((chain.station tid).held id).2 held,
          (chain.station tid).seated id stands⟩
      · exact .inl spare
    · exact .inl spare
  rcases spare_or tid mine with mine | ⟨mine, member⟩
  · rcases spare_or other theirs with theirs | ⟨_, member⟩
    · exact chain.single tid other id mine theirs
    · exact ((chain.station tid).spare id mine).1 member |>.elim
  · rcases spare_or other theirs with theirs | ⟨theirs, _⟩
    · exact ((chain.station other).spare id theirs).1 member |>.elim
    · rw [mine] at theirs
      exact Option.some.inj theirs

/-- An owned node has not been destroyed. -/
theorem owns_stored
    (chain : state.Chain order)
    {id : NodeId}
    (owns : (state.pc tid).Owns id) :
    state.heap id ≠ none := by
  have spareStored := fun spare =>
    ((chain.station tid).spare id spare).2
  rcases owns with held | spare
  · rcases Pc.stands_or_spare held with stands | spare
    · obtain ⟨node, stored, _⟩ :=
        chain.stored id ((chain.station tid).seated id stands)
      simp [stored]
    · exact spareStored spare
  · exact spareStored spare

/-- The facts of a thread depend on its own nodes only. -/
theorem fields_congr
    (state : State Tid T)
    {pc : Pc T}
    (same : ∀ id, pc.Owns id → next.heap id = state.heap id)
    (fields : state.Fields pc) :
    next.Fields pc := by
  have sameNext :
      ∀ id, pc.Owns id → next.nextOf id = state.nextOf id := by
    intro id owns
    simp only [nextOf, same id owns]
  cases pc with
  | destroy p current oldNext =>
      obtain ⟨removed, rfl, cleared⟩ := fields
      exact ⟨removed, rfl, (sameNext removed (.inr rfl)).trans cleared⟩
  | _ =>
      simp_all [Fields, Pc.Owns, Pc.holds, Pc.spare]

/-- The successor of a held node is what its holder makes of it. -/
theorem successor_of_owner
    (state : State Tid T)
    {id : NodeId}
    (owned : state.owner id = some tid) :
    state.successor id = (state.pc tid).successor state.nextOf id := by
  simp only [successor, owned]

/-- The successor of a node that nobody holds is its `next`. -/
theorem successor_of_free
    {id : NodeId}
    (free : state.owner id = none) :
    state.successor id = state.nextOf id := by
  simp only [successor, free]

/-- A successor is computed from the node and from the holder's own nodes. -/
theorem successor_congr
    {pc : Pc T}
    {id : NodeId}
    (sameNode : next.nextOf id = state.nextOf id)
    (sameSpare :
      ∀ spare,
        pc.spare = some spare →
        next.nextOf spare = state.nextOf spare) :
    pc.successor next.nextOf id = pc.successor state.nextOf id := by
  cases pc <;> simp_all [Pc.successor, Pc.spare]

/-- A node that a thread does not touch keeps its successor. -/
theorem successor_frame
    (chain : state.Chain order)
    (moves : Moves (state.pc tid).Owns state next tid)
    {id : NodeId}
    (stored : state.heap id ≠ none)
    (untouched : ¬ (state.pc tid).Owns id)
    (unlocked : next.owner id ≠ some tid) :
    next.successor id = state.successor id := by
  have sameNode : next.nextOf id = state.nextOf id := by
    simp only [nextOf, moves.heap id stored untouched]
  cases owned : state.owner id with
  | none =>
      have free := moves.free owned unlocked
      rw [successor_of_free free, successor_of_free owned, sameNode]
  | some other =>
      have held := ((chain.station other).held id).1 owned
      have different : other ≠ tid := by
        rintro rfl
        exact untouched (.inl held)
      rw [successor_of_owner next ((moves.owner id other different).2 owned),
        successor_of_owner state owned, moves.pc other different]
      apply successor_congr sameNode
      intro spare isSpare
      have theirs : (state.pc other).Owns spare := .inr isSpare
      simp only [nextOf,
        moves.heap spare (chain.owns_stored theirs)
          (fun mine => different (chain.owns_unique theirs mine))]

/-- A thread that does not move keeps its station. -/
theorem station_frame
    (chain : state.Chain order)
    (moves : Moves (state.pc tid).Owns state next tid)
    (members :
      ∀ id,
        ¬ (state.pc tid).Owns id →
        (id ∈ order' ↔ id ∈ order))
    {other : Tid}
    (different : other ≠ tid) :
    next.Station order' other := by
  have station := chain.station other
  have apart :
      ∀ id,
        (state.pc other).Owns id →
        ¬ (state.pc tid).Owns id := by
    intro id theirs mine
    exact different (chain.owns_unique theirs mine)
  have sameHeap :
      ∀ id,
        (state.pc other).Owns id →
        next.heap id = state.heap id := by
    intro id theirs
    exact moves.heap id (chain.owns_stored theirs) (apart id theirs)
  have samePc := moves.pc other different
  refine ⟨?_, ?_, ?_, ?_, ?_⟩
  · intro id
    rw [moves.owner id other different, samePc]
    exact station.held id
  · intro id stands
    rw [samePc] at stands
    exact (members id
      (apart id (.inl (Pc.holds_of_stands stands)))).2
        (station.seated id stands)
  · intro current later neighbours
    rw [samePc] at neighbours
    have held :=
      Pc.holds_of_stands (Pc.stands_of_neighbours neighbours)
    have owned := (station.held current).2 held
    rw [← station.neighbours current later neighbours]
    refine chain.successor_frame moves
      (chain.owns_stored (.inl held)) (apart current (.inl held)) ?_
    rw [(moves.owner current other different).2 owned]
    exact fun same => different (Option.some.inj same)
  · intro id isSpare
    rw [samePc] at isSpare
    obtain ⟨outside, stored⟩ := station.spare id isSpare
    rw [members id (apart id (.inr isSpare)),
      sameHeap id (.inr isSpare)]
    exact ⟨outside, stored⟩
  · rw [samePc]
    exact fields_congr state sameHeap station.fields

/--
A step that changes only what its thread owns keeps the chain, provided that
the thread's own nodes and its new station fit the new order.
-/
theorem move
    (chain : state.Chain order)
    (moves : Moves (state.pc tid).Owns state next tid)
    (members :
      ∀ id,
        ¬ (state.pc tid).Owns id →
        (id ∈ order' ↔ id ∈ order))
    (sound : next.fault = false)
    (first : order'.head? = some head)
    (nodup : order'.Nodup)
    (linked : Linked next.successor order')
    (stored :
      ∀ id,
        id ∈ order' →
        (state.pc tid).Owns id →
        ∃ node,
          next.heap id = some node ∧ (node.data = none ↔ id = head))
    (fresh : ∀ id, next.heap id ≠ none → id < next.fresh)
    (station : next.Station order' tid)
    (lone :
      ∀ id,
        (next.pc tid).spare = some id →
        (state.pc tid).Owns id ∨ state.heap id = none) :
    next.Chain order' := by
  have single :
      ∀ other id,
        other ≠ tid →
        (next.pc tid).spare = some id →
        (next.pc other).spare ≠ some id := by
    intro other id different mine theirs
    rw [moves.pc other different] at theirs
    have owns : (state.pc other).Owns id := .inr theirs
    rcases lone id mine with mine | free
    · exact different (chain.owns_unique owns mine)
    · exact chain.owns_stored owns free
  refine ⟨sound, first, nodup, linked, ?_, fresh, ?_, ?_⟩
  · intro id member
    by_cases owns : (state.pc tid).Owns id
    · exact stored id member owns
    · obtain ⟨node, isStored, isData⟩ :=
        chain.stored id ((members id owns).1 member)
      refine ⟨node, ?_, isData⟩
      rw [moves.heap id (by simp [isStored]) owns, isStored]
  · intro other
    by_cases same : other = tid
    · exact same ▸ station
    · exact chain.station_frame moves members same
  · intro one other id oneSpare otherSpare
    by_cases oneMoves : one = tid
    · by_cases otherMoves : other = tid
      · exact oneMoves.trans otherMoves.symm
      · subst one
        exact (single other id otherMoves oneSpare otherSpare).elim
    · by_cases otherMoves : other = tid
      · subst other
        exact (single one id oneMoves otherSpare oneSpare).elim
      · rw [moves.pc one oneMoves] at oneSpare
        rw [moves.pc other otherMoves] at otherSpare
        exact chain.single one other id oneSpare otherSpare

/-- The same for a step that keeps the order. -/
theorem keep
    (chain : state.Chain order)
    (moves : Moves (state.pc tid).Owns state next tid)
    (sound : next.fault = false)
    (successors :
      ∀ id,
        id ∈ order →
        (state.pc tid).Owns id ∨ next.owner id = some tid →
        next.successor id = state.successor id)
    (stored :
      ∀ id,
        id ∈ order →
        (state.pc tid).Owns id →
        ∃ node,
          next.heap id = some node ∧ (node.data = none ↔ id = head))
    (fresh : ∀ id, next.heap id ≠ none → id < next.fresh)
    (station : next.Station order tid)
    (lone :
      ∀ id,
        (next.pc tid).spare = some id →
        (state.pc tid).Owns id ∨ state.heap id = none) :
    next.Chain order := by
  refine chain.move moves (fun _ _ => Iff.rfl) sound chain.first
    chain.nodup ?_ stored fresh station lone
  apply chain.linked.congr
  intro id member
  by_cases touched :
      (state.pc tid).Owns id ∨ next.owner id = some tid
  · exact successors id member touched
  · push Not at touched
    obtain ⟨node, isStored, _⟩ := chain.stored id member
    exact chain.successor_frame moves (by simp [isStored])
      touched.1 touched.2

end Chain

end State

end WkcRuntime.ListR
