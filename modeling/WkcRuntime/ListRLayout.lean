import WkcRuntime.ListRSafety

namespace WkcRuntime.ListR

open LinkedOrder SweepPipeline

/-!
# The layout of the calls on `list_r`

The order of the nodes, together with the place of every running call among
them, is a layout of sweeps: a call stands after the node that it calls
`current`, or before the node that it has locked after it unlocked `current`.
No step changes the outcome of the layout, except that a call that takes the
head lock joins it behind all others and a call that returns leaves it.
-/

variable {Tid T : Type}

/-- What a walk makes of an element. -/
def Walk.judge :
    Walk T → Shared T → Verdict (Shared T)
  | .visit body =>
      body.judge
  | .removeIf p =>
      removeJudge p

/-- A call as a pass on the sequence of the elements. -/
def Call.pass :
    Call T (Shared T) → Pass (Shared T)
  | .pushFront data =>
      .insert data []
  | .walk traversal =>
      .sweep traversal.judge []

/-- The node before which a thread stands. -/
def Pc.before :
    Pc T → Option NodeId
  | .visit _ next | .copyFound next | .unlockFound next _ =>
      some next
  | _ =>
      none

/-- The node after which a thread stands. -/
def Pc.after :
    Pc T → Option NodeId
  | .pushTake .. | .pushLink .. | .pushStore .. | .pushUnlock =>
      some head
  | .readNext _ current | .lockNext _ current _
  | .unlockCurrent _ current _ | .judge _ current _
  | .detach _ current _ | .bypass _ current _ _
  | .relink _ current _ _ _ | .unlockRemoved _ current _ _
  | .destroy _ current _ | .unlockLast current =>
      some current
  | .stepOver _ _ next =>
      some next
  | _ =>
      none

/-- What is left of a call that has been given some elements. -/
def Pc.pass
    (heap : NodeId → Option (Node T))
    (visited : List (Shared T)) :
    Pc T → Pass (Shared T)
  | .pushTake newNode value | .pushLink newNode value _
  | .pushStore newNode value =>
      .insert ⟨newNode, value⟩ visited
  | .readNext walk _ | .lockNext walk _ _ =>
      .sweep walk.judge visited
  | .unlockCurrent body _ _ | .visit body _ =>
      .sweep body.judge visited
  | .judge p _ _ | .detach p _ _ | .bypass p _ _ _ | .relink p _ _ _ _
  | .unlockRemoved p _ _ _ | .destroy p _ _ | .stepOver p _ _ =>
      .sweep (removeJudge p) visited
  | .copyFound next =>
      .done ⟨visited, (heap next).bind Node.data⟩
  | .unlockFound _ found =>
      .done ⟨visited, some found⟩
  | _ =>
      .done ⟨visited, none⟩

namespace State

/-- What is left of the call of a thread. -/
def pass
    (state : State Tid T)
    (tid : Tid) :
    Pass (Shared T) :=
  (state.pc tid).pass state.heap (state.visited tid)

/-- The call of a thread as a place of the layout. -/
def cursor
    (state : State Tid T)
    (tid : Tid) :
    Item (Shared T) :=
  .cursor (state.ticket tid) (state.pass tid)

/-- The element in a node, if it is not the head. -/
def element
    (state : State Tid T)
    (id : NodeId) :
    List (Item (Shared T)) :=
  (((state.heap id).bind Node.data).map Item.kept).toList

/-- The thread that stands on one side of a node. -/
def cursors
    (state : State Tid T)
    (side : Pc T → Option NodeId)
    (id : NodeId) :
    List (Item (Shared T)) :=
  match state.owner id with
  | none =>
      []
  | some tid =>
      if side (state.pc tid) = some id then
        [state.cursor tid]
      else
        []

/-- The part of the layout around one node. -/
def piece
    (state : State Tid T)
    (id : NodeId) :
    List (Item (Shared T)) :=
  state.cursors Pc.before id ++ state.element id ++
    state.cursors Pc.after id

/-- The elements of the list with the running calls between them. -/
def layout
    (state : State Tid T)
    (order : List NodeId) :
    List (Item (Shared T)) :=
  order.flatMap state.piece

variable {state next : State Tid T}
variable {order order' : List NodeId}
variable {tid : Tid}

/-- Around a free node there is nobody. -/
theorem piece_of_free
    {id : NodeId}
    (free : state.owner id = none) :
    state.piece id = state.element id := by
  simp only [piece, cursors, free, List.nil_append, List.append_nil]

/-- Around a held node there is at most its holder. -/
theorem piece_of_owner
    (state : State Tid T)
    {id : NodeId}
    (owned : state.owner id = some tid) :
    state.piece id =
      (if (state.pc tid).before = some id then
          [state.cursor tid]
        else
          []) ++
        state.element id ++
        (if (state.pc tid).after = some id then
          [state.cursor tid]
        else
          []) := by
  simp only [piece, cursors, owned]

/-- The node whose data a pass returns is a held one. -/
theorem pass_congr
    (samePc : next.pc tid = state.pc tid)
    (sameVisited : next.visited tid = state.visited tid)
    (sameHeap :
      ∀ id,
        id ∈ (state.pc tid).holds →
        next.heap id = state.heap id) :
    next.pass tid = state.pass tid := by
  simp only [pass, samePc, sameVisited]
  cases located : state.pc tid with
  | copyFound later =>
      simp only [Pc.pass,
        sameHeap later (by simp [located, Pc.holds])]
  | _ =>
      rfl

namespace Chain

/-- The surroundings of a node that a thread does not touch stay the same. -/
theorem piece_frame
    (chain : state.Chain order)
    (moves : Moves (state.pc tid).Owns state next tid)
    {id : NodeId}
    (stored : state.heap id ≠ none)
    (untouched : ¬ (state.pc tid).Owns id)
    (unlocked : next.owner id ≠ some tid) :
    next.piece id = state.piece id := by
  have sameElement : next.element id = state.element id := by
    simp only [element, moves.heap id stored untouched]
  cases owned : state.owner id with
  | none =>
      have free := moves.free owned unlocked
      rw [piece_of_free free, piece_of_free owned, sameElement]
  | some other =>
      have held := ((chain.station other).held id).1 owned
      have different : other ≠ tid := by
        rintro rfl
        exact untouched (.inl held)
      have samePc := moves.pc other different
      have samePass : next.pass other = state.pass other := by
        apply pass_congr samePc (moves.visited other different)
        intro mine isHeld
        apply moves.heap mine (chain.owns_stored (.inl isHeld))
        intro owns
        exact different (chain.owns_unique (.inl isHeld) owns)
      rw [piece_of_owner next ((moves.owner id other different).2 owned),
        piece_of_owner state owned, sameElement, samePc]
      simp only [cursor, samePass, moves.ticket other different]

/-- A layout with the same surroundings of the touched nodes is the same. -/
theorem layout_congr
    (chain : state.Chain order)
    (moves : Moves (state.pc tid).Owns state next tid)
    {part : List NodeId}
    (within : ∀ id, id ∈ part → id ∈ order)
    (touched :
      ∀ id,
        id ∈ part →
        (state.pc tid).Owns id ∨ next.owner id = some tid →
        next.piece id = state.piece id) :
    next.layout part = state.layout part := by
  apply List.flatMap_congr
  intro id member
  by_cases isTouched :
      (state.pc tid).Owns id ∨ next.owner id = some tid
  · exact touched id member isTouched
  · push Not at isTouched
    obtain ⟨node, stored, _⟩ := chain.stored id (within id member)
    exact chain.piece_frame moves (by simp [stored])
      isTouched.1 isTouched.2

/-- The surroundings of a node are those of its holder. -/
theorem piece_same
    (state next : State Tid T)
    {id : NodeId}
    (owned : state.owner id = some tid)
    (owned' : next.owner id = some tid)
    (before : (next.pc tid).before = (state.pc tid).before)
    (after : (next.pc tid).after = (state.pc tid).after)
    (ticket : next.ticket tid = state.ticket tid)
    (pass : next.pass tid = state.pass tid)
    (element : next.element id = state.element id) :
    next.piece id = state.piece id := by
  rw [piece_of_owner next owned', piece_of_owner state owned, before,
    after, element]
  simp only [cursor, ticket, pass]

/-- A thread that keeps its locks and its place keeps the layout. -/
theorem flush_update
    (chain : state.Chain order)
    (moves : Moves (state.pc tid).Owns state next tid)
    (owner : next.owner = state.owner)
    (before : (next.pc tid).before = (state.pc tid).before)
    (after : (next.pc tid).after = (state.pc tid).after)
    (ticket : next.ticket tid = state.ticket tid)
    (pass : next.pass tid = state.pass tid)
    (element :
      ∀ id,
        id ∈ order →
        next.element id = state.element id) :
    flush (next.layout order) = flush (state.layout order) := by
  rw [chain.layout_congr moves (fun _ member => member)]
  intro id member touched
  have owned : state.owner id = some tid :=
    touched.elim (chain.owner_of_owns member)
      (fun owned => owner ▸ owned)
  exact piece_same state next owned (by rw [owner, owned]) before after
    ticket pass (element id member)

end Chain

/-- A call that returns is done and stands beside its node. -/
theorem pass_returning
    (heap : NodeId → Option (Node T))
    (visited : List (Shared T))
    {pc : Pc T}
    {id : NodeId}
    {found : Option (Shared T)}
    (returns : pc.returns = some (id, found)) :
    pc.pass heap visited = .done ⟨visited, found⟩ ∧
      (pc.before = some id ∧ pc.after = none ∨
        pc.before = none ∧ pc.after = some id) := by
  cases pc <;>
    simp_all [Pc.returns, Pc.pass, Pc.before, Pc.after]

/-- Writing the `next` of a node changes no element. -/
theorem element_setNode
    [DecidableEq Tid]
    {id : NodeId}
    {data : Option (Shared T)}
    {link link' : Option NodeId}
    {pc : Pc T}
    (stored : state.heap id = some ⟨data, link⟩)
    (other : NodeId) :
    ((state.setNode id (some ⟨data, link'⟩)).goto tid pc).element
        other =
      state.element other := by
  by_cases same : other = id
  · simp [element, goto, setNode, same, stored]
  · simp [element, goto, setNode, same]

/-- Writing a node beside the list. -/
theorem element_outside
    [DecidableEq Tid]
    {id other : NodeId}
    {node : Option (Node T)}
    {pc : Pc T}
    (different : other ≠ id) :
    ((state.setNode id node).goto tid pc).element other =
      state.element other := by
  simp [element, goto, setNode, different]

namespace Chain

variable [DecidableEq Tid]

attribute [local simp] goto setNode setOwner number note record allocate

/-- The layout stays the same around nodes that a thread does not hold. -/
theorem layout_around
    (chain : state.Chain order)
    (progress : state.Progress tid order order' next)
    {part : List NodeId}
    (around :
      ∀ id,
        id ∈ part →
        id ∈ order ∧
          id ∉ (state.pc tid).holds ∧
            id ∉ (next.pc tid).holds) :
    next.layout part = state.layout part := by
  have station' := (chain.step progress).station tid
  refine chain.layout_congr (chain.moves progress)
    (fun id member => (around id member).1) ?_
  intro id member touched
  obtain ⟨inOrder, notHeld, notHeld'⟩ := around id member
  rcases touched with owns | owned
  · refine (notHeld ?_).elim
    exact ((chain.station tid).held id).1
      (chain.owner_of_owns inOrder owns)
  · exact (notHeld' ((station'.held id).1 owned)).elim

/--
The outcome stays the same when the part of the layout around the nodes that a
thread holds has the same effect as before.
-/
theorem flush_local
    (chain : state.Chain order)
    (progress : state.Progress tid order order' next)
    (behind middle middle' ahead : List NodeId)
    (shape : order = behind ++ middle ++ ahead)
    (shape' : order' = behind ++ middle' ++ ahead)
    (held : ∀ id, id ∈ (state.pc tid).holds → id ∈ middle)
    (held' : ∀ id, id ∈ (next.pc tid).holds → id ∈ middle)
    (same :
      settle (next.layout middle') (flush (state.layout ahead)) =
        settle (state.layout middle) (flush (state.layout ahead))) :
    flush (next.layout order') = flush (state.layout order) := by
  have nodup := chain.nodup
  have sameAround :
      ∀ part : List NodeId,
        (∀ id, id ∈ part → id ∈ order ∧ id ∉ middle) →
        next.layout part = state.layout part := by
    intro part around
    apply chain.layout_around progress
    intro id member
    obtain ⟨inOrder, notMiddle⟩ := around id member
    exact ⟨inOrder, fun isHeld => notMiddle (held id isHeld),
      fun isHeld => notMiddle (held' id isHeld)⟩
  subst shape shape'
  simp only [List.nodup_append, List.mem_append] at nodup
  have sameBehind := sameAround behind (by grind)
  have sameAhead := sameAround ahead (by grind)
  have splits :
      ∀ (state : State Tid T) (middle : List NodeId),
        state.layout (behind ++ middle ++ ahead) =
          state.layout behind ++ state.layout middle ++
            state.layout ahead := by
    intro state middle
    simp only [layout, List.flatMap_append]
  rw [splits, splits, sameBehind, sameAhead]
  exact flush_replace same

/-- A walk locks the node after the one on which it stands. -/
theorem flush_lockNext
    {behind ahead : List NodeId}
    {walk : Walk T}
    {current later : NodeId}
    (chain : state.Chain (behind ++ current :: later :: ahead))
    (located : state.pc tid = .lockNext walk current later)
    (free : state.owner later = none) :
    flush
        (((state.setOwner later (some tid)).goto tid
          (walk.locked current later)).layout
            (behind ++ current :: later :: ahead)) =
      flush (state.layout (behind ++ current :: later :: ahead)) := by
  have different := (chain.apart rfl).1
  have owned : state.owner current = some tid :=
    chain.owner_eq (by simp [located, Pc.holds])
  refine chain.flush_local (.lockNext located free) behind
    [current, later] [current, later] ahead (by simp) (by simp)
    (by simp [located, Pc.holds]) ?_ ?_
  · cases walk <;> simp [Walk.locked, Pc.holds]
  · cases walk <;>
      simp [layout, piece, cursors, element, cursor, pass, located,
        owned, free, different, Walk.locked, Pc.before, Pc.after,
        Pc.pass, Walk.judge]

/-- A visiting walk leaves the node on which it stood. -/
theorem flush_unlockCurrent
    {behind ahead : List NodeId}
    {body : Visit T}
    {current later : NodeId}
    (chain : state.Chain (behind ++ current :: later :: ahead))
    (located : state.pc tid = .unlockCurrent body current later) :
    flush
        (((state.setOwner current none).goto tid
          (.visit body later)).layout
            (behind ++ current :: later :: ahead)) =
      flush (state.layout (behind ++ current :: later :: ahead)) := by
  have different := (chain.apart rfl).1
  have owned : state.owner current = some tid :=
    chain.owner_eq (by simp [located, Pc.holds])
  have ownedLater : state.owner later = some tid :=
    chain.owner_eq (by simp [located, Pc.holds])
  refine chain.flush_local (.unlockCurrent located) behind
    [current, later] [current, later] ahead (by simp) (by simp)
    (by simp [located, Pc.holds]) (by simp [Pc.holds]) ?_
  simp [layout, piece, cursors, element, cursor, pass, located, owned,
    ownedLater, different, different.symm, Pc.before, Pc.after, Pc.pass]

/-- A removing walk steps over a node that stays. -/
theorem flush_stepOver
    {behind ahead : List NodeId}
    {p : T → Bool × T}
    {current later : NodeId}
    (chain : state.Chain (behind ++ current :: later :: ahead))
    (located : state.pc tid = .stepOver p current later) :
    flush
        (((state.setOwner current none).goto tid
          (.readNext (.removeIf p) later)).layout
            (behind ++ current :: later :: ahead)) =
      flush (state.layout (behind ++ current :: later :: ahead)) := by
  have different := (chain.apart rfl).1
  have owned : state.owner current = some tid :=
    chain.owner_eq (by simp [located, Pc.holds])
  have ownedLater : state.owner later = some tid :=
    chain.owner_eq (by simp [located, Pc.holds])
  refine chain.flush_local (.stepOver located) behind
    [current, later] [current, later] ahead (by simp) (by simp)
    (by simp [located, Pc.holds]) (by simp [Pc.holds]) ?_
  simp [layout, piece, cursors, element, cursor, pass, located, owned,
    ownedLater, different.symm, Pc.before, Pc.after, Pc.pass,
    Walk.judge]

/-- A visited element that is not the last one is passed. -/
theorem flush_visitOn
    {behind ahead : List NodeId}
    {body : Visit T}
    {later : NodeId}
    {data changed : Shared T}
    {link : Option NodeId}
    (chain : state.Chain (behind ++ later :: ahead))
    (located : state.pc tid = .visit body later)
    (stored : state.heap later = some ⟨some data, link⟩)
    (verdict : body.judge data = .goOn changed) :
    flush
        ((((state.setNode later (some ⟨some changed, link⟩)).note
          tid data).goto tid (.readNext (.visit body) later)).layout
            (behind ++ later :: ahead)) =
      flush (state.layout (behind ++ later :: ahead)) := by
  have owned : state.owner later = some tid :=
    chain.owner_eq (by simp [located, Pc.holds])
  refine chain.flush_local (.visitOn located stored verdict) behind
    [later] [later] ahead (by simp) (by simp)
    (by simp [located, Pc.holds]) (by simp [Pc.holds]) ?_
  generalize flush (state.layout ahead) = outcome
  have passed :=
    settle_goOn verdict (state.ticket tid) (state.visited tid) outcome
  simpa [layout, piece, cursors, element, cursor, pass, located, owned,
    stored, Pc.before, Pc.after, Pc.pass, Walk.judge] using passed

/-- A visited element at which the walk stops ends the sweep. -/
theorem flush_visitStop
    {behind ahead : List NodeId}
    {body : Visit T}
    {later : NodeId}
    {data changed : Shared T}
    {link : Option NodeId}
    (chain : state.Chain (behind ++ later :: ahead))
    (located : state.pc tid = .visit body later)
    (stored : state.heap later = some ⟨some data, link⟩)
    (verdict : body.judge data = .stop changed) :
    flush
        ((((state.setNode later (some ⟨some changed, link⟩)).note
          tid data).goto tid (.copyFound later)).layout
            (behind ++ later :: ahead)) =
      flush (state.layout (behind ++ later :: ahead)) := by
  have owned : state.owner later = some tid :=
    chain.owner_eq (by simp [located, Pc.holds])
  refine chain.flush_local (.visitStop located stored verdict) behind
    [later] [later] ahead (by simp) (by simp)
    (by simp [located, Pc.holds]) (by simp [Pc.holds]) ?_
  generalize flush (state.layout ahead) = outcome
  have stopped :=
    settle_stop verdict (state.ticket tid) (state.visited tid) outcome
  simpa [layout, piece, cursors, element, cursor, pass, located, owned,
    stored, Pc.before, Pc.after, Pc.pass] using stopped

/-- An element that the predicate of `remove_if` rejects is passed. -/
theorem flush_judgeKeep
    {behind ahead : List NodeId}
    {p : T → Bool × T}
    {current later : NodeId}
    {data changed : Shared T}
    {link : Option NodeId}
    (chain : state.Chain (behind ++ current :: later :: ahead))
    (located : state.pc tid = .judge p current later)
    (stored : state.heap later = some ⟨some data, link⟩)
    (verdict : removeJudge p data = .goOn changed) :
    flush
        ((((state.setNode later (some ⟨some changed, link⟩)).note
          tid data).goto tid (.stepOver p current later)).layout
            (behind ++ current :: later :: ahead)) =
      flush (state.layout (behind ++ current :: later :: ahead)) := by
  have different := (chain.apart rfl).1
  have owned : state.owner current = some tid :=
    chain.owner_eq (by simp [located, Pc.holds])
  have ownedLater : state.owner later = some tid :=
    chain.owner_eq (by simp [located, Pc.holds])
  refine chain.flush_local (.judgeKeep located stored verdict) behind
    [current, later] [current, later] ahead (by simp) (by simp)
    (by simp [located, Pc.holds]) (by simp [Pc.holds]) ?_
  generalize flush (state.layout ahead) = outcome
  have passed :=
    settle_goOn verdict (state.ticket tid) (state.visited tid) outcome
  simp only [settle_cons, settle_nil] at passed
  simp [layout, piece, cursors, element, cursor, pass, located, owned,
    ownedLater, different, different.symm, stored, Pc.before, Pc.after,
    Pc.pass, passed]

/-- An element that the predicate of `remove_if` accepts is dropped. -/
theorem flush_judgeDrop
    {behind ahead : List NodeId}
    {p : T → Bool × T}
    {current later : NodeId}
    {data changed : Shared T}
    {link : Option NodeId}
    (chain : state.Chain (behind ++ current :: later :: ahead))
    (located : state.pc tid = .judge p current later)
    (stored : state.heap later = some ⟨some data, link⟩)
    (verdict : removeJudge p data = .drop) :
    flush
        ((((state.setNode later (some ⟨some changed, link⟩)).note
          tid data).goto tid (.detach p current later)).layout
            (behind ++ current :: ahead)) =
      flush (state.layout (behind ++ current :: later :: ahead)) := by
  have different := (chain.apart rfl).1
  have owned : state.owner current = some tid :=
    chain.owner_eq (by simp [located, Pc.holds])
  have ownedLater : state.owner later = some tid :=
    chain.owner_eq (by simp [located, Pc.holds])
  refine chain.flush_local (.judgeDrop located stored verdict) behind
    [current, later] [current] ahead (by simp) (by simp)
    (by simp [located, Pc.holds]) (by simp [Pc.holds]) ?_
  generalize flush (state.layout ahead) = outcome
  have dropped :=
    settle_drop verdict (state.ticket tid) (state.visited tid) outcome
  simp only [settle_cons, settle_nil] at dropped
  simp [layout, piece, cursors, element, cursor, pass, located, owned,
    ownedLater, different, stored, Pc.before, Pc.after,
    Pc.pass, dropped]

/-- The new node takes the place of the insertion. -/
theorem flush_store
    {tail : List NodeId}
    {newNode : NodeId}
    {value : T}
    (chain : state.Chain (head :: tail))
    (located : state.pc tid = .pushStore newNode value)
    (stored : state.heap head = some ⟨none, none⟩) :
    flush
        (((state.setNode head (some ⟨none, some newNode⟩)).goto tid
          .pushUnlock).layout (head :: newNode :: tail)) =
      flush (state.layout (head :: tail)) := by
  have isSpare : (state.pc tid).spare = some newNode := by
    rw [located]
    rfl
  have different : newNode ≠ head :=
    chain.spare_ne_stood tid isSpare
      (by rw [located]; exact List.mem_singleton_self head)
  have owned : state.owner head = some tid :=
    chain.owner_eq (by simp [located, Pc.holds])
  have free : state.owner newNode = none :=
    chain.spare_free isSpare (by simp [located, Pc.holds, different])
  obtain ⟨⟨rest, newStored⟩, _⟩ : (∃ rest,
      state.heap newNode = some ⟨some ⟨newNode, value⟩, rest⟩) ∧
        state.nextOf head = none := by
    simpa [located, Fields] using (chain.station tid).fields
  refine chain.flush_local (.store located stored) [] [head]
    [head, newNode] tail rfl rfl (by simp [located, Pc.holds])
    (by simp [Pc.holds]) ?_
  generalize flush (state.layout tail) = outcome
  have inserted :=
    settle_insert (⟨newNode, value⟩ : Shared T) (state.ticket tid)
      (state.visited tid) outcome
  simpa [layout, piece, cursors, element, cursor, pass, located, owned,
    free, different, stored, newStored, Pc.before, Pc.after,
    Pc.pass] using inserted

/-- A walk that finds no further node is done. -/
theorem flush_reachEnd
    {behind : List NodeId}
    {walk : Walk T}
    {current : NodeId}
    (chain : state.Chain (behind ++ [current]))
    (located : state.pc tid = .readNext walk current) :
    flush
        ((state.goto tid (.unlockLast current)).layout
          (behind ++ [current])) =
      flush (state.layout (behind ++ [current])) := by
  have owned : state.owner current = some tid :=
    chain.owner_eq (by simp [located, Pc.holds])
  refine chain.flush_local (.reachEnd located) behind
    [current] [current] [] (by simp) (by simp)
    (by simp [located, Pc.holds]) (by simp [Pc.holds]) ?_
  have ended :=
    settle_end walk.judge (state.ticket tid) (state.visited tid) []
  simp only [settle_cons, settle_nil] at ended
  simp [layout, piece, cursors, element, cursor, pass, located, owned,
    Pc.before, Pc.after, Pc.pass, flush, ended]

/-- A removed node is not part of the layout when it is unlocked. -/
theorem flush_unlockRemoved
    {p : T → Bool × T}
    {current later : NodeId}
    {oldNext : Option NodeId}
    (chain : state.Chain order)
    (located : state.pc tid = .unlockRemoved p current later oldNext) :
    flush
        (((state.setOwner later none).goto tid
          (.destroy p current oldNext)).layout order) =
      flush (state.layout order) := by
  have outside : later ∉ order :=
    ((chain.station tid).spare later (by rw [located]; rfl)).1
  refine congrArg flush (chain.layout_congr
    (chain.moves (.unlockRemoved located)) (fun _ member => member) ?_)
  intro id member touched
  have different : id ≠ later := by
    rintro rfl
    exact outside member
  have owned : state.owner id = some tid := by
    rcases touched with owns | owned
    · exact chain.owner_of_owns member owns
    · simpa [different] using owned
  refine piece_same state _ owned (by simpa [different] using owned)
    ?_ ?_ rfl ?_ rfl
  · simp [located, Pc.before]
  · simp [located, Pc.after]
  · simp [pass, located, Pc.pass]

/-- A call that takes the head lock stands behind all others. -/
theorem layout_start
    (chain : state.Chain order)
    {call : Call T (Shared T)}
    {pc : Pc T}
    (progress :
      state.Progress tid order order
        (((state.number tid call).setOwner head (some tid)).goto tid pc))
    (free : state.owner head = none)
    (unheld : (state.pc tid).holds = [])
    (holds : pc.holds = [head])
    (before : pc.before = none)
    (after : pc.after = some head)
    (pass : pc.pass state.heap [] = call.pass) :
    (((state.number tid call).setOwner head (some tid)).goto tid
        pc).layout order =
      .cursor state.started.length call.pass :: state.layout order := by
  obtain ⟨link, stored⟩ := chain.head_stored
  obtain ⟨tail, rfl⟩ := List.head?_eq_some_iff.1 chain.first
  have sameTail :
      (((state.number tid call).setOwner head (some tid)).goto tid
        pc).layout tail =
        state.layout tail := by
    apply chain.layout_around progress
    intro id member
    have notHead : id ≠ head := by
      rintro rfl
      exact (List.nodup_cons.1 chain.nodup).1 member
    simp [member, unheld, holds, notHead]
  have splits :
      ∀ state : State Tid T,
        state.layout (head :: tail) =
          state.piece head ++ state.layout tail :=
    fun _ => List.flatMap_cons
  rw [splits, splits, sameTail]
  simp [piece, cursors, element, cursor, State.pass, free, stored,
    before, after, pass]

/-- A call that returns leaves its place in the layout. -/
theorem layout_leave
    {behind ahead : List NodeId}
    {id : NodeId}
    {found : Option (Shared T)}
    (chain : state.Chain (behind ++ id :: ahead))
    (located : (state.pc tid).returns = some (id, found)) :
    ∃ nearer farther,
      state.layout (behind ++ id :: ahead) =
          nearer ++
            .cursor (state.ticket tid)
              (.done ⟨state.visited tid, found⟩) :: farther ∧
        (((state.record tid found).setOwner id none).goto tid
          .idle).layout (behind ++ id :: ahead) =
          nearer ++ farther := by
  obtain ⟨_, holds, _⟩ := returning located
  have owned : state.owner id = some tid :=
    chain.owner_eq (by simp [holds])
  have nodup := chain.nodup
  simp only [List.nodup_append, List.nodup_cons, List.mem_cons] at nodup
  have sameAround :
      ∀ part : List NodeId,
        (∀ other, other ∈ part → other ∈ behind ++ ahead) →
        (((state.record tid found).setOwner id none).goto tid
          .idle).layout part = state.layout part := by
    intro part within
    apply chain.layout_around (.leave located)
    intro other member
    have inside := within other member
    simp only [List.mem_append] at inside
    refine ⟨by simp; tauto, ?_, by simp [Pc.holds]⟩
    rw [holds, List.mem_singleton]
    grind
  have splits :
      ∀ state : State Tid T,
        state.layout (behind ++ id :: ahead) =
          state.layout behind ++ (state.piece id ++ state.layout ahead) := by
    intro state
    simp only [layout, List.flatMap_append, List.flatMap_cons]
  have sameElement :
      (((state.record tid found).setOwner id none).goto tid
        .idle).piece id = state.element id := by
    apply piece_of_free
    simp
  obtain ⟨isDone, sides⟩ :=
    pass_returning state.heap (state.visited tid) located
  rw [splits, splits, sameAround behind (by simp; tauto),
    sameAround ahead (by simp; tauto), sameElement,
    piece_of_owner state owned]
  rcases sides with ⟨before, after⟩ | ⟨before, after⟩
  · refine ⟨state.layout behind, state.element id ++ state.layout ahead,
      ?_, rfl⟩
    simp [before, after, cursor, pass, isDone]
  · refine ⟨state.layout behind ++ state.element id,
      state.layout ahead, ?_, by simp⟩
    simp [before, after, cursor, pass, isDone]

end Chain

end State

end WkcRuntime.ListR
