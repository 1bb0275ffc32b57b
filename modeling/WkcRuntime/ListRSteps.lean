import WkcRuntime.ListRChain

namespace WkcRuntime.ListR

open LinkedOrder SweepPipeline

/-!
# The steps of the threads on a chain

On a chain no access goes wrong, and `Progress` lists what is left: every step
that a thread can take, the order before and after it and the state that it
leads to.  A node enters the order when `head.next` is set to it and leaves it
when the predicate of `remove_if` accepts it.
-/

variable {Tid T : Type}

/-- What the function of `for_each` or `find_first_if` makes of an element. -/
def Visit.judge :
    Visit T → Shared T → Verdict (Shared T)
  | .forEach f, data =>
      .goOn ⟨data.object, f data.value⟩
  | .findFirstIf p, data =>
      if (p data.value).1 then
        .stop ⟨data.object, (p data.value).2⟩
      else
        .goOn ⟨data.object, (p data.value).2⟩

/-- What the predicate of `remove_if` makes of an element. -/
def removeJudge
    (p : T → Bool × T)
    (data : Shared T) :
    Verdict (Shared T) :=
  if (p data.value).1 then
    .drop
  else
    .goOn ⟨data.object, (p data.value).2⟩

/-- The last unlock of a call: which mutex, and what the call returns. -/
def Pc.returns :
    Pc T → Option (NodeId × Option (Shared T))
  | .pushUnlock =>
      some (head, none)
  | .unlockFound next found =>
      some (next, some found)
  | .unlockLast current =>
      some (current, none)
  | _ =>
      none

/-- A call that returns stands on the node that it unlocks. -/
theorem Pc.stands_of_returns
    {pc : Pc T}
    {id : NodeId}
    {found : Option (Shared T)}
    (returns : pc.returns = some (id, found)) :
    id ∈ pc.stands := by
  cases pc <;>
    simp_all [Pc.returns, Pc.stands, Pc.holds]

namespace State

variable [DecidableEq Tid]

/-- The steps of a thread, with the order of the nodes before and after. -/
inductive Progress
    (state : State Tid T)
    (tid : Tid) :
    List NodeId → List NodeId → State Tid T → Prop where
  | newNode {order : List NodeId} {value : T}
      (located : state.pc tid = .pushNew value) :
      Progress state tid order order (state.newNode tid value)
  | startPush {order : List NodeId} {newNode : NodeId} {value : T}
      (located : state.pc tid = .pushLock newNode value)
      (free : state.owner head = none) :
      Progress state tid order order
        (((state.number tid (.pushFront ⟨newNode, value⟩)).setOwner
          head (some tid)).goto tid (.pushTake newNode value))
  | startWalk {order : List NodeId} {walk : Walk T}
      (located : state.pc tid = .walkLock walk)
      (free : state.owner head = none) :
      Progress state tid order order
        (((state.number tid (.walk walk)).setOwner
          head (some tid)).goto tid (.readNext walk head))
  | take {order : List NodeId} {newNode : NodeId} {value : T}
      {rest : Option NodeId}
      (located : state.pc tid = .pushTake newNode value)
      (stored : state.heap head = some ⟨none, rest⟩) :
      Progress state tid order order
        ((state.setNode head (some ⟨none, none⟩)).goto tid
          (.pushLink newNode value rest))
  | link {order : List NodeId} {newNode : NodeId} {value : T}
      {rest : Option NodeId}
      (located : state.pc tid = .pushLink newNode value rest) :
      Progress state tid order order
        ((state.setNode newNode
          (some ⟨some ⟨newNode, value⟩, rest⟩)).goto tid
            (.pushStore newNode value))
  | store {tail : List NodeId} {newNode : NodeId} {value : T}
      (located : state.pc tid = .pushStore newNode value)
      (stored : state.heap head = some ⟨none, none⟩) :
      Progress state tid (head :: tail) (head :: newNode :: tail)
        ((state.setNode head (some ⟨none, some newNode⟩)).goto tid
          .pushUnlock)
  | leave {behind ahead : List NodeId} {id : NodeId}
      {found : Option (Shared T)}
      (located : (state.pc tid).returns = some (id, found)) :
      Progress state tid (behind ++ id :: ahead) (behind ++ id :: ahead)
        (((state.record tid found).setOwner id none).goto tid .idle)
  | reachEnd {behind : List NodeId} {walk : Walk T} {current : NodeId}
      (located : state.pc tid = .readNext walk current) :
      Progress state tid (behind ++ [current]) (behind ++ [current])
        (state.goto tid (.unlockLast current))
  | reachNext {behind ahead : List NodeId} {walk : Walk T}
      {current next : NodeId}
      (located : state.pc tid = .readNext walk current) :
      Progress state tid (behind ++ current :: next :: ahead)
        (behind ++ current :: next :: ahead)
        (state.goto tid (.lockNext walk current next))
  | lockNext {behind ahead : List NodeId} {walk : Walk T}
      {current next : NodeId}
      (located : state.pc tid = .lockNext walk current next)
      (free : state.owner next = none) :
      Progress state tid (behind ++ current :: next :: ahead)
        (behind ++ current :: next :: ahead)
        ((state.setOwner next (some tid)).goto tid
          (walk.locked current next))
  | unlockCurrent {behind ahead : List NodeId} {body : Visit T}
      {current next : NodeId}
      (located : state.pc tid = .unlockCurrent body current next) :
      Progress state tid (behind ++ current :: next :: ahead)
        (behind ++ current :: next :: ahead)
        ((state.setOwner current none).goto tid (.visit body next))
  | visitOn {behind ahead : List NodeId} {body : Visit T}
      {next : NodeId} {data changed : Shared T} {link : Option NodeId}
      (located : state.pc tid = .visit body next)
      (stored : state.heap next = some ⟨some data, link⟩)
      (verdict : body.judge data = .goOn changed) :
      Progress state tid (behind ++ next :: ahead)
        (behind ++ next :: ahead)
        (((state.setNode next (some ⟨some changed, link⟩)).note
          tid data).goto tid (.readNext (.visit body) next))
  | visitStop {behind ahead : List NodeId} {body : Visit T}
      {next : NodeId} {data changed : Shared T} {link : Option NodeId}
      (located : state.pc tid = .visit body next)
      (stored : state.heap next = some ⟨some data, link⟩)
      (verdict : body.judge data = .stop changed) :
      Progress state tid (behind ++ next :: ahead)
        (behind ++ next :: ahead)
        (((state.setNode next (some ⟨some changed, link⟩)).note
          tid data).goto tid (.copyFound next))
  | copyFound {behind ahead : List NodeId} {next : NodeId}
      {data : Shared T} {link : Option NodeId}
      (located : state.pc tid = .copyFound next)
      (stored : state.heap next = some ⟨some data, link⟩) :
      Progress state tid (behind ++ next :: ahead)
        (behind ++ next :: ahead)
        (state.goto tid (.unlockFound next data))
  | judgeKeep {behind ahead : List NodeId} {p : T → Bool × T}
      {current next : NodeId} {data changed : Shared T}
      {link : Option NodeId}
      (located : state.pc tid = .judge p current next)
      (stored : state.heap next = some ⟨some data, link⟩)
      (verdict : removeJudge p data = .goOn changed) :
      Progress state tid (behind ++ current :: next :: ahead)
        (behind ++ current :: next :: ahead)
        (((state.setNode next (some ⟨some changed, link⟩)).note
          tid data).goto tid (.stepOver p current next))
  | judgeDrop {behind ahead : List NodeId} {p : T → Bool × T}
      {current next : NodeId} {data changed : Shared T}
      {link : Option NodeId}
      (located : state.pc tid = .judge p current next)
      (stored : state.heap next = some ⟨some data, link⟩)
      (verdict : removeJudge p data = .drop) :
      Progress state tid (behind ++ current :: next :: ahead)
        (behind ++ current :: ahead)
        (((state.setNode next (some ⟨some changed, link⟩)).note
          tid data).goto tid (.detach p current next))
  | detach {order : List NodeId} {p : T → Bool × T}
      {current next : NodeId} {data : Option (Shared T)}
      (located : state.pc tid = .detach p current next)
      (stored : state.heap current = some ⟨data, some next⟩) :
      Progress state tid order order
        ((state.setNode current (some ⟨data, none⟩)).goto tid
          (.bypass p current next (some next)))
  | bypass {order : List NodeId} {p : T → Bool × T}
      {current next : NodeId} {oldNext : Option NodeId}
      {data : Option (Shared T)} {rest : Option NodeId}
      (located : state.pc tid = .bypass p current next oldNext)
      (stored : state.heap next = some ⟨data, rest⟩) :
      Progress state tid order order
        ((state.setNode next (some ⟨data, none⟩)).goto tid
          (.relink p current next oldNext rest))
  | relink {order : List NodeId} {p : T → Bool × T}
      {current next : NodeId} {oldNext rest : Option NodeId}
      {data : Option (Shared T)}
      (located : state.pc tid = .relink p current next oldNext rest)
      (stored : state.heap current = some ⟨data, none⟩) :
      Progress state tid order order
        ((state.setNode current (some ⟨data, rest⟩)).goto tid
          (.unlockRemoved p current next oldNext))
  | unlockRemoved {order : List NodeId} {p : T → Bool × T}
      {current next : NodeId} {oldNext : Option NodeId}
      (located : state.pc tid = .unlockRemoved p current next oldNext) :
      Progress state tid order order
        ((state.setOwner next none).goto tid (.destroy p current oldNext))
  | destroy {order : List NodeId} {p : T → Bool × T}
      {current removed : NodeId}
      (located : state.pc tid = .destroy p current (some removed)) :
      Progress state tid order order
        ((state.setNode removed none).goto tid
          (.readNext (.removeIf p) current))
  | stepOver {behind ahead : List NodeId} {p : T → Bool × T}
      {current next : NodeId}
      (located : state.pc tid = .stepOver p current next) :
      Progress state tid (behind ++ current :: next :: ahead)
        (behind ++ current :: next :: ahead)
        ((state.setOwner current none).goto tid
          (.readNext (.removeIf p) next))

namespace Chain

variable {state next : State Tid T}
variable {order : List NodeId}
variable {tid : Tid}

omit [DecidableEq Tid]

/-- The head has no data. -/
theorem head_stored
    (chain : state.Chain order) :
    ∃ link, state.heap head = some ⟨none, link⟩ := by
  have member : head ∈ order :=
    List.mem_of_mem_head? (chain.first ▸ rfl)
  obtain ⟨⟨data, link⟩, stored, isHead⟩ := chain.stored head member
  obtain rfl : data = none := isHead.2 rfl
  exact ⟨link, stored⟩

/-- A mutex that the program counter says is held is held. -/
theorem owner_eq
    (chain : state.Chain order)
    {id : NodeId}
    (held : id ∈ (state.pc tid).holds) :
    state.owner id = some tid :=
  ((chain.station tid).held id).2 held

/-- An owned node is there. -/
theorem exists_stored
    (chain : state.Chain order)
    (tid : Tid)
    (id : NodeId)
    (owns : (state.pc tid).Owns id) :
    ∃ node, state.heap id = some node :=
  Option.ne_none_iff_exists'.1 (chain.owns_stored owns)

/-- A node on which a thread stands splits the order. -/
theorem split
    (chain : state.Chain order)
    (tid : Tid)
    (id : NodeId)
    (stands : id ∈ (state.pc tid).stands) :
    ∃ behind ahead, order = behind ++ id :: ahead :=
  List.append_of_mem ((chain.station tid).seated id stands)

/-- Neighbours stand next to each other in the order. -/
theorem split_neighbours
    (chain : state.Chain order)
    {current later : NodeId}
    (neighbours : (state.pc tid).neighbours = some (current, later)) :
    ∃ behind ahead, order = behind ++ current :: later :: ahead :=
  chain.linked.split
    ((chain.station tid).seated current
      (Pc.stands_of_neighbours neighbours))
    ((chain.station tid).neighbours current later neighbours)

/-- A thread does not stand on the node that it has unlinked. -/
theorem spare_ne_stood
    (chain : state.Chain order)
    (tid : Tid)
    {id spare : NodeId}
    (isSpare : (state.pc tid).spare = some spare)
    (stands : id ∈ (state.pc tid).stands) :
    spare ≠ id := by
  rintro rfl
  exact ((chain.station tid).spare _ isSpare).1
    ((chain.station tid).seated _ stands)

/-- Nobody holds the mutex of a node that has left the list unlocked. -/
theorem spare_free
    (chain : state.Chain order)
    {id : NodeId}
    (isSpare : (state.pc tid).spare = some id)
    (unheld : id ∉ (state.pc tid).holds) :
    state.owner id = none := by
  cases owned : state.owner id with
  | none =>
      rfl
  | some other =>
      have held := ((chain.station other).held id).1 owned
      obtain rfl := chain.owns_unique (.inr isSpare) (.inl held)
      exact (unheld held).elim

/-- The head comes first and only once. -/
theorem later_ne_head
    (chain : state.Chain order)
    {behind ahead : List NodeId}
    {current later : NodeId}
    (shape : order = behind ++ current :: later :: ahead) :
    later ≠ head := by
  subst shape
  rintro rfl
  have nodup := chain.nodup
  have first := chain.first
  cases behind with
  | nil =>
      simp only [List.nil_append, List.head?_cons,
        Option.some.injEq] at first
      simp [first] at nodup
  | cons other rest =>
      simp only [List.cons_append, List.head?_cons,
        Option.some.injEq] at first
      simp [first] at nodup

/-- Two neighbours differ from each other and from all other nodes. -/
theorem apart
    (chain : state.Chain order)
    {behind ahead : List NodeId}
    {current later : NodeId}
    (shape : order = behind ++ current :: later :: ahead) :
    current ≠ later ∧
      ∀ id, id ∈ behind ++ ahead → id ≠ current ∧ id ≠ later := by
  subst shape
  have nodup := chain.nodup
  simp only [List.nodup_append, List.nodup_cons, List.mem_cons,
    not_or] at nodup
  grind

/-- Every node of the list but the head has data. -/
theorem data_stored
    (chain : state.Chain order)
    {id : NodeId}
    (member : id ∈ order)
    (notHead : id ≠ head) :
    ∃ data link, state.heap id = some ⟨some data, link⟩ := by
  obtain ⟨⟨data, link⟩, stored, isHead⟩ := chain.stored id member
  cases data with
  | none =>
      exact (notHead (isHead.1 rfl)).elim
  | some data =>
      exact ⟨data, link, stored⟩

variable [DecidableEq Tid]

/-- A lock of a node that is there waits for the node to be free. -/
theorem lock?_eq
    (state : State Tid T)
    {id : NodeId}
    {pc : Pc T}
    (stored : state.heap id ≠ none)
    (stepped : state.lock? id tid pc = some next) :
    state.owner id = none ∧
      next = (state.setOwner id (some tid)).goto tid pc := by
  obtain ⟨node, isStored⟩ := Option.ne_none_iff_exists'.1 stored
  simp only [lock?, isStored] at stepped
  cases owned : state.owner id with
  | none =>
      simp only [owned, Option.some.injEq] at stepped
      exact ⟨rfl, stepped.symm⟩
  | some other =>
      simp [owned] at stepped

/-- An unlock of a held mutex goes well. -/
theorem unlock_eq
    (chain : state.Chain order)
    {id : NodeId}
    {pc : Pc T}
    (held : id ∈ (state.pc tid).holds) :
    state.unlock id tid pc = (state.setOwner id none).goto tid pc := by
  obtain ⟨node, stored⟩ := chain.exists_stored tid _ (.inl held)
  simp only [unlock, stored, chain.owner_eq held, ↓reduceIte]

/-- The last unlock of a call goes well. -/
theorem leave_eq
    (chain : state.Chain order)
    {id : NodeId}
    {found : Option (Shared T)}
    (held : id ∈ (state.pc tid).holds) :
    state.leave id tid found =
      ((state.record tid found).setOwner id none).goto tid .idle := by
  obtain ⟨node, stored⟩ := chain.exists_stored tid _ (.inl held)
  have owned := chain.owner_eq held
  simp only [leave, unlock, record, stored, owned, ↓reduceIte]

/-- The last step of a call unlocks the node that it stands on. -/
theorem progress_leave
    (chain : state.Chain order)
    {id : NodeId}
    {found : Option (Shared T)}
    (returns : (state.pc tid).returns = some (id, found)) :
    ∃ order',
      state.Progress tid order order' (state.leave id tid found) := by
  have stands := Pc.stands_of_returns returns
  obtain ⟨behind, ahead, rfl⟩ := chain.split tid id stands
  rw [chain.leave_eq (Pc.holds_of_stands stands)]
  exact ⟨_, .leave returns⟩

/-- The first lock of a call waits for the head to be free. -/
theorem lockHead?_eq
    (chain : state.Chain order)
    {call : Call T (Shared T)}
    {pc : Pc T}
    (stepped : state.lockHead? tid call pc = some next) :
    state.owner head = none ∧
      next =
        ((state.number tid call).setOwner head (some tid)).goto
          tid pc := by
  obtain ⟨link, stored⟩ := chain.head_stored
  exact lock?_eq (state.number tid call)
    (by simp [number, stored]) stepped

/-- The loop test finds the end of the list, or the next node. -/
theorem progress_readNext
    (chain : state.Chain order)
    {walk : Walk T}
    {current : NodeId}
    (located : state.pc tid = .readNext walk current)
    (stepped : state.run? tid = some next) :
    ∃ order', state.Progress tid order order' next := by
  have held : current ∈ (state.pc tid).holds := by
    simp [located, Pc.holds]
  obtain ⟨node, stored⟩ := chain.exists_stored tid _ (.inl held)
  have member :=
    (chain.station tid).seated current
      (by simp [located, Pc.stands, Pc.holds])
  have leads : state.successor current = node.next := by
    rw [successor_of_owner state (chain.owner_eq held), located]
    simp only [Pc.successor, nextOf, stored, Option.bind_some]
  simp only [run?, located, readNext, stored,
    Option.some.injEq] at stepped
  cases isNext : node.next with
  | none =>
      rw [isNext] at leads stepped
      obtain ⟨behind, rfl⟩ := chain.linked.last member leads
      subst stepped
      exact ⟨_, .reachEnd located⟩
  | some later =>
      rw [isNext] at leads stepped
      obtain ⟨behind, ahead, rfl⟩ :=
        chain.linked.split member leads
      subst stepped
      exact ⟨_, .reachNext located⟩

/-- A walk that only visits hands the element to its function. -/
theorem progress_visit
    (chain : state.Chain order)
    {body : Visit T}
    {later : NodeId}
    (located : state.pc tid = .visit body later)
    (stepped : state.run? tid = some next) :
    ∃ order', state.Progress tid order order' next := by
  have fields := (chain.station tid).fields
  obtain ⟨behind, ahead, rfl⟩ :=
    chain.split tid later
      (by simp [located, Pc.stands, Pc.holds])
  simp only [located, Fields] at fields
  obtain ⟨data, link, stored⟩ :=
    chain.data_stored (by simp) fields
  cases body with
  | forEach f =>
      simp only [run?, located, visitData, stored,
        Option.some.injEq] at stepped
      subst stepped
      exact ⟨_, .visitOn located stored rfl⟩
  | findFirstIf p =>
      simp only [run?, located, visitData, stored,
        Option.some.injEq] at stepped
      cases accepted : (p data.value).1 with
      | true =>
          simp only [accepted, ↓reduceIte] at stepped
          subst stepped
          exact ⟨_, .visitStop located stored
            (by simp [Visit.judge, accepted])⟩
      | false =>
          simp only [accepted, Bool.false_eq_true,
            ↓reduceIte] at stepped
          subst stepped
          exact ⟨_, .visitOn located stored
            (by simp [Visit.judge, accepted])⟩

/-- `remove_if` hands the element to its predicate. -/
theorem progress_judge
    (chain : state.Chain order)
    {p : T → Bool × T}
    {current later : NodeId}
    (located : state.pc tid = .judge p current later)
    (stepped : state.run? tid = some next) :
    ∃ order', state.Progress tid order order' next := by
  obtain ⟨behind, ahead, shape⟩ :=
    chain.split_neighbours
      (by rw [located]; rfl)
  obtain ⟨data, link, stored⟩ :=
    chain.data_stored (by simp [shape]) (chain.later_ne_head shape)
  subst shape
  simp only [run?, located, visitData, stored,
    Option.some.injEq] at stepped
  cases accepted : (p data.value).1 with
  | true =>
      simp only [accepted, ↓reduceIte] at stepped
      subst stepped
      exact ⟨_, .judgeDrop located stored
        (by simp [removeJudge, accepted])⟩
  | false =>
      simp only [accepted, Bool.false_eq_true,
        ↓reduceIte] at stepped
      subst stepped
      exact ⟨_, .judgeKeep located stored
        (by simp [removeJudge, accepted])⟩

omit [DecidableEq Tid] in
/-- A node that is about to be destroyed is unlocked. -/
theorem free_of_destroy
    (chain : state.Chain order)
    {p : T → Bool × T}
    {current removed : NodeId}
    (located : state.pc tid = .destroy p current (some removed)) :
    state.owner removed = none := by
  have isSpare : (state.pc tid).spare = some removed := by
    rw [located]
    rfl
  have stands : current ∈ (state.pc tid).stands := by
    simp [located, Pc.stands, Pc.holds]
  have apart := chain.spare_ne_stood tid isSpare stands
  exact chain.spare_free isSpare
    (by simpa [located, Pc.holds] using apart)

/-- The node that `remove_if` destroys is there and owns no other. -/
theorem progress_destroy
    (chain : state.Chain order)
    {p : T → Bool × T}
    {current : NodeId}
    {oldNext : Option NodeId}
    (located : state.pc tid = .destroy p current oldNext)
    (stepped : state.run? tid = some next) :
    ∃ order', state.Progress tid order order' next := by
  have fields := (chain.station tid).fields
  simp only [located, Fields] at fields
  obtain ⟨removed, rfl, cleared⟩ := fields
  obtain ⟨⟨data, link⟩, stored⟩ :=
    chain.exists_stored tid removed
      (.inr (by rw [located]; rfl))
  simp only [nextOf, stored, Option.bind_some] at cleared
  subst cleared
  simp only [run?, located, deleteNode, stored,
    chain.free_of_destroy located, Option.some.injEq] at stepped
  subst stepped
  exact ⟨_, .destroy located⟩

/-- Every step of a thread on a chain is one of those listed. -/
theorem progress
    (chain : state.Chain order)
    (stepped : state.run? tid = some next) :
    ∃ order', state.Progress tid order order' next := by
  have station := chain.station tid
  have fields := station.fields
  cases located : state.pc tid with
  | idle =>
      simp [run?, located] at stepped
  | pushNew value =>
      simp only [run?, located, Option.some.injEq] at stepped
      subst stepped
      exact ⟨order, .newNode located⟩
  | pushLock newNode value =>
      simp only [run?, located] at stepped
      obtain ⟨free, rfl⟩ := chain.lockHead?_eq stepped
      exact ⟨order, .startPush located free⟩
  | pushTake newNode value =>
      obtain ⟨rest, stored⟩ := chain.head_stored
      simp only [run?, located, releaseNext, stored,
        Option.some.injEq] at stepped
      subst stepped
      exact ⟨order, .take located stored⟩
  | pushLink newNode value rest =>
      simp only [located, Fields] at fields
      simp only [run?, located, resetNext, fields.1,
        Option.some.injEq] at stepped
      subst stepped
      exact ⟨order, .link located⟩
  | pushStore newNode value =>
      obtain ⟨rest, stored⟩ := chain.head_stored
      simp only [located, Fields, nextOf, stored,
        Option.bind_some] at fields
      rw [fields.2] at stored
      simp only [run?, located, resetNext, stored,
        Option.some.injEq] at stepped
      obtain ⟨tail, rfl⟩ := List.head?_eq_some_iff.1 chain.first
      subst stepped
      exact ⟨_, .store located stored⟩
  | walkLock walk =>
      simp only [run?, located] at stepped
      obtain ⟨free, rfl⟩ := chain.lockHead?_eq stepped
      exact ⟨order, .startWalk located free⟩
  | readNext walk current =>
      exact chain.progress_readNext located stepped
  | lockNext walk current later =>
      obtain ⟨behind, ahead, shape⟩ :=
        chain.split_neighbours
          (by rw [located]; rfl)
      obtain ⟨data, link, stored⟩ :=
        chain.data_stored (by simp [shape]) (chain.later_ne_head shape)
      simp only [run?, located] at stepped
      obtain ⟨free, rfl⟩ := lock?_eq state (by simp [stored]) stepped
      subst shape
      exact ⟨_, .lockNext located free⟩
  | unlockCurrent body current later =>
      obtain ⟨behind, ahead, rfl⟩ :=
        chain.split_neighbours
          (by rw [located]; rfl)
      have held : current ∈ (state.pc tid).holds := by
        simp [located, Pc.holds]
      simp only [run?, located, chain.unlock_eq held,
        Option.some.injEq] at stepped
      subst stepped
      exact ⟨_, .unlockCurrent located⟩
  | visit body later =>
      exact chain.progress_visit located stepped
  | copyFound later =>
      obtain ⟨behind, ahead, rfl⟩ :=
        chain.split tid later
          (by simp [located, Pc.stands, Pc.holds])
      simp only [located, Fields] at fields
      obtain ⟨data, link, stored⟩ :=
        chain.data_stored (by simp) fields
      simp only [run?, located, copyData, stored,
        Option.some.injEq] at stepped
      subst stepped
      exact ⟨_, .copyFound located stored⟩
  | judge p current later =>
      exact chain.progress_judge located stepped
  | detach p current later =>
      obtain ⟨⟨data, link⟩, stored⟩ :=
        chain.exists_stored tid current
          (.inl (by simp [located, Pc.holds]))
      simp only [located, Fields, nextOf, stored,
        Option.bind_some] at fields
      subst fields
      simp only [run?, located, releaseNext, stored,
        Option.some.injEq] at stepped
      subst stepped
      exact ⟨_, .detach located stored⟩
  | bypass p current later oldNext =>
      obtain ⟨⟨data, link⟩, stored⟩ :=
        chain.exists_stored tid later
          (.inl (by simp [located, Pc.holds]))
      simp only [run?, located, releaseNext, stored,
        Option.some.injEq] at stepped
      subst stepped
      exact ⟨_, .bypass located stored⟩
  | relink p current later oldNext rest =>
      obtain ⟨⟨data, link⟩, stored⟩ :=
        chain.exists_stored tid current
          (.inl (by simp [located, Pc.holds]))
      simp only [located, Fields, nextOf, stored,
        Option.bind_some] at fields
      rw [fields.1] at stored
      simp only [run?, located, resetNext, stored,
        Option.some.injEq] at stepped
      subst stepped
      exact ⟨_, .relink located stored⟩
  | unlockRemoved p current later oldNext =>
      have held : later ∈ (state.pc tid).holds := by
        simp [located, Pc.holds]
      simp only [run?, located, chain.unlock_eq held,
        Option.some.injEq] at stepped
      subst stepped
      exact ⟨_, .unlockRemoved located⟩
  | destroy p current oldNext =>
      exact chain.progress_destroy located stepped
  | stepOver p current later =>
      obtain ⟨behind, ahead, rfl⟩ :=
        chain.split_neighbours
          (by rw [located]; rfl)
      have held : current ∈ (state.pc tid).holds := by
        simp [located, Pc.holds]
      simp only [run?, located, chain.unlock_eq held,
        Option.some.injEq] at stepped
      subst stepped
      exact ⟨_, .stepOver located⟩
  | pushUnlock | unlockFound later found | unlockLast current =>
      simp only [run?, located, Option.some.injEq] at stepped
      subst stepped
      exact chain.progress_leave (by rw [located]; rfl)

/-- A step begins a call or takes a running one further. -/
theorem step_cases
    (chain : state.Chain order)
    {action : Action Tid T}
    (stepped : machine.step? state action = some next) :
    (∃ tid begun,
      action = .call tid begun ∧
        state.pc tid = .idle ∧
        next = state.goto tid (enter begun)) ∨
      ∃ tid order',
        action = .run tid ∧ state.Progress tid order order' next := by
  cases action with
  | call tid begun =>
      simp only [machine, step?] at stepped
      split at stepped
      · next located =>
          exact .inl ⟨tid, begun, rfl, located,
            (Option.some.inj stepped).symm⟩
      · cases stepped
  | run tid =>
      obtain ⟨order', progress⟩ := chain.progress stepped
      exact .inr ⟨tid, order', rfl, progress⟩

end Chain
end State
end WkcRuntime.ListR
