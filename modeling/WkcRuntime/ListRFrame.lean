import WkcRuntime.ListRSteps

namespace WkcRuntime.ListR

open LinkedOrder SweepPipeline

/-!
# Steps that leave the order of the list as it is

Most steps leave every `next` in the list as it is and need only the new
station of the thread that moves.  The others are the steps of `push_front`
between its lock and its unlock and those of `remove_if` between the verdict
on a node and the unlock of it; in each of them the successor that the thread
is about to establish stays the same while the pointers catch up with it.
-/

variable {Tid T : Type}

/-- A thread that is not in the middle of an update. -/
def Pc.Plain (pc : Pc T) : Prop :=
  ∀ nextOf id, pc.successor nextOf id = nextOf id

namespace State

namespace Moves

variable {own : NodeId → Prop}
variable {state middle next : State Tid T}
variable {tid : Tid}

/-- Two changes by the same thread in turn. -/
theorem trans
    (first : Moves own state middle tid)
    (second : Moves own middle next tid) :
    Moves own state next tid := by
  refine ⟨?_, ?_, ?_, ?_, ?_⟩
  · intro other different
    rw [second.pc other different, first.pc other different]
  · intro other different
    rw [second.ticket other different, first.ticket other different]
  · intro other different
    rw [second.visited other different, first.visited other different]
  · intro id stored foreign
    have same := first.heap id stored foreign
    rw [second.heap id (same ▸ stored) foreign, same]
  · intro id other different
    rw [second.owner id other different, first.owner id other different]

/-- A thread writes a node of its own, or one that was not there. -/
theorem setNode
    {id : NodeId}
    {node : Option (Node T)}
    (mine : own id ∨ state.heap id = none) :
    Moves own state (state.setNode id node) tid where
  pc _ _ := rfl
  ticket _ _ := rfl
  visited _ _ := rfl
  heap other stored foreign := by
    refine Function.update_of_ne ?_ _ _
    rintro rfl
    exact mine.elim foreign stored
  owner _ _ _ := Iff.rfl

/-- A thread locks a free mutex, or unlocks one that it holds. -/
theorem setOwner
    {id : NodeId}
    {owner : Option Tid}
    (before : ∀ other, other ≠ tid → state.owner id ≠ some other)
    (after : ∀ other, other ≠ tid → owner ≠ some other) :
    Moves own state (state.setOwner id owner) tid where
  pc _ _ := rfl
  ticket _ _ := rfl
  visited _ _ := rfl
  heap _ _ _ := rfl
  owner other thread different := by
    by_cases same : other = id
    · subst same
      simp [State.setOwner, before thread different,
        after thread different]
    · simp [State.setOwner, same]

/-- A thread locks a free mutex. -/
theorem lock
    {id : NodeId}
    (free : state.owner id = none) :
    Moves own state (state.setOwner id (some tid)) tid :=
  setOwner (by simp [free]) (by simp [eq_comm])

/-- A thread unlocks a mutex that it holds. -/
theorem unlock
    {id : NodeId}
    (owned : state.owner id = some tid) :
    Moves own state (state.setOwner id none) tid :=
  setOwner (by simp [owned, eq_comm]) (by simp)

/-- Recording a result changes no node. -/
theorem record (found : Option (Shared T)) :
    Moves own state (state.record tid found) tid where
  pc _ _ := rfl
  ticket _ _ := rfl
  visited _ _ := rfl
  heap _ _ _ := rfl
  owner _ _ _ := Iff.rfl

/-- Taking memory for a node changes no node. -/
theorem allocate :
    Moves own state state.allocate tid where
  pc _ _ := rfl
  ticket _ _ := rfl
  visited _ _ := rfl
  heap _ _ _ := rfl
  owner _ _ _ := Iff.rfl

variable [DecidableEq Tid]

/-- Moving on changes no node. -/
theorem goto (pc : Pc T) :
    Moves own state (state.goto tid pc) tid where
  pc _ different := Function.update_of_ne different _ _
  ticket _ _ := rfl
  visited _ _ := rfl
  heap _ _ _ := rfl
  owner _ _ _ := Iff.rfl

/-- Taking a number changes no node. -/
theorem number (call : Call T (Shared T)) :
    Moves own state (state.number tid call) tid where
  pc _ _ := rfl
  ticket _ different := Function.update_of_ne different _ _
  visited _ different := Function.update_of_ne different _ _
  heap _ _ _ := rfl
  owner _ _ _ := Iff.rfl

/-- Noting an element changes no node. -/
theorem note (data : Shared T) :
    Moves own state (state.note tid data) tid where
  pc _ _ := rfl
  ticket _ _ := rfl
  visited _ different := Function.update_of_ne different _ _
  heap _ _ _ := rfl
  owner _ _ _ := Iff.rfl

end Moves

namespace Chain

variable {state next : State Tid T}
variable {order order' : List NodeId}
variable {tid : Tid}

/-- A node of the list that a thread owns is one whose mutex it holds. -/
theorem owner_of_owns
    (chain : state.Chain order)
    {id : NodeId}
    (member : id ∈ order)
    (owns : (state.pc tid).Owns id) :
    state.owner id = some tid := by
  rcases owns with held | isSpare
  · exact chain.owner_eq held
  · exact (((chain.station tid).spare id isSpare).1 member).elim

/-- Nothing that a thread writes lies beyond what was allocated. -/
theorem fresh_setNode
    (chain : state.Chain order)
    {id : NodeId}
    (node : Option (Node T))
    (stored : state.heap id ≠ none) :
    ∀ other,
      (state.setNode id node).heap other ≠ none →
      other < state.fresh := by
  intro other isStored
  by_cases same : other = id
  · subst same
    exact chain.fresh other stored
  · simp only [setNode, Function.update_of_ne same] at isStored
    exact chain.fresh other isStored

/-- A thread that is not in the middle of an update shows `next` as it is. -/
theorem successor_of_plain
    (plain : (state.pc tid).Plain)
    {id : NodeId}
    (ours :
      state.owner id = none ∨ state.owner id = some tid) :
    state.successor id = state.nextOf id := by
  rcases ours with free | owned
  · exact successor_of_free free
  · rw [successor_of_owner state owned]
    exact plain _ id

/--
A step from one place outside an update to another that changes at most the
data in nodes of the list.
-/
theorem keep_plain
    (chain : state.Chain order)
    (moves : Moves (state.pc tid).Owns state next tid)
    (sound : next.fault = false)
    (plain : (state.pc tid).Plain)
    (plain' : (next.pc tid).Plain)
    (nodes :
      ∀ id,
        id ∈ order →
        next.heap id = state.heap id ∨
          ∃ data changed link,
            state.heap id = some ⟨some data, link⟩ ∧
              next.heap id = some ⟨some changed, link⟩)
    (fresh : ∀ id, next.heap id ≠ none → id < next.fresh)
    (station : next.Station order tid)
    (lone :
      ∀ id,
        (next.pc tid).spare = some id →
        (state.pc tid).Owns id ∨ state.heap id = none) :
    next.Chain order := by
  have sameNext :
      ∀ id, id ∈ order → next.nextOf id = state.nextOf id := by
    intro id member
    rcases nodes id member with same | ⟨data, changed, link, was, is⟩
    · simp only [nextOf, same]
    · simp only [nextOf, was, is, Option.bind_some]
  refine chain.keep moves sound ?_ ?_ fresh station lone
  · intro id member touched
    have before :
        state.owner id = none ∨ state.owner id = some tid := by
      rcases touched with owns | owned
      · exact .inr (chain.owner_of_owns member owns)
      · cases owned' : state.owner id with
        | none =>
            exact .inl rfl
        | some other =>
            by_cases same : other = tid
            · exact .inr (same ▸ rfl)
            · rw [(moves.owner id other same).2 owned'] at owned
              exact .inr owned
    have after :
        next.owner id = none ∨ next.owner id = some tid := by
      cases owned' : next.owner id with
      | none =>
          exact .inl rfl
      | some other =>
          by_cases same : other = tid
          · exact .inr (same ▸ rfl)
          · rw [(moves.owner id other same).1 owned'] at before
            rcases before with before | before
            · cases before
            · exact .inr before
    rw [successor_of_plain plain' after, successor_of_plain plain before,
      sameNext id member]
  · intro id member _
    obtain ⟨node, stored, isHead⟩ := chain.stored id member
    rcases nodes id member with same | ⟨data, changed, link, was, is⟩
    · exact ⟨node, same.trans stored, isHead⟩
    · rw [was, Option.some.injEq] at stored
      subst stored
      refine ⟨_, is, ?_⟩
      simpa using isHead

/-- The station of a thread that is not in the middle of an update. -/
theorem station_of_plain
    (plain : (next.pc tid).Plain)
    (held :
      ∀ id, next.owner id = some tid ↔ id ∈ (next.pc tid).holds)
    (seated : ∀ id, id ∈ (next.pc tid).stands → id ∈ order)
    (neighbours :
      ∀ current later,
        (next.pc tid).neighbours = some (current, later) →
        next.nextOf current = some later)
    (spare :
      ∀ id,
        (next.pc tid).spare = some id →
        id ∉ order ∧ next.heap id ≠ none)
    (fields : next.Fields (next.pc tid)) :
    next.Station order tid := by
  refine ⟨held, seated, ?_, spare, fields⟩
  intro current later isNext
  have owned :=
    (held current).2
      (Pc.holds_of_stands (Pc.stands_of_neighbours isNext))
  rw [successor_of_plain plain (.inr owned)]
  exact neighbours current later isNext

/-- Outside an update the `next` of a held node is the successor of it. -/
theorem nextOf_eq
    (chain : state.Chain order)
    {behind ahead : List NodeId}
    {current : NodeId}
    (shape : order = behind ++ current :: ahead)
    (plain : (state.pc tid).Plain)
    (held : current ∈ (state.pc tid).holds) :
    state.nextOf current = ahead.head? := by
  rw [← successor_of_plain plain (.inr (chain.owner_eq held))]
  subst shape
  exact chain.linked.next_eq

variable [DecidableEq Tid]

attribute [local simp] goto setNode setOwner number note record allocate

/-- A thread that only moves on. -/
theorem keep_goto
    (chain : state.Chain order)
    {before : Pc T}
    (located : state.pc tid = before)
    {pc : Pc T}
    (plain : before.Plain)
    (plain' : pc.Plain)
    (holds : pc.holds = before.holds)
    (stands : pc.stands = before.stands)
    (spare : pc.spare = none)
    (neighbours :
      ∀ current later,
        pc.neighbours = some (current, later) →
        state.nextOf current = some later)
    (fields : state.Fields pc) :
    (state.goto tid pc).Chain order := by
  subst located
  refine chain.keep_plain (.goto pc) chain.sound plain
    (by simpa using plain') (fun _ _ => .inl rfl) chain.fresh ?_
    (by simp [spare])
  refine station_of_plain (by simpa using plain') ?_ ?_ ?_
    (by simp [spare]) ?_
  · intro id
    simpa [holds] using (chain.station tid).held id
  · intro id member
    apply (chain.station tid).seated id
    simpa [stands] using member
  · intro current later isNext
    exact neighbours current later (by simpa using isNext)
  · simp only [goto, Function.update_self]
    exact fields_congr state (fun _ _ => rfl) fields

/-- A call locks the head. -/
theorem keep_start
    (chain : state.Chain order)
    {before : Pc T}
    (located : state.pc tid = before)
    {call : Call T (Shared T)}
    {pc : Pc T}
    (free : state.owner head = none)
    (plain : before.Plain)
    (plain' : pc.Plain)
    (unheld : before.holds = [])
    (holds : pc.holds = [head])
    (spare : pc.spare = before.spare)
    (neighbours : pc.neighbours = none)
    (fields : state.Fields before → state.Fields pc) :
    (((state.number tid call).setOwner head (some tid)).goto
      tid pc).Chain order := by
  subst located
  have member : head ∈ order :=
    List.mem_of_mem_head? (chain.first ▸ rfl)
  have station := chain.station tid
  refine chain.keep_plain
    (.trans (.trans (.number call) (.lock free)) (.goto pc))
    chain.sound plain (by simpa using plain') (fun _ _ => .inl rfl)
    chain.fresh ?_ ?_
  · refine station_of_plain (by simpa using plain') ?_ ?_
      (by simp [neighbours]) ?_ ?_
    · intro id
      have held := station.held id
      by_cases same : id = head
      · simp [same, holds]
      · simpa [same, holds, unheld] using held
    · intro id stands
      have held := Pc.holds_of_stands stands
      simp only [goto, Function.update_self, holds,
        List.mem_singleton] at held
      exact held ▸ member
    · intro id isSpare
      exact station.spare id (by simpa [spare] using isSpare)
    · simp only [goto, Function.update_self]
      exact fields_congr state (fun _ _ => rfl) (fields station.fields)
  · intro id isSpare
    exact .inl (.inr (by simpa [spare] using isSpare))

/-- A call unlocks a node on which it stands. -/
theorem keep_unlock
    (chain : state.Chain order)
    {before : Pc T}
    (located : state.pc tid = before)
    {middle : State Tid T}
    {id : NodeId}
    {pc : Pc T}
    (recorded :
      middle = state ∨ ∃ found, middle = state.record tid found)
    (plain : before.Plain)
    (plain' : pc.Plain)
    (held : id ∈ before.holds)
    (holds :
      ∀ other,
        other ∈ pc.holds ↔
          other ∈ before.holds ∧ other ≠ id)
    (stands :
      ∀ other,
        other ∈ pc.stands →
        other ∈ before.stands)
    (neighbours : pc.neighbours = none)
    (spare : pc.spare = before.spare)
    (fields : state.Fields pc) :
    ((middle.setOwner id none).goto tid pc).Chain order := by
  subst located
  have station := chain.station tid
  have owned := chain.owner_eq held
  obtain ⟨sameHeap, sameOwner, samePc, sameFresh, sameFault, moves⟩ :
      middle.heap = state.heap ∧
        middle.owner = state.owner ∧
          middle.pc = state.pc ∧
            middle.fresh = state.fresh ∧
              middle.fault = state.fault ∧
                Moves (state.pc tid).Owns state
                  ((middle.setOwner id none).goto tid pc) tid := by
    rcases recorded with rfl | ⟨found, rfl⟩
    · exact ⟨rfl, rfl, rfl, rfl, rfl, .trans (.unlock owned) (.goto pc)⟩
    · exact ⟨rfl, rfl, rfl, rfl, rfl,
        .trans (.trans (.record found) (.unlock owned)) (.goto pc)⟩
  refine chain.keep_plain moves (by simp [sameFault, chain.sound]) plain
    (by simpa using plain')
    (fun _ _ => .inl (by simp [sameHeap]))
    (by simpa [sameHeap, sameFresh] using chain.fresh) ?_ ?_
  · refine station_of_plain (by simpa using plain') ?_ ?_
      (by simp [neighbours]) ?_ ?_
    · intro other
      have otherHeld := station.held other
      by_cases same : other = id
      · simp [same, holds]
      · simpa [same, holds, sameOwner] using otherHeld
    · intro other isStood
      exact station.seated other
        (stands other (by simpa using isStood))
    · intro other isSpare
      simpa [sameHeap] using
        station.spare other (by simpa [spare] using isSpare)
    · refine fields_congr state ?_ (by simpa using fields)
      intro other _
      simp [sameHeap]
  · intro other isSpare
    exact .inl (.inr (by simpa [spare] using isSpare))

/-- A call locks the node after the one on which it stands. -/
theorem keep_lock
    (chain : state.Chain order)
    {before : Pc T}
    (located : state.pc tid = before)
    {behind ahead : List NodeId}
    {current later : NodeId}
    {pc : Pc T}
    (shape : order = behind ++ current :: later :: ahead)
    (free : state.owner later = none)
    (plain : before.Plain)
    (plain' : pc.Plain)
    (held : before.holds = [current])
    (holds : pc.holds = [current, later])
    (stands : pc.stands = [current, later])
    (spare : pc.spare = none)
    (neighbours : pc.neighbours = some (current, later))
    (fields : state.Fields pc) :
    ((state.setOwner later (some tid)).goto tid pc).Chain order := by
  subst located
  have leads : state.nextOf current = some later :=
    chain.nextOf_eq shape plain (by simp [held])
  refine chain.keep_plain (.trans (.lock free) (.goto pc)) chain.sound
    plain (by simpa using plain') (fun _ _ => .inl rfl) chain.fresh ?_
    (by simp [spare])
  refine station_of_plain (by simpa using plain') ?_ ?_ ?_
    (by simp [spare]) ?_
  · intro id
    have heldBefore := (chain.station tid).held id
    by_cases same : id = later
    · simp [same, holds]
    · simpa [same, holds, held] using heldBefore
  · intro id isStood
    simp only [goto, Function.update_self, stands, List.mem_cons,
      List.not_mem_nil, or_false] at isStood
    rcases isStood with rfl | rfl <;> simp [shape]
  · intro other next isNext
    simp only [goto, Function.update_self, neighbours, Option.some.injEq,
      Prod.mk.injEq] at isNext
    obtain ⟨rfl, rfl⟩ := isNext
    exact leads
  · simp only [goto, Function.update_self]
    exact fields_congr state (fun _ _ => rfl) fields

/-- A call changes the data in a node whose mutex it holds. -/
theorem keep_visit
    (chain : state.Chain order)
    {before : Pc T}
    (located : state.pc tid = before)
    {id : NodeId}
    {data changed : Shared T}
    {link : Option NodeId}
    {pc : Pc T}
    (stored : state.heap id = some ⟨some data, link⟩)
    (held : id ∈ before.holds)
    (plain : before.Plain)
    (plain' : pc.Plain)
    (holds : pc.holds = before.holds)
    (stands : pc.stands = before.stands)
    (spare : pc.spare = none)
    (neighbours :
      ∀ current later,
        pc.neighbours = some (current, later) →
        state.nextOf current = some later)
    (fields : ∀ any : State Tid T, any.Fields pc) :
    (((state.setNode id (some ⟨some changed, link⟩)).note
      tid data).goto tid pc).Chain order := by
  subst located
  have sameNext :
      ∀ other,
        (((state.setNode id (some ⟨some changed, link⟩)).note
          tid data).goto tid pc).nextOf other = state.nextOf other := by
    intro other
    by_cases same : other = id
    · simp [nextOf, same, stored]
    · simp [nextOf, same]
  refine chain.keep_plain
    (.trans (.trans (.setNode (.inl (.inl held))) (.note data))
      (.goto pc))
    chain.sound plain (by simpa using plain') ?_
    (chain.fresh_setNode _ (by simp [stored])) ?_ (by simp [spare])
  · intro other _
    by_cases same : other = id
    · subst same
      exact .inr ⟨data, changed, link, stored, by simp⟩
    · exact .inl (by simp [same])
  · refine station_of_plain (by simpa using plain') ?_ ?_ ?_
      (by simp [spare]) ?_
    · intro other
      simpa [holds] using (chain.station tid).held other
    · intro other isStood
      apply (chain.station tid).seated other
      simpa [stands] using isStood
    · intro current later isNext
      rw [sameNext]
      exact neighbours current later (by simpa using isNext)
    · simpa using fields _

/-- Writing a node changes one `next`. -/
theorem nextOf_setNode
    (id : NodeId)
    (node : Node T)
    (pc : Pc T) :
    ((state.setNode id (some node)).goto tid pc).nextOf =
      Function.update state.nextOf id node.next := by
  funext other
  by_cases same : other = id
  · simp [nextOf, same]
  · simp [nextOf, same]

/--
A call in the middle of an update writes a node of its own, so that the
successor of the node on which it stands is what it was about to become.
-/
theorem keep_update
    (chain : state.Chain order)
    {before : Pc T}
    (located : state.pc tid = before)
    {id : NodeId}
    (current : NodeId)
    {old node : Node T}
    {pc : Pc T}
    (stored : state.heap id = some old)
    (owns : before.Owns id)
    (sameData : node.data = old.data)
    (standsOn : before.stands = [current])
    (successor :
      pc.successor
          (Function.update state.nextOf id node.next) current =
        before.successor state.nextOf current)
    (holds : pc.holds = before.holds)
    (stands : pc.stands = before.stands)
    (spare : pc.spare = before.spare)
    (neighbours : pc.neighbours = none)
    (fields :
      ((state.setNode id (some node)).goto tid pc).Fields pc) :
    ((state.setNode id (some node)).goto tid pc).Chain order := by
  subst located
  have station := chain.station tid
  refine chain.keep (.trans (.setNode (.inl owns)) (.goto pc))
    chain.sound ?_ ?_ (chain.fresh_setNode _ (by simp [stored])) ?_ ?_
  · intro other member touched
    have owned : state.owner other = some tid := by
      rcases touched with mine | owned
      · exact chain.owner_of_owns member mine
      · exact owned
    obtain rfl : other = current := by
      rcases Pc.stands_or_spare ((station.held other).1 owned) with
        stood | isSpare
      · simpa [standsOn] using stood
      · exact ((station.spare other isSpare).1 member).elim
    rw [successor_of_owner
        ((state.setNode id (some node)).goto tid pc) owned,
      successor_of_owner state owned, nextOf_setNode]
    simpa using successor
  · intro other member _
    obtain ⟨before, isStored, isHead⟩ := chain.stored other member
    by_cases same : other = id
    · subst same
      rw [stored, Option.some.injEq] at isStored
      subst isStored
      exact ⟨node, by simp, sameData ▸ isHead⟩
    · exact ⟨before, by simpa [same] using isStored, isHead⟩
  · refine ⟨?_, ?_, by simp [neighbours], ?_, ?_⟩
    · intro other
      simpa [holds] using station.held other
    · intro other isStood
      exact station.seated other (by simpa [stands] using isStood)
    · intro other isSpare
      obtain ⟨outside, isStored⟩ :=
        station.spare other (by simpa [spare] using isSpare)
      refine ⟨outside, ?_⟩
      by_cases same : other = id
      · simp [same]
      · simpa [same] using isStored
    · simpa using fields
  · intro other isSpare
    exact .inl (.inr (by simpa [spare] using isSpare))

omit [DecidableEq Tid] in
/-- Nothing lies where the next node will be made. -/
theorem unused
    (chain : state.Chain order) :
    state.heap state.fresh = none := by
  by_contra stored
  exact Nat.lt_irrefl _ (chain.fresh _ stored)

/-- A new node is made beside the list. -/
theorem keep_newNode
    (chain : state.Chain order)
    {value : T}
    (located : state.pc tid = .pushNew value) :
    (state.newNode tid value).Chain order := by
  have unused := chain.unused
  have outside : state.fresh ∉ order := by
    intro member
    obtain ⟨node, stored, _⟩ := chain.stored _ member
    rw [unused] at stored
    cases stored
  refine chain.keep_plain
    (.trans (.trans (.setNode (.inr unused)) .allocate) (.goto _))
    chain.sound (by rw [located]; intro _ _; rfl)
    (by simp [newNode, Pc.Plain, Pc.successor]) ?_ ?_ ?_ ?_
  · intro id member
    refine .inl (Function.update_of_ne ?_ _ _)
    rintro rfl
    exact outside member
  · intro id stored
    by_cases same : id = state.fresh
    · simp [newNode, same]
    · simp only [newNode, goto, allocate, setNode,
        Function.update_of_ne same] at stored
      exact Nat.lt_succ_of_lt (chain.fresh id stored)
  · refine station_of_plain
      (by simp [newNode, Pc.Plain, Pc.successor]) ?_
      (by simp [newNode, Pc.stands, Pc.holds])
      (by simp [newNode, Pc.neighbours])
      ?_ (by simp [newNode, Fields])
    · intro id
      simpa [newNode, located, Pc.holds] using
        (chain.station tid).held id
    · intro id isSpare
      simp only [newNode, goto, Function.update_self, Pc.spare,
        Option.some.injEq] at isSpare
      subst isSpare
      exact ⟨outside, by simp [newNode]⟩
  · intro id isSpare
    simp only [newNode, goto, Function.update_self, Pc.spare,
      Option.some.injEq] at isSpare
    exact .inr (isSpare ▸ unused)

/-- The node that was unlinked is destroyed. -/
theorem keep_destroy
    (chain : state.Chain order)
    {p : T → Bool × T}
    {current removed : NodeId}
    (located : state.pc tid = .destroy p current (some removed)) :
    ((state.setNode removed none).goto tid
      (.readNext (.removeIf p) current)).Chain order := by
  have station := chain.station tid
  have isSpare : (state.pc tid).spare = some removed := by
    rw [located]
    rfl
  obtain ⟨outside, stored⟩ := station.spare removed isSpare
  refine chain.keep_plain
    (.trans (.setNode (.inl (.inr isSpare))) (.goto _)) chain.sound
    (by rw [located]; intro _ _; rfl) (by simp [Pc.Plain, Pc.successor])
    ?_ (chain.fresh_setNode _ stored) ?_ (by simp [Pc.spare])
  · intro id member
    refine .inl (Function.update_of_ne ?_ _ _)
    rintro rfl
    exact outside member
  · refine station_of_plain (by simp [Pc.Plain, Pc.successor]) ?_ ?_
      (by simp [Pc.neighbours]) (by simp [Pc.spare]) (by simp [Fields])
    · intro id
      simpa [located, Pc.holds] using station.held id
    · intro id isStood
      apply station.seated id
      simpa [located, Pc.stands, Pc.holds] using isStood

end Chain
end State
end WkcRuntime.ListR
