import WkcRuntime.ListRLayout

namespace WkcRuntime.ListR

open LinkedOrder SweepPipeline

/-!
# `list_r` is linearizable at the head lock

The calls that run form a layout whose outcome no step changes; a call joins it
with its first lock and hands in its report when it returns.  So at the end the
list and all results are those of the calls run one after another in the order
of their first locks.
-/

variable {Tid T : Type}

/-- The calls run one after another on an empty sequence. -/
def serial
    (calls : List (Call T (Shared T))) :
    Outcome (Shared T) :=
  inTurn (calls.map Call.pass)

/-- Alone, `for_each` visits and changes every element. -/
theorem finish_forEach
    (f : T → T)
    (elements : List (Shared T)) :
    (Call.walk (.visit (.forEach f))).pass.finish elements =
      (elements.map fun data => ⟨data.object, f data.value⟩,
        ⟨elements, none⟩) := by
  have swept :
      sweep (Visit.forEach f).judge elements =
        (elements.map fun data => ⟨data.object, f data.value⟩,
          ⟨elements, none⟩) :=
    sweep_goOn _ elements
  simp only [Call.pass, Walk.judge, Pass.finish, swept,
    List.nil_append]

/-- Alone, `find_first_if` changes nothing and finds the first match. -/
theorem finish_findFirstIf
    (test : T → Bool)
    (elements : List (Shared T)) :
    let call :=
      Call.walk (.visit (.findFirstIf fun value => (test value, value)))
    (call.pass.finish elements).1 = elements ∧
      (call.pass.finish elements).2.found =
        elements.find? fun data => test data.value := by
  exact sweep_stop (fun data : Shared T => test data.value) elements

/-- Alone, `remove_if` leaves the elements that do not match. -/
theorem finish_removeIf
    (test : T → Bool)
    (elements : List (Shared T)) :
    ((Call.walk
        (.removeIf fun value => (test value, value))).pass.finish
          elements).1 =
      elements.filter fun data => !test data.value := by
  exact sweep_drop (fun data : Shared T => test data.value) elements

namespace State

/-- Running and finished calls together amount to the calls one by one. -/
structure Linear
    (state : State Tid T)
    (order : List NodeId) :
    Prop where
  elements :
    (flush (state.layout order)).elements =
      (serial state.started).elements
  reports :
    ((flush (state.layout order)).reports ++ state.finished).Perm
      (serial state.started).reports

variable {state next : State Tid T}
variable {order order' : List NodeId}
variable {tid : Tid}

namespace Linear

/-- A step that keeps the outcome of the layout keeps the order of calls. -/
theorem of_flush
    (linear : state.Linear order)
    (started : next.started = state.started)
    (finished : next.finished = state.finished)
    (same :
      flush (next.layout order') = flush (state.layout order)) :
    next.Linear order' := by
  constructor
  · rw [same, started]
    exact linear.elements
  · rw [same, started, finished]
    exact linear.reports

variable [DecidableEq Tid]

attribute [local simp] goto setNode setOwner number note record allocate

/-- A call that takes the head lock is the last one in the order. -/
theorem start
    (chain : state.Chain order)
    (linear : state.Linear order)
    {call : Call T (Shared T)}
    {pc : Pc T}
    (progress :
      state.Progress tid order order
        (((state.number tid call).setOwner head (some tid)).goto tid pc))
    (free : state.owner head = none)
    (unheld : (state.pc tid).holds = [])
    (holds : pc.holds = [head])
    (before : pc.before = none)
    (after : pc.after = some head)
    (pass : pc.pass state.heap [] = call.pass) :
    (((state.number tid call).setOwner head (some tid)).goto tid
      pc).Linear order := by
  have joined :=
    chain.layout_start progress free unheld holds before after pass
  have serialStep :
      serial (state.started ++ [call]) =
        (Item.cursor state.started.length call.pass).settle
          (serial state.started) := by
    simp only [serial, List.map_append, List.map_cons, List.map_nil,
      inTurn_append, List.length_map]
  constructor
  · rw [joined]
    simp only [goto, setOwner, number, serialStep, flush, settle_cons,
      Item.settle]
    rw [← linear.elements]
    rfl
  · rw [joined]
    simp only [goto, setOwner, number, serialStep, flush, settle_cons,
      Item.settle, List.cons_append]
    rw [← linear.elements]
    exact linear.reports.cons _

/-- A call that returns hands in its report. -/
theorem leave
    {behind ahead : List NodeId}
    {id : NodeId}
    {found : Option (Shared T)}
    (chain : state.Chain (behind ++ id :: ahead))
    (linear : state.Linear (behind ++ id :: ahead))
    (located : (state.pc tid).returns = some (id, found)) :
    (((state.record tid found).setOwner id none).goto tid
      .idle).Linear (behind ++ id :: ahead) := by
  obtain ⟨nearer, farther, before, after⟩ :=
    chain.layout_leave located
  obtain ⟨sameElements, sameReports⟩ :=
    flush_leave nearer farther (state.ticket tid)
      ⟨state.visited tid, found⟩
  rw [← before, ← after] at sameElements sameReports
  refine ⟨sameElements.symm.trans linear.elements, ?_⟩
  refine List.Perm.trans ?_ linear.reports
  refine List.Perm.trans ?_ (sameReports.symm.append_right _)
  simp only [goto, setOwner, record, ← List.append_assoc]
  exact List.perm_append_singleton _ _

/-- Every step that neither begins nor ends a call keeps the outcome. -/
theorem step
    (chain : state.Chain order)
    (linear : state.Linear order)
    (progress : state.Progress tid order order' next) :
    next.Linear order' := by
  have moves := chain.moves progress
  have station := chain.station tid
  have station' := (chain.step progress).station tid
  have outside :
      ∀ {id : NodeId},
        (state.pc tid).spare = some id →
        ∀ other, other ∈ order → other ≠ id := by
    rintro id isSpare other member rfl
    exact (station.spare other isSpare).1 member
  cases progress with
  | newNode located =>
      refine linear.of_flush rfl rfl
        (chain.flush_update moves rfl ?_ ?_ rfl ?_ ?_)
      · simp [newNode, located, Pc.before]
      · simp [newNode, located, Pc.after]
      · simp [newNode, pass, located, Pc.pass]
      · intro id member
        have different : id ≠ state.fresh := by
          rintro rfl
          obtain ⟨node, stored, _⟩ := chain.stored _ member
          simp [chain.unused] at stored
        simp [newNode, element, different]
  | startPush located free =>
      exact linear.start chain (.startPush located free) free
        (by rw [located]; rfl) rfl rfl rfl rfl
  | startWalk located free =>
      exact linear.start chain (.startWalk located free) free
        (by rw [located]; rfl) rfl rfl rfl rfl
  | take located stored =>
      refine linear.of_flush rfl rfl
        (chain.flush_update moves rfl ?_ ?_ rfl ?_ ?_)
      · simp [located, Pc.before]
      · simp [located, Pc.after]
      · simp [pass, located, Pc.pass]
      · intro id _
        exact element_setNode stored id
  | link located =>
      refine linear.of_flush rfl rfl
        (chain.flush_update moves rfl ?_ ?_ rfl ?_ ?_)
      · simp [located, Pc.before]
      · simp [located, Pc.after]
      · simp [pass, located, Pc.pass]
      · intro id member
        exact element_outside
          (outside (by rw [located]; rfl) id member)
  | reachNext located =>
      refine linear.of_flush rfl rfl
        (chain.flush_update moves rfl ?_ ?_ rfl ?_ fun _ _ => rfl)
      · simp [located, Pc.before]
      · simp [located, Pc.after]
      · simp [pass, located, Pc.pass]
  | copyFound located stored =>
      refine linear.of_flush rfl rfl
        (chain.flush_update moves rfl ?_ ?_ rfl ?_ fun _ _ => rfl)
      · simp [located, Pc.before]
      · simp [located, Pc.after]
      · simp [pass, located, Pc.pass, stored]
  | detach located stored =>
      refine linear.of_flush rfl rfl
        (chain.flush_update moves rfl ?_ ?_ rfl ?_ ?_)
      · simp [located, Pc.before]
      · simp [located, Pc.after]
      · simp [pass, located, Pc.pass]
      · intro id _
        exact element_setNode stored id
  | bypass located stored =>
      refine linear.of_flush rfl rfl
        (chain.flush_update moves rfl ?_ ?_ rfl ?_ ?_)
      · simp [located, Pc.before]
      · simp [located, Pc.after]
      · simp [pass, located, Pc.pass]
      · intro id _
        exact element_setNode stored id
  | relink located stored =>
      refine linear.of_flush rfl rfl
        (chain.flush_update moves rfl ?_ ?_ rfl ?_ ?_)
      · simp [located, Pc.before]
      · simp [located, Pc.after]
      · simp [pass, located, Pc.pass]
      · intro id _
        exact element_setNode stored id
  | destroy located =>
      refine linear.of_flush rfl rfl
        (chain.flush_update moves rfl ?_ ?_ rfl ?_ ?_)
      · simp [located, Pc.before]
      · simp [located, Pc.after]
      · simp [pass, located, Pc.pass, Walk.judge]
      · intro id member
        exact element_outside
          (outside (by rw [located]; rfl) id member)
  | store located stored =>
      exact linear.of_flush rfl rfl (chain.flush_store located stored)
  | leave located =>
      exact linear.leave chain located
  | reachEnd located =>
      exact linear.of_flush rfl rfl (chain.flush_reachEnd located)
  | lockNext located free =>
      exact linear.of_flush rfl rfl (chain.flush_lockNext located free)
  | unlockCurrent located =>
      exact linear.of_flush rfl rfl (chain.flush_unlockCurrent located)
  | visitOn located stored verdict =>
      exact linear.of_flush rfl rfl
        (chain.flush_visitOn located stored verdict)
  | visitStop located stored verdict =>
      exact linear.of_flush rfl rfl
        (chain.flush_visitStop located stored verdict)
  | judgeKeep located stored verdict =>
      exact linear.of_flush rfl rfl
        (chain.flush_judgeKeep located stored verdict)
  | judgeDrop located stored verdict =>
      exact linear.of_flush rfl rfl
        (chain.flush_judgeDrop located stored verdict)
  | unlockRemoved located =>
      exact linear.of_flush rfl rfl (chain.flush_unlockRemoved located)
  | stepOver located =>
      exact linear.of_flush rfl rfl (chain.flush_stepOver located)

/-- A call that begins does not take part yet. -/
theorem call
    (chain : state.Chain order)
    (linear : state.Linear order)
    (located : state.pc tid = .idle)
    (begun : Call T T) :
    (state.goto tid (enter begun)).Linear order := by
  refine linear.of_flush rfl rfl
    (chain.flush_update (.goto _) rfl ?_ ?_ rfl ?_ fun _ _ => rfl)
  · cases begun <;> simp [located, enter, Pc.before]
  · cases begun <;> simp [located, enter, Pc.after]
  · cases begun <;> simp [pass, located, enter, Pc.pass]

omit [DecidableEq Tid] in
/-- Nothing has been called on a new list. -/
theorem of_fresh
    (fresh : state.Fresh) :
    state.Linear [head] := by
  have empty : state.layout [head] = [] := by
    have heap := fresh.heap
    simp [layout, piece_of_free (fresh.owner head), element, heap]
  constructor
  · rw [empty, fresh.started]
    rfl
  · rw [empty, fresh.started, fresh.finished]
    exact .refl _

end Linear

/-- The nodes have an order in which the calls are linearized. -/
def Linearized (state : State Tid T) : Prop :=
  ∃ order, state.Chain order ∧ state.Linear order

/-- Every reachable state is linearized. -/
theorem linearized
    [DecidableEq Tid]
    {state : State Tid T}
    (reachable : machine.Reachable state) :
    state.Linearized := by
  apply reachable.invariant
  · intro state fresh
    exact ⟨[head], .of_fresh fresh, .of_fresh fresh⟩
  · intro state next action ⟨order, chain, linear⟩ _ stepped
    rcases chain.step_cases stepped with
      ⟨tid, begun, rfl, located, rfl⟩ | ⟨tid, order', rfl, progress⟩
    · exact ⟨order, chain.call located begun,
        linear.call chain located begun⟩
    · exact ⟨order', chain.step progress, linear.step chain progress⟩

/-- Linked nodes with data spell the elements of their layout. -/
theorem exists_spells
    {part : List NodeId}
    (linked : Linked state.nextOf part)
    (stored :
      ∀ id,
        id ∈ part →
        ∃ data link, state.heap id = some ⟨some data, link⟩) :
    ∃ elements,
      Spells state.heap part.head? elements ∧
        part.flatMap state.element = elements.map Item.kept := by
  induction part with
  | nil =>
      exact ⟨[], rfl, rfl⟩
  | cons id rest inductionHypothesis =>
      obtain ⟨data, link, isStored⟩ := stored id (by simp)
      obtain ⟨leads, linkedRest⟩ := linked
      obtain ⟨elements, spells, same⟩ :=
        inductionHypothesis linkedRest
          (fun other member =>
            stored other (List.mem_cons_of_mem _ member))
      simp only [nextOf, isStored, Option.bind_some] at leads
      subst leads
      refine ⟨data :: elements, ⟨id, rest.head?, rfl, isStored, spells⟩, ?_⟩
      rw [List.flatMap_cons, same]
      simp [element, isStored]

/-- With no call running the list holds what its layout amounts to. -/
theorem Chain.contains
    (chain : state.Chain order)
    (quiet : state.Quiet) :
    state.Contains (flush (state.layout order)).elements ∧
      (flush (state.layout order)).reports = [] := by
  have free : ∀ id, state.owner id = none := by
    intro id
    cases owned : state.owner id with
    | none =>
        rfl
    | some tid =>
        have held := ((chain.station tid).held id).1 owned
        simp [quiet tid, Pc.holds] at held
  have linked : Linked state.nextOf order :=
    chain.linked.congr fun id _ => (successor_of_free (free id)).symm
  obtain ⟨link, headStored⟩ := chain.head_stored
  obtain ⟨tail, rfl⟩ := List.head?_eq_some_iff.1 chain.first
  have notHead := (List.nodup_cons.1 chain.nodup).1
  obtain ⟨elements, spells, same⟩ :=
    exists_spells linked.2 (fun id member =>
      chain.data_stored (List.mem_cons_of_mem _ member)
        (fun isHead => notHead (isHead ▸ member)))
  have leads := linked.1
  simp only [nextOf, headStored, Option.bind_some] at leads
  have asElements :
      state.layout (head :: tail) = elements.map Item.kept := by
    rw [← same]
    have samePiece : state.piece = state.element :=
      funext fun id => piece_of_free (free id)
    simp only [layout, List.flatMap_cons, samePiece]
    simp [element, headStored]
  rw [asElements, flush_kept]
  exact ⟨⟨⟨none, link⟩, headStored, leads ▸ spells⟩, rfl⟩

/-- A linearized state with no call running has the outcome of its order. -/
theorem Linearized.settled
    (linearized : state.Linearized)
    (quiet : state.Quiet) :
    state.Contains (serial state.started).elements ∧
      state.finished.Perm (serial state.started).reports := by
  obtain ⟨order, chain, linear⟩ := linearized
  obtain ⟨contains, noReports⟩ := chain.contains quiet
  refine ⟨linear.elements ▸ contains, ?_⟩
  have reports := linear.reports
  rw [noReports, List.nil_append] at reports
  exact reports

end State

/--
When all calls have finished, the list contains what the calls leave that run
one after another in the order in which they first locked `head.m`, and every
call was given the elements and has returned the result of that run.
-/
theorem linearizable
    [DecidableEq Tid]
    {state : State Tid T}
    (reachable : machine.Reachable state)
    (quiet : state.Quiet) :
    state.Contains (serial state.started).elements ∧
      state.finished.Perm (serial state.started).reports :=
  (State.linearized reachable).settled quiet

/-- Nodes spell at most one list of elements. -/
theorem Spells.unique
    {heap : NodeId → Option (Node T)}
    {pointer : Option NodeId}
    {first second : List (Shared T)}
    (spellsFirst : Spells heap pointer first)
    (spellsSecond : Spells heap pointer second) :
    first = second := by
  induction first generalizing pointer second with
  | nil =>
      cases second with
      | nil =>
          rfl
      | cons data rest =>
          obtain ⟨id, next, isSome, _⟩ := spellsSecond
          rw [spellsFirst] at isSome
          cases isSome
  | cons data rest inductionHypothesis =>
      obtain ⟨id, next, rfl, stored, spellsRest⟩ := spellsFirst
      cases second with
      | nil =>
          cases spellsSecond
      | cons other others =>
          obtain ⟨_, _, same, storedOther, spellsOthers⟩ := spellsSecond
          obtain rfl := Option.some.inj same
          rw [stored] at storedOther
          obtain ⟨rfl, rfl⟩ :
              data = other ∧ next = _ := by
            simpa using storedOther
          rw [inductionHypothesis spellsRest spellsOthers]

/--
Two runs in which the calls first lock the head in the same order, one of them
perhaps with the calls one after another, end with the same list and the same
results.
-/
theorem same_outcome_of_same_order
    {Other : Type}
    [DecidableEq Tid]
    [DecidableEq Other]
    {state : State Tid T}
    {other : State Other T}
    (reachable : machine.Reachable state)
    (quiet : state.Quiet)
    (otherReachable : machine.Reachable other)
    (otherQuiet : other.Quiet)
    (sameOrder : state.started = other.started) :
    (∀ elements, state.Contains elements ↔ other.Contains elements) ∧
      state.finished.Perm other.finished := by
  have unique :
      ∀ {Some : Type} {any : State Some T} {first second},
        any.Contains first →
        any.Contains second →
        first = second := by
    rintro Some any first second ⟨node, stored, spells⟩ ⟨_, stored', spells'⟩
    obtain rfl := Option.some.inj (stored.symm.trans stored')
    exact spells.unique spells'
  obtain ⟨contains, reports⟩ :=
    (State.linearized reachable).settled quiet
  obtain ⟨contains', reports'⟩ :=
    (State.linearized otherReachable).settled otherQuiet
  rw [← sameOrder] at contains' reports'
  refine ⟨?_, reports.trans reports'.symm⟩
  intro elements
  constructor
  · intro holds
    exact unique contains holds ▸ contains'
  · intro holds
    exact unique contains' holds ▸ contains

/-- A thread that is not in a call, as a test. -/
def Pc.isIdle :
    Pc T → Bool
  | .idle =>
      true
  | _ =>
      false

/-- The test tells idle threads. -/
theorem Pc.isIdle_iff
    {pc : Pc T} :
    pc.isIdle = true ↔ pc = .idle := by
  cases pc <;> simp [Pc.isIdle]

/--
An element is put into the list; one thread walks over it with `for_each` and
another follows with `remove_if` before the first has finished.
-/
theorem linearizable_overlapping :
    ∃ state : State Bool Nat,
      machine.Reachable state ∧
        state.finished.length = 3 ∧
          state.Contains (serial state.started).elements ∧
            state.finished.Perm (serial state.started).reports := by
  obtain ⟨state, reachable, done⟩ :=
    Machine.exists_reachable machine
      (State.create : State Bool Nat)
      (.call false (.pushFront 5) :: List.replicate 6 (.run false) ++
        .call false (.walk (.visit (.forEach (· + 1)))) ::
        List.replicate 4 (.run false) ++
        .call true (.walk (.removeIf fun value => (value == 6, value))) ::
        List.replicate 2 (.run true) ++
        List.replicate 3 (.run false) ++
        List.replicate 9 (.run true))
      (fun state =>
        (state.pc false).isIdle && (state.pc true).isIdle &&
          decide (state.finished.length = 3))
      State.fresh_create
      (by decide)
  simp only [Bool.and_eq_true, Pc.isIdle_iff, decide_eq_true_eq] at done
  obtain ⟨⟨firstIdle, secondIdle⟩, three⟩ := done
  have quiet : state.Quiet := by
    intro tid
    cases tid with
    | false =>
        exact firstIdle
    | true =>
        exact secondIdle
  obtain ⟨contains, results⟩ := linearizable reachable quiet
  exact ⟨state, reachable, three, contains, results⟩

end WkcRuntime.ListR
