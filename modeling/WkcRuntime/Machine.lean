namespace WkcRuntime

/-!
# Machines driven by scheduled actions

A machine is a set of initial states and a partial step function.  Every choice
the environment makes (which thread moves, which sleeper a signal wakes, what a
system call answers) is part of the action, so a step is a computation and one
finite run is a list of actions.  `none` means that the action is not enabled.

`ReachableWhere` restricts the actions a run may take by a condition on the
state before the step.  It carries the only induction over runs in this
development: an invariant is checked on the initial states and on one permitted
step.
-/

/-- Initial states and one partial step function. -/
structure Machine (State Action : Type) where
  Initial : State → Prop
  step? : State → Action → Option State

namespace Machine

variable {State Action : Type}

/-- Execute a finite schedule, stopping at the first disabled action. -/
def run?
    (machine : Machine State Action) :
    State → List Action → Option State
  | state, [] =>
      some state
  | state, action :: rest =>
      match machine.step? state action with
      | none =>
          none
      | some next =>
          machine.run? next rest

/-- States reached by runs whose every step meets a condition beforehand. -/
inductive ReachableWhere
    (machine : Machine State Action)
    (Permits : State → Action → Prop) :
    State → Prop where
  | initial {state : State} :
      machine.Initial state →
      ReachableWhere machine Permits state
  | step {state next : State} {action : Action} :
      ReachableWhere machine Permits state →
      Permits state action →
      machine.step? state action = some next →
      ReachableWhere machine Permits next

/-- States reached by any run at all. -/
def Reachable
    (machine : Machine State Action)
    (state : State) : Prop :=
  machine.ReachableWhere (fun _ _ => True) state

/-- The conditions that a schedule meets, step by step, from one state. -/
def Respects
    (machine : Machine State Action)
    (Permits : State → Action → Prop) :
    State → List Action → Prop
  | _, [] =>
      True
  | state, action :: rest =>
      Permits state action ∧
        ∀ next,
          machine.step? state action = some next →
          machine.Respects Permits next rest

/-- The number of steps of a schedule that a predicate picks out. -/
def countSteps
    (machine : Machine State Action)
    (picks : State → Action → Bool) :
    State → List Action → Nat
  | _, [] =>
      0
  | state, action :: rest =>
      (picks state action).toNat +
        match machine.step? state action with
        | none => 0
        | some next => machine.countSteps picks next rest

/-- Repeat an action until the state is settled, at most so many times. -/
def settle
    (machine : Machine State Action)
    (Settled : State → Prop)
    [DecidablePred Settled]
    (action : Action) :
    Nat → State → State
  | 0, state =>
      state
  | fuel + 1, state =>
      if Settled state then
        state
      else
        match machine.step? state action with
        | none =>
            state
        | some next =>
            machine.settle Settled action fuel next

/-- A one-action schedule is one step. -/
@[simp] theorem run?_singleton
    (machine : Machine State Action)
    (state : State)
    (action : Action) :
    machine.run? state [action] = machine.step? state action := by
  simp only [run?]
  cases machine.step? state action <;> rfl

/-- A schedule goes on from where its first step leads. -/
theorem run?_cons
    {machine : Machine State Action}
    {state next : State}
    {action : Action}
    (stepped : machine.step? state action = some next)
    (rest : List Action) :
    machine.run? state (action :: rest) = machine.run? next rest := by
  simp only [run?, stepped]

/-- A schedule in two parts is one part after the other. -/
theorem run?_append
    (machine : Machine State Action)
    (state : State)
    (first rest : List Action) :
    machine.run? state (first ++ rest) =
      (machine.run? state first).bind (machine.run? · rest) := by
  induction first generalizing state with
  | nil =>
      rfl
  | cons action first inductionHypothesis =>
      simp only [List.cons_append, run?]
      cases machine.step? state action with
      | none => rfl
      | some next => exact inductionHypothesis next

/-- A property that every step keeps holds at the end of every schedule. -/
theorem run?_invariant
    {machine : Machine State Action}
    {Invariant : State → Prop}
    (preserved :
      ∀ {state next action},
        Invariant state →
        machine.step? state action = some next →
        Invariant next)
    {state final : State}
    {actions : List Action}
    (holds : Invariant state)
    (accepted : machine.run? state actions = some final) :
    Invariant final := by
  induction actions generalizing state with
  | nil =>
      simp only [run?, Option.some.injEq] at accepted
      subst final
      exact holds
  | cons action rest inductionHypothesis =>
      cases stepped : machine.step? state action with
      | none =>
          simp [run?, stepped] at accepted
      | some next =>
          simp only [run?, stepped] at accepted
          exact inductionHypothesis (preserved holds stepped) accepted

/--
A measure that every picked step raises by one, and every other step keeps,
counts the picked steps of every schedule.
-/
theorem run?_measure
    {machine : Machine State Action}
    {Invariant : State → Prop}
    {picks : State → Action → Bool}
    {measure : State → Int}
    (preserved :
      ∀ {state next action},
        Invariant state →
        machine.step? state action = some next →
        Invariant next)
    (measured :
      ∀ {state next action},
        Invariant state →
        machine.step? state action = some next →
        measure next = measure state + (picks state action).toNat)
    {state final : State}
    {actions : List Action}
    (holds : Invariant state)
    (accepted : machine.run? state actions = some final) :
    measure final =
      measure state + machine.countSteps picks state actions := by
  induction actions generalizing state with
  | nil =>
      simp only [run?, Option.some.injEq] at accepted
      subst final
      simp [countSteps]
  | cons action rest inductionHypothesis =>
      cases stepped : machine.step? state action with
      | none =>
          simp [run?, stepped] at accepted
      | some next =>
          simp only [run?, stepped] at accepted
          have later :=
            inductionHypothesis (preserved holds stepped) accepted
          rw [measured holds stepped] at later
          simp only [countSteps, stepped]
          omega

/-- A rank that every step lowers bounds the length of every schedule. -/
theorem run?_length_le
    {machine : Machine State Action}
    {Invariant : State → Prop}
    {Allows : Action → Prop}
    {rank : State → Nat}
    (lowers :
      ∀ {state next action},
        Invariant state →
        Allows action →
        machine.step? state action = some next →
        Invariant next ∧ rank next < rank state)
    {state final : State}
    {actions : List Action}
    (holds : Invariant state)
    (allowed : ∀ action ∈ actions, Allows action)
    (accepted : machine.run? state actions = some final) :
    Invariant final ∧ rank final + actions.length ≤ rank state := by
  induction actions generalizing state with
  | nil =>
      simp only [run?, Option.some.injEq] at accepted
      subst final
      exact ⟨holds, Nat.le_refl _⟩
  | cons action rest inductionHypothesis =>
      cases stepped : machine.step? state action with
      | none =>
          simp [run?, stepped] at accepted
      | some next =>
          simp only [run?, stepped] at accepted
          obtain ⟨nextHolds, lower⟩ :=
            lowers holds (allowed action List.mem_cons_self) stepped
          obtain ⟨finalHolds, bound⟩ :=
            inductionHypothesis nextHolds
              (fun other member =>
                allowed other (List.mem_cons_of_mem _ member))
              accepted
          refine ⟨finalHolds, ?_⟩
          rw [List.length_cons]
          omega

/-- What every repetition keeps holds when the state has settled. -/
theorem settle_invariant
    {machine : Machine State Action}
    {Settled : State → Prop}
    [DecidablePred Settled]
    {action : Action}
    {Invariant : State → Prop}
    (preserved :
      ∀ {state next},
        Invariant state →
        machine.step? state action = some next →
        Invariant next)
    {state : State}
    {fuel : Nat}
    (holds : Invariant state) :
    Invariant (machine.settle Settled action fuel state) := by
  induction fuel generalizing state with
  | zero =>
      exact holds
  | succ fuel inductionHypothesis =>
      rw [settle]
      split
      · exact holds
      · cases stepped : machine.step? state action with
        | none =>
            exact holds
        | some next =>
            exact inductionHypothesis (preserved holds stepped)

/-- A measure that every repetition lowers bounds the repetitions. -/
theorem settle_settled
    {machine : Machine State Action}
    {Settled : State → Prop}
    [DecidablePred Settled]
    {action : Action}
    {Invariant : State → Prop}
    {measure : State → Nat}
    (lowers :
      ∀ {state},
        Invariant state →
        ¬ Settled state →
        ∃ next,
          machine.step? state action = some next ∧
            Invariant next ∧
            measure next < measure state)
    {state : State}
    {fuel : Nat}
    (holds : Invariant state)
    (enough : measure state ≤ fuel) :
    Settled (machine.settle Settled action fuel state) := by
  induction fuel generalizing state with
  | zero =>
      apply Classical.byContradiction
      intro unsettled
      obtain ⟨next, _, _, lower⟩ := lowers holds unsettled
      omega
  | succ fuel inductionHypothesis =>
      rw [settle]
      split
      · next settled =>
          exact settled
      · next unsettled =>
          obtain ⟨next, stepped, kept, lower⟩ := lowers holds unsettled
          simp only [stepped]
          exact inductionHypothesis kept (by omega)

/-- A decidable condition can be checked along a schedule. -/
instance decidableRespects
    (machine : Machine State Action)
    (Permits : State → Action → Prop)
    [∀ state action, Decidable (Permits state action)] :
    ∀ state actions,
      Decidable (machine.Respects Permits state actions)
  | _, [] =>
      .isTrue trivial
  | state, action :: rest =>
      match stepped : machine.step? state action with
      | none =>
          decidable_of_iff (Permits state action)
            ⟨fun permitted =>
              ⟨permitted, fun next accepted => by
                simp [stepped] at accepted⟩,
              And.left⟩
      | some next =>
          have := machine.decidableRespects Permits next rest
          decidable_of_iff
            (Permits state action ∧ machine.Respects Permits next rest)
            ⟨fun ⟨permitted, later⟩ =>
              ⟨permitted, fun other accepted => by
                rw [stepped, Option.some.injEq] at accepted
                exact accepted ▸ later⟩,
              fun ⟨permitted, later⟩ =>
                ⟨permitted, later next stepped⟩⟩

namespace ReachableWhere

variable {machine : Machine State Action}
variable {Permits : State → Action → Prop}

/-- A property kept by every permitted step holds in every state reached. -/
theorem invariant
    {Invariant : State → Prop}
    (initially :
      ∀ {state},
        machine.Initial state →
        Invariant state)
    (preserved :
      ∀ {state next action},
        Invariant state →
        Permits state action →
        machine.step? state action = some next →
        Invariant next)
    {state : State}
    (reachable : machine.ReachableWhere Permits state) :
    Invariant state := by
  induction reachable with
  | initial start =>
      exact initially start
  | step _ permitted stepped inductionHypothesis =>
      exact preserved inductionHypothesis permitted stepped

/-- Runs that meet a condition are runs that meet every weaker one. -/
theorem mono
    {Allows : State → Action → Prop}
    (weaker :
      ∀ {state action},
        Permits state action →
        Allows state action)
    {state : State}
    (reachable : machine.ReachableWhere Permits state) :
    machine.ReachableWhere Allows state := by
  induction reachable with
  | initial start =>
      exact .initial start
  | step _ permitted stepped inductionHypothesis =>
      exact .step inductionHypothesis (weaker permitted) stepped

/-- A respecting schedule extends a reachable state to a reachable state. -/
theorem run
    {state final : State}
    {actions : List Action}
    (reachable : machine.ReachableWhere Permits state)
    (respects : machine.Respects Permits state actions)
    (accepted : machine.run? state actions = some final) :
    machine.ReachableWhere Permits final := by
  induction actions generalizing state with
  | nil =>
      simp only [run?, Option.some.injEq] at accepted
      subst final
      exact reachable
  | cons action rest inductionHypothesis =>
      obtain ⟨permitted, restRespects⟩ := respects
      cases stepped : machine.step? state action with
      | none =>
          simp [run?, stepped] at accepted
      | some next =>
          simp only [run?, stepped] at accepted
          exact inductionHypothesis
            (.step reachable permitted stepped)
            (restRespects next stepped)
            accepted

/--
A concrete schedule of permitted actions whose final state passes a check shows
that a state with the checked property is reachable.
-/
theorem exists_of_run
    (machine : Machine State Action)
    (Permits : State → Action → Prop)
    (start : State)
    (actions : List Action)
    (check : State → Bool)
    (initial : machine.Initial start)
    (respects : machine.Respects Permits start actions)
    (accepted :
      (machine.run? start actions).map check = some true) :
    ∃ final,
      machine.ReachableWhere Permits final ∧
        check final = true := by
  cases outcome : machine.run? start actions with
  | none =>
      simp [outcome] at accepted
  | some final =>
      have checked : check final = true := by
        simpa [outcome] using accepted
      exact ⟨final,
        (ReachableWhere.initial initial).run respects outcome,
        checked⟩

end ReachableWhere

/-- A condition on actions alone is respected from every state. -/
theorem respects_of_forall
    (machine : Machine State Action)
    {Allows : Action → Prop}
    {actions : List Action}
    (allowed :
      ∀ action,
        action ∈ actions →
        Allows action)
    (state : State) :
    machine.Respects (fun _ action => Allows action) state actions := by
  induction actions generalizing state with
  | nil =>
      trivial
  | cons action rest inductionHypothesis =>
      refine ⟨allowed action (by simp), ?_⟩
      intro next _
      exact inductionHypothesis
        (fun later member =>
          allowed later (by simp [member]))
        next

/-- The same for a schedule of any actions. -/
theorem exists_reachable
    (machine : Machine State Action)
    (start : State)
    (actions : List Action)
    (check : State → Bool)
    (initial : machine.Initial start)
    (accepted :
      (machine.run? start actions).map check = some true) :
    ∃ final, machine.Reachable final ∧ check final = true :=
  ReachableWhere.exists_of_run machine (fun _ _ => True) start actions
    check initial
    (machine.respects_of_forall (fun _ _ => trivial) start) accepted

/-- Every schedule extends a reachable state to a reachable state. -/
theorem Reachable.run
    {machine : Machine State Action}
    {state final : State}
    {actions : List Action}
    (reachable : machine.Reachable state)
    (accepted : machine.run? state actions = some final) :
    machine.Reachable final :=
  ReachableWhere.run reachable
    (machine.respects_of_forall (fun _ _ => trivial) state) accepted

/-- A schedule that respects a condition respects every weaker one. -/
theorem Respects.mono
    {machine : Machine State Action}
    {Permits Allows : State → Action → Prop}
    (weaker :
      ∀ {state action},
        Permits state action →
        Allows state action)
    {state : State}
    {actions : List Action}
    (respects : machine.Respects Permits state actions) :
    machine.Respects Allows state actions := by
  induction actions generalizing state with
  | nil =>
      trivial
  | cons action rest inductionHypothesis =>
      refine ⟨weaker respects.1, ?_⟩
      intro next stepped
      exact inductionHypothesis (respects.2 next stepped)

/-- What the steps of a schedule emit, one after another. -/
def trace
    {Event : Type}
    (machine : Machine State Action)
    (emits : State → Action → List Event) :
    State → List Action → List Event
  | _, [] =>
      []
  | state, action :: rest =>
      emits state action ++
        match machine.step? state action with
        | none =>
            []
        | some next =>
            machine.trace emits next rest

/-- Mapping what is emitted. -/
theorem map_trace
    {Event Item : Type}
    (machine : Machine State Action)
    (read : Event → Item)
    (emits : State → Action → List Event)
    (state : State)
    (actions : List Action) :
    (machine.trace emits state actions).map read =
      machine.trace (fun state action => (emits state action).map read)
        state actions := by
  induction actions generalizing state with
  | nil =>
      rfl
  | cons action rest inductionHypothesis =>
      simp only [trace, List.map_append]
      cases machine.step? state action with
      | none =>
          rfl
      | some next =>
          rw [inductionHypothesis next]

/-- Keeping some of what is emitted. -/
theorem filter_trace
    {Event : Type}
    (machine : Machine State Action)
    (keeps : Event → Bool)
    (emits : State → Action → List Event)
    (state : State)
    (actions : List Action) :
    (machine.trace emits state actions).filter keeps =
      machine.trace (fun state action => (emits state action).filter keeps)
        state actions := by
  induction actions generalizing state with
  | nil =>
      rfl
  | cons action rest inductionHypothesis =>
      simp only [trace, List.filter_append]
      cases machine.step? state action with
      | none =>
          rfl
      | some next =>
          rw [inductionHypothesis next]

/--
Where every step takes items off the front of a stock and puts others behind
it, what a schedule takes out and leaves is what was there and what it puts in.
-/
theorem run?_stock
    {Item : Type}
    {machine : Machine State Action}
    {Invariant : State → Prop}
    {stock : State → List Item}
    {puts takes : State → Action → List Item}
    (preserved :
      ∀ {state next action},
        Invariant state →
        machine.step? state action = some next →
        Invariant next)
    (balanced :
      ∀ {state next action},
        Invariant state →
        machine.step? state action = some next →
        takes state action ++ stock next =
          stock state ++ puts state action)
    {state final : State}
    {actions : List Action}
    (holds : Invariant state)
    (accepted : machine.run? state actions = some final) :
    machine.trace takes state actions ++ stock final =
      stock state ++ machine.trace puts state actions := by
  induction actions generalizing state with
  | nil =>
      simp only [run?, Option.some.injEq] at accepted
      subst final
      simp only [trace, List.nil_append, List.append_nil]
  | cons action rest inductionHypothesis =>
      cases stepped : machine.step? state action with
      | none =>
          simp [run?, stepped] at accepted
      | some next =>
          simp only [run?, stepped] at accepted
          have later :=
            inductionHypothesis (preserved holds stepped) accepted
          simp only [trace, stepped]
          rw [List.append_assoc, later, ← List.append_assoc,
            balanced holds stepped, List.append_assoc]

/--
Where every picked step costs one and only what a step puts in pays for it, a
schedule has no more picked steps than it starts with and puts in.
-/
theorem run?_budget
    {Item : Type}
    {machine : Machine State Action}
    {Invariant : State → Prop}
    {Allows : Action → Prop}
    {picks : Action → Bool}
    {budget : State → Nat}
    {puts : State → Action → List Item}
    (pays :
      ∀ {state next action},
        Invariant state →
        Allows action →
        machine.step? state action = some next →
        Invariant next ∧
          budget next + (picks action).toNat ≤
            budget state + (puts state action).length)
    {state final : State}
    {actions : List Action}
    (holds : Invariant state)
    (allowed : ∀ action ∈ actions, Allows action)
    (accepted : machine.run? state actions = some final) :
    Invariant final ∧
      budget final + actions.countP picks ≤
        budget state + (machine.trace puts state actions).length := by
  induction actions generalizing state with
  | nil =>
      simp only [run?, Option.some.injEq] at accepted
      subst final
      exact ⟨holds, Nat.le_refl _⟩
  | cons action rest inductionHypothesis =>
      cases stepped : machine.step? state action with
      | none =>
          simp [run?, stepped] at accepted
      | some next =>
          simp only [run?, stepped] at accepted
          obtain ⟨nextHolds, paid⟩ :=
            pays holds (allowed action List.mem_cons_self) stepped
          obtain ⟨finalHolds, later⟩ :=
            inductionHypothesis nextHolds
              (fun other member =>
                allowed other (List.mem_cons_of_mem _ member))
              accepted
          have counted :
              (action :: rest).countP picks =
                rest.countP picks + (picks action).toNat := by
            rw [List.countP_cons]
            cases picks action <;> rfl
          refine ⟨finalHolds, ?_⟩
          simp only [trace, stepped, List.length_append, counted]
          omega

/-- A respecting schedule keeps what every permitted step keeps. -/
theorem Respects.invariant
    {machine : Machine State Action}
    {Permits : State → Action → Prop}
    {Invariant : State → Prop}
    (preserved :
      ∀ {state next action},
        Invariant state →
        Permits state action →
        machine.step? state action = some next →
        Invariant next)
    {state final : State}
    {actions : List Action}
    (holds : Invariant state)
    (respects : machine.Respects Permits state actions)
    (accepted : machine.run? state actions = some final) :
    Invariant final := by
  induction actions generalizing state with
  | nil =>
      simp only [run?, Option.some.injEq] at accepted
      subst final
      exact holds
  | cons action rest inductionHypothesis =>
      obtain ⟨permitted, restRespects⟩ := respects
      cases stepped : machine.step? state action with
      | none =>
          simp [run?, stepped] at accepted
      | some next =>
          simp only [run?, stepped] at accepted
          exact inductionHypothesis (preserved holds permitted stepped)
            (restRespects next stepped) accepted

/-- A respecting schedule meets the condition at its last action. -/
theorem Respects.last
    {machine : Machine State Action}
    {Permits : State → Action → Prop}
    {state final : State}
    {actions : List Action}
    {action : Action}
    (respects : machine.Respects Permits state (actions ++ [action]))
    (accepted : machine.run? state actions = some final) :
    Permits final action := by
  induction actions generalizing state with
  | nil =>
      simp only [run?, Option.some.injEq] at accepted
      subst final
      exact respects.1
  | cons first rest inductionHypothesis =>
      cases stepped : machine.step? state first with
      | none =>
          simp [run?, stepped] at accepted
      | some next =>
          simp only [run?, stepped] at accepted
          exact inductionHypothesis
            (respects.2 next stepped) accepted

/--
Where every step of one machine is a step of another under a reading of states
and actions, every run is a run of the other.
-/
theorem run?_simulated
    {View Call : Type}
    {machine : Machine State Action}
    {model : Machine View Call}
    {Invariant : State → Prop}
    {view : State → View}
    {erase : Action → Call}
    (preserved :
      ∀ {state next action},
        Invariant state →
        machine.step? state action = some next →
        Invariant next)
    (simulated :
      ∀ {state next action},
        Invariant state →
        machine.step? state action = some next →
        model.step? (view state) (erase action) = some (view next))
    {state final : State}
    {actions : List Action}
    (holds : Invariant state)
    (accepted : machine.run? state actions = some final) :
    model.run? (view state) (actions.map erase) = some (view final) := by
  induction actions generalizing state with
  | nil =>
      simp only [run?, Option.some.injEq] at accepted
      subst final
      rfl
  | cons action rest inductionHypothesis =>
      cases stepped : machine.step? state action with
      | none =>
          simp [run?, stepped] at accepted
      | some next =>
          simp only [run?, stepped] at accepted
          simp only [List.map_cons, run?, simulated holds stepped]
          exact inductionHypothesis (preserved holds stepped) accepted

/-- Two machines that agree in every reachable state have the same runs. -/
theorem run?_congr
    {machine other : Machine State Action}
    (agree :
      ∀ {state} action,
        machine.Reachable state →
        machine.step? state action = other.step? state action)
    {state : State}
    (reachable : machine.Reachable state)
    (actions : List Action) :
    machine.run? state actions = other.run? state actions := by
  induction actions generalizing state with
  | nil =>
      rfl
  | cons action rest inductionHypothesis =>
      simp only [run?, ← agree action reachable]
      cases stepped : machine.step? state action with
      | none => rfl
      | some next =>
          exact inductionHypothesis (reachable.step trivial stepped)

/--
Two conditions that agree in every reachable state are respected by the same
schedules.
-/
theorem respects_congr
    {machine : Machine State Action}
    {Permits Allows : State → Action → Prop}
    (agree :
      ∀ {state} action,
        machine.Reachable state →
        (Permits state action ↔ Allows state action))
    {state : State}
    (reachable : machine.Reachable state)
    (actions : List Action) :
    machine.Respects Permits state actions ↔
      machine.Respects Allows state actions := by
  induction actions generalizing state with
  | nil =>
      exact Iff.rfl
  | cons action rest inductionHypothesis =>
      simp only [Respects, agree action reachable]
      apply and_congr_right
      intro _
      apply forall_congr'
      intro next
      apply imp_congr_right
      intro stepped
      exact inductionHypothesis (reachable.step trivial stepped)

end Machine

end WkcRuntime
