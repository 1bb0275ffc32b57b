import WkcRuntime.ThreadWorkersSource

namespace WkcRuntime.ThreadWorkers

/-!
# One worker at a time, and none after the end

`m_thread` and the single flag know only the last worker.  A worker that
`StopThread(false)` detached is out of their reach: a `StartThread` before it has
left `ThreadFunction` runs a second worker beside it and takes its stop back,
and the destructor does not wait for it.  Everywhere else the calls keep one
worker at a time, its stop in force, and no worker beyond the object.
-/

/-- A worker that has not left `ThreadFunction` yet. -/
def Inside (state : State) (which : Which) : Prop :=
  ∃ worker, state.worker? which = some worker ∧ worker.inFunction = true

/-- One worker at a time, no stop taken back, no step after the end. -/
structure State.Sound (state : State) : Prop where
  oneWorker :
    ∀ first second,
      Inside state first → Inside state second → first = second
  neverResumed :
    state.resumed = false
  noneAfterEnd :
    state.steppedDead = false

/--
No worker is created while a detached one is still in `ThreadFunction`, and the
destruction does not complete while a detached one still runs.
-/
def SparesDetached (state : State) : Action → Prop
  | .startThread =>
      state.thread = none →
        ∀ worker ∈ state.detached, worker.inFunction = false
  | .owner =>
      state.owner = .complete →
        ∀ worker ∈ state.detached, worker.phase = .finished
  | _ =>
      True

instance (state : State) :
    ∀ action, Decidable (SparesDetached state action)
  | .startThread =>
      inferInstanceAs
        (Decidable
          (state.thread = none →
            ∀ worker ∈ state.detached, worker.inFunction = false))
  | .owner =>
      inferInstanceAs
        (Decidable
          (state.owner = .complete →
            ∀ worker ∈ state.detached, worker.phase = .finished))
  | .stopThread _ | .destroy | .worker _ _ =>
      .isTrue trivial

/-- What the owner can rely on where it stands. -/
def OwnerView (state : State) : Prop :=
  match state.owner with
  | .idle =>
      True
  | .create =>
      state.thread = none
  | .setFlag _ _ =>
      state.thread.isSome
  | .join _ | .detach =>
      state.thread.isSome ∧ state.stopRequested = true
  | .complete =>
      state.thread = none
  | .dead =>
      state.thread = none ∧
        ∀ worker ∈ state.detached, worker.phase = .finished

/-- The last worker is alone, and a stop that concerns a worker is in force. -/
structure Orderly (state : State) : Prop where
  view :
    OwnerView state
  alone :
    state.thread.isSome ∨ state.owner = .create →
      ∀ worker ∈ state.detached, worker.inFunction = false
  single :
    ∀ first second,
      Inside state (.detached first) →
      Inside state (.detached second) →
      first = second
  heard :
    ∀ worker ∈ state.detached,
      worker.inFunction = true → state.stopRequested = true
  kept :
    ∀ worker ∈ state.thread,
      worker.stopped = true → worker.inFunction = true →
        state.stopRequested = true
  neverResumed :
    state.resumed = false
  noneAfterEnd :
    state.steppedDead = false

section Workers

variable {state : State}

/-- A detached worker has a place among the detached ones. -/
theorem exists_inside_detached
    {worker : Worker}
    (member : worker ∈ state.detached)
    (inFunction : worker.inFunction = true) :
    ∃ index, Inside state (.detached index) := by
  obtain ⟨index, isWorker⟩ := List.mem_iff_getElem?.mp member
  exact ⟨index, worker, isWorker, inFunction⟩

@[simp] theorem markStopped_inFunction
    (worker : Worker) :
    worker.markStopped.inFunction = worker.inFunction :=
  rfl

@[simp] theorem markStopped_phase
    (worker : Worker) :
    worker.markStopped.phase = worker.phase :=
  rfl

/-- A step of a worker does not lead back into `ThreadFunction`. -/
theorem inFunction_of_step
    {worker : Worker}
    {stopRequested : Bool}
    {answer : Answer}
    {phase : Phase}
    {raised : Bool}
    (stepped : worker.step? stopRequested answer = some (phase, raised))
    (inFunction : Worker.inFunction { worker with phase } = true) :
    worker.inFunction = true := by
  cases before : worker.phase with
  | entering | testFlag | body | afterLoop =>
      rw [Worker.inFunction, before]
  | leaving =>
      simp only [Worker.step?, before, Option.some.injEq,
        Prod.mk.injEq] at stepped
      obtain ⟨rfl, _⟩ := stepped
      cases inFunction
  | finished =>
      simp [Worker.step?, before] at stepped

/-- A step of a worker does not take a stop back. -/
theorem stopRequested_of_step
    {worker : Worker}
    {stopRequested : Bool}
    {answer : Answer}
    {phase : Phase}
    {raised : Bool}
    (stepped : worker.step? stopRequested answer = some (phase, raised))
    (requested : stopRequested = true) :
    raised = true := by
  unfold Worker.step? at stepped
  split at stepped <;> simp_all

/-- A worker that has not finished can take a step. -/
theorem exists_step
    {worker : Worker}
    (stopRequested : Bool)
    (answer : Answer)
    (running : worker.phase ≠ .finished) :
    ∃ result, worker.step? stopRequested answer = some result := by
  unfold Worker.step?
  split
  · exact ⟨_, rfl⟩
  · split <;> exact ⟨_, rfl⟩
  · exact ⟨_, rfl⟩
  · exact ⟨_, rfl⟩
  · exact ⟨_, rfl⟩
  · rename_i finished
    exact (running finished).elim

/-- What a step of one worker leaves behind. -/
theorem workerStep_of_step
    {which : Which}
    {worker : Worker}
    {answer : Answer}
    {phase : Phase}
    {raised : Bool}
    (isWorker : state.worker? which = some worker)
    (stepped :
      worker.step? state.stopRequested answer = some (phase, raised)) :
    state.workerStep? which answer =
      some { state.setWorker which { worker with phase } with
        stopRequested := raised
        resumed := state.resumed || worker.resumes state.stopRequested
        steppedDead :=
          state.steppedDead || decide (state.owner = .dead) } := by
  simp only [State.workerStep?, isWorker, stepped]

end Workers

/-- A new object has no workers. -/
theorem orderly_threadObj : Orderly threadObj where
  view := trivial
  alone := fun _ _ member => by cases member
  single := by
    rintro first second ⟨worker, isWorker, _⟩
    cases isWorker
  heard := fun _ member => by cases member
  kept := fun _ member => by cases member
  neverResumed := rfl
  noneAfterEnd := rfl

/-- An orderly object is sound. -/
theorem Orderly.sound
    {state : State}
    (orderly : Orderly state) :
    state.Sound where
  oneWorker := by
    have apart :
        ∀ index,
          Inside state .thread → Inside state (.detached index) → False := by
      rintro index ⟨worker, isThread, _⟩ ⟨other, isOther, inFunction⟩
      have outside :=
        orderly.alone (.inl (Option.isSome_of_eq_some isThread)) other
          (List.mem_of_getElem? isOther)
      rw [outside] at inFunction
      exact Bool.false_ne_true inFunction
    intro first second firstInside secondInside
    cases first with
    | thread =>
        cases second with
        | thread =>
            rfl
        | detached index =>
            exact (apart index firstInside secondInside).elim
    | detached index =>
        cases second with
        | thread =>
            exact (apart index secondInside firstInside).elim
        | detached other =>
            rw [orderly.single index other firstInside secondInside]
  neverResumed := orderly.neverResumed
  noneAfterEnd := orderly.noneAfterEnd

/-- A call of `StopThread` moves no worker. -/
theorem inside_markStopped
    {state : State}
    {which : Which} :
    Inside state.markStopped which ↔ Inside state which := by
  have marked :
      state.markStopped.worker? which =
        (state.worker? which).map Worker.markStopped := by
    cases which with
    | thread =>
        rfl
    | detached index =>
        exact List.getElem?_map ..
  rw [Inside, Inside, marked]
  cases state.worker? which <;> simp

/-- A step of one worker lets no worker into `ThreadFunction`. -/
theorem inside_of_setWorker
    {state : State}
    {which other : Which}
    {worker moved : Worker}
    (isWorker : state.worker? which = some worker)
    (leaves : moved.inFunction = true → worker.inFunction = true)
    (inside : Inside (state.setWorker which moved) other) :
    Inside state other := by
  by_cases same : other = which
  · subst other
    refine ⟨worker, isWorker, leaves ?_⟩
    obtain ⟨found, isFound, inFunction⟩ := inside
    cases which with
    | thread =>
        cases isFound
        exact inFunction
    | detached index =>
        have below : index < state.detached.length :=
          (List.getElem?_eq_some_iff.mp isWorker).1
        simp only [State.worker?, State.setWorker,
          List.getElem?_set_self below, Option.some.injEq] at isFound
        exact isFound ▸ inFunction
  · obtain ⟨found, isFound, inFunction⟩ := inside
    refine ⟨found, ?_, inFunction⟩
    rw [← isFound]
    cases which <;> cases other <;> first | rfl | skip
    · exact (same rfl).elim
    · rename_i index place
      have different : index ≠ place := by
        rintro rfl
        exact same rfl
      exact (List.getElem?_set_ne different).symm

/-- A step of a worker leaves the owner where it stands. -/
theorem setWorker_owner
    {state : State}
    {which : Which}
    {worker : Worker} :
    (state.setWorker which worker).owner = state.owner := by
  cases which <;> rfl

/-- A step of a worker gives `m_thread` no worker and takes none from it. -/
theorem setWorker_thread_isSome
    {state : State}
    {which : Which}
    {worker moved : Worker}
    (isWorker : state.worker? which = some worker) :
    (state.setWorker which moved).thread.isSome ↔ state.thread.isSome := by
  cases which with
  | thread =>
      exact iff_of_true rfl (Option.isSome_of_eq_some isWorker)
  | detached index =>
      exact Iff.rfl

/-- A step of a worker leaves what the owner relies on. -/
theorem OwnerView.setWorker
    {state : State}
    {which : Which}
    {worker moved : Worker}
    {stopRequested resumed steppedDead : Bool}
    (view : OwnerView state)
    (isWorker : state.worker? which = some worker)
    (notDead : state.owner ≠ .dead)
    (raises : state.stopRequested = true → stopRequested = true) :
    OwnerView
      { state.setWorker which moved with
        stopRequested, resumed, steppedDead } := by
  have same :
      (state.setWorker which moved).thread.isSome ↔ state.thread.isSome :=
    setWorker_thread_isSome isWorker
  have sameNone :
      (state.setWorker which moved).thread = none ↔ state.thread = none := by
    rw [← Option.not_isSome_iff_eq_none, ← Option.not_isSome_iff_eq_none]
    exact not_congr same
  unfold OwnerView at view ⊢
  simp only [setWorker_owner, same, sameNone]
  cases stands : state.owner with
  | idle =>
      trivial
  | create | setFlag _ _ | complete =>
      simpa [stands] using view
  | join _ | detach =>
      simp only [stands] at view ⊢
      exact ⟨view.1, raises view.2⟩
  | dead =>
      exact (notDead stands).elim

namespace Orderly

variable {state : State}

/-- The owner goes on, and may raise the flag. -/
theorem advance
    (orderly : Orderly state)
    {owner : Owner}
    {stopRequested : Bool}
    (view : OwnerView { state with owner, stopRequested })
    (notCreate : owner ≠ .create)
    (raised : state.stopRequested = true → stopRequested = true) :
    Orderly { state with owner, stopRequested } where
  view := view
  alone := by
    intro busy
    exact orderly.alone (.inl (busy.resolve_right notCreate))
  single := orderly.single
  heard := fun worker member inFunction =>
    raised (orderly.heard worker member inFunction)
  kept := fun worker member isStopped inFunction =>
    raised (orderly.kept worker member isStopped inFunction)
  neverResumed := orderly.neverResumed
  noneAfterEnd := orderly.noneAfterEnd

/-- A call of `StopThread` is noted for the running workers. -/
theorem markStopped
    (orderly : Orderly state)
    (requested :
      state.thread.isSome →
        state.stopRequested = true) :
    Orderly state.markStopped where
  view := by
    have view := orderly.view
    unfold OwnerView at view ⊢
    simp only [State.markStopped] at view ⊢
    split at view <;> simp_all
  alone := by
    intro busy worker member
    obtain ⟨before, beforeMember, rfl⟩ := List.mem_map.mp member
    rw [markStopped_inFunction]
    apply orderly.alone _ before beforeMember
    simpa [State.markStopped] using busy
  single := by
    intro first second firstInside secondInside
    exact orderly.single first second
      (inside_markStopped.mp firstInside)
      (inside_markStopped.mp secondInside)
  heard := by
    intro worker member inFunction
    obtain ⟨before, beforeMember, rfl⟩ := List.mem_map.mp member
    exact orderly.heard before beforeMember inFunction
  kept := by
    intro worker member _ _
    obtain ⟨before, isThread, _⟩ := Option.map_eq_some_iff.mp member
    exact requested (Option.isSome_of_eq_some isThread)
  neverResumed := orderly.neverResumed
  noneAfterEnd := orderly.noneAfterEnd

/-- `StartThread` where no detached worker is in `ThreadFunction`. -/
theorem startThread
    (orderly : Orderly state)
    (spares : SparesDetached state .startThread) :
    Orderly state.startThread := by
  unfold State.startThread
  split
  · exact orderly
  · rename_i noThread
    have outside := spares noThread
    refine ⟨noThread, fun _ => outside, orderly.single, ?_, ?_,
      orderly.neverResumed, orderly.noneAfterEnd⟩
    · intro worker member inFunction
      exact absurd inFunction
        (Bool.eq_false_iff.mp (outside worker member))
    · intro worker member
      exact absurd (noThread.symm.trans member) (Option.some_ne_none _).symm

/-- `StopThread`, called by an idle owner. -/
theorem stopThread
    (orderly : Orderly state)
    (isWaiting : Bool) :
    Orderly (state.stopThread isWaiting) := by
  unfold State.stopThread
  split
  · rename_i noThread
    apply orderly.markStopped
    simp [noThread]
  · rename_i isThread
    exact orderly.advance (Option.isSome_of_eq_some isThread)
      (by simp) id

/-- The destructor, called by an idle owner. -/
theorem destroy
    (orderly : Orderly state) :
    Orderly state.destroy := by
  unfold State.destroy
  split
  · rename_i noThread
    exact orderly.advance noThread (by simp) id
  · rename_i isThread
    exact orderly.advance (Option.isSome_of_eq_some isThread)
      (by simp) id

/-- The next step of a call of the owner. -/
theorem ownerStep
    (orderly : Orderly state)
    {next : State}
    (spares : SparesDetached state .owner)
    (stepped : state.ownerStep? = some next) :
    Orderly next := by
  have view := orderly.view
  unfold OwnerView at view
  unfold State.ownerStep? at stepped
  cases stands : state.owner with
  | idle | dead =>
      simp [stands] at stepped
  | create =>
      simp only [stands] at view stepped
      obtain rfl := Option.some.inj stepped
      have outside := orderly.alone (.inr stands)
      refine ⟨trivial, fun _ => outside, orderly.single, orderly.heard, ?_,
        orderly.neverResumed, orderly.noneAfterEnd⟩
      rintro worker ⟨⟩ isStopped
      cases isStopped
  | setFlag isWaiting destroys =>
      simp only [stands] at view stepped
      obtain rfl := Option.some.inj stepped
      have advanced :
          Orderly { state with
            stopRequested := true
            owner := if isWaiting then .join destroys else .detach } := by
        apply orderly.advance
        · cases isWaiting <;> exact ⟨view, rfl⟩
        · cases isWaiting <;> simp
        · exact fun _ => rfl
      exact advanced.markStopped (fun _ => rfl)
  | join destroys =>
      simp only [stands] at view stepped
      split at stepped
      · cases stepped
      · rw [Option.ite_none_right_eq_some, Option.some.injEq] at stepped
        obtain ⟨_, rfl⟩ := stepped
        refine ⟨?_, ?_, orderly.single, orderly.heard, ?_,
          orderly.neverResumed, orderly.noneAfterEnd⟩
        · cases destroys
          · trivial
          · rfl
        · cases destroys <;> simp
        · intro worker member
          cases member
  | detach =>
      simp only [stands] at view stepped
      split at stepped
      · cases stepped
      · rename_i worker isThread
        obtain rfl := Option.some.inj stepped
        have outside :=
          orderly.alone (.inl (Option.isSome_of_eq_some isThread))
        have first :
            ∀ index other,
              (worker :: state.detached)[index]? = some other →
              other.inFunction = true → index = 0 := by
          intro index other isOther inFunction
          cases index with
          | zero =>
              rfl
          | succ earlier =>
              have earlierOutside :=
                outside other (List.mem_of_getElem? isOther)
              exact absurd inFunction (Bool.eq_false_iff.mp earlierOutside)
        refine ⟨trivial, ?_, ?_, ?_, ?_,
          orderly.neverResumed, orderly.noneAfterEnd⟩
        · simp
        · rintro index place ⟨_, isOne, oneInside⟩ ⟨_, isTwo, twoInside⟩
          rw [first index _ isOne oneInside, first place _ isTwo twoInside]
        · intro _ _ _
          exact view.2
        · intro other member
          cases member
  | complete =>
      simp only [stands] at view stepped
      obtain rfl := Option.some.inj stepped
      exact orderly.advance ⟨view, spares stands⟩ (by simp) id

/-- A worker that runs in `ThreadFunction` under a stop sees the flag. -/
theorem resumes_eq_false
    (orderly : Orderly state)
    {which : Which}
    {worker : Worker}
    (isWorker : state.worker? which = some worker) :
    worker.resumes state.stopRequested = false := by
  by_cases atTest : worker.phase = .testFlag
  · by_cases isStopped : worker.stopped = true
    · have inFunction : worker.inFunction = true := by
        rw [Worker.inFunction, atTest]
      have requested : state.stopRequested = true := by
        cases which with
        | thread =>
            exact orderly.kept worker isWorker isStopped inFunction
        | detached index =>
            exact orderly.heard worker (List.mem_of_getElem? isWorker)
              inFunction
      simp [Worker.resumes, requested]
    · simp [Worker.resumes, isStopped]
  · simp [Worker.resumes, atTest]

/-- Behind the end of the object every worker has finished. -/
theorem finished_of_dead
    (orderly : Orderly state)
    (isDead : state.owner = .dead)
    {which : Which}
    {worker : Worker}
    (isWorker : state.worker? which = some worker) :
    worker.phase = .finished := by
  have view := orderly.view
  simp only [OwnerView, isDead] at view
  cases which with
  | thread =>
      exact absurd (view.1.symm.trans isWorker) (Option.some_ne_none _).symm
  | detached index =>
      exact view.2 worker (List.mem_of_getElem? isWorker)

/-- A step of a worker. -/
theorem workerStep
    (orderly : Orderly state)
    {which : Which}
    {answer : Answer}
    {next : State}
    (stepped : state.workerStep? which answer = some next) :
    Orderly next := by
  unfold State.workerStep? at stepped
  split at stepped
  · cases stepped
  · rename_i worker isWorker
    split at stepped
    · cases stepped
    · rename_i phase raised workerStepped
      obtain rfl := Option.some.inj stepped
      have leaves := inFunction_of_step workerStepped
      have raises := stopRequested_of_step workerStepped
      have notDead : state.owner ≠ .dead := by
        intro isDead
        have finished := orderly.finished_of_dead isDead isWorker
        simp [Worker.step?, finished] at workerStepped
      have wasInside :
          ∀ other ∈ (state.setWorker which { worker with phase }).detached,
            other.inFunction = true →
            ∃ before ∈ state.detached, before.inFunction = true := by
        intro other member inFunction
        obtain ⟨index, inside⟩ := exists_inside_detached member inFunction
        obtain ⟨before, isBefore, wasIn⟩ :=
          inside_of_setWorker isWorker leaves inside
        exact ⟨before, List.mem_of_getElem? isBefore, wasIn⟩
      refine ⟨?_, ?_, ?_, ?_, ?_, ?_, ?_⟩
      · exact (orderly.view.setWorker isWorker notDead raises)
      · intro busy other member
        refine Bool.eq_false_iff.mpr ?_
        intro inFunction
        obtain ⟨before, beforeMember, wasIn⟩ :=
          wasInside other member inFunction
        have outside := orderly.alone
          (busy.imp (setWorker_thread_isSome isWorker).mp
            (setWorker_owner ▸ ·))
          before beforeMember
        exact absurd wasIn (Bool.eq_false_iff.mp outside)
      · intro first second firstInside secondInside
        exact orderly.single first second
          (inside_of_setWorker isWorker leaves firstInside)
          (inside_of_setWorker isWorker leaves secondInside)
      · intro other member inFunction
        obtain ⟨before, beforeMember, wasIn⟩ :=
          wasInside other member inFunction
        exact raises (orderly.heard before beforeMember wasIn)
      · intro other isThread isStopped inFunction
        apply raises
        cases which with
        | thread =>
            obtain rfl := Option.some.inj isThread
            exact orderly.kept worker isWorker isStopped (leaves inFunction)
        | detached index =>
            exact orderly.kept other isThread isStopped inFunction
      · simp [orderly.neverResumed, orderly.resumes_eq_false isWorker]
      · simp [orderly.noneAfterEnd, notDead]

/-- Every permitted step keeps the order. -/
theorem step
    (orderly : Orderly state)
    {action : Action}
    {next : State}
    (spares : SparesDetached state action)
    (stepped : step? state action = some next) :
    Orderly next := by
  cases action with
  | startThread =>
      rw [step?, Option.ite_none_right_eq_some,
        Option.some.injEq] at stepped
      obtain ⟨_, rfl⟩ := stepped
      exact orderly.startThread spares
  | stopThread isWaiting =>
      rw [step?, Option.ite_none_right_eq_some,
        Option.some.injEq] at stepped
      obtain ⟨_, rfl⟩ := stepped
      exact orderly.stopThread isWaiting
  | destroy =>
      rw [step?, Option.ite_none_right_eq_some,
        Option.some.injEq] at stepped
      obtain ⟨_, rfl⟩ := stepped
      exact orderly.destroy
  | owner =>
      exact orderly.ownerStep spares stepped
  | worker which answer =>
      exact orderly.workerStep stepped

end Orderly

/-- Every run that spares the detached workers keeps the order. -/
theorem orderly_of_reachable
    {state : State}
    (reachable : machine.ReachableWhere SparesDetached state) :
    Orderly state := by
  apply reachable.invariant
  · rintro start rfl
    exact orderly_threadObj
  · intro before after action orderly spares stepped
    exact orderly.step spares stepped

/--
A step that does not spare a detached worker leads to two workers at a time or
to a step behind the end of the object.
-/
theorem exists_unsound
    {state next : State}
    {action : Action}
    (stepped : machine.step? state action = some next)
    (takes : ¬ SparesDetached state action) :
    ∃ actions final,
      machine.run? next actions = some final ∧ ¬ final.Sound := by
  cases action with
  | startThread =>
      simp only [SparesDetached, Classical.not_imp, Classical.not_forall,
        Bool.not_eq_false] at takes
      obtain ⟨noThread, worker, member, inFunction⟩ := takes
      simp only [machine, step?, Option.ite_none_right_eq_some,
        Option.some.injEq, State.startThread, noThread] at stepped
      obtain ⟨_, rfl⟩ := stepped
      obtain ⟨index, inside⟩ := exists_inside_detached member inFunction
      refine ⟨[.owner], _, rfl, ?_⟩
      intro sound
      have same := sound.oneWorker .thread (.detached index)
        ⟨_, rfl, rfl⟩ inside
      cases same
  | owner =>
      simp only [SparesDetached, Classical.not_imp,
        Classical.not_forall] at takes
      obtain ⟨completes, worker, member, running⟩ := takes
      simp only [machine, step?, State.ownerStep?, completes,
        Option.some.injEq] at stepped
      subst next
      obtain ⟨index, isWorker⟩ := List.mem_iff_getElem?.mp member
      obtain ⟨⟨phase, raised⟩, workerStepped⟩ :=
        exists_step state.stopRequested ⟨true, false⟩ running
      have moved :=
        @workerStep_of_step { state with owner := .dead }
          (.detached index) _ _ _ _ isWorker workerStepped
      refine ⟨[.worker (.detached index) ⟨true, false⟩], _,
        (machine.run?_singleton _ _).trans moved, ?_⟩
      intro sound
      simpa using sound.noneAfterEnd
  | stopThread isWaiting =>
      exact absurd trivial takes
  | destroy =>
      exact absurd trivial takes
  | worker which answer =>
      exact absurd trivial takes

/--
One worker at a time, stops that stay in force and no step behind the end: this
holds exactly in the runs in which no worker is created while a detached one is
still in `ThreadFunction`, and no destruction completes while a detached one
still runs.
-/
theorem sound_iff_sparesDetached
    {state : State}
    (reachable : machine.ReachableWhere SparesDetached state) :
    state.Sound ∧
      ∀ next action,
        machine.step? state action = some next →
        ¬ SparesDetached state action →
        ∃ actions final,
          machine.run? next actions = some final ∧ ¬ final.Sound := by
  constructor
  · exact (orderly_of_reachable reachable).sound
  · intro next action stepped takes
    exact exists_unsound stepped takes

/--
A worker is detached, leaves its function, and a second one is started and
joined before the object is destroyed.
-/
theorem sound_iff_sparesDetached_restarted :
    ∃ state,
      machine.ReachableWhere SparesDetached state ∧
        state.owner = .dead ∧
        state.Sound := by
  obtain ⟨state, reachable, ended⟩ :=
    Machine.ReachableWhere.exists_of_run
      machine
      SparesDetached
      threadObj
      [
        .startThread, .owner,
        .worker .thread ⟨true, false⟩,
        .worker .thread ⟨true, false⟩,
        .stopThread false, .owner, .owner,
        .worker (.detached 0) ⟨true, false⟩,
        .worker (.detached 0) ⟨true, false⟩,
        .worker (.detached 0) ⟨true, false⟩,
        .startThread, .owner,
        .worker (.detached 0) ⟨true, false⟩,
        .worker .thread ⟨true, false⟩,
        .destroy, .owner,
        .worker .thread ⟨true, false⟩,
        .worker .thread ⟨true, false⟩,
        .worker .thread ⟨true, false⟩,
        .owner, .owner
      ]
      (fun state => decide (state.owner = .dead))
      rfl (by decide) (by decide)
  exact ⟨state, reachable, of_decide_eq_true ended,
    (sound_iff_sparesDetached reachable).1⟩

/--
A worker is detached in the middle of a round, and the next `StartThread`
creates a second one and resets the flag; the first one tests the flag again and
goes on.
-/
theorem restart_resumes :
    ¬ ∀ state, machine.Reachable state → state.Sound := by
  intro alwaysSound
  obtain ⟨state, reachable, resumed⟩ :=
    Machine.exists_reachable
      machine
      threadObj
      [
        .startThread, .owner,
        .worker .thread ⟨true, false⟩,
        .worker .thread ⟨true, false⟩,
        .stopThread false, .owner, .owner,
        .startThread, .owner,
        .worker (.detached 0) ⟨true, false⟩,
        .worker (.detached 0) ⟨true, false⟩
      ]
      (fun state => state.resumed)
      rfl
      (by decide)
  have never := (alwaysSound state reachable).neverResumed
  simp [resumed] at never

end WkcRuntime.ThreadWorkers
