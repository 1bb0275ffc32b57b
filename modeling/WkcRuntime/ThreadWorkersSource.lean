import WkcRuntime.Machine

namespace WkcRuntime.ThreadWorkers

/-!
# The workers of one thread object

`StartThread`, `StopThread` and the destructor of `basic/ThreadObj.cpp` on one
object, called one after the other by its owner, against every worker that the
calls create.  A worker enters and leaves `ThreadFunction` through the lambda of
`StartThread`; the function tests `m_stopRequested` before each round of its
loop, and what a round does is open, except that it may raise the flag, as
`LoopReadMsg` does.  `m_thread` holds the last worker until it is joined or
detached.  A step is one access to the flag or to `m_thread`.

Where a derived destructor leaves the stop to `~ThreadObj`, a worker that has
not called `ThreadFunction` by then makes a pure virtual call and the process
ends; such runs stop there.

Each worker remembers whether `StopThread` was called while it was running; the
call counts from its store to the flag on.  Two flags record that a stopped
worker has found `m_stopRequested` false and that a worker has moved after the
end of the object.
-/

/-- Where a worker stands. -/
inductive Phase where
  | entering
  | testFlag
  | body
  | afterLoop
  | leaving
  | finished
  deriving DecidableEq, Repr

/-- A worker and whether `StopThread` was called while it was running. -/
structure Worker where
  phase : Phase
  stopped : Bool
  deriving DecidableEq, Repr

/-- The worker has not left `ThreadFunction` yet. -/
def Worker.inFunction (worker : Worker) : Bool :=
  match worker.phase with
  | .entering | .testFlag | .body | .afterLoop =>
      true
  | .leaving | .finished =>
      false

/-- Where the owner of the object stands. -/
inductive Owner where
  | idle
  | create
  | setFlag (isWaiting destroys : Bool)
  | join (destroys : Bool)
  | detach
  | complete
  | dead
  deriving DecidableEq, Repr

/-- The object, its workers and the history. -/
structure State where
  owner : Owner
  stopRequested : Bool
  thread : Option Worker
  detached : List Worker
  resumed : Bool
  steppedDead : Bool
  deriving DecidableEq, Repr

/-- `ThreadObj::ThreadObj`. -/
def threadObj : State where
  owner := .idle
  stopRequested := true
  thread := none
  detached := []
  resumed := false
  steppedDead := false

/-- One worker: that of `m_thread`, or one that was detached. -/
inductive Which where
  | thread
  | detached (index : Nat)
  deriving DecidableEq, Repr

/-- What the rounds of `ThreadFunction` choose: their end, and a stop. -/
structure Answer where
  ends : Bool
  raises : Bool
  deriving DecidableEq, Repr

/-- A call of the owner, or the next step of the owner or of a worker. -/
inductive Action where
  | startThread
  | stopThread (isWaiting : Bool)
  | destroy
  | owner
  | worker (which : Which) (answer : Answer)
  deriving DecidableEq, Repr

/-- The next phase of a worker, and the flag behind its step. -/
def Worker.step?
    (worker : Worker)
    (stopRequested : Bool)
    (answer : Answer) :
    Option (Phase × Bool) :=
  match worker.phase with
  | .entering =>
      some (.testFlag, stopRequested)
  | .testFlag =>
      if stopRequested then
        some (.afterLoop, stopRequested)
      else
        some (.body, stopRequested)
  | .body =>
      some (if answer.ends then .testFlag else .body,
        stopRequested || answer.raises)
  | .afterLoop =>
      some (if answer.ends then .leaving else .afterLoop, stopRequested)
  | .leaving =>
      some (.finished, stopRequested)
  | .finished =>
      none

/-- A stopped worker that tests the flag finds it false. -/
def Worker.resumes (worker : Worker) (stopRequested : Bool) : Bool :=
  decide (worker.phase = .testFlag) && worker.stopped && !stopRequested

/-- `StopThread` was called while the worker was running. -/
def Worker.markStopped (worker : Worker) : Worker :=
  { worker with stopped := worker.stopped || worker.inFunction }

namespace State

/-- The worker with a given place. -/
def worker? (state : State) : Which → Option Worker
  | .thread =>
      state.thread
  | .detached index =>
      state.detached[index]?

/-- Replace the worker with a given place. -/
def setWorker (state : State) (which : Which) (worker : Worker) : State :=
  match which with
  | .thread =>
      { state with thread := some worker }
  | .detached index =>
      { state with detached := state.detached.set index worker }

/-- `StopThread` is called. -/
def markStopped (state : State) : State :=
  { state with
    thread := state.thread.map Worker.markStopped
    detached := state.detached.map Worker.markStopped }

/-- `StartThread` up to the creation of the worker. -/
def startThread (state : State) : State :=
  match state.thread with
  | some _ =>
      state
  | none =>
      { state with stopRequested := false, owner := .create }

/-- `StopThread` up to the store to `m_stopRequested`. -/
def stopThread (state : State) (isWaiting : Bool) : State :=
  match state.thread with
  | none =>
      state.markStopped
  | some _ =>
      { state with owner := .setFlag isWaiting false }

/-- `~ThreadObj` up to the store to `m_stopRequested`. -/
def destroy (state : State) : State :=
  match state.thread with
  | none =>
      { state with owner := .complete }
  | some _ =>
      { state with owner := .setFlag true true }

/-- The next step of the call that the owner is in. -/
def ownerStep? (state : State) : Option State :=
  match state.owner with
  | .idle | .dead =>
      none
  | .create =>
      some { state with
        thread := some ⟨.entering, false⟩
        owner := .idle }
  | .setFlag isWaiting destroys =>
      some { state.markStopped with
        stopRequested := true
        owner := if isWaiting then .join destroys else .detach }
  | .join destroys =>
      match state.thread with
      | none =>
          none
      | some worker =>
          if worker.phase = .finished then
            some { state with
              thread := none
              owner := if destroys then .complete else .idle }
          else
            none
  | .detach =>
      match state.thread with
      | none =>
          none
      | some worker =>
          some { state with
            thread := none
            detached := worker :: state.detached
            owner := .idle }
  | .complete =>
      some { state with owner := .dead }

/-- One step of a worker. -/
def workerStep?
    (state : State)
    (which : Which)
    (answer : Answer) :
    Option State :=
  match state.worker? which with
  | none =>
      none
  | some worker =>
      match worker.step? state.stopRequested answer with
      | none =>
          none
      | some (phase, stopRequested) =>
          some { state.setWorker which { worker with phase } with
            stopRequested
            resumed := state.resumed || worker.resumes state.stopRequested
            steppedDead :=
              state.steppedDead || decide (state.owner = .dead) }

end State

/-- One step. -/
def step? (state : State) : Action → Option State
  | .startThread =>
      if state.owner = .idle then some state.startThread else none
  | .stopThread isWaiting =>
      if state.owner = .idle then some (state.stopThread isWaiting) else none
  | .destroy =>
      if state.owner = .idle then some state.destroy else none
  | .owner =>
      state.ownerStep?
  | .worker which answer =>
      state.workerStep? which answer

/-- All runs on one object, from its constructor on. -/
def machine : Machine State Action where
  Initial := fun state => state = threadObj
  step? := step?

end WkcRuntime.ThreadWorkers
