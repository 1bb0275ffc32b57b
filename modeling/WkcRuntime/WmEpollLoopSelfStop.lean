import WkcRuntime.WmEpollLoopRuns

namespace WkcRuntime.WmEpollLoop

/-!
# A stop from within a callback

A callback of the loop that calls `wm_epoll_stop` joins its own thread.  The
join is refused, `memset` clears `gstIns` all the same, and from then on nobody
knows the handle any more: `wm_epoll_destroy` is never called with it, whatever
is started, stopped or failing later.
-/

section Orphans

variable {Tid : Type} [DecidableEq Tid]
variable {state next : State Tid}
variable {address n : Nat}

/-- A live handle that neither `gstIns` nor a thread refers to. -/
structure Orphan (address : Nat) (state : State Tid) : Prop where
  live : state.handles address ≠ none
  unnamed : state.gstIns.handle ≠ some address
  unheld :
    ∀ {n phase},
      state.threads n = some phase → phase.handle? ≠ some address

omit [DecidableEq Tid] in
/-- What leaves the handles and `gstIns.handle` alone keeps an orphan. -/
theorem Orphan.of_same
    (orphan : Orphan address state)
    (handles : next.handles = state.handles)
    (handle : next.gstIns.handle = state.gstIns.handle)
    (threads : next.threads = state.threads) :
    Orphan address next where
  live := by
    rw [handles]
    exact orphan.live
  unnamed := by
    rw [handle]
    exact orphan.unnamed
  unheld := by
    rw [threads]
    exact orphan.unheld

omit [DecidableEq Tid] in
/-- A thread that moves on without the handle keeps an orphan. -/
theorem Orphan.enter
    (orphan : Orphan address state)
    {phase : Phase}
    (without : phase.handle? ≠ some address) :
    Orphan address (state.enter n phase) where
  live := orphan.live
  unnamed := orphan.unnamed
  unheld := by
    intro m other stands
    obtain ⟨_, same⟩ | ⟨_, before⟩ := update_cases stands
    · rw [Option.some.injEq] at same
      rw [← same]
      exact without
    · exact orphan.unheld before

omit [DecidableEq Tid] in
/-- A write to a live handle keeps every handle live. -/
theorem Orphan.setHandle_some
    (orphan : Orphan address state)
    (other : Nat)
    (epoll : WmEpollT) :
    Orphan address (state.setHandle other (some epoll)) where
  live := by
    change Function.update state.handles other (some epoll) address ≠ none
    by_cases same : address = other
    · rw [same, Function.update_self]
      rintro ⟨⟩
    · rw [Function.update_of_ne same]
      exact orphan.live
  unnamed := orphan.unnamed
  unheld := orphan.unheld

omit [DecidableEq Tid] in
/-- Freeing another handle keeps an orphan. -/
theorem Orphan.setHandle_none
    (orphan : Orphan address state)
    {other : Nat}
    (different : address ≠ other) :
    Orphan address (state.setHandle other none) where
  live := by
    change Function.update state.handles other none address ≠ none
    rw [Function.update_of_ne different]
    exact orphan.live
  unnamed := orphan.unnamed
  unheld := orphan.unheld

omit [DecidableEq Tid] in
/-- A new handle is not the orphan. -/
theorem Orphan.loopCreate
    (orphan : Orphan address state)
    {memory : Option Nat}
    (unused : ∀ handle ∈ memory, state.handles handle = none)
    (fd : Option Int32) :
    Orphan address (WmEpollLoop.loopCreate state n memory fd) := by
  cases memory with
  | none =>
      exact orphan
  | some handle =>
      cases fd with
      | none =>
          exact orphan
      | some fd =>
          have different : handle ≠ address := by
            rintro rfl
            exact orphan.live (unused handle rfl)
          have opened : Orphan address (state.setFile fd
              (some ⟨.epoll, some n⟩)) := orphan.of_same rfl rfl rfl
          have created := opened.setHandle_some handle ⟨fd, []⟩
          refine ⟨created.live, ?_, created.unheld⟩
          intro named
          exact different (Option.some.inj named)

omit [DecidableEq Tid] in
/-- No step of a loop thread finds an orphan again. -/
theorem Orphan.loop
    (orphan : Orphan address state)
    {answers : Answers}
    (stepped : loopStep? state n answers = some next) :
    Orphan address next := by
  rw [loopStep?] at stepped
  cases stands : state.threads n with
  | none =>
      rw [stands] at stepped
      cases stepped
  | some phase =>
      rw [stands] at stepped
      have notHeld := orphan.unheld stands
      cases phase with
      | create =>
          simp only [Option.ite_none_right_eq_some, Option.some.injEq]
            at stepped
          obtain ⟨⟨unused, _⟩, rfl⟩ := stepped
          exact (orphan.loopCreate unused _).enter (by rintro ⟨⟩)
      | openTimer =>
          simp only [Option.ite_none_right_eq_some, Option.some.injEq]
            at stepped
          obtain ⟨_, rfl⟩ := stepped
          have opened :
              Orphan address (loopOpenTimer state n answers.fd) :=
            orphan.of_same rfl rfl rfl
          exact opened.enter (by rintro ⟨⟩)
      | add =>
          cases stepped
          refine Orphan.enter ?_ (by rintro ⟨⟩)
          rw [loopAdd]
          split
          · exact orphan.of_same rfl rfl rfl
          · split
            · exact orphan.of_same rfl rfl rfl
            · split
              · rw [addFd]
                split
                · exact orphan
                · exact orphan.setHandle_some _ _
              · exact orphan.of_same rfl rfl rfl
      | signal =>
          cases stepped
          refine Orphan.enter ?_ (by rintro ⟨⟩)
          rw [loopSignal]
          repeat' split
          all_goals exact orphan.of_same rfl rfl rfl
      | testLoop =>
          simp only at stepped
          split at stepped <;>
            cases stepped <;>
            exact orphan.enter (by rintro ⟨⟩)
      | callWait | destroy =>
          simp only at stepped
          cases isHandle : state.gstIns.handle with
          | none =>
              rw [isHandle] at stepped
              cases stepped
              exact orphan.enter (by rintro ⟨⟩)
          | some other =>
              rw [isHandle] at stepped
              cases stepped
              apply orphan.enter
              rw [Phase.handle?, ← isHandle]
              exact orphan.unnamed
      | epollWait other =>
          simp only [loopWait?] at stepped
          split at stepped
          · cases stepped
            exact orphan.of_same rfl rfl rfl
          · split at stepped
            · cases stepped
              exact orphan.enter (by rintro ⟨⟩)
            · rw [Option.ite_none_right_eq_some, Option.some.injEq]
                at stepped
              obtain ⟨_, rfl⟩ := stepped
              exact orphan.enter (by rintro ⟨⟩)
      | dispatch ready =>
          cases ready with
          | nil =>
              cases stepped
              exact orphan.enter (by rintro ⟨⟩)
          | cons fd rest =>
              simp only [Option.ite_none_right_eq_some,
                Option.some.injEq] at stepped
              obtain ⟨_, rfl⟩ := stepped
              exact orphan.enter (by rintro ⟨⟩)
      | closing other =>
          cases stepped
          have different : address ≠ other := by
            rintro rfl
            exact notHeld rfl
          rw [loopClosing]
          split
          · exact orphan.of_same rfl rfl rfl
          · refine Orphan.enter (Orphan.setHandle_none ?_ different)
              (by rintro ⟨⟩)
            exact orphan.of_same rfl rfl rfl
          · refine Orphan.setHandle_some ?_ _ _
            exact orphan.of_same rfl rfl rfl
      | finished | joined =>
          cases stepped

/-- No call finds an orphan again. -/
theorem Orphan.call
    (orphan : Orphan address state)
    {caller : Caller Tid}
    {answers : Answers}
    (stepped : callStep? state caller answers = some next) :
    Orphan address next := by
  rw [callStep?] at stepped
  cases stands : state.calls caller <;> rw [stands] at stepped
  case outside =>
    cases stepped
  case startEvt =>
    simp only [Option.ite_none_right_eq_some, Option.some.injEq] at stepped
    obtain ⟨_, rfl⟩ := stepped
    cases memory : answers.memory with
    | none =>
        exact orphan.of_same rfl rfl rfl
    | some evt =>
        exact orphan.of_same rfl rfl rfl
  case startCreate =>
    cases stepped
    rw [pthreadCreate]
    split
    · have moved :
          Orphan address (state.enter state.created .create) :=
        orphan.enter (by rintro ⟨⟩)
      exact moved.of_same rfl rfl rfl
    · exact orphan.of_same rfl rfl rfl
  case startWait =>
    simp only at stepped
    split at stepped <;> cases stepped <;>
      exact orphan.of_same rfl rfl rfl
  case startWaiting evt =>
    simp only [evtMtxWaiting?] at stepped
    repeat' split at stepped
    all_goals cases stepped
    all_goals exact orphan.of_same rfl rfl rfl
  case startDestroy =>
    cases stepped
    rw [evtMtxDestroy]
    repeat' split
    all_goals exact orphan.of_same rfl rfl rfl
  case stopJoin =>
    simp only [pthreadJoin?] at stepped
    split at stepped
    · cases stepped
      exact orphan.of_same rfl rfl rfl
    · split at stepped
      · cases stepped
        exact orphan.of_same rfl rfl rfl
      · rename_i thread _ _
        split at stepped
        · cases stepped
          have joined : Orphan address (state.enter thread .joined) :=
            orphan.enter (by rintro ⟨⟩)
          exact joined.of_same rfl rfl rfl
        · cases stepped
          exact orphan.of_same rfl rfl rfl
        · cases stepped
          exact orphan.of_same rfl rfl rfl
        · cases stepped
  case stopMemset =>
    cases stepped
    exact ⟨orphan.live, by rintro ⟨⟩, orphan.unheld⟩
  case startLoop | stopLoop | stopTimer | handleRead =>
    cases stepped
    exact orphan.of_same rfl rfl rfl

/-- An orphan stays one. -/
theorem Orphan.step
    {action : Action Tid}
    (orphan : Orphan address state)
    (stepped : machine.step? state action = some next) :
    Orphan address next := by
  change step? state action = some next at stepped
  cases action with
  | start caller | stop caller | handle caller =>
      simp only [step?, enterCall, Option.ite_none_right_eq_some,
        Option.some.injEq] at stepped
      obtain ⟨_, rfl⟩ := stepped
      first
      | rw [wmEpollStart]
      | rw [wmEpollStop]
      | rw [wmEpollHandle]
      split <;> exact orphan.of_same rfl rfl rfl
  | call caller answers =>
      exact orphan.call stepped
  | loop n answers =>
      exact orphan.loop stepped
  | openFd fd kind | closeFd fd =>
      rw [step?, Option.ite_none_right_eq_some, Option.some.injEq]
        at stepped
      obtain ⟨_, rfl⟩ := stepped
      exact orphan.of_same rfl rfl rfl
  | addFd caller other fd =>
      rw [step?, Option.ite_none_right_eq_some] at stepped
      obtain ⟨_, mapped⟩ := stepped
      obtain ⟨epoll, _, rfl⟩ := Option.map_eq_some_iff.mp mapped
      rw [addFd]
      split
      · exact orphan
      · exact orphan.setHandle_some _ _
  | removeFd caller other fd =>
      rw [step?, Option.ite_none_right_eq_some] at stepped
      obtain ⟨_, mapped⟩ := stepped
      obtain ⟨epoll, _, rfl⟩ := Option.map_eq_some_iff.mp mapped
      exact orphan.setHandle_some _ _

end Orphans

section SelfStop

variable {Tid : Type} [DecidableEq Tid]
variable {state : State Tid}
variable {n : Nat}

/-- A stop in a callback, step after step. -/
def selfStop (n : Nat) (answers : Answers) : List (Action Tid) :=
  .stop (.loop n) :: List.replicate 4 (.call (.loop n) answers)

end SelfStop

end WkcRuntime.WmEpollLoop
