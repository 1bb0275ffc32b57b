import WkcRuntime.WmEpollLoopResources

namespace WkcRuntime.WmEpollLoop

/-!
# Runs of the event loop

One lemma for the steps of a loop thread, one for the steps of a call and one
for what the application does with descriptors.  Together they keep `Sound`, so
it holds in every run whose calls are in order.
-/

section Soundness

variable {Tid : Type}

/-- The thread of `gstIns` and where it stands. -/
def State.current (state : State Tid) : Option (Nat × Phase) :=
  state.gstIns.thrId.bind fun n => (state.threads n).map (Prod.mk n)

/-- What every run with ordered calls keeps. -/
structure Sound (state : State Tid) : Prop where
  control :
    Control state.gstIns state.evts state.created state.threads
      state.calls
  resources :
    Resources state.gstIns.handle state.gstIns.idleFd state.handles
      state.files state.current state.unwatched
  defined : state.undefined = false
  noFreed : state.gaveFreed = false

variable {state next : State Tid}
variable {n : Nat}
variable {phase : Phase}

/-- The thread of `gstIns`, if it is there, is the current one. -/
theorem current_eq
    (isThread : state.gstIns.thrId = some n)
    (stands : state.threads n = some phase) :
    state.current = some (n, phase) := by
  rw [State.current, isThread, Option.bind_some, stands, Option.map_some]

/-- Where the current thread stands. -/
theorem of_current_eq
    (isCurrent : state.current = some (n, phase)) :
    state.gstIns.thrId = some n ∧ state.threads n = some phase := by
  rw [State.current, Option.bind_eq_some_iff] at isCurrent
  obtain ⟨other, isThread, found⟩ := isCurrent
  obtain ⟨stands, there, same⟩ := Option.map_eq_some_iff.mp found
  cases same
  exact ⟨isThread, there⟩

/-- The handle of a loop that runs is live. -/
theorem Sound.held
    (sound : Sound state)
    (loops : state.gstIns.loop = true)
    {address : Nat}
    (isHandle : state.gstIns.handle = some address) :
    ∃ epoll, state.handles address = some epoll := by
  cases isCurrent : state.current with
  | none =>
      rw [sound.resources.absent isCurrent] at isHandle
      cases isHandle
  | some found =>
      obtain ⟨n, phase⟩ := found
      obtain ⟨isThread, stands⟩ := of_current_eq isCurrent
      have inLoop : phase.leaving = false := by
        by_contra leaves
        rw [sound.control.looping isThread stands
          (Bool.not_eq_false _ ▸ leaves)] at loops
        cases loops
      by_cases unborn : phase = .create
      · rw [unborn] at isCurrent
        rw [sound.resources.unborn isCurrent] at isHandle
        cases isHandle
      · apply sound.resources.held isHandle isCurrent
        cases phase <;>
          simp_all [Phase.leaving, Phase.holds]

/-- A step of a loop thread that keeps its resources in order. -/
theorem Sound.move
    (sound : Sound state)
    (phase' : Phase)
    (stands : state.threads n = some phase)
    (alive : phase ≠ .joined)
    (alive' : phase' ≠ .joined)
    (leaves : phase'.leaving = true → state.gstIns.loop = false)
    (reports :
      phase'.signalled = phase.signalled ∧ next.evts = state.evts ∨
        phase.signalled = false ∧ phase'.signalled = true ∧
          ∀ evt,
            next.evts evt =
              if state.gstIns.evtHandle = some evt ∧
                  state.evts evt = some 0 then
                some 1
              else
                state.evts evt)
    (resources :
      Resources next.gstIns.handle next.gstIns.idleFd next.handles
        next.files (some (n, phase')) next.unwatched)
    (same : SameControl state.gstIns next.gstIns)
    (threads :
      next.threads = Function.update state.threads n (some phase'))
    (calls : next.calls = state.calls)
    (created : next.created = state.created)
    (defined : next.undefined = state.undefined)
    (noFreed : next.gaveFreed = state.gaveFreed) :
    Sound next := by
  obtain ⟨isThread, _⟩ := sound.control.current stands alive
  have isCurrent : next.current = some (n, phase') := by
    apply current_eq
    · rw [same.2.1, isThread]
    · rw [threads, Function.update_self]
  refine ⟨?_, ?_, ?_, ?_⟩
  · rw [threads, calls, created]
    exact sound.control.move stands alive same alive' leaves reports
  · rw [isCurrent]
    exact resources
  · rw [defined, sound.defined]
  · rw [noFreed, sound.noFreed]

end Soundness

section LoopSteps

variable {Tid : Type}
variable {state next : State Tid}
variable {n : Nat}

/-- `wm_epoll_create` in a loop thread. -/
theorem Sound.loopCreate
    (sound : Sound state)
    (stands : state.threads n = some .create)
    {memory : Option Nat}
    {fd : Option Int32}
    (unused : ∀ fd' ∈ fd, 0 ≤ fd' ∧ state.files fd' = none) :
    Sound
      ((WmEpollLoop.loopCreate state n memory fd).enter n
        .openTimer) := by
  obtain ⟨isThread, _⟩ := sound.control.current stands (by rintro ⟨⟩)
  have isCurrent := current_eq isThread stands
  have resources := sound.resources
  rw [isCurrent] at resources
  have isNull : state.gstIns.handle = none := resources.unborn rfl
  rw [isNull] at resources
  have left := resources.left resources.freed_of_null (by rintro m ⟨⟩)
  cases memory with
  | none =>
      refine sound.move .openTimer stands (by rintro ⟨⟩) (by rintro ⟨⟩) (by rintro ⟨⟩) (.inl ⟨rfl, rfl⟩) ?_
        ⟨rfl, rfl, rfl⟩ rfl rfl rfl rfl rfl
      change Resources state.gstIns.handle _ _ _ _ _
      rw [isNull]
      exact left.notCreated
  | some address =>
      cases fd with
      | none =>
          refine sound.move .openTimer stands (by rintro ⟨⟩) (by rintro ⟨⟩) (by rintro ⟨⟩) (.inl ⟨rfl, rfl⟩) ?_
            ⟨rfl, rfl, rfl⟩ rfl rfl rfl rfl rfl
          change Resources state.gstIns.handle _ _ _ _ _
          rw [isNull]
          exact left.notCreated
      | some fd =>
          obtain ⟨nonneg, free⟩ := unused fd rfl
          exact sound.move .openTimer stands (by rintro ⟨⟩) (by rintro ⟨⟩) (by rintro ⟨⟩) (.inl ⟨rfl, rfl⟩)
            (left.create free nonneg) ⟨rfl, rfl, rfl⟩ rfl rfl rfl rfl rfl

/-- `wm_epoll_timer_open` in a loop thread. -/
theorem Sound.loopOpenTimer
    (sound : Sound state)
    (stands : state.threads n = some .openTimer)
    {created : Option Int32}
    (unused : ∀ fd ∈ created, 0 ≤ fd ∧ state.files fd = none) :
    Sound
      ((WmEpollLoop.loopOpenTimer state n created).enter n .add) := by
  obtain ⟨isThread, _⟩ := sound.control.current stands (by rintro ⟨⟩)
  have resources := sound.resources
  rw [current_eq isThread stands] at resources
  refine sound.move .add stands (by rintro ⟨⟩) (by rintro ⟨⟩)
    (by rintro ⟨⟩) (.inl ⟨rfl, rfl⟩) (resources.openTimer ?_) ⟨rfl, rfl, rfl⟩ rfl rfl rfl rfl rfl
  cases created with
  | none =>
      exact .inl ⟨rfl, rfl⟩
  | some fd =>
      obtain ⟨nonneg, free⟩ := unused fd rfl
      have opened :=
        wmEpollTimerOpen_some state.files (some n) fd 100 3000
      rw [if_pos (by decide)] at opened
      right
      change
        0 ≤ (wmEpollTimerOpen state.files (some n) (some fd) 100 3000).2 ∧
          state.files
              (wmEpollTimerOpen state.files (some n) (some fd) 100
                3000).2 = none ∧
          ∃ its : Itimerspec,
            its.armed = true ∧
              (wmEpollTimerOpen state.files (some n) (some fd) 100
                  3000).1 =
                Function.update state.files
                  (wmEpollTimerOpen state.files (some n) (some fd) 100
                    3000).2
                  (some ⟨.timer its, some n⟩)
      rw [opened]
      exact ⟨nonneg, free, itimerspecOf 100 3000,
        (armed_itimerspecOf 100 3000).mpr (by decide), rfl⟩

/-- `wm_epoll_add` in a loop thread. -/
theorem Sound.loopAdd
    (sound : Sound state)
    (stands : state.threads n = some .add)
    (accepts : Bool) :
    Sound ((WmEpollLoop.loopAdd state n accepts).enter n .signal) := by
  obtain ⟨isThread, _⟩ := sound.control.current stands (by rintro ⟨⟩)
  have resources := sound.resources
  rw [current_eq isThread stands] at resources
  have refused : Sound ((state.leaveUnwatched n).enter n .signal) :=
    sound.move .signal stands (by rintro ⟨⟩) (by rintro ⟨⟩) (by rintro ⟨⟩) (.inl ⟨rfl, rfl⟩)
      resources.refused ⟨rfl, rfl, rfl⟩ rfl rfl rfl rfl rfl
  rw [WmEpollLoop.loopAdd]
  cases isHandle : state.gstIns.handle with
  | none =>
      exact refused
  | some address =>
      obtain ⟨epoll, found⟩ := resources.held isHandle rfl rfl
      simp only [found]
      by_cases takes :
          accepts = true ∧ (state.files state.gstIns.idleFd).isSome = true
      · rw [if_pos takes]
        have timer : IdleTimer state.files n state.gstIns.idleFd := by
          apply (resources.adding rfl).resolve_left
          intro isNone
          obtain ⟨file, isOpen⟩ := Option.isSome_iff_exists.mp takes.2
          have nonneg := resources.numbers isOpen
          rw [isNone] at nonneg
          exact absurd nonneg (by decide)
        rw [addFd]
        by_cases member : state.gstIns.idleFd ∈ epoll.head
        · rw [if_pos member]
          exact sound.move .signal stands (by rintro ⟨⟩) (by rintro ⟨⟩) (by rintro ⟨⟩) (.inl ⟨rfl, rfl⟩)
            (resources.added timer
              ⟨address, epoll, isHandle, found, member⟩)
            ⟨rfl, rfl, rfl⟩ rfl rfl rfl rfl rfl
        · rw [if_neg member]
          have longer :=
            resources.setHead found (state.gstIns.idleFd :: epoll.head)
              (fun _ inHead => List.mem_cons_of_mem _ inHead)
          exact sound.move .signal stands (by rintro ⟨⟩) (by rintro ⟨⟩) (by rintro ⟨⟩) (.inl ⟨rfl, rfl⟩)
            (longer.added timer
              ⟨address, _, isHandle, Function.update_self ..,
                List.mem_cons_self⟩)
            ⟨rfl, rfl, rfl⟩ rfl rfl rfl rfl rfl
      · rw [if_neg takes]
        exact refused

/-- The event of a thread that has not reported is in use and not set. -/
theorem Sound.unset
    (sound : Sound state)
    (isThread : state.gstIns.thrId = some n)
    {phase : Phase}
    (stands : state.threads n = some phase)
    (unreported : phase.signalled = false)
    {evt : Nat}
    (isEvt : state.gstIns.evtHandle = some evt) :
    state.evts evt = some 0 := by
  have silent : ¬ Signalled state.gstIns state.threads := by
    rw [signalled_iff isThread stands, unreported]
    rintro ⟨⟩
  have notQuiet : ¬ Quiet state.gstIns state.threads := by
    rintro (signalled | noEvt)
    · exact silent signalled
    · rw [noEvt] at isEvt
      cases isEvt
  have set :
      Handshake state.gstIns state.evts state.created state.threads →
        state.evts evt = some 0 := by
    rintro ⟨_, values⟩
    obtain ⟨zero, _⟩ | ⟨_, signalled⟩ := values evt isEvt
    · exact zero
    · exact absurd signalled silent
  have inUse : state.gstIns ≠ WmIns.zero := by
    intro isZero
    rw [isZero] at isThread
    cases isThread
  obtain ⟨caller, _, _, stage⟩ := sound.control.controller
  cases stands' : state.calls caller <;> rw [stands'] at stage
  case outside | handleRead =>
    obtain ⟨_, ⟨isZero, _⟩ | ⟨_, _, quiet⟩⟩ := stage
    · exact absurd isZero inUse
    · exact absurd quiet notQuiet
  case startLoop =>
    exact absurd stage.2.1 inUse
  case startEvt =>
    rw [stage.2.1] at isThread
    cases isThread
  case startCreate =>
    exact stage.2.2 evt isEvt
  case startWait =>
    exact set stage.2.2
  case startWaiting =>
    exact set stage.2.2
  case startDestroy =>
    exact absurd stage.2.1.2.2 notQuiet
  case stopLoop | stopTimer | stopJoin =>
    exact absurd stage.2.2.2 notQuiet
  case stopMemset =>
    have below : n < state.created := by
      by_contra notBelow
      rw [(sound.control.fresh n).mpr (Nat.not_lt.mp notBelow)] at stands
      cases stands
    rw [stage.2.2 n below, Option.some.injEq] at stands
    rw [← stands] at unreported
    cases unreported

/-- `evt_mtx_signal` in a loop thread. -/
theorem Sound.loopSignal
    (sound : Sound state)
    (stands : state.threads n = some .signal) :
    Sound ((WmEpollLoop.loopSignal state).enter n .testLoop) := by
  obtain ⟨isThread, _⟩ := sound.control.current stands (by rintro ⟨⟩)
  have resources := sound.resources
  rw [current_eq isThread stands] at resources
  have moved :=
    @Resources.move _ _ _ _ _ _ _ .testLoop resources rfl rfl
      (by rintro _ ⟨⟩)
  rw [WmEpollLoop.loopSignal]
  cases isEvt : state.gstIns.evtHandle with
  | none =>
      refine sound.move .testLoop stands (by rintro ⟨⟩) (by rintro ⟨⟩) (by rintro ⟨⟩) (.inr ⟨rfl, rfl, ?_⟩)
        moved ⟨rfl, rfl, rfl⟩ rfl rfl rfl rfl rfl
      intro evt
      rw [isEvt, if_neg (by rintro ⟨⟨⟩, _⟩)]
      rfl
  | some evt =>
      have zero := sound.unset isThread stands rfl isEvt
      simp only [zero, if_true]
      refine sound.move .testLoop stands (by rintro ⟨⟩) (by rintro ⟨⟩) (by rintro ⟨⟩) (.inr ⟨rfl, rfl, ?_⟩)
        moved ⟨rfl, rfl, rfl⟩ rfl rfl rfl rfl rfl
      intro other
      change Function.update state.evts evt (some 1) other = _
      simp only [isEvt, Option.some.injEq]
      by_cases same : other = evt
      · rw [same, Function.update_self, if_pos ⟨rfl, zero⟩]
      · rw [Function.update_of_ne same, if_neg (by
          rintro ⟨rfl, _⟩
          exact same rfl)]

/-- The steps of `wm_epoll_destroy` in a loop thread. -/
theorem Sound.loopClosing
    (sound : Sound state)
    {address : Nat}
    (stands : state.threads n = some (.closing address)) :
    Sound (WmEpollLoop.loopClosing state n address) := by
  obtain ⟨isThread, _⟩ := sound.control.current stands (by rintro ⟨⟩)
  have stops := sound.control.looping isThread stands rfl
  have resources := sound.resources
  rw [current_eq isThread stands] at resources
  obtain ⟨⟨fd, head⟩, found⟩ :=
    resources.held (resources.entered rfl rfl) rfl rfl
  rw [WmEpollLoop.loopClosing]
  cases head with
  | nil =>
      simp only [found]
      exact sound.move .finished stands (by rintro ⟨⟩) (by rintro ⟨⟩) (fun _ => stops)
        (.inl ⟨rfl, rfl⟩)
        ((resources.closeHandle found).ended (.inl rfl)) ⟨rfl, rfl, rfl⟩
        rfl rfl rfl rfl rfl
  | cons pos rest =>
      simp only [found]
      exact sound.move (.closing address) stands (by rintro ⟨⟩) (by rintro ⟨⟩) (fun _ => stops)
        (.inl ⟨rfl, rfl⟩) (resources.closeEvent found) ⟨rfl, rfl, rfl⟩
        (by rw [Function.update_eq_self_iff.mpr stands.symm]; rfl) rfl rfl
        rfl rfl

/-- Every step of a loop thread keeps things in order. -/
theorem Sound.loop
    (sound : Sound state)
    {answers : Answers}
    (stepped : loopStep? state n answers = some next) :
    Sound next := by
  rw [loopStep?] at stepped
  cases stands : state.threads n with
  | none =>
      rw [stands] at stepped
      cases stepped
  | some phase =>
      rw [stands] at stepped
      have moves :
          ∀ phase',
            phase.watching = true →
            (phase'.watching || phase'.isClosing) = true →
            phase'.signalled = phase.signalled →
            (phase'.leaving = true → state.gstIns.loop = false) →
            (∀ address,
              phase'.handle? = some address →
              state.gstIns.handle = some address) →
            Sound (state.enter n phase') := by
        intro phase' watched watches keeps leaves enters
        have alive : phase ≠ .joined := by
          rintro rfl
          cases watched
        obtain ⟨isThread, _⟩ := sound.control.current stands alive
        have resources := sound.resources
        rw [current_eq isThread stands] at resources
        exact sound.move phase' stands alive
          (by rintro rfl; cases watches) leaves (.inl ⟨keeps, rfl⟩)
          (resources.move watched watches enters) ⟨rfl, rfl, rfl⟩ rfl rfl
          rfl rfl rfl
      cases phase with
      | create =>
          simp only [Option.ite_none_right_eq_some, Option.some.injEq]
            at stepped
          obtain ⟨⟨_, unused⟩, rfl⟩ := stepped
          exact sound.loopCreate stands unused
      | openTimer =>
          simp only [Option.ite_none_right_eq_some, Option.some.injEq]
            at stepped
          obtain ⟨unused, rfl⟩ := stepped
          exact sound.loopOpenTimer stands unused
      | add =>
          cases stepped
          exact sound.loopAdd stands _
      | signal =>
          cases stepped
          exact sound.loopSignal stands
      | testLoop =>
          simp only at stepped
          by_cases loops : state.gstIns.loop = true
          · rw [if_pos loops] at stepped
            cases stepped
            exact moves .callWait rfl rfl rfl
                (by rintro ⟨⟩) (by rintro _ ⟨⟩)
          · rw [if_neg loops] at stepped
            cases stepped
            exact moves .destroy rfl rfl rfl
              (fun _ => Bool.eq_false_iff.mpr loops) (by rintro _ ⟨⟩)
      | callWait =>
          simp only at stepped
          cases isHandle : state.gstIns.handle with
          | none =>
              rw [isHandle] at stepped
              cases stepped
              exact moves .testLoop rfl rfl rfl
                (by rintro ⟨⟩) (by rintro _ ⟨⟩)
          | some address =>
              rw [isHandle] at stepped
              cases stepped
              refine moves (.epollWait address) rfl rfl rfl
                (by rintro ⟨⟩) ?_
              rintro other ⟨⟩
              exact isHandle
      | epollWait address =>
          obtain ⟨isThread, _⟩ := sound.control.current stands (by rintro ⟨⟩)
          have isCurrent := current_eq isThread stands
          obtain ⟨epoll, found⟩ :=
            sound.resources.held (sound.resources.entered isCurrent rfl)
              isCurrent rfl
          simp only [loopWait?, found] at stepped
          cases isReady : answers.ready with
          | nil =>
              rw [isReady] at stepped
              cases stepped
              exact moves .testLoop rfl rfl rfl
                (by rintro ⟨⟩) (by rintro _ ⟨⟩)
          | cons first rest =>
              rw [isReady] at stepped
              simp only [Option.ite_none_right_eq_some,
                Option.some.injEq] at stepped
              obtain ⟨_, rfl⟩ := stepped
              exact moves (.dispatch (first :: rest)) rfl rfl rfl
                (by rintro ⟨⟩) (by rintro _ ⟨⟩)
      | dispatch ready =>
          cases ready with
          | nil =>
              cases stepped
              exact moves .testLoop rfl rfl rfl
                (by rintro ⟨⟩) (by rintro _ ⟨⟩)
          | cons fd rest =>
              simp only [Option.ite_none_right_eq_some,
                Option.some.injEq] at stepped
              obtain ⟨_, rfl⟩ := stepped
              exact moves (.dispatch rest) rfl rfl rfl
                (by rintro ⟨⟩) (by rintro _ ⟨⟩)
      | destroy =>
          obtain ⟨isThread, _⟩ := sound.control.current stands (by rintro ⟨⟩)
          have stops := sound.control.looping isThread stands rfl
          simp only at stepped
          cases isHandle : state.gstIns.handle with
          | none =>
              rw [isHandle] at stepped
              cases stepped
              have resources := sound.resources
              rw [current_eq isThread stands, isHandle] at resources
              have left :=
                resources.left resources.freed_of_null (by rintro m ⟨⟩)
              exact sound.move .finished stands (by rintro ⟨⟩) (by rintro ⟨⟩) (fun _ => stops)
                (.inl ⟨rfl, rfl⟩) (left.ended (.inl rfl)) ⟨rfl, rfl, rfl⟩
                rfl rfl rfl rfl rfl
          | some address =>
              rw [isHandle] at stepped
              cases stepped
              refine moves (.closing address) rfl rfl rfl
                (fun _ => stops) ?_
              rintro other ⟨⟩
              exact isHandle
      | closing address =>
          cases stepped
          exact sound.loopClosing stands
      | finished | joined =>
          cases stepped

end LoopSteps

section Calls

variable {Tid : Type} [DecidableEq Tid]
variable {state next : State Tid}
variable {caller : Caller Tid}

omit [DecidableEq Tid] in
/-- A caller in a control call is the only one. -/
theorem Control.isController
    {gstIns : WmIns}
    {evts : Nat → Option Int32}
    {created : Nat}
    {threads : Nat → Option Phase}
    {calls : Caller Tid → Pc}
    (control : Control gstIns evts created threads calls)
    (inCall : (calls caller).isControl = true) :
    (∀ other, other ≠ caller → (calls other).isControl = false) ∧
      (∃ tid, caller = .app tid) ∧
      Stage gstIns evts created threads (calls caller) := by
  obtain ⟨controller, alone, isApp, stage⟩ := control.controller
  have same : caller = controller := by
    by_contra different
    rw [alone caller different] at inCall
    cases inCall
  rw [same] at inCall ⊢
  exact ⟨alone, isApp inCall, stage⟩

omit [DecidableEq Tid] in
/-- Nothing is left of a thread that was joined. -/
theorem Sound.left_of_joined
    (sound : Sound state)
    (joined : AllJoined state.created state.threads) :
    Left state.handles state.files state.unwatched := by
  cases isCurrent : state.current with
  | none =>
      have resources := sound.resources
      rw [sound.resources.absent isCurrent, isCurrent] at resources
      exact resources.left resources.freed_of_null (by rintro m ⟨⟩)
  | some found =>
      obtain ⟨n, phase⟩ := found
      obtain ⟨_, stands⟩ := of_current_eq isCurrent
      have below : n < state.created := by
        by_contra notBelow
        rw [(sound.control.fresh n).mpr (Nat.not_lt.mp notBelow)] at stands
        cases stands
      have gone := joined n below
      rw [stands, Option.some.injEq] at gone
      have resources := sound.resources
      rw [isCurrent, gone] at resources
      exact resources.left (resources.freed_of_ended rfl)
        (by rintro m ⟨⟩)

/--
A step of a control call that leaves the threads alone, and of `gstIns` the
thread, the handle and the idle timer.
-/
theorem Sound.advance
    (sound : Sound state)
    (inCall : (state.calls caller).isControl = true)
    (pc : Pc)
    (readers :
      state.gstIns.loop = true →
        (state.calls caller).isStop = false →
        next.gstIns.loop = true ∧ pc.isStop = false)
    (looping :
      state.gstIns.loop = false →
        next.gstIns.loop = false ∨ state.gstIns.thrId = none)
    (notReading : pc ≠ .handleRead)
    (stage :
      Stage state.gstIns state.evts state.created state.threads
          (state.calls caller) →
        Stage next.gstIns next.evts state.created state.threads pc)
    (sameThread : next.gstIns.thrId = state.gstIns.thrId)
    (sameHandle : next.gstIns.handle = state.gstIns.handle)
    (sameIdle : next.gstIns.idleFd = state.gstIns.idleFd)
    (rest :
      next =
        { state with
          gstIns := next.gstIns
          evts := next.evts
          calls := Function.update state.calls caller pc }) :
    Sound next := by
  obtain ⟨alone, isApp, before⟩ := sound.control.isController inCall
  have control :
      Control next.gstIns next.evts state.created state.threads
        (Function.update state.calls caller pc) := by
    refine sound.control.advance alone (fun _ => isApp) notReading ?_
      sound.control.fresh sound.control.older ?_ (stage before) rfl
    · intro loops noStop _
      exact readers loops (noStop caller)
    · intro n phase isThread stands leaving
      rw [sameThread] at isThread
      have stopped := sound.control.looping isThread stands leaving
      obtain stops | noThread := looping stopped
      · exact stops
      · rw [noThread] at isThread
        cases isThread
  have resources := sound.resources
  rw [State.current, ← sameThread, ← sameHandle, ← sameIdle] at resources
  rw [rest]
  exact ⟨control, resources, sound.defined, sound.noFreed⟩

/-- `pthread_create` in `wm_epoll_start`. -/
theorem Sound.pthreadCreate
    (sound : Sound state)
    (stands : state.calls caller = .startCreate)
    {accepts : Bool}
    (permitted : accepts = true ∨ state.gstIns.evtHandle ≠ none) :
    Sound
      ((WmEpollLoop.pthreadCreate state accepts).goto caller
        .startWait) := by
  have inCall : (state.calls caller).isControl = true := by
    rw [stands]
    rfl
  obtain ⟨alone, isApp, stage⟩ := sound.control.isController inCall
  rw [stands] at stage
  obtain ⟨onlyEvt, ⟨isNew, joined⟩, zero⟩ := stage
  have loops : state.gstIns.loop = true := by rw [isNew]
  have noThread : state.gstIns.thrId = none := by rw [isNew]; rfl
  cases accepts with
  | false =>
      refine sound.advance inCall .startWait (fun _ _ => ⟨loops, rfl⟩)
        (fun _ => .inr noThread) (by rintro ⟨⟩) ?_ rfl rfl rfl rfl
      intro _
      refine ⟨onlyEvt, loops, .inr ⟨noThread, joined, ?_⟩, ?_⟩
      · exact permitted.resolve_left (by rintro ⟨⟩)
      · intro evt isEvt
        refine .inl ⟨zero evt isEvt, ?_⟩
        rintro ⟨n, phase, isThread, _⟩
        change state.gstIns.thrId = some n at isThread
        rw [noThread] at isThread
        cases isThread
  | true =>
      have isFree : state.threads state.created = none :=
        (sound.control.fresh _).mpr (Nat.le_refl _)
      have noCurrent : state.current = none := by
        rw [State.current, noThread]
        rfl
      have isCurrent :
          ((WmEpollLoop.pthreadCreate state true).goto caller
              .startWait).current =
            some (state.created, .create) :=
        current_eq rfl (Function.update_self ..)
      have threads :
          ((WmEpollLoop.pthreadCreate state true).goto caller
              .startWait).threads =
            Function.update state.threads state.created (some .create) :=
        rfl
      have created :
          ((WmEpollLoop.pthreadCreate state true).goto caller
              .startWait).created =
            state.created + 1 :=
        rfl
      refine ⟨?_, ?_, sound.defined, sound.noFreed⟩
      · rw [threads, created]
        refine sound.control.advance alone (fun _ => isApp)
          (by rintro ⟨⟩) (fun _ _ _ => ⟨loops, rfl⟩) ?_ ?_ ?_ ?_ rfl
        · intro n
          by_cases same : n = state.created
          · rw [same, Function.update_self]
            simp
          · rw [Function.update_of_ne same, sound.control.fresh n]
            omega
        · intro n below
          rw [Function.update_of_ne (by omega)]
          exact joined n (by omega)
        · rintro n phase ⟨⟩ there leaving
          rw [Function.update_self, Option.some.injEq] at there
          rw [← there] at leaving
          cases leaving
        · refine ⟨onlyEvt, loops, .inl ⟨state.created, .create, rfl, rfl,
            Function.update_self .., by rintro ⟨⟩⟩, ?_⟩
          intro evt isEvt
          refine .inl ⟨zero evt isEvt, ?_⟩
          rintro ⟨n, phase, ⟨⟩, there, signalled⟩
          rw [Function.update_self, Option.some.injEq] at there
          rw [← there] at signalled
          cases signalled
      · rw [isCurrent]
        have resources := sound.resources
        rw [noCurrent] at resources
        exact resources.spawn

/-- `pthread_join` in `wm_epoll_stop`. -/
theorem Sound.pthreadJoin
    (sound : Sound state)
    (stands : state.calls caller = .stopJoin)
    (stepped : pthreadJoin? state caller = some next) :
    Sound next := by
  have inCall : (state.calls caller).isControl = true := by
    rw [stands]
    rfl
  obtain ⟨alone, isApp, stage⟩ := sound.control.isController inCall
  rw [stands] at stage
  obtain ⟨none, stops, ⟨n, phase, isThread, last, there, alive⟩, _⟩ := stage
  have notSelf : caller ≠ .loop n := by
    obtain ⟨tid, rfl⟩ := isApp
    rintro ⟨⟩
  rw [pthreadJoin?, isThread] at stepped
  simp only [if_neg notSelf, there] at stepped
  have ended : phase = .finished ∧
      next = (state.enter n .joined).goto caller .stopMemset := by
    cases phase <;> simp_all
  obtain ⟨rfl, rfl⟩ := ended
  have isCurrent :
      ((state.enter n .joined).goto caller .stopMemset).current =
        some (n, .joined) :=
    current_eq isThread (Function.update_self ..)
  have threads :
      ((state.enter n .joined).goto caller .stopMemset).threads =
        Function.update state.threads n (some .joined) :=
    rfl
  have created :
      ((state.enter n .joined).goto caller .stopMemset).created =
        state.created :=
    rfl
  refine ⟨?_, ?_, sound.defined, sound.noFreed⟩
  · rw [threads, created]
    refine sound.control.advance alone (fun _ => isApp) (by rintro ⟨⟩)
      ?_ ?_ ?_ (fun _ _ _ => stops) ?_ rfl
    · intro loops
      rw [stops] at loops
      cases loops
    · intro m
      by_cases same : m = n
      · rw [same, Function.update_self]
        simp only [reduceCtorEq, false_iff, Nat.not_le]
        omega
      · rw [Function.update_of_ne same]
        exact sound.control.fresh m
    · intro m below
      rw [Function.update_of_ne (by omega)]
      exact sound.control.older m below
    · refine ⟨none, stops, ?_⟩
      intro m below
      by_cases same : m = n
      · rw [same]
        exact Function.update_self ..
      · rw [Function.update_of_ne same]
        exact sound.control.older m (by omega)
  · rw [isCurrent]
    have resources := sound.resources
    rw [current_eq isThread there] at resources
    exact (resources.left (resources.freed_of_ended rfl)
      (by rintro m ⟨⟩)).ended (.inr rfl)

/-- `memset` in `wm_epoll_stop`. -/
theorem Sound.memset
    (sound : Sound state)
    (stands : state.calls caller = .stopMemset) :
    Sound ((state.setIns WmIns.zero).goto caller .outside) := by
  have inCall : (state.calls caller).isControl = true := by
    rw [stands]
    rfl
  obtain ⟨alone, _, stage⟩ := sound.control.isController inCall
  rw [stands] at stage
  obtain ⟨none, stops, joined⟩ := stage
  refine ⟨?_, ?_, sound.defined, sound.noFreed⟩
  · refine sound.control.advance alone (by rintro ⟨⟩) (by rintro ⟨⟩)
      ?_ sound.control.fresh sound.control.older (by rintro n phase ⟨⟩)
      ?_ rfl
    · intro loops
      rw [stops] at loops
      cases loops
    · exact ⟨none, .inl ⟨rfl, joined⟩⟩
  · exact (sound.left_of_joined joined).zero

/-- Every step of a call keeps things in order. -/
theorem Sound.call
    (sound : Sound state)
    {answers : Answers}
    (permitted : Serial state (.call caller answers))
    (stepped : callStep? state caller answers = some next) :
    Sound next := by
  rw [callStep?] at stepped
  cases stands : state.calls caller <;> rw [stands] at stepped
  case outside =>
    cases stepped
  case startLoop =>
    cases stepped
    refine sound.advance (by rw [stands]; rfl) .startEvt
      (fun _ _ => ⟨rfl, rfl⟩) ?_ (by rintro ⟨⟩) ?_ rfl rfl rfl rfl
    · intro _
      have stage := (sound.control.isController (by rw [stands]; rfl)).2.2
      rw [stands] at stage
      rw [stage.2.1]
      exact .inr rfl
    · rw [stands]
      rintro ⟨none, isZero, joined⟩
      exact ⟨none, by rw [isZero]; rfl, joined⟩
  case startEvt =>
    simp only [Option.ite_none_right_eq_some, Option.some.injEq] at stepped
    obtain ⟨_, rfl⟩ := stepped
    cases memory : answers.memory with
    | none =>
        refine sound.advance (by rw [stands]; rfl) .startCreate
          (fun loops _ => ⟨loops, rfl⟩) (fun stops => .inl stops)
          (by rintro ⟨⟩) ?_ rfl rfl rfl rfl
        rw [stands]
        rintro ⟨none, isNew, joined⟩
        have noEvt : state.gstIns.evtHandle = Option.none := by
          rw [isNew]
          rfl
        refine ⟨fun evt _ => none evt, ⟨?_, joined⟩, ?_⟩
        · change state.gstIns =
            { WmIns.zero with
              loop := true
              evtHandle := state.gstIns.evtHandle }
          rw [noEvt, isNew]
          rfl
        · intro evt isEvt
          change state.gstIns.evtHandle = some evt at isEvt
          rw [noEvt] at isEvt
          cases isEvt
    | some evt =>
        refine sound.advance (by rw [stands]; rfl) .startCreate
          (fun loops _ => ⟨loops, rfl⟩) (fun stops => .inl stops)
          (by rintro ⟨⟩) ?_ rfl rfl rfl rfl
        rw [stands]
        rintro ⟨none, isNew, joined⟩
        refine ⟨?_, ⟨?_, joined⟩, ?_⟩
        · intro other different
          change Function.update _ _ _ _ = _
          rw [Function.update_of_ne (by
            rintro rfl
            exact different rfl)]
          exact none other
        · change ({ state.gstIns with evtHandle := some evt } : WmIns) = _
          rw [isNew]
          rfl
        · rintro other ⟨⟩
          exact Function.update_self ..
  case startCreate =>
    cases stepped
    exact sound.pthreadCreate stands (permitted stands)
  case startWait =>
    cases isEvt : state.gstIns.evtHandle with
    | none =>
        simp only [isEvt, Option.some.injEq] at stepped
        subst stepped
        refine sound.advance (by rw [stands]; rfl) .startDestroy
          (fun loops _ => ⟨loops, rfl⟩) (fun stops => .inl stops)
          (by rintro ⟨⟩) ?_ rfl rfl rfl rfl
        rw [stands]
        rintro ⟨onlyEvt, loops, runs | ⟨_, _, hasEvt⟩, _⟩
        · refine ⟨onlyEvt, ⟨loops, runs, .inr isEvt⟩, ?_⟩
          intro evt isOther
          change state.gstIns.evtHandle = some evt at isOther
          rw [isEvt] at isOther
          cases isOther
        · exact absurd isEvt hasEvt
    | some evt =>
        simp only [isEvt, Option.some.injEq] at stepped
        subst stepped
        refine sound.advance (by rw [stands]; rfl) (.startWaiting evt)
          (fun loops _ => ⟨loops, rfl⟩) (fun stops => .inl stops)
          (by rintro ⟨⟩) ?_ rfl rfl rfl rfl
        rw [stands]
        rintro ⟨onlyEvt, loops, shake⟩
        exact ⟨onlyEvt, ⟨loops, isEvt⟩, shake⟩
  case startWaiting evt =>
    obtain ⟨_, _, stage⟩ :=
      sound.control.isController (by rw [stands]; rfl)
    rw [stands] at stage
    obtain ⟨onlyEvt, ⟨loops, isEvt⟩, begun, values⟩ := stage
    obtain ⟨zero, _⟩ | ⟨one, signalled⟩ := values evt isEvt
    · simp only [evtMtxWaiting?, zero] at stepped
      cases stepped
    · simp only [evtMtxWaiting?, one, if_true, Option.some.injEq]
        at stepped
      subst stepped
      refine sound.advance (by rw [stands]; rfl) .startDestroy
        (fun loops _ => ⟨loops, rfl⟩) (fun stops => .inl stops)
        (by rintro ⟨⟩) ?_ rfl rfl rfl rfl
      intro _
      refine ⟨?_, ⟨loops, ?_, .inl signalled⟩, ?_⟩
      · intro other different
        change Function.update _ _ _ _ = _
        rw [Function.update_of_ne (by
          rintro rfl
          exact different isEvt)]
        exact onlyEvt other different
      · obtain ⟨n, _, isThread, _⟩ := signalled
        obtain runs | ⟨noThread, _⟩ := begun
        · exact runs
        · rw [noThread] at isThread
          cases isThread
      · intro other isOther
        change state.gstIns.evtHandle = some other at isOther
        rw [isEvt, Option.some.injEq] at isOther
        subst isOther
        change Function.update _ _ _ _ ≠ _
        rw [Function.update_self]
        rintro ⟨⟩
  case startDestroy =>
    cases stepped
    obtain ⟨_, _, stage⟩ :=
      sound.control.isController (by rw [stands]; rfl)
    rw [stands] at stage
    obtain ⟨onlyEvt, ⟨loops, runs, quiet⟩, used⟩ := stage
    rw [evtMtxDestroy]
    cases isEvt : state.gstIns.evtHandle with
    | none =>
        refine sound.advance (by rw [stands]; rfl) .outside
          (fun loops _ => ⟨loops, rfl⟩) (fun stops => .inl stops)
          (by rintro ⟨⟩) ?_ rfl rfl rfl rfl
        intro _
        refine ⟨fun evt => onlyEvt evt ?_, .inr ⟨loops, runs, quiet⟩⟩
        rw [isEvt]
        rintro ⟨⟩
    | some evt =>
        obtain ⟨value, found⟩ :=
          Option.ne_none_iff_exists'.mp (used evt isEvt)
        simp only [found]
        refine sound.advance (by rw [stands]; rfl) .outside
          (fun loops _ => ⟨loops, rfl⟩) (fun stops => .inl stops)
          (by rintro ⟨⟩) ?_ rfl rfl rfl rfl
        intro _
        refine ⟨?_, .inr ⟨loops, runs, quiet⟩⟩
        intro other
        change Function.update _ _ _ _ = _
        by_cases same : other = evt
        · rw [same, Function.update_self]
        · rw [Function.update_of_ne same]
          apply onlyEvt other
          rw [isEvt]
          rintro ⟨⟩
          exact same rfl
  case stopLoop =>
    cases stepped
    refine sound.advance (by rw [stands]; rfl) .stopTimer ?_
      (fun _ => .inl rfl) (by rintro ⟨⟩) ?_ rfl rfl rfl rfl
    · rw [stands]
      rintro _ ⟨⟩
    · rw [stands]
      rintro ⟨none, _, runs, quiet⟩
      exact ⟨none, rfl, runs, quiet⟩
  case stopTimer =>
    cases stepped
    have moved : Sound (state.goto caller .stopJoin) := by
      refine sound.advance (by rw [stands]; rfl) .stopJoin ?_
        (fun stops => .inl stops) (by rintro ⟨⟩) ?_ rfl rfl rfl rfl
      · rw [stands]
        rintro _ ⟨⟩
      · rw [stands]
        exact id
    refine ⟨moved.control, ?_, moved.defined, moved.noFreed⟩
    obtain failed | ⟨old, opener, isTimer, _, set⟩ :=
      wmEpollTimerSet_cases state.files state.gstIns.idleFd 10 10
    · change Resources _ _ _
        (wmEpollTimerSet state.files state.gstIns.idleFd 10 10).1 _ _
      rw [failed]
      exact moved.resources
    · change Resources _ _ _
        (wmEpollTimerSet state.files state.gstIns.idleFd 10 10).1 _ _
      rw [set]
      exact moved.resources.setTimer isTimer
        ((armed_itimerspecOf 10 10).mpr (by decide))
  case stopJoin =>
    exact sound.pthreadJoin stands stepped
  case stopMemset =>
    cases stepped
    exact sound.memset stands
  case handleRead =>
    cases stepped
    obtain ⟨loops, _⟩ := sound.control.reads stands
    refine ⟨?_, sound.resources, sound.defined, ?_⟩
    · exact sound.control.other (by rw [stands]; rfl) rfl
        (by rintro ⟨⟩) rfl
    · change (state.gaveFreed || _) = false
      rw [sound.noFreed]
      cases isHandle : state.gstIns.handle with
      | none =>
          rfl
      | some address =>
          obtain ⟨epoll, found⟩ := sound.held loops isHandle
          simp only [found]
          rfl

omit [DecidableEq Tid] in
/-- A call begins. -/
theorem sound_enterCall
    {called : State Tid → Caller Tid → State Tid}
    (stepped : WmEpollLoop.enterCall state caller called = some next)
    (begins : state.calls caller = .outside → Sound (called state caller)) :
    Sound next := by
  rw [WmEpollLoop.enterCall, Option.ite_none_right_eq_some,
    Option.some.injEq] at stepped
  obtain ⟨⟨outside, _⟩, rfl⟩ := stepped
  exact begins outside

/-- A control call begins where none is running. -/
theorem Sound.control_call
    (sound : Sound state)
    (isApp : ∃ tid, caller = .app tid)
    (alone : ∀ other, (state.calls other).isControl = false)
    (pc : Pc)
    (notReading : pc ≠ .handleRead)
    (readers :
      state.gstIns.loop = true →
        (∃ other, state.calls other = .handleRead) →
          pc.isStop = false)
    (stage :
      Stage state.gstIns state.evts state.created state.threads .outside →
        Stage state.gstIns state.evts state.created state.threads pc) :
    Sound (state.goto caller pc) := by
  refine ⟨?_, sound.resources, sound.defined, sound.noFreed⟩
  refine sound.control.advance (fun other _ => alone other)
    (fun _ => isApp) notReading ?_ sound.control.fresh
    sound.control.older sound.control.looping ?_ rfl
  · rintro loops _ ⟨other, _, reads⟩
    exact ⟨loops, readers loops ⟨other, reads⟩⟩
  · apply stage
    obtain ⟨controller, _, _, before⟩ := sound.control.controller
    have free := alone controller
    cases stands : state.calls controller <;> rw [stands] at before free
    case outside | handleRead =>
      exact before
    all_goals cases free

omit [DecidableEq Tid] in
/-- What the application does with descriptors keeps things in order. -/
theorem Sound.setHead
    (sound : Sound state)
    {address : Nat}
    {epoll : WmEpollT}
    (found : state.handles address = some epoll)
    (head : List Int32)
    (keeps :
      ∀ {fd kind n},
        state.files fd = some ⟨kind, some n⟩ →
        fd ∈ epoll.head →
        fd ∈ head) :
    Sound (state.setHandle address (some { epoll with head })) :=
  ⟨sound.control, sound.resources.setHead found head keeps,
    sound.defined, sound.noFreed⟩

omit [DecidableEq Tid] in
/-- The application opens or closes a descriptor of its own. -/
theorem Sound.setFile
    (sound : Sound state)
    {fd : Int32}
    {file : Option OpenFile}
    (nonneg : 0 ≤ fd)
    (before : ∀ kind n, state.files fd ≠ some ⟨kind, some n⟩)
    (after : ∀ kind n, file ≠ some ⟨kind, some n⟩) :
    Sound (state.setFile fd file) := by
  refine ⟨sound.control, ?_, sound.defined, sound.noFreed⟩
  apply sound.resources.setFiles
  · intro other new found
    obtain ⟨rfl, _⟩ | ⟨_, there⟩ := update_cases found
    · exact nonneg
    · exact sound.resources.numbers there
  · intro other kind n
    change Function.update state.files fd file other = _ ↔ _
    by_cases same : other = fd
    · rw [same, Function.update_self]
      exact ⟨fun found => absurd found (after kind n),
        fun found => absurd found (before kind n)⟩
    · rw [Function.update_of_ne same]

omit [DecidableEq Tid] in
/-- A descriptor of the application is no loop thread's. -/
theorem of_owns
    {fd : Int32}
    (owns : state.owns fd = true) :
    ∃ kind, state.files fd = some ⟨kind, none⟩ := by
  rw [State.owns] at owns
  cases found : state.files fd with
  | none =>
      rw [found] at owns
      cases owns
  | some file =>
      obtain ⟨kind, opener⟩ := file
      rw [found] at owns
      cases opener with
      | none =>
          exact ⟨kind, rfl⟩
      | some n =>
          cases owns

/-- Every permitted step keeps things in order. -/
theorem Sound.step
    (sound : Sound state)
    {action : Action Tid}
    (permitted : Serial state action)
    (stepped : machine.step? state action = some next) :
    Sound next := by
  change step? state action = some next at stepped
  cases action with
  | start caller =>
      obtain ⟨isApp, alone⟩ := permitted
      apply sound_enterCall stepped
      intro _
      rw [wmEpollStart]
      by_cases loops : state.gstIns.loop = true
      · rw [if_pos loops]
        exact sound
      · rw [if_neg loops]
        apply sound.control_call isApp alone
        · rintro ⟨⟩
        · rintro _ _
          rfl
        · rintro ⟨none, ⟨isZero, joined⟩ | ⟨loops', _⟩⟩
          · exact ⟨none, isZero, joined⟩
          · exact absurd loops' loops
  | stop caller =>
      obtain ⟨isApp, alone⟩ := permitted
      apply sound_enterCall stepped
      intro _
      rw [wmEpollStop]
      by_cases loops : state.gstIns.loop = true
      · rw [if_pos loops]
        apply sound.control_call isApp
          (fun other => by rw [alone other]; rfl)
        · rintro ⟨⟩
        · rintro _ ⟨other, reads⟩
          rw [alone other] at reads
          cases reads
        · rintro ⟨none, ⟨isZero, _⟩ | ⟨_, runs, quiet⟩⟩
          · rw [isZero] at loops
            cases loops
          · exact ⟨none, loops, runs, quiet⟩
      · rw [if_neg loops]
        exact sound
  | handle caller =>
      apply sound_enterCall stepped
      intro outside
      rw [wmEpollHandle]
      by_cases loops : state.gstIns.loop = true
      · rw [if_pos loops]
        exact ⟨sound.control.other (by rw [outside]; rfl) rfl
          (fun _ => ⟨loops, permitted⟩) rfl, sound.resources,
          sound.defined, sound.noFreed⟩
      · rw [if_neg loops]
        exact sound
  | call caller answers =>
      exact sound.call permitted stepped
  | loop n answers =>
      exact sound.loop stepped
  | openFd fd kind =>
      rw [step?, Option.ite_none_right_eq_some, Option.some.injEq]
        at stepped
      obtain ⟨⟨nonneg, free⟩, rfl⟩ := stepped
      apply sound.setFile nonneg
      · intro kind' n found
        rw [free] at found
        cases found
      · rintro kind' n ⟨⟩
  | closeFd fd =>
      rw [step?, Option.ite_none_right_eq_some, Option.some.injEq]
        at stepped
      obtain ⟨⟨owns, _⟩, rfl⟩ := stepped
      obtain ⟨kind, found⟩ := of_owns owns
      apply sound.setFile (sound.resources.numbers found)
      · intro kind' n isLoop
        rw [found] at isLoop
        cases isLoop
      · rintro kind' n ⟨⟩
  | addFd caller address fd =>
      rw [step?, Option.ite_none_right_eq_some] at stepped
      obtain ⟨_, mapped⟩ := stepped
      obtain ⟨epoll, found, rfl⟩ := Option.map_eq_some_iff.mp mapped
      rw [addFd]
      split
      · exact sound
      · exact sound.setHead found _
          (fun _ member => List.mem_cons_of_mem fd member)
  | removeFd caller address fd =>
      rw [step?, Option.ite_none_right_eq_some] at stepped
      obtain ⟨⟨_, owns⟩, mapped⟩ := stepped
      obtain ⟨epoll, found, rfl⟩ := Option.map_eq_some_iff.mp mapped
      apply sound.setHead found
      intro other kind n isLoop member
      obtain ⟨own, isOpen⟩ := of_owns owns
      apply (List.mem_erase_of_ne _).mpr member
      rintro rfl
      rw [isOpen] at isLoop
      cases isLoop

/-- The process starts in order. -/
theorem sound_initial
    (initial : machine.Initial state) :
    Sound state := by
  obtain ⟨files, ownFiles, rfl⟩ := initial
  refine ⟨⟨?_, ?_, ?_, ?_, ?_⟩, ?_, rfl, rfl⟩
  · intro n
    simp
  · rintro n ⟨⟩
  · rintro n phase ⟨⟩
  · rintro caller ⟨⟩
  · refine ⟨.loop 0, fun _ _ => rfl, ?_, fun _ => rfl,
      .inl ⟨rfl, ?_⟩⟩
    · rintro ⟨⟩
    · rintro n ⟨⟩
  · have left : Left (fun _ => none) files [] := by
      refine ⟨fun _ => rfl, fun found => (ownFiles _ _ found).1, ?_⟩
      intro fd kind n found
      have own := (ownFiles _ _ found).2
      cases own
    exact left.zero

/-- Every run with ordered calls keeps things in order. -/
theorem Sound.of_reachable
    (reachable : machine.ReachableWhere Serial state) :
    Sound state :=
  reachable.invariant sound_initial
    (fun sound permitted stepped => sound.step permitted stepped)

end Calls

section Lifecycle

variable {Tid : Type} [DecidableEq Tid]
variable {state : State Tid}

/-- A caller that moves on is at its new place. -/
theorem goto_calls_self
    (state : State Tid)
    (caller : Caller Tid)
    (pc : Pc) :
    (state.goto caller pc).calls caller = pc :=
  Function.update_self ..

/-- A caller that moves on moves nobody else. -/
theorem goto_calls_of_ne
    (state : State Tid)
    (pc : Pc)
    {caller other : Caller Tid}
    (different : other ≠ caller) :
    (state.goto caller pc).calls other = state.calls other :=
  Function.update_of_ne different ..

/-- A thread that has not finished `ep_thread`. -/
def State.Lives (state : State Tid) (n : Nat) : Prop :=
  ∃ phase,
    state.threads n = some phase ∧ phase ≠ .finished ∧ phase ≠ .joined

/--
The loop runs: one thread, set up or on its way, and its handle; or no handle at
all, where `wm_epoll_create` has failed or is still to run.
-/
def State.On (state : State Tid) : Prop :=
  state.gstIns.loop = true ∧
    ∃ n,
      state.gstIns.thrId = some n ∧ state.Lives n ∧
        ((∃ address epoll,
            state.gstIns.handle = some address ∧
              state.handles address = some epoll) ∨
          state.gstIns.handle = none ∧
            ∀ address, state.handles address = none)

/-- Nothing of a loop is there, but idle timers that no handle has taken. -/
def State.Off (state : State Tid) : Prop :=
  state.gstIns = WmIns.zero ∧ (∀ n, ¬ state.Lives n) ∧
    (∀ address, state.handles address = none) ∧
    (∀ evt, state.evts evt = none) ∧
    ∀ fd kind n,
      state.files fd = some ⟨kind, some n⟩ →
      (∃ its, kind = .timer its) ∧ n ∈ state.unwatched

omit [DecidableEq Tid] in
/-- Where every thread is joined, none lives. -/
theorem AllJoined.not_lives
    (sound : Sound state)
    (joined : AllJoined state.created state.threads)
    (n : Nat) :
    ¬ state.Lives n := by
  rintro ⟨phase, stands, _, alive⟩
  obtain ⟨_, last⟩ := sound.control.current stands alive
  exact joined.not_alive last stands alive

omit [DecidableEq Tid] in
/-- Between the control calls the loop is on or off altogether. -/
theorem Sound.on_or_off
    (sound : Sound state)
    (free : ∀ caller, (state.calls caller).isControl = false) :
    state.On ∨ state.Off := by
  obtain ⟨controller, _, _, stage⟩ := sound.control.controller
  have rest :
      Stage state.gstIns state.evts state.created state.threads
        .outside := by
    have freeController := free controller
    cases stands : state.calls controller <;>
      rw [stands] at stage freeController
    case outside | handleRead =>
      exact stage
    all_goals cases freeController
  obtain ⟨noEvts, ⟨isZero, joined⟩ | ⟨loops, runs, _⟩⟩ := rest
  · right
    have left := sound.left_of_joined joined
    refine ⟨isZero, joined.not_lives sound, left.freed, noEvts, ?_⟩
    intro fd kind n isOpen
    obtain ⟨⟨its, isTimer, _⟩, isUnwatched⟩ := left.idle isOpen
    exact ⟨⟨its, isTimer⟩, isUnwatched⟩
  · left
    obtain ⟨n, phase, isThread, _, stands, alive⟩ := runs
    refine ⟨loops, n, isThread, ⟨phase, stands, ?_, alive⟩, ?_⟩
    · rintro rfl
      have stops := sound.control.looping isThread stands rfl
      rw [loops] at stops
      cases stops
    · cases isHandle : state.gstIns.handle with
      | none =>
          have resources := sound.resources
          rw [isHandle] at resources
          exact .inr ⟨rfl, resources.freed_of_null⟩
      | some address =>
          obtain ⟨epoll, found⟩ := sound.held loops isHandle
          exact .inl ⟨address, epoll, rfl, found⟩

/--
In every run with ordered calls no freed `wm_epoll_t` or `evt_t` is used, no
freed handle is given away and at most one loop thread lives; and whenever no
start and no stop is running, the loop is on or off altogether.
-/
theorem one_loop_at_a_time
    (reachable : machine.ReachableWhere Serial state) :
    (state.undefined = false ∧ state.gaveFreed = false) ∧
      (∀ n m, state.Lives n → state.Lives m → n = m) ∧
      ((∀ caller, (state.calls caller).isControl = false) →
        state.On ∨ state.Off) := by
  have sound := Sound.of_reachable reachable
  refine ⟨⟨sound.defined, sound.noFreed⟩, ?_, sound.on_or_off⟩
  rintro n m ⟨_, stands, _, alive⟩ ⟨_, stands', _, alive'⟩
  obtain ⟨_, last⟩ := sound.control.current stands alive
  obtain ⟨_, last'⟩ := sound.control.current stands' alive'
  omega

/-- A process with standard input open. -/
def sampleState : State Unit where
  gstIns := WmIns.zero
  handles := fun _ => none
  evts := fun _ => none
  files := Function.update (fun _ => none) 0 (some ⟨.other, none⟩)
  created := 0
  threads := fun _ => none
  calls := fun _ => .outside
  undefined := false
  given := []
  gaveFreed := false
  unwatched := []

theorem sampleState_initial : machine.Initial sampleState := by
  refine ⟨Function.update (fun _ => none) 0 (some ⟨.other, none⟩), ?_, rfl⟩
  intro fd file found
  obtain ⟨rfl, new⟩ | ⟨_, before⟩ := update_cases found
  · rw [Option.some.injEq] at new
    exact ⟨by decide, by rw [← new]⟩
  · cases before

/-- Answers of a kernel that refuses nothing. -/
def grants (memory : Nat) (fd : Int32) (ready : List Int32) : Answers where
  memory := some memory
  fd := some fd
  accepts := true
  ready := ready

/-- The steps of a start with its handshake, up to a first wake-up. -/
def sampleStart : List (Action Unit) :=
  [
    .call (.app ()) (grants 0 0 []), .call (.app ()) (grants 0 0 []),
    .call (.app ()) (grants 0 0 []), .call (.app ()) (grants 0 0 []),
    .loop 0 (grants 0 3 []), .loop 0 (grants 0 4 []),
    .loop 0 (grants 0 0 []), .loop 0 (grants 0 0 []),
    .call (.app ()) (grants 0 0 []), .call (.app ()) (grants 0 0 []),
    .loop 0 (grants 0 0 []), .loop 0 (grants 0 0 []),
    .loop 0 (grants 0 0 [4])
  ]

/-- A step of a loop thread, or of a call that `pthread_create` serves. -/
def Action.isStep : Action Tid → Bool
  | .loop .. =>
      true
  | .call _ answers =>
      answers.accepts
  | .start _ | .stop _ | .handle _ | .openFd .. | .closeFd _ | .addFd ..
  | .removeFd .. =>
      false

/-- Such steps are always in order. -/
theorem respects_steps
    (state : State Tid)
    {actions : List (Action Tid)}
    (steps : ∀ action ∈ actions, action.isStep = true) :
    machine.Respects Serial state actions := by
  apply (machine.respects_of_forall steps state).mono
  intro state action isStep
  cases action with
  | loop n answers =>
      trivial
  | call caller answers =>
      exact fun _ => .inl isStep
  | start _ | stop _ | handle _ | openFd _ _ | closeFd _ | addFd _ _ _
  | removeFd _ _ _ =>
      cases isStep

/-- After a start the thread that it has created is the only one. -/
theorem one_loop_at_a_time_started :
    ∃ state : State Unit,
      (state.gstIns.loop = true ∧ state.threads 0 = some (.dispatch [4])) ∧
        ∀ m, state.Lives m → m = 0 := by
  obtain ⟨state, reachable, checked⟩ :=
    Machine.ReachableWhere.exists_of_run machine Serial sampleState
      (.start (.app ()) :: sampleStart)
      (fun state =>
        decide (state.gstIns.loop = true ∧
          state.threads 0 = some (.dispatch [4])))
      sampleState_initial
      ⟨⟨⟨(), rfl⟩, fun _ => rfl⟩,
        fun next _ => respects_steps next (by decide)⟩
      (by decide)
  rw [decide_eq_true_iff] at checked
  refine ⟨state, checked, ?_⟩
  intro m lives
  exact (one_loop_at_a_time reachable).2.1 m 0 lives
    ⟨_, checked.2, by rintro ⟨⟩, by rintro ⟨⟩⟩

end Lifecycle

end WkcRuntime.WmEpollLoop
