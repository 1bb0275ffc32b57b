import WkcRuntime.WmEpollLoopRuns

namespace WkcRuntime.WmEpollLoop

/-!
# Starts and stops return

A start waits until the thread has reported, a stop until the thread is gone.
Whatever the kernel answers, the thread reports with its fourth step, and once
the flag is down its steps are numbered by a rank.  Two failures keep a caller
waiting: a `pthread_create` that gives no thread, and a `wm_epoll_add` that
does not take the idle timer.
-/

section Ranks

/-- The steps until the thread has reported. -/
def Phase.untilReport : Phase → Nat
  | .create =>
      4
  | .openTimer =>
      3
  | .add =>
      2
  | .signal =>
      1
  | .testLoop | .callWait | .epollWait _ | .dispatch _ | .destroy
  | .closing _ | .finished | .joined =>
      0

/-- The steps to the end, without those that close events. -/
def Phase.rank : Phase → Nat
  | .create =>
      8
  | .openTimer =>
      7
  | .add =>
      6
  | .signal =>
      4
  | .callWait =>
      6 + maxEvents
  | .epollWait _ =>
      5 + maxEvents
  | .dispatch ready =>
      4 + ready.length
  | .testLoop =>
      3
  | .destroy =>
      2
  | .closing _ =>
      1
  | .finished | .joined =>
      0

variable {Tid : Type}

/-- The number of events of the current handle. -/
def State.eventCount (state : State Tid) : Nat :=
  match state.gstIns.handle with
  | none =>
      0
  | some handle =>
      match state.handles handle with
      | none =>
          0
      | some epoll =>
          epoll.head.length

/-- The steps that a thread takes at most once the flag is down. -/
def State.rank (state : State Tid) (n : Nat) : Nat :=
  match state.threads n with
  | none =>
      0
  | some phase =>
      phase.rank + state.eventCount

variable {state next : State Tid}

/-- The events of a live handle. -/
theorem eventCount_of_handle
    {address : Nat}
    {epoll : WmEpollT}
    (isHandle : state.gstIns.handle = some address)
    (found : state.handles address = some epoll) :
    state.eventCount = epoll.head.length := by
  simp only [State.eventCount, isHandle, found]

/-- A null handle has no events. -/
theorem eventCount_of_null (isNull : state.gstIns.handle = none) :
    state.eventCount = 0 := by
  simp only [State.eventCount, isNull]

/-- What one step of a loop thread brings. -/
structure Progress
    (state next : State Tid)
    (n : Nat)
    (phase phase' : Phase) :
    Prop where
  calls : next.calls = state.calls
  thread : next.gstIns.thrId = state.gstIns.thrId
  before : state.threads n = some phase
  after : next.threads n = some phase'
  report : phase'.untilReport ≤ phase.untilReport - 1
  rank :
    state.gstIns.loop = false →
    phase'.rank + next.eventCount < phase.rank + state.eventCount

/-- A thread that only moves makes progress by its phases. -/
theorem Progress.of_enter
    {n : Nat}
    {phase phase' : Phase}
    (stands : state.threads n = some phase)
    (report : phase'.untilReport ≤ phase.untilReport - 1)
    (rank : state.gstIns.loop = false → phase'.rank < phase.rank) :
    Progress state (state.enter n phase') n phase phase' where
  calls := rfl
  thread := rfl
  before := stands
  after := Function.update_self ..
  report := report
  rank := fun stops => Nat.add_lt_add_right (rank stops) _

/-- Adding the idle timer adds one event at most. -/
theorem progress_loopAdd
    {n : Nat}
    (stands : state.threads n = some .add)
    (accepts : Bool) :
    Progress state ((loopAdd state n accepts).enter n .signal) n .add
      .signal := by
  have kept :
      ∀ {added : State Tid},
        added.calls = state.calls →
        added.gstIns.thrId = state.gstIns.thrId →
        added.eventCount ≤ state.eventCount + 1 →
        Progress state (added.enter n .signal) n .add .signal := by
    intro added calls thread few
    refine ⟨calls, thread, stands, Function.update_self .., Nat.le_refl _, ?_⟩
    intro _
    change 4 + added.eventCount < 6 + state.eventCount
    omega
  rw [loopAdd]
  cases isHandle : state.gstIns.handle with
  | none =>
      exact kept rfl rfl (Nat.le_succ state.eventCount)
  | some address =>
      simp only
      cases found : state.handles address with
      | none =>
          exact kept rfl rfl (Nat.le_succ state.eventCount)
      | some epoll =>
          simp only
          split
          · rw [WmEpollLoop.addFd]
            split
            · exact kept rfl rfl (Nat.le_succ state.eventCount)
            · have longer :=
                @eventCount_of_handle Tid
                  (state.setHandle address
                    (some
                      { epoll with
                        head := state.gstIns.idleFd :: epoll.head }))
                  address _ isHandle (Function.update_self ..)
              refine @kept (state.setHandle address _) rfl rfl ?_
              rw [longer, eventCount_of_handle isHandle found]
              exact Nat.le_refl _
          · exact kept rfl rfl (Nat.le_succ state.eventCount)

/-- Every step of `wm_epoll_destroy` closes an event, or is the last one. -/
theorem progress_loopClosing
    {n address : Nat}
    {epoll : WmEpollT}
    (stands : state.threads n = some (.closing address))
    (isHandle : state.gstIns.handle = some address)
    (found : state.handles address = some epoll) :
    ∃ phase',
      Progress state (loopClosing state n address) n (.closing address)
        phase' := by
  obtain ⟨fd, head⟩ := epoll
  have count := eventCount_of_handle isHandle found
  rw [loopClosing]
  cases head with
  | nil =>
      simp only [found]
      refine ⟨.finished, rfl, rfl, stands, Function.update_self ..,
        Nat.le_refl _, ?_⟩
      intro _
      rw [count]
      have gone :
          (((state.setFile fd none).setHandle address none).enter n
            .finished).eventCount = 0 := by
        simp only [State.eventCount]
        change (match state.gstIns.handle with
          | none => 0
          | some handle => _) = 0
        rw [isHandle]
        simp only
        change (match Function.update state.handles address none address with
          | none => 0
          | some epoll => _) = 0
        rw [Function.update_self]
      rw [gone]
      exact Nat.lt_succ_self 0
  | cons pos rest =>
      simp only [found]
      refine ⟨.closing address, rfl, rfl, stands, stands, Nat.le_refl _, ?_⟩
      intro _
      rw [count]
      have fewer :=
        @eventCount_of_handle Tid
          ((state.setFile pos none).setHandle address
            (some ⟨fd, rest⟩))
          address ⟨fd, rest⟩ isHandle (Function.update_self ..)
      rw [fewer]
      exact Nat.add_lt_add_left (Nat.lt_succ_self _) _

end Ranks

section Steps

variable {Tid : Type}
variable {state next : State Tid}
variable {n : Nat}
variable {answers : Answers}

/-- Every step of a loop thread makes progress. -/
theorem progress_of_step
    (sound : Sound state)
    (stepped : loopStep? state n answers = some next) :
    ∃ phase phase', Progress state next n phase phase' := by
  rw [loopStep?] at stepped
  cases stands : state.threads n with
  | none =>
      rw [stands] at stepped
      cases stepped
  | some phase =>
      rw [stands] at stepped
      cases phase with
      | create =>
          simp only [Option.ite_none_right_eq_some, Option.some.injEq]
            at stepped
          obtain ⟨_, rfl⟩ := stepped
          obtain ⟨isThread, _⟩ :=
            sound.control.current stands (by rintro ⟨⟩)
          have isNull :=
            sound.resources.unborn (current_eq isThread stands)
          refine ⟨.create, .openTimer, ?_, ?_, stands,
            Function.update_self .., Nat.le_refl _, ?_⟩
          · cases memory : answers.memory <;>
              cases opened : answers.fd <;> rfl
          · cases memory : answers.memory <;>
              cases opened : answers.fd <;> rfl
          · intro _
            have none :
                ((loopCreate state n answers.memory answers.fd).enter n
                  .openTimer).eventCount = 0 := by
              cases memory : answers.memory with
              | none =>
                  exact eventCount_of_null isNull
              | some address =>
                  cases opened : answers.fd with
                  | none =>
                      exact eventCount_of_null isNull
                  | some fd =>
                      exact
                        @eventCount_of_handle Tid
                          ((loopCreate state n (some address)
                            (some fd)).enter n .openTimer)
                          address ⟨fd, []⟩ rfl (Function.update_self ..)
            rw [none]
            exact Nat.lt_of_lt_of_le (by decide) (Nat.le_add_right _ _)
      | openTimer =>
          simp only [Option.ite_none_right_eq_some, Option.some.injEq]
            at stepped
          obtain ⟨_, rfl⟩ := stepped
          refine ⟨.openTimer, .add, rfl, rfl, stands, Function.update_self ..,
            Nat.le_refl _, ?_⟩
          intro _
          exact Nat.add_lt_add_right (by decide) _
      | add =>
          cases stepped
          exact ⟨_, _, progress_loopAdd stands _⟩
      | signal =>
          cases stepped
          refine ⟨.signal, .testLoop, ?_, ?_, stands,
            Function.update_self .., Nat.le_refl _, ?_⟩
          · rw [loopSignal]
            repeat' split
            all_goals rfl
          · rw [loopSignal]
            repeat' split
            all_goals rfl
          · intro _
            have same : (loopSignal state).eventCount = state.eventCount := by
              rw [loopSignal]
              repeat' split
              all_goals rfl
            change 3 + (loopSignal state).eventCount <
              4 + state.eventCount
            rw [same]
            omega
      | testLoop =>
          simp only at stepped
          by_cases loops : state.gstIns.loop = true
          · rw [if_pos loops] at stepped
            cases stepped
            refine ⟨_, _, .of_enter stands (Nat.le_refl _) ?_⟩
            intro stops
            rw [loops] at stops
            cases stops
          · rw [if_neg loops] at stepped
            cases stepped
            exact ⟨_, _, .of_enter stands (Nat.le_refl _)
              (fun _ => by simp [Phase.rank])⟩
      | callWait =>
          simp only at stepped
          cases isHandle : state.gstIns.handle with
          | none =>
              rw [isHandle] at stepped
              cases stepped
              exact ⟨_, _, .of_enter stands (Nat.le_refl _)
                (fun _ => by simp [Phase.rank, maxEvents])⟩
          | some address =>
              rw [isHandle] at stepped
              cases stepped
              exact ⟨_, _, .of_enter stands (Nat.le_refl _)
                (fun _ => Nat.lt_succ_self _)⟩
      | epollWait address =>
          obtain ⟨isThread, _⟩ :=
            sound.control.current stands (by rintro ⟨⟩)
          have isCurrent := current_eq isThread stands
          obtain ⟨epoll, found⟩ :=
            sound.resources.held (sound.resources.entered isCurrent rfl)
              isCurrent rfl
          simp only [loopWait?, found] at stepped
          cases isReady : answers.ready with
          | nil =>
              rw [isReady] at stepped
              cases stepped
              exact ⟨_, _, .of_enter stands (Nat.le_refl _)
                (fun _ => by simp [Phase.rank, maxEvents])⟩
          | cons first rest =>
              rw [isReady] at stepped
              simp only [Option.ite_none_right_eq_some,
                Option.some.injEq] at stepped
              obtain ⟨⟨_, few, _⟩, rfl⟩ := stepped
              refine ⟨_, _, .of_enter stands (Nat.le_refl _) ?_⟩
              intro _
              change 4 + (first :: rest).length < 5 + maxEvents
              omega
      | dispatch ready =>
          cases ready with
          | nil =>
              cases stepped
              exact ⟨_, _, .of_enter stands (Nat.le_refl _)
                (fun _ => by simp [Phase.rank])⟩
          | cons fd rest =>
              simp only [Option.ite_none_right_eq_some,
                Option.some.injEq] at stepped
              obtain ⟨_, rfl⟩ := stepped
              exact ⟨_, _, .of_enter stands (Nat.le_refl _)
                (fun _ => Nat.lt_succ_self _)⟩
      | destroy =>
          simp only at stepped
          cases isHandle : state.gstIns.handle with
          | none =>
              rw [isHandle] at stepped
              cases stepped
              exact ⟨_, _, .of_enter stands (Nat.le_refl _)
                (fun _ => by simp [Phase.rank])⟩
          | some address =>
              rw [isHandle] at stepped
              cases stepped
              exact ⟨_, _, .of_enter stands (Nat.le_refl _)
                (fun _ => by simp [Phase.rank])⟩
      | closing address =>
          cases stepped
          obtain ⟨isThread, _⟩ :=
            sound.control.current stands (by rintro ⟨⟩)
          have isCurrent := current_eq isThread stands
          have isHandle := sound.resources.entered isCurrent rfl
          obtain ⟨epoll, found⟩ :=
            sound.resources.held isHandle isCurrent rfl
          obtain ⟨phase', progress⟩ :=
            progress_loopClosing stands isHandle found
          exact ⟨_, phase', progress⟩
      | finished | joined =>
          cases stepped

/--
A thread that is not finished can take a step; in `epoll_wait` its idle timer
wakes it, unless `wm_epoll_add` has refused that timer.
-/
theorem exists_step
    (sound : Sound state)
    {phase : Phase}
    (stands : state.threads n = some phase)
    (outside :
      ∀ fd rest,
        phase = .dispatch (fd :: rest) →
        state.calls (.loop n) = .outside)
    (going : phase ≠ .finished ∧ phase ≠ .joined) :
    (∃ more next,
        loopStep? state n more = some next ∧
          ∀ address,
            phase = .epollWait address →
            more.ready = [state.gstIns.idleFd]) ∨
      n ∈ state.unwatched ∧ ∃ address, phase = .epollWait address := by
  have steps :
      ∀ {next},
        (∀ address, phase ≠ .epollWait address) →
        loopStep? state n ⟨none, none, false, []⟩ = some next →
        ∃ more next,
          loopStep? state n more = some next ∧
            ∀ address,
              phase = .epollWait address →
              more.ready = [state.gstIns.idleFd] :=
    fun elsewhere stepped =>
      ⟨_, _, stepped, fun address there => absurd there (elsewhere address)⟩
  cases phase with
  | finished =>
      exact absurd rfl going.1
  | joined =>
      exact absurd rfl going.2
  | create =>
      left
      apply steps (by rintro _ ⟨⟩)
      simp only [loopStep?, stands]
      rw [if_pos ⟨by simp, by rintro _ ⟨⟩⟩]
  | openTimer =>
      left
      apply steps (by rintro _ ⟨⟩)
      simp only [loopStep?, stands]
      rw [if_pos (by rintro _ ⟨⟩)]
  | add | signal | closing _ =>
      left
      apply steps (by rintro _ ⟨⟩)
      simp only [loopStep?, stands]
      rfl
  | testLoop =>
      left
      by_cases loops : state.gstIns.loop = true
      · apply steps (by rintro _ ⟨⟩)
        simp only [loopStep?, stands, if_pos loops]
        rfl
      · apply steps (by rintro _ ⟨⟩)
        simp only [loopStep?, stands, if_neg loops]
        rfl
  | callWait | destroy =>
      left
      cases isHandle : state.gstIns.handle with
      | none =>
          apply steps (by rintro _ ⟨⟩)
          simp only [loopStep?, stands, isHandle]
          rfl
      | some address =>
          apply steps (by rintro _ ⟨⟩)
          simp only [loopStep?, stands, isHandle]
          rfl
  | dispatch ready =>
      left
      cases ready with
      | nil =>
          apply steps (by rintro _ ⟨⟩)
          simp only [loopStep?, stands]
          rfl
      | cons fd rest =>
          apply steps (by rintro _ ⟨⟩)
          simp only [loopStep?, stands, if_pos (outside fd rest rfl)]
          rfl
  | epollWait address =>
      by_cases refused : n ∈ state.unwatched
      · exact .inr ⟨refused, address, rfl⟩
      · left
        obtain ⟨isThread, _⟩ :=
          sound.control.current stands (by rintro ⟨⟩)
        have isCurrent := current_eq isThread stands
        obtain ⟨⟨its, isOpen, armed⟩, other, epoll, isOther, found, member⟩ :=
          sound.resources.idle isCurrent rfl refused
        have isHandle := sound.resources.entered isCurrent rfl
        rw [isOther, Option.some.injEq] at isHandle
        subst isHandle
        have wakes : state.ready state.gstIns.idleFd = true := by
          simp only [State.ready, isOpen]
          exact armed
        refine ⟨⟨none, none, false, [state.gstIns.idleFd]⟩,
          state.enter n (.dispatch [state.gstIns.idleFd]), ?_,
          fun _ _ => rfl⟩
        simp only [loopStep?, stands, loopWait?, found]
        rw [if_pos]
        refine ⟨List.nodup_singleton _, by simp [maxEvents], ?_⟩
        intro fd inBatch
        rw [List.mem_singleton.mp inBatch]
        exact ⟨member, wakes⟩

end Steps

section Runs

variable {Tid : Type} [DecidableEq Tid]
variable {state final : State Tid}
variable {caller : Caller Tid}
variable {n : Nat}

/-- The steps of one loop thread, with what the kernel answers to each. -/
def loopSteps
    (n : Nat)
    (answers : List Answers) :
    List (Action Tid) :=
  answers.map (.loop n)

/-- What the steps of a loop thread keep while others stand still. -/
def Keeps (state next : State Tid) : Prop :=
  Sound next ∧ next.calls = state.calls ∧
    next.gstIns.thrId = state.gstIns.thrId

/-- One step of a loop thread, with its progress. -/
theorem Sound.loop_progress
    (sound : Sound state)
    {next : State Tid}
    {answers : Answers}
    (stepped : machine.step? state (.loop n answers) = some next) :
    Keeps state next ∧ ∃ phase phase', Progress state next n phase phase' := by
  obtain ⟨phase, phase', progress⟩ := progress_of_step sound stepped
  exact ⟨⟨sound.loop stepped, progress.calls, progress.thread⟩,
    phase, phase', progress⟩

/-- The steps until a thread of a state has reported. -/
def State.untilReport (state : State Tid) (n : Nat) : Nat :=
  match state.threads n with
  | none =>
      0
  | some phase =>
      phase.untilReport

/-- Every step brings the report nearer. -/
theorem Sound.loop_run
    {answers : List Answers}
    (sound : Sound state)
    (accepted : machine.run? state (loopSteps n answers) = some final) :
    Keeps state final ∧
      final.untilReport n ≤ state.untilReport n - answers.length := by
  induction answers generalizing state with
  | nil =>
      simp only [loopSteps, List.map_nil, Machine.run?,
        Option.some.injEq] at accepted
      subst final
      exact ⟨⟨sound, rfl, rfl⟩, Nat.le_refl _⟩
  | cons first rest inductionHypothesis =>
      simp only [loopSteps, List.map_cons, Machine.run?] at accepted
      cases stepped : machine.step? state (.loop n first) with
      | none =>
          simp [stepped] at accepted
      | some next =>
          simp only [stepped] at accepted
          obtain ⟨⟨nextSound, calls, thread⟩, phase, phase', progress⟩ :=
            sound.loop_progress stepped
          obtain ⟨⟨finalSound, finalCalls, finalThread⟩, near⟩ :=
            inductionHypothesis nextSound accepted
          have before : state.untilReport n = phase.untilReport := by
            rw [State.untilReport, progress.before]
          have after : next.untilReport n = phase'.untilReport := by
            rw [State.untilReport, progress.after]
          have nearer := progress.report
          refine ⟨⟨finalSound, finalCalls.trans calls,
            finalThread.trans thread⟩, ?_⟩
          rw [List.length_cons]
          omega

/-- Once the flag is down the rank bounds the steps. -/
theorem Sound.loop_rank
    {answers : List Answers}
    (sound : Sound state)
    (joining : state.calls caller = .stopJoin)
    (accepted : machine.run? state (loopSteps n answers) = some final) :
    answers.length ≤ state.rank n := by
  have lowers :
      ∀ {state next : State Tid} {action : Action Tid},
        (Sound state ∧ state.calls caller = .stopJoin) →
        (∃ more, action = .loop n more) →
        machine.step? state action = some next →
        (Sound next ∧ next.calls caller = .stopJoin) ∧
          next.rank n < state.rank n := by
    rintro state next _ ⟨sound, joining⟩ ⟨more, rfl⟩ stepped
    obtain ⟨⟨nextSound, calls, _⟩, phase, phase', progress⟩ :=
      sound.loop_progress stepped
    obtain ⟨_, _, stage⟩ :=
      sound.control.isController (by rw [joining]; rfl)
    rw [joining] at stage
    refine ⟨⟨nextSound, by rw [calls, joining]⟩, ?_⟩
    simp only [State.rank, progress.before, progress.after]
    exact progress.rank stage.2.1
  obtain ⟨_, bound⟩ :=
    Machine.run?_length_le lowers ⟨sound, joining⟩
      (by
        intro action member
        obtain ⟨more, _, rfl⟩ := List.mem_map.mp member
        exact ⟨more, rfl⟩)
      accepted
  rw [loopSteps, List.length_map] at bound
  omega

/-- A join that finds the thread finished ends the stop. -/
theorem Sound.finish_stop
    (sound : Sound state)
    (joining : state.calls caller = .stopJoin)
    (isThread : state.gstIns.thrId = some n)
    (finished : state.threads n = some .finished)
    (answers : Answers) :
    ∃ done,
      machine.run? state [.call caller answers, .call caller answers] =
          some done ∧
        done.calls caller = .outside ∧ done.Off := by
  obtain ⟨alone, ⟨tid, isApp⟩, _⟩ :=
    sound.control.isController (by rw [joining]; rfl)
  have different : caller ≠ .loop n := by
    rw [isApp]
    rintro ⟨⟩
  have join :
      pthreadJoin? state caller =
        some ((state.enter n .joined).goto caller .stopMemset) := by
    rw [pthreadJoin?, isThread]
    simp only [finished, if_neg different]
  have joined :
      machine.step? state (.call caller answers) =
        some ((state.enter n .joined).goto caller .stopMemset) := by
    change callStep? state caller answers = _
    rw [callStep?, joining]
    exact join
  have joinedSound := sound.pthreadJoin joining join
  have atMemset :
      ((state.enter n .joined).goto caller .stopMemset).calls caller =
        .stopMemset :=
    Function.update_self ..
  have cleared :
      machine.step? ((state.enter n .joined).goto caller .stopMemset)
          (.call caller answers) =
        some
          ((((state.enter n .joined).goto caller .stopMemset).setIns
            WmIns.zero).goto caller .outside) := by
    change callStep? _ caller answers = _
    rw [callStep?, atMemset]
  have doneSound := joinedSound.memset atMemset
  refine ⟨(((state.enter n .joined).goto caller .stopMemset).setIns
    WmIns.zero).goto caller .outside, ?_, Function.update_self .., ?_⟩
  · rw [Machine.run?_cons joined, Machine.run?_cons cleared]
    rfl
  · apply (doneSound.on_or_off ?_).resolve_left
    · rintro ⟨loops, _⟩
      cases loops
    · intro other
      by_cases same : other = caller
      · rw [same, goto_calls_self]
        rfl
      · rw [goto_calls_of_ne _ _ same]
        change (((state.enter n .joined).goto caller .stopMemset).calls
          other).isControl = false
        rw [goto_calls_of_ne _ _ same]
        exact alone other same

omit [DecidableEq Tid] in
/-- While a stop waits no callback of the loop is in a call. -/
theorem Sound.loop_outside
    (sound : Sound state)
    (joining : state.calls caller = .stopJoin)
    (n : Nat) :
    state.calls (.loop n) = .outside := by
  obtain ⟨alone, ⟨tid, isApp⟩, _⟩ :=
    sound.control.isController (by rw [joining]; rfl)
  have free := alone (.loop n) (by rw [isApp]; rintro ⟨⟩)
  by_contra inCall
  have reads : state.calls (.loop n) = .handleRead := by
    cases stands : state.calls (.loop n) <;> rw [stands] at free inCall
    case outside =>
      exact absurd rfl inCall
    all_goals cases free
  have noStop := (sound.control.reads reads).2 caller
  rw [joining] at noStop
  cases noStop

/--
A stop that waits for the thread returns while nobody else moves: whatever the
kernel answers, the thread takes at most `rank` steps, and as long as it has not
finished it can take one, in `epoll_wait` at the next expiry of its idle timer.
Only a thread whose idle timer was refused may wait there for something else.
-/
theorem stop_returns
    (reachable : machine.ReachableWhere Serial state)
    (joining : state.calls caller = .stopJoin) :
    ∃ n,
      state.gstIns.thrId = some n ∧
        ∀ answers final,
          machine.run? state (loopSteps n answers) = some final →
          answers.length ≤ state.rank n ∧
            ((∃ done,
                machine.run? final
                    [.call caller ⟨none, none, false, []⟩,
                      .call caller ⟨none, none, false, []⟩] =
                  some done ∧
                done.calls caller = .outside ∧ done.Off) ∨
              (∃ more next,
                machine.step? final (.loop n more) = some next ∧
                  ∀ address,
                    final.threads n = some (.epollWait address) →
                    more.ready = [final.gstIns.idleFd]) ∨
              n ∈ final.unwatched ∧
                ∃ address,
                  final.threads n = some (.epollWait address)) := by
  have sound := Sound.of_reachable reachable
  obtain ⟨_, _, stage⟩ :=
    sound.control.isController (by rw [joining]; rfl)
  rw [joining] at stage
  obtain ⟨_, _, ⟨n, _, isThread, _⟩, _⟩ := stage
  refine ⟨n, isThread, ?_⟩
  intro answers final accepted
  refine ⟨sound.loop_rank joining accepted, ?_⟩
  obtain ⟨⟨finalSound, calls, thread⟩, _⟩ := sound.loop_run accepted
  rw [isThread] at thread
  have stillJoining : final.calls caller = .stopJoin := by
    rw [calls, joining]
  obtain ⟨_, _, finalStage⟩ :=
    finalSound.control.isController (by rw [stillJoining]; rfl)
  rw [stillJoining] at finalStage
  obtain ⟨_, _, ⟨m, phase, isThread', _, stands, alive⟩, _⟩ := finalStage
  rw [thread, Option.some.injEq] at isThread'
  subst isThread'
  by_cases finished : phase = .finished
  · left
    rw [finished] at stands
    exact finalSound.finish_stop stillJoining thread stands _
  · right
    obtain ⟨more, next, stepped, woken⟩ | ⟨refused, address, there⟩ :=
      exists_step finalSound stands
        (fun _ _ _ => finalSound.loop_outside stillJoining n)
        ⟨finished, alive⟩
    · left
      refine ⟨more, next, stepped, ?_⟩
      intro address there
      rw [stands, Option.some.injEq] at there
      exact woken address there
    · right
      rw [there] at stands
      exact ⟨refused, address, stands⟩

/-- A start whose thread waits for events, with standard input watched, and a stop. -/
def sampleStop : List (Action Unit) :=
  .start (.app ()) :: sampleStart.take 12 ++
    [
      .addFd (.app ()) 0 0, .stop (.app ()),
      .call (.app ()) (grants 0 0 []), .call (.app ()) (grants 0 0 [])
    ]

/-- A stop that waits for a thread in `epoll_wait` with two events to close. -/
theorem stop_returns_waiting :
    ∃ state : State Unit,
      (state.threads 0 = some (.epollWait 0) ∧
          state.handles 0 = some ⟨3, [0, 4]⟩ ∧ state.rank 0 = 39) ∧
        ∃ n,
          state.gstIns.thrId = some n ∧
            ∀ answers final,
              machine.run? state (loopSteps n answers) = some final →
              answers.length ≤ state.rank n ∧
                ((∃ done,
                    machine.run? final
                        [.call (.app ()) ⟨none, none, false, []⟩,
                          .call (.app ()) ⟨none, none, false, []⟩] =
                      some done ∧
                    done.calls (.app ()) = .outside ∧ done.Off) ∨
                  (∃ more next,
                    machine.step? final (.loop n more) = some next ∧
                      ∀ address,
                        final.threads n = some (.epollWait address) →
                        more.ready = [final.gstIns.idleFd]) ∨
                  n ∈ final.unwatched ∧
                    ∃ address,
                      final.threads n = some (.epollWait address)) := by
  obtain ⟨state, reachable, checked⟩ :=
    Machine.ReachableWhere.exists_of_run machine Serial sampleState
      sampleStop
      (fun state =>
        decide (state.calls (.app ()) = .stopJoin ∧
          state.threads 0 = some (.epollWait 0) ∧
          state.handles 0 = some ⟨3, [0, 4]⟩ ∧ state.rank 0 = 39))
      sampleState_initial
      (by
        refine ⟨⟨⟨(), rfl⟩, fun _ => rfl⟩, ?_⟩
        rintro _ ⟨⟩
        iterate 4
          refine ⟨fun _ => .inl rfl, ?_⟩
          rintro _ ⟨⟩
        iterate 4
          refine ⟨trivial, ?_⟩
          rintro _ ⟨⟩
        iterate 2
          refine ⟨fun _ => .inl rfl, ?_⟩
          rintro _ ⟨⟩
        iterate 2
          refine ⟨trivial, ?_⟩
          rintro _ ⟨⟩
        refine ⟨?_, ?_⟩
        · rintro (_ | n)
          · rfl
          · rfl
        · rintro _ ⟨⟩
          refine ⟨⟨⟨(), rfl⟩, ?_⟩,
            fun next _ => respects_steps next (by decide)⟩
          rintro (_ | n)
          · rfl
          · rfl)
      (by decide)
  rw [decide_eq_true_iff] at checked
  exact ⟨state, checked.2, stop_returns reachable checked.1⟩

/-- A start waits, but `pthread_create` has given it no thread. -/
def Stuck
    (caller : Caller Tid)
    (evt : Nat)
    (state : State Tid) :
    Prop :=
  Sound state ∧ state.calls caller = .startWaiting evt ∧
    state.gstIns.thrId = none

omit [DecidableEq Tid] in
/-- Where a start got no thread, every thread is joined, and its event unset. -/
theorem Stuck.waits
    {evt : Nat}
    (stuck : Stuck caller evt state) :
    AllJoined state.created state.threads ∧ state.evts evt = some 0 := by
  obtain ⟨sound, waiting, noThread⟩ := stuck
  obtain ⟨_, _, stage⟩ :=
    sound.control.isController (by rw [waiting]; rfl)
  rw [waiting] at stage
  obtain ⟨_, ⟨_, isEvt⟩, ⟨n, _, isThread, _⟩ | ⟨_, joined, _⟩, values⟩ :=
    stage
  · rw [noThread] at isThread
    cases isThread
  · obtain ⟨zero, _⟩ | ⟨_, n, _, isThread, _⟩ := values evt isEvt
    · exact ⟨joined, zero⟩
    · rw [noThread] at isThread
      cases isThread

/-- Nothing that the application may do then wakes the start. -/
theorem Stuck.step
    {evt : Nat}
    {next : State Tid}
    {action : Action Tid}
    (stuck : Stuck caller evt state)
    (permitted : Serial state action)
    (stepped : machine.step? state action = some next) :
    Stuck caller evt next := by
  obtain ⟨joined, unset⟩ := stuck.waits
  obtain ⟨sound, waiting, noThread⟩ := stuck
  have inControl : (state.calls caller).isControl = true := by
    rw [waiting]
    rfl
  obtain ⟨alone, _⟩ := sound.control.isController inControl
  refine ⟨sound.step permitted stepped, ?_⟩
  change step? state action = some next at stepped
  cases action with
  | start other | stop other =>
      have noControl : (state.calls caller).isControl = false := by
        first
        | exact permitted.2 caller
        | rw [permitted.2 caller]; rfl
      rw [inControl] at noControl
      cases noControl
  | handle other =>
      rw [step?, enterCall, Option.ite_none_right_eq_some,
        Option.some.injEq] at stepped
      obtain ⟨⟨outside, _⟩, rfl⟩ := stepped
      have different : caller ≠ other := by
        rintro rfl
        rw [waiting] at outside
        cases outside
      rw [wmEpollHandle]
      split
      · exact ⟨(goto_calls_of_ne state _ different).trans waiting, noThread⟩
      · exact ⟨waiting, noThread⟩
  | call other answers =>
      rw [step?] at stepped
      by_cases same : other = caller
      · subst same
        simp only [callStep?, waiting, evtMtxWaiting?, unset] at stepped
        cases stepped
      · have free := alone other same
        cases stands : state.calls other <;> rw [stands] at free
        case outside =>
          simp only [callStep?, stands] at stepped
          cases stepped
        case handleRead =>
          simp only [callStep?, stands, Option.some.injEq] at stepped
          subst stepped
          exact
            ⟨(goto_calls_of_ne state.give _ (Ne.symm same)).trans waiting,
              noThread⟩
        all_goals cases free
  | loop n answers =>
      rw [step?, loopStep?] at stepped
      cases stands : state.threads n with
      | none =>
          simp only [stands] at stepped
          cases stepped
      | some phase =>
          have gone : phase = .joined := by
            by_contra alive
            obtain ⟨isThread, _⟩ := sound.control.current stands alive
            rw [noThread] at isThread
            cases isThread
          simp only [stands, gone] at stepped
          cases stepped
  | openFd fd kind | closeFd fd =>
      rw [step?, Option.ite_none_right_eq_some, Option.some.injEq]
        at stepped
      obtain ⟨_, rfl⟩ := stepped
      exact ⟨waiting, noThread⟩
  | addFd other address fd =>
      rw [step?, Option.ite_none_right_eq_some] at stepped
      obtain ⟨_, mapped⟩ := stepped
      obtain ⟨epoll, _, rfl⟩ := Option.map_eq_some_iff.mp mapped
      rw [addFd]
      split
      · exact ⟨waiting, noThread⟩
      · exact ⟨waiting, noThread⟩
  | removeFd other address fd =>
      rw [step?, Option.ite_none_right_eq_some] at stepped
      obtain ⟨_, mapped⟩ := stepped
      obtain ⟨epoll, _, rfl⟩ := Option.map_eq_some_iff.mp mapped
      exact ⟨waiting, noThread⟩

/-- A report ends the wait of the start, and the start. -/
theorem Sound.finish_start
    {evt : Nat}
    {phase : Phase}
    (sound : Sound state)
    (waiting : state.calls caller = .startWaiting evt)
    (isThread : state.gstIns.thrId = some n)
    (stands : state.threads n = some phase)
    (reported : phase.signalled = true)
    (answers : Answers) :
    ∃ done,
      machine.run? state [.call caller answers, .call caller answers] =
          some done ∧
        done.calls caller = .outside ∧ done.On := by
  obtain ⟨alone, _, stage⟩ :=
    sound.control.isController (by rw [waiting]; rfl)
  rw [waiting] at stage
  obtain ⟨_, ⟨loops, isEvt⟩, _, values⟩ := stage
  have isSet : state.evts evt = some 1 := by
    obtain ⟨_, silent⟩ | ⟨one, _⟩ := values evt isEvt
    · exact absurd ⟨n, phase, isThread, stands, reported⟩ silent
    · exact one
  let woken := (state.setEvt evt (some 0)).goto caller .startDestroy
  have wakes : machine.step? state (.call caller answers) = some woken := by
    change callStep? state caller answers = _
    rw [callStep?, waiting]
    simp only [evtMtxWaiting?, isSet, if_true]
    rfl
  have wokenSound : Sound woken :=
    sound.step (by rw [Serial, waiting]; rintro ⟨⟩) wakes
  have atDestroy : woken.calls caller = .startDestroy :=
    Function.update_self ..
  let done := (woken.setEvt evt none).goto caller .outside
  have frees : machine.step? woken (.call caller answers) = some done := by
    change callStep? woken caller answers = _
    rw [callStep?, atDestroy]
    simp only [evtMtxDestroy]
    have isEvt' : woken.gstIns.evtHandle = some evt := isEvt
    have isUsed : woken.evts evt = some 0 := Function.update_self ..
    simp only [isEvt', isUsed]
    rfl
  have doneSound : Sound done :=
    wokenSound.step (by rw [Serial, atDestroy]; rintro ⟨⟩) frees
  refine ⟨done, ?_, Function.update_self .., ?_⟩
  · rw [Machine.run?_cons wakes, Machine.run?_cons frees]
    rfl
  · apply (doneSound.on_or_off ?_).resolve_right
    · rintro ⟨isZero, _⟩
      have stopped : done.gstIns.loop = false := by
        rw [isZero]
        rfl
      change state.gstIns.loop = false at stopped
      rw [loops] at stopped
      cases stopped
    · intro other
      by_cases same : other = caller
      · rw [same, goto_calls_self]
        rfl
      · rw [goto_calls_of_ne _ _ same]
        change (woken.calls other).isControl = false
        rw [goto_calls_of_ne _ _ same]
        exact alone other same

/--
A start that waits for the thread returns with the loop on while nobody else
moves: the thread reports with its fourth step, and until then it can take the
next one.  Where `pthread_create` has given no thread, the start waits for ever,
whatever the application still does.
-/
theorem start_returns
    {evt : Nat}
    (reachable : machine.ReachableWhere Serial state)
    (waiting : state.calls caller = .startWaiting evt) :
    (∃ n,
      state.gstIns.thrId = some n ∧
        ∀ answers final,
          machine.run? state (loopSteps n answers) = some final →
          (∃ done,
              machine.run? final
                  [.call caller ⟨none, none, false, []⟩,
                    .call caller ⟨none, none, false, []⟩] =
                some done ∧
              done.calls caller = .outside ∧ done.On) ∨
            answers.length < 4 ∧
              ∃ more next,
                machine.step? final (.loop n more) = some next) ∨
      state.gstIns.thrId = none ∧
        ∀ actions final,
          machine.Respects Serial state actions →
          machine.run? state actions = some final →
          final.calls caller = .startWaiting evt := by
  have sound := Sound.of_reachable reachable
  cases isThread : state.gstIns.thrId with
  | none =>
      right
      refine ⟨rfl, ?_⟩
      intro actions final respects accepted
      have stuck : Stuck caller evt state := ⟨sound, waiting, isThread⟩
      exact (respects.invariant Stuck.step stuck accepted).2.1
  | some n =>
      left
      refine ⟨n, rfl, ?_⟩
      intro answers final accepted
      obtain ⟨⟨finalSound, calls, thread⟩, near⟩ := sound.loop_run accepted
      rw [isThread] at thread
      have stillWaiting : final.calls caller = .startWaiting evt := by
        rw [calls, waiting]
      obtain ⟨alone, ⟨tid, isApp⟩, stage⟩ :=
        finalSound.control.isController (by rw [stillWaiting]; rfl)
      rw [stillWaiting] at stage
      obtain ⟨_, ⟨loops, _⟩, ⟨m, phase, isThread', _, stands, alive⟩ | none,
        _⟩ := stage
      · rw [thread, Option.some.injEq] at isThread'
        subst isThread'
        by_cases reported : phase.signalled = true
        · exact .inl
            (finalSound.finish_start stillWaiting thread stands reported _)
        · right
          have before : 1 ≤ phase.untilReport := by
            cases phase <;>
              first | exact absurd rfl reported | simp [Phase.untilReport]
          have few : state.untilReport n ≤ 4 := by
            rw [State.untilReport]
            split
            · exact Nat.zero_le 4
            · rename_i phase' _
              cases phase' <;> simp [Phase.untilReport]
          rw [State.untilReport, stands] at near
          simp only at near
          refine ⟨by omega, ?_⟩
          obtain ⟨more, next, stepped, _⟩ | ⟨_, address, there⟩ :=
            exists_step finalSound stands
              (by
                rintro fd rest rfl
                exact absurd rfl reported)
              ⟨by
                rintro rfl
                exact reported rfl, alive⟩
          · exact ⟨more, next, stepped⟩
          · rw [there] at reported
            exact absurd rfl reported
      · rw [thread] at none
        cases none.1

/-- After its first four steps a start waits for the thread it has created. -/
theorem start_returns_created :
    ∃ state : State Unit,
      state.gstIns.thrId = some 0 ∧
        ∀ answers final,
          machine.run? state (loopSteps 0 answers) = some final →
          (∃ done,
              machine.run? final
                  [.call (.app ()) ⟨none, none, false, []⟩,
                    .call (.app ()) ⟨none, none, false, []⟩] =
                some done ∧
              done.On) ∨
            answers.length < 4 := by
  obtain ⟨state, reachable, checked⟩ :=
    Machine.ReachableWhere.exists_of_run machine Serial sampleState
      (.start (.app ()) ::
        List.replicate 4 (.call (.app ()) (grants 0 0 [])))
      (fun state =>
        decide (state.calls (.app ()) = .startWaiting 0 ∧
          state.gstIns.thrId = some 0))
      sampleState_initial
      ⟨⟨⟨(), rfl⟩, fun _ => rfl⟩,
        fun next _ => respects_steps next (by decide)⟩
      (by decide)
  rw [decide_eq_true_iff] at checked
  obtain ⟨waiting, isThread⟩ := checked
  refine ⟨state, isThread, ?_⟩
  obtain ⟨n, isThread', returns⟩ | ⟨noThread, _⟩ :=
    start_returns reachable waiting
  · rw [isThread, Option.some.injEq] at isThread'
    subst isThread'
    intro answers final accepted
    obtain ⟨done, ended, _, on⟩ | ⟨few, _⟩ := returns answers final accepted
    · exact .inl ⟨done, ended, on⟩
    · exact .inr few
  · rw [isThread] at noThread
    cases noThread

end Runs

end WkcRuntime.WmEpollLoop
