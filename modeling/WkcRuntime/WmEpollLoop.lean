import WkcRuntime.WmEpollTimers

namespace WkcRuntime.WmEpollLoop

/-!
# One event loop at a time

The application starts and stops the loop from its own threads, one call after
the other, and asks for the handle while no stop is running.  Then no two loop
threads live at once, the handle that is given away is that of the living loop,
and behind a stop nothing of the loop is left.

The proof keeps two things apart: what the calls know of the thread
(`Control`), and what the thread owns (`Resources`).
-/

section Classes

/-- The thread has reported that it is set up. -/
def Phase.signalled : Phase → Bool
  | .create | .openTimer | .add | .signal =>
      false
  | .testLoop | .callWait | .epollWait _ | .dispatch _ | .destroy
  | .closing _ | .finished | .joined =>
      true

/-- The thread may own a handle. -/
def Phase.holds : Phase → Bool
  | .create | .finished | .joined =>
      false
  | .openTimer | .add | .signal | .testLoop | .callWait | .epollWait _
  | .dispatch _ | .destroy | .closing _ =>
      true

/-- The idle timer has been handed to `wm_epoll_add` and is not closed yet. -/
def Phase.watching : Phase → Bool
  | .create | .openTimer | .add | .closing _ | .finished | .joined =>
      false
  | .signal | .testLoop | .callWait | .epollWait _ | .dispatch _
  | .destroy =>
      true

/-- The events of the handle, if there is one, are being closed. -/
def Phase.isClosing : Phase → Bool
  | .closing _ =>
      true
  | .create | .openTimer | .add | .signal | .testLoop | .callWait
  | .epollWait _ | .dispatch _ | .destroy | .finished | .joined =>
      false

/-- The thread has left its loop. -/
def Phase.leaving : Phase → Bool
  | .destroy | .closing _ | .finished | .joined =>
      true
  | .create | .openTimer | .add | .signal | .testLoop | .callWait
  | .epollWait _ | .dispatch _ =>
      false

/-- The handle that a function was called with. -/
def Phase.handle? : Phase → Option Nat
  | .epollWait handle | .closing handle =>
      some handle
  | .create | .openTimer | .add | .signal | .testLoop | .callWait
  | .dispatch _ | .destroy | .finished | .joined =>
      none

/-- The caller is in `wm_epoll_stop`. -/
def Pc.isStop : Pc → Bool
  | .stopLoop | .stopTimer | .stopJoin | .stopMemset =>
      true
  | .outside | .startLoop | .startEvt | .startCreate | .startWait
  | .startWaiting _ | .startDestroy | .handleRead =>
      false

/-- The caller is in `wm_epoll_start` or in `wm_epoll_stop`. -/
def Pc.isControl : Pc → Bool
  | .outside | .handleRead =>
      false
  | .startLoop | .startEvt | .startCreate | .startWait | .startWaiting _
  | .startDestroy | .stopLoop | .stopTimer | .stopJoin | .stopMemset =>
      true

variable {Tid : Type}

/-- No caller is in `wm_epoll_stop`. -/
def State.NoStop (state : State Tid) : Prop :=
  ∀ caller, (state.calls caller).isStop = false

/--
The calls that the application has to order: starts and stops come one after
the other and from its own threads, and a stop overlaps no other use of the
loop.  A start in which both `evt_mtx_create` and `pthread_create` fail would
return as if a thread were there.
-/
def Serial (state : State Tid) : Action Tid → Prop
  | .start caller =>
      (∃ tid, caller = .app tid) ∧
        ∀ other, (state.calls other).isControl = false
  | .stop caller =>
      (∃ tid, caller = .app tid) ∧ ∀ other, state.calls other = .outside
  | .handle _ =>
      state.NoStop
  | .addFd (.app _) _ _ | .removeFd (.app _) _ _ =>
      state.NoStop
  | .call caller answers =>
      state.calls caller = .startCreate →
        answers.accepts = true ∨ state.gstIns.evtHandle ≠ none
  | .loop .. | .openFd .. | .closeFd _ | .addFd (.loop _) _ _
  | .removeFd (.loop _) _ _ =>
      True

/-- A stop is a control call. -/
theorem Pc.isStop_of_not_control
    {pc : Pc}
    (free : pc.isControl = false) :
    pc.isStop = false := by
  cases pc <;> first | rfl | cases free

/-- What an entry of an updated table can be. -/
theorem update_cases
    {α β : Type}
    [DecidableEq α]
    {table : α → β}
    {key other : α}
    {new found : β}
    (lookup : Function.update table key new other = found) :
    (other = key ∧ new = found) ∨ (other ≠ key ∧ table other = found) := by
  by_cases same : other = key
  · rw [same, Function.update_self] at lookup
    exact .inl ⟨same, lookup⟩
  · rw [Function.update_of_ne same] at lookup
    exact .inr ⟨same, lookup⟩

end Classes

section Control

/-- Every thread that was created is gone. -/
def AllJoined
    (created : Nat)
    (threads : Nat → Option Phase) :
    Prop :=
  ∀ n < created, threads n = some .joined

/-- The newest thread is the one of `gstIns`, and not joined. -/
def Runs
    (gstIns : WmIns)
    (created : Nat)
    (threads : Nat → Option Phase) :
    Prop :=
  ∃ n phase,
    gstIns.thrId = some n ∧ n + 1 = created ∧
      threads n = some phase ∧ phase ≠ .joined

/-- The thread of `gstIns` has reported that it is set up. -/
def Signalled
    (gstIns : WmIns)
    (threads : Nat → Option Phase) :
    Prop :=
  ∃ n phase,
    gstIns.thrId = some n ∧ threads n = some phase ∧
      phase.signalled = true

/-- A thread that has not reported has no event to set. -/
def Quiet
    (gstIns : WmIns)
    (threads : Nat → Option Phase) :
    Prop :=
  Signalled gstIns threads ∨ gstIns.evtHandle = none

/-- No event is in use. -/
def NoEvts (evts : Nat → Option Int32) : Prop :=
  ∀ evt, evts evt = none

/-- The event of `gstIns` is set exactly by the report of the thread. -/
def Handshake
    (gstIns : WmIns)
    (evts : Nat → Option Int32)
    (created : Nat)
    (threads : Nat → Option Phase) :
    Prop :=
  (Runs gstIns created threads ∨
    gstIns.thrId = none ∧ AllJoined created threads ∧
      gstIns.evtHandle ≠ none) ∧
    ∀ evt,
      gstIns.evtHandle = some evt →
        evts evt = some 0 ∧ ¬ Signalled gstIns threads ∨
          evts evt = some 1 ∧ Signalled gstIns threads

/-- Only the event of `gstIns` is in use. -/
def OnlyEvt
    (gstIns : WmIns)
    (evts : Nat → Option Int32) :
    Prop :=
  ∀ evt, gstIns.evtHandle ≠ some evt → evts evt = none

/-- What holds while the controlling call stands at a place. -/
def Stage
    (gstIns : WmIns)
    (evts : Nat → Option Int32)
    (created : Nat)
    (threads : Nat → Option Phase) :
    Pc → Prop
  | .outside | .handleRead =>
      NoEvts evts ∧
        (gstIns = WmIns.zero ∧ AllJoined created threads ∨
          gstIns.loop = true ∧ Runs gstIns created threads ∧
            Quiet gstIns threads)
  | .startLoop =>
      NoEvts evts ∧ gstIns = WmIns.zero ∧ AllJoined created threads
  | .startEvt =>
      NoEvts evts ∧ gstIns = { WmIns.zero with loop := true } ∧
        AllJoined created threads
  | .startCreate =>
      OnlyEvt gstIns evts ∧
        (gstIns =
            { WmIns.zero with
              loop := true
              evtHandle := gstIns.evtHandle } ∧
          AllJoined created threads) ∧
        ∀ evt, gstIns.evtHandle = some evt → evts evt = some 0
  | .startWait =>
      OnlyEvt gstIns evts ∧ gstIns.loop = true ∧
        Handshake gstIns evts created threads
  | .startWaiting evt =>
      OnlyEvt gstIns evts ∧
        (gstIns.loop = true ∧ gstIns.evtHandle = some evt) ∧
        Handshake gstIns evts created threads
  | .startDestroy =>
      OnlyEvt gstIns evts ∧
        (gstIns.loop = true ∧ Runs gstIns created threads ∧
          Quiet gstIns threads) ∧
        ∀ evt, gstIns.evtHandle = some evt → evts evt ≠ none
  | .stopLoop =>
      NoEvts evts ∧ gstIns.loop = true ∧ Runs gstIns created threads ∧
        Quiet gstIns threads
  | .stopTimer | .stopJoin =>
      NoEvts evts ∧ gstIns.loop = false ∧ Runs gstIns created threads ∧
        Quiet gstIns threads
  | .stopMemset =>
      NoEvts evts ∧ gstIns.loop = false ∧ AllJoined created threads

/-- What the calls know of `gstIns`, the events and the threads. -/
structure Control
    {Tid : Type}
    (gstIns : WmIns)
    (evts : Nat → Option Int32)
    (created : Nat)
    (threads : Nat → Option Phase)
    (calls : Caller Tid → Pc) :
    Prop where
  fresh : ∀ n, threads n = none ↔ created ≤ n
  older : ∀ n, n + 1 < created → threads n = some .joined
  looping :
    ∀ {n phase},
      gstIns.thrId = some n →
      threads n = some phase →
      phase.leaving = true →
      gstIns.loop = false
  reads :
    ∀ {caller},
      calls caller = .handleRead →
      gstIns.loop = true ∧ ∀ other, (calls other).isStop = false
  controller :
    ∃ caller,
      (∀ other, other ≠ caller → (calls other).isControl = false) ∧
        ((calls caller).isControl = true → ∃ tid, caller = .app tid) ∧
        Stage gstIns evts created threads (calls caller)

variable {Tid : Type}
variable {gstIns gstIns' : WmIns}
variable {evts evts' : Nat → Option Int32}
variable {created : Nat}
variable {threads : Nat → Option Phase}
variable {calls : Caller Tid → Pc}
variable {pc : Pc}
variable {n : Nat}
variable {phase phase' : Phase}

/-- At every place the newest thread runs, or none does. -/
theorem Stage.runs_or_joined
    (stage : Stage gstIns evts created threads pc) :
    Runs gstIns created threads ∨ AllJoined created threads := by
  cases pc with
  | outside | handleRead =>
      obtain ⟨_, ⟨_, joined⟩ | ⟨_, runs, _⟩⟩ := stage
      · exact .inr joined
      · exact .inl runs
  | startLoop | startEvt =>
      exact .inr stage.2.2
  | startCreate =>
      exact .inr stage.2.1.2
  | startWait =>
      obtain ⟨_, _, runs | ⟨_, joined, _⟩, _⟩ := stage
      · exact .inl runs
      · exact .inr joined
  | startWaiting evt =>
      obtain ⟨_, _, runs | ⟨_, joined, _⟩, _⟩ := stage
      · exact .inl runs
      · exact .inr joined
  | startDestroy =>
      exact .inl stage.2.1.2.1
  | stopLoop | stopTimer | stopJoin =>
      exact .inl stage.2.2.1
  | stopMemset =>
      exact .inr stage.2.2

/-- A thread that is not joined is the newest one, and that of `gstIns`. -/
theorem Control.current
    (control : Control gstIns evts created threads calls)
    (stands : threads n = some phase)
    (alive : phase ≠ .joined) :
    gstIns.thrId = some n ∧ n + 1 = created := by
  have inUse : n < created := by
    by_contra notBelow
    rw [(control.fresh n).mpr (Nat.not_lt.mp notBelow)] at stands
    cases stands
  have newest : n + 1 = created := by
    by_contra different
    have joined := control.older n (by omega)
    rw [stands, Option.some.injEq] at joined
    exact alive joined
  obtain ⟨caller, _, _, stage⟩ := control.controller
  obtain ⟨other, _, isThread, last, _, _⟩ | joined := stage.runs_or_joined
  · have same : other = n := by omega
    rw [← same]
    exact ⟨isThread, by omega⟩
  · have gone := joined n inUse
    rw [stands, Option.some.injEq] at gone
    exact absurd gone alive

/-- Before a thread is created there is none to be current. -/
theorem AllJoined.not_alive
    (joined : AllJoined created threads)
    (last : n + 1 = created)
    (stands : threads n = some phase)
    (alive : phase ≠ .joined) :
    False := by
  have gone := joined n (by omega)
  rw [stands, Option.some.injEq] at gone
  exact alive gone

/-- Fields of `gstIns` that only the calls write. -/
def SameControl (gstIns gstIns' : WmIns) : Prop :=
  gstIns'.loop = gstIns.loop ∧ gstIns'.thrId = gstIns.thrId ∧
    gstIns'.evtHandle = gstIns.evtHandle

/-- The current thread moves on. -/
theorem Runs.move
    (isThread : gstIns.thrId = some n)
    (last : n + 1 = created)
    (same : SameControl gstIns gstIns')
    (alive' : phase' ≠ .joined) :
    Runs gstIns' created (Function.update threads n (some phase')) :=
  ⟨n, phase', same.2.1.trans isThread, last,
    Function.update_self .., alive'⟩

/-- Where the current thread moves to decides whether it has reported. -/
theorem signalled_move
    (isThread : gstIns.thrId = some n)
    (same : SameControl gstIns gstIns') :
    Signalled gstIns' (Function.update threads n (some phase')) ↔
      phase'.signalled = true := by
  constructor
  · rintro ⟨other, found, isOther, otherStands, signalled⟩
    rw [same.2.1, isThread, Option.some.injEq] at isOther
    rw [← isOther, Function.update_self, Option.some.injEq] at otherStands
    rw [otherStands]
    exact signalled
  · intro signalled
    exact ⟨n, phase', same.2.1.trans isThread, Function.update_self ..,
      signalled⟩

/-- Whether the current thread has reported. -/
theorem signalled_iff
    (isThread : gstIns.thrId = some n)
    (stands : threads n = some phase) :
    Signalled gstIns threads ↔ phase.signalled = true := by
  constructor
  · rintro ⟨other, found, isOther, otherStands, signalled⟩
    rw [isThread, Option.some.injEq] at isOther
    rw [← isOther, stands, Option.some.injEq] at otherStands
    rw [otherStands]
    exact signalled
  · intro signalled
    exact ⟨n, phase, isThread, stands, signalled⟩

/--
A step of the current thread keeps what the calls know, if it sets the event
exactly when it reports.
-/
theorem Stage.move
    (stage : Stage gstIns evts created threads pc)
    (isThread : gstIns.thrId = some n)
    (last : n + 1 = created)
    (stands : threads n = some phase)
    (alive : phase ≠ .joined)
    (same : SameControl gstIns gstIns')
    (alive' : phase' ≠ .joined)
    (reports :
      phase'.signalled = phase.signalled ∧ evts' = evts ∨
        phase.signalled = false ∧ phase'.signalled = true ∧
          ∀ evt,
            evts' evt =
              if gstIns.evtHandle = some evt ∧ evts evt = some 0 then
                some 1
              else
                evts evt) :
    Stage gstIns' evts' created
      (Function.update threads n (some phase')) pc := by
  have runs :=
    @Runs.move _ _ _ threads _ _ isThread last same alive'
  have moved :=
    @signalled_move _ _ threads _ phase' isThread same
  have before := signalled_iff isThread stands
  obtain ⟨sameLoop, _, sameEvt⟩ := same
  have keepsEvt : ∀ evt, evts evt = none → evts' evt = none := by
    intro evt unused
    obtain ⟨_, rfl⟩ | ⟨_, _, set⟩ := reports
    · exact unused
    · rw [set, unused, if_neg (by simp)]
  have quiet :
      Quiet gstIns threads →
        Quiet gstIns' (Function.update threads n (some phase')) := by
    rintro (signalled | noEvt)
    · left
      rw [moved]
      rw [before] at signalled
      obtain ⟨keeps, _⟩ | ⟨_, reported, _⟩ := reports
      · exact keeps.trans signalled
      · exact reported
    · exact .inr (sameEvt.trans noEvt)
  have only : OnlyEvt gstIns evts → OnlyEvt gstIns' evts' := by
    intro onlyEvt evt other
    rw [sameEvt] at other
    exact keepsEvt evt (onlyEvt evt other)
  have noEvts : NoEvts evts → NoEvts evts' :=
    fun none evt => keepsEvt evt (none evt)
  have handshake :
      Handshake gstIns evts created threads →
        Handshake gstIns' evts' created
          (Function.update threads n (some phase')) := by
    rintro ⟨_, values⟩
    refine ⟨.inl runs, ?_⟩
    intro evt isEvt
    rw [sameEvt] at isEvt
    rw [moved]
    have value := values evt isEvt
    rw [before] at value
    obtain ⟨keeps, rfl⟩ | ⟨unreported, reported, set⟩ := reports
    · rw [keeps]
      exact value
    · obtain ⟨zero, _⟩ | ⟨_, signalled⟩ := value
      · right
        rw [set, if_pos ⟨isEvt, zero⟩]
        exact ⟨rfl, reported⟩
      · rw [unreported] at signalled
        cases signalled
  cases pc with
  | outside | handleRead =>
      obtain ⟨none, ⟨isZero, _⟩ | ⟨loops, _, wasQuiet⟩⟩ := stage
      · rw [isZero] at isThread
        cases isThread
      · exact ⟨noEvts none, .inr ⟨sameLoop.trans loops, runs,
          quiet wasQuiet⟩⟩
  | startLoop | startEvt =>
      rw [stage.2.1] at isThread
      cases isThread
  | startCreate =>
      rw [stage.2.1.1] at isThread
      cases isThread
  | startWait =>
      obtain ⟨onlyEvt, loops, shake⟩ := stage
      exact ⟨only onlyEvt, sameLoop.trans loops, handshake shake⟩
  | startWaiting evt =>
      obtain ⟨onlyEvt, ⟨loops, isEvt⟩, shake⟩ := stage
      exact ⟨only onlyEvt, ⟨sameLoop.trans loops, sameEvt.trans isEvt⟩,
        handshake shake⟩
  | startDestroy =>
      obtain ⟨onlyEvt, ⟨loops, _, wasQuiet⟩, used⟩ := stage
      refine ⟨only onlyEvt, ⟨sameLoop.trans loops, runs, quiet wasQuiet⟩,
        ?_⟩
      intro evt isEvt
      rw [sameEvt] at isEvt
      obtain ⟨_, rfl⟩ | ⟨_, _, set⟩ := reports
      · exact used evt isEvt
      · rw [set]
        split
        · simp
        · exact used evt isEvt
  | stopLoop | stopTimer | stopJoin =>
      obtain ⟨none, loops, _, wasQuiet⟩ := stage
      exact ⟨noEvts none, sameLoop.trans loops, runs, quiet wasQuiet⟩
  | stopMemset =>
      exact (stage.2.2.not_alive last stands alive).elim

/-- A step of a loop thread keeps what the calls know. -/
theorem Control.move
    (control : Control gstIns evts created threads calls)
    (stands : threads n = some phase)
    (alive : phase ≠ .joined)
    (same : SameControl gstIns gstIns')
    (alive' : phase' ≠ .joined)
    (leaves : phase'.leaving = true → gstIns.loop = false)
    (reports :
      phase'.signalled = phase.signalled ∧ evts' = evts ∨
        phase.signalled = false ∧ phase'.signalled = true ∧
          ∀ evt,
            evts' evt =
              if gstIns.evtHandle = some evt ∧ evts evt = some 0 then
                some 1
              else
                evts evt) :
    Control gstIns' evts' created
      (Function.update threads n (some phase')) calls := by
  obtain ⟨isThread, last⟩ := control.current stands alive
  refine ⟨?_, ?_, ?_, ?_, ?_⟩
  · intro other
    by_cases moved : other = n
    · rw [moved, Function.update_self]
      simp only [reduceCtorEq, false_iff, Nat.not_le]
      omega
    · rw [Function.update_of_ne moved]
      exact control.fresh other
  · intro other below
    rw [Function.update_of_ne (by omega)]
    exact control.older other below
  · intro other found isOther otherStands leaving
    rw [same.2.1, isThread, Option.some.injEq] at isOther
    rw [← isOther, Function.update_self, Option.some.injEq] at otherStands
    rw [same.1]
    exact leaves (by rw [otherStands]; exact leaving)
  · intro caller reading
    rw [same.1]
    exact control.reads reading
  · obtain ⟨caller, alone, isApp, stage⟩ := control.controller
    exact ⟨caller, alone, isApp,
      stage.move isThread last stands alive same alive' reports⟩

/-- A caller that is not in a control call leaves the controller alone. -/
theorem Control.other
    {calls' : Caller Tid → Pc}
    {caller : Caller Tid}
    (control : Control gstIns evts created threads calls)
    [DecidableEq Tid]
    (free : (calls caller).isControl = false)
    (freeAfter : pc.isControl = false)
    (reading :
      pc = .handleRead →
        gstIns.loop = true ∧ ∀ other, (calls other).isStop = false)
    (isNext : calls' = Function.update calls caller pc) :
    Control gstIns evts created threads calls' := by
  refine ⟨control.fresh, control.older, control.looping, ?_, ?_⟩
  · intro reader reads
    rw [isNext] at reads ⊢
    have stops : ∀ other,
        (calls other).isStop = false →
          (Function.update calls caller pc other).isStop = false := by
      intro other before
      by_cases moved : other = caller
      · rw [moved, Function.update_self]
        exact Pc.isStop_of_not_control freeAfter
      · rw [Function.update_of_ne moved]
        exact before
    obtain ⟨_, isReading⟩ | ⟨_, wasReading⟩ := update_cases reads
    · obtain ⟨loops, noStop⟩ := reading isReading
      exact ⟨loops, fun other => stops other (noStop other)⟩
    · obtain ⟨loops, noStop⟩ := control.reads wasReading
      exact ⟨loops, fun other => stops other (noStop other)⟩
  · obtain ⟨controller, alone, isApp, stage⟩ := control.controller
    refine ⟨controller, ?_, ?_, ?_⟩
    · intro other different
      rw [isNext]
      by_cases moved : other = caller
      · rw [moved, Function.update_self]
        exact freeAfter
      · rw [Function.update_of_ne moved]
        exact alone other different
    · rw [isNext]
      by_cases moved : controller = caller
      · rw [moved, Function.update_self, freeAfter]
        rintro ⟨⟩
      · rw [Function.update_of_ne moved]
        exact isApp
    · rw [isNext]
      by_cases moved : controller = caller
      · rw [moved, Function.update_self]
        rw [moved] at stage
        have rest :
            Stage gstIns evts created threads .outside := by
          cases before : calls caller <;> rw [before] at stage free
          case outside | handleRead => exact stage
          all_goals cases free
        cases pc <;> first | exact rest | cases freeAfter
      · rw [Function.update_of_ne moved]
        exact stage

/-- A control call goes on, or begins. -/
theorem Control.advance
    {calls' : Caller Tid → Pc}
    {caller : Caller Tid}
    {created' : Nat}
    {threads' : Nat → Option Phase}
    (control : Control gstIns evts created threads calls)
    [DecidableEq Tid]
    (alone : ∀ other, other ≠ caller → (calls other).isControl = false)
    (isApp : pc.isControl = true → ∃ tid, caller = .app tid)
    (notReading : pc ≠ .handleRead)
    (readers :
      gstIns.loop = true →
        (∀ other, (calls other).isStop = false) →
        (∃ other, other ≠ caller ∧ calls other = .handleRead) →
          gstIns'.loop = true ∧ pc.isStop = false)
    (fresh : ∀ n, threads' n = none ↔ created' ≤ n)
    (older : ∀ n, n + 1 < created' → threads' n = some .joined)
    (looping :
      ∀ {n phase},
        gstIns'.thrId = some n →
        threads' n = some phase →
        phase.leaving = true →
        gstIns'.loop = false)
    (stage : Stage gstIns' evts' created' threads' pc)
    (isNext : calls' = Function.update calls caller pc) :
    Control gstIns' evts' created' threads' calls' := by
  refine ⟨fresh, older, looping, ?_, ?_⟩
  · intro reader reads
    rw [isNext] at reads ⊢
    obtain ⟨_, isReading⟩ | ⟨different, wasReading⟩ := update_cases reads
    · exact absurd isReading notReading
    · obtain ⟨loops, noStop⟩ := control.reads wasReading
      obtain ⟨loops', notStop⟩ :=
        readers loops noStop ⟨reader, different, wasReading⟩
      refine ⟨loops', ?_⟩
      intro other
      by_cases moved : other = caller
      · rw [moved, Function.update_self]
        exact notStop
      · rw [Function.update_of_ne moved]
        exact noStop other
  · refine ⟨caller, ?_, ?_, ?_⟩
    · intro other different
      rw [isNext, Function.update_of_ne different]
      exact alone other different
    · rw [isNext, Function.update_self]
      exact isApp
    · rw [isNext, Function.update_self]
      exact stage

end Control

end WkcRuntime.WmEpollLoop
