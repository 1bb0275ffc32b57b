import WkcRuntime.WmEpollLoop

namespace WkcRuntime.WmEpollLoop

/-!
# What a loop thread owns

The handle of `gstIns` lives from `wm_epoll_create` to the end of
`wm_epoll_destroy`, and so does its epoll descriptor.  The idle timer is closed
with the events of the handle, unless `wm_epoll_add` has refused it.
-/

section Definitions

/-- The handle of `gstIns` has an event for a descriptor. -/
def Watches
    (handle : Option Nat)
    (handles : Nat → Option WmEpollT)
    (fd : Int32) :
    Prop :=
  ∃ address epoll,
    handle = some address ∧ handles address = some epoll ∧
      fd ∈ epoll.head

/-- An armed timer that a loop thread has opened. -/
def IdleTimer
    (files : Files)
    (n : Nat)
    (fd : Int32) :
    Prop :=
  ∃ its, files fd = some ⟨.timer its, some n⟩ ∧ its.armed = true

/-- Why a descriptor of a loop thread is still open. -/
def Accounted
    (handle : Option Nat)
    (idleFd : Int32)
    (handles : Nat → Option WmEpollT)
    (current : Option (Nat × Phase))
    (unwatched : List Nat)
    (fd : Int32)
    (kind : Kind)
    (n : Nat) :
    Prop :=
  (kind = .epoll ∧
      ∃ address epoll, handles address = some epoll ∧ epoll.fd = fd) ∨
    (∃ its, kind = .timer its ∧ its.armed = true) ∧
      (n ∈ unwatched ∨
        idleFd = fd ∧
          (current = some (n, .add) ∨
            (∃ phase,
              current = some (n, phase) ∧
                (phase.watching || phase.isClosing) = true) ∧
              Watches handle handles fd))

/-- What the current loop thread owns, and what was left behind. -/
structure Resources
    (handle : Option Nat)
    (idleFd : Int32)
    (handles : Nat → Option WmEpollT)
    (files : Files)
    (current : Option (Nat × Phase))
    (unwatched : List Nat) :
    Prop where
  numbers :
    ∀ {fd file},
      files fd = some file →
      0 ≤ fd
  opened :
    ∀ {fd kind n},
      files fd = some ⟨kind, some n⟩ →
      Accounted handle idleFd handles current unwatched fd kind n
  live :
    ∀ {address epoll},
      handles address = some epoll →
      handle = some address ∧
        ∃ n phase, current = some (n, phase) ∧ phase.holds = true
  held :
    ∀ {address n phase},
      handle = some address →
      current = some (n, phase) →
      phase.holds = true →
      ∃ epoll, handles address = some epoll
  absent : current = none → handle = none
  unborn :
    ∀ {n},
      current = some (n, .create) →
      handle = none
  entered :
    ∀ {n phase address},
      current = some (n, phase) →
      phase.handle? = some address →
      handle = some address
  adding :
    ∀ {n},
      current = some (n, .add) →
      idleFd = -1 ∨ IdleTimer files n idleFd
  idle :
    ∀ {n phase},
      current = some (n, phase) →
      phase.watching = true →
      n ∉ unwatched →
      IdleTimer files n idleFd ∧ Watches handle handles idleFd

/-- What the loop threads of the past have left behind. -/
structure Left
    (handles : Nat → Option WmEpollT)
    (files : Files)
    (unwatched : List Nat) :
    Prop where
  freed : ∀ address, handles address = none
  numbers :
    ∀ {fd file},
      files fd = some file →
      0 ≤ fd
  idle :
    ∀ {fd kind n},
      files fd = some ⟨kind, some n⟩ →
      (∃ its, kind = .timer its ∧ its.armed = true) ∧ n ∈ unwatched

end Definitions

section Threads

variable {handle : Option Nat}
variable {idleFd : Int32}
variable {handles : Nat → Option WmEpollT}
variable {files : Files}
variable {current : Option (Nat × Phase)}
variable {unwatched : List Nat}
variable {n : Nat}
variable {phase phase' : Phase}

/-- A phase in which a thread may own a handle is not the first one. -/
theorem Phase.ne_create_of_holds
    (holds : phase.holds = true) :
    phase ≠ .create := by
  rintro rfl
  cases holds

/-- A thread that watches or closes owns what it has, and adds nothing. -/
theorem Phase.holds_of_watching
    (watching : (phase.watching || phase.isClosing) = true) :
    phase.holds = true ∧ phase ≠ .add := by
  cases phase <;>
    simp_all [Phase.watching, Phase.isClosing, Phase.holds]

/-- A new thread owns nothing yet. -/
theorem Resources.spawn
    (resources :
      Resources handle idleFd handles files none unwatched) :
    Resources handle idleFd handles files (some (n, .create))
      unwatched where
  numbers := resources.numbers
  opened := by
    intro fd kind opener isOpen
    obtain epoll | ⟨timer, isUnwatched | ⟨_, adds | ⟨⟨_, other, _⟩, _⟩⟩⟩ :=
      resources.opened isOpen
    · exact .inl epoll
    · exact .inr ⟨timer, .inl isUnwatched⟩
    · cases adds
    · cases other
  live := by
    intro address epoll found
    obtain ⟨_, _, _, isCurrent, _⟩ := resources.live found
    cases isCurrent
  held := by
    intro address other found isHandle
    rw [resources.absent rfl] at isHandle
    cases isHandle
  absent := by
    rintro ⟨⟩
  unborn := by
    intro other _
    exact resources.absent rfl
  entered := by
    rintro other found address ⟨⟩ enteredWith
    cases enteredWith
  adding := by
    rintro other ⟨⟩
  idle := by
    rintro other found ⟨⟩ watching
    cases watching

/-- A thread that has tried to add its idle timer moves on. -/
theorem Resources.move
    (resources :
      Resources handle idleFd handles files (some (n, phase)) unwatched)
    (watched : phase.watching = true)
    (watches : (phase'.watching || phase'.isClosing) = true)
    (enters :
      ∀ address,
        phase'.handle? = some address →
        handle = some address) :
    Resources handle idleFd handles files (some (n, phase'))
      unwatched where
  numbers := resources.numbers
  opened := by
    intro fd kind opener isOpen
    obtain epoll | ⟨timer, isUnwatched |
        ⟨isIdle, adds | ⟨⟨_, other, _⟩, watchesFd⟩⟩⟩ :=
      resources.opened isOpen
    · exact .inl epoll
    · exact .inr ⟨timer, .inl isUnwatched⟩
    · cases adds
      cases watched
    · cases other
      exact .inr ⟨timer, .inr ⟨isIdle, .inr
        ⟨⟨phase', rfl, watches⟩, watchesFd⟩⟩⟩
  live := by
    intro address epoll found
    exact ⟨(resources.live found).1, n, phase', rfl,
      (Phase.holds_of_watching watches).1⟩
  held := by
    intro address other found isHandle isCurrent _
    exact resources.held isHandle rfl
      (Phase.holds_of_watching
        (by rw [watched]; rfl : (phase.watching || _) = true)).1
  absent := by
    rintro ⟨⟩
  unborn := by
    rintro other ⟨⟩
    exact absurd rfl
      (Phase.ne_create_of_holds (Phase.holds_of_watching watches).1)
  entered := by
    rintro other found address ⟨⟩ enteredWith
    exact enters address enteredWith
  adding := by
    rintro other ⟨⟩
    exact absurd rfl (Phase.holds_of_watching watches).2
  idle := by
    rintro other found ⟨⟩ _ added
    exact resources.idle rfl watched added

/-- Without a handle in `gstIns` none is in use. -/
theorem Resources.freed_of_null
    (resources :
      Resources none idleFd handles files current unwatched)
    (address : Nat) :
    handles address = none := by
  by_contra used
  obtain ⟨epoll, found⟩ := Option.ne_none_iff_exists'.mp used
  obtain ⟨isHandle, _⟩ := resources.live found
  cases isHandle

/-- A thread that is finished has freed its handle. -/
theorem Resources.freed_of_ended
    (resources :
      Resources handle idleFd handles files (some (n, phase)) unwatched)
    (ended : phase.holds = false)
    (address : Nat) :
    handles address = none := by
  by_contra used
  obtain ⟨epoll, found⟩ := Option.ne_none_iff_exists'.mp used
  obtain ⟨_, _, _, isCurrent, holds⟩ := resources.live found
  cases isCurrent
  rw [ended] at holds
  cases holds

/-- Where no handle is in use, only unwatched timers are open. -/
theorem Resources.left
    (resources :
      Resources handle idleFd handles files current unwatched)
    (freed : ∀ address, handles address = none)
    (notAdding : ∀ n, current ≠ some (n, .add)) :
    Left handles files unwatched where
  freed := freed
  numbers := resources.numbers
  idle := by
    intro fd kind opener isOpen
    obtain ⟨_, address, _, found, _⟩ | ⟨timer, isUnwatched |
        ⟨_, adds | ⟨_, address, _, _, found, _⟩⟩⟩ :=
      resources.opened isOpen
    · rw [freed address] at found
      cases found
    · exact ⟨timer, isUnwatched⟩
    · exact absurd adds (notAdding opener)
    · rw [freed address] at found
      cases found

/-- Where no handle is in use, an open descriptor is an unwatched timer. -/
theorem Left.accounted
    (left : Left handles files unwatched)
    {fd : Int32}
    {kind : Kind}
    (isOpen : files fd = some ⟨kind, some n⟩) :
    Accounted handle idleFd handles current unwatched fd kind n :=
  .inr ⟨(left.idle isOpen).1, .inl (left.idle isOpen).2⟩

/-- A thread that has left nothing is finished, or joined. -/
theorem Left.ended
    (left : Left handles files unwatched)
    (ended : phase = .finished ∨ phase = .joined) :
    Resources handle idleFd handles files (some (n, phase))
      unwatched where
  numbers := left.numbers
  opened := left.accounted
  live := by
    intro address epoll found
    rw [left.freed] at found
    cases found
  held := by
    rintro address other found _ ⟨⟩ holds
    obtain rfl | rfl := ended <;> cases holds
  absent := by
    rintro ⟨⟩
  unborn := by
    rintro other ⟨⟩
    obtain ended | ended := ended <;> cases ended
  entered := by
    rintro other found address ⟨⟩ enteredWith
    obtain rfl | rfl := ended <;> cases enteredWith
  adding := by
    rintro other ⟨⟩
    obtain ended | ended := ended <;> cases ended
  idle := by
    rintro other found ⟨⟩ watching
    obtain rfl | rfl := ended <;> cases watching

/-- Without a thread and a handle there is nothing but what was left. -/
theorem Left.zero
    (left : Left handles files unwatched) :
    Resources none 0 handles files none unwatched where
  numbers := left.numbers
  opened := left.accounted
  live := by
    intro address epoll found
    rw [left.freed] at found
    cases found
  held := by
    rintro address other found ⟨⟩
  absent := by
    intro _
    rfl
  unborn := by
    rintro other ⟨⟩
  entered := by
    rintro other found address ⟨⟩
  adding := by
    rintro other ⟨⟩
  idle := by
    rintro other found ⟨⟩

/-- `wm_epoll_create` succeeds. -/
theorem Left.create
    (left : Left handles files unwatched)
    {address : Nat}
    {fd : Int32}
    (unused : files fd = none)
    (nonneg : 0 ≤ fd) :
    Resources (some address) idleFd
      (Function.update handles address (some ⟨fd, []⟩))
      (Function.update files fd (some ⟨.epoll, some n⟩))
      (some (n, .openTimer)) unwatched where
  numbers := by
    intro other file found
    obtain ⟨rfl, _⟩ | ⟨_, before⟩ := update_cases found
    · exact nonneg
    · exact left.numbers before
  opened := by
    intro other kind opener found
    obtain ⟨rfl, new⟩ | ⟨_, before⟩ := update_cases found
    · rw [Option.some.injEq, OpenFile.mk.injEq] at new
      exact .inl ⟨new.1.symm, address, ⟨other, []⟩,
        Function.update_self .., rfl⟩
    · exact .inr ⟨(left.idle before).1, .inl (left.idle before).2⟩
  live := by
    intro other epoll found
    obtain ⟨rfl, _⟩ | ⟨_, before⟩ := update_cases found
    · exact ⟨rfl, n, .openTimer, rfl, rfl⟩
    · rw [left.freed] at before
      cases before
  held := by
    rintro other m found ⟨⟩ _ _
    exact ⟨_, Function.update_self ..⟩
  absent := by
    rintro ⟨⟩
  unborn := by
    rintro other ⟨⟩
  entered := by
    rintro other found m ⟨⟩ enteredWith
    cases enteredWith
  adding := by
    rintro other ⟨⟩
  idle := by
    rintro other found ⟨⟩ watching
    cases watching

/-- `wm_epoll_create` fails. -/
theorem Left.notCreated
    (left : Left handles files unwatched) :
    Resources none idleFd handles files (some (n, .openTimer))
      unwatched where
  numbers := left.numbers
  opened := left.accounted
  live := by
    intro other epoll found
    rw [left.freed] at found
    cases found
  held := by
    rintro other m found ⟨⟩
  absent := by
    rintro ⟨⟩
  unborn := by
    rintro other ⟨⟩
  entered := by
    rintro other found m ⟨⟩ enteredWith
    cases enteredWith
  adding := by
    rintro other ⟨⟩
  idle := by
    rintro other found ⟨⟩ watching
    cases watching

/-- The idle timer is opened, or not. -/
theorem Resources.openTimer
    (resources :
      Resources handle idleFd handles files (some (n, .openTimer))
        unwatched)
    {files' : Files}
    {idleFd' : Int32}
    (opens :
      files' = files ∧ idleFd' = -1 ∨
        0 ≤ idleFd' ∧ files idleFd' = none ∧
          ∃ its,
            its.armed = true ∧
              files' =
                Function.update files idleFd'
                  (some ⟨.timer its, some n⟩)) :
    Resources handle idleFd' handles files' (some (n, .add))
      unwatched := by
  have before :
      ∀ {fd kind opener},
        files fd = some ⟨kind, some opener⟩ →
        Accounted handle idleFd' handles (some (n, .add)) unwatched fd
          kind opener := by
    intro fd kind opener isOpen
    obtain epoll | ⟨timer, isUnwatched |
        ⟨_, adds | ⟨⟨_, other, watching⟩, _⟩⟩⟩ :=
      resources.opened isOpen
    · exact .inl epoll
    · exact .inr ⟨timer, .inl isUnwatched⟩
    · cases adds
    · cases other
      cases watching
  refine ⟨?_, ?_, ?_, ?_, ?_, ?_, ?_, ?_, ?_⟩
  · intro fd file found
    obtain ⟨rfl, _⟩ | ⟨nonneg, _, its, _, rfl⟩ := opens
    · exact resources.numbers found
    · obtain ⟨rfl, _⟩ | ⟨_, old⟩ := update_cases found
      · exact nonneg
      · exact resources.numbers old
  · intro fd kind opener found
    obtain ⟨rfl, _⟩ | ⟨_, _, its, armed, rfl⟩ := opens
    · exact before found
    · obtain ⟨rfl, new⟩ | ⟨_, old⟩ := update_cases found
      · rw [Option.some.injEq, OpenFile.mk.injEq, Option.some.injEq] at new
        obtain ⟨rfl, rfl⟩ := new
        exact .inr ⟨⟨its, rfl, armed⟩, .inr ⟨rfl, .inl rfl⟩⟩
      · exact before old
  · intro address epoll found
    exact ⟨(resources.live found).1, n, .add, rfl, rfl⟩
  · rintro address m found isHandle ⟨⟩ _
    exact resources.held isHandle rfl rfl
  · rintro ⟨⟩
  · rintro m ⟨⟩
  · rintro m found address ⟨⟩ enteredWith
    cases enteredWith
  · rintro m ⟨⟩
    obtain ⟨_, isNone⟩ | ⟨_, _, its, armed, rfl⟩ := opens
    · exact .inl isNone
    · exact .inr ⟨its, Function.update_self .., armed⟩
  · rintro m found ⟨⟩ watching
    cases watching

/-- `wm_epoll_add` takes the idle timer. -/
theorem Resources.added
    (resources :
      Resources handle idleFd handles files (some (n, .add)) unwatched)
    (timer : IdleTimer files n idleFd)
    (watches : Watches handle handles idleFd) :
    Resources handle idleFd handles files (some (n, .signal))
      unwatched where
  numbers := resources.numbers
  opened := by
    intro fd kind opener isOpen
    obtain epoll | ⟨isTimer, isUnwatched |
        ⟨rfl, adds | ⟨⟨_, other, watching⟩, _⟩⟩⟩ :=
      resources.opened isOpen
    · exact .inl epoll
    · exact .inr ⟨isTimer, .inl isUnwatched⟩
    · cases adds
      exact .inr ⟨isTimer, .inr ⟨rfl, .inr
        ⟨⟨.signal, rfl, rfl⟩, watches⟩⟩⟩
    · cases other
      cases watching
  live := by
    intro address epoll found
    exact ⟨(resources.live found).1, n, .signal, rfl, rfl⟩
  held := by
    rintro address m found isHandle ⟨⟩ _
    exact resources.held isHandle rfl rfl
  absent := by
    rintro ⟨⟩
  unborn := by
    rintro m ⟨⟩
  entered := by
    rintro m found address ⟨⟩ enteredWith
    cases enteredWith
  adding := by
    rintro m ⟨⟩
  idle := by
    rintro m found ⟨⟩ _ _
    exact ⟨timer, watches⟩

/-- `wm_epoll_add` refuses the idle timer. -/
theorem Resources.refused
    (resources :
      Resources handle idleFd handles files (some (n, .add))
        unwatched) :
    Resources handle idleFd handles files (some (n, .signal))
      (n :: unwatched) where
  numbers := resources.numbers
  opened := by
    intro fd kind opener isOpen
    obtain epoll | ⟨isTimer, isUnwatched |
        ⟨rfl, adds | ⟨⟨_, other, watching⟩, _⟩⟩⟩ :=
      resources.opened isOpen
    · exact .inl epoll
    · exact .inr ⟨isTimer, .inl (List.mem_cons_of_mem n isUnwatched)⟩
    · cases adds
      exact .inr ⟨isTimer, .inl List.mem_cons_self⟩
    · cases other
      cases watching
  live := by
    intro address epoll found
    exact ⟨(resources.live found).1, n, .signal, rfl, rfl⟩
  held := by
    rintro address m found isHandle ⟨⟩ _
    exact resources.held isHandle rfl rfl
  absent := by
    rintro ⟨⟩
  unborn := by
    rintro m ⟨⟩
  entered := by
    rintro m found address ⟨⟩ enteredWith
    cases enteredWith
  adding := by
    rintro m ⟨⟩
  idle := by
    rintro m found ⟨⟩ _ added
    exact absurd List.mem_cons_self added

end Threads

section Descriptors

variable {handle : Option Nat}
variable {idleFd : Int32}
variable {handles : Nat → Option WmEpollT}
variable {files files' : Files}
variable {current : Option (Nat × Phase)}
variable {unwatched : List Nat}
variable {n address : Nat}
variable {epoll : WmEpollT}

/--
The events of a handle change, but those with a descriptor of a loop thread
stay.
-/
theorem Resources.setHead
    (resources :
      Resources handle idleFd handles files current unwatched)
    (found : handles address = some epoll)
    (head : List Int32)
    (keeps :
      ∀ {fd kind n},
        files fd = some ⟨kind, some n⟩ →
        fd ∈ epoll.head →
        fd ∈ head) :
    Resources handle idleFd
      (Function.update handles address (some { epoll with head })) files
      current unwatched := by
  have watches :
      ∀ {fd kind n},
        files fd = some ⟨kind, some n⟩ →
        Watches handle handles fd →
        Watches handle
          (Function.update handles address (some { epoll with head }))
          fd := by
    rintro fd kind n isOpen ⟨other, watcher, isHandle, there, member⟩
    by_cases same : other = address
    · rw [same, found, Option.some.injEq] at there
      rw [← there] at member
      exact ⟨other, _, isHandle, by rw [same, Function.update_self],
        keeps isOpen member⟩
    · exact ⟨other, watcher, isHandle,
        by rw [Function.update_of_ne same]; exact there, member⟩
  refine ⟨resources.numbers, ?_, ?_, ?_, resources.absent,
    resources.unborn, resources.entered, resources.adding, ?_⟩
  · intro fd kind opener isOpen
    obtain ⟨isEpoll, other, watcher, there, isFd⟩ | ⟨timer, isUnwatched |
        ⟨isIdle, adds | ⟨watching, watchesFd⟩⟩⟩ :=
      resources.opened isOpen
    · left
      refine ⟨isEpoll, other, ?_⟩
      by_cases same : other = address
      · rw [same, found, Option.some.injEq] at there
        rw [← there] at isFd
        exact ⟨{ epoll with head },
          by rw [same, Function.update_self], isFd⟩
      · exact ⟨watcher, by rw [Function.update_of_ne same]; exact there,
          isFd⟩
    · exact .inr ⟨timer, .inl isUnwatched⟩
    · exact .inr ⟨timer, .inr ⟨isIdle, .inl adds⟩⟩
    · exact .inr ⟨timer, .inr ⟨isIdle, .inr
        ⟨watching, watches isOpen watchesFd⟩⟩⟩
  · intro other watcher there
    obtain ⟨rfl, _⟩ | ⟨_, before⟩ := update_cases there
    · exact resources.live found
    · exact resources.live before
  · intro other m phase isHandle isCurrent holds
    obtain ⟨watcher, there⟩ := resources.held isHandle isCurrent holds
    by_cases same : other = address
    · exact ⟨_, by rw [same, Function.update_self]⟩
    · exact ⟨watcher, by rw [Function.update_of_ne same]; exact there⟩
  · intro m phase isCurrent watching added
    obtain ⟨⟨its, isOpen, armed⟩, watchesIdle⟩ :=
      resources.idle isCurrent watching added
    exact ⟨⟨its, isOpen, armed⟩, watches isOpen watchesIdle⟩

/-- Descriptors of the application are opened and closed. -/
theorem Resources.setFiles
    (resources :
      Resources handle idleFd handles files current unwatched)
    (numbers : ∀ {fd file}, files' fd = some file → 0 ≤ fd)
    (same :
      ∀ {fd kind n},
        files' fd = some ⟨kind, some n⟩ ↔
          files fd = some ⟨kind, some n⟩) :
    Resources handle idleFd handles files' current unwatched where
  numbers := numbers
  opened := fun isOpen => resources.opened (same.mp isOpen)
  live := resources.live
  held := resources.held
  absent := resources.absent
  unborn := resources.unborn
  entered := resources.entered
  adding := by
    intro n isCurrent
    obtain isNone | ⟨its, isOpen, armed⟩ := resources.adding isCurrent
    · exact .inl isNone
    · exact .inr ⟨its, same.mpr isOpen, armed⟩
  idle := by
    intro n phase isCurrent watching added
    obtain ⟨⟨its, isOpen, armed⟩, watches⟩ :=
      resources.idle isCurrent watching added
    exact ⟨⟨its, same.mpr isOpen, armed⟩, watches⟩

/-- A timer is set to another time. -/
theorem Resources.setTimer
    (resources :
      Resources handle idleFd handles files current unwatched)
    {fd : Int32}
    {old its : Itimerspec}
    {opener : Option Nat}
    (isTimer : files fd = some ⟨.timer old, opener⟩)
    (armed : its.armed = true) :
    Resources handle idleFd handles
      (Function.update files fd (some ⟨.timer its, opener⟩)) current
      unwatched := by
  have keeps :
      ∀ {n other},
        IdleTimer files n other →
        IdleTimer
          (Function.update files fd (some ⟨.timer its, opener⟩)) n
          other := by
    rintro n other ⟨before, isOpen, wasArmed⟩
    by_cases same : other = fd
    · rw [same, isTimer, Option.some.injEq, OpenFile.mk.injEq] at isOpen
      exact ⟨its, by rw [same, Function.update_self, isOpen.2], armed⟩
    · exact ⟨before, by rw [Function.update_of_ne same]; exact isOpen,
        wasArmed⟩
  refine ⟨?_, ?_, resources.live, resources.held, resources.absent,
    resources.unborn, resources.entered, ?_, ?_⟩
  · intro other file found
    obtain ⟨rfl, _⟩ | ⟨_, before⟩ := update_cases found
    · exact resources.numbers isTimer
    · exact resources.numbers before
  · intro other kind n found
    obtain ⟨rfl, new⟩ | ⟨_, before⟩ := update_cases found
    · rw [Option.some.injEq, OpenFile.mk.injEq] at new
      obtain ⟨rfl, rfl⟩ := new
      obtain ⟨isEpoll, _⟩ | ⟨_, because⟩ := resources.opened isTimer
      · cases isEpoll
      · exact .inr ⟨⟨its, rfl, armed⟩, because⟩
    · exact resources.opened before
  · intro n isCurrent
    exact (resources.adding isCurrent).imp_right keeps
  · intro n phase isCurrent watching added
    obtain ⟨timer, watches⟩ := resources.idle isCurrent watching added
    exact ⟨keeps timer, watches⟩

/-- One event is closed and freed. -/
theorem Resources.closeEvent
    (resources :
      Resources handle idleFd handles files
        (some (n, .closing address)) unwatched)
    {fd pos : Int32}
    {rest : List Int32}
    (found : handles address = some ⟨fd, pos :: rest⟩) :
    Resources handle idleFd
      (Function.update handles address (some ⟨fd, rest⟩))
      (Function.update files pos none) (some (n, .closing address))
      unwatched := by
  have isOpen :
      ∀ {other : Int32} {file : OpenFile},
        Function.update files pos none other = some file →
        other ≠ pos ∧ files other = some file := by
    intro other file there
    obtain ⟨_, new⟩ | before := update_cases there
    · cases new
    · exact before
  have closed :
      Resources handle idleFd handles (Function.update files pos none)
        (some (n, .closing address)) unwatched :=
    ⟨fun there => resources.numbers (isOpen there).2,
      fun there => resources.opened (isOpen there).2, resources.live,
      resources.held, resources.absent, resources.unborn,
      resources.entered, (by rintro m ⟨⟩),
      (by rintro m found ⟨⟩ watching; cases watching)⟩
  apply closed.setHead found rest
  intro other kind m there member
  exact (List.mem_cons.mp member).resolve_left (isOpen there).1

/-- The epoll descriptor is closed and the handle freed. -/
theorem Resources.closeHandle
    (resources :
      Resources handle idleFd handles files
        (some (n, .closing address)) unwatched)
    {fd : Int32}
    (found : handles address = some ⟨fd, []⟩) :
    Left (Function.update handles address none)
      (Function.update files fd none) unwatched := by
  have only :
      ∀ {other epoll}, handles other = some epoll → other = address := by
    intro other epoll there
    have isHandle := (resources.live found).1
    rw [(resources.live there).1, Option.some.injEq] at isHandle
    exact isHandle
  have isOpen :
      ∀ {other : Int32} {file : OpenFile},
        Function.update files fd none other = some file →
        other ≠ fd ∧ files other = some file := by
    intro other file there
    obtain ⟨_, new⟩ | before := update_cases there
    · cases new
    · exact before
  refine ⟨?_, fun there => resources.numbers (isOpen there).2, ?_⟩
  · intro other
    by_contra used
    obtain ⟨epoll, there⟩ := Option.ne_none_iff_exists'.mp used
    obtain ⟨_, new⟩ | ⟨different, before⟩ := update_cases there
    · cases new
    · exact different (only before)
  · intro other kind m there
    obtain ⟨different, before⟩ := isOpen there
    obtain ⟨_, handle', epoll, used, isFd⟩ | ⟨timer, isUnwatched |
        ⟨_, adds | ⟨_, handle', epoll, _, used, member⟩⟩⟩ :=
      resources.opened before
    · rw [only used, found, Option.some.injEq] at used
      rw [← used] at isFd
      exact absurd isFd.symm different
    · exact ⟨timer, isUnwatched⟩
    · cases adds
    · rw [only used, found, Option.some.injEq] at used
      rw [← used] at member
      cases member

end Descriptors

end WkcRuntime.WmEpollLoop
