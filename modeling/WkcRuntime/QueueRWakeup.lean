import WkcRuntime.QueueRSource

namespace WkcRuntime.QueueR

open ConditionVariable

/-!
# Values and wakeups of the blocking queue

Every push wakes a sleeper if there is one, whatever the queue holds, so a
sleeper that stays behind has as many notified threads in front of it as there
are queued values.  A notified thread that is overtaken finds the queue empty
and sleeps again, which needs no wakeup; one that pops takes its value along.
-/

/-- The value that a finished push put in. -/
def Return.pushed?
    {Tid T : Type}
    (record : Return Tid T) :
    Option T :=
  match record.call with
  | .push newValue => some newValue
  | _ => none

/-- The value that a finished pop took out. -/
def Return.popped?
    {Tid T : Type}
    (record : Return Tid T) :
    Option T :=
  match record.call with
  | .push _ => none
  | _ => record.value

namespace State

variable {Tid T : Type}

/-- The values pushed so far, in the order of the pushes. -/
def pushed (state : State Tid T) : List T :=
  (state.returned.filterMap Return.pushed?).reverse

/-- The values popped so far, in the order of the pops. -/
def popped (state : State Tid T) : List T :=
  (state.returned.filterMap Return.popped?).reverse

end State

/-- Values are queued for a sleeper with fewer notified threads than values. -/
def Stranded
    {Tid T : Type}
    [Fintype Tid]
    (state : State Tid T) :
    Prop :=
  state.dataQueue ≠ [] ∧
    (∃ thread, (state.pool thread).isAsleep = true) ∧
    wokenByCount .notified state.pool < state.dataQueue.length

/-- What went through the queue and who is on the way to the rest. -/
structure Sound
    {Tid T : Type}
    [Fintype Tid]
    (state : State Tid T) :
    Prop where
  inOrder :
    state.popped ++ state.dataQueue = state.pushed
  enough :
    asleepCount state.pool = 0 ∨
      state.dataQueue.length ≤ wokenByCount .notified state.pool

/-- A sound state strands nobody. -/
theorem Sound.notStranded
    {Tid T : Type}
    [Fintype Tid]
    {state : State Tid T}
    (sound : Sound state) :
    ¬ Stranded state := by
  rintro ⟨_, someone, fewer⟩
  rcases sound.enough with nobody | enough
  · have sleepers : 0 < asleepCount state.pool :=
      headcount_pos_iff.mpr someone
    omega
  · exact absurd enough (Nat.not_le.mpr fewer)

section Preservation

variable {Tid T : Type} [DecidableEq Tid] [Fintype Tid]

/-- A push appends its value and notifies one sleeper for it. -/
theorem Sound.push
    {state next : State Tid T}
    (sound : Sound state)
    {thread : Tid}
    {newValue : T}
    {chosen : Option Tid}
    (pushed : push thread newValue chosen state = some next) :
    Sound next := by
  unfold QueueR.push at pushed
  rw [Option.map_eq_some_iff] at pushed
  obtain ⟨pool, signalled, rfl⟩ := pushed
  constructor
  · have inOrder := sound.inOrder
    simp only [State.popped, State.pushed] at inOrder ⊢
    simp [List.filterMap_cons, Return.popped?, Return.pushed?,
      ← inOrder]
  · rcases wakeOne?_cases signalled with
      ⟨_, rfl, nobody⟩ | ⟨target, form, _, sleeping, rfl⟩
    · exact Or.inl nobody
    · right
      have notified :=
        wokenByCount_update .notified state.pool target
          (.woken form .notified)
      have someAsleep : 0 < asleepCount state.pool :=
        asleepCount_pos_iff.mpr ⟨target, form, sleeping⟩
      simp only [sleeping, Phase.isWokenBy_asleep,
        Phase.isWokenBy_woken, decide_true, Bool.toNat_false,
        Bool.toNat_true, Nat.add_zero] at notified
      simp only [List.length_append, List.length_singleton]
      rcases sound.enough with nobody | enough
      · omega
      · omega

omit [DecidableEq Tid] in
/-- A pop that does not sleep takes the front value or finds none. -/
theorem Sound.tryPop
    {state : State Tid T}
    (sound : Sound state)
    (thread : Tid)
    (form : Form) :
    Sound (tryPop thread form state) := by
  unfold QueueR.tryPop
  cases queued : state.dataQueue with
  | nil =>
      constructor
      · simpa [State.popped, State.pushed, List.filterMap_cons,
          Return.popped?, Return.pushed?, queued] using sound.inOrder
      · right
        simp
  | cons front rest =>
      constructor
      · simpa [State.popped, State.pushed, List.filterMap_cons,
          Return.popped?, Return.pushed?, queued] using sound.inOrder
      · apply sound.enough.imp_right
        intro enough
        simp only [queued, List.length_cons] at enough
        exact Nat.le_of_succ_le enough

/--
The loop of a wait keeps both: who sleeps does so at an empty queue, and who
takes a value was at most one of the notified.
-/
theorem Sound.waitPop
    {state : State Tid T}
    (sound : Sound state)
    (thread : Tid)
    (form : Form)
    (notAsleep : (state.pool thread).isAsleep = false) :
    Sound (waitPop thread form state) := by
  have moved :
      ((state.pool thread).isWokenBy Wake.notified).toNat ≤ 1 :=
    Bool.toNat_le _
  unfold QueueR.waitPop
  cases queued : state.dataQueue with
  | nil =>
      constructor
      · simpa [State.popped, State.pushed, queued] using sound.inOrder
      · right
        simp
  | cons front rest =>
      constructor
      · simpa [State.popped, State.pushed, List.filterMap_cons,
          Return.popped?, Return.pushed?, queued] using sound.inOrder
      · have sleepers := asleepCount_update state.pool thread .outside
        have notified :=
          wokenByCount_update .notified state.pool thread .outside
        simp only [notAsleep, Phase.isAsleep_outside,
          Phase.isWokenBy_outside, Bool.toNat_false,
          Nat.add_zero] at sleepers notified
        simp only [sleepers]
        apply sound.enough.imp_right
        intro enough
        simp only [queued, List.length_cons] at enough
        omega

/-- A spurious wakeup leaves one sleeper less and the notified as they are. -/
theorem Sound.spurious
    {state : State Tid T}
    (sound : Sound state)
    {thread : Tid}
    {form : Form}
    (sleeping : state.pool thread = .asleep form) :
    Sound { state with
      pool := Function.update state.pool thread
        (.woken form .spurious) } := by
  constructor
  · exact sound.inOrder
  · have sleepers :=
      asleepCount_update state.pool thread
        (.woken form Wake.spurious)
    have notified :=
      wokenByCount_update .notified state.pool thread
        (.woken form .spurious)
    simp only [sleeping, Phase.isAsleep_asleep, Phase.isAsleep_woken,
      Phase.isWokenBy_asleep, Phase.isWokenBy_woken,
      reduceCtorEq, decide_false, Bool.toNat_false, Bool.toNat_true,
      Nat.add_zero] at sleepers notified
    simp only [notified]
    rcases sound.enough with nobody | enough
    · omega
    · exact Or.inr enough

/-- Every step keeps the values in order and notifies enough threads. -/
theorem Sound.step
    {state next : State Tid T}
    {action : Action Tid T}
    (sound : Sound state)
    (stepped : step? state action = some next) :
    Sound next := by
  cases action with
  | push thread newValue chosen =>
      simp only [step?, Option.ite_none_right_eq_some] at stepped
      exact sound.push stepped.2
  | tryPop thread form =>
      simp only [step?, Option.ite_none_right_eq_some,
        Option.some.injEq] at stepped
      obtain ⟨_, rfl⟩ := stepped
      exact sound.tryPop thread form
  | waitPop thread form =>
      simp only [step?, Option.ite_none_right_eq_some,
        Option.some.injEq] at stepped
      obtain ⟨outside, rfl⟩ := stepped
      exact sound.waitPop thread form (by simp [outside])
  | spurious thread =>
      simp only [step?] at stepped
      cases phase : state.pool thread with
      | outside =>
          simp [phase] at stepped
      | asleep form =>
          simp only [phase, Option.some.injEq] at stepped
          subst next
          exact sound.spurious phase
      | woken form wake =>
          simp [phase] at stepped
  | resume thread =>
      simp only [step?] at stepped
      cases phase : state.pool thread with
      | outside =>
          simp [phase] at stepped
      | asleep form =>
          simp [phase] at stepped
      | woken form wake =>
          simp only [phase, Option.some.injEq] at stepped
          subst next
          exact sound.waitPop thread form (by simp [phase])

end Preservation

end WkcRuntime.QueueR
