import WkcRuntime.MsgQueueThreads

namespace WkcRuntime.MsgQueueThreads

open Mesg MessageQueue MsgQueue

/-!
# No use of a destroyed queue object

Pointers to an object are in `gMap` and in the threads inside `Send`.  The
destructor removes neither: it erases one number, and nothing waits for the
threads.  A destroyed object is therefore never used exactly in the runs in
which each destruction completes when no pointer to its object is left.
-/

variable {Tid Object : Type}

/-- No thread inside `Send` and no entry of `gMap` has a pointer to the object. -/
def Unreferenced
    (state : State Tid Object)
    (this : Object) :
    Prop :=
  (∀ thread, (state.caller thread).held? ≠ some this) ∧
    ∀ fd, state.gMap fd ≠ some this

/-- A step that completes a destruction leaves no pointer behind. -/
def CompletesAlone
    (state : State Tid Object) :
    Action Tid Object → Prop
  | .owner this _ =>
      (state.owner this).isComplete = true →
      Unreferenced state this
  | _ =>
      True

/-- All pointers lead to objects that are not destroyed. -/
structure Safe (state : State Tid Object) : Prop where
  held :
    ∀ {thread p},
      (state.caller thread).held? = some p →
      (state.owner p).isDead = false
  entry :
    ∀ {fd p},
      state.gMap fd = some p →
      (state.owner p).isDead = false
  untouched :
    state.touchedDead = false

/-- What a step of the owner of an object may change. -/
structure OwnerEffect
    (state next : State Tid Object)
    (this : Object) :
    Prop where
  caller :
    next.caller = state.caller
  touchedDead :
    next.touchedDead = state.touchedDead
  owner :
    ∀ other,
      other ≠ this →
      next.owner other = state.owner other
  dead :
    (next.owner this).isDead = true →
    (state.owner this).isComplete = true
  entry :
    ∀ fd p,
      next.gMap fd = some p →
      state.gMap fd = some p ∨
        p = this ∧ (next.owner this).isDead = false

/-- What a step of a thread that uses a queue may change. -/
structure CallerEffect
    (state next : State Tid Object)
    (thread : Tid) :
    Prop where
  owner :
    next.owner = state.owner
  gMap :
    next.gMap = state.gMap
  caller :
    ∀ other,
      other ≠ thread →
      next.caller other = state.caller other
  held :
    ∀ p,
      (next.caller thread).held? = some p →
      (state.caller thread).held? = some p ∨
        ∃ fd, state.gMap fd = some p
  touched :
    next.touchedDead = true →
    state.touchedDead = true ∨
      ∃ p,
        ((state.caller thread).held? = some p ∨
          ∃ fd, state.gMap fd = some p) ∧
        (state.owner p).isDead = true

/-- A thread keeps everything safe, as it only has pointers that are. -/
theorem Safe.callerEffect
    {state next : State Tid Object}
    {thread : Tid}
    (safe : Safe state)
    (effect : CallerEffect state next thread) :
    Safe next := by
  constructor
  · intro other p held
    rw [effect.owner]
    by_cases here : other = thread
    · subst other
      rcases effect.held p held with before | ⟨fd, entered⟩
      · exact safe.held before
      · exact safe.entry entered
    · rw [effect.caller other here] at held
      exact safe.held held
  · intro fd p entered
    rw [effect.gMap] at entered
    rw [effect.owner]
    exact safe.entry entered
  · rw [← Bool.not_eq_true]
    intro touched
    rcases effect.touched touched with
      before | ⟨p, held | ⟨fd, entered⟩, dead⟩
    · rw [safe.untouched] at before
      cases before
    · rw [safe.held held] at dead
      cases dead
    · rw [safe.entry entered] at dead
      cases dead

/-- An owner keeps everything safe if it leaves no pointer to a dead object. -/
theorem Safe.ownerEffect
    {state next : State Tid Object}
    {this : Object}
    (safe : Safe state)
    (effect : OwnerEffect state next this)
    (alone :
      (state.owner this).isComplete = true →
      Unreferenced state this) :
    Safe next := by
  have stays :
      ∀ {p},
        (p = this → ¬ Unreferenced state this) →
        (state.owner p).isDead = false →
        (next.owner p).isDead = false := by
    intro p referenced before
    by_cases here : p = this
    · subst p
      rw [← Bool.not_eq_true]
      intro dead
      exact referenced rfl (alone (effect.dead dead))
    · rw [effect.owner p here]
      exact before
  constructor
  · intro thread p held
    rw [effect.caller] at held
    apply stays _ (safe.held held)
    rintro rfl unreferenced
    exact unreferenced.1 thread held
  · intro fd p entered
    rcases effect.entry fd p entered with before | ⟨rfl, notDead⟩
    · apply stays _ (safe.entry before)
      rintro rfl unreferenced
      exact unreferenced.2 fd before
    · exact notDead
  · rw [effect.touchedDead]
    exact safe.untouched

section Effects

variable [DecidableEq Object]

/-- Moving the owner on to a phase that is not the end of its object. -/
theorem ownerEffect_of_update
    {state next : State Tid Object}
    {this : Object}
    {owner : Owner}
    (caller : next.caller = state.caller)
    (touchedDead : next.touchedDead = state.touchedDead)
    (moved :
      next.owner = Function.update state.owner this owner)
    (notDead : owner.isDead = false)
    (entry :
      ∀ fd p,
        next.gMap fd = some p →
        state.gMap fd = some p ∨ p = this) :
    OwnerEffect state next this := by
  have owned : next.owner this = owner := by
    rw [moved, Function.update_self]
  refine ⟨caller, touchedDead, ?_, ?_, ?_⟩
  · intro other different
    rw [moved, Function.update_of_ne different]
  · rw [owned, notDead]
    exact fun dead => nomatch dead
  · rw [owned]
    intro fd p entered
    exact (entry fd p entered).imp_right fun same => ⟨same, notDead⟩

/-- A step that erases nothing from `gMap` and adds nothing to it. -/
theorem ownerEffect_of_sameMap
    {state next : State Tid Object}
    {this : Object}
    {owner : Owner}
    (caller : next.caller = state.caller)
    (touchedDead : next.touchedDead = state.touchedDead)
    (moved :
      next.owner = Function.update state.owner this owner)
    (notDead : owner.isDead = false)
    (gMap : next.gMap = state.gMap) :
    OwnerEffect state next this := by
  refine ownerEffect_of_update caller touchedDead moved notDead ?_
  intro fd p entered
  rw [gMap] at entered
  exact Or.inl entered

/-- Opening goes through `mq_unlink` and the assignments first. -/
theorem ownerEffect_openQueue
    (resetsLastMsgMsgId : Bool)
    (state : State Tid Object)
    (this : Object)
    (name : String)
    (maxmsg : Int64)
    (oCreat : Bool) :
    OwnerEffect state
      (openQueue resetsLastMsgMsgId state this name maxmsg oCreat)
      this :=
  ownerEffect_of_sameMap rfl rfl rfl rfl rfl

omit [DecidableEq Object] in
/-- Returning at once changes nothing. -/
theorem OwnerEffect.refl
    {state : State Tid Object}
    {this : Object}
    (notDead : (state.owner this).isDead = false) :
    OwnerEffect state state this where
  caller := rfl
  touchedDead := rfl
  owner := fun _ _ => rfl
  dead := fun dead => nomatch notDead.symm.trans dead
  entry := fun _ _ entered => Or.inl entered

/-- Each statement of `Open` and of the destructor. -/
theorem ownerEffect_ownerStep
    {state next : State Tid Object}
    {this : Object}
    {answer : OwnerAnswer}
    (stepped : ownerStep? state this answer = some next) :
    OwnerEffect state next this := by
  unfold ownerStep? at stepped
  cases phase : state.owner this with
  | unborn =>
      simp [phase] at stepped
  | idle =>
      simp [phase] at stepped
  | assign rest name maxmsg oCreat =>
      cases rest with
      | cons update rest =>
          simp only [phase, Option.some.injEq] at stepped
          subst next
          exact ownerEffect_of_sameMap rfl rfl rfl rfl rfl
      | nil =>
          simp only [phase, mqOpen?] at stepped
          split at stepped
          · obtain rfl := Option.some.inj stepped
            exact ownerEffect_of_sameMap rfl rfl rfl rfl rfl
          · simp only [Option.ite_none_right_eq_some,
              Option.some.injEq] at stepped
            obtain ⟨_, rfl⟩ := stepped
            exact ownerEffect_of_sameMap rfl rfl rfl rfl rfl
  | addMsgQueue fd =>
      simp only [phase, Option.some.injEq] at stepped
      subst next
      refine ownerEffect_of_update rfl rfl rfl rfl ?_
      intro number p entered
      by_cases here : number = fd
      · subst number
        simp only [State.setOwner, Function.update_self,
          Option.some.injEq] at entered
        exact Or.inr entered.symm
      · simp only [State.setOwner, Function.update_of_ne here]
          at entered
        exact Or.inl entered
  | testName =>
      simp only [phase] at stepped
      split at stepped
      · obtain rfl := Option.some.inj stepped
        exact ownerEffect_of_sameMap rfl rfl rfl rfl rfl
      · obtain rfl := Option.some.inj stepped
        exact ownerEffect_of_sameMap rfl rfl rfl rfl rfl
  | clear =>
      simp only [phase] at stepped
      split at stepped
      · obtain rfl := Option.some.inj stepped
        exact ownerEffect_of_sameMap rfl rfl rfl rfl rfl
      · obtain rfl := Option.some.inj stepped
        have same :
            state.owner =
              Function.update state.owner this .clear := by
          rw [← phase, Function.update_eq_self]
        exact ownerEffect_of_sameMap rfl rfl same rfl rfl
  | close =>
      simp only [phase] at stepped
      split at stepped
      · obtain rfl := Option.some.inj stepped
        exact ownerEffect_of_sameMap rfl rfl rfl rfl rfl
      · obtain rfl := Option.some.inj stepped
        exact ownerEffect_of_sameMap rfl rfl rfl rfl rfl
  | mqClose =>
      simp only [phase] at stepped
      split at stepped
      · obtain rfl := Option.some.inj stepped
        exact ownerEffect_of_sameMap rfl rfl rfl rfl rfl
      · obtain rfl := Option.some.inj stepped
        exact ownerEffect_of_sameMap rfl rfl rfl rfl rfl
  | delMsgQueue =>
      simp only [phase, Option.some.injEq] at stepped
      subst next
      refine ownerEffect_of_update rfl rfl rfl rfl ?_
      intro number p entered
      by_cases here : number = (state.members this).msgQueueFd
      · simp [State.setOwner, here] at entered
      · simp only [State.setOwner, Function.update_of_ne here]
          at entered
        exact Or.inl entered
  | mqUnlink =>
      simp only [phase, Option.some.injEq] at stepped
      subst next
      exact ownerEffect_of_sameMap rfl rfl rfl rfl rfl
  | complete =>
      simp only [phase, Option.some.injEq] at stepped
      subst next
      refine ⟨rfl, rfl, ?_, ?_, ?_⟩
      · intro other different
        exact Function.update_of_ne different ..
      · intro _
        rw [phase]
        rfl
      · intro fd p entered
        exact Or.inl entered
  | dead =>
      simp [phase] at stepped

end Effects

/-- The number of statements that a thread has left when `mq_send` fails. -/
def Caller.remaining {Object : Type} : Caller Object → Nat
  | .outside => 0
  | .free => 1
  | .logFailure _ => 2
  | .countOwn _ => 1
  | .countAll _ => 2
  | .msgObjPtr _ => 3
  | .msgData _ => 4
  | .mqSend _ _ _ _ => 5
  | .msgQueuePtr _ _ _ => 6

/-- Using a pointer changes nothing else. -/
theorem State.touch_frame
    (state : State Tid Object)
    (p : Option Object) :
    (state.touch p).owner = state.owner ∧
      (state.touch p).gMap = state.gMap ∧
      (state.touch p).caller = state.caller := by
  cases p <;> exact ⟨rfl, rfl, rfl⟩

section Callers

variable [DecidableEq Tid]

/-- A thread inside `Send` has come nearer to its end. -/
structure Advanced
    (state next : State Tid Object)
    (thread : Tid)
    (caller : Caller Object) :
    Prop where
  owner :
    next.owner = state.owner
  gMap :
    next.gMap = state.gMap
  moved :
    next.caller = Function.update state.caller thread caller
  remaining :
    caller.remaining < (state.caller thread).remaining

/-- A thread inside `Send` looks its pointer up, keeps it, or uses it. -/
inductive CallerMove
    (state next : State Tid Object)
    (thread : Tid) :
    Prop where
  | looksUp {caller : Caller Object} (fd : Int32) :
      Advanced state next thread caller →
      (state.caller thread).held? = none →
      caller.held? = state.gMap fd →
      next.touchedDead = state.touchedDead →
      CallerMove state next thread
  | keeps {caller : Caller Object} :
      Advanced state next thread caller →
      caller.held? = (state.caller thread).held? →
      next.touchedDead = state.touchedDead →
      CallerMove state next thread
  | uses {caller : Caller Object} (p : Option Object) :
      Advanced state next thread caller →
      (state.caller thread).held? = p →
      caller.held? = none →
      next.touchedDead = (state.touch p).touchedDead →
      CallerMove state next thread

/-- Moving a thread on without using its pointer. -/
theorem callerEffect_of_update
    {state next : State Tid Object}
    {thread : Tid}
    {caller : Caller Object}
    (owner : next.owner = state.owner)
    (gMap : next.gMap = state.gMap)
    (touchedDead : next.touchedDead = state.touchedDead)
    (moved :
      next.caller = Function.update state.caller thread caller)
    (held :
      ∀ p,
        caller.held? = some p →
        (state.caller thread).held? = some p ∨
          ∃ fd, state.gMap fd = some p) :
    CallerEffect state next thread := by
  refine ⟨owner, gMap, ?_, ?_, ?_⟩
  · intro other different
    rw [moved, Function.update_of_ne different]
  · intro p
    rw [moved, Function.update_self]
    exact held p
  · rw [touchedDead]
    exact Or.inl

/-- Using the pointer of a thread for the last time. -/
theorem callerEffect_of_touch
    {state next : State Tid Object}
    {thread : Tid}
    {caller : Caller Object}
    {p : Option Object}
    (owner : next.owner = state.owner)
    (gMap : next.gMap = state.gMap)
    (touched : next.touchedDead = (state.touch p).touchedDead)
    (moved :
      next.caller = Function.update state.caller thread caller)
    (nothing : caller.held? = none)
    (had :
      ∀ this,
        p = some this →
        (state.caller thread).held? = some this ∨
          ∃ fd, state.gMap fd = some this) :
    CallerEffect state next thread := by
  refine ⟨owner, gMap, ?_, ?_, ?_⟩
  · intro other different
    rw [moved, Function.update_of_ne different]
  · intro q
    rw [moved, Function.update_self, nothing]
    exact fun held => nomatch held
  · rw [touched]
    cases p with
    | none =>
        exact Or.inl
    | some this =>
        simp only [State.touch, Bool.or_eq_true]
        exact Or.imp_right fun dead => ⟨this, had this rfl, dead⟩

variable [DecidableEq Object]

/-- Each statement of `Send` moves its thread on in one of three ways. -/
theorem callerMove_of_callerStep
    {state next : State Tid Object}
    {thread : Tid}
    {accepts : Bool}
    (stepped : callerStep? state thread accepts = some next) :
    CallerMove state next thread := by
  unfold callerStep? at stepped
  cases phase : state.caller thread with
  | outside =>
      simp [phase] at stepped
  | msgQueuePtr fd pclsMsg s32Prio =>
      simp only [phase, Option.some.injEq] at stepped
      subst next
      exact .looksUp fd ⟨rfl, rfl, rfl, by simp [phase, Caller.remaining]⟩
        (by rw [phase]; rfl) rfl rfl
  | mqSend p fd pclsMsg s32Prio =>
      simp only [phase] at stepped
      split at stepped <;>
      · obtain rfl := Option.some.inj stepped
        exact .keeps ⟨rfl, rfl, rfl, by simp [phase, Caller.remaining]⟩
          (by rw [phase]; rfl) rfl
  | logFailure p =>
      simp only [phase, Option.some.injEq] at stepped
      subst next
      obtain ⟨owner, gMap, caller⟩ := state.touch_frame p
      exact .uses p
        ⟨owner, gMap, congrArg (Function.update · thread _) caller,
          by simp [phase, Caller.remaining]⟩
        (by rw [phase]; rfl) rfl rfl
  | free | msgData p | msgObjPtr p | countAll p =>
      simp only [phase, Option.some.injEq] at stepped
      subst next
      exact .keeps ⟨rfl, rfl, rfl, by simp [phase, Caller.remaining]⟩
        (by rw [phase]; rfl) rfl
  | countOwn p =>
      cases p with
      | none =>
          simp only [phase, Option.some.injEq] at stepped
          subst next
          exact .keeps ⟨rfl, rfl, rfl, by simp [phase, Caller.remaining]⟩
            (by rw [phase]; rfl) rfl
      | some this =>
          simp only [phase, Option.some.injEq] at stepped
          subst next
          exact .uses (some this)
            ⟨rfl, rfl, rfl, by simp [phase, Caller.remaining]⟩
            (by rw [phase]; rfl) rfl rfl

/-- Each statement of `Send`. -/
theorem callerEffect_callerStep
    {state next : State Tid Object}
    {thread : Tid}
    {accepts : Bool}
    (stepped : callerStep? state thread accepts = some next) :
    CallerEffect state next thread := by
  cases callerMove_of_callerStep stepped with
  | @looksUp caller fd advanced _ found untouched =>
      refine callerEffect_of_update advanced.owner advanced.gMap untouched
        advanced.moved ?_
      intro p held
      exact Or.inr ⟨fd, found.symm.trans held⟩
  | keeps advanced kept untouched =>
      refine callerEffect_of_update advanced.owner advanced.gMap untouched
        advanced.moved ?_
      rw [kept]
      exact fun _ => Or.inl
  | uses p advanced had nothing touched =>
      refine callerEffect_of_touch advanced.owner advanced.gMap touched
        advanced.moved nothing ?_
      rw [had]
      exact fun _ => Or.inl

omit [DecidableEq Object] in
/-- `MsgQueueName` uses what `gMap` has for the number. -/
theorem callerEffect_msgQueueName
    {state : State Tid Object}
    {thread : Tid}
    (outside : state.caller thread = .outside)
    (fd : Int32) :
    CallerEffect state (state.touch (state.gMap fd)) thread := by
  obtain ⟨owner, gMap, caller⟩ := state.touch_frame (state.gMap fd)
  have stays :
      (state.touch (state.gMap fd)).caller =
        Function.update state.caller thread .outside := by
    rw [← outside, Function.update_eq_self]
    exact caller
  refine callerEffect_of_touch owner gMap rfl stays rfl ?_
  exact fun this found => Or.inr ⟨fd, found⟩

/-- Every step is one of an owner or one of a thread. -/
theorem effect_of_step
    {state next : State Tid Object}
    {action : Action Tid Object}
    (stepped : step? state action = some next) :
    (∃ this,
      OwnerEffect state next this ∧
        ((state.owner this).isComplete = true →
          ∃ answer, action = .owner this answer)) ∨
      ∃ thread, CallerEffect state next thread := by
  cases action with
  | construct this =>
      left
      simp only [step?] at stepped
      split at stepped
      · rename_i unborn
        obtain rfl := Option.some.inj stepped
        refine ⟨this, ownerEffect_of_sameMap rfl rfl rfl rfl rfl, ?_⟩
        rw [unborn]
        exact fun complete => nomatch complete
      · cases stepped
  | openMaxmsg this name maxmsg oCreat =>
      left
      simp only [step?] at stepped
      split at stepped
      · rename_i idle
        obtain rfl := Option.some.inj stepped
        refine ⟨this, ?_, ?_⟩
        · cases name with
          | none => exact OwnerEffect.refl (by rw [idle]; rfl)
          | some name => exact ownerEffect_openQueue ..
        · rw [idle]
          exact fun complete => nomatch complete
      · cases stepped
  | openAttr this name pattr oCreat =>
      left
      simp only [step?] at stepped
      split at stepped
      · rename_i idle
        obtain rfl := Option.some.inj stepped
        refine ⟨this, ?_, ?_⟩
        · cases name with
          | none => exact OwnerEffect.refl (by rw [idle]; rfl)
          | some name =>
              cases pattr with
              | none => exact OwnerEffect.refl (by rw [idle]; rfl)
              | some maxmsg => exact ownerEffect_openQueue ..
        · rw [idle]
          exact fun complete => nomatch complete
      · cases stepped
  | destroy this =>
      left
      simp only [step?] at stepped
      split at stepped
      · rename_i idle
        obtain rfl := Option.some.inj stepped
        refine ⟨this, ownerEffect_of_sameMap rfl rfl rfl rfl rfl, ?_⟩
        rw [idle]
        exact fun complete => nomatch complete
      · cases stepped
  | owner this answer =>
      left
      exact ⟨this, ownerEffect_ownerStep stepped,
        fun _ => ⟨answer, rfl⟩⟩
  | send thread fd pclsMsg s32Prio =>
      right
      simp only [step?] at stepped
      split at stepped
      · obtain rfl := Option.some.inj stepped
        refine ⟨thread, ?_⟩
        unfold send
        split
        · refine callerEffect_of_update rfl rfl rfl rfl ?_
          exact fun _ held => nomatch held
        · refine callerEffect_of_update rfl rfl rfl rfl ?_
          exact fun _ held => nomatch held
      · cases stepped
  | msgQueueName thread fd =>
      right
      simp only [step?] at stepped
      split at stepped
      · rename_i outside
        obtain rfl := Option.some.inj stepped
        exact ⟨thread, callerEffect_msgQueueName outside fd⟩
      · cases stepped
  | caller thread accepts =>
      right
      exact ⟨thread, callerEffect_callerStep stepped⟩

/-- A step keeps everything safe if a destruction completes alone. -/
theorem Safe.step
    {state next : State Tid Object}
    {action : Action Tid Object}
    (safe : Safe state)
    (alone : CompletesAlone state action)
    (stepped : step? state action = some next) :
    Safe next := by
  rcases effect_of_step stepped with
    ⟨this, effect, completes⟩ | ⟨thread, effect⟩
  · apply safe.ownerEffect effect
    intro complete
    obtain ⟨answer, rfl⟩ := completes complete
    exact alone complete
  · exact safe.callerEffect effect

/-- Everything is safe in the runs in which destructions complete alone. -/
theorem safe_of_completesAlone
    {state : State Tid Object}
    (reachable : machine.ReachableWhere CompletesAlone state) :
    Safe state := by
  apply reachable.invariant
  · rintro _ ⟨storage, rfl⟩
    constructor
    · exact fun held => nomatch held
    · exact fun entered => nomatch entered
    · rfl
  · intro before after action safe alone stepped
    exact safe.step alone stepped

end Callers

section Finishing

variable [DecidableEq Tid] [DecidableEq Object]

/-- A failing `mq_send` never keeps a thread from going on. -/
theorem exists_callerStep
    {state : State Tid Object}
    {thread : Tid}
    (inside : state.caller thread ≠ .outside) :
    ∃ next, callerStep? state thread false = some next := by
  rw [← Option.isSome_iff_exists]
  unfold callerStep?
  cases phase : state.caller thread with
  | outside => exact absurd phase inside
  | msgQueuePtr fd pclsMsg s32Prio => rfl
  | mqSend p fd pclsMsg s32Prio =>
      simp only
      split <;> rfl
  | logFailure p => rfl
  | free => rfl
  | msgData p => rfl
  | msgObjPtr p => rfl
  | countAll p => rfl
  | countOwn p => cases p <;> rfl

/-- Each statement of `Send` brings its thread nearer to its end. -/
theorem remaining_callerStep
    {state next : State Tid Object}
    {thread : Tid}
    {accepts : Bool}
    (stepped : callerStep? state thread accepts = some next) :
    (next.caller thread).remaining <
      (state.caller thread).remaining := by
  cases callerMove_of_callerStep stepped with
  | looksUp _ advanced | keeps advanced | uses _ advanced =>
      rw [advanced.moved, Function.update_self]
      exact advanced.remaining

/-- Each statement of `Send` keeps its pointer or uses it. -/
theorem uses_callerStep
    {state next : State Tid Object}
    {thread : Tid}
    {accepts : Bool}
    (stepped : callerStep? state thread accepts = some next) :
    (state.touchedDead = true → next.touchedDead = true) ∧
      ∀ p,
        (state.caller thread).held? = some p →
        (state.owner p).isDead = true →
        (next.caller thread).held? = some p ∨
          next.touchedDead = true := by
  cases callerMove_of_callerStep stepped with
  | looksUp fd advanced nothing _ untouched =>
      rw [untouched, nothing]
      exact ⟨id, fun _ held => nomatch held⟩
  | keeps advanced kept untouched =>
      rw [untouched, advanced.moved, Function.update_self, kept]
      exact ⟨id, fun _ held _ => Or.inl held⟩
  | uses p advanced had _ touched =>
      rw [touched, had]
      cases p with
      | none =>
          exact ⟨id, fun _ held => nomatch held⟩
      | some this =>
          simp +contextual [State.touch]

/-- A thread can leave `Send`, and has then used its pointer. -/
theorem exists_finished
    (state : State Tid Object)
    (thread : Tid) :
    ∃ actions final,
      machine.run? state actions = some final ∧
        final.caller thread = .outside ∧
        final.owner = state.owner ∧
        final.gMap = state.gMap ∧
        (state.touchedDead = true → final.touchedDead = true) ∧
        ∀ p,
          (state.caller thread).held? = some p →
          (state.owner p).isDead = true →
          final.touchedDead = true := by
  induction bound : (state.caller thread).remaining
      using Nat.strongRecOn generalizing state with
  | ind left inductionHypothesis =>
      by_cases inside : state.caller thread = .outside
      · refine ⟨[], state, rfl, inside, rfl, rfl, id, ?_⟩
        rw [inside]
        exact fun _ held => nomatch held
      · obtain ⟨next, stepped⟩ := exists_callerStep inside
        have effect := callerEffect_callerStep stepped
        obtain ⟨keeps, uses⟩ := uses_callerStep stepped
        obtain ⟨actions, final, ran, outside, sameOwner, sameMap,
            stays, used⟩ :=
          inductionHypothesis _
            (bound ▸ remaining_callerStep stepped) next rfl
        refine ⟨.caller thread false :: actions, final, ?_, outside,
          sameOwner.trans effect.owner, sameMap.trans effect.gMap,
          fun touched => stays (keeps touched), ?_⟩
        · simp only [Machine.run?, machine, step?, stepped]
          exact ran
        · intro p held dead
          rcases uses p held dead with still | touched
          · exact used p still (by rw [effect.owner]; exact dead)
          · exact stays touched

/-- A destroyed object with a pointer left can still be used. -/
theorem exists_touched
    [Nonempty Tid]
    {state : State Tid Object}
    {this : Object}
    (dead : (state.owner this).isDead = true)
    (referenced : ¬ Unreferenced state this) :
    ∃ actions final,
      machine.run? state actions = some final ∧
        final.touchedDead = true := by
  simp only [Unreferenced, not_and_or, not_forall, not_not]
    at referenced
  rcases referenced with ⟨thread, held⟩ | ⟨fd, entered⟩
  · obtain ⟨actions, final, ran, _, _, _, _, used⟩ :=
      exists_finished state thread
    exact ⟨actions, final, ran, used this held dead⟩
  · obtain ⟨thread⟩ := ‹Nonempty Tid›
    obtain ⟨actions, final, ran, outside, owner, gMap, _, _⟩ :=
      exists_finished state thread
    refine ⟨actions ++ [.msgQueueName thread fd],
      final.touch (some this), ?_, ?_⟩
    · rw [Machine.run?_append, ran]
      simp [machine, step?, outside, gMap, entered]
    · simp [State.touch, owner, dead]

/--
`Send` and `MsgQueueName` never use a destroyed object exactly in the runs in
which every destruction completes when no thread inside `Send` and no entry of
`gMap` has a pointer to the object: such runs never do, and a destruction that
completes earlier can be continued to such a use.
-/
theorem untouched_iff_completesAlone
    [Nonempty Tid] :
    (∀ state : State Tid Object,
      machine.ReachableWhere CompletesAlone state →
      state.touchedDead = false) ∧
      ∀ (state next : State Tid Object) (action : Action Tid Object),
        machine.ReachableWhere CompletesAlone state →
        machine.step? state action = some next →
        ¬ CompletesAlone state action →
        ∃ actions final,
          machine.run? next actions = some final ∧
            final.touchedDead = true := by
  constructor
  · intro state reachable
    exact (safe_of_completesAlone reachable).untouched
  · intro state next action _ stepped breaks
    cases action with
    | owner this answer =>
        obtain ⟨complete, referenced⟩ := Classical.not_imp.mp breaks
        simp only [machine, step?, ownerStep?] at stepped
        cases phase : state.owner this with
        | complete =>
            simp only [phase, Option.some.injEq] at stepped
            subst next
            refine exists_touched ?_ referenced
            rw [State.setOwner_owner]
            rfl
        | _ =>
            rw [phase] at complete
            cases complete
    | _ => exact absurd trivial breaks

/-- The steps that complete no destruction. -/
def completesNothing
    (state : State Tid Object) :
    Action Tid Object → Bool
  | .owner this _ => !(state.owner this).isComplete
  | _ => true

omit [DecidableEq Tid] [DecidableEq Object] in
/-- A step that completes no destruction leaves no pointer behind. -/
theorem completesAlone_of_completesNothing
    {state : State Tid Object}
    {action : Action Tid Object}
    (nothing : completesNothing state action = true) :
    CompletesAlone state action := by
  cases action with
  | owner this answer =>
      intro complete
      simp [completesNothing, complete] at nothing
  | _ => trivial

/-- An object is opened, a thread looks it up, and its destructor runs. -/
def lookupThenDestroy : List (Action (Fin 1) (Fin 1)) :=
  [.construct 0, .openMaxmsg 0 (some "/a") 8 true] ++
    List.replicate 6 (.owner 0 {}) ++
  [.owner 0 { fd := some 3 },
    .owner 0 {},
    .send 0 3 mesg 0,
    .caller 0 true,
    .destroy 0,
    .owner 0 {},
    .owner 0 {},
    .owner 0 {},
    .owner 0 { closes := true },
    .owner 0 {},
    .owner 0 {}]

/-- Storage with nothing in it. -/
def blankMembers : Fin 1 → Members :=
  fun _ => { blankStorage 0 with msgQueueName := "", msgQueueSize := 0 }

/--
Nothing was used while the destructor ran, and its completion can be continued
to a use by the thread that looked the object up before.
-/
theorem untouched_iff_completesAlone_lookedUp :
    ∃ state : State (Fin 1) (Fin 1),
      state.touchedDead = false ∧
        ∃ actions final,
          machine.run? state (.owner 0 {} :: actions) = some final ∧
            final.touchedDead = true := by
  obtain ⟨state, reachable, completing⟩ :=
    Machine.ReachableWhere.exists_of_run
      machine
      CompletesAlone
      (State.atStart blankMembers)
      lookupThenDestroy
      (fun state =>
        (machine.step? state (.owner 0 {})).isSome &&
          ((state.owner 0).isComplete &&
            decide ((state.caller 0).held? = some 0)))
      ⟨blankMembers, rfl⟩
      (Machine.Respects.mono completesAlone_of_completesNothing
        (show machine.Respects
            (fun state action => completesNothing state action = true)
            _ _ by decide))
      (by decide)
  simp only [Bool.and_eq_true, decide_eq_true_eq,
    Option.isSome_iff_exists] at completing
  obtain ⟨⟨next, stepped⟩, complete, held⟩ := completing
  obtain ⟨actions, final, ran, touched⟩ :=
    untouched_iff_completesAlone.2 state next (.owner 0 {}) reachable
      stepped (fun alone => (alone complete).1 0 held)
  refine ⟨state, untouched_iff_completesAlone.1 state reachable,
    actions, final, ?_, touched⟩
  rw [Machine.run?, stepped]
  exact ran

/--
A thread looks an object up, its owner destroys it, and the thread's `mq_send`
fails: `Send` then reads a member of the destroyed object.
-/
theorem send_touches_dead :
    ¬ ∀ state : State (Fin 1) (Fin 1),
      machine.Reachable state →
      state.touchedDead = false := by
  intro untouched
  obtain ⟨state, reachable, touched⟩ :=
    Machine.exists_reachable
      machine
      (State.atStart blankMembers)
      (lookupThenDestroy ++
        [.owner 0 {}, .caller 0 true, .caller 0 true])
      State.touchedDead
      ⟨blankMembers, rfl⟩
      (by decide)
  rw [untouched state reachable] at touched
  cases touched

end Finishing

end WkcRuntime.MsgQueueThreads
