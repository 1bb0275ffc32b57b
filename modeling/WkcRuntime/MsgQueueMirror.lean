import WkcRuntime.MsgQueueTable

namespace WkcRuntime.MsgQueue

open MessageQueue

/-!
# `gMap` as a mirror of the open queues

`Open` enters its number into `gMap` without removing the number that the object
had before, an object keeps its number after `Close`, and `DelMsgQueue` erases a
number whoever it belongs to.  The mirror therefore survives a call exactly when
`Open` finds the object without an entry, a close does not go through a number
that another open object is found under, and the destructor of an object with an
entry gets its number closed.
-/

variable {Object Obj : Type}

namespace Table

/-- Every entry is right, and every open object is found. -/
structure Mirror (table : Table Object) : Prop where
  entry :
    ∀ {fd this},
      table.gMap fd = some this →
      table.alive this = true ∧
        (table.descriptor fd).isSome = true ∧
        table.fdOf this = fd
  found :
    ∀ {this},
      table.opened this = true →
      table.gMap (table.fdOf this) = some this

/-- The object is found under its number. -/
def Registered
    (table : Table Object)
    (this : Object) :
    Prop :=
  table.gMap (table.fdOf this) = some this

/-- A close does not go through a number where another open object is found. -/
def CloseSpares
    (table : Table Object)
    (this : Object)
    (closes : Bool) :
    Prop :=
  match table.gMap (table.fdOf this) with
  | none =>
      True
  | some other =>
      closes = true →
      other = this ∨ table.opened other = false

variable [DecidableEq Object]

instance
    (table : Table Object)
    (this : Object) :
    Decidable (table.Registered this) :=
  inferInstanceAs
    (Decidable (table.gMap (table.fdOf this) = some this))

instance
    (table : Table Object)
    (this : Object)
    (closes : Bool) :
    Decidable (table.CloseSpares this closes) :=
  match found : table.gMap (table.fdOf this) with
  | none =>
      isTrue (by simp [CloseSpares, found])
  | some other =>
      decidable_of_iff
        (closes = true →
          other = this ∨ table.opened other = false)
        (by simp [CloseSpares, found])

omit [DecidableEq Object] in
/-- An object with an entry has it under its own number. -/
theorem Mirror.registered
    {table : Table Object}
    (mirror : table.Mirror)
    {fd : Int32}
    {this : Object}
    (entered : table.gMap fd = some this) :
    table.Registered this := by
  rw [Registered, (mirror.entry entered).2.2]
  exact entered

omit [DecidableEq Object] in
/-- A number with an entry can be closed. -/
theorem Mirror.closes
    {table : Table Object}
    (mirror : table.Mirror)
    (sane : table.Sane)
    {this other : Object}
    (entered : table.gMap (table.fdOf this) = some other) :
    table.Closes this true := by
  have isOpen := (mirror.entry entered).2.1
  obtain ⟨queue, refers⟩ := Option.isSome_iff_exists.mp isOpen
  exact ⟨rfl, Int32.not_lt.mpr (sane.nonneg refers), isOpen⟩

omit [DecidableEq Object] in
/-- A close that is refused spares everybody. -/
theorem Mirror.closeSpares_of_not_closes
    {table : Table Object}
    (mirror : table.Mirror)
    (sane : table.Sane)
    {this : Object}
    {closes : Bool}
    (refused : ¬ table.Closes this closes) :
    table.CloseSpares this closes := by
  unfold CloseSpares
  split
  · trivial
  · rename_i other entered
    rintro rfl
    exact absurd (mirror.closes sane entered) refused

/-- A close keeps the mirror exactly when it spares other open objects. -/
theorem Mirror.close_iff
    {table : Table Object}
    (mirror : table.Mirror)
    (sane : table.Sane)
    (this : Object)
    (closes : Bool) :
    (table.close this closes).Mirror ↔
      table.CloseSpares this closes := by
  unfold close
  by_cases accepted : table.Closes this closes
  · rw [if_pos accepted]
    constructor
    · intro kept
      unfold CloseSpares
      split
      · trivial
      · rename_i other entered
        intro _
        by_contra foreign
        obtain ⟨different, opened⟩ := not_or.mp foreign
        have stillOpened :
            Function.update table.opened this false other = true := by
          simpa [different] using opened
        have stillFound := kept.found stillOpened
        simp [(mirror.entry entered).2.2] at stillFound
    · intro spares
      constructor
      · intro fd other entered
        by_cases gone : fd = table.fdOf this
        · simp [gone] at entered
        · simp only [Function.update_of_ne gone] at entered ⊢
          exact mirror.entry entered
      · intro other opened
        by_cases here : other = this
        · simp [here] at opened
        · simp only [Function.update_of_ne here] at opened
          have found := mirror.found opened
          have elsewhere : table.fdOf other ≠ table.fdOf this := by
            intro same
            rw [same] at found
            simp [CloseSpares, found, here, opened, accepted.1] at spares
          simpa [elsewhere] using found
  · rw [if_neg accepted]
    exact iff_of_true mirror
      (mirror.closeSpares_of_not_closes sane accepted)

/-- A living object with an entry has a name, so `Unlink` reaches `Close`. -/
theorem Mirror.unlink_iff
    {table : Table Object}
    (mirror : table.Mirror)
    (sane : table.Sane)
    {this : Object}
    (alive : table.alive this = true)
    (closes : Bool) :
    (table.unlink this closes).Mirror ↔
      table.CloseSpares this closes := by
  unfold unlink
  by_cases nameless : table.msgQueueName this = ""
  · rw [if_pos nameless]
    apply iff_of_true mirror
    apply mirror.closeSpares_of_not_closes sane
    intro accepted
    exact sane.named alive (Int32.not_lt.mp accepted.2.1) nameless
  · rw [if_neg nameless]
    exact mirror.close_iff sane this closes

/-- The object is gone, and what it had is marked as closed. -/
theorem mirror_gone_iff
    {table : Table Object}
    {this : Object}
    (noEntry : ∀ fd, table.gMap fd ≠ some this)
    (closed : table.opened this = false) :
    ({ table with
        alive := Function.update table.alive this false
        opened := Function.update table.opened this false
        holds := Function.update table.holds this none
      } : Table Object).Mirror ↔ table.Mirror := by
  have sameOpened :
      Function.update table.opened this false = table.opened := by
    rw [← closed, Function.update_eq_self]
  rw [sameOpened]
  constructor
  · intro kept
    refine ⟨?_, kept.found⟩
    intro fd other entered
    have different : other ≠ this := by
      rintro rfl
      exact noEntry fd entered
    simpa [different] using kept.entry entered
  · intro mirror
    refine ⟨?_, mirror.found⟩
    intro fd other entered
    have different : other ≠ this := by
      rintro rfl
      exact noEntry fd entered
    simpa [different] using mirror.entry entered

/--
The destructor keeps the mirror exactly when its close spares other open
objects and goes through for an object that has an entry.
-/
theorem Mirror.destroy_iff
    {table : Table Object}
    (mirror : table.Mirror)
    (sane : table.Sane)
    {this : Object}
    (alive : table.alive this = true)
    (closes : Bool) :
    (table.destroy this closes).Mirror ↔
      table.CloseSpares this closes ∧
        (table.Registered this → closes = true) := by
  by_cases accepted : table.Closes this closes
  · have named : table.msgQueueName this ≠ "" :=
      sane.named alive (Int32.not_lt.mp accepted.2.1)
    have unlinked :
        table.unlink this closes = table.close this closes :=
      if_neg named
    rw [destroy, unlinked]
    rw [mirror_gone_iff, mirror.close_iff sane]
    · exact (and_iff_left (fun _ => accepted.1)).symm
    · intro fd entered
      rw [close, if_pos accepted] at entered
      by_cases gone : fd = table.fdOf this
      · simp [gone] at entered
      · simp only [Function.update_of_ne gone] at entered
        exact gone (mirror.entry entered).2.2.symm
    · rw [close, if_pos accepted]
      simp
  · have spares := mirror.closeSpares_of_not_closes sane accepted
    have unchanged : table.unlink this closes = table := by
      unfold unlink close
      rw [if_neg accepted, ite_self]
    rw [destroy, unchanged]
    by_cases registered : table.Registered this
    · apply iff_of_false
      · intro kept
        have dead := (kept.entry registered).1
        simp at dead
      · rintro ⟨_, mustClose⟩
        have must := mustClose registered
        subst closes
        exact accepted (mirror.closes sane registered)
    · rw [mirror_gone_iff]
      · exact iff_of_true mirror
          ⟨spares, fun entered => absurd entered registered⟩
      · intro fd entered
        exact registered (mirror.registered entered)
      · rw [← Bool.not_eq_true]
        intro opened
        exact registered (mirror.found opened)

/-- `Open` keeps the mirror exactly when the object has no entry yet. -/
theorem Mirror.openQueue_iff
    {table : Table Object}
    (mirror : table.Mirror)
    (sane : table.Sane)
    {this : Object}
    (alive : table.alive this = true)
    (name : String)
    (oCreat : Bool)
    {answer : Option Int32}
    (answerable :
      ∀ fd,
        answer = some fd →
        0 ≤ fd ∧ table.descriptor fd = none) :
    (table.openQueue this name oCreat answer).Mirror ↔
      ¬ table.Registered this := by
  have other_of_entry :
      ¬ table.Registered this →
      ∀ {fd other},
        table.gMap fd = some other →
        other ≠ this := by
    rintro unregistered fd other entered rfl
    exact unregistered (mirror.registered entered)
  unfold openQueue
  cases answered : mqOpenAnswer name oCreat answer with
  | none =>
      constructor
      · intro kept registered
        have number := (kept.entry registered).2.2
        have handle := (mirror.closes sane registered).2.1
        simp only [Function.update_self] at number
        rw [← number] at handle
        exact handle (by decide)
      · intro unregistered
        constructor
        · intro fd other entered
          have different := other_of_entry unregistered entered
          simpa [different] using mirror.entry entered
        · intro other opened
          by_cases here : other = this
          · simp [here] at opened
          · simp only [Function.update_of_ne here] at opened ⊢
            exact mirror.found opened
  | some new =>
      obtain ⟨_, rfl⟩ := mqOpenAnswer_eq_some answered
      obtain ⟨_, unused⟩ := answerable new rfl
      have old_of_entry :
          ∀ {fd other},
            table.gMap fd = some other →
            fd ≠ new := by
        rintro fd other entered rfl
        have isOpen := (mirror.entry entered).2.1
        simp [unused] at isOpen
      constructor
      · intro kept registered
        have old := old_of_entry registered
        have stays :
            Function.update table.gMap new (some this)
                (table.fdOf this) = some this := by
          rw [Function.update_of_ne old]
          exact registered
        have number := (kept.entry stays).2.2
        simp only [Function.update_self] at number
        exact old number.symm
      · intro unregistered
        constructor
        · intro fd other entered
          by_cases isNew : fd = new
          · subst fd
            simp only [Function.update_self, Option.some.injEq]
              at entered
            subst other
            simpa using alive
          · simp only [Function.update_of_ne isNew] at entered ⊢
            have different := other_of_entry unregistered entered
            simpa [different] using mirror.entry entered
        · intro other opened
          by_cases here : other = this
          · simp [here]
          · simp only [Function.update_of_ne here] at opened ⊢
            have found := mirror.found opened
            rw [Function.update_of_ne (old_of_entry found)]
            exact found

/-- `Open` with a null pointer keeps the mirror. -/
theorem Mirror.openNull
    {table : Table Object}
    (mirror : table.Mirror)
    (this : Object) :
    (table.openNull this).Mirror := by
  refine ⟨mirror.entry, ?_⟩
  intro other opened
  by_cases here : other = this
  · simp [Table.openNull, here] at opened
  · simp only [Table.openNull, Function.update_of_ne here] at opened
    exact mirror.found opened

/-- A construction keeps the mirror. -/
theorem Mirror.construct
    {table : Table Object}
    (mirror : table.Mirror)
    {this : Object}
    (dead : table.alive this = false) :
    (table.construct this).Mirror := by
  have other_of_alive :
      ∀ {other},
        table.alive other = true →
        other ≠ this := by
    rintro other alive rfl
    rw [dead] at alive
    cases alive
  constructor
  · intro fd other entered
    have right := mirror.entry entered
    simpa [Table.construct, other_of_alive right.1] using right
  · intro other opened
    have found := mirror.found opened
    have different := other_of_alive (mirror.entry found).1
    simpa [Table.construct, different] using found

end Table

section Runs

/-- Nothing is entered and nothing is open at the start. -/
theorem mirror_atStart
    (storage : Object → MsgQueueObject) :
    (Registry.atStart storage : Registry Object Obj).table.Mirror where
  entry := fun entered => nomatch entered
  found := fun opened => nomatch opened

variable [DecidableEq Object]

/-- The calls that leave the mirror intact. -/
def SparesMirror
    (registry : Registry Object Obj) :
    Operation Object → Prop
  | .openMaxmsg this (some _) _ _ _ =>
      ¬ registry.table.Registered this
  | .openAttr this (some _) (some _) _ _ =>
      ¬ registry.table.Registered this
  | .close this closes =>
      registry.table.CloseSpares this closes
  | .unlink this _ closes =>
      registry.table.CloseSpares this closes
  | .destroy this _ closes =>
      registry.table.CloseSpares this closes ∧
        (registry.table.Registered this → closes = true)
  | _ =>
      True

instance
    (registry : Registry Object Obj) :
    ∀ operation, Decidable (SparesMirror registry operation)
  | .construct _ => isTrue trivial
  | .openMaxmsg _ none _ _ _ => isTrue trivial
  | .openMaxmsg this (some _) _ _ _ =>
      inferInstanceAs (Decidable (¬ registry.table.Registered this))
  | .openAttr _ none _ _ _ => isTrue trivial
  | .openAttr _ (some _) none _ _ => isTrue trivial
  | .openAttr this (some _) (some _) _ _ =>
      inferInstanceAs (Decidable (¬ registry.table.Registered this))
  | .send _ _ _ _ => isTrue trivial
  | .sendTo _ _ _ _ => isTrue trivial
  | .receive _ _ _ _ => isTrue trivial
  | .clear _ _ => isTrue trivial
  | .close this closes =>
      inferInstanceAs
        (Decidable (registry.table.CloseSpares this closes))
  | .unlink this _ closes =>
      inferInstanceAs
        (Decidable (registry.table.CloseSpares this closes))
  | .destroy this _ closes =>
      inferInstanceAs
        (Decidable
          (registry.table.CloseSpares this closes ∧
            (registry.table.Registered this → closes = true)))

/-- A call keeps the mirror exactly when it is one of those. -/
theorem mirror_step_iff
    {registry next : Registry Object Obj}
    {operation : Operation Object}
    (mirror : registry.table.Mirror)
    (sane : registry.table.Sane)
    (stepped : registryStep? registry operation = some next) :
    next.table.Mirror ↔ SparesMirror registry operation := by
  rw [table_registryStep stepped]
  cases operation with
  | construct this =>
      simp only [registryStep?, Option.ite_none_right_eq_some]
        at stepped
      exact iff_of_true (mirror.construct stepped.1) trivial
  | openMaxmsg this name maxmsg oCreat answer =>
      cases name with
      | none =>
          exact iff_of_true (mirror.openNull this) trivial
      | some name =>
          obtain ⟨answerable, alive, _⟩ :=
            answered_eq_some_iff.mp stepped
          apply mirror.openQueue_iff sane alive
          rintro fd rfl
          exact answerable
  | openAttr this name pattr oCreat answer =>
      cases name with
      | none =>
          exact iff_of_true (mirror.openNull this) trivial
      | some name =>
          cases pattr with
          | none =>
              exact iff_of_true (mirror.openNull this) trivial
          | some maxmsg =>
              obtain ⟨answerable, alive, _⟩ :=
                answered_eq_some_iff.mp stepped
              apply mirror.openQueue_iff sane alive
              rintro fd rfl
              exact answerable
  | send this pclsMsg s32Prio accepts =>
      exact iff_of_true mirror trivial
  | sendTo fd pclsMsg s32Prio accepts =>
      exact iff_of_true mirror trivial
  | receive this pclsMsg isPolling answers =>
      exact iff_of_true mirror trivial
  | clear this rounds =>
      exact iff_of_true mirror trivial
  | close this closes =>
      exact mirror.close_iff sane this closes
  | unlink this rounds closes =>
      obtain ⟨alive, _⟩ := onAlive_eq_some_iff.mp stepped
      exact mirror.unlink_iff sane alive closes
  | destroy this rounds closes =>
      obtain ⟨alive, _⟩ := onAlive_eq_some_iff.mp stepped
      exact mirror.destroy_iff sane alive closes

/-- The mirror stands in every run of such calls. -/
theorem mirror_of_sparesMirror
    {registry : Registry Object Obj}
    (reachable :
      registryMachine.ReachableWhere SparesMirror registry) :
    registry.table.Mirror ∧ registry.table.Sane := by
  apply reachable.invariant
  · rintro _ ⟨storage, rfl⟩
    exact ⟨mirror_atStart storage, sane_atStart storage⟩
  · rintro before after operation ⟨mirror, sane⟩ spares stepped
    exact ⟨(mirror_step_iff mirror sane stepped).mpr spares,
      sane_registryStep sane stepped⟩

/--
`gMap` mirrors the open queues exactly in the runs in which every `Open` finds
its object without an entry, no close goes through a number under which another
open object is found, and the destructor of an object with an entry gets its
number closed: such runs keep the mirror, and a call breaks it at once exactly
when it breaks the condition.
-/
theorem mirror_iff_sparesMirror :
    (∀ registry : Registry Object Obj,
      registryMachine.ReachableWhere SparesMirror registry →
      registry.table.Mirror) ∧
      ∀ (registry next : Registry Object Obj)
          (operation : Operation Object),
        registryMachine.ReachableWhere SparesMirror registry →
        registryMachine.step? registry operation = some next →
        (next.table.Mirror ↔ SparesMirror registry operation) := by
  constructor
  · intro registry reachable
    exact (mirror_of_sparesMirror reachable).1
  · intro registry next operation reachable stepped
    obtain ⟨mirror, sane⟩ := mirror_of_sparesMirror reachable
    exact mirror_step_iff mirror sane stepped

/--
One object is opened, closed and opened again under the same number; closing it
once more keeps the mirror, and opening it once more would not.
-/
theorem mirror_iff_sparesMirror_reopened :
    ∃ registry : Registry (Fin 2) Unit,
      registry.table.Mirror ∧
        registry.table.gMap 3 = some 0 ∧
        ∃ next,
          registryMachine.step? registry
              (.openMaxmsg 0 (some "/b") 8 true (some 4)) =
            some next ∧
            ¬ next.table.Mirror := by
  obtain ⟨registry, reachable, reopened⟩ :=
    Machine.ReachableWhere.exists_of_run
      registryMachine
      SparesMirror
      (Registry.atStart blankStorage : Registry (Fin 2) Unit)
      [
        .construct 0,
        .openMaxmsg 0 (some "/a") 8 true (some 3),
        .close 0 true,
        .openMaxmsg 0 (some "/a") 8 true (some 3)
      ]
      (fun registry =>
        decide (registry.table.gMap 3 = some 0) &&
          ((registryMachine.step? registry
            (.openMaxmsg 0 (some "/b") 8 true (some 4))).isSome &&
          !decide (SparesMirror registry
            (.openMaxmsg 0 (some "/b") 8 true (some 4)))))
      ⟨blankStorage, rfl⟩
      (by decide)
      (by decide)
  simp only [Bool.and_eq_true, decide_eq_true_eq, Bool.not_eq_true',
    decide_eq_false_iff_not, Option.isSome_iff_exists] at reopened
  obtain ⟨entered, ⟨next, stepped⟩, breaks⟩ := reopened
  refine ⟨registry, mirror_iff_sparesMirror.1 registry reachable,
    entered, next, stepped, ?_⟩
  intro kept
  exact breaks
    ((mirror_iff_sparesMirror.2 registry next _ reachable stepped).mp
      kept)

/--
An object is opened twice: its first number stays in `gMap` although the object
has the second one.
-/
theorem secondOpen_breaks :
    ¬ ∀ registry : Registry (Fin 2) Unit,
      registryMachine.Reachable registry →
      registry.table.Mirror := by
  intro mirrors
  obtain ⟨registry, reachable, twice⟩ :=
    Machine.exists_reachable
      registryMachine
      (Registry.atStart blankStorage : Registry (Fin 2) Unit)
      [
        .construct 0,
        .openMaxmsg 0 (some "/a") 8 true (some 3),
        .openMaxmsg 0 (some "/a") 8 true (some 4)
      ]
      (fun registry =>
        decide (registry.table.gMap 3 = some 0) &&
          decide (registry.table.fdOf 0 = 4))
      ⟨blankStorage, rfl⟩
      (by decide)
  simp only [Bool.and_eq_true, decide_eq_true_eq] at twice
  have number := ((mirrors registry reachable).entry twice.1).2.2
  rw [twice.2] at number
  exact absurd number (by decide)

end Runs

end WkcRuntime.MsgQueue
