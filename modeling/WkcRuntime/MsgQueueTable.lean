import WkcRuntime.MsgQueueRegistry

namespace WkcRuntime.MsgQueue

open Mesg MessageQueue

/-!
# The table of descriptor numbers

Which number belongs to which object and which queue is a small part of the
registry.  On this table `Send`, `Receive` and `Clear` do nothing, and `Open`,
`Close`, `Unlink` and the destructor change one number: the table of the
registry after a call is the table before it after `Table.step`.  What holds of
the table in every run is collected in `Table.Sane`.
-/

section Process

variable {Object Queue Obj : Type}

/-- The same numbers belong to the same objects and queues. -/
structure SameNumbers
    (process next : Process Object Queue Obj) :
    Prop where
  gMap :
    next.gMap = process.gMap
  descriptor :
    next.kernel.descriptor = process.kernel.descriptor
  fd :
    ∀ this,
      (next.object this).msgQueueFd = (process.object this).msgQueueFd

/-- Nothing changed. -/
theorem SameNumbers.refl
    (process : Process Object Queue Obj) :
    SameNumbers process process :=
  ⟨rfl, rfl, fun _ => rfl⟩

/-- One change after the other. -/
theorem SameNumbers.trans
    {first second third : Process Object Queue Obj}
    (before : SameNumbers first second)
    (after : SameNumbers second third) :
    SameNumbers first third where
  gMap := after.gMap.trans before.gMap
  descriptor := after.descriptor.trans before.descriptor
  fd := fun this => (after.fd this).trans (before.fd this)

variable [DecidableEq Object]

/-- Replacing an object by one with the same number. -/
theorem sameNumbers_of_update
    {process next : Process Object Queue Obj}
    {this : Object}
    {object : MsgQueueObject}
    (gMap : next.gMap = process.gMap)
    (descriptor : next.kernel.descriptor = process.kernel.descriptor)
    (updated :
      next.object = Function.update process.object this object)
    (same :
      object.msgQueueFd = (process.object this).msgQueueFd) :
    SameNumbers process next := by
  refine ⟨gMap, descriptor, ?_⟩
  intro other
  rw [updated]
  by_cases here : other = this
  · subst other
    simpa using same
  · simp [here]

/-- Counting a sent message. -/
theorem sameNumbers_countSent
    (process : Process Object Queue Obj)
    (fd : Int32) :
    SameNumbers process (countSent process fd) := by
  unfold countSent
  split
  · exact ⟨rfl, rfl, fun _ => rfl⟩
  · exact sameNumbers_of_update rfl rfl rfl rfl

variable [DecidableEq Queue]

/-- `Send` keeps all numbers. -/
theorem sameNumbers_send
    (process : Process Object Queue Obj)
    (fd : Int32)
    (pclsMsg : MesgT)
    (s32Prio : UInt32)
    (accepts : Bool) :
    SameNumbers process
      (send process fd pclsMsg s32Prio accepts).1 := by
  unfold send
  split
  · exact ⟨rfl, rfl, fun _ => rfl⟩
  · cases sent : process.kernel.mqSend fd pclsMsg s32Prio accepts with
    | none =>
        exact ⟨rfl, rfl, fun _ => rfl⟩
    | some kernel =>
        obtain ⟨queue, _, rfl⟩ := Kernel.mqSend_cases sent
        have stored :
            SameNumbers process
              { process with
                kernel := process.kernel.setMessages queue
                  (insertByPriority s32Prio pclsMsg
                    (process.kernel.queue queue).messages) } :=
          ⟨rfl, rfl, fun _ => rfl⟩
        exact stored.trans (sameNumbers_countSent _ fd)

/-- `mq_receive` with the counters after it keeps all numbers. -/
theorem sameNumbers_receiveInto
    (process : Process Object Queue Obj)
    (owner : Object)
    (pclsMsg : MesgT)
    (answers : Answers) :
    SameNumbers process
      (receiveInto process owner pclsMsg answers).1 := by
  unfold receiveInto
  split
  · exact SameNumbers.refl process
  · rename_i msg kernel received
    obtain ⟨queue, prio, rest, _, _, rfl⟩ :=
      Kernel.mqReceive_cases received
    exact sameNumbers_of_update rfl rfl rfl rfl

/-- `Receive` keeps all numbers. -/
theorem sameNumbers_receive
    (process : Process Object Queue Obj)
    (owner : Object)
    (pclsMsg : MesgT)
    (isPolling : Bool)
    (answers : Answers) :
    SameNumbers process
      (receive process owner pclsMsg isPolling answers).1 := by
  have inUse :
      SameNumbers process
        { process with
          object := Function.update process.object owner
            { process.object owner with msgQueueNotInUse := false } } :=
    sameNumbers_of_update rfl rfl rfl rfl
  unfold receive
  by_cases noHandle : (process.object owner).msgQueueFd ≤ 0
  · simp only [noHandle, ↓reduceIte]
    exact SameNumbers.refl process
  · simp only [noHandle, ↓reduceIte]
    split
    · cases answers.select with
      | failed => exact inUse
      | notOurQueue => exact inUse
      | readable =>
          exact inUse.trans (sameNumbers_receiveInto ..)
    · exact inUse.trans (sameNumbers_receiveInto ..)

omit [DecidableEq Object] in
/-- `DumpMsgQueue` keeps all numbers. -/
theorem sameNumbers_dumpMsgQueue
    (fd : Int32)
    (rounds : Nat)
    (process : Process Object Queue Obj) :
    SameNumbers process (dumpMsgQueue fd rounds process) := by
  induction rounds generalizing process with
  | zero =>
      exact SameNumbers.refl process
  | succ rounds inductionHypothesis =>
      unfold dumpMsgQueue
      split
      · exact SameNumbers.refl process
      · rename_i msg kernel received
        obtain ⟨queue, prio, rest, _, _, rfl⟩ :=
          Kernel.mqReceive_cases received
        have taken :
            SameNumbers process
              (freeIn
                { process with
                  kernel := process.kernel.setMessages queue rest }
                msg).1 :=
          ⟨rfl, rfl, fun _ => rfl⟩
        exact taken.trans (inductionHypothesis _)

end Process

section Table

variable {Object Obj : Type}

/-- Objects, numbers and queues, without messages and counters. -/
structure Table (Object : Type) where
  alive : Object → Bool
  opened : Object → Bool
  holds : Object → Option Nat
  msgQueueName : Object → String
  created : Nat
  gMap : Int32 → Option Object
  descriptor : Int32 → Option Nat
  fdOf : Object → Int32

/-- The table of a registry. -/
def Registry.table
    (registry : Registry Object Obj) :
    Table Object where
  alive := registry.alive
  opened := registry.opened
  holds := registry.holds
  msgQueueName := registry.msgQueueName
  created := registry.created
  gMap := registry.gMap
  descriptor := registry.descriptor
  fdOf := registry.fdOf

/-- A process with the same numbers leaves the table as it is. -/
theorem SameNumbers.table_eq
    {registry : Registry Object Obj}
    {process : Process Object Nat Obj}
    (same : SameNumbers registry.process process) :
    (withProcess registry process).table = registry.table := by
  have sameFd :
      (withProcess registry process).fdOf = registry.fdOf :=
    funext same.fd
  simp only [Registry.table, sameFd]
  simp only [Registry.gMap, Registry.descriptor, withProcess,
    same.gMap, same.descriptor]

namespace Table

variable [DecidableEq Object]

/-- A constructed object has no number and no name. -/
def construct
    (table : Table Object)
    (this : Object) :
    Table Object :=
  { table with
    alive := Function.update table.alive this true
    msgQueueName := Function.update table.msgQueueName this ""
    fdOf := Function.update table.fdOf this (-1) }

/-- `Open` with a null pointer only fails. -/
def openNull
    (table : Table Object)
    (this : Object) :
    Table Object :=
  { table with opened := Function.update table.opened this false }

/-- `Open` drops the number of the object and enters the new one, if any. -/
def openQueue
    (table : Table Object)
    (this : Object)
    (name : String)
    (oCreat : Bool)
    (answer : Option Int32) :
    Table Object :=
  match mqOpenAnswer name oCreat answer with
  | none =>
      { table with
        opened := Function.update table.opened this false
        holds := Function.update table.holds this none
        msgQueueName := Function.update table.msgQueueName this name
        fdOf := Function.update table.fdOf this (-1) }
  | some fd =>
      { alive := table.alive
        opened := Function.update table.opened this true
        holds :=
          Function.update table.holds this (some table.created)
        msgQueueName := Function.update table.msgQueueName this name
        created := table.created + 1
        gMap := Function.update table.gMap fd (some this)
        descriptor :=
          Function.update table.descriptor fd (some table.created)
        fdOf := Function.update table.fdOf this fd }

omit [DecidableEq Object] in
/-- `Close` of the number of the object goes through. -/
def Closes
    (table : Table Object)
    (this : Object)
    (closes : Bool) :
    Prop :=
  closes = true ∧ ¬ table.fdOf this < 0 ∧
    (table.descriptor (table.fdOf this)).isSome = true

instance
    (table : Table Object)
    (this : Object)
    (closes : Bool) :
    Decidable (table.Closes this closes) :=
  inferInstanceAs (Decidable (_ ∧ _ ∧ _))

/-- `Close` clears the number of the object, whoever uses it. -/
def close
    (table : Table Object)
    (this : Object)
    (closes : Bool) :
    Table Object :=
  if table.Closes this closes then
    { table with
      opened := Function.update table.opened this false
      holds := Function.update table.holds this none
      gMap := Function.update table.gMap (table.fdOf this) none
      descriptor :=
        Function.update table.descriptor (table.fdOf this) none }
  else
    table

/-- `Unlink` closes unless the object has no name. -/
def unlink
    (table : Table Object)
    (this : Object)
    (closes : Bool) :
    Table Object :=
  if table.msgQueueName this = "" then
    table
  else
    table.close this closes

/-- The destructor unlinks, and the object is gone. -/
def destroy
    (table : Table Object)
    (this : Object)
    (closes : Bool) :
    Table Object :=
  let unlinked := table.unlink this closes
  { unlinked with
    alive := Function.update unlinked.alive this false
    opened := Function.update unlinked.opened this false
    holds := Function.update unlinked.holds this none }

/-- What a call does to the table. -/
def step
    (table : Table Object) :
    Operation Object → Table Object
  | .construct this =>
      table.construct this
  | .openMaxmsg this (some name) _ oCreat answer =>
      table.openQueue this name oCreat answer
  | .openMaxmsg this none _ _ _ =>
      table.openNull this
  | .openAttr this (some name) (some _) oCreat answer =>
      table.openQueue this name oCreat answer
  | .openAttr this _ _ _ _ =>
      table.openNull this
  | .send _ _ _ _ =>
      table
  | .sendTo _ _ _ _ =>
      table
  | .receive _ _ _ _ =>
      table
  | .clear _ _ =>
      table
  | .close this closes =>
      table.close this closes
  | .unlink this _ closes =>
      table.unlink this closes
  | .destroy this _ closes =>
      table.destroy this closes

end Table

section Refinement

variable [DecidableEq Object]

/-- Replacing an object replaces its number. -/
theorem fdOf_setObject
    (registry : Registry Object Obj)
    (this : Object)
    (object : MsgQueueObject) :
    (registry.setObject this object).fdOf =
      Function.update registry.fdOf this object.msgQueueFd := by
  funext other
  by_cases here : other = this
  · subst other
    simp [Registry.setObject, Registry.fdOf]
  · simp [Registry.setObject, Registry.fdOf, here]

/-- The constructor on the table. -/
theorem table_construct
    (registry : Registry Object Obj)
    (this : Object) :
    (construct registry this).table =
      registry.table.construct this :=
  congrArg (Table.mk _ _ _ _ _ _ _) (fdOf_setObject registry this _)

/-- `Open` with a name on the table. -/
theorem table_openQueue
    (resetsLastMsgMsgId : Bool)
    (registry : Registry Object Obj)
    (this : Object)
    (name : String)
    (maxmsg : Int64)
    (oCreat : Bool)
    (answer : Option Int32) :
    (openQueue resetsLastMsgMsgId registry this name maxmsg
      oCreat answer).1.table =
      registry.table.openQueue this name oCreat answer := by
  unfold openQueue Table.openQueue
  cases mqOpenAnswer name oCreat answer with
  | none =>
      exact congrArg (Table.mk _ _ _ _ _ _ _)
        (fdOf_setObject _ this _)
  | some fd =>
      exact congrArg (Table.mk _ _ _ _ _ _ _)
        (fdOf_setObject _ this _)

/-- `Close` on the table. -/
theorem table_close
    (registry : Registry Object Obj)
    (this : Object)
    (closes : Bool) :
    (close registry this closes).1.table =
      registry.table.close this closes := by
  unfold close Table.close
  by_cases noHandle : registry.fdOf this < 0
  · rw [if_pos noHandle, if_neg]
    exact fun closed => closed.2.1 noHandle
  · rw [if_neg noHandle]
    cases answered : registry.process.kernel.mqClose
        (registry.fdOf this) closes with
    | none =>
        rw [if_neg]
        rintro ⟨accepted, _, found⟩
        have closed :=
          Kernel.mqClose_eq_some_iff.mpr
            ⟨Option.isSome_iff_exists.mp found, accepted, rfl⟩
        cases closed.symm.trans answered
    | some kernel =>
        obtain ⟨⟨queue, opened⟩, accepted, rfl⟩ :=
          Kernel.mqClose_eq_some_iff.mp answered
        rw [if_pos]
        · rfl
        · exact ⟨accepted, noHandle,
            Option.isSome_iff_exists.mpr ⟨queue, opened⟩⟩

omit [DecidableEq Object] in
/-- `Clear` is nothing on the table. -/
theorem table_clear
    (registry : Registry Object Obj)
    (this : Object)
    (rounds : Nat) :
    (clear registry this rounds).table = registry.table :=
  (sameNumbers_dumpMsgQueue (registry.fdOf this) rounds
    registry.process).table_eq

omit [DecidableEq Object] in
/-- The names of the file system are not part of the table. -/
theorem table_mqUnlink
    (registry : Registry Object Obj)
    (name : String) :
    (mqUnlink registry name).1.table = registry.table := by
  unfold mqUnlink
  split <;> rfl

/-- `Unlink` on the table. -/
theorem table_unlink
    (registry : Registry Object Obj)
    (this : Object)
    (rounds : Nat)
    (closes : Bool) :
    (unlink registry this rounds closes).1.table =
      registry.table.unlink this closes := by
  unfold unlink Table.unlink
  by_cases nameless : registry.msgQueueName this = ""
  · rw [if_pos nameless]
    exact (if_pos nameless).symm
  · rw [if_neg nameless, table_mqUnlink, table_close, table_clear]
    exact (if_neg nameless).symm

/-- The destructor on the table. -/
theorem table_destroy
    (registry : Registry Object Obj)
    (this : Object)
    (rounds : Nat)
    (closes : Bool) :
    (destroy registry this rounds closes).table =
      registry.table.destroy this closes := by
  have unlinked := table_unlink registry this rounds closes
  unfold destroy Table.destroy
  rw [← unlinked]
  rfl

/-- The table after a call is the table before it after its own step. -/
theorem table_registryStep
    {registry next : Registry Object Obj}
    {operation : Operation Object}
    (stepped : registryStep? registry operation = some next) :
    next.table = registry.table.step operation := by
  cases operation with
  | construct this =>
      simp only [registryStep?, Option.ite_none_right_eq_some,
        Option.some.injEq] at stepped
      obtain ⟨_, rfl⟩ := stepped
      exact table_construct registry this
  | openMaxmsg this name maxmsg oCreat answer =>
      obtain ⟨_, _, rfl⟩ := answered_eq_some_iff.mp stepped
      cases name with
      | none => rfl
      | some name => exact table_openQueue ..
  | openAttr this name pattr oCreat answer =>
      obtain ⟨_, _, rfl⟩ := answered_eq_some_iff.mp stepped
      cases name with
      | none => rfl
      | some name =>
          cases pattr with
          | none => rfl
          | some maxmsg => exact table_openQueue ..
  | send this pclsMsg s32Prio accepts =>
      obtain ⟨_, rfl⟩ := onAlive_eq_some_iff.mp stepped
      exact (sameNumbers_send ..).table_eq
  | sendTo fd pclsMsg s32Prio accepts =>
      obtain rfl := Option.some.inj stepped
      exact (sameNumbers_send ..).table_eq
  | receive this pclsMsg isPolling answers =>
      obtain ⟨_, rfl⟩ := onAlive_eq_some_iff.mp stepped
      exact (sameNumbers_receive ..).table_eq
  | clear this rounds =>
      obtain ⟨_, rfl⟩ := onAlive_eq_some_iff.mp stepped
      exact table_clear registry this rounds
  | close this closes =>
      obtain ⟨_, rfl⟩ := onAlive_eq_some_iff.mp stepped
      exact table_close registry this closes
  | unlink this rounds closes =>
      obtain ⟨_, rfl⟩ := onAlive_eq_some_iff.mp stepped
      exact table_unlink registry this rounds closes
  | destroy this rounds closes =>
      obtain ⟨_, rfl⟩ := onAlive_eq_some_iff.mp stepped
      exact table_destroy registry this rounds closes

end Refinement

section Sanity

/-- What holds of the numbers in every run. -/
structure Table.Sane (table : Table Object) : Prop where
  nonneg :
    ∀ {fd queue},
      table.descriptor fd = some queue →
      0 ≤ fd
  older :
    ∀ {fd queue},
      table.descriptor fd = some queue →
      queue < table.created
  single :
    ∀ {fd other queue},
      table.descriptor fd = some queue →
      table.descriptor other = some queue →
      fd = other
  named :
    ∀ {this},
      table.alive this = true →
      0 ≤ table.fdOf this →
      table.msgQueueName this ≠ ""

variable [DecidableEq Object]

omit [DecidableEq Object] in
/-- No number is in use at the start. -/
theorem sane_atStart
    (storage : Object → MsgQueueObject) :
    (Registry.atStart storage : Registry Object Obj).table.Sane where
  nonneg := fun found => nomatch found
  older := fun found => nomatch found
  single := fun found => nomatch found
  named := fun alive => nomatch alive

omit [DecidableEq Object] in
/-- An answered number is new and comes with a name. -/
theorem mqOpenAnswer_eq_some
    {name : String}
    {oCreat : Bool}
    {answer : Option Int32}
    {fd : Int32}
    (answered : mqOpenAnswer name oCreat answer = some fd) :
    name ≠ "" ∧ answer = some fd := by
  unfold mqOpenAnswer at answered
  rw [Option.ite_none_right_eq_some] at answered
  exact ⟨answered.1.2, answered.2⟩

/-- A fresh object has no number. -/
theorem Table.Sane.construct
    {table : Table Object}
    (sane : table.Sane)
    (this : Object) :
    (table.construct this).Sane where
  nonneg := sane.nonneg
  older := sane.older
  single := sane.single
  named := by
    intro other alive handle
    by_cases here : other = this
    · subst other
      simp [Table.construct] at handle
    · simp only [Table.construct, Function.update_of_ne here]
        at alive handle ⊢
      exact sane.named alive handle

/-- `Open` gives a new number to a new queue, or none at all. -/
theorem Table.Sane.openQueue
    {table : Table Object}
    (sane : table.Sane)
    (this : Object)
    (name : String)
    (oCreat : Bool)
    {answer : Option Int32}
    (answerable :
      ∀ fd,
        answer = some fd →
        0 ≤ fd ∧ table.descriptor fd = none) :
    (table.openQueue this name oCreat answer).Sane := by
  unfold Table.openQueue
  cases answered : mqOpenAnswer name oCreat answer with
  | none =>
      refine ⟨sane.nonneg, sane.older, sane.single, ?_⟩
      intro other alive handle
      by_cases here : other = this
      · subst other
        simp only [Function.update_self] at handle
        exact absurd handle (by decide)
      · simp only [Function.update_of_ne here] at handle ⊢
        exact sane.named alive handle
  | some fd =>
      obtain ⟨hasName, rfl⟩ := mqOpenAnswer_eq_some answered
      obtain ⟨nonneg, unused⟩ := answerable fd rfl
      have entry :
          ∀ {number queue},
            Function.update table.descriptor fd (some table.created)
                number = some queue →
            (number = fd ∧ queue = table.created) ∨
              number ≠ fd ∧ table.descriptor number = some queue := by
        intro number queue found
        by_cases new : number = fd
        · subst number
          rw [Function.update_self, Option.some.injEq] at found
          exact Or.inl ⟨rfl, found.symm⟩
        · rw [Function.update_of_ne new] at found
          exact Or.inr ⟨new, found⟩
      constructor
      · intro number queue found
        rcases entry found with ⟨rfl, _⟩ | ⟨_, old⟩
        · exact nonneg
        · exact sane.nonneg old
      · intro number queue found
        rcases entry found with ⟨_, rfl⟩ | ⟨_, old⟩
        · exact Nat.lt_succ_self _
        · exact Nat.lt_succ_of_lt (sane.older old)
      · intro number other queue found foundToo
        rcases entry found with ⟨rfl, rfl⟩ | ⟨_, old⟩
        · rcases entry foundToo with ⟨rfl, _⟩ | ⟨_, older⟩
          · rfl
          · exact absurd (sane.older older) (Nat.lt_irrefl _)
        · rcases entry foundToo with ⟨_, rfl⟩ | ⟨_, older⟩
          · exact absurd (sane.older old) (Nat.lt_irrefl _)
          · exact sane.single old older
      · intro other alive handle
        by_cases here : other = this
        · subst other
          simpa using hasName
        · simp only [Function.update_of_ne here] at handle ⊢
          exact sane.named alive handle

/-- `Close` only takes a number away. -/
theorem Table.Sane.close
    {table : Table Object}
    (sane : table.Sane)
    (this : Object)
    (closes : Bool) :
    (table.close this closes).Sane := by
  unfold Table.close
  split
  · have remaining :
        ∀ {number queue},
          Function.update table.descriptor (table.fdOf this) none
              number = some queue →
          table.descriptor number = some queue := by
      intro number queue found
      by_cases gone : number = table.fdOf this
      · subst number
        simp at found
      · rwa [Function.update_of_ne gone] at found
    constructor
    · intro fd queue found
      exact sane.nonneg (remaining found)
    · intro fd queue found
      exact sane.older (remaining found)
    · intro fd other queue found foundToo
      exact sane.single (remaining found) (remaining foundToo)
    · exact sane.named
  · exact sane

/-- `Unlink` only takes a number away. -/
theorem Table.Sane.unlink
    {table : Table Object}
    (sane : table.Sane)
    (this : Object)
    (closes : Bool) :
    (table.unlink this closes).Sane := by
  unfold Table.unlink
  split
  · exact sane
  · exact sane.close this closes

/-- The destructor only takes a number and an object away. -/
theorem Table.Sane.destroy
    {table : Table Object}
    (sane : table.Sane)
    (this : Object)
    (closes : Bool) :
    (table.destroy this closes).Sane := by
  have unlinked := sane.unlink this closes
  refine ⟨unlinked.nonneg, unlinked.older, unlinked.single, ?_⟩
  intro other alive handle
  by_cases here : other = this
  · subst other
    simp [Table.destroy] at alive
  · simp only [Table.destroy, Function.update_of_ne here] at alive
    exact unlinked.named alive handle

/-- A step whose answers the kernel can give keeps the table sane. -/
theorem sane_registryStep
    {registry next : Registry Object Obj}
    {operation : Operation Object}
    (sane : registry.table.Sane)
    (stepped : registryStep? registry operation = some next) :
    next.table.Sane := by
  rw [table_registryStep stepped]
  cases operation with
  | construct this =>
      exact sane.construct this
  | openMaxmsg this name maxmsg oCreat answer =>
      cases name with
      | none =>
          exact ⟨sane.nonneg, sane.older, sane.single, sane.named⟩
      | some name =>
          simp only [registryStep?, Option.ite_none_right_eq_some]
            at stepped
          apply sane.openQueue
          rintro fd rfl
          exact stepped.1
  | openAttr this name pattr oCreat answer =>
      cases name with
      | none =>
          exact ⟨sane.nonneg, sane.older, sane.single, sane.named⟩
      | some name =>
          cases pattr with
          | none =>
              exact ⟨sane.nonneg, sane.older, sane.single, sane.named⟩
          | some maxmsg =>
              simp only [registryStep?, Option.ite_none_right_eq_some]
                at stepped
              apply sane.openQueue
              rintro fd rfl
              exact stepped.1
  | send this pclsMsg s32Prio accepts => exact sane
  | sendTo fd pclsMsg s32Prio accepts => exact sane
  | receive this pclsMsg isPolling answers => exact sane
  | clear this rounds => exact sane
  | close this closes => exact sane.close this closes
  | unlink this rounds closes => exact sane.unlink this closes
  | destroy this rounds closes => exact sane.destroy this closes

end Sanity

end Table

end WkcRuntime.MsgQueue
