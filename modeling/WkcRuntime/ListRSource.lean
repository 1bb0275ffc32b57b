import Mathlib.Logic.Function.Basic
import WkcRuntime.Machine
import WkcRuntime.SweepPipeline

namespace WkcRuntime.ListR

open SweepPipeline

/-!
# The thread-safe list `list_r`

`list_r` is a singly linked list with one mutex in every node, the head
included.  `for_each`, `find_first_if` and `remove_if` lock the next node before
they unlock the current one.  Here every call is cut into its steps: each lock
and unlock, each operation on a `unique_ptr` in a node, each call of a user's
function on an element and the destruction of a node is one step.

A `unique_ptr` owns its node.  Assigning to one that is not null would destroy
the node that it holds, with everything behind it; such a store, an access to a
node that is gone, the destruction of a locked mutex or of a node that still
owns its successor, and an unlock by a thread that does not hold the mutex are
all faults.

The history beside the program records the calls in the order in which they
first locked `head.m`, the number of each running call in that order, what its
function was given and what every finished call returned.
-/

/-- The identity of a node. -/
abbrev NodeId := Nat

/-- The member `head` of the list. -/
def head : NodeId :=
  0

/-- A `shared_ptr<T>`: which object it points to, and the value of it. -/
structure Shared (T : Type) where
  object : Nat
  value : T
  deriving DecidableEq, Repr

/-- The fields `data` and `next` of a node. -/
structure Node (T : Type) where
  data : Option (Shared T)
  next : Option NodeId
  deriving DecidableEq, Repr

/-- `for_each` and `find_first_if`, which run user code with one node locked. -/
inductive Visit (T : Type) where
  | forEach (f : T → T)
  | findFirstIf (p : T → Bool × T)

/-- The calls that walk along the list. -/
inductive Walk (T : Type) where
  | visit (body : Visit T)
  | removeIf (p : T → Bool × T)

/-- A call, with the argument of `push_front`. -/
inductive Call (T Arg : Type) where
  | pushFront (value : Arg)
  | walk (walk : Walk T)

/-- The next step of a call, with its local variables. -/
inductive Pc (T : Type) where
  | idle
  | pushNew (value : T)
  | pushLock (newNode : NodeId) (value : T)
  | pushTake (newNode : NodeId) (value : T)
  | pushLink (newNode : NodeId) (value : T) (rest : Option NodeId)
  | pushStore (newNode : NodeId) (value : T)
  | pushUnlock
  | walkLock (walk : Walk T)
  | readNext (walk : Walk T) (current : NodeId)
  | lockNext (walk : Walk T) (current next : NodeId)
  | unlockCurrent (body : Visit T) (current next : NodeId)
  | visit (body : Visit T) (next : NodeId)
  | copyFound (next : NodeId)
  | unlockFound (next : NodeId) (found : Shared T)
  | judge (p : T → Bool × T) (current next : NodeId)
  | detach (p : T → Bool × T) (current next : NodeId)
  | bypass
      (p : T → Bool × T)
      (current next : NodeId)
      (oldNext : Option NodeId)
  | relink
      (p : T → Bool × T)
      (current next : NodeId)
      (oldNext rest : Option NodeId)
  | unlockRemoved
      (p : T → Bool × T)
      (current next : NodeId)
      (oldNext : Option NodeId)
  | destroy
      (p : T → Bool × T)
      (current : NodeId)
      (oldNext : Option NodeId)
  | stepOver (p : T → Bool × T) (current next : NodeId)
  | unlockLast (current : NodeId)

variable {Tid T : Type} [DecidableEq Tid]

/-- The loop test on `current->next.get()`. -/
def Walk.reached
    (walk : Walk T)
    (current : NodeId) :
    Option NodeId → Pc T
  | none =>
      .unlockLast current
  | some next =>
      .lockNext walk current next

/-- The two loop bodies begin differently with the next node locked. -/
def Walk.locked
    (current next : NodeId) :
    Walk T → Pc T
  | .visit body =>
      .unlockCurrent body current next
  | .removeIf p =>
      .judge p current next

/-- The nodes, their mutexes, the threads and the history. -/
structure State (Tid T : Type) where
  heap : NodeId → Option (Node T)
  owner : NodeId → Option Tid
  fresh : NodeId
  pc : Tid → Pc T
  fault : Bool
  started : List (Call T (Shared T))
  ticket : Tid → Nat
  visited : Tid → List (Shared T)
  finished : List (Nat × Report (Shared T))

/-- A thread begins a call, or takes the next step of its call. -/
inductive Action (Tid T : Type) where
  | call (tid : Tid) (call : Call T T)
  | run (tid : Tid)

namespace State

/-- The thread moves on. -/
def goto
    (state : State Tid T)
    (tid : Tid)
    (pc : Pc T) :
    State Tid T :=
  { state with pc := Function.update state.pc tid pc }

/-- Undefined behaviour. -/
def crash (state : State Tid T) : State Tid T :=
  { state with fault := true }

/-- Write the fields of a node. -/
def setNode
    (state : State Tid T)
    (id : NodeId)
    (node : Option (Node T)) :
    State Tid T :=
  { state with heap := Function.update state.heap id node }

/-- Lock a mutex for a thread, or unlock it. -/
def setOwner
    (state : State Tid T)
    (id : NodeId)
    (owner : Option Tid) :
    State Tid T :=
  { state with owner := Function.update state.owner id owner }

/-- A new node is taken from the heap. -/
def allocate (state : State Tid T) : State Tid T :=
  { state with fresh := state.fresh + 1 }

/-- History: a call takes its number. -/
def number
    (state : State Tid T)
    (tid : Tid)
    (call : Call T (Shared T)) :
    State Tid T :=
  { state with
    started := state.started ++ [call]
    ticket := Function.update state.ticket tid state.started.length
    visited := Function.update state.visited tid [] }

/-- History: the function of a call is given an element. -/
def note
    (state : State Tid T)
    (tid : Tid)
    (data : Shared T) :
    State Tid T :=
  { state with
    visited :=
      Function.update state.visited tid (state.visited tid ++ [data]) }

/-- History: a call returns. -/
def record
    (state : State Tid T)
    (tid : Tid)
    (found : Option (Shared T)) :
    State Tid T :=
  { state with
    finished :=
      state.finished ++
        [(state.ticket tid, Report.mk (state.visited tid) found)] }

/-- `new node(value)`. -/
def newNode
    (state : State Tid T)
    (tid : Tid)
    (value : T) :
    State Tid T :=
  ((state.setNode state.fresh
      (some ⟨some ⟨state.fresh, value⟩, none⟩)).allocate).goto tid
        (.pushLock state.fresh value)

/-- `m.lock()`; a mutex that is held blocks the thread. -/
def lock?
    (state : State Tid T)
    (id : NodeId)
    (tid : Tid)
    (pc : Pc T) :
    Option (State Tid T) :=
  match state.heap id with
  | none =>
      some state.crash
  | some _ =>
      match state.owner id with
      | some _ =>
          none
      | none =>
          some ((state.setOwner id (some tid)).goto tid pc)

/-- The first lock of a call, which gives the call its number. -/
def lockHead?
    (state : State Tid T)
    (tid : Tid)
    (call : Call T (Shared T))
    (pc : Pc T) :
    Option (State Tid T) :=
  (state.number tid call).lock? head tid pc

/-- `m.unlock()`. -/
def unlock
    (state : State Tid T)
    (id : NodeId)
    (tid : Tid)
    (pc : Pc T) :
    State Tid T :=
  match state.heap id with
  | none =>
      state.crash
  | some _ =>
      if state.owner id = some tid then
        (state.setOwner id none).goto tid pc
      else
        state.crash

/-- The last unlock of a call, with which it returns. -/
def leave
    (state : State Tid T)
    (id : NodeId)
    (tid : Tid)
    (found : Option (Shared T)) :
    State Tid T :=
  (state.record tid found).unlock id tid .idle

/-- `current->next.get()`. -/
def readNext
    (state : State Tid T)
    (id : NodeId)
    (tid : Tid)
    (pc : Option NodeId → Pc T) :
    State Tid T :=
  match state.heap id with
  | none =>
      state.crash
  | some node =>
      state.goto tid (pc node.next)

/-- Moving out of a `next`, which becomes null. -/
def releaseNext
    (state : State Tid T)
    (id : NodeId)
    (tid : Tid)
    (pc : Option NodeId → Pc T) :
    State Tid T :=
  match state.heap id with
  | none =>
      state.crash
  | some node =>
      (state.setNode id (some { node with next := none })).goto tid
        (pc node.next)

/-- Moving into a `next`, which had better be null. -/
def resetNext
    (state : State Tid T)
    (id : NodeId)
    (value : Option NodeId)
    (tid : Tid)
    (pc : Pc T) :
    State Tid T :=
  match state.heap id with
  | some ⟨data, none⟩ =>
      (state.setNode id (some ⟨data, value⟩)).goto tid pc
  | _ =>
      state.crash

/-- Calling a user's function on `*next->data`. -/
def visitData
    (state : State Tid T)
    (id : NodeId)
    (tid : Tid)
    (function : T → T × Pc T) :
    State Tid T :=
  match state.heap id with
  | some ⟨some data, next⟩ =>
      ((state.setNode id
          (some
            ⟨some ⟨data.object, (function data.value).1⟩,
              next⟩)).note tid data).goto
        tid (function data.value).2
  | _ =>
      state.crash

/-- Copying `next->data`. -/
def copyData
    (state : State Tid T)
    (id : NodeId)
    (tid : Tid)
    (pc : Shared T → Pc T) :
    State Tid T :=
  match state.heap id with
  | some ⟨some data, _⟩ =>
      state.goto tid (pc data)
  | _ =>
      state.crash

/-- The destructor of a `unique_ptr<node>`. -/
def deleteNode
    (state : State Tid T)
    (pointer : Option NodeId)
    (tid : Tid)
    (pc : Pc T) :
    State Tid T :=
  match pointer with
  | none =>
      state.goto tid pc
  | some id =>
      match state.heap id, state.owner id with
      | some ⟨_, none⟩, none =>
          (state.setNode id none).goto tid pc
      | _, _ =>
          state.crash

/-- The next step of a thread. -/
def run?
    (state : State Tid T)
    (tid : Tid) :
    Option (State Tid T) :=
  match state.pc tid with
  | .idle =>
      none
  | .pushNew value =>
      some (state.newNode tid value)
  | .pushLock newNode value =>
      state.lockHead? tid (.pushFront ⟨newNode, value⟩)
        (.pushTake newNode value)
  | .pushTake newNode value =>
      some (state.releaseNext head tid (.pushLink newNode value))
  | .pushLink newNode value rest =>
      some (state.resetNext newNode rest tid (.pushStore newNode value))
  | .pushStore newNode _ =>
      some (state.resetNext head (some newNode) tid .pushUnlock)
  | .pushUnlock =>
      some (state.leave head tid none)
  | .walkLock walk =>
      state.lockHead? tid (.walk walk) (.readNext walk head)
  | .readNext walk current =>
      some (state.readNext current tid (walk.reached current))
  | .lockNext walk current next =>
      state.lock? next tid (walk.locked current next)
  | .unlockCurrent body current next =>
      some (state.unlock current tid (.visit body next))
  | .visit (.forEach f) next =>
      some (state.visitData next tid fun value =>
        (f value, .readNext (.visit (.forEach f)) next))
  | .visit (.findFirstIf p) next =>
      some (state.visitData next tid fun value =>
        ((p value).2,
          if (p value).1 then
            .copyFound next
          else
            .readNext (.visit (.findFirstIf p)) next))
  | .copyFound next =>
      some (state.copyData next tid (.unlockFound next))
  | .unlockFound next found =>
      some (state.leave next tid (some found))
  | .judge p current next =>
      some (state.visitData next tid fun value =>
        ((p value).2,
          if (p value).1 then
            .detach p current next
          else
            .stepOver p current next))
  | .detach p current next =>
      some (state.releaseNext current tid (.bypass p current next))
  | .bypass p current next oldNext =>
      some (state.releaseNext next tid (.relink p current next oldNext))
  | .relink p current next oldNext rest =>
      some (state.resetNext current rest tid
        (.unlockRemoved p current next oldNext))
  | .unlockRemoved p current next oldNext =>
      some (state.unlock next tid (.destroy p current oldNext))
  | .destroy p current oldNext =>
      some (state.deleteNode oldNext tid (.readNext (.removeIf p) current))
  | .stepOver p current next =>
      some (state.unlock current tid (.readNext (.removeIf p) next))
  | .unlockLast current =>
      some (state.leave current tid none)

/-- The entry of the four member functions. -/
def enter :
    Call T T → Pc T
  | .pushFront value =>
      .pushNew value
  | .walk walk =>
      .walkLock walk

/-- An empty list that no thread has called. -/
structure Fresh (state : State Tid T) : Prop where
  heap :
    state.heap = Function.update (fun _ => none) head (some ⟨none, none⟩)
  owner : ∀ id, state.owner id = none
  fresh : state.fresh = head + 1
  pc : ∀ tid, state.pc tid = .idle
  fault : state.fault = false
  started : state.started = []
  finished : state.finished = []

/-- The constructor `list_r()`, before any call. -/
def create : State Tid T where
  heap := Function.update (fun _ => none) head (some ⟨none, none⟩)
  owner := fun _ => none
  fresh := head + 1
  pc := fun _ => .idle
  fault := false
  started := []
  ticket := fun _ => 0
  visited := fun _ => []
  finished := []

omit [DecidableEq Tid] in
/-- A list that was just constructed is fresh. -/
theorem fresh_create : (create : State Tid T).Fresh :=
  ⟨rfl, fun _ => rfl, rfl, fun _ => rfl, rfl, rfl, rfl⟩

/-- No call is running. -/
def Quiet (state : State Tid T) : Prop :=
  ∀ tid, state.pc tid = .idle

end State

/-- One step of the threads. -/
def step?
    (state : State Tid T) :
    Action Tid T → Option (State Tid T)
  | .call tid call =>
      match state.pc tid with
      | .idle =>
          some (state.goto tid (State.enter call))
      | _ =>
          none
  | .run tid =>
      state.run? tid

/-- Any number of threads on one list. -/
def machine : Machine (State Tid T) (Action Tid T) where
  Initial := State.Fresh
  step? := step?

/-- The nodes from a pointer on hold these elements in this order. -/
def Spells
    (heap : NodeId → Option (Node T)) :
    Option NodeId → List (Shared T) → Prop
  | pointer, [] =>
      pointer = none
  | pointer, data :: rest =>
      ∃ id next,
        pointer = some id ∧
          heap id = some ⟨some data, next⟩ ∧
          Spells heap next rest

/-- The list contains these elements in this order. -/
def State.Contains
    (state : State Tid T)
    (elements : List (Shared T)) :
    Prop :=
  ∃ node,
    state.heap head = some node ∧
      Spells state.heap node.next elements

end WkcRuntime.ListR
