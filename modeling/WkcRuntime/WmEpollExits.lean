import Mathlib.Data.List.Find
import WkcRuntime.WmEpollExitsSource
import WkcRuntime.WmEpollRegistry

namespace WkcRuntime.WmEpoll

open CircularList

/-!
# Destroying a handle whose exit callbacks remove events

Without memory and links, a handle is the list of its registered events and the
exits called so far.  On this list a removal takes out one event and runs its
exit callback, which may take out more; the loop of `wm_epoll_destroy` takes out
one event after the other.  The functions on the handle compute what those on
the list do, with one exception: the loop has read the address of the next event
before it calls an exit callback, and if that callback removes the next event,
the loop goes on to read it although it was freed.
-/

/-- The registered events in the order of the list, and the exits called. -/
structure Pending where
  events : List Registration
  exits : List (Call × Nat)
  deriving DecidableEq, Repr

namespace Pending

/-- Take out an event: what is left, and its exit callback. -/
def callExit
    (body : Pending → Pending)
    (pending : Pending)
    (registration : Registration) :
    Pending :=
  match exitOf registration with
  | none =>
      pending
  | some exit =>
      body { pending with exits := pending.exits ++ [exit] }

/-- One call of an exit callback. -/
def exitCall
    (body : Pending → Pending)
    (pending : Pending) :
    ExitCall → Pending
  | .modify _ _ _ =>
      pending
  | .remove fd =>
      match pending.events.find? fun event => event.1.fd = fd with
      | none =>
          pending
      | some registration =>
          callExit body
            { pending with events := pending.events.erase registration }
            registration

/-- The body of an exit callback. -/
def exitBody
    (behaviour : ExitBehaviour) :
    Nat → Pending → Pending
  | 0, pending =>
      pending
  | depth + 1, pending =>
      (behaviour pending.exits).foldl
        (exitCall (exitBody behaviour depth)) pending

/--
Taking out one event after the other, no exit callback removes the event that
is the next one when it is called.
-/
inductive SparesNext
    (body : Pending → Pending) :
    Pending → Prop where
  | done {exits : List (Call × Nat)} :
      SparesNext body ⟨[], exits⟩
  | leave
      {first : Registration}
      {rest : List Registration}
      {exits : List (Call × Nat)} :
      (∀ next ∈ rest.head?,
        next ∈ (callExit body ⟨rest, exits⟩ first).events) →
      SparesNext body (callExit body ⟨rest, exits⟩ first) →
      SparesNext body ⟨first :: rest, exits⟩

/-- The exits called so far and those still to be called. -/
def all (pending : Pending) : List (Call × Nat) :=
  pending.exits ++ pending.events.filterMap exitOf

end Pending

/-- A listed event with the address at which it is stored. -/
abbrev Entry :=
  Addr × Registration

/-- The links of a handle lead through the entries, all in memory in use. -/
structure Chained (handle : Handle) (line : List Entry) : Prop where
  ring :
    Ring handle.links .head (line.map fun entry => .event entry.1)
  stored :
    ∀ entry ∈ line, handle.heap entry.1 = some entry.2
  few :
    line.length ≤ handle.made.length

/-- The list model of a handle. -/
def Handle.pending (handle : Handle) (line : List Entry) : Pending where
  events := line.map Prod.snd
  exits := handle.exits

/--
What a call that removes events does to the handle: the entries that are left
are chained, those that are gone are freed, and nothing else in memory changes.
-/
structure Removes
    (before after : Handle)
    (line left : List Entry) :
    Prop where
  chained :
    Chained after left
  sublist :
    left.Sublist line
  freed :
    ∀ entry ∈ line, entry ∉ left → after.heap entry.1 = none
  kept :
    ∀ pos,
      pos ∉ line.map Prod.fst →
      after.heap pos = before.heap pos
  made :
    after.made = before.made

namespace Chained

variable {handle : Handle}
variable {line : List Entry}

/-- Each address is listed once. -/
theorem nodup
    (chained : Chained handle line) :
    (line.map Prod.fst).Nodup := by
  have nodes := (List.nodup_cons.mp chained.ring.nodup).2
  apply List.Nodup.of_map Node.event
  rw [List.map_map]
  exact nodes

/-- Entries at the same address are the same. -/
theorem eq_of_fst_eq
    (chained : Chained handle line)
    {first second : Entry}
    (firstMember : first ∈ line)
    (secondMember : second ∈ line)
    (same : first.1 = second.1) :
    first = second :=
  List.inj_on_of_nodup_map chained.nodup
    firstMember secondMember same

/-- The same for the list of the addresses. -/
theorem path
    (chained : Chained handle line) :
    Path handle.links .head ((line.map Prod.fst).map .event) .head := by
  rw [List.map_map]
  exact chained.ring.path

/-- What is stored at the addresses. -/
theorem used
    (chained : Chained handle line)
    {pos : Addr}
    (member : pos ∈ line.map Prod.fst) :
    ∃ registration, handle.heap pos = some registration := by
  obtain ⟨entry, inLine, rfl⟩ := List.mem_map.mp member
  exact ⟨entry.2, chained.stored entry inLine⟩

/-- The successor of the first node can be read. -/
theorem exists_nextOf
    (chained : Chained handle line) :
    ∃ n, handle.nextOf? (handle.links.next .head) = some n :=
  Handle.exists_nextOf chained.path chained.used

/-- The search along the links finds the first entry with the descriptor. -/
theorem findFd_eq
    (chained : Chained handle line)
    (fd : Int32) :
    handle.findFd fd handle.rounds (handle.links.next .head) =
      some (line.find? fun entry => entry.2.1.fd = fd) := by
  have enough : (line.map Prod.fst).length < handle.rounds := by
    rw [List.length_map]
    exact Nat.lt_succ_of_le chained.few
  have inUse : ∀ pos ∈ line.map Prod.fst, handle.heap pos ≠ none := by
    intro pos member
    obtain ⟨registration, stored⟩ := chained.used member
    simp [stored]
  have sameSearch :
      (handle.toState (line.map Prod.fst)).findFd fd =
        (line.find? fun entry => entry.2.1.fd = fd).map Prod.fst := by
    rw [State.findFd, Handle.toState, List.find?_map]
    congr 1
    apply List.find?_congr
    intro entry member
    simp only [Function.comp_apply, chained.stored entry member]
  rw [Handle.findFd_path chained.path inUse enough, sameSearch]
  cases found : line.find? fun entry => entry.2.1.fd = fd with
  | none =>
      rfl
  | some entry =>
      have stored :=
        chained.stored entry (List.mem_of_find?_eq_some found)
      simp [stored]

/-- Taking out an entry leaves the others chained. -/
theorem detach
    {before after : List Entry}
    {entry : Entry}
    (chained : Chained handle (before ++ entry :: after)) :
    Chained (handle.detach entry.1 entry.2) (before ++ after) := by
  constructor
  · rw [List.map_append]
    apply Ring.del
    have ring := chained.ring
    rwa [List.map_append, List.map_cons] at ring
  · intro other member
    apply chained.stored
    rw [List.mem_append] at member
    rw [List.mem_append, List.mem_cons]
    tauto
  · have few := chained.few
    simp only [List.length_append, List.length_cons] at few ⊢
    exact Nat.le_of_succ_le few

/-- Freeing memory that holds no entry. -/
theorem freeEvent
    (chained : Chained handle line)
    {pos : Addr}
    (absent : pos ∉ line.map Prod.fst) :
    Chained (handle.freeEvent pos) line where
  ring := chained.ring
  stored := by
    intro entry member
    have elsewhere : entry.1 ≠ pos :=
      ne_of_mem_of_not_mem (List.mem_map_of_mem member) absent
    exact (Function.update_of_ne elsewhere ..).trans
      (chained.stored entry member)
  few := chained.few

end Chained

namespace Removes

/-- Nothing removed. -/
theorem refl
    {handle : Handle}
    {line : List Entry}
    (chained : Chained handle line) :
    Removes handle handle line line where
  chained := chained
  sublist := List.Sublist.refl line
  freed := fun _ member absent => absurd member absent
  kept := fun _ _ => rfl
  made := rfl

/-- One removal after the other. -/
theorem trans
    {first second third : Handle}
    {line left rest : List Entry}
    (chained : Chained first line)
    (earlier : Removes first second line left)
    (later : Removes second third left rest) :
    Removes first third line rest where
  chained := later.chained
  sublist := later.sublist.trans earlier.sublist
  freed := by
    intro entry member gone
    by_cases stays : entry ∈ left
    · exact later.freed entry stays gone
    · have absent : entry.1 ∉ left.map Prod.fst := by
        intro inLeft
        obtain ⟨other, otherMember, same⟩ := List.mem_map.mp inLeft
        have equal := chained.eq_of_fst_eq
          (earlier.sublist.subset otherMember) member same
        exact stays (equal ▸ otherMember)
      rw [later.kept entry.1 absent]
      exact earlier.freed entry member stays
  kept := by
    intro pos absent
    have absentLeft : pos ∉ left.map Prod.fst :=
      fun inLeft => absent ((earlier.sublist.map Prod.fst).subset inLeft)
    rw [later.kept pos absentLeft, earlier.kept pos absent]
  made := later.made.trans earlier.made

end Removes

/-- A function on handles computes on chained entries what one does on lists. -/
def Computes
    (body : Handle → Except Stop Handle)
    (model : Pending → Pending)
    (bound : Nat) :
    Prop :=
  ∀ {handle line},
    Chained handle line →
    line.length < bound →
    ∃ after left,
      body handle = .ok after ∧
        Removes handle after line left ∧
        after.pending left = model (handle.pending line)

section Bodies

variable {handle : Handle}
variable {body : Handle → Except Stop Handle}
variable {model : Pending → Pending}
variable {bound : Nat}

/-- An entry that is taken out, with its exit callback. -/
theorem callExit_computes
    (computes : Computes body model bound)
    {entry : Entry}
    {before after : List Entry}
    (chained : Chained handle (before ++ entry :: after))
    (few : (before ++ after).length < bound) :
    ∃ exited left,
      Handle.callExit body (handle.detach entry.1 entry.2) entry.2 =
          .ok exited ∧
        Removes (handle.detach entry.1 entry.2) exited
          (before ++ after) left ∧
        exited.pending left =
          Pending.callExit model
            ⟨(before ++ after).map Prod.snd, handle.exits⟩ entry.2 := by
  have detached := chained.detach
  unfold Handle.callExit Pending.callExit
  cases exits : exitOf entry.2 with
  | none =>
      refine ⟨_, before ++ after, rfl, Removes.refl detached, ?_⟩
      simp [Handle.pending, Handle.detach, exits]
  | some exit =>
      obtain ⟨exited, left, ran, removes, same⟩ :=
        computes detached few
      refine ⟨exited, left, ran, removes, ?_⟩
      rw [same]
      simp [Handle.pending, Handle.detach, exits]

/-- Freeing the entry that was taken out completes its removal. -/
theorem Removes.freeEvent
    {exited : Handle}
    {entry : Entry}
    {before after left : List Entry}
    (chained : Chained handle (before ++ entry :: after))
    (removes :
      Removes (handle.detach entry.1 entry.2) exited
        (before ++ after) left) :
    Removes handle (exited.freeEvent entry.1)
      (before ++ entry :: after) left := by
  have distinct := chained.nodup
  have absent : entry.1 ∉ (before ++ after).map Prod.fst := by
    rw [List.map_append, List.map_cons] at distinct
    rw [List.map_append]
    exact List.nodup_middle.mp distinct |> List.nodup_cons.mp |>.1
  have absentLeft : entry.1 ∉ left.map Prod.fst :=
    fun inLeft => absent ((removes.sublist.map Prod.fst).subset inLeft)
  constructor
  · exact removes.chained.freeEvent absentLeft
  · refine removes.sublist.trans ?_
    exact (List.sublist_cons_self entry after).append_left before
  · intro other member gone
    by_cases same : other.1 = entry.1
    · rw [same]
      exact Function.update_self ..
    · refine (Function.update_of_ne same ..).trans ?_
      refine removes.freed other ?_ gone
      simp only [List.mem_append, List.mem_cons] at member ⊢
      rcases member with inBefore | rfl | inAfter
      · exact Or.inl inBefore
      · exact absurd rfl same
      · exact Or.inr inAfter
  · intro pos elsewhere
    simp only [List.map_append, List.map_cons, List.mem_append,
      List.mem_cons, not_or] at elsewhere
    refine (Function.update_of_ne elsewhere.2.1 ..).trans ?_
    refine removes.kept pos ?_
    simp only [List.map_append, List.mem_append, not_or]
    exact ⟨elsewhere.1, elsewhere.2.2⟩
  · exact removes.made

/-- `wm_epoll_remove` takes out the first event of the descriptor. -/
theorem removeWith_computes
    (computes : Computes body model bound)
    (fd : Int32) :
    Computes
      (fun handle => handle.wmEpollRemoveWith body fd)
      (fun pending => pending.exitCall model (.remove fd))
      (bound + 1) := by
  intro handle line chained few
  have sameSearch :
      (handle.pending line).events.find?
          (fun event => event.1.fd = fd) =
        (line.find? fun entry => entry.2.1.fd = fd).map Prod.snd :=
    List.find?_map
  simp only [Handle.wmEpollRemoveWith, chained.findFd_eq fd,
    Pending.exitCall, sameSearch]
  cases found : line.find? fun entry => entry.2.1.fd = fd with
  | none =>
      exact ⟨handle, line, rfl, Removes.refl chained, rfl⟩
  | some entry =>
      obtain ⟨isFd, before, after, rfl, others⟩ :=
        List.find?_eq_some_iff_append.mp found
      obtain ⟨exited, left, ran, removes, same⟩ :=
        callExit_computes computes chained (by
          simp only [List.length_append, List.length_cons] at few ⊢
          omega)
      refine ⟨exited.freeEvent entry.1, left, ?_,
        removes.freeEvent chained, ?_⟩
      · simp only [ran]
      · have erased :
            ((before ++ entry :: after).map Prod.snd).erase entry.2 =
              (before ++ after).map Prod.snd := by
          have notBefore : entry.2 ∉ before.map Prod.snd := by
            intro inBefore
            obtain ⟨other, member, same⟩ := List.mem_map.mp inBefore
            have differs := others other member
            rw [same, isFd] at differs
            cases differs
          rw [List.map_append, List.map_cons,
            List.erase_append_right _ notBefore, List.erase_cons_head,
            ← List.map_append]
        simp only [Option.map_some, Handle.pending, erased]
        exact same

/-- `wm_epoll_modify` leaves the list as it is. -/
theorem modify_computes
    (fd : Int32)
    (events : UInt32)
    (accepts : Bool) :
    Computes
      (fun handle => handle.exitCall body (.modify fd events accepts))
      (fun pending => pending.exitCall model (.modify fd events accepts))
      (bound + 1) := by
  intro handle line chained _
  simp only [Handle.exitCall, Handle.wmEpollModify, chained.findFd_eq fd,
    Pending.exitCall]
  cases found : line.find? fun entry => entry.2.1.fd = fd with
  | none =>
      exact ⟨handle, line, rfl, Removes.refl chained, rfl⟩
  | some entry =>
      simp only
      cases ctlMod handle.interest entry.2.1.fd events entry.1 accepts with
      | error errno =>
          exact ⟨handle, line, rfl, Removes.refl chained, rfl⟩
      | ok interest =>
          refine ⟨_, line, rfl, ?_, rfl⟩
          exact
            { chained := ⟨chained.ring, chained.stored, chained.few⟩
              sublist := List.Sublist.refl line
              freed := fun _ member absent => absurd member absent
              kept := fun _ _ => rfl
              made := rfl }

/-- The calls of one exit callback. -/
theorem exitCalls_computes
    (computes : Computes body model bound)
    (calls : List ExitCall) :
    Computes
      (Handle.exitCalls body calls)
      (fun pending => calls.foldl (Pending.exitCall model) pending)
      (bound + 1) := by
  induction calls with
  | nil =>
      intro handle line chained _
      exact ⟨handle, line, rfl, Removes.refl chained, rfl⟩
  | cons call rest inductionHypothesis =>
      intro handle line chained few
      have called :
          Computes
            (fun handle => handle.exitCall body call)
            (fun pending => pending.exitCall model call)
            (bound + 1) := by
        cases call with
        | remove fd => exact removeWith_computes computes fd
        | modify fd events accepts =>
            exact modify_computes fd events accepts
      obtain ⟨next, left, ran, removes, same⟩ := called chained few
      obtain ⟨after, last, ranRest, removesRest, sameRest⟩ :=
        inductionHypothesis removes.chained
          (Nat.lt_of_le_of_lt removes.sublist.length_le few)
      refine ⟨after, last, ?_, removes.trans chained removesRest, ?_⟩
      · have ranHere : handle.exitCall body call = .ok next := ran
        simp only [Handle.exitCalls, ranHere]
        exact ranRest
      · rw [sameRest, same]
        rfl

/-- Exit callbacks nest no deeper than there are events. -/
theorem exitBody_computes
    (behaviour : ExitBehaviour)
    (depth : Nat) :
    Computes (Handle.exitBody behaviour depth)
      (Pending.exitBody behaviour depth) depth := by
  induction depth with
  | zero =>
      intro handle line _ few
      exact absurd few (Nat.not_lt_zero _)
  | succ depth inductionHypothesis =>
      intro handle line chained few
      exact exitCalls_computes inductionHypothesis
        (behaviour handle.exits) chained few

end Bodies

namespace Pending

section Conservation

variable {body : Pending → Pending}

/-- An exit that is called is one that was to be called. -/
theorem all_callExit
    (conserves : ∀ pending, (body pending).all.Perm pending.all)
    (rest : List Registration)
    (exits : List (Call × Nat))
    (registration : Registration) :
    (callExit body ⟨rest, exits⟩ registration).all.Perm
      (exits ++ (registration :: rest).filterMap exitOf) := by
  unfold callExit
  rw [filterMap_cons_toList]
  cases exit : exitOf registration with
  | none =>
      exact List.Perm.refl _
  | some called =>
      refine (conserves _).trans ?_
      simp [all]

/-- One call of an exit callback loses and repeats no exit. -/
theorem all_exitCall
    (conserves : ∀ pending, (body pending).all.Perm pending.all)
    (pending : Pending)
    (call : ExitCall) :
    (pending.exitCall body call).all.Perm pending.all := by
  cases call with
  | modify fd events accepts =>
      exact List.Perm.refl _
  | remove fd =>
      simp only [exitCall]
      split
      · exact List.Perm.refl _
      · next registration found =>
          refine (all_callExit conserves _ _ _).trans ?_
          refine List.Perm.append_left pending.exits ?_
          have member := List.mem_of_find?_eq_some found
          exact (List.perm_cons_erase member).symm.filterMap exitOf

/-- Neither does the body of an exit callback. -/
theorem all_exitBody
    (behaviour : ExitBehaviour)
    (depth : Nat)
    (pending : Pending) :
    (exitBody behaviour depth pending).all.Perm pending.all := by
  induction depth generalizing pending with
  | zero =>
      exact List.Perm.refl _
  | succ depth inductionHypothesis =>
      have folded :
          ∀ (calls : List ExitCall) (pending : Pending),
            (calls.foldl (exitCall (exitBody behaviour depth))
              pending).all.Perm pending.all := by
        intro calls
        induction calls with
        | nil =>
            exact fun pending => List.Perm.refl _
        | cons call rest ih =>
            intro pending
            exact (ih _).trans
              (all_exitCall inductionHypothesis pending call)
      exact folded _ pending

end Conservation

/-- The loop spares the next event now and later. -/
theorem sparesNext_cons_iff
    {body : Pending → Pending}
    {first : Registration}
    {rest : List Registration}
    {exits : List (Call × Nat)} :
    SparesNext body ⟨first :: rest, exits⟩ ↔
      (∀ next ∈ rest.head?,
        next ∈ (callExit body ⟨rest, exits⟩ first).events) ∧
      SparesNext body (callExit body ⟨rest, exits⟩ first) := by
  constructor
  · intro spares
    cases spares with
    | leave stays later => exact ⟨stays, later⟩
  · rintro ⟨stays, later⟩
    exact .leave stays later

end Pending

section Loop

variable {body : Handle → Except Stop Handle}
variable {model : Pending → Pending}
variable {bound : Nat}

/-- One round of the loop up to the step to the next event. -/
theorem leave_first
    {handle : Handle}
    {entry : Entry}
    {rest : List Entry}
    (computes : Computes body model bound)
    (chained : Chained handle (entry :: rest))
    (few : rest.length < bound) :
    ∃ exited left,
      Handle.callExit body (handle.detach entry.1 entry.2) entry.2 =
          .ok exited ∧
        exited.heap entry.1 = some entry.2 ∧
        Removes handle
          ((exited.closeFd entry.2.1.fd).freeEvent entry.1)
          (entry :: rest) left ∧
        left.Sublist rest ∧
        ((exited.closeFd entry.2.1.fd).freeEvent entry.1).pending left =
          Pending.callExit model
            ⟨rest.map Prod.snd, handle.exits⟩ entry.2 := by
  have chainedHere : Chained handle ([] ++ entry :: rest) := chained
  obtain ⟨exited, left, ran, removes, same⟩ :=
    callExit_computes computes chainedHere few
  have absent : entry.1 ∉ rest.map Prod.fst :=
    (List.nodup_cons.mp chained.nodup).1
  refine ⟨exited, left, ran, ?_, ?_, removes.sublist, same⟩
  · rw [removes.kept entry.1 absent]
    exact chained.stored entry List.mem_cons_self
  · have freed := removes.freeEvent chainedHere
    exact
      { chained := ⟨freed.chained.ring, freed.chained.stored,
          freed.chained.few⟩
        sublist := freed.sublist
        freed := freed.freed
        kept := freed.kept
        made := freed.made }

/-- The node to which the first entry of a list gives its address. -/
def firstNode (line : List Entry) : Node :=
  match line with
  | [] =>
      .head
  | entry :: _ =>
      .event entry.1

/-- The successor along a path of entries. -/
theorem next_eq_firstNode
    {links : Links Node}
    {first : Node}
    {line : List Entry}
    (path :
      Path links first (line.map fun entry => .event entry.1) .head) :
    links.next first = firstNode line := by
  cases line with
  | nil => exact path.1
  | cons entry rest => exact path.1.1

/-- A list that keeps its first entry when others go starts as before. -/
theorem firstNode_of_stays
    {line left : List Entry}
    (sublist : left.Sublist line)
    (nodup : line.Nodup)
    (stays : ∀ next ∈ line.head?, next ∈ left) :
    firstNode left = firstNode line := by
  cases line with
  | nil =>
      rw [List.sublist_nil.mp sublist]
  | cons next more =>
      have inLeft := stays next rfl
      cases sublist with
      | cons _ shorter =>
          have again := shorter.subset inLeft
          exact absurd again (List.nodup_cons.mp nodup).1
      | cons_cons _ _ =>
          rfl

/-- The next event stays in the list model if it does in the list. -/
theorem stays_iff
    {line left : List Entry}
    (sublist : left.Sublist line)
    (distinct : (line.map Prod.snd).Nodup) :
    (∀ next ∈ (line.map Prod.snd).head?, next ∈ left.map Prod.snd) ↔
      ∀ next ∈ line.head?, next ∈ left := by
  cases line with
  | nil =>
      simp
  | cons next more =>
      simp only [List.map_cons, List.head?_cons, Option.mem_some,
        forall_eq']
      constructor
      · intro inModel
        obtain ⟨other, member, same⟩ := List.mem_map.mp inModel
        have equal := List.inj_on_of_nodup_map distinct
          (sublist.subset member) List.mem_cons_self same
        exact equal ▸ member
      · intro inLeft
        exact List.mem_map_of_mem inLeft

/-- The loop goes on with the first event that is left. -/
theorem next_of_stays
    {handle after : Handle}
    {entry : Entry}
    {rest left : List Entry}
    (chained : Chained handle (entry :: rest))
    (removes : Removes handle after (entry :: rest) left)
    (sublist : left.Sublist rest)
    (stays : ∀ next ∈ rest.head?, next ∈ left) :
    after.links.next .head =
      handle.links.next (.event entry.1) := by
  have nodup : rest.Nodup :=
    List.Nodup.of_map _ (List.nodup_cons.mp chained.nodup).2
  calc
    after.links.next .head
        = firstNode left :=
      next_eq_firstNode removes.chained.ring.path
    _ = firstNode rest :=
      firstNode_of_stays sublist nodup stays
    _ = handle.links.next (.event entry.1) :=
      (next_eq_firstNode chained.ring.path.2).symm

/-- The event that the loop goes on with was freed. -/
theorem next_of_gone
    {handle after : Handle}
    {entry : Entry}
    {rest left : List Entry}
    (chained : Chained handle (entry :: rest))
    (removes : Removes handle after (entry :: rest) left)
    (gone : ¬ ∀ next ∈ rest.head?, next ∈ left) :
    after.nextOf? (handle.links.next (.event entry.1)) = none := by
  cases rest with
  | nil =>
      refine absurd ?_ gone
      intro next member
      cases member
  | cons next more =>
      simp only [List.head?_cons, Option.mem_some, forall_eq'] at gone
      rw [next_eq_firstNode chained.ring.path.2, firstNode,
        Handle.nextOf?, removes.freed next (by simp) gone]
      rfl

/--
The loop ends with nothing left and all exits called if no exit callback removes
the next event; otherwise it reads that event after it was freed.
-/
theorem destroyLoopWith_cases
    (computes : Computes body model bound)
    (conserves : ∀ pending, (model pending).all.Perm pending.all)
    {fuel : Nat}
    {line : List Entry}
    {handle : Handle}
    {n : Node}
    (chained : Chained handle line)
    (distinct : (line.map Prod.snd).Nodup)
    (few : line.length ≤ bound)
    (enough : line.length < fuel)
    (follows : handle.nextOf? (handle.links.next .head) = some n) :
    (Pending.SparesNext model (handle.pending line) ∧
      ∃ final,
        Handle.destroyLoopWith body fuel (handle.links.next .head) n
            handle = .ok final ∧
          Chained final [] ∧
          final.made = handle.made ∧
          final.exits.Perm (handle.pending line).all) ∨
    (¬ Pending.SparesNext model (handle.pending line) ∧
      Handle.destroyLoopWith body fuel (handle.links.next .head) n
        handle = .error .readFreed) := by
  induction fuel generalizing line handle n with
  | zero =>
      exact absurd enough (Nat.not_lt_zero _)
  | succ fuel inductionHypothesis =>
      cases line with
      | nil =>
          have nextHead : handle.links.next .head = .head :=
            chained.ring.path.1
          refine Or.inl ⟨.done, handle, ?_, chained, rfl, ?_⟩
          · rw [nextHead, Handle.destroyLoopWith]
          · simp [Pending.all, Handle.pending]
      | cons entry rest =>
          have nextHead : handle.links.next .head = .event entry.1 :=
            chained.ring.path.1.1
          have storedHere := chained.stored entry List.mem_cons_self
          simp only [List.length_cons] at few enough
          obtain ⟨exited, left, ran, still, removes, sublist, same⟩ :=
            leave_first computes chained few
          have followsHere : handle.links.next (.event entry.1) = n := by
            rw [nextHead, Handle.nextOf?, storedHere, Option.map_some,
              Option.some.injEq] at follows
            exact follows
          have distinctRest : (rest.map Prod.snd).Nodup :=
            (List.nodup_cons.mp distinct).2
          have spares :
              Pending.SparesNext model (handle.pending (entry :: rest)) ↔
                (∀ next ∈ rest.head?, next ∈ left) ∧
                  Pending.SparesNext model
                    (((exited.closeFd entry.2.1.fd).freeEvent
                      entry.1).pending left) := by
            rw [← stays_iff sublist distinctRest, same]
            refine Pending.sparesNext_cons_iff.trans ?_
            rw [← same]
            rfl
          rw [nextHead, Handle.destroyLoopWith, storedHere, spares]
          simp only [ran, still]
          by_cases stays : ∀ next ∈ rest.head?, next ∈ left
          · have nextLeft := next_of_stays chained removes sublist stays
            rw [followsHere] at nextLeft
            obtain ⟨afterwards, readable⟩ := removes.chained.exists_nextOf
            have shorter := sublist.length_le
            have ends :=
              inductionHypothesis removes.chained
                (distinctRest.sublist (sublist.map Prod.snd))
                (by omega) (by omega) readable
            rw [nextLeft] at readable ends
            simp only [readable]
            rcases ends with ⟨later, final, looped, empty, made, exits⟩ |
                ⟨never, faulted⟩
            · refine Or.inl ⟨⟨stays, later⟩, final, looped, empty,
                made.trans removes.made, exits.trans ?_⟩
              rw [same]
              exact Pending.all_callExit conserves _ _ _
            · exact Or.inr ⟨fun both => never both.2, faulted⟩
          · have gone := next_of_gone chained removes stays
            rw [followsHere] at gone
            simp only [gone]
            exact Or.inr ⟨fun both => stays both.1, trivial⟩

end Loop

/-- The event that a node stands for. -/
def Handle.eventAt
    (handle : Handle) :
    Node → Option Registration
  | .event pos =>
      handle.heap pos
  | .null | .head | .poison1 | .poison2 =>
      none

/-- The registered events of a handle in the order of its list. -/
def Handle.events (handle : Handle) : List Registration :=
  (handle.nodes.getD []).filterMap handle.eventAt

/--
While `wm_epoll_destroy` takes out one event after the other, no exit callback
removes, itself or through the exit callback of an event that it removes, the
event that is the next one when it is called.
-/
def Handle.SparesNext
    (handle : Handle)
    (behaviour : ExitBehaviour) :
    Prop :=
  Pending.SparesNext (Pending.exitBody behaviour handle.rounds)
    ⟨handle.events, handle.exits⟩

/-- The list is empty and each registered event was left once. -/
structure Handle.LeftOnce (handle final : Handle) : Prop where
  empty :
    final.nodes = some []
  once :
    ∀ registration ∈ handle.events,
      ∀ exit ∈ exitOf registration,
        final.exits.count exit = 1

/-- Addresses in use, with what is stored there. -/
theorem exists_line
    {handle : Handle}
    {order : List Addr}
    (stored :
      ∀ pos ∈ order,
        ∃ registration, handle.heap pos = some registration) :
    ∃ line : List Entry,
      line.map Prod.fst = order ∧
        ∀ entry ∈ line, handle.heap entry.1 = some entry.2 := by
  induction order with
  | nil =>
      exact ⟨[], rfl, fun _ member => nomatch member⟩
  | cons pos rest inductionHypothesis =>
      obtain ⟨registration, here⟩ := stored pos List.mem_cons_self
      obtain ⟨line, rfl, storedRest⟩ :=
        inductionHypothesis fun other member =>
          stored other (List.mem_cons_of_mem _ member)
      refine ⟨(pos, registration) :: line, rfl, ?_⟩
      intro entry member
      rcases List.mem_cons.mp member with rfl | inLine
      · exact here
      · exact storedRest entry inLine

namespace Tracks

variable {handle : Handle}
variable {order : List Addr}

/-- The entries of a handle that list and kernel agree on. -/
theorem exists_chained
    (tracks : Tracks handle order) :
    ∃ line : List Entry,
      line.map Prod.fst = order ∧
        Chained handle line ∧
        (line.map Prod.snd).Nodup ∧
        handle.events = line.map Prod.snd := by
  obtain ⟨line, rfl, stored⟩ :=
    exists_line fun pos member => tracks.stored member
  have chained : Chained handle line := by
    constructor
    · have ring := tracks.ring
      rwa [List.map_map] at ring
    · exact stored
    · simpa using tracks.few
  have sameFd :
      ∀ first ∈ line, ∀ second ∈ line,
        first.2 = second.2 → first = second := by
    intro first firstMember second secondMember same
    apply chained.eq_of_fst_eq firstMember secondMember
    have storedFirst :
        (handle.toState (line.map Prod.fst)).heap first.1 =
          some first.2 :=
      stored first firstMember
    have storedSecond :
        (handle.toState (line.map Prod.fst)).heap second.1 =
          some second.2 :=
      stored second secondMember
    exact tracks.attached.eq_of_fd_eq
      (List.mem_map_of_mem firstMember)
      (List.mem_map_of_mem secondMember)
      storedFirst storedSecond
      (congrArg (fun registration => registration.1.fd) same)
  refine ⟨line, rfl, chained, ?_, ?_⟩
  · exact List.Nodup.map_on sameFd (List.Nodup.of_map _ chained.nodup)
  · have listed := tracks.agrees.listed
    rw [Handle.events, listed, Option.getD_some, List.map_map,
      List.filterMap_map]
    rw [← List.filterMap_eq_map]
    apply List.filterMap_congr
    intro entry member
    exact stored entry member

/-- The exits called and to be called are those of all registrations. -/
theorem all_pending
    {line : List Entry}
    (tracks : Tracks handle (line.map Prod.fst))
    (chained : Chained handle line) :
    (handle.pending line).all.Perm (handle.made.filterMap exitOf) := by
  have samePending :
      (line.map Prod.snd).filterMap exitOf =
        (line.map Prod.fst).filterMap handle.pendingExit := by
    rw [List.filterMap_map, List.filterMap_map]
    apply List.filterMap_congr
    intro entry member
    simp only [Function.comp_apply, Handle.pendingExit,
      chained.stored entry member, Option.bind_some]
  unfold Pending.all Handle.pending
  rw [samePending]
  exact tracks.balanced

end Tracks

/--
After every sequence of operations and for every behaviour of the exit
callbacks: `wm_epoll_destroy` returns with every exit of a registered event
called once exactly if no exit callback removes the event that is next in the
list when it is called; if one does, the loop reads a freed event.
-/
theorem destroy_survives_iff
    {handle : Handle}
    (reachable : registry.Reachable handle)
    (behaviour : ExitBehaviour) :
    ((∃ final,
        handle.wmEpollDestroyWith behaviour = .ok final ∧
          handle.LeftOnce final) ↔
      handle.SparesNext behaviour) ∧
    (¬ handle.SparesNext behaviour →
      handle.wmEpollDestroyWith behaviour = .error .readFreed) := by
  obtain ⟨⟨order, tracks⟩, _⟩ := exists_tracks reachable
  obtain ⟨line, rfl, chained, distinct, events⟩ := tracks.exists_chained
  obtain ⟨n, follows⟩ := chained.exists_nextOf
  have enough : line.length < handle.rounds :=
    Nat.lt_succ_of_le chained.few
  have condition :
      handle.SparesNext behaviour ↔
        Pending.SparesNext (Pending.exitBody behaviour handle.rounds)
          (handle.pending line) := by
    unfold Handle.SparesNext
    rw [events]
    rfl
  have ends :=
    destroyLoopWith_cases
      (exitBody_computes behaviour handle.rounds)
      (Pending.all_exitBody behaviour handle.rounds)
      chained distinct (Nat.le_of_lt enough) enough follows
  rw [condition]
  unfold Handle.wmEpollDestroyWith
  simp only [follows]
  rcases ends with ⟨spares, final, looped, empty, made, exits⟩ |
      ⟨removes, faulted⟩
  · refine ⟨iff_of_true ⟨final, looped, ?_⟩ spares,
      fun never => absurd spares never⟩
    have total := exits.trans (tracks.all_pending chained)
    constructor
    · have short : ([] : List Entry).length < final.rounds :=
        Nat.lt_succ_of_le empty.few
      exact empty.ring.walk_eq short
    · intro registration member exit isExit
      have nodup := total.nodup_iff.mpr tracks.exitsNodup
      apply List.count_eq_one_of_mem nodup
      rw [exits.mem_iff]
      apply List.mem_append_right
      rw [events] at member
      exact List.mem_filterMap.mpr ⟨registration, member, isExit⟩
  · refine ⟨iff_of_false ?_ removes, fun _ => faulted⟩
    rintro ⟨final, looped, _⟩
    rw [faulted] at looped
    cases looped

/-- An exit callback that makes no calls leaves the handle as it is. -/
theorem callExit_quiet
    {depth : Nat}
    {handle : Handle}
    {registration : Registration} :
    Handle.callExit (Handle.exitBody (fun _ => []) (depth + 1))
        handle registration = .ok handle := by
  unfold Handle.callExit
  cases exitOf registration <;> rfl

/-- The loop with exit callbacks that make no calls. -/
theorem destroyLoopWith_quiet
    {depth fuel : Nat}
    {pos n : Node}
    {handle final : Handle}
    (looped : Handle.destroyLoop fuel pos n handle = some final) :
    Handle.destroyLoopWith (Handle.exitBody (fun _ => []) (depth + 1))
        fuel pos n handle = .ok final := by
  induction fuel generalizing pos n handle with
  | zero =>
      cases pos <;> cases looped
  | succ fuel inductionHypothesis =>
      cases pos with
      | null => cases looped
      | poison1 => cases looped
      | poison2 => cases looped
      | head =>
          obtain rfl := Option.some.inj looped
          rfl
      | event pos =>
          rw [Handle.destroyLoop] at looped
          cases stored : handle.heap pos with
          | none =>
              simp only [stored] at looped
              cases looped
          | some registration =>
              have still :
                  (handle.detach pos registration).heap pos =
                    some registration :=
                stored
              simp only [stored] at looped
              simp only [Handle.destroyLoopWith, stored, callExit_quiet,
                still]
              cases readable :
                  (((handle.detach pos registration).closeFd
                    registration.1.fd).freeEvent pos).nextOf? n with
              | none =>
                  simp only [readable] at looped
                  cases looped
              | some later =>
                  simp only [readable] at looped ⊢
                  exact inductionHypothesis looped

/--
With exit callbacks that make no calls `wm_epoll_destroy` is the one of the
registry model.
-/
theorem wmEpollDestroyWith_quiet
    {handle final : Handle}
    (destroyed : handle.wmEpollDestroy = some final) :
    handle.wmEpollDestroyWith (fun _ => []) = .ok final := by
  unfold Handle.wmEpollDestroy at destroyed
  unfold Handle.wmEpollDestroyWith
  cases follows : handle.nextOf? (handle.links.next .head) with
  | none =>
      simp only [follows] at destroyed
      cases destroyed
  | some n =>
      simp only [follows] at destroyed ⊢
      exact destroyLoopWith_quiet destroyed

/-- The exit callback of one descriptor removes another one. -/
def removesOnExit (fd other : Int32) : ExitBehaviour :=
  fun exits =>
    match exits.getLast? with
    | none =>
        []
    | some exit =>
        if exit.1.fd = fd then
          [.modify fd 4 true, .remove fd, .remove other]
        else
          []

/-- Three events with exit callbacks, the last one added first in the list. -/
def threeExits : List Operation :=
  [
    .add 5 1 (some 11) 0 (some 55) 0 (some 100) true,
    .add 6 1 (some 11) 0 (some 66) 0 (some 200) true,
    .add 7 1 (some 11) 0 (some 77) 0 (some 300) true
  ]

/-- The three events as the list has them. -/
def threeEvents : List Registration :=
  [
    (⟨7, 11, 0, some 77, 0⟩, 2),
    (⟨6, 11, 0, some 66, 0⟩, 1),
    (⟨5, 11, 0, some 55, 0⟩, 0)
  ]

/-- The exit callback of the first event leaves the second one alone. -/
theorem sparesNext_three :
    Pending.SparesNext (Pending.exitBody (removesOnExit 7 5) 4)
      ⟨threeEvents, []⟩ := by
  have first :
      Pending.callExit (Pending.exitBody (removesOnExit 7 5) 4)
          ⟨threeEvents.tail, []⟩ (⟨7, 11, 0, some 77, 0⟩, 2) =
        ⟨[(⟨6, 11, 0, some 66, 0⟩, 1)],
          [(⟨77, 7, 0⟩, 2), (⟨55, 5, 0⟩, 0)]⟩ := by
    decide
  have second :
      Pending.callExit (Pending.exitBody (removesOnExit 7 5) 4)
          ⟨[], [(⟨77, 7, 0⟩, 2), (⟨55, 5, 0⟩, 0)]⟩
          (⟨6, 11, 0, some 66, 0⟩, 1) =
        ⟨[], [(⟨77, 7, 0⟩, 2), (⟨55, 5, 0⟩, 0), (⟨66, 6, 0⟩, 1)]⟩ := by
    decide
  refine .leave ?_ ?_
  · rintro next ⟨⟩
    decide
  · refine first ▸ .leave (fun _ member => nomatch member) ?_
    exact second ▸ .done

/-- The first exit callback removes the event behind the next one. -/
theorem destroy_survives_three :
    ∃ handle final,
      registry.Reachable handle ∧
        handle.events = threeEvents ∧
        handle.wmEpollDestroyWith (removesOnExit 7 5) = .ok final ∧
        handle.LeftOnce final := by
  obtain ⟨handle, reachable, checked⟩ :=
    Machine.exists_reachable
      registry
      .wmEpollCreate
      threeExits
      (fun handle =>
        decide (handle.events = threeEvents) &&
          (decide (handle.exits = []) && decide (handle.rounds = 4)))
      rfl
      (by decide)
  simp only [Bool.and_eq_true, decide_eq_true_eq] at checked
  obtain ⟨events, exits, rounds⟩ := checked
  have spares : handle.SparesNext (removesOnExit 7 5) := by
    unfold Handle.SparesNext
    rw [events, exits, rounds]
    exact sparesNext_three
  obtain ⟨final, returned, once⟩ :=
    (destroy_survives_iff reachable (removesOnExit 7 5)).1.mpr spares
  exact ⟨handle, final, reachable, events, returned, once⟩

/-- The first exit callback removes the next event. -/
theorem destroy_reads_freed :
    ¬ ∀ handle,
      registry.Reachable handle →
      ∀ behaviour,
        ∃ final,
          handle.wmEpollDestroyWith behaviour = .ok final ∧
            handle.LeftOnce final := by
  intro survives
  obtain ⟨handle, reachable, stopped⟩ :=
    Machine.exists_reachable
      registry
      .wmEpollCreate
      threeExits
      (fun handle =>
        !(handle.wmEpollDestroyWith (removesOnExit 7 6)).isOk)
      rfl
      (by decide)
  obtain ⟨final, returned, _⟩ :=
    survives handle reachable (removesOnExit 7 6)
  rw [returned] at stopped
  cases stopped

end WkcRuntime.WmEpoll
