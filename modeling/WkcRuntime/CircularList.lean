import Mathlib.Data.List.Nodup
import Mathlib.Logic.Function.Basic

namespace WkcRuntime.CircularList

/-!
# Circular doubly linked lists

An intrusive list is two functions that give each node its neighbours.  A
`Ring` is a head and the nodes that the functions lead through, forwards and
backwards, from the head back to it.  Adding a node behind the head and
deleting any node keep the ring; a walk along the successors returns the
nodes.
-/

/-- The neighbours of every node. -/
structure Links (Node : Type) where
  next : Node → Node
  prev : Node → Node

variable {Node : Type}

section Operations

variable [DecidableEq Node]

/-- `INIT_LIST_HEAD`. -/
def initListHead (links : Links Node) (head : Node) : Links Node where
  next := Function.update links.next head head
  prev := Function.update links.prev head head

/-- `__list_add`. -/
def listAddBetween
    (links : Links Node)
    (new before after : Node) :
    Links Node where
  next := Function.update (Function.update links.next new after) before new
  prev := Function.update (Function.update links.prev after new) new before

/-- `list_add`. -/
def listAdd (links : Links Node) (new head : Node) : Links Node :=
  listAddBetween links new head (links.next head)

/-- `__list_del`. -/
def listDelBetween
    (links : Links Node)
    (before after : Node) :
    Links Node where
  next := Function.update links.next before after
  prev := Function.update links.prev after before

/-- `list_del`; the poisons mark the neighbours of a deleted node. -/
def listDel
    (links : Links Node)
    (poison1 poison2 entry : Node) :
    Links Node :=
  let unlinked := listDelBetween links (links.prev entry) (links.next entry)
  { next := Function.update unlinked.next entry poison1
    prev := Function.update unlinked.prev entry poison2 }

/-- The nodes met on the way to `stop`, unless the fuel runs out first. -/
def walk
    (links : Links Node)
    (stop : Node) :
    Nat → Node → Option (List Node)
  | 0, _ =>
      none
  | fuel + 1, node =>
      if node = stop then
        some []
      else
        (walk links stop fuel (links.next node)).map (node :: ·)

end Operations

/-- Two nodes that point to each other. -/
def Neighbours (links : Links Node) (first second : Node) : Prop :=
  links.next first = second ∧ links.prev second = first

/-- The links lead from one node through a list of nodes to another one. -/
def Path (links : Links Node) : Node → List Node → Node → Prop
  | first, [], last =>
      Neighbours links first last
  | first, node :: rest, last =>
      Neighbours links first node ∧ Path links node rest last

/-- The links lead from the head through distinct nodes back to the head. -/
structure Ring
    (links : Links Node)
    (head : Node)
    (nodes : List Node) :
    Prop where
  path :
    Path links head nodes head
  nodup :
    (head :: nodes).Nodup

namespace Path

variable {links links' : Links Node}
variable {first last middle : Node}
variable {nodes before after : List Node}

/-- A path through a node is a path to it and a path from it. -/
theorem append :
    Path links first (before ++ middle :: after) last ↔
      Path links first before middle ∧ Path links middle after last := by
  induction before generalizing first with
  | nil =>
      exact Iff.rfl
  | cons node rest inductionHypothesis =>
      simp only [List.cons_append, Path, inductionHypothesis, and_assoc]

/-- Links that agree on the nodes of a path keep it. -/
theorem congr
    (path : Path links first nodes last)
    (sameNext :
      ∀ node ∈ first :: nodes, links'.next node = links.next node)
    (samePrev :
      ∀ node ∈ nodes ++ [last], links'.prev node = links.prev node) :
    Path links' first nodes last := by
  induction nodes generalizing first with
  | nil =>
      exact ⟨(sameNext first (by simp)).trans path.1,
        (samePrev last (by simp)).trans path.2⟩
  | cons node rest inductionHypothesis =>
      obtain ⟨neighbours, later⟩ := path
      refine ⟨⟨(sameNext first (by simp)).trans neighbours.1,
        (samePrev node (by simp)).trans neighbours.2⟩, ?_⟩
      apply inductionHypothesis later
      · intro other member
        exact sameNext other (List.mem_cons_of_mem _ member)
      · intro other member
        exact samePrev other (List.mem_cons_of_mem _ member)

/-- The successor of the first node lies on the path. -/
theorem next_eq
    (path : Path links first nodes last) :
    links.next first = (nodes ++ [last]).head (by simp) := by
  cases nodes with
  | nil =>
      exact path.1
  | cons node rest =>
      exact path.1.1

/-- The successor of the first node is one of the later ones. -/
theorem next_mem
    (path : Path links first nodes last) :
    links.next first ∈ nodes ++ [last] := by
  rw [path.next_eq]
  exact List.head_mem _

/-- The predecessor of the last node is one of the earlier ones. -/
theorem prev_mem
    (path : Path links first nodes last) :
    links.prev last ∈ first :: nodes := by
  induction nodes generalizing first with
  | nil =>
      rw [path.2]
      exact List.mem_cons_self
  | cons node rest inductionHypothesis =>
      exact List.mem_cons_of_mem _ (inductionHypothesis path.2)

/-- A path from one node becomes a path from a node that takes its place. -/
theorem redirect
    {old new : Node}
    (path : Path links old nodes last)
    (nextNew : links'.next new = links.next old)
    (prevNew : links'.prev (links.next old) = new)
    (sameNext : ∀ node ∈ nodes, links'.next node = links.next node)
    (samePrev :
      ∀ node ∈ nodes ++ [last], node ≠ links.next old →
        links'.prev node = links.prev node)
    (distinct : (nodes ++ [last]).Nodup) :
    Path links' new nodes last := by
  cases nodes with
  | nil =>
      have nextOld : links.next old = last := path.1
      exact ⟨nextNew.trans nextOld, nextOld ▸ prevNew⟩
  | cons node rest =>
      obtain ⟨⟨nextOld, _⟩, later⟩ := path
      have nodeNot : node ∉ rest ++ [last] :=
        (List.nodup_cons.mp distinct).1
      refine ⟨⟨nextNew.trans nextOld, nextOld ▸ prevNew⟩, ?_⟩
      apply later.congr sameNext
      intro other member
      refine samePrev other (List.mem_cons_of_mem _ member) ?_
      rw [nextOld]
      exact ne_of_mem_of_not_mem member nodeNot

/-- Deleting a node joins the paths to it and from it. -/
theorem listDel
    [DecidableEq Node]
    {poison1 poison2 entry : Node}
    (pathTo : Path links first before entry)
    (pathFrom : Path links entry after last)
    (distinct : (first :: before ++ entry :: after).Nodup)
    (lastFresh : last ∉ before ++ entry :: after) :
    Path (CircularList.listDel links poison1 poison2 entry)
      first (before ++ after) last := by
  have nextMember := pathFrom.next_mem
  have prevMember := pathTo.prev_mem
  induction before generalizing first with
  | nil =>
      have prevEntry : links.prev entry = first := pathTo.2
      simp only [List.cons_append, List.nil_append, List.nodup_cons,
        List.mem_cons, not_or] at distinct lastFresh
      obtain ⟨⟨firstNe, firstNot⟩, entryNot, afterNodup⟩ := distinct
      obtain ⟨lastNe, lastNot⟩ := lastFresh
      have entryFresh : entry ∉ after ++ [last] := by
        simp [entryNot, Ne.symm lastNe]
      have entryNext : links.next entry ≠ entry :=
        ne_of_mem_of_not_mem nextMember entryFresh
      apply pathFrom.redirect
      · simp [CircularList.listDel, listDelBetween, prevEntry, firstNe]
      · simp [CircularList.listDel, listDelBetween, prevEntry, entryNext]
      · intro node member
        have nodeFirst := ne_of_mem_of_not_mem member firstNot
        have nodeEntry := ne_of_mem_of_not_mem member entryNot
        simp [CircularList.listDel, listDelBetween, prevEntry,
          nodeFirst, nodeEntry]
      · intro node member nodeNext
        have nodeEntry := ne_of_mem_of_not_mem member entryFresh
        simp [CircularList.listDel, listDelBetween, nodeNext, nodeEntry]
      · simpa using List.Nodup.concat lastNot afterNodup
  | cons node rest inductionHypothesis =>
      obtain ⟨neighbours, later⟩ := pathTo
      have laterPrev := later.prev_mem
      simp only [List.cons_append] at distinct lastFresh
      obtain ⟨firstNot, restDistinct⟩ := List.nodup_cons.mp distinct
      obtain ⟨nodeNot, _⟩ := List.nodup_cons.mp restDistinct
      simp only [List.mem_cons, List.mem_append, not_or]
        at firstNot nodeNot lastFresh
      refine ⟨⟨?_, ?_⟩, ?_⟩
      · have prevNe : links.prev entry ≠ first := by
          refine ne_of_mem_of_not_mem laterPrev ?_
          simp [firstNot.1, firstNot.2.1]
        simp [CircularList.listDel, listDelBetween, Ne.symm prevNe,
          firstNot.2.2.1, neighbours.1]
      · have nextNe : links.next entry ≠ node := by
          refine ne_of_mem_of_not_mem nextMember ?_
          simp [nodeNot.2.2, Ne.symm lastFresh.1]
        simp [CircularList.listDel, listDelBetween, Ne.symm nextNe,
          nodeNot.2.1, neighbours.2]
      · apply inductionHypothesis later restDistinct
        · simpa using lastFresh.2
        · exact laterPrev

end Path

namespace Ring

variable [DecidableEq Node]
variable {links : Links Node}
variable {head : Node}
variable {nodes : List Node}

/-- A new head is a ring without further nodes. -/
theorem init :
    Ring (initListHead links head) head [] where
  path :=
    ⟨Function.update_self .., Function.update_self ..⟩
  nodup := by simp

/-- A node that is added stands first. -/
theorem add
    (ring : Ring links head nodes)
    {new : Node}
    (fresh : new ∉ head :: nodes) :
    Ring (listAdd links new head) head (new :: nodes) := by
  obtain ⟨headNot, nodesNodup⟩ := List.nodup_cons.mp ring.nodup
  obtain ⟨newHead, newNot⟩ := not_or.mp (mt List.mem_cons.mpr fresh)
  have newFresh : new ∉ nodes ++ [head] := by
    simp [newNot, newHead]
  have nextNe : links.next head ≠ new :=
    ne_of_mem_of_not_mem ring.path.next_mem newFresh
  constructor
  · refine ⟨⟨?_, ?_⟩, ?_⟩
    · simp [listAdd, listAddBetween]
    · simp [listAdd, listAddBetween]
    · apply ring.path.redirect
      · simp [listAdd, listAddBetween, newHead]
      · simp [listAdd, listAddBetween, nextNe]
      · intro node member
        have nodeHead := ne_of_mem_of_not_mem member headNot
        have nodeNew := ne_of_mem_of_not_mem member newNot
        simp [listAdd, listAddBetween, nodeHead, nodeNew]
      · intro node member nodeNext
        have nodeNew := ne_of_mem_of_not_mem member newFresh
        simp [listAdd, listAddBetween, nodeNext, nodeNew]
      · simpa using List.Nodup.concat headNot nodesNodup
  · refine (List.Perm.swap head new nodes).nodup ?_
    exact List.nodup_cons.mpr ⟨fresh, ring.nodup⟩

/-- Deleting a node takes it out of the ring and nothing else. -/
theorem del
    {before after : List Node}
    {poison1 poison2 entry : Node}
    (ring : Ring links head (before ++ entry :: after)) :
    Ring (listDel links poison1 poison2 entry) head
      (before ++ after) := by
  obtain ⟨pathTo, pathFrom⟩ := Path.append.mp ring.path
  constructor
  · apply pathTo.listDel pathFrom
    · exact ring.nodup
    · exact (List.nodup_cons.mp ring.nodup).1
  · refine List.Nodup.sublist ?_ ring.nodup
    exact ((List.sublist_cons_self entry after).append_left before).cons_cons _

end Ring

/-- With enough fuel a walk returns the nodes of its path. -/
theorem walk_path
    [DecidableEq Node]
    {links : Links Node}
    {first stop : Node}
    {nodes : List Node}
    {fuel : Nat}
    (path : Path links first nodes stop)
    (fresh : stop ∉ nodes)
    (enough : nodes.length < fuel) :
    walk links stop fuel (links.next first) = some nodes := by
  induction nodes generalizing first fuel with
  | nil =>
      obtain ⟨more, rfl⟩ := Nat.exists_eq_add_one.mpr enough
      have nextFirst : links.next first = stop := path.1
      simp [walk, nextFirst]
  | cons node rest inductionHypothesis =>
      obtain ⟨more, rfl⟩ :=
        Nat.exists_eq_add_one.mpr (Nat.zero_lt_of_lt enough)
      obtain ⟨⟨nextFirst, _⟩, later⟩ := path
      simp only [List.mem_cons, not_or] at fresh
      rw [nextFirst, walk, if_neg (Ne.symm fresh.1),
        inductionHypothesis later fresh.2 (Nat.lt_of_succ_lt_succ enough)]
      rfl

/-- A walk from the head returns the nodes of the ring. -/
theorem Ring.walk_eq
    [DecidableEq Node]
    {links : Links Node}
    {head : Node}
    {nodes : List Node}
    {fuel : Nat}
    (ring : Ring links head nodes)
    (enough : nodes.length < fuel) :
    walk links head fuel (links.next head) = some nodes :=
  walk_path ring.path (List.nodup_cons.mp ring.nodup).1 enough

end WkcRuntime.CircularList
