import WkcRuntime.ListHeadSource
import WkcRuntime.RingOperations

namespace WkcRuntime.ListHead

open CircularList

/-!
# Many lists on one heap of nodes

A client of `utils/list.h` sees a list behind each head.  Every sequence of
calls that respects the contracts of the functions keeps the links of all heads
in line with these lists: each call changes the lists that it names and no
other one.
-/

variable {Node : Type}

/-- The list behind each head. -/
abbrev Lists (Node : Type) :=
  Node → Option (List Node)

section Client

variable [DecidableEq Node]

/-- One call of a client. -/
inductive Op (Node : Type) where
  | init (head : Node)
  | add (new head : Node)
  | addTail (new head : Node)
  | del (entry : Node)
  | delInit (entry : Node)
  | move (entry head : Node)
  | moveTail (entry head : Node)
  | splice (list head : Node)
  | spliceTail (list head : Node)
  | spliceInit (list head : Node)
  deriving DecidableEq

/-- One call in the code. -/
def callCode
    (poison1 poison2 : Node)
    (links : Links Node) :
    Op Node → Links Node
  | .init head =>
      initListHead links head
  | .add new head =>
      listAdd links new head
  | .addTail new head =>
      listAddTail links new head
  | .del entry =>
      listDel links poison1 poison2 entry
  | .delInit entry =>
      listDelInit links entry
  | .move entry head =>
      listMove links entry head
  | .moveTail entry head =>
      listMoveTail links entry head
  | .splice list head =>
      listSplice links list head
  | .spliceTail list head =>
      listSpliceTail links list head
  | .spliceInit list head =>
      listSpliceInit links list head

/-- Take a node out of the list that it is in. -/
def Lists.remove
    (lists : Lists Node)
    (entry : Node) :
    Lists Node :=
  fun head => (lists head).map fun nodes => nodes.erase entry

/-- Put nodes into one list. -/
def Lists.insert
    (lists : Lists Node)
    (head : Node)
    (put : List Node → List Node) :
    Lists Node :=
  Function.update lists head ((lists head).map put)

/-- What a call means for the lists. -/
def callLists
    (lists : Lists Node) :
    Op Node → Lists Node
  | .init head =>
      Function.update lists head (some [])
  | .add new head =>
      Lists.insert (Function.update lists new none) head (new :: ·)
  | .addTail new head =>
      Lists.insert (Function.update lists new none) head (· ++ [new])
  | .del entry =>
      lists.remove entry
  | .delInit entry =>
      Function.update (lists.remove entry) entry (some [])
  | .move entry head =>
      (lists.remove entry).insert head (entry :: ·)
  | .moveTail entry head =>
      (lists.remove entry).insert head (· ++ [entry])
  | .splice list head =>
      match lists list with
      | some (first :: rest) =>
          Lists.insert (Function.update lists list none) head
            ((first :: rest) ++ ·)
      | _ =>
          lists
  | .spliceTail list head =>
      match lists list with
      | some (first :: rest) =>
          Lists.insert (Function.update lists list none) head
            (· ++ (first :: rest))
      | _ =>
          lists
  | .spliceInit list head =>
      match lists list with
      | some (first :: rest) =>
          Function.update
            (Lists.insert (Function.update lists list none) head
              ((first :: rest) ++ ·))
            list (some [])
      | _ =>
          lists

end Client

/-- The node is in one of the lists. -/
def Lists.Linked
    (lists : Lists Node)
    (node : Node) :
    Prop :=
  ∃ head nodes, lists head = some nodes ∧ node ∈ nodes

/-- The node is a head. -/
def Lists.IsHead
    (lists : Lists Node)
    (head : Node) :
    Prop :=
  ∃ nodes, lists head = some nodes

/-- The contract of each function. -/
def Op.Valid
    (lists : Lists Node) :
    Op Node → Prop
  | .init head =>
      ¬ lists.Linked head
  | .add new head =>
      lists.IsHead head ∧ new ≠ head ∧ ¬ lists.Linked new
  | .addTail new head =>
      lists.IsHead head ∧ new ≠ head ∧ ¬ lists.Linked new
  | .del entry =>
      lists.Linked entry
  | .delInit entry =>
      lists.Linked entry
  | .move entry head =>
      lists.IsHead head ∧ lists.Linked entry
  | .moveTail entry head =>
      lists.IsHead head ∧ lists.Linked entry
  | .splice list head =>
      lists.IsHead head ∧ lists.IsHead list ∧ list ≠ head
  | .spliceTail list head =>
      lists.IsHead head ∧ lists.IsHead list ∧ list ≠ head
  | .spliceInit list head =>
      lists.IsHead head ∧ lists.IsHead list ∧ list ≠ head

/-- The node is the head or a node of this list. -/
def Lists.Owns
    (lists : Lists Node)
    (head node : Node) :
    Prop :=
  ∃ nodes, lists head = some nodes ∧ node ∈ head :: nodes

/-- The links of every head are a ring, and no node is in two rings. -/
structure Represents
    (links : Links Node)
    (lists : Lists Node) :
    Prop where
  rings :
    ∀ {head nodes},
      lists head = some nodes →
      Ring links head nodes
  apart :
    ∀ {node head other},
      lists.Owns head node →
      lists.Owns other node →
      head = other

/-- Without heads there is nothing to represent. -/
theorem represents_none (links : Links Node) :
    Represents links (fun _ => none) where
  rings := by
    intro head nodes found
    cases found
  apart := by
    rintro node head other ⟨nodes, found, _⟩
    cases found

section Owners

variable {lists lists' : Lists Node}

/-- A listed node is owned. -/
theorem Lists.Linked.owner
    {node : Node}
    (linked : lists.Linked node) :
    ∃ head, lists.Owns head node := by
  obtain ⟨head, nodes, found, member⟩ := linked
  exact ⟨head, nodes, found, List.mem_cons_of_mem _ member⟩

/-- An owned node that is in no list is a head. -/
theorem Lists.Owns.eq_of_not_linked
    {head node : Node}
    (owns : lists.Owns head node)
    (loose : ¬ lists.Linked node) :
    node = head := by
  obtain ⟨nodes, found, member⟩ := owns
  obtain rfl | inNodes := List.mem_cons.mp member
  · rfl
  · exact absurd ⟨head, nodes, found, inNodes⟩ loose

/-- Moving nodes to one list keeps every node in one list only. -/
theorem apart_of_moved
    (apart :
      ∀ {node head other},
        lists.Owns head node →
        lists.Owns other node →
        head = other)
    {Moved : Node → Prop}
    {target : Node}
    (origin :
      ∀ {head node},
        lists'.Owns head node →
        (lists.Owns head node ∧ ¬ Moved node) ∨
          (Moved node ∧ head = target))
    {node head other : Node}
    (owns : lists'.Owns head node)
    (owns' : lists'.Owns other node) :
    head = other := by
  obtain ⟨before, stays⟩ | ⟨moved, rfl⟩ := origin owns
  · obtain ⟨before', _⟩ | ⟨moved', _⟩ := origin owns'
    · exact apart before before'
    · exact absurd moved' stays
  · obtain ⟨_, stays'⟩ | ⟨_, same⟩ := origin owns'
    · exact absurd moved stays'
    · exact same.symm

end Owners

section Frames

variable [DecidableEq Node]
variable {links : Links Node}
variable {nodes : List Node}

/-- `INIT_LIST_HEAD` touches the head only. -/
theorem agree_init
    {head : Node}
    (untouched : head ∉ nodes) :
    Agree links (initListHead links head) nodes := by
  intro node member
  have other := ne_of_mem_of_not_mem member untouched
  exact ⟨Function.update_of_ne other _ _,
    Function.update_of_ne other _ _⟩

/-- `__list_add` touches three nodes. -/
theorem agree_addBetween
    {new before after : Node}
    (newNot : new ∉ nodes)
    (beforeNot : before ∉ nodes)
    (afterNot : after ∉ nodes) :
    Agree links (listAddBetween links new before after) nodes := by
  intro node member
  have notNew := ne_of_mem_of_not_mem member newNot
  have notBefore := ne_of_mem_of_not_mem member beforeNot
  have notAfter := ne_of_mem_of_not_mem member afterNot
  simp [listAddBetween, notNew, notBefore, notAfter]

/-- `__list_del` touches the neighbours. -/
theorem agree_delBetween
    {before after : Node}
    (beforeNot : before ∉ nodes)
    (afterNot : after ∉ nodes) :
    Agree links (listDelBetween links before after) nodes := by
  intro node member
  have notBefore := ne_of_mem_of_not_mem member beforeNot
  have notAfter := ne_of_mem_of_not_mem member afterNot
  simp [listDelBetween, notBefore, notAfter]

/-- `list_del` also touches the entry. -/
theorem agree_del
    {poison1 poison2 entry : Node}
    (entryNot : entry ∉ nodes) :
    Agree
      (listDelBetween links (links.prev entry) (links.next entry))
      (listDel links poison1 poison2 entry) nodes := by
  intro node member
  have notEntry := ne_of_mem_of_not_mem member entryNot
  simp [listDel, notEntry]

/-- `__list_splice` touches four nodes. -/
theorem agree_splice
    {list head : Node}
    (headNot : head ∉ nodes)
    (firstNot : links.next list ∉ nodes)
    (lastNot : links.prev list ∉ nodes)
    (behindNot : links.next head ∉ nodes) :
    Agree links (listSpliceBetween links list head) nodes := by
  intro node member
  have notHead := ne_of_mem_of_not_mem member headNot
  have notFirst := ne_of_mem_of_not_mem member firstNot
  have notLast := ne_of_mem_of_not_mem member lastNot
  have notBehind := ne_of_mem_of_not_mem member behindNot
  simp [listSpliceBetween, notHead, notFirst, notLast, notBehind]

end Frames

section Steps

variable [DecidableEq Node]
variable {links : Links Node}
variable {lists : Lists Node}

omit [DecidableEq Node] in
/-- A node that another head owns is not in the ring of a head. -/
theorem Represents.not_mem
    (represents : Represents links lists)
    {head other node : Node}
    {nodes : List Node}
    (owns : lists.Owns other node)
    (found : lists head = some nodes)
    (different : head ≠ other) :
    node ∉ head :: nodes := by
  intro member
  exact different (represents.apart ⟨nodes, found, member⟩ owns)

omit [DecidableEq Node] in
/-- A node in a list is not a head. -/
theorem Represents.not_head
    (represents : Represents links lists)
    {node : Node}
    (linked : lists.Linked node) :
    lists node = none := by
  obtain ⟨head, nodes, found, member⟩ := linked
  cases own : lists node with
  | none =>
      rfl
  | some ownNodes =>
      have same : node = head :=
        represents.apart ⟨ownNodes, own, List.mem_cons_self⟩
          ⟨nodes, found, List.mem_cons_of_mem _ member⟩
      have nodup := (represents.rings found).nodup
      exact absurd (same ▸ member) (List.nodup_cons.mp nodup).1

/-- `INIT_LIST_HEAD` on a node that is in no list. -/
theorem Represents.init
    (represents : Represents links lists)
    {head : Node}
    (loose : ¬ lists.Linked head) :
    Represents (initListHead links head)
      (Function.update lists head (some [])) where
  rings := by
    intro other nodes found
    by_cases same : other = head
    · rw [same, Function.update_self, Option.some.injEq] at found
      rw [same, ← found]
      exact Ring.init
    · rw [Function.update_of_ne same] at found
      apply (represents.rings found).frame
      apply agree_init
      intro member
      exact same
        (Lists.Owns.eq_of_not_linked ⟨nodes, found, member⟩ loose).symm
  apart := by
    apply @apart_of_moved _ _ _ represents.apart (fun node => node = head) head
    rintro other node ⟨nodes, found, member⟩
    by_cases same : other = head
    · rw [same, Function.update_self, Option.some.injEq] at found
      rw [← found, same, List.mem_singleton] at member
      exact .inr ⟨member, same⟩
    · rw [Function.update_of_ne same] at found
      have owns : lists.Owns other node := ⟨nodes, found, member⟩
      refine .inl ⟨owns, ?_⟩
      rintro rfl
      exact same (owns.eq_of_not_linked loose).symm

/-- `__list_del` on the neighbours of a node takes it out of its ring. -/
theorem ring_delBetween
    {head entry : Node}
    {before after : List Node}
    (ring : Ring links head (before ++ entry :: after)) :
    Ring (listDelBetween links (links.prev entry) (links.next entry)) head
      (before ++ after) := by
  have poisoned :
      Ring (listDel links entry entry entry) head (before ++ after) :=
    ring.del
  apply poisoned.frame
  have entryNot : entry ∉ head :: (before ++ after) := by
    have turned : (head :: (before ++ entry :: after)).Perm
        (entry :: head :: (before ++ after)) :=
      (List.perm_middle.cons head).trans (List.Perm.swap entry head _)
    exact (List.nodup_cons.mp (turned.nodup ring.nodup)).1
  intro node member
  obtain ⟨sameNext, samePrev⟩ :=
    @agree_del _ _ links _ entry entry entry entryNot node member
  exact ⟨sameNext.symm, samePrev.symm⟩

omit [DecidableEq Node] in
/-- The neighbours of a listed node belong to the same head. -/
theorem Represents.neighbours
    (represents : Represents links lists)
    {head node : Node}
    (owns : lists.Owns head node) :
    lists.Owns head (links.next node) ∧
      lists.Owns head (links.prev node) := by
  obtain ⟨nodes, found, member⟩ := owns
  have ring := represents.rings found
  obtain rfl | inNodes := List.mem_cons.mp member
  · exact ⟨⟨nodes, found, ring.next_mem⟩, ⟨nodes, found, ring.prev_mem⟩⟩
  · obtain ⟨before, after, rfl⟩ := List.append_of_mem inNodes
    have turned := ring.rotate
    have shape :
        ∀ other ∈ node :: (after ++ head :: before),
          other ∈ head :: (before ++ node :: after) := by
      intro other otherMember
      simp only [List.mem_cons, List.mem_append] at otherMember ⊢
      tauto
    exact ⟨⟨_, found, shape _ turned.next_mem⟩,
      ⟨_, found, shape _ turned.prev_mem⟩⟩

/-- Taking a node out of its list. -/
theorem Represents.remove
    (represents : Represents links lists)
    {entry : Node}
    (linked : lists.Linked entry) :
    Represents
      (listDelBetween links (links.prev entry) (links.next entry))
      (lists.remove entry) where
  rings := by
    intro head nodes found
    rw [Lists.remove, Option.map_eq_some_iff] at found
    obtain ⟨whole, found, rfl⟩ := found
    have ring := represents.rings found
    by_cases member : entry ∈ whole
    · obtain ⟨before, after, rfl⟩ := List.append_of_mem member
      have entryNot : entry ∉ before := by
        have nodup := (List.nodup_cons.mp ring.nodup).2
        intro inBefore
        exact List.disjoint_of_nodup_append nodup inBefore
          List.mem_cons_self
      rw [List.erase_append_right _ entryNot, List.erase_cons_head]
      exact ring_delBetween ring
    · rw [List.erase_of_not_mem member]
      obtain ⟨owner, owns⟩ := linked.owner
      have different : head ≠ owner := by
        rintro rfl
        have owned : lists.Owns head entry := owns
        obtain ⟨nodes, found', inNodes⟩ := owned
        rw [found, Option.some.injEq] at found'
        obtain rfl | inWhole := List.mem_cons.mp (found' ▸ inNodes)
        · rw [represents.not_head linked] at found
          cases found
        · exact member inWhole
      obtain ⟨ownsNext, ownsPrev⟩ := represents.neighbours owns
      exact ring.frame
        (agree_delBetween
          (represents.not_mem ownsPrev found different)
          (represents.not_mem ownsNext found different))
  apart := by
    have origin :
        ∀ {head node : Node},
          (lists.remove entry).Owns head node →
          lists.Owns head node := by
      rintro head node ⟨nodes, found, member⟩
      rw [Lists.remove, Option.map_eq_some_iff] at found
      obtain ⟨whole, found, rfl⟩ := found
      refine ⟨whole, found, ?_⟩
      exact List.mem_cons.mpr
        ((List.mem_cons.mp member).imp_right List.mem_of_mem_erase)
    intro node head other owns owns'
    exact represents.apart (origin owns) (origin owns')

/-- A removed node is in no list any more. -/
theorem Represents.not_linked_remove
    (represents : Represents links lists)
    (entry : Node) :
    ¬ (lists.remove entry).Linked entry := by
  rintro ⟨head, nodes, found, member⟩
  rw [Lists.remove, Option.map_eq_some_iff] at found
  obtain ⟨whole, found, rfl⟩ := found
  have nodup := (List.nodup_cons.mp (represents.rings found).nodup).2
  exact (List.Nodup.not_mem_erase nodup) member

/-- The lists after nodes have moved from a former head to one list. -/
theorem insert_eq_some
    {source head other : Node}
    {put : List Node → List Node}
    {nodes : List Node}
    (different : source ≠ head)
    (found :
      Lists.insert (Function.update lists source none) head put other =
        some nodes) :
    (other = head ∧
        ∃ old, lists head = some old ∧ nodes = put old) ∨
      (other ≠ head ∧ other ≠ source ∧ lists other = some nodes) := by
  rw [Lists.insert] at found
  by_cases same : other = head
  · rw [same, Function.update_self,
      Function.update_of_ne (Ne.symm different),
      Option.map_eq_some_iff] at found
    obtain ⟨old, oldFound, rfl⟩ := found
    exact .inl ⟨same, old, oldFound, rfl⟩
  · rw [Function.update_of_ne same] at found
    by_cases isSource : other = source
    · rw [isSource, Function.update_self] at found
      cases found
    · rw [Function.update_of_ne isSource] at found
      exact .inr ⟨same, isSource, found⟩

/-- `list_add` on a node that is in no list. -/
theorem Represents.add
    (represents : Represents links lists)
    {new head : Node}
    (isHead : lists.IsHead head)
    (different : new ≠ head)
    (loose : ¬ lists.Linked new) :
    Represents (listAdd links new head)
      (Lists.insert (Function.update lists new none) head (new :: ·)) where
  rings := by
    intro other nodes found
    obtain ⟨rfl, old, oldFound, rfl⟩ | ⟨notHead, notNew, otherFound⟩ :=
      insert_eq_some different found
    · apply (represents.rings oldFound).add
      intro member
      exact different
        (Lists.Owns.eq_of_not_linked ⟨old, oldFound, member⟩ loose)
    · obtain ⟨old, oldFound⟩ := isHead
      have owns : lists.Owns head head :=
        ⟨old, oldFound, List.mem_cons_self⟩
      apply (represents.rings otherFound).frame
      apply agree_addBetween
      · intro member
        exact notNew
          (Lists.Owns.eq_of_not_linked ⟨nodes, otherFound, member⟩
            loose).symm
      · exact represents.not_mem owns otherFound notHead
      · exact represents.not_mem (represents.neighbours owns).1 otherFound
          notHead
  apart := by
    apply @apart_of_moved _ _ _ represents.apart (fun node => node = new) head
    rintro other node ⟨nodes, found, member⟩
    obtain ⟨rfl, old, oldFound, rfl⟩ | ⟨notHead, notNew, otherFound⟩ :=
      insert_eq_some different found
    · by_cases moved : node = new
      · exact .inr ⟨moved, rfl⟩
      · refine .inl ⟨⟨old, oldFound, ?_⟩, moved⟩
        simp only [List.mem_cons, moved, false_or] at member
        exact List.mem_cons.mpr member
    · have owns : lists.Owns other node := ⟨nodes, otherFound, member⟩
      refine .inl ⟨owns, ?_⟩
      rintro rfl
      exact notNew (owns.eq_of_not_linked loose).symm

/-- A ring that is joined to the front of another one. -/
theorem ring_splice
    {list head : Node}
    {moved nodes : List Node}
    (source : Ring links list moved)
    (target : Ring links head nodes)
    (nonempty : moved ≠ [])
    (apart : List.Disjoint (list :: moved) (head :: nodes)) :
    Ring (listSpliceBetween links list head) head (moved ++ nodes) := by
  have movedNodup := (List.nodup_cons.mp source.nodup).2
  have behindMember := target.next_mem
  have firstMember : links.next list ∈ moved := by
    obtain isHead | inMoved := List.mem_cons.mp source.next_mem
    · exact absurd (source.next_eq_head.mp isHead) nonempty
    · exact inMoved
  have lastMember : links.prev list ∈ moved := by
    obtain isHead | inMoved := List.mem_cons.mp source.prev_mem
    · exact absurd (source.prev_eq_head.mp isHead) nonempty
    · exact inMoved
  have headNot : head ∉ moved := fun member =>
    apart (List.mem_cons_of_mem _ member) List.mem_cons_self
  have movedNot {node : Node} (member : node ∈ moved) :
      node ∉ head :: nodes := fun other =>
    apart (List.mem_cons_of_mem _ member) other
  have firstNot := movedNot firstMember
  have lastNot := movedNot lastMember
  have behindNot : links.next head ∉ moved := fun member =>
    movedNot member behindMember
  have toBehind :
      Path (listSpliceBetween links list head) head moved
        (links.next head) := by
    apply source.path.bridge nonempty movedNodup
    · have headLast : head ≠ links.prev list := fun same =>
        lastNot (same ▸ List.mem_cons_self)
      simp [listSpliceBetween, headLast]
    · have firstBehind : links.next list ≠ links.next head := fun same =>
        firstNot (same ▸ behindMember)
      simp [listSpliceBetween, firstBehind]
    · simp [listSpliceBetween]
    · simp [listSpliceBetween]
    · intro node member notLast
      have notHead := ne_of_mem_of_not_mem member headNot
      simp [listSpliceBetween, notLast, notHead]
    · intro node member notFirst
      have notBehind := ne_of_mem_of_not_mem member behindNot
      simp [listSpliceBetween, notFirst, notBehind]
  constructor
  · cases nodes with
    | nil =>
        have behind : links.next head = head := target.path.1
        rw [behind] at toBehind
        rw [List.append_nil]
        exact toBehind
    | cons node rest =>
        have behind : links.next head = node := target.path.1.1
        rw [behind] at toBehind
        refine Path.append.mpr ⟨toBehind, target.path.2.congr ?_ ?_⟩
        · intro other member
          have notHead : other ≠ head := by
            rintro rfl
            exact (List.nodup_cons.mp target.nodup).1 member
          have notLast : other ≠ links.prev list := by
            rintro rfl
            exact lastNot (List.mem_cons_of_mem _ member)
          simp [listSpliceBetween, notHead, notLast]
        · intro other member
          have inTarget : other ∈ head :: node :: rest := by
            simp only [List.mem_append, List.mem_singleton] at member
            simp only [List.mem_cons]
            tauto
          have notFirst : other ≠ links.next list := by
            rintro rfl
            exact firstNot inTarget
          have notBehind : other ≠ links.next head := by
            rw [behind]
            rintro rfl
            have nodup := List.nodup_cons.mp target.nodup
            have restNodup := (List.nodup_cons.mp nodup.2).1
            simp only [List.mem_append, List.mem_singleton] at member
            obtain inRest | isHead := member
            · exact restNodup inRest
            · exact nodup.1 (isHead ▸ List.mem_cons_self)
          simp [listSpliceBetween, notFirst, notBehind]
  · refine List.nodup_cons.mpr ⟨?_, ?_⟩
    · rw [List.mem_append, not_or]
      exact ⟨headNot, (List.nodup_cons.mp target.nodup).1⟩
    · refine movedNodup.append (List.nodup_cons.mp target.nodup).2 ?_
      intro node member other
      exact movedNot member (List.mem_cons_of_mem _ other)

/-- `__list_splice` of a list that is not empty. -/
theorem Represents.splice
    (represents : Represents links lists)
    {list head : Node}
    {moved : List Node}
    (source : lists list = some moved)
    (nonempty : moved ≠ [])
    (isHead : lists.IsHead head)
    (different : list ≠ head) :
    Represents (listSpliceBetween links list head)
      (Lists.insert (Function.update lists list none) head
        (moved ++ ·)) where
  rings := by
    have ownsList : lists.Owns list list :=
      ⟨moved, source, List.mem_cons_self⟩
    obtain ⟨ownsFirst, ownsLast⟩ := represents.neighbours ownsList
    intro other nodes found
    obtain ⟨rfl, old, oldFound, rfl⟩ | ⟨notHead, notList, otherFound⟩ :=
      insert_eq_some different found
    · apply ring_splice (represents.rings source)
        (represents.rings oldFound) nonempty
      intro node member member'
      exact different
        (represents.apart ⟨moved, source, member⟩ ⟨old, oldFound, member'⟩)
    · obtain ⟨old, oldFound⟩ := isHead
      have ownsHead : lists.Owns head head :=
        ⟨old, oldFound, List.mem_cons_self⟩
      apply (represents.rings otherFound).frame
      apply agree_splice
      · exact represents.not_mem ownsHead otherFound notHead
      · exact represents.not_mem ownsFirst otherFound notList
      · exact represents.not_mem ownsLast otherFound notList
      · exact represents.not_mem (represents.neighbours ownsHead).1
          otherFound notHead
  apart := by
    apply @apart_of_moved _ _ _ represents.apart (fun node => node ∈ moved) head
    rintro other node ⟨nodes, found, member⟩
    obtain ⟨rfl, old, oldFound, rfl⟩ | ⟨notHead, notList, otherFound⟩ :=
      insert_eq_some different found
    · by_cases inMoved : node ∈ moved
      · exact .inr ⟨inMoved, rfl⟩
      · refine .inl ⟨⟨old, oldFound, ?_⟩, inMoved⟩
        simp only [List.mem_cons, List.mem_append, inMoved,
          false_or] at member
        exact List.mem_cons.mpr member
    · have owns : lists.Owns other node := ⟨nodes, otherFound, member⟩
      refine .inl ⟨owns, ?_⟩
      intro inMoved
      exact notList
        (represents.apart owns
          ⟨moved, source, List.mem_cons_of_mem _ inMoved⟩)

end Steps

section Backwards

/-- The lists read backwards. -/
def Lists.swap (lists : Lists Node) : Lists Node :=
  fun head => (lists head).map List.reverse

variable {links : Links Node}
variable {lists : Lists Node}

theorem linked_swap (node : Node) :
    lists.swap.Linked node ↔ lists.Linked node := by
  constructor
  · rintro ⟨head, nodes, found, member⟩
    obtain ⟨old, oldFound, rfl⟩ := Option.map_eq_some_iff.mp found
    exact ⟨head, old, oldFound, List.mem_reverse.mp member⟩
  · rintro ⟨head, nodes, found, member⟩
    exact ⟨head, nodes.reverse, by rw [Lists.swap, found]; rfl,
      List.mem_reverse.mpr member⟩

theorem isHead_swap
    {head : Node}
    (isHead : lists.IsHead head) :
    lists.swap.IsHead head := by
  obtain ⟨nodes, found⟩ := isHead
  exact ⟨nodes.reverse, by rw [Lists.swap, found]; rfl⟩

/-- Links read backwards represent the lists read backwards. -/
theorem Represents.swap
    (represents : Represents links lists) :
    Represents links.swap lists.swap where
  rings := by
    intro head nodes found
    obtain ⟨old, oldFound, rfl⟩ := Option.map_eq_some_iff.mp found
    apply Ring.swap.mpr
    rw [List.reverse_reverse]
    exact represents.rings oldFound
  apart := by
    have origin :
        ∀ {head node : Node},
          lists.swap.Owns head node →
          lists.Owns head node := by
      rintro head node ⟨nodes, found, member⟩
      obtain ⟨old, oldFound, rfl⟩ := Option.map_eq_some_iff.mp found
      exact ⟨old, oldFound, by simpa using member⟩
    intro node head other owns owns'
    exact represents.apart (origin owns) (origin owns')

variable [DecidableEq Node]

/-- Nodes put into a list that is read backwards. -/
theorem swap_insert
    (source head : Node)
    (put : List Node → List Node) :
    (Lists.insert (Function.update lists.swap source none) head put).swap =
      Lists.insert (Function.update lists source none) head
        fun nodes => (put nodes.reverse).reverse := by
  funext other
  simp only [Lists.swap, Lists.insert, Function.update_apply]
  split
  · split
    · rfl
    · cases lists head <;> rfl
  · split
    · rfl
    · cases lists other with
      | none => rfl
      | some nodes => simp

/-- `list_add_tail` is `list_add` backwards. -/
theorem listAddTail_eq
    {new head : Node}
    (different : new ≠ head)
    (notPrev : new ≠ links.prev head) :
    listAddTail links new head = (listAdd links.swap new head).swap := by
  simp only [listAddTail, listAdd, listAddBetween, Links.swap,
    Links.mk.injEq]
  exact ⟨Function.update_comm notPrev _ _ _,
    Function.update_comm different.symm _ _ _⟩

/-- `list_add_tail` on a node that is in no list. -/
theorem Represents.addTail
    (represents : Represents links lists)
    {new head : Node}
    (isHead : lists.IsHead head)
    (different : new ≠ head)
    (loose : ¬ lists.Linked new) :
    Represents (listAddTail links new head)
      (Lists.insert (Function.update lists new none) head
        (· ++ [new])) := by
  have notPrev : new ≠ links.prev head := by
    obtain ⟨nodes, found⟩ := isHead
    intro same
    have owned :=
      (represents.neighbours ⟨nodes, found, List.mem_cons_self⟩).2
    rw [← same] at owned
    exact different (owned.eq_of_not_linked loose)
  have backwards :=
    (represents.swap.add (isHead_swap isHead) different
      (mt (linked_swap new).mp loose)).swap
  rw [swap_insert, ← listAddTail_eq different notPrev] at backwards
  simpa using backwards

/-- `__list_splice_tail` of a list that is not empty. -/
theorem Represents.spliceTail
    (represents : Represents links lists)
    {list head : Node}
    {moved : List Node}
    (source : lists list = some moved)
    (nonempty : moved ≠ [])
    (isHead : lists.IsHead head)
    (different : list ≠ head) :
    Represents (listSpliceTailBetween links list head)
      (Lists.insert (Function.update lists list none) head
        (· ++ moved)) := by
  have sourceBack : lists.swap list = some moved.reverse := by
    rw [Lists.swap, source]
    rfl
  have backwards :=
    (represents.swap.splice sourceBack (by simpa using nonempty)
      (isHead_swap isHead) different).swap
  have shape :
      (listSpliceBetween links.swap list head).swap =
        listSpliceTailBetween links list head :=
    rfl
  rw [swap_insert, shape] at backwards
  simpa using backwards

end Backwards

section Calls

variable [DecidableEq Node]
variable {links : Links Node}
variable {lists : Lists Node}
variable {poison1 poison2 : Node}

/-- `list_empty` sees whether the list is empty. -/
theorem Represents.listEmpty
    (represents : Represents links lists)
    {head : Node}
    {nodes : List Node}
    (found : lists head = some nodes) :
    ListHead.listEmpty links head = decide (nodes = []) := by
  rw [ListHead.listEmpty]
  exact decide_eq_decide.mpr (represents.rings found).next_eq_head

/-- A removed node may be added again. -/
theorem Represents.readd
    (represents : Represents links lists)
    {entry head : Node}
    (isHead : lists.IsHead head)
    (linked : lists.Linked entry) :
    (lists.remove entry).IsHead head ∧ entry ≠ head ∧
      Function.update (lists.remove entry) entry none =
        lists.remove entry := by
  have notHead := represents.not_head linked
  refine ⟨?_, ?_, ?_⟩
  · obtain ⟨nodes, found⟩ := isHead
    exact ⟨nodes.erase entry, by rw [Lists.remove, found]; rfl⟩
  · rintro rfl
    obtain ⟨nodes, found⟩ := isHead
    rw [notHead] at found
    cases found
  · apply Function.update_eq_self_iff.mpr
    rw [Lists.remove, notHead]
    rfl

/-- Every call that respects its contract keeps the links in line. -/
theorem Represents.call
    (represents : Represents links lists)
    {op : Op Node}
    (valid : op.Valid lists) :
    Represents (callCode poison1 poison2 links op) (callLists lists op) := by
  cases op with
  | init head =>
      exact represents.init valid
  | add new head =>
      exact represents.add valid.1 valid.2.1 valid.2.2
  | addTail new head =>
      exact represents.addTail valid.1 valid.2.1 valid.2.2
  | del entry =>
      have removed := represents.remove valid
      refine ⟨?_, removed.apart⟩
      intro head nodes found
      apply (removed.rings found).frame
      apply agree_del
      intro member
      have owns : (lists.remove entry).Owns head entry :=
        ⟨nodes, found, member⟩
      have same :=
        owns.eq_of_not_linked (represents.not_linked_remove entry)
      have gone : lists.remove entry entry = none := by
        rw [Lists.remove, represents.not_head valid]
        rfl
      have removedFound : lists.remove entry head = some nodes := found
      rw [← same, gone] at removedFound
      cases removedFound
  | delInit entry =>
      exact (represents.remove valid).init
        (represents.not_linked_remove entry)
  | move entry head =>
      obtain ⟨isHead, different, same⟩ :=
        represents.readd valid.1 valid.2
      have added :=
        (represents.remove valid.2).add isHead different
          (represents.not_linked_remove entry)
      rw [same] at added
      exact added
  | moveTail entry head =>
      obtain ⟨isHead, different, same⟩ :=
        represents.readd valid.1 valid.2
      have added :=
        (represents.remove valid.2).addTail isHead different
          (represents.not_linked_remove entry)
      rw [same] at added
      exact added
  | splice list head =>
      obtain ⟨isHead, ⟨moved, source⟩, different⟩ := valid
      have empty := represents.listEmpty source
      cases moved with
      | nil =>
          simp only [callCode, callLists, listSplice, source, empty,
            decide_true, if_true]
          exact represents
      | cons first rest =>
          simp only [callCode, callLists, listSplice, source, empty,
            List.cons_ne_nil, decide_false, Bool.false_eq_true, if_false]
          exact represents.splice source (List.cons_ne_nil _ _) isHead
            different
  | spliceTail list head =>
      obtain ⟨isHead, ⟨moved, source⟩, different⟩ := valid
      have empty := represents.listEmpty source
      cases moved with
      | nil =>
          simp only [callCode, callLists, listSpliceTail, source, empty,
            decide_true, if_true]
          exact represents
      | cons first rest =>
          simp only [callCode, callLists, listSpliceTail, source, empty,
            List.cons_ne_nil, decide_false, Bool.false_eq_true, if_false]
          exact represents.spliceTail source (List.cons_ne_nil _ _) isHead
            different
  | spliceInit list head =>
      obtain ⟨isHead, ⟨moved, source⟩, different⟩ := valid
      have empty := represents.listEmpty source
      cases moved with
      | nil =>
          simp only [callCode, callLists, listSpliceInit, source, empty,
            decide_true, if_true]
          exact represents
      | cons first rest =>
          simp only [callCode, callLists, listSpliceInit, source, empty,
            List.cons_ne_nil, decide_false, Bool.false_eq_true, if_false]
          have joined :=
            represents.splice source (List.cons_ne_nil _ _) isHead
              different
          apply joined.init
          rintro ⟨other, nodes, found, member⟩
          obtain ⟨rfl, old, oldFound, rfl⟩ | ⟨_, notList, otherFound⟩ :=
            insert_eq_some different found
          · obtain inMoved | inOld := List.mem_append.mp member
            · exact (List.nodup_cons.mp (represents.rings source).nodup).1
                inMoved
            · exact different
                (represents.apart
                  ⟨_, source, List.mem_cons_self⟩
                  ⟨old, oldFound, List.mem_cons_of_mem _ inOld⟩)
          · exact notList
              (represents.apart
                ⟨nodes, otherFound, List.mem_cons_of_mem _ member⟩
                ⟨_, source, List.mem_cons_self⟩)

/-- A sequence of calls in the code. -/
def runCode
    (poison1 poison2 : Node)
    (links : Links Node)
    (ops : List (Op Node)) :
    Links Node :=
  ops.foldl (callCode poison1 poison2) links

/-- A sequence of calls on the lists. -/
def runLists
    (lists : Lists Node)
    (ops : List (Op Node)) :
    Lists Node :=
  ops.foldl callLists lists

/-- Each call respects its contract where it is made. -/
def ValidRun : Lists Node → List (Op Node) → Prop
  | _, [] =>
      True
  | lists, op :: rest =>
      op.Valid lists ∧ ValidRun (callLists lists op) rest

/-- A sequence of calls keeps the links in line with the lists. -/
theorem Represents.run
    {ops : List (Op Node)}
    (represents : Represents links lists)
    (valid : ValidRun lists ops) :
    Represents (runCode poison1 poison2 links ops) (runLists lists ops) := by
  induction ops generalizing links lists with
  | nil =>
      exact represents
  | cons op rest inductionHypothesis =>
      exact inductionHypothesis (represents.call valid.1) valid.2

/-- Walking back is walking along the links read backwards. -/
theorem walkBack_eq
    (stop : Node)
    (fuel : Nat)
    (node : Node) :
    walkBack links stop fuel node = walk links.swap stop fuel node := by
  induction fuel generalizing node with
  | zero =>
      rfl
  | succ fuel inductionHypothesis =>
      rw [walkBack, walk, inductionHypothesis]
      rfl

/--
After every sequence of calls that respects the contracts, whatever the memory
held before, a loop over a list meets its nodes, a loop backwards meets them in
reverse, and both tests for emptiness are right.
-/
theorem loops_meet_lists
    (start : Links Node)
    (poison1 poison2 : Node)
    {ops : List (Op Node)}
    (valid : ValidRun (fun _ => none) ops)
    {head : Node}
    {nodes : List Node}
    (found : runLists (fun _ => none) ops head = some nodes)
    {fuel : Nat}
    (enough : nodes.length < fuel) :
    let links := runCode poison1 poison2 start ops
    listForEach links head fuel = some nodes ∧
      listForEachPrev links head fuel = some nodes.reverse ∧
      ListHead.listEmpty links head = decide (nodes = []) ∧
      listEmptyCareful links head = decide (nodes = []) := by
  intro links
  have represents : Represents links (runLists (fun _ => none) ops) :=
    (represents_none start).run valid
  have ring := represents.rings found
  have backwards : Ring links.swap head nodes.reverse :=
    Ring.swap.mpr (by rw [List.reverse_reverse]; exact ring)
  refine ⟨ring.walk_eq enough, ?_, represents.listEmpty found, ?_⟩
  · rw [listForEachPrev, walkBack_eq]
    exact backwards.walk_eq (by rw [List.length_reverse]; exact enough)
  · have forwards := ring.next_eq_head
    have back := ring.prev_eq_head
    rw [listEmptyCareful]
    by_cases empty : nodes = []
    · simp [empty, forwards.mpr empty, back.mpr empty]
    · simp [empty, mt forwards.mp empty]

/-- Two heads, and four nodes behind the first one. -/
def fillOps : List (Op Nat) :=
  [.init 0, .init 1, .addTail 2 0, .addTail 3 0, .addTail 4 0, .addTail 5 0]

theorem fillOps_valid : ValidRun (fun _ => none) fillOps := by
  refine ⟨?_, ?_, ⟨⟨[], rfl⟩, by decide, ?_⟩, ⟨⟨[2], rfl⟩, by decide, ?_⟩,
    ⟨⟨[2, 3], rfl⟩, by decide, ?_⟩, ⟨⟨[2, 3, 4], rfl⟩, by decide, ?_⟩,
    trivial⟩
  · rintro ⟨_, _, ⟨⟩, _⟩
  · rintro ⟨head, nodes, found, member⟩
    by_cases isFirst : head = 0
    · subst isFirst
      cases found
      cases member
    · simp [callLists, isFirst] at found
  all_goals
    rintro ⟨head, nodes, found, member⟩
    by_cases isFirst : head = 0
    · subst isFirst
      cases found
      revert member
      decide
    · by_cases isSecond : head = 1
      · subst isSecond
        cases found
        cases member
      · simp [callLists, Lists.insert, Function.update_apply, isFirst,
          isSecond] at found

/-- One of the four nodes is moved behind the second head. -/
def sampleOps : List (Op Nat) :=
  fillOps ++ [.moveTail 2 1]

theorem sampleOps_valid : ValidRun (fun _ => none) sampleOps := by
  obtain ⟨first, second, two, three, four, five, _⟩ := fillOps_valid
  exact ⟨first, second, two, three, four, five,
    ⟨⟨[], rfl⟩, 0, [2, 3, 4, 5], rfl, by decide⟩, trivial⟩

/-- The loops over the list that a node was moved out of. -/
theorem loops_meet_lists_moved :
    let links :=
      runCode 8 9 { next := fun _ => 7, prev := fun _ => 7 } sampleOps
    listForEach links 0 4 = some [3, 4, 5] ∧
      listForEachPrev links 0 4 = some [5, 4, 3] ∧
      ListHead.listEmpty links 0 = false ∧
      listEmptyCareful links 0 = false :=
  loops_meet_lists _ 8 9 sampleOps_valid rfl (by decide)

end Calls

end WkcRuntime.ListHead
