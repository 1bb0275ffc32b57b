import Mathlib.Data.List.Chain
import WkcRuntime.CircularList

namespace WkcRuntime.CircularList

/-!
# Rings read backwards, turned and joined

Reading the links backwards reverses a ring, so every fact about successors is
one about predecessors.  A ring may be entered at any of its nodes.  Links that
agree on a ring keep it, and a ring that is cut open at its head can be led from
any node to any other one.
-/

variable {Node : Type}
variable {links links' : Links Node}
variable {first last head node : Node}
variable {nodes before after : List Node}

/-- The same links read backwards. -/
def Links.swap (links : Links Node) : Links Node where
  next := links.prev
  prev := links.next

/-- The links of these nodes are the same. -/
def Agree
    (links links' : Links Node)
    (nodes : List Node) :
    Prop :=
  ∀ node ∈ nodes,
    links'.next node = links.next node ∧
      links'.prev node = links.prev node

/-- A path is a chain of neighbours. -/
theorem Path.iff_isChain :
    Path links first nodes last ↔
      List.IsChain (Neighbours links) (first :: (nodes ++ [last])) := by
  induction nodes generalizing first with
  | nil =>
      simp [Path]
  | cons node rest inductionHypothesis =>
      rw [Path, inductionHypothesis, List.cons_append,
        List.isChain_cons_cons]

/-- Backwards a path goes from its end to its start. -/
theorem Path.swap :
    Path links.swap first nodes last ↔
      Path links last nodes.reverse first := by
  have backwards :
      last :: (nodes.reverse ++ [first]) =
        (first :: (nodes ++ [last])).reverse := by
    simp
  rw [Path.iff_isChain, Path.iff_isChain, backwards, List.isChain_reverse]
  have flipped :
      Neighbours links.swap =
        fun (one other : Node) => Neighbours links other one := by
    funext one other
    exact propext and_comm
  rw [flipped]

/-- A path that is cut loose at both ends and led to other nodes. -/
theorem Path.bridge
    {old start stop : Node}
    (path : Path links old nodes old)
    (nonempty : nodes ≠ [])
    (distinct : nodes.Nodup)
    (nextStart : links'.next start = links.next old)
    (prevFirst : links'.prev (links.next old) = start)
    (nextLast : links'.next (links.prev old) = stop)
    (prevStop : links'.prev stop = links.prev old)
    (sameNext :
      ∀ node ∈ nodes, node ≠ links.prev old →
        links'.next node = links.next node)
    (samePrev :
      ∀ node ∈ nodes, node ≠ links.next old →
        links'.prev node = links.prev node) :
    Path links' start nodes stop := by
  obtain ⟨firstNode, rest, rfl⟩ := List.exists_cons_of_ne_nil nonempty
  have nextOld : links.next old = firstNode := path.1.1
  rw [nextOld] at nextStart prevFirst samePrev
  refine ⟨⟨nextStart, prevFirst⟩, ?_⟩
  obtain rfl | ⟨middle, lastNode, rfl⟩ := List.eq_nil_or_concat' rest
  · have prevOld : links.prev old = firstNode := path.2.2
    rw [prevOld] at nextLast prevStop
    exact ⟨nextLast, prevStop⟩
  · obtain ⟨toLast, fromLast⟩ := Path.append.mp path.2
    have prevOld : links.prev old = lastNode := fromLast.2
    rw [prevOld] at nextLast prevStop sameNext
    obtain ⟨firstNot, restDistinct⟩ := List.nodup_cons.mp distinct
    have lastNot : lastNode ∉ firstNode :: middle := by
      have apart := List.disjoint_of_nodup_append restDistinct
      intro member
      obtain rfl | inMiddle := List.mem_cons.mp member
      · exact firstNot (by simp)
      · exact apart inMiddle (by simp)
    refine Path.append.mpr ⟨toLast.congr ?_ ?_, nextLast, prevStop⟩
    · intro node member
      refine sameNext node ?_ (ne_of_mem_of_not_mem member lastNot)
      simp only [List.mem_cons, List.mem_append] at member ⊢
      exact member.imp_right .inl
    · intro node member
      refine samePrev node (List.mem_cons_of_mem _ member) ?_
      exact ne_of_mem_of_not_mem member firstNot

namespace Ring

/-- Backwards a ring has its nodes in reverse. -/
theorem swap :
    Ring links.swap head nodes ↔ Ring links head nodes.reverse := by
  constructor
  · intro ring
    exact ⟨Path.swap.mp ring.path, by simpa using ring.nodup⟩
  · intro ring
    exact ⟨Path.swap.mpr ring.path, by simpa using ring.nodup⟩

/-- A ring is a ring from each of its nodes. -/
theorem rotate
    (ring : Ring links head (before ++ node :: after)) :
    Ring links node (after ++ head :: before) := by
  obtain ⟨toNode, fromNode⟩ := Path.append.mp ring.path
  refine ⟨Path.append.mpr ⟨fromNode, toNode⟩, ?_⟩
  refine List.Perm.nodup ?_ ring.nodup
  have turned :
      (node :: (after ++ head :: before)).Perm
        ((head :: before) ++ node :: after) :=
    @List.perm_append_comm _ (node :: after) (head :: before)
  exact turned.symm

/-- Links that agree on a ring keep it. -/
theorem frame
    (ring : Ring links head nodes)
    (agree : Agree links links' (head :: nodes)) :
    Ring links' head nodes := by
  refine ⟨ring.path.congr ?_ ?_, ring.nodup⟩
  · intro node member
    exact (agree node member).1
  · intro node member
    refine (agree node ?_).2
    simp only [List.mem_append, List.mem_singleton] at member
    exact List.mem_cons.mpr member.symm

/-- The node behind the head lies in the ring. -/
theorem next_mem
    (ring : Ring links head nodes) :
    links.next head ∈ head :: nodes := by
  have member := ring.path.next_mem
  simp only [List.mem_append, List.mem_singleton] at member
  exact List.mem_cons.mpr member.symm

/-- The node in front of the head lies in the ring. -/
theorem prev_mem
    (ring : Ring links head nodes) :
    links.prev head ∈ head :: nodes :=
  ring.path.prev_mem

/-- A ring has no nodes exactly when its head follows itself. -/
theorem next_eq_head
    (ring : Ring links head nodes) :
    links.next head = head ↔ nodes = [] := by
  cases nodes with
  | nil =>
      exact ⟨fun _ => rfl, fun _ => ring.path.1⟩
  | cons node rest =>
      have nextHead : links.next head = node := ring.path.1.1
      have headNot := (List.nodup_cons.mp ring.nodup).1
      rw [nextHead]
      refine ⟨?_, by simp⟩
      rintro rfl
      exact absurd List.mem_cons_self headNot

/-- The same for the node in front of the head. -/
theorem prev_eq_head
    (ring : Ring links head nodes) :
    links.prev head = head ↔ nodes = [] := by
  have backwards : Ring links.swap head nodes.reverse :=
    swap.mpr (by rw [List.reverse_reverse]; exact ring)
  exact backwards.next_eq_head.trans (by simp)

end Ring

end WkcRuntime.CircularList
