import Mathlib.Data.List.Nodup
import Mathlib.Logic.Function.Basic

namespace WkcRuntime.PointerCells

/-!
# Lists whose nodes know the cell that points to them

A node of such a list is found through a cell: the root of the list, or the
next field of the node before it.  The node keeps the address of that cell, so
it can be unlinked without its list.  A `Chain` is a cell and the nodes behind
it.  Unlinking a node and linking one behind a cell keep the chain, and touch
no other one.
-/

/-- A place that holds a pointer to a node. -/
inductive Cell (Root Node : Type) where
  | root (root : Root)
  | next (node : Node)
  deriving DecidableEq, Repr

/-- What every cell points to, and which cell every node was linked by. -/
structure Memory (Root Node : Type) where
  target : Cell Root Node → Option Node
  back : Node → Option (Cell Root Node)

variable {Root Node : Type}

section Operations

variable [DecidableEq Root] [DecidableEq Node]

/-- The cell of a node points past it. -/
def unlink
    (memory : Memory Root Node)
    (cell : Cell Root Node)
    (node : Node) :
    Memory Root Node :=
  let after := memory.target (.next node)
  { target := Function.update memory.target cell after
    back :=
      match after with
      | none =>
          memory.back
      | some next =>
          Function.update memory.back next (some cell) }

/-- A cell points to a new node, which points to what was behind the cell. -/
def link
    (memory : Memory Root Node)
    (cell : Cell Root Node)
    (node : Node) :
    Memory Root Node :=
  let after := memory.target cell
  { target :=
      Function.update
        (Function.update memory.target (.next node) after) cell (some node)
    back :=
      Function.update
        (match after with
        | none =>
            memory.back
        | some next =>
            Function.update memory.back next (some (.next node)))
        node (some cell) }

/-- The nodes from a pointer on, unless the fuel runs out first. -/
def walk (memory : Memory Root Node) : Nat → Option Node → Option (List Node)
  | 0, _ =>
      none
  | _ + 1, none =>
      some []
  | fuel + 1, some node =>
      (walk memory fuel (memory.target (.next node))).map (node :: ·)

end Operations

section Chains

/-- The last cell of a chain. -/
def lastCell : Cell Root Node → List Node → Cell Root Node
  | cell, [] =>
      cell
  | _, node :: rest =>
      lastCell (.next node) rest

/-- All cells of a chain. -/
def cells (cell : Cell Root Node) (nodes : List Node) : List (Cell Root Node) :=
  cell :: nodes.map .next

/-- The cells lead through the nodes, and the nodes know their cells. -/
def Segment
    (memory : Memory Root Node) :
    Cell Root Node → List Node → Prop
  | _, [] =>
      True
  | cell, node :: rest =>
      (memory.target cell = some node ∧ memory.back node = some cell) ∧
        Segment memory (.next node) rest

/-- A segment that ends with a null pointer. -/
def Chain
    (memory : Memory Root Node)
    (cell : Cell Root Node)
    (nodes : List Node) :
    Prop :=
  Segment memory cell nodes ∧ memory.target (lastCell cell nodes) = none

variable {memory memory' : Memory Root Node}
variable {cell : Cell Root Node}
variable {before after nodes : List Node}
variable {node : Node}

/-- The last cell is one of the cells. -/
theorem lastCell_mem (cell : Cell Root Node) (nodes : List Node) :
    lastCell cell nodes ∈ cells cell nodes := by
  induction nodes generalizing cell with
  | nil =>
      exact List.mem_cons_self
  | cons node rest inductionHypothesis =>
      exact List.mem_cons_of_mem _ (inductionHypothesis (.next node))

/-- The last cell of two parts is that of the second one. -/
theorem lastCell_append :
    lastCell cell (before ++ after) =
      lastCell (lastCell cell before) after := by
  induction before generalizing cell with
  | nil =>
      rfl
  | cons node rest inductionHypothesis =>
      exact inductionHypothesis

/-- A segment splits behind any of its nodes. -/
theorem Segment.append :
    Segment memory cell (before ++ after) ↔
      Segment memory cell before ∧
        Segment memory (lastCell cell before) after := by
  induction before generalizing cell with
  | nil =>
      simp only [List.nil_append, Segment, true_and, lastCell]
  | cons node rest inductionHypothesis =>
      simp only [List.cons_append, Segment, inductionHypothesis, lastCell,
        and_assoc]

/-- So does a chain. -/
theorem Chain.append :
    Chain memory cell (before ++ after) ↔
      Segment memory cell before ∧
        Chain memory (lastCell cell before) after := by
  simp only [Chain, Segment.append, lastCell_append, and_assoc]

/-- The cells of a chain are distinct if its nodes are. -/
theorem nodup_cells
    (distinct : nodes.Nodup)
    (outside : ∀ node ∈ nodes, cell ≠ .next node) :
    (cells cell nodes).Nodup := by
  refine List.nodup_cons.mpr ⟨?_, distinct.map ?_⟩
  · intro member
    obtain ⟨node, inNodes, same⟩ := List.mem_map.mp member
    exact outside node inNodes same.symm
  · intro first second same
    exact Cell.next.inj same

/-- A segment depends on its cells but the last, and on its nodes. -/
theorem Segment.congr
    (segment : Segment memory cell nodes)
    (distinct : (cells cell nodes).Nodup)
    (sameTarget :
      ∀ other ∈ cells cell nodes,
        other ≠ lastCell cell nodes →
        memory'.target other = memory.target other)
    (sameBack : ∀ other ∈ nodes, memory'.back other = memory.back other) :
    Segment memory' cell nodes := by
  induction nodes generalizing cell with
  | nil =>
      trivial
  | cons node rest inductionHypothesis =>
      obtain ⟨⟨leads, knows⟩, later⟩ := segment
      obtain ⟨first, others⟩ := List.nodup_cons.mp distinct
      have notLast : cell ≠ lastCell (.next node) rest := by
        rintro same
        exact first (same ▸ lastCell_mem (.next node) rest)
      refine ⟨⟨?_, ?_⟩, inductionHypothesis later others ?_ ?_⟩
      · exact (sameTarget cell List.mem_cons_self notLast).trans leads
      · exact (sameBack node List.mem_cons_self).trans knows
      · intro other member
        exact sameTarget other (List.mem_cons_of_mem _ member)
      · intro other member
        exact sameBack other (List.mem_cons_of_mem _ member)

/-- A chain depends on its cells and its nodes. -/
theorem Chain.congr
    (chain : Chain memory cell nodes)
    (distinct : (cells cell nodes).Nodup)
    (sameTarget :
      ∀ other ∈ cells cell nodes,
        memory'.target other = memory.target other)
    (sameBack : ∀ other ∈ nodes, memory'.back other = memory.back other) :
    Chain memory' cell nodes :=
  ⟨chain.1.congr distinct (fun other member _ => sameTarget other member)
      sameBack,
    (sameTarget _ (lastCell_mem cell nodes)).trans chain.2⟩

/-- A node in a chain knows the cell that leads to it. -/
theorem Chain.back_eq
    (chain : Chain memory cell (before ++ node :: after)) :
    memory.back node = some (lastCell cell before) :=
  (Chain.append.mp chain).2.1.1.2

/-- That cell leads to it. -/
theorem Chain.target_eq
    (chain : Chain memory cell (before ++ node :: after)) :
    memory.target (lastCell cell before) = some node :=
  (Chain.append.mp chain).2.1.1.1

/-- The first cell of a chain points to its first node. -/
theorem Chain.head_eq (chain : Chain memory cell nodes) :
    memory.target cell = nodes.head? := by
  cases nodes with
  | nil =>
      exact chain.2
  | cons node rest =>
      exact chain.1.1.1

/-- A walk meets the nodes of a chain. -/
theorem Chain.walk_eq
    {fuel : Nat}
    (chain : Chain memory cell nodes)
    (enough : nodes.length < fuel) :
    walk memory fuel (memory.target cell) = some nodes := by
  induction nodes generalizing cell fuel with
  | nil =>
      obtain ⟨more, rfl⟩ := Nat.exists_eq_add_one.mpr enough
      rw [chain.head_eq]
      rfl
  | cons node rest inductionHypothesis =>
      obtain ⟨more, rfl⟩ :=
        Nat.exists_eq_add_one.mpr (Nat.zero_lt_of_lt enough)
      obtain ⟨⟨⟨leads, _⟩, later⟩, ends⟩ := chain
      have met :=
        @inductionHypothesis (.next node) more ⟨later, ends⟩
          (Nat.lt_of_succ_lt_succ enough)
      rw [leads, walk, met]
      rfl

end Chains

section Steps

variable [DecidableEq Root] [DecidableEq Node]
variable {memory : Memory Root Node}
variable {cell : Cell Root Node}
variable {before after : List Node}
variable {node : Node}

/-- Unlinking touches one cell and the node behind. -/
theorem unlink_frame
    {others : List (Cell Root Node)}
    {nodes : List Node}
    (cellNot : cell ∉ others)
    (afterNot : ∀ next ∈ memory.target (.next node), next ∉ nodes) :
    (∀ other ∈ others,
      (unlink memory cell node).target other = memory.target other) ∧
      ∀ other ∈ nodes,
        (unlink memory cell node).back other = memory.back other := by
  refine ⟨?_, ?_⟩
  · intro other member
    exact Function.update_of_ne (ne_of_mem_of_not_mem member cellNot) ..
  · intro other member
    simp only [unlink]
    cases behind : memory.target (.next node) with
    | none =>
        rfl
    | some next =>
        exact Function.update_of_ne
          (ne_of_mem_of_not_mem member (afterNot next behind)) ..

/-- Linking touches two cells, the new node and the one behind. -/
theorem link_frame
    {others : List (Cell Root Node)}
    {nodes : List Node}
    (cellNot : cell ∉ others)
    (nextNot : .next node ∉ others)
    (nodeNot : node ∉ nodes)
    (afterNot : ∀ next ∈ memory.target cell, next ∉ nodes) :
    (∀ other ∈ others,
      (link memory cell node).target other = memory.target other) ∧
      ∀ other ∈ nodes,
        (link memory cell node).back other = memory.back other := by
  refine ⟨?_, ?_⟩
  · intro other member
    simp only [link]
    rw [Function.update_of_ne (ne_of_mem_of_not_mem member cellNot),
      Function.update_of_ne (ne_of_mem_of_not_mem member nextNot)]
  · intro other member
    simp only [link]
    rw [Function.update_of_ne (ne_of_mem_of_not_mem member nodeNot)]
    cases behind : memory.target cell with
    | none =>
        rfl
    | some next =>
        exact Function.update_of_ne
          (ne_of_mem_of_not_mem member (afterNot next behind)) ..

/-- Unlinking a node touches no other node but the one behind. -/
theorem unlink_back_of_ne
    {other : Node}
    (notAfter : memory.target (.next node) ≠ some other) :
    (unlink memory cell node).back other = memory.back other := by
  refine (@unlink_frame _ _ _ _ memory cell node [] [other] (by simp)
    ?_).2 other List.mem_cons_self
  intro next leads member
  rw [List.mem_singleton.mp member] at leads
  exact notAfter leads

/-- Linking a node touches no other node but the one behind. -/
theorem link_back_of_ne
    {other : Node}
    (different : other ≠ node)
    (notAfter : memory.target cell ≠ some other) :
    (link memory cell node).back other = memory.back other := by
  refine (@link_frame _ _ _ _ memory cell node [] [other] (by simp)
    (by simp) ?_ ?_).2 other List.mem_cons_self
  · intro member
    exact different (List.mem_singleton.mp member).symm
  · intro next leads member
    rw [List.mem_singleton.mp member] at leads
    exact notAfter leads

omit [DecidableEq Root] [DecidableEq Node] in
/-- The cells of the two parts of a chain. -/
theorem cells_append :
    cells cell (before ++ after) =
      cells cell before ++ after.map .next := by
  simp only [cells, List.map_append, List.cons_append]

omit [DecidableEq Root] [DecidableEq Node] in
/-- Nodes with distinct next fields are distinct. -/
theorem nodup_of_cells
    {nodes : List Node}
    (distinct : (cells cell nodes).Nodup) :
    nodes.Nodup :=
  List.Nodup.of_map _ (List.nodup_cons.mp distinct).2

/-- Unlinking a node takes it out of its chain. -/
theorem Chain.unlink
    (chain : Chain memory cell (before ++ node :: after))
    (distinct : (cells cell (before ++ node :: after)).Nodup) :
    Chain (unlink memory (lastCell cell before) node) cell
      (before ++ after) := by
  obtain ⟨front, ⟨⟨leads, knows⟩, later⟩, ends⟩ := Chain.append.mp chain
  have behind : Chain memory (.next node) after := ⟨later, ends⟩
  have distinctNodes := nodup_of_cells distinct
  rw [cells_append] at distinct
  have distinctFront := distinct.of_append_left
  have lastMember := lastCell_mem cell before
  have lastNot : lastCell cell before ∉ (node :: after).map .next :=
    fun member =>
      List.disjoint_of_nodup_append distinct lastMember member
  have firstTarget := behind.head_eq
  refine Chain.append.mpr ⟨?_, ?_⟩
  · apply front.congr distinctFront
    · intro other _ notLast
      exact Function.update_of_ne notLast ..
    · refine (@unlink_frame _ _ _ _ memory _ node [] before (by simp) ?_).2
      intro next isNext inBefore
      rw [firstTarget, Option.mem_def, List.head?_eq_some_iff] at isNext
      obtain ⟨rest, rfl⟩ := isNext
      exact List.disjoint_of_nodup_append distinctNodes inBefore
        (by simp)
  · cases after with
    | nil =>
        refine ⟨trivial, ?_⟩
        exact (Function.update_self ..).trans firstTarget
    | cons next rest =>
        obtain ⟨⟨_, nextKnows⟩, nextLater⟩ := later
        have isNext : memory.target (.next node) = some next := firstTarget
        have distinctRest :
            (next :: rest).Nodup :=
          (List.nodup_cons.mp distinctNodes.of_append_right).2
        have moved :
            Chain (PointerCells.unlink memory (lastCell cell before) node)
              (.next next) rest := by
          have tail : Chain memory (.next next) rest := ⟨nextLater, ends⟩
          have frame :=
            @unlink_frame _ _ _ _ memory (lastCell cell before) node
              (cells (.next next) rest) rest
              (fun member => lastNot (List.mem_cons_of_mem _ member))
              (by
                intro other isOther
                rw [isNext, Option.mem_def, Option.some.injEq] at isOther
                rw [← isOther]
                exact (List.nodup_cons.mp distinctRest).1)
          apply tail.congr ?_ frame.1 frame.2
          exact (List.nodup_cons.mp distinct.of_append_right).2
        refine ⟨⟨⟨?_, ?_⟩, moved.1⟩, moved.2⟩
        · exact (Function.update_self ..).trans isNext
        · simp only [PointerCells.unlink, isNext]
          exact Function.update_self ..

/-- Linking a node puts it into the chain. -/
theorem Chain.link
    (chain : Chain memory cell (before ++ after))
    (distinct : (cells cell (before ++ after)).Nodup)
    (fresh : node ∉ before ++ after)
    (notOwn : cell ≠ .next node) :
    Chain (link memory (lastCell cell before) node) cell
      (before ++ node :: after) := by
  obtain ⟨front, behind⟩ := Chain.append.mp chain
  have distinctNodes := nodup_of_cells distinct
  have nextNot : ∀ {nodes : List Node},
      node ∉ nodes → .next node ∉ cells cell nodes := by
    intro nodes notIn member
    obtain same | inNodes := List.mem_cons.mp member
    · exact notOwn same.symm
    · obtain ⟨other, inNodes, same⟩ := List.mem_map.mp inNodes
      exact notIn (Cell.next.inj same ▸ inNodes)
  have freshFront : node ∉ before := fun member =>
    fresh (List.mem_append_left _ member)
  have freshBehind : node ∉ after := fun member =>
    fresh (List.mem_append_right _ member)
  rw [cells_append] at distinct
  have lastMember := lastCell_mem cell before
  have lastNot : lastCell cell before ∉ after.map .next :=
    fun member =>
      List.disjoint_of_nodup_append distinct lastMember member
  have notNew : Cell.next node ≠ lastCell cell before := by
    intro same
    exact nextNot freshFront (same ▸ lastMember)
  have firstTarget := behind.head_eq
  have ownTarget :
      (PointerCells.link memory (lastCell cell before) node).target
          (.next node) =
        after.head? := by
    simp only [PointerCells.link]
    rw [Function.update_of_ne notNew, Function.update_self]
    exact firstTarget
  have moved :
      Chain (PointerCells.link memory (lastCell cell before) node)
        (.next node) after := by
    cases after with
    | nil =>
        exact ⟨trivial, ownTarget⟩
    | cons next rest =>
        obtain ⟨⟨_, later⟩, ends⟩ := behind
        have isNext : memory.target (lastCell cell before) = some next :=
          firstTarget
        have different : next ≠ node := by
          rintro rfl
          exact freshBehind List.mem_cons_self
        have distinctRest : (next :: rest).Nodup :=
          distinctNodes.of_append_right
        have frame :=
          @link_frame _ _ _ _ memory (lastCell cell before) node
            (cells (.next next) rest) rest lastNot
            (by
              intro member
              have inCells : Cell.next node ∈ (next :: rest).map .next :=
                member
              obtain ⟨other, inNodes, same⟩ := List.mem_map.mp inCells
              exact freshBehind (Cell.next.inj same ▸ inNodes))
            (fun member => freshBehind (List.mem_cons_of_mem _ member))
            (by
              intro other isOther
              rw [isNext, Option.mem_def, Option.some.injEq] at isOther
              rw [← isOther]
              exact (List.nodup_cons.mp distinctRest).1)
        have tail : Chain memory (.next next) rest := ⟨later, ends⟩
        have movedTail :=
          tail.congr distinct.of_append_right frame.1 frame.2
        refine ⟨⟨⟨ownTarget, ?_⟩, movedTail.1⟩, movedTail.2⟩
        simp only [PointerCells.link, isNext]
        rw [Function.update_of_ne different, Function.update_self]
  refine Chain.append.mpr ⟨?_, ⟨⟨?_, ?_⟩, moved.1⟩, moved.2⟩
  · apply front.congr distinct.of_append_left
    · intro other member notLast
      simp only [PointerCells.link]
      rw [Function.update_of_ne notLast, Function.update_of_ne]
      rintro rfl
      exact nextNot freshFront member
    · refine (@link_frame _ _ _ _ memory (lastCell cell before) node []
        before (by simp) (by simp) freshFront ?_).2
      intro next isNext inBefore
      rw [firstTarget, Option.mem_def, List.head?_eq_some_iff] at isNext
      obtain ⟨rest, rfl⟩ := isNext
      exact List.disjoint_of_nodup_append distinctNodes inBefore (by simp)
  · exact Function.update_self ..
  · exact Function.update_self ..

end Steps

section Tables

/-- The list behind each root. -/
abbrev Lists (Root Node : Type) :=
  Root → Option (List Node)

/-- The node is in one of the lists. -/
def Lists.Linked (lists : Lists Root Node) (node : Node) : Prop :=
  ∃ root nodes, lists root = some nodes ∧ node ∈ nodes

/-- Every root leads through its list, and no node is in two lists. -/
structure Represents
    (memory : Memory Root Node)
    (lists : Lists Root Node) :
    Prop where
  chains :
    ∀ {root nodes},
      lists root = some nodes →
      Chain memory (.root root) nodes
  nodup :
    ∀ {root nodes},
      lists root = some nodes →
      nodes.Nodup
  apart :
    ∀ {root other nodes nodes' node},
      lists root = some nodes →
      lists other = some nodes' →
      node ∈ nodes →
      node ∈ nodes' →
      root = other

variable {memory memory' : Memory Root Node}
variable {lists lists' : Lists Root Node}
variable {root : Root}
variable {before after : List Node}
variable {node : Node}

/-- Without lists there is nothing to represent. -/
theorem represents_none (memory : Memory Root Node) :
    Represents memory (fun _ => none) where
  chains := by
    rintro root nodes ⟨⟩
  nodup := by
    rintro root nodes ⟨⟩
  apart := by
    rintro root other nodes nodes' node ⟨⟩

/-- A memory that agrees on the cells and nodes of all lists keeps them. -/
theorem Represents.congr
    (represents : Represents memory lists)
    (frame :
      ∀ {root nodes},
        lists root = some nodes →
        (∀ cell ∈ cells (.root root) nodes,
          memory'.target cell = memory.target cell) ∧
          ∀ node ∈ nodes, memory'.back node = memory.back node) :
    Represents memory' lists where
  chains := by
    intro root nodes found
    obtain ⟨sameTarget, sameBack⟩ := frame found
    exact (represents.chains found).congr
      (PointerCells.nodup_cells (represents.nodup found) (by rintro node _ ⟨⟩))
      sameTarget sameBack
  nodup := represents.nodup
  apart := represents.apart

/-- The cells of a list are distinct. -/
theorem Represents.nodup_cells
    (represents : Represents memory lists)
    {nodes : List Node}
    (found : lists root = some nodes) :
    (cells (.root root) nodes).Nodup :=
  PointerCells.nodup_cells (represents.nodup found)
    (by rintro node _ ⟨⟩)

/-- The cells of two lists are distinct. -/
theorem Represents.cells_apart
    (represents : Represents memory lists)
    {other : Root}
    {nodes nodes' : List Node}
    (found : lists root = some nodes)
    (found' : lists other = some nodes')
    (different : root ≠ other)
    {cell : Cell Root Node}
    (member : cell ∈ cells (.root root) nodes) :
    cell ∉ cells (.root other) nodes' := by
  intro member'
  obtain isRoot | inNodes := List.mem_cons.mp member
  · obtain isOther | inNodes' := List.mem_cons.mp member'
    · exact different (Cell.root.inj (isRoot.symm.trans isOther))
    · obtain ⟨node, _, same⟩ := List.mem_map.mp inNodes'
      rw [isRoot] at same
      cases same
  · obtain ⟨node, isIn, rfl⟩ := List.mem_map.mp inNodes
    obtain isOther | inNodes' := List.mem_cons.mp member'
    · cases isOther
    · obtain ⟨node', isIn', same⟩ := List.mem_map.mp inNodes'
      cases same
      exact different (represents.apart found found' isIn isIn')

/-- The node behind a cell of a list is in that list. -/
theorem Represents.behind_mem
    (represents : Represents memory lists)
    (found : lists root = some (before ++ after))
    {next : Node}
    (leads : memory.target (lastCell (.root root) before) = some next) :
    next ∈ after := by
  have behind := (Chain.append.mp (represents.chains found)).2
  rw [behind.head_eq, List.head?_eq_some_iff] at leads
  obtain ⟨rest, rfl⟩ := leads
  exact List.mem_cons_self

/--
A step on one list keeps the lists, if it keeps that one in line and what
other lists depend on.
-/
theorem Represents.update
    [DecidableEq Root]
    (represents : Represents memory lists)
    {nodes' : List Node}
    (chain : Chain memory' (.root root) nodes')
    (distinct : nodes'.Nodup)
    (origin :
      ∀ node ∈ nodes',
        (∃ nodes, lists root = some nodes ∧ node ∈ nodes) ∨
          ¬ lists.Linked node)
    (frame :
      ∀ {other others},
        other ≠ root →
        lists other = some others →
        (∀ cell ∈ cells (.root other) others,
          memory'.target cell = memory.target cell) ∧
          ∀ node ∈ others, memory'.back node = memory.back node) :
    Represents memory' (Function.update lists root (some nodes')) where
  chains := by
    intro other others foundOther
    by_cases same : other = root
    · rw [same, Function.update_self, Option.some.injEq] at foundOther
      rw [same, ← foundOther]
      exact chain
    · rw [Function.update_of_ne same] at foundOther
      obtain ⟨sameTarget, sameBack⟩ := frame same foundOther
      exact (represents.chains foundOther).congr
        (represents.nodup_cells foundOther) sameTarget sameBack
  nodup := by
    intro other others foundOther
    by_cases same : other = root
    · rw [same, Function.update_self, Option.some.injEq] at foundOther
      rw [← foundOther]
      exact distinct
    · rw [Function.update_of_ne same] at foundOther
      exact represents.nodup foundOther
  apart := by
    have apart :
        ∀ {other others node},
          other ≠ root →
          lists other = some others →
          node ∈ others →
          node ∉ nodes' := by
      intro other others node different foundOther member member'
      obtain ⟨nodes, found, inNodes⟩ | loose := origin node member'
      · exact different (represents.apart foundOther found member inNodes)
      · exact loose ⟨other, others, foundOther, member⟩
    intro first second firstNodes secondNodes node foundFirst foundSecond
      inFirst inSecond
    by_cases isFirst : first = root
    · rw [isFirst, Function.update_self, Option.some.injEq] at foundFirst
      by_cases isSecond : second = root
      · rw [isFirst, isSecond]
      · rw [Function.update_of_ne isSecond] at foundSecond
        exact absurd (foundFirst ▸ inFirst)
          (apart isSecond foundSecond inSecond)
    · rw [Function.update_of_ne isFirst] at foundFirst
      by_cases isSecond : second = root
      · rw [isSecond, Function.update_self, Option.some.injEq]
          at foundSecond
        exact absurd (foundSecond ▸ inSecond)
          (apart isFirst foundFirst inFirst)
      · rw [Function.update_of_ne isSecond] at foundSecond
        exact represents.apart foundFirst foundSecond inFirst inSecond

variable [DecidableEq Root] [DecidableEq Node]

/-- Unlinking a listed node. -/
theorem Represents.unlink
    (represents : Represents memory lists)
    (found : lists root = some (before ++ node :: after)) :
    Represents (unlink memory (lastCell (.root root) before) node)
      (Function.update lists root (some (before ++ after))) := by
  have chain := represents.chains found
  have distinct := represents.nodup found
  have own : (before ++ [node]) ++ after = before ++ node :: after := by
    simp
  have ownFound : lists root = some ((before ++ [node]) ++ after) := by
    rw [own]
    exact found
  have ownCell :
      lastCell (.root root) (before ++ [node]) = Cell.next node := by
    rw [lastCell_append]
    rfl
  refine represents.update
    (chain.unlink (represents.nodup_cells found)) ?_ ?_ ?_
  · exact distinct.sublist
      (List.Sublist.append_left (List.sublist_cons_self node after) before)
  · intro other member
    refine .inl ⟨_, found, ?_⟩
    simp only [List.mem_append, List.mem_cons] at member ⊢
    exact member.imp_right .inr
  · intro other others different foundOther
    apply unlink_frame
    · refine represents.cells_apart found foundOther different.symm ?_
      rw [cells_append]
      exact List.mem_append_left _ (lastCell_mem _ _)
    · intro next leads member
      rw [← ownCell] at leads
      have inAfter := represents.behind_mem ownFound leads
      refine different (represents.apart foundOther found member ?_)
      exact List.mem_append_right _ (List.mem_cons_of_mem _ inAfter)

/-- Linking a node that is in no list. -/
theorem Represents.link
    (represents : Represents memory lists)
    (found : lists root = some (before ++ after))
    (loose : ¬ lists.Linked node) :
    Represents (link memory (lastCell (.root root) before) node)
      (Function.update lists root (some (before ++ node :: after))) := by
  have chain := represents.chains found
  have distinct := represents.nodup found
  have fresh : node ∉ before ++ after := fun member =>
    loose ⟨root, _, found, member⟩
  refine represents.update
    (chain.link (represents.nodup_cells found) fresh (by rintro ⟨⟩)) ?_
    ?_ ?_
  · exact (List.perm_middle.nodup_iff).mpr
      (List.nodup_cons.mpr ⟨fresh, distinct⟩)
  · intro other member
    by_cases same : other = node
    · rw [same]
      exact .inr loose
    · refine .inl ⟨_, found, ?_⟩
      simp only [List.mem_append, List.mem_cons, same, false_or]
        at member ⊢
      exact member
  · intro other others different foundOther
    apply link_frame
    · refine represents.cells_apart found foundOther different.symm ?_
      rw [cells_append]
      exact List.mem_append_left _ (lastCell_mem _ _)
    · intro member
      obtain isRoot | inNodes := List.mem_cons.mp member
      · cases isRoot
      · obtain ⟨listed, inOthers, same⟩ := List.mem_map.mp inNodes
        cases same
        exact loose ⟨other, others, foundOther, inOthers⟩
    · intro member
      exact loose ⟨other, others, foundOther, member⟩
    · intro next leads member
      have inAfter := represents.behind_mem found leads
      exact different (represents.apart foundOther found member
        (List.mem_append_right _ inAfter))

/-- What a node that is in no list holds does not matter. -/
theorem Represents.overwrite
    (represents : Represents memory lists)
    (loose : ¬ lists.Linked node)
    (target : Option Node)
    (back : Option (Cell Root Node)) :
    Represents
      { target := Function.update memory.target (.next node) target
        back := Function.update memory.back node back }
      lists := by
  apply represents.congr
  intro root nodes found
  have notIn : node ∉ nodes := fun member =>
    loose ⟨root, nodes, found, member⟩
  refine ⟨?_, ?_⟩
  · intro cell member
    apply Function.update_of_ne
    rintro rfl
    obtain isRoot | inNodes := List.mem_cons.mp member
    · cases isRoot
    · obtain ⟨other, inList, same⟩ := List.mem_map.mp inNodes
      exact notIn (Cell.next.inj same ▸ inList)
  · intro other member
    exact Function.update_of_ne (ne_of_mem_of_not_mem member notIn) ..

/-- An empty list behind a root that has no nodes. -/
theorem Represents.clear
    (represents : Represents memory lists)
    (root : Root) :
    Represents
      { memory with target := Function.update memory.target (.root root) none }
      (Function.update lists root (some [])) := by
  refine represents.update ⟨trivial, Function.update_self ..⟩
    List.nodup_nil (by simp) ?_
  intro other others different _
  refine ⟨?_, fun _ _ => rfl⟩
  intro cell member
  apply Function.update_of_ne
  rintro rfl
  obtain isRoot | inNodes := List.mem_cons.mp member
  · exact different (Cell.root.inj isRoot).symm
  · obtain ⟨node, _, same⟩ := List.mem_map.mp inNodes
    cases same

omit [DecidableEq Root] [DecidableEq Node] in
/-- A listed node has a cell. -/
theorem Represents.back_ne_none
    (represents : Represents memory lists)
    (linked : lists.Linked node) :
    memory.back node ≠ none := by
  obtain ⟨root, nodes, found, member⟩ := linked
  obtain ⟨before, after, rfl⟩ := List.append_of_mem member
  rw [(represents.chains found).back_eq]
  rintro ⟨⟩

omit [DecidableEq Node] in
/-- An edit of the one list that has a node, written for all lists. -/
theorem Represents.map_eq_update
    (represents : Represents memory lists)
    {nodes : List Node}
    (found : lists root = some nodes)
    (member : node ∈ nodes)
    {edit : List Node → List Node}
    (unchanged : ∀ {others}, node ∉ others → edit others = others) :
    (fun other => (lists other).map edit) =
      Function.update lists root (some (edit nodes)) := by
  funext other
  by_cases same : other = root
  · rw [same, Function.update_self, found]
    rfl
  · rw [Function.update_of_ne same]
    cases foundOther : lists other with
    | none =>
        rfl
    | some others =>
        have notIn : node ∉ others := fun member' =>
          same (represents.apart foundOther found member' member)
        rw [Option.map_some, unchanged notIn]

end Tables

end WkcRuntime.PointerCells
