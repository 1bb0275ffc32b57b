import WkcRuntime.ListHead

namespace WkcRuntime.ListHead

open CircularList

/-!
# Loops that take their list apart

`list_for_each_safe` reads the next node before its body runs, so the body may
delete the node that it is given or move it to another list.  The loop still
meets every node once, and only a body that moves nodes to the end of the list
that the loop is in could keep it going.
-/

variable {Node : Type}

section SafeLoop

variable [DecidableEq Node]

/-- What the body of a loop does with the node that it is given. -/
inductive Act (Node : Type) where
  | keep
  | del
  | delInit
  | move (head : Node)
  | moveTail (head : Node)
  deriving DecidableEq

/-- The call that the body makes, if any. -/
def Act.op
    (node : Node) :
    Act Node → Option (Op Node)
  | .keep =>
      none
  | .del =>
      some (.del node)
  | .delInit =>
      some (.delInit node)
  | .move head =>
      some (.move node head)
  | .moveTail head =>
      some (.moveTail node head)

/-- The body in the code. -/
def bodyCode
    (poison1 poison2 : Node)
    (act : Node → Act Node)
    (links : Links Node)
    (node : Node) :
    Links Node :=
  match (act node).op node with
  | none =>
      links
  | some op =>
      callCode poison1 poison2 links op

/-- The body on the lists. -/
def bodyLists
    (act : Node → Act Node)
    (lists : Lists Node)
    (node : Node) :
    Lists Node :=
  match (act node).op node with
  | none =>
      lists
  | some op =>
      callLists lists op

/--
A body may move its node to any list, but not to the end of the list that the
loop is in.
-/
def Act.Valid
    (lists : Lists Node)
    (head : Node) :
    Act Node → Prop
  | .move target =>
      lists.IsHead target
  | .moveTail target =>
      lists.IsHead target ∧ target ≠ head
  | _ =>
      True

variable {links : Links Node}
variable {lists : Lists Node}
variable {poison1 poison2 head : Node}
variable {act : Node → Act Node}

/-- Taking a node out of a list that has it once. -/
theorem remove_front
    {pos : Node}
    {front rest : List Node}
    (found : lists head = some (front ++ pos :: rest))
    (nodup : (front ++ pos :: rest).Nodup) :
    lists.remove pos head = some (front ++ rest) := by
  have posNot : pos ∉ front := fun member =>
    List.disjoint_of_nodup_append nodup member List.mem_cons_self
  rw [Lists.remove, found, Option.map_some,
    List.erase_append_right _ posNot, List.erase_cons_head]

/-- The nodes behind the one that a body is given stay where they are. -/
theorem bodyLists_front
    {pos : Node}
    {front rest : List Node}
    (represents : Represents links lists)
    (found : lists head = some (front ++ pos :: rest))
    (valid : (act pos).Valid lists head) :
    ∃ front', bodyLists act lists pos head = some (front' ++ rest) := by
  have ring := represents.rings found
  obtain ⟨headNot, nodup⟩ := List.nodup_cons.mp ring.nodup
  have removed := remove_front found nodup
  have posHead : head ≠ pos := by
    rintro rfl
    exact headNot (by simp)
  rw [bodyLists]
  cases chosen : act pos with
  | keep =>
      exact ⟨front ++ [pos], by simp [Act.op, found]⟩
  | del =>
      exact ⟨front, removed⟩
  | delInit =>
      refine ⟨front, ?_⟩
      simp only [Act.op, callLists]
      rw [Function.update_of_ne posHead]
      exact removed
  | move target =>
      simp only [Act.op, callLists, Lists.insert]
      by_cases same : head = target
      · refine ⟨pos :: front, ?_⟩
        rw [← same, Function.update_self, removed]
        rfl
      · refine ⟨front, ?_⟩
        rw [Function.update_of_ne same]
        exact removed
  | moveTail target =>
      rw [chosen] at valid
      refine ⟨front, ?_⟩
      simp only [Act.op, callLists, Lists.insert]
      rw [Function.update_of_ne (Ne.symm valid.2)]
      exact removed

/-- A body keeps the links in line with the lists. -/
theorem Represents.body
    {pos : Node}
    (represents : Represents links lists)
    (linked : lists.Linked pos)
    (valid : (act pos).Valid lists head) :
    Represents (bodyCode poison1 poison2 act links pos)
      (bodyLists act lists pos) := by
  rw [bodyCode, bodyLists]
  cases chosen : act pos with
  | keep =>
      exact represents
  | del =>
      exact @Represents.call _ _ _ _ _ _ represents (.del pos) linked
  | delInit =>
      exact @Represents.call _ _ _ _ _ _ represents (.delInit pos) linked
  | move target =>
      rw [chosen] at valid
      exact @Represents.call _ _ _ _ _ _ represents (.move pos target)
        ⟨valid, linked⟩
  | moveTail target =>
      rw [chosen] at valid
      exact @Represents.call _ _ _ _ _ _ represents (.moveTail pos target)
        ⟨valid.1, linked⟩

/-- No body takes a head away. -/
theorem isHead_body
    {pos target : Node}
    (represents : Represents links lists)
    (linked : lists.Linked pos)
    (isHead : lists.IsHead target) :
    (bodyLists act lists pos).IsHead target := by
  have removed := (represents.readd isHead linked).1
  rw [bodyLists]
  cases act pos with
  | keep =>
      exact isHead
  | del =>
      exact removed
  | delInit =>
      simp only [Act.op, callLists, Lists.IsHead, Function.update_apply]
      split
      · exact ⟨[], rfl⟩
      · exact removed
  | move other =>
      obtain ⟨nodes, found⟩ := removed
      simp only [Act.op, callLists, Lists.insert, Lists.IsHead,
        Function.update_apply]
      split
      · next same =>
          exact ⟨pos :: nodes, by rw [← same, found]; rfl⟩
      · exact ⟨nodes, found⟩
  | moveTail other =>
      obtain ⟨nodes, found⟩ := removed
      simp only [Act.op, callLists, Lists.insert, Lists.IsHead,
        Function.update_apply]
      split
      · next same =>
          exact ⟨nodes ++ [pos], by rw [← same, found]; rfl⟩
      · exact ⟨nodes, found⟩

/-- Acts that are allowed stay allowed. -/
theorem valid_body
    {pos : Node}
    {other : Act Node}
    (represents : Represents links lists)
    (linked : lists.Linked pos)
    (valid : other.Valid lists head) :
    other.Valid (bodyLists act lists pos) head := by
  cases other with
  | move target =>
      exact isHead_body represents linked valid
  | moveTail target =>
      exact ⟨isHead_body represents linked valid.1, valid.2⟩
  | _ =>
      trivial

omit [DecidableEq Node] in
/-- The node behind a node of a ring. -/
theorem next_of_ring
    {pos : Node}
    {front rest : List Node}
    (ring : Ring links head (front ++ pos :: rest)) :
    links.next pos = (rest ++ [head]).head (by simp) :=
  (Path.append.mp ring.path).2.next_eq

/-- The loop meets the nodes from its position on. -/
theorem safeLoop_eq
    {front rest : List Node}
    {fuel : Nat}
    (represents : Represents links lists)
    (found : lists head = some (front ++ rest))
    (valid : ∀ node ∈ rest, (act node).Valid lists head)
    (enough : rest.length < fuel) :
    ∃ final,
      safeLoop (bodyCode poison1 poison2 act) head fuel links
          ((rest ++ [head]).head (by simp))
          (links.next ((rest ++ [head]).head (by simp))) =
        some (final, rest) ∧
        Represents final (rest.foldl (bodyLists act) lists) := by
  induction rest generalizing front fuel links lists with
  | nil =>
      obtain ⟨more, rfl⟩ := Nat.exists_eq_add_one.mpr enough
      exact ⟨links, by simp [safeLoop], represents⟩
  | cons pos rest inductionHypothesis =>
      obtain ⟨more, rfl⟩ :=
        Nat.exists_eq_add_one.mpr (Nat.zero_lt_of_lt enough)
      have ring := represents.rings found
      have linked : lists.Linked pos :=
        ⟨head, _, found, by simp⟩
      have posHead : pos ≠ head := by
        rintro rfl
        exact (List.nodup_cons.mp ring.nodup).1 (by simp)
      have posValid := valid pos List.mem_cons_self
      obtain ⟨front', found'⟩ := bodyLists_front represents found posValid
      obtain ⟨final, looped, finalRepresents⟩ :=
        @inductionHypothesis
          (bodyCode poison1 poison2 act links pos)
          (bodyLists act lists pos) front' more
          (represents.body linked posValid) found'
          (fun node member =>
            valid_body represents linked
              (valid node (List.mem_cons_of_mem _ member)))
          (Nat.lt_of_succ_lt_succ enough)
      refine ⟨final, ?_, finalRepresents⟩
      change
        safeLoop (bodyCode poison1 poison2 act) head (more + 1) links pos
            (links.next pos) =
          some (final, pos :: rest)
      rw [safeLoop, if_neg posHead, next_of_ring ring]
      dsimp only
      rw [looped]
      rfl

/--
`list_for_each_safe` meets each node of its list once and in order, although
the bodies delete nodes or move them to other lists.  Behind it a loop over any
list meets what these calls mean for the lists, one after another.
-/
theorem forEachSafe_meets_all
    (start : Links Node)
    (poison1 poison2 : Node)
    {ops : List (Op Node)}
    (valid : ValidRun (fun _ => none) ops)
    {head : Node}
    {nodes : List Node}
    (found : runLists (fun _ => none) ops head = some nodes)
    (act : Node → Act Node)
    (allowed :
      ∀ node ∈ nodes,
        (act node).Valid (runLists (fun _ => none) ops) head)
    {fuel : Nat}
    (enough : nodes.length < fuel) :
    ∃ final,
      listForEachSafe (bodyCode poison1 poison2 act)
          (runCode poison1 poison2 start ops) head fuel =
        some (final, nodes) ∧
      ∀ other left,
        nodes.foldl (bodyLists act) (runLists (fun _ => none) ops) other =
          some left →
        ∀ more,
          left.length < more →
          listForEach final other more = some left := by
  have represents :
      Represents (runCode poison1 poison2 start ops)
        (runLists (fun _ => none) ops) :=
    (represents_none start).run valid
  have ring := represents.rings found
  obtain ⟨final, looped, finalRepresents⟩ :=
    @safeLoop_eq _ _ _ _ poison1 poison2 head act [] nodes fuel
      represents found allowed enough
  refine ⟨final, ?_, ?_⟩
  · rw [← ring.path.next_eq] at looped
    exact looped
  · intro other left leftFound more enoughMore
    exact (finalRepresents.rings leftFound).walk_eq enoughMore

/-- Bodies that delete node 4 and move every other node to the second list. -/
def sampleAct (node : Nat) : Act Nat :=
  if node = 4 then .del else .move 1

/-- A loop that empties a list of three nodes, two of them into another one. -/
theorem forEachSafe_meets_moved :
    ∃ final,
      listForEachSafe (bodyCode 8 9 sampleAct)
          (runCode 8 9 { next := fun _ => 7, prev := fun _ => 7 }
            sampleOps) 0 4 =
        some (final, [3, 4, 5]) ∧
      listForEach final 0 1 = some [] ∧
      listForEach final 1 4 = some [5, 3, 2] := by
  obtain ⟨final, looped, loops⟩ :=
    @forEachSafe_meets_all Nat _ { next := fun _ => 7, prev := fun _ => 7 }
      8 9 sampleOps sampleOps_valid 0 [3, 4, 5] rfl sampleAct
      (by
        intro node _
        unfold sampleAct
        split
        · trivial
        · exact ⟨[2], rfl⟩)
      4 (by decide)
  exact ⟨final, looped, loops 0 [] rfl 1 (by decide),
    loops 1 [5, 3, 2] rfl 4 (by decide)⟩

/--
A loop that goes on behind a node of a list meets exactly the nodes behind it,
in order, also where its bodies delete these nodes or move them elsewhere.
-/
theorem continue_meets_rest
    (start : Links Node)
    (poison1 poison2 : Node)
    {ops : List (Op Node)}
    (valid : ValidRun (fun _ => none) ops)
    {head pos : Node}
    {front rest : List Node}
    (found :
      runLists (fun _ => none) ops head = some (front ++ pos :: rest))
    (act : Node → Act Node)
    (allowed :
      ∀ node ∈ rest,
        (act node).Valid (runLists (fun _ => none) ops) head)
    {fuel : Nat}
    (enough : rest.length < fuel) :
    listForEachEntryContinue (runCode poison1 poison2 start ops) pos head
          fuel =
        some rest ∧
      ∃ final,
        listForEachEntrySafeContinue (bodyCode poison1 poison2 act)
            (runCode poison1 poison2 start ops) pos head fuel =
          some (final, rest) ∧
        ∀ other left,
          rest.foldl (bodyLists act) (runLists (fun _ => none) ops) other =
            some left →
          ∀ more,
            left.length < more →
            listForEach final other more = some left := by
  have represents :
      Represents (runCode poison1 poison2 start ops)
        (runLists (fun _ => none) ops) :=
    (represents_none start).run valid
  have ring := represents.rings found
  have ahead := next_of_ring ring
  have shape : front ++ pos :: rest = (front ++ [pos]) ++ rest := by
    simp
  refine ⟨?_, ?_⟩
  · obtain ⟨_, behind⟩ := Path.append.mp ring.path
    have headNot : head ∉ rest := by
      intro member
      exact (List.nodup_cons.mp ring.nodup).1
        (List.mem_append_right _ (List.mem_cons_of_mem _ member))
    exact walk_path behind headNot enough
  · obtain ⟨final, looped, finalRepresents⟩ :=
      @safeLoop_eq _ _ _ _ poison1 poison2 head act (front ++ [pos]) rest
        fuel represents (found.trans (congrArg some shape)) allowed enough
    refine ⟨final, ?_, ?_⟩
    · rw [← ahead] at looped
      exact looped
    · intro other left leftFound more enoughMore
      exact (finalRepresents.rings leftFound).walk_eq enoughMore

/-- A loop that goes on behind the second of four nodes and empties the rest. -/
theorem continue_meets_rest_moved :
    let links :=
      runCode 8 9 { next := fun _ => 7, prev := fun _ => 7 } fillOps
    listForEachEntryContinue links 3 0 3 = some [4, 5] ∧
      ∃ final,
        listForEachEntrySafeContinue (bodyCode 8 9 sampleAct) links 3 0 3 =
          some (final, [4, 5]) ∧
        listForEach final 0 3 = some [2, 3] ∧
        listForEach final 1 2 = some [5] := by
  obtain ⟨rest, final, looped, loops⟩ :=
    @continue_meets_rest Nat _ { next := fun _ => 7, prev := fun _ => 7 }
      8 9 fillOps fillOps_valid 0 3 [2] [4, 5] rfl sampleAct
      (by
        intro node _
        unfold sampleAct
        split
        · trivial
        · exact ⟨[], rfl⟩)
      3 (by decide)
  exact ⟨rest, final, looped, loops 0 [2, 3] rfl 3 (by decide),
    loops 1 [5] rfl 2 (by decide)⟩

end SafeLoop

end WkcRuntime.ListHead
