import Mathlib.Data.List.Induction
import Mathlib.Data.List.Perm.Basic

namespace WkcRuntime.SweepPipeline

/-!
# Sweeps that follow one another over a sequence

Passes enter a sequence at its front and move towards its end, each behind the
passes that entered before it.  A layout is the sequence with the running passes
standing between its elements.  Its outcome is what remains, and what every
pass reports, when the passes are finished one by one, the foremost first.  The
rules below say that a pass which moves over the next element leaves the
outcome as it is.  So passes that never overtake one another amount to passes
that ran one after another in the order in which they entered.
-/

variable {Element : Type}

/-- What a sweep does with the element that it has reached. -/
inductive Verdict (Element : Type) where
  | goOn (changed : Element)
  | stop (changed : Element)
  | drop

/-- The elements that a pass was given and the one at which it stopped. -/
structure Report (Element : Type) where
  visited : List Element
  found : Option Element
  deriving DecidableEq, Repr

/-- The report of a sweep that was given one more element at the start. -/
def Report.after
    (element : Element)
    (report : Report Element) :
    Report Element :=
  ⟨element :: report.visited, report.found⟩

/-- One sweep over a whole sequence: what it leaves and what it reports. -/
def sweep
    (judge : Element → Verdict Element) :
    List Element → List Element × Report Element
  | [] =>
      ([], ⟨[], none⟩)
  | element :: rest =>
      match judge element with
      | .goOn changed =>
          (changed :: (sweep judge rest).1,
            (sweep judge rest).2.after element)
      | .stop changed =>
          (changed :: rest, ⟨[element], some changed⟩)
      | .drop =>
          ((sweep judge rest).1, (sweep judge rest).2.after element)

/-- A sweep that never stops or drops is a map. -/
theorem sweep_goOn
    (change : Element → Element)
    (elements : List Element) :
    sweep (fun element => .goOn (change element)) elements =
      (elements.map change, ⟨elements, none⟩) := by
  induction elements with
  | nil =>
      rfl
  | cons element rest inductionHypothesis =>
      simp only [sweep, inductionHypothesis, Report.after, List.map_cons]

/-- A sweep that stops at the first match finds what `find?` finds. -/
theorem sweep_stop
    (test : Element → Bool)
    (elements : List Element) :
    (sweep
        (fun element =>
          if test element then .stop element else .goOn element)
        elements).1 = elements ∧
      (sweep
        (fun element =>
          if test element then .stop element else .goOn element)
        elements).2.found = elements.find? test := by
  induction elements with
  | nil =>
      exact ⟨rfl, rfl⟩
  | cons element rest inductionHypothesis =>
      obtain ⟨kept, found⟩ := inductionHypothesis
      cases tested : test element with
      | true =>
          simp [sweep, tested]
      | false =>
          simp [sweep, tested, Report.after, kept, found]

/-- A sweep that drops every match leaves what `filter` leaves. -/
theorem sweep_drop
    (test : Element → Bool)
    (elements : List Element) :
    (sweep
        (fun element =>
          if test element then .drop else .goOn element)
        elements).1 = elements.filter (fun element => !test element) := by
  induction elements with
  | nil =>
      rfl
  | cons element rest inductionHypothesis =>
      cases tested : test element with
      | true =>
          simp [sweep, tested, inductionHypothesis]
      | false =>
          simp [sweep, tested, inductionHypothesis]

/-- A pass: put an element in front, sweep what lies ahead, or nothing more. -/
inductive Pass (Element : Type) where
  | insert (element : Element) (visited : List Element)
  | sweep
      (judge : Element → Verdict Element)
      (visited : List Element)
  | done (report : Report Element)

/-- Finish a pass on the elements that lie ahead of it. -/
def Pass.finish :
    Pass Element →
      List Element →
      List Element × Report Element
  | .insert element visited, ahead =>
      (element :: ahead, ⟨visited, none⟩)
  | .sweep judge visited, ahead =>
      ((SweepPipeline.sweep judge ahead).1,
        ⟨visited ++ (SweepPipeline.sweep judge ahead).2.visited,
          (SweepPipeline.sweep judge ahead).2.found⟩)
  | .done report, ahead =>
      (ahead, report)

/-- What passes leave together: the elements and one numbered report each. -/
structure Outcome (Element : Type) where
  elements : List Element
  reports : List (Nat × Report Element)

/-- One place of a layout: an element, or a pass and its number. -/
inductive Item (Element : Type) where
  | kept (element : Element)
  | cursor (ticket : Nat) (pass : Pass Element)

/-- Put one more place before an outcome. -/
def Item.settle :
    Item Element →
      Outcome Element →
      Outcome Element
  | .kept element, outcome =>
      ⟨element :: outcome.elements, outcome.reports⟩
  | .cursor ticket pass, outcome =>
      ⟨(pass.finish outcome.elements).1,
        (ticket, (pass.finish outcome.elements).2) :: outcome.reports⟩

/-- Put a piece of a layout before an outcome. -/
def settle
    (layout : List (Item Element))
    (outcome : Outcome Element) :
    Outcome Element :=
  layout.foldr Item.settle outcome

/-- The outcome of a layout: its foremost pass finishes first. -/
def flush (layout : List (Item Element)) : Outcome Element :=
  settle layout ⟨[], []⟩

/-- Passes that run one after another from the empty sequence. -/
def inTurn (passes : List (Pass Element)) : Outcome Element :=
  passes.foldl
    (fun outcome pass =>
      (Item.cursor outcome.reports.length pass).settle outcome)
    ⟨[], []⟩

@[simp] theorem settle_nil (outcome : Outcome Element) :
    settle [] outcome = outcome :=
  rfl

@[simp] theorem settle_cons
    (item : Item Element)
    (layout : List (Item Element))
    (outcome : Outcome Element) :
    settle (item :: layout) outcome =
      item.settle (settle layout outcome) :=
  rfl

@[simp] theorem settle_append
    (behind ahead : List (Item Element))
    (outcome : Outcome Element) :
    settle (behind ++ ahead) outcome =
      settle behind (settle ahead outcome) := by
  simp only [settle, List.foldr_append]

/-- A layout without passes is the sequence itself. -/
theorem flush_kept (elements : List Element) :
    flush (elements.map Item.kept) = ⟨elements, []⟩ := by
  induction elements with
  | nil =>
      rfl
  | cons element rest inductionHypothesis =>
      simp only [flush] at inductionHypothesis ⊢
      simp only [List.map_cons, settle_cons, inductionHypothesis,
        Item.settle]

/-- A layout can be replaced in the middle by one with the same effect. -/
theorem flush_replace
    {behind middle middle' ahead : List (Item Element)}
    (same :
      settle middle' (flush ahead) = settle middle (flush ahead)) :
    flush (behind ++ middle' ++ ahead) =
      flush (behind ++ middle ++ ahead) := by
  rw [flush] at same
  simp only [flush, settle_append, same]

/-- A sweep moves over an element that it keeps. -/
theorem settle_goOn
    {judge : Element → Verdict Element}
    {element changed : Element}
    (verdict : judge element = .goOn changed)
    (ticket : Nat)
    (visited : List Element)
    (outcome : Outcome Element) :
    settle
        [.kept changed,
          .cursor ticket (.sweep judge (visited ++ [element]))]
        outcome =
      settle
        [.cursor ticket (.sweep judge visited), .kept element]
        outcome := by
  simp only [settle_cons, settle_nil, Item.settle, Pass.finish, sweep,
    verdict, Report.after, List.append_assoc, List.singleton_append]

/-- A sweep that stops at an element is done. -/
theorem settle_stop
    {judge : Element → Verdict Element}
    {element changed : Element}
    (verdict : judge element = .stop changed)
    (ticket : Nat)
    (visited : List Element)
    (outcome : Outcome Element) :
    settle
        [.cursor ticket (.done ⟨visited ++ [element], some changed⟩),
          .kept changed]
        outcome =
      settle
        [.cursor ticket (.sweep judge visited), .kept element]
        outcome := by
  simp only [settle_cons, settle_nil, Item.settle, Pass.finish, sweep,
    verdict]

/-- A sweep drops the element before it. -/
theorem settle_drop
    {judge : Element → Verdict Element}
    {element : Element}
    (verdict : judge element = .drop)
    (ticket : Nat)
    (visited : List Element)
    (outcome : Outcome Element) :
    settle
        [.cursor ticket (.sweep judge (visited ++ [element]))]
        outcome =
      settle
        [.cursor ticket (.sweep judge visited), .kept element]
        outcome := by
  simp only [settle_cons, settle_nil, Item.settle, Pass.finish, sweep,
    verdict, Report.after, List.append_assoc, List.singleton_append]

/-- A pass that has put its element in front is done. -/
theorem settle_insert
    (element : Element)
    (ticket : Nat)
    (visited : List Element)
    (outcome : Outcome Element) :
    settle
        [.cursor ticket (.done ⟨visited, none⟩), .kept element]
        outcome =
      settle [.cursor ticket (.insert element visited)] outcome := by
  simp only [settle_cons, settle_nil, Item.settle, Pass.finish]

/-- A sweep with nothing ahead of it is done. -/
theorem settle_end
    (judge : Element → Verdict Element)
    (ticket : Nat)
    (visited : List Element)
    (reports : List (Nat × Report Element)) :
    settle
        [.cursor ticket (.done ⟨visited, none⟩)]
        ⟨[], reports⟩ =
      settle
        [.cursor ticket (.sweep judge visited)]
        ⟨[], reports⟩ := by
  simp only [settle_cons, settle_nil, Item.settle, Pass.finish, sweep,
    List.append_nil]

/-- One more report ahead changes nothing but the reports. -/
theorem settle_report
    (layout : List (Item Element))
    (elements : List Element)
    (report : Nat × Report Element)
    (reports : List (Nat × Report Element)) :
    (settle layout ⟨elements, report :: reports⟩).elements =
        (settle layout ⟨elements, reports⟩).elements ∧
      (settle layout ⟨elements, report :: reports⟩).reports.Perm
        (report :: (settle layout ⟨elements, reports⟩).reports) := by
  induction layout with
  | nil =>
      exact ⟨rfl, .refl _⟩
  | cons item rest inductionHypothesis =>
      obtain ⟨sameElements, sameReports⟩ := inductionHypothesis
      cases item with
      | kept element =>
          simp only [settle_cons, Item.settle, sameElements, true_and]
          exact sameReports
      | cursor ticket pass =>
          simp only [settle_cons, Item.settle, sameElements, true_and]
          exact (sameReports.cons _).trans (.swap _ _ _)

/-- A pass that is done leaves the layout and hands in its report. -/
theorem flush_leave
    (behind ahead : List (Item Element))
    (ticket : Nat)
    (report : Report Element) :
    (flush (behind ++ .cursor ticket (.done report) :: ahead)).elements =
        (flush (behind ++ ahead)).elements ∧
      (flush (behind ++ .cursor ticket (.done report) :: ahead)).reports.Perm
        ((ticket, report) :: (flush (behind ++ ahead)).reports) := by
  simp only [flush, settle_append, settle_cons, Item.settle, Pass.finish]
  exact settle_report behind (settle ahead ⟨[], []⟩).elements
    (ticket, report) (settle ahead ⟨[], []⟩).reports

/-- Passes that run one after another hand in one report each. -/
theorem inTurn_reports_length (passes : List (Pass Element)) :
    (inTurn passes).reports.length = passes.length := by
  induction passes using List.reverseRecOn with
  | nil =>
      rfl
  | append_singleton passes pass inductionHypothesis =>
      simp only [inTurn, List.foldl_append, List.foldl_cons,
        List.foldl_nil, Item.settle, List.length_cons,
        List.length_append, List.length_nil]
      exact congrArg (· + 1) inductionHypothesis

/-- One more pass after those that ran before it. -/
theorem inTurn_append
    (passes : List (Pass Element))
    (pass : Pass Element) :
    inTurn (passes ++ [pass]) =
      (Item.cursor passes.length pass).settle (inTurn passes) := by
  rw [← inTurn_reports_length passes]
  simp only [inTurn, List.foldl_append, List.foldl_cons, List.foldl_nil]

end WkcRuntime.SweepPipeline
