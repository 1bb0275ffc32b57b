namespace WkcRuntime.TwoRuns

/-!
# Comparing what two runs show

A system reads inputs one after the other and shows something for each.  Two of
its states are tracked by a shadow, which says in what they differ: an input
that uses a difference is seen at once, any other one shows the same in both and
leaves two states whose differences the next shadow describes.  Then the two
runs show the same if and only if no input uses a difference.
-/

variable {State Shadow Input Output : Type}

/-- What a system shows for a sequence of inputs. -/
def outputs
    (step : State → Input → State × Output) :
    State → List Input → List Output
  | _, [] =>
      []
  | state, input :: rest =>
      (step state input).2 :: outputs step (step state input).1 rest

/-- No input of a sequence uses what the shadow says at that moment. -/
def Unused
    (shadowStep : Shadow → Input → Shadow)
    (Uses : Shadow → Input → Prop) :
    Shadow → List Input → Prop
  | _, [] =>
      True
  | shadow, input :: rest =>
      ¬ Uses shadow input ∧
        Unused shadowStep Uses (shadowStep shadow input) rest

instance decidableUnused
    (shadowStep : Shadow → Input → Shadow)
    (Uses : Shadow → Input → Prop)
    [∀ shadow input, Decidable (Uses shadow input)] :
    ∀ shadow inputs,
      Decidable (Unused shadowStep Uses shadow inputs)
  | _, [] =>
      isTrue trivial
  | shadow, input :: rest =>
      have := decidableUnused shadowStep Uses
        (shadowStep shadow input) rest
      inferInstanceAs
        (Decidable
          (¬ Uses shadow input ∧
            Unused shadowStep Uses (shadowStep shadow input) rest))

/-- What a shadow has to promise about one input. -/
structure Tracks
    (step : State → Input → State × Output)
    (shadowStep : Shadow → Input → Shadow)
    (Uses : Shadow → Input → Prop)
    (Related : Shadow → State → State → Prop) :
    Prop where
  unused :
    ∀ {shadow first second input},
      Related shadow first second →
      ¬ Uses shadow input →
      (step first input).2 = (step second input).2 ∧
        Related (shadowStep shadow input)
          (step first input).1 (step second input).1
  used :
    ∀ {shadow first second input},
      Related shadow first second →
      Uses shadow input →
      (step first input).2 ≠ (step second input).2

/-- Two tracked runs show the same if and only if they use no difference. -/
theorem Tracks.outputs_eq_iff
    {step : State → Input → State × Output}
    {shadowStep : Shadow → Input → Shadow}
    {Uses : Shadow → Input → Prop}
    {Related : Shadow → State → State → Prop}
    (tracks : Tracks step shadowStep Uses Related)
    {shadow : Shadow}
    {first second : State}
    (related : Related shadow first second)
    (inputs : List Input) :
    outputs step first inputs = outputs step second inputs ↔
      Unused shadowStep Uses shadow inputs := by
  induction inputs generalizing shadow first second with
  | nil =>
      simp [outputs, Unused]
  | cons input rest inductionHypothesis =>
      simp only [outputs, Unused, List.cons.injEq]
      by_cases uses : Uses shadow input
      · have different := tracks.used related uses
        simp [uses, different]
      · obtain ⟨same, later⟩ := tracks.unused related uses
        simp [uses, same, inductionHypothesis later]

end WkcRuntime.TwoRuns
