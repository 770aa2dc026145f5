import Mathlib.Data.List.Forall2

/-!
# Transducers

A transducer moves from state to state at inputs and answers each of them.  Two
transducers with related states that stay related, and whose answers agree,
give answers that agree on every list of inputs.
-/

universe u v w

/-- The next state and the answer to an input. -/
abbrev Transducer (σ : Type u) (ι : Type v) (ω : Type w) := σ → ι → σ × ω

namespace Transducer

variable {σ τ : Type u} {ι : Type v} {ω : Type w}
  {left : Transducer σ ι ω} {right : Transducer τ ι ω}

/-- The last state and the answers to a list of inputs. -/
def run (machine : Transducer σ ι ω) : σ → List ι → σ × List ω
  | state, [] => (state, [])
  | state, input :: inputs =>
    let (next, answer) := machine state input
    let (last, answers) := run machine next inputs
    (last, answer :: answers)

/-- Each input of a run meets the condition in the state it comes to. -/
def Meets (machine : Transducer σ ι ω) (condition : σ → ι → Prop) : σ → List ι → Prop
  | _, [] => True
  | state, input :: inputs => condition state input ∧
      Meets machine condition (machine state input).1 inputs

instance decidableMeets {machine : Transducer σ ι ω} {condition : σ → ι → Prop}
    [∀ state input, Decidable (condition state input)] :
    ∀ (state : σ) (inputs : List ι), Decidable (machine.Meets condition state inputs)
  | _, [] => isTrue True.intro
  | state, input :: inputs =>
    @instDecidableAnd _ _ inferInstance (decidableMeets (machine state input).1 inputs)

/-- A relation that each step keeps while the answers agree is kept by every
run, and all its answers agree. -/
theorem run_agrees {condition : σ → ι → Prop} (related : σ → τ → Prop) (same : ω → ω → Prop)
    (step : ∀ state other input, related state other → condition state input →
      related (left state input).1 (right other input).1 ∧
        same (left state input).2 (right other input).2)
    {state : σ} {other : τ} {inputs : List ι} (start : related state other)
    (meets : left.Meets condition state inputs) :
    related (left.run state inputs).1 (right.run other inputs).1 ∧
      List.Forall₂ same (left.run state inputs).2 (right.run other inputs).2 := by
  induction inputs generalizing state other with
  | nil => exact ⟨start, List.Forall₂.nil⟩
  | cons input inputs ih =>
    obtain ⟨met, later⟩ := meets
    obtain ⟨next, answers⟩ := step state other input start met
    obtain ⟨last, rest⟩ := ih next later
    exact ⟨last, List.Forall₂.cons answers rest⟩

end Transducer
