import N8n.Library.Transducer

/-!
# Clients of transducers

A client asks a transducer for one answer after the other and chooses each
input from the answers so far.  Two transducers with related states that stay
related, and whose answers are equal, give every client the same result.
-/

universe u v w x

/-- A finite dialogue, and what comes out of it. -/
inductive Client (ι : Type u) (ω : Type v) (α : Type w) where
  | finish (result : α)
  | ask (input : ι) (next : ω → Client ι ω α)

namespace Client

variable {ι : Type u} {ω : Type v} {σ τ : Type w} {α β : Type x}

/-- The dialogue goes on with a client that depends on the result. -/
def bind : Client ι ω α → (α → Client ι ω β) → Client ι ω β
  | finish result, rest => rest result
  | ask input next, rest => ask input fun answer => (next answer).bind rest

instance : Monad (Client ι ω) where
  pure := finish
  bind := bind

/-- One input, and its answer as the result. -/
def request (input : ι) : Client ι ω ω := ask input finish

/-- The last state of the transducer, and the result of the client. -/
def run (machine : Transducer σ ι ω) : Client ι ω α → σ → σ × α
  | finish result, state => (state, result)
  | ask input next, state =>
    let (later, answer) := machine state input
    (next answer).run machine later

/-- Each input of the dialogue meets the condition in the state it comes to. -/
def Meets (machine : Transducer σ ι ω) (condition : σ → ι → Prop) : Client ι ω α → σ → Prop
  | finish _, _ => True
  | ask input next, state => condition state input ∧
      (next (machine state input).2).Meets machine condition (machine state input).1

instance decidableMeets {machine : Transducer σ ι ω} {condition : σ → ι → Prop}
    [∀ state input, Decidable (condition state input)] :
    ∀ (client : Client ι ω α) (state : σ), Decidable (client.Meets machine condition state)
  | finish _, _ => isTrue True.intro
  | ask input next, state =>
    @instDecidableAnd _ _ inferInstance (decidableMeets (next (machine state input).2)
        (machine state input).1)

/-- Related states that answer alike stay related through a dialogue, and its
result is the same. -/
theorem run_agrees {left : Transducer σ ι ω} {right : Transducer τ ι ω}
    {condition : σ → ι → Prop} (related : σ → τ → Prop)
    (step : ∀ state other input, related state other → condition state input →
      related (left state input).1 (right other input).1 ∧
        (left state input).2 = (right other input).2)
    (client : Client ι ω α) {state : σ} {other : τ} (start : related state other)
    (meets : client.Meets left condition state) :
    related (client.run left state).1 (client.run right other).1 ∧
      (client.run left state).2 = (client.run right other).2 := by
  induction client generalizing state other with
  | finish result => exact ⟨start, Eq.refl result⟩
  | ask input next ih =>
    obtain ⟨met, later⟩ := meets
    obtain ⟨after, same⟩ := step state other input start met
    have rest := ih (left state input).2 after later
    change related ((next (left state input).2).run left (left state input).1).1
        ((next (right other input).2).run right (right other input).1).1 ∧
      ((next (left state input).2).run left (left state input).1).2 =
        ((next (right other input).2).run right (right other input).1).2
    rw [← same]
    exact rest

end Client
