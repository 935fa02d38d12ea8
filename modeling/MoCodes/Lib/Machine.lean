import Mathlib.Tactic.Common

/-! Machines that answer every input, and what it means that one does the work of another. A
machine that gives neither an answer nor a next state has gone wrong for good. -/
namespace MoCodes.Lib.Machine

variable {σ τ ε ρ : Type}

abbrev Device (σ ε ρ : Type) := σ → ε → Option (ρ × σ)

/-- The answers to the inputs, and the last state. -/
def run (machine : Device σ ε ρ) : σ → List ε → Option (List ρ × σ)
  | state,[] => some ([],state)
  | state,input::inputs =>
    (machine state input).bind fun first =>
      (run machine first.2 inputs).map fun rest => (first.1::rest.1,rest.2)

def answers (machine : Device σ ε ρ) (state : σ) (inputs : List ε) : Option (List ρ) :=
  (run machine state inputs).map Prod.fst

/-- The same answer and states that belong together, or nothing from either. -/
inductive Agree {ρ : Type} (R : σ → τ → Prop) : Option (ρ × σ) → Option (ρ × τ) → Prop where
  | wrong : Agree R none none
  | right {answer : ρ} {state : σ} {shown : τ} : R state shown → Agree R (some (answer,state)) (some (answer,shown))

def Simulates (machine : Device σ ε ρ) (model : Device τ ε ρ) (R : σ → τ → Prop) : Prop :=
  ∀ {state shown} input, R state shown → Agree R (machine state input) (model shown input)

variable {machine : Device σ ε ρ} {model : Device τ ε ρ} {R : σ → τ → Prop} {state last : σ} {shown : τ}

theorem agree_answers {one : Option (ρ × σ)} {two : Option (ρ × τ)} (agree : Agree R one two) :
    one.map Prod.fst = two.map Prod.fst := by
  cases agree with
  | wrong => rfl
  | right _ => rfl

theorem run_agree (sim : Simulates machine model R) (related : R state shown) (inputs : List ε) :
    Agree R (run machine state inputs) (run model shown inputs) := by
  induction inputs generalizing state shown with
  | nil => exact .right related
  | cons input inputs ih =>
    have agree := sim input related
    rw [run,run]
    generalize machine state input = one,model shown input = two at agree ⊢
    cases agree with
    | wrong => exact .wrong
    | @right answer next shown after =>
      have later := ih after
      simp only [Option.bind_some]
      generalize run machine next inputs = one,run model shown inputs = two at later ⊢
      cases later with
      | wrong => exact .wrong
      | right related => exact .right related

theorem simulates_answers (sim : Simulates machine model R) (related : R state shown) (inputs : List ε) :
    answers machine state inputs = answers model shown inputs :=
  agree_answers (run_agree sim related inputs)

/-- Where a run comes to, the model's run comes to a state that belongs to it. -/
theorem simulates_last (sim : Simulates machine model R) (related : R state shown) {inputs : List ε}
    {given : List ρ} (ran : run machine state inputs = some (given,last)) :
    ∃ after, run model shown inputs = some (given,after) ∧ R last after := by
  have agree := run_agree sim related inputs
  rw [ran] at agree
  generalize run model shown inputs = other at agree ⊢
  cases agree with
  | right later => exact ⟨_,rfl,later⟩

theorem run_cons {input : ε} {inputs : List ε} {given : List ρ}
    (ran : run machine state (input::inputs) = some (given,last)) : ∃ answer next rest,
      machine state input = some (answer,next) ∧ run machine next inputs = some (rest,last) ∧
        given = answer::rest := by
  obtain ⟨first,step,later⟩ := Option.bind_eq_some_iff.mp ran
  obtain ⟨rest,more,same⟩ := Option.map_eq_some_iff.mp later
  obtain ⟨rfl,rfl⟩ := Prod.mk.inj same
  exact ⟨first.1,first.2,rest.1,step,more,rfl⟩

theorem run_kept {I : σ → Prop} (kept : ∀ {state next input answer}, I state →
    machine state input = some (answer,next) → I next) (initially : I state) {inputs : List ε}
    {given : List ρ} (ran : run machine state inputs = some (given,last)) : I last := by
  induction inputs generalizing state given with
  | nil =>
    cases ran
    exact initially
  | cons input inputs ih =>
    obtain ⟨answer,next,rest,step,later,_⟩ := run_cons ran
    exact ih (kept initially step) later

end MoCodes.Lib.Machine
