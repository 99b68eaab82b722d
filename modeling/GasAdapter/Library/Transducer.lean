import Mathlib.Data.List.Basic

/-! # Deterministic token transducers

A transducer reads one token at a time, moves its state and emits finitely many outputs. Runs
compose at any cut, so what a reader does on a concatenation is determined by the state the
first part leaves. A spelling whose words bring the reader back to its resting state is read
back item by item; this is the round-trip rule for token grammars.
-/

/-- A deterministic reader: every token moves the state and emits a list of outputs. -/
structure Transducer (σ α β : Type*) where
  step : σ → α → σ × List β

namespace Transducer

variable {σ α β γ : Type*} (machine : Transducer σ α β)

/-- The state a token list leaves, and everything emitted on the way. -/
def run : σ → List α → σ × List β
  | state, [] => (state, [])
  | state, token :: rest =>
      let next := machine.step state token
      let later := run next.1 rest
      (later.1, next.2 ++ later.2)

@[simp] theorem run_nil (state : σ) : machine.run state [] = (state, []) := rfl

theorem run_cons (state : σ) (token : α) (rest : List α) :
    machine.run state (token :: rest) =
      ((machine.run (machine.step state token).1 rest).1,
        (machine.step state token).2 ++ (machine.run (machine.step state token).1 rest).2) := rfl

theorem run_singleton (state : σ) (token : α) :
    machine.run state [token] = machine.step state token := by
  simp only [run_cons, run_nil, List.append_nil]

/-- Runs compose at any cut: the second part starts in the state the first part leaves. -/
theorem run_append (state : σ) (first second : List α) :
    machine.run state (first ++ second) =
      ((machine.run (machine.run state first).1 second).1,
        (machine.run state first).2 ++ (machine.run (machine.run state first).1 second).2) := by
  induction first generalizing state with
  | nil => rfl
  | cons token rest ih => simp only [List.cons_append, run_cons, ih, List.append_assoc]

/-- What every step keeps and guarantees, every run keeps and guarantees. -/
theorem run_invariant (Holds : σ → Prop) (Good : β → Prop)
    (kept : ∀ state token, Holds state →
      Holds (machine.step state token).1 ∧ ∀ output ∈ (machine.step state token).2, Good output)
    {state : σ} (holds : Holds state) (tokens : List α) :
    Holds (machine.run state tokens).1 ∧ ∀ output ∈ (machine.run state tokens).2, Good output := by
  induction tokens generalizing state with
  | nil => exact ⟨holds, by simp⟩
  | cons token rest ih =>
    obtain ⟨next, emitted⟩ := kept state token holds
    obtain ⟨final, later⟩ := ih next
    refine ⟨final, ?_⟩
    intro output member
    rcases List.mem_append.mp member with now | after
    · exact emitted output now
    · exact later output after

/-- The round-trip rule: when each word returns to the resting state and emits its item, a
concatenation of words emits exactly the items, in order. -/
theorem run_flatMap (spell : γ → List α) (image : γ → β) (state : σ) (items : List γ)
    (reads : ∀ item ∈ items, machine.run state (spell item) = (state, [image item])) :
    machine.run state (items.flatMap spell) = (state, items.map image) := by
  induction items with
  | nil => rfl
  | cons item rest ih =>
    have head := reads item (List.mem_cons_self ..)
    have tail := ih (fun other member => reads other (List.mem_cons_of_mem _ member))
    simp only [List.flatMap_cons, run_append, head, tail, List.map_cons, List.singleton_append]

end Transducer
