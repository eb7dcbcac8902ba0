import Mathlib.Computability.StateTransition
import Mathlib.Tactic.Common

/-! Following a partial function downhill. `next` says where to go from a state, or that the way
    ends there; every step makes the state smaller. The way from every state then ends, and a
    function that calls itself along `next` returns what it returns at the end. -/

namespace Descent

open StateTransition

variable {σ β : Type*} {next : σ → Option σ}

/-- Steps that make a state smaller come to an end. -/
theorem exists_mem_eval (size : σ → ℕ) (hsize : ∀ a b, next a = some b → size b < size a) (a : σ) :
    ∃ b, b ∈ eval next a := by
  induction a using WellFounded.induction (measure size).wf with
  | _ a ih =>
    cases h : next a with
    | none => exact ⟨a, mem_eval.mpr ⟨.refl, h⟩⟩
    | some b =>
      obtain ⟨c, hc⟩ := ih b (hsize a b h)
      have hstep : Reaches next a b := .single h
      exact ⟨c, by rwa [reaches_eval hstep]⟩

/-- A function that calls itself at the next state returns what it returns where there is none. -/
theorem eq_of_mem_eval {f stop : σ → β} (hf : ∀ a, f a = (next a).elim (stop a) f) {a b : σ}
    (h : b ∈ eval next a) : f a = stop b := by
  refine evalInduction h fun a ha ih => ?_
  rw [hf]
  cases hn : next a with
  | none =>
    obtain rfl := Part.mem_unique ha (mem_eval.mpr ⟨.refl, hn⟩)
    rfl
  | some a' => exact ih a' hn

/-- Such a function, where the steps go downhill: the end of the way and what is returned there. -/
theorem exists_end (size : σ → ℕ) (hsize : ∀ a b, next a = some b → size b < size a)
    {f stop : σ → β} (hf : ∀ a, f a = (next a).elim (stop a) f) (a : σ) :
    ∃ b, Reaches next a b ∧ next b = none ∧ f a = stop b := by
  obtain ⟨b, hb⟩ := exists_mem_eval size hsize a
  obtain ⟨hreaches, hnone⟩ := mem_eval.mp hb
  exact ⟨b, hreaches, hnone, eq_of_mem_eval hf hb⟩

end Descent
