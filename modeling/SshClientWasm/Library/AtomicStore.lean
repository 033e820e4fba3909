import Mathlib.Data.List.Basic
import Mathlib.Logic.Function.Basic
import Mathlib.Tactic

/-!
# Stores with atomic puts

The specification of a store whose values are only ever replaced as a whole: its
contents are those of the initial store after a sequence of puts. What is seen
at a key is the initial value or the value of the last put for that key.
-/
namespace SshClientWasm.Library

variable {κ ν : Type*} [DecidableEq κ]

/-- The store after a sequence of puts. -/
def puts (store : κ → Option ν) : List (κ × ν) → κ → Option ν
  | [] => store
  | put :: rest => puts (Function.update store put.1 (some put.2)) rest

theorem puts_concat (store : κ → Option ν) (front : List (κ × ν)) (k : κ) (v : ν) :
    puts store (front ++ [(k, v)]) = Function.update (puts store front) k (some v) := by
  induction front generalizing store with
  | nil => rfl
  | cons put front ih => exact ih _

theorem puts_eq_or (store : κ → Option ν) (log : List (κ × ν)) (k : κ) :
    puts store log k = store k ∨ ∃ v, (k, v) ∈ log ∧ puts store log k = some v := by
  induction log using List.reverseRecOn with
  | nil => exact Or.inl rfl
  | append_singleton front put ih =>
    obtain ⟨k', v⟩ := put
    rw [puts_concat]
    by_cases hk : k = k'
    · subst hk
      right
      exact ⟨v, by simp, Function.update_self ..⟩
    · rw [Function.update_of_ne hk]
      rcases ih with hinit | ⟨v', hmem, hv'⟩
      · exact Or.inl hinit
      · exact Or.inr ⟨v', List.mem_append_left _ hmem, hv'⟩

theorem puts_of_not_mem {store : κ → Option ν} {log : List (κ × ν)} {k : κ}
    (h : ∀ put ∈ log, put.1 ≠ k) : puts store log k = store k := by
  rcases puts_eq_or store log k with hinit | ⟨v, hmem, _⟩
  · exact hinit
  · exact absurd rfl (h (k, v) hmem)

theorem puts_append (store : κ → Option ν) (front back : List (κ × ν)) :
    puts store (front ++ back) = puts (puts store front) back := by
  induction front generalizing store with
  | nil => rfl
  | cons put front ih => exact ih _

/-- The last put for a key is seen at it. -/
theorem puts_last {store : κ → Option ν} {front back : List (κ × ν)} {k : κ} {v : ν}
    (h : ∀ put ∈ back, put.1 ≠ k) : puts store (front ++ (k, v) :: back) k = some v := by
  rw [List.append_cons, puts_append, puts_of_not_mem h, puts_concat, Function.update_self]

end SshClientWasm.Library
