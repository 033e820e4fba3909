import Mathlib.Logic.Function.Basic
import Mathlib.Tactic

/-!
# Journals of threads

Threads write what they do into one journal, in the order in which they do it. Where a point
says what its thread has done to get there, the entries of each thread are the ones that its
point says, in that order.
-/
namespace SshClientWasm.Library

variable {τ π γ : Type*}

/-- The entries of one thread. -/
def entries [DecidableEq τ] (t : τ) (journal : List (τ × γ)) : List γ :=
  (journal.filter (·.1 = t)).map Prod.snd

section Entries

variable [DecidableEq τ] {t u : τ} {journal : List (τ × γ)} {es : List γ}

theorem entries_append (front back : List (τ × γ)) :
    entries t (front ++ back) = entries t front ++ entries t back := by
  rw [entries, List.filter_append, List.map_append, entries, entries]

theorem entries_self : entries t (es.map (t, ·)) = es := by
  induction es with
  | nil => rfl
  | cons e es ih =>
    rw [List.map_cons, entries, List.filter_cons_of_pos (by simp), List.map_cons]
    exact congrArg (e :: ·) ih

theorem entries_other (h : u ≠ t) : entries u (es.map (t, ·)) = [] := by
  induction es with
  | nil => rfl
  | cons e es ih =>
    rw [List.map_cons, entries, List.filter_cons_of_neg (by simpa using h.symm)]
    exact ih

theorem entries_map {δ : Type*} (f : γ → δ) (journal : List (τ × γ)) :
    entries t (journal.map (Prod.map id f)) = (entries t journal).map f := by
  rw [entries, entries, List.filter_map, List.map_map, List.map_map]
  rfl

theorem mem_entries {e : γ} : e ∈ entries t journal ↔ (t, e) ∈ journal := by
  simp [entries]

end Entries

/-- Each thread has written what its point says. -/
def Journaled [DecidableEq τ] (written : π → List γ) (pc : τ → π) (journal : List (τ × γ)) : Prop :=
  ∀ t, entries t journal = written (pc t)

namespace Journaled

variable [DecidableEq τ] {written : π → List γ} {pc : τ → π} {journal : List (τ × γ)} {t : τ}

theorem start {p : π} (h : written p = []) :
    Journaled written (fun _ : τ => p) [] := by
  intro t
  exact h.symm

/-- A thread moves, and writes what its new point says beyond the old one. -/
theorem move (h : Journaled written pc journal) {q : π} {es : List γ}
    (hq : written q = written (pc t) ++ es) :
    Journaled written (Function.update pc t q) (journal ++ es.map (t, ·)) := by
  intro u
  rw [entries_append, h u]
  by_cases hut : u = t
  · subst hut
    rw [entries_self, Function.update_self, hq]
  · rw [entries_other hut, Function.update_of_ne hut, List.append_nil]

theorem quiet (h : Journaled written pc journal) {q : π} (hq : written q = written (pc t)) :
    Journaled written (Function.update pc t q) (journal ++ []) :=
  h.move (hq.trans (List.append_nil (written (pc t))).symm)

theorem mem (h : Journaled written pc journal) {e : γ} :
    (t, e) ∈ journal ↔ e ∈ written (pc t) := by
  rw [← mem_entries, h t]

theorem eq_nil_iff (h : Journaled written pc journal) :
    journal = [] ↔ ∀ t, written (pc t) = [] := by
  simp only [List.eq_nil_iff_forall_not_mem, Prod.forall, h.mem]

end Journaled
end SshClientWasm.Library
