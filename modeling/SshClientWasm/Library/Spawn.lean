import Mathlib.Data.List.Perm.Basic
import Mathlib.Tactic

/-!
# Tasks in no particular order

Tasks are started one after the other, and each runs once, when the scheduler picks it. What
ran is a part of what was started, in an order of its own. Where the tasks carry words, that
order shows in their concatenation, unless the words commute.
-/
namespace SshClientWasm.Library

/-- The tasks that wait, in the order of their start, and those that ran, as they did. -/
structure Spawned (α : Type*) where
  waiting : List α
  ran : List α

namespace Spawned

variable {α : Type*} {s s' : Spawned α} {x : α} {k : ℕ}

def none : Spawned α := ⟨[], []⟩

/-- `go`. -/
def start (s : Spawned α) (x : α) : Spawned α := { s with waiting := s.waiting ++ [x] }

/-- The scheduler picks a task. -/
def pick (s : Spawned α) (k : ℕ) : Option (Spawned α) :=
  s.waiting[k]?.map fun x => ⟨s.waiting.eraseIdx k, s.ran ++ [x]⟩

/-- All tasks, the ones that ran in front. -/
def all (s : Spawned α) : List α := s.ran ++ s.waiting

theorem pick_cases (h : s.pick k = some s') :
    ∃ x, s.waiting[k]? = some x ∧ s'.ran = s.ran ++ [x] ∧ s'.waiting = s.waiting.eraseIdx k := by
  obtain ⟨x, hx, rfl⟩ := Option.map_eq_some_iff.mp h
  exact ⟨x, hx, rfl, rfl⟩

/-- Picking neither loses nor repeats a task. -/
theorem pick_perm (h : s.pick k = some s') : s'.all.Perm s.all := by
  obtain ⟨x, hx, hran, hwaiting⟩ := pick_cases h
  obtain ⟨hk, hget⟩ := List.getElem?_eq_some_iff.mp hx
  have hperm : (x :: s.waiting.eraseIdx k).Perm s.waiting := by
    rw [← hget]
    exact List.getElem_cons_eraseIdx_perm hk
  rw [all, hran, hwaiting, List.append_assoc]
  exact hperm.append_left s.ran

theorem pick_zero (h : s.pick 0 = some s') : s'.all = s.all := by
  obtain ⟨x, hx, hran, hwaiting⟩ := pick_cases h
  obtain ⟨rest, hrest⟩ := List.head?_eq_some_iff.mp (List.head?_eq_getElem? ▸ hx)
  rw [all, all, hran, hwaiting, hrest, List.eraseIdx_cons_zero, List.append_assoc]
  rfl

end Spawned

section Words

variable {α : Type*} {words words' : List (List α)}

/-- Words that commute can be concatenated in any order. -/
theorem flatten_eq_of_perm (hperm : words.Perm words') :
    words.Pairwise (fun x y => x ++ y = y ++ x) → words.flatten = words'.flatten := by
  induction hperm with
  | nil => exact fun _ => rfl
  | cons x _ ih =>
    intro hpairs
    rw [List.flatten_cons, List.flatten_cons, ih (List.pairwise_cons.mp hpairs).2]
  | swap x y l =>
    intro hpairs
    have hcommute : y ++ x = x ++ y :=
      (List.pairwise_cons.mp hpairs).1 x List.mem_cons_self
    rw [List.flatten_cons, List.flatten_cons, List.flatten_cons, List.flatten_cons,
      ← List.append_assoc, hcommute, List.append_assoc]
  | trans hfirst _ ih ih' =>
    intro hpairs
    have hsymm : ∀ {x y : List α}, x ++ y = y ++ x → y ++ x = x ++ y := fun h => h.symm
    exact (ih hpairs).trans (ih' ((hfirst.pairwise_iff hsymm).mp hpairs))

end Words
end SshClientWasm.Library
