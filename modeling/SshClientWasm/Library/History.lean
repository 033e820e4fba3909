import Mathlib.Data.List.Basic
import Mathlib.Tactic

/-!
# Facts about every entry of a history

A history is a list of entries, the oldest first. A property of an entry may
depend on everything recorded before it.
-/
namespace SshClientWasm.Library

variable {α : Type*} {P : List α → α → Prop} {history events : List α}

/-- Every entry satisfies `P` together with what came before it. -/
def AtEach (P : List α → α → Prop) (history : List α) : Prop :=
  ∀ front e back, history = front ++ e :: back → P front e

theorem atEach_nil : AtEach P [] := by
  intro front e back h
  simp at h

theorem AtEach.append (h : AtEach P history)
    (hevents : ∀ front e back, events = front ++ e :: back → P (history ++ front) e) :
    AtEach P (history ++ events) := by
  intro front e back hsplit
  rcases List.append_eq_append_iff.mp hsplit with ⟨middle, hfront, hback⟩ | ⟨middle, hfront, hback⟩
  · rw [hfront]
    exact hevents middle e back hback
  · cases middle with
    | nil =>
      rw [List.append_nil] at hfront
      have hfirst := hevents [] e back hback.symm
      rwa [List.append_nil, hfront] at hfirst
    | cons x middle =>
      obtain ⟨rfl, _⟩ := List.cons.inj hback
      exact h front e middle hfront

theorem AtEach.of_append (h : AtEach P (history ++ events)) :
    AtEach (fun front e => P (history ++ front) e) events := by
  intro front e back hsplit
  refine h (history ++ front) e back ?_
  rw [hsplit, List.append_assoc]

theorem atEach_concat {e : α} : AtEach P (history ++ [e]) ↔ AtEach P history ∧ P history e := by
  constructor
  · intro h
    refine ⟨fun front x back hsplit => h front x (back ++ [e]) ?_, h history e [] rfl⟩
    rw [hsplit, List.append_assoc, List.cons_append]
  · rintro ⟨h, he⟩
    refine h.append fun front x back hsplit => ?_
    rcases List.append_eq_singleton_iff.mp hsplit.symm with ⟨rfl, hlast⟩ | ⟨_, hnil⟩
    · obtain ⟨rfl, _⟩ := List.cons.inj hlast
      rwa [List.append_nil]
    · cases hnil

theorem AtEach.mono {Q : List α → α → Prop} (h : AtEach P history)
    (himp : ∀ front e, P front e → Q front e) : AtEach Q history :=
  fun front e back hsplit => himp front e (h front e back hsplit)

/-- There has been a `p`, and no `q` after the last one. -/
def Since (p q : α → Prop) (history : List α) : Prop :=
  ∃ front e back, history = front ++ e :: back ∧ p e ∧ ∀ x ∈ back, ¬ q x

section Since

variable {p q : α → Prop}

theorem since_append_iff (h : ∀ e ∈ events, ¬ p e ∧ ¬ q e) :
    Since p q (history ++ events) ↔ Since p q history := by
  constructor
  · rintro ⟨front, e, back, hsplit, hp, hq⟩
    rcases List.append_eq_append_iff.mp hsplit with ⟨middle, _, hback⟩ | ⟨middle, hfront, hback⟩
    · have hmem : e ∈ events := by
        rw [hback]
        exact List.mem_append_right _ List.mem_cons_self
      exact absurd hp (h e hmem).1
    · cases middle with
      | nil =>
        have hmem : e ∈ events := by
          rw [← hback.trans (List.nil_append _)]
          exact List.mem_cons_self
        exact absurd hp (h e hmem).1
      | cons x middle =>
        obtain ⟨rfl, hrest⟩ := List.cons.inj hback
        refine ⟨front, e, middle, hfront, hp, fun y hy => hq y ?_⟩
        rw [hrest]
        exact List.mem_append_left _ hy
  · rintro ⟨front, e, back, hsplit, hp, hq⟩
    refine ⟨front, e, back ++ events, ?_, hp, ?_⟩
    · rw [hsplit, List.append_assoc, List.cons_append]
    · intro y hy
      rcases List.mem_append.mp hy with hy | hy
      · exact hq y hy
      · exact (h y hy).2

theorem not_since_concat {e : α} (hp : ¬ p e) (hq : q e) : ¬ Since p q (history ++ [e]) := by
  rintro ⟨front, x, back, hsplit, hx, hback⟩
  rcases List.eq_nil_or_concat back with rfl | ⟨back, y, rfl⟩
  · obtain ⟨_, heq⟩ := List.append_inj' hsplit rfl
    cases heq
    exact hp hx
  · have hlast : history ++ [e] = (front ++ x :: back) ++ [y] := by
      rw [hsplit, List.concat_eq_append, List.append_assoc, List.cons_append]
    obtain ⟨_, heq⟩ := List.append_inj' hlast rfl
    cases heq
    exact hback e (by simp) hq

theorem since_concat {e : α} (hp : p e) : Since p q (history ++ [e]) :=
  ⟨history, e, [], rfl, hp, by simp⟩

/-- An entry begins it, ends it or leaves it as it was. -/
theorem since_concat_iff {e : α} :
    Since p q (history ++ [e]) ↔ p e ∨ ¬ q e ∧ Since p q history := by
  by_cases hp : p e
  · simp [hp, since_concat hp]
  · by_cases hq : q e
    · simp [hp, hq, not_since_concat hp hq]
    · have hneither : ∀ x ∈ [e], ¬ p x ∧ ¬ q x := by simp [hp, hq]
      simp [hp, hq, since_append_iff hneither]

variable [DecidablePred p] [DecidablePred q]

/-- Where every `q` has had a `p` since the last one, there are not more of them, and
fewer as long as the last `p` has had none. -/
theorem AtEach.countP_le (hdisjoint : ∀ e, ¬ (p e ∧ q e)) :
    ∀ {history : List α}, AtEach (fun front e => q e → Since p q front) history →
      history.countP q ≤ history.countP p ∧
        (Since p q history → history.countP q < history.countP p) := by
  intro history
  induction history using List.reverseRecOn with
  | nil =>
    intro _
    refine ⟨le_rfl, ?_⟩
    rintro ⟨front, e, back, hsplit, _⟩
    simp at hsplit
  | append_singleton history e ih =>
    intro h
    obtain ⟨hhistory, he⟩ := atEach_concat.mp h
    obtain ⟨hle, hlt⟩ := ih hhistory
    have hnot := hdisjoint e
    simp only [since_concat_iff, List.countP_append, List.countP_singleton]
    by_cases hp : p e
    · have hq : ¬ q e := fun hq => hnot ⟨hp, hq⟩
      simp [hp, hq]
      omega
    · by_cases hq : q e
      · have := hlt (he hq)
        simp [hp, hq]
        omega
      · simpa [hp, hq] using And.intro hle hlt

end Since

end SshClientWasm.Library
