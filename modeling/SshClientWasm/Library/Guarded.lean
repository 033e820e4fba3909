import SshClientWasm.Library.Machine
import SshClientWasm.Library.RWMutex

/-!
# Threads around a reader-writer lock

Any number of threads run a program on data that one lock guards. What is true of
the data while nobody writes, what the writer knows instead at each of its points,
what each thread knows about itself, and how the data may change under it make up
an outline. Checked for single steps, it holds after every run.
-/
namespace SshClientWasm.Library

/-- Threads at points `π` around data `σ`. A thread moves as its input `ω` says; the
data also change by events `ε` of no thread. Each lock operation fits the access that
a thread has at its points. -/
structure Program (σ π ω ε : Type*) where
  access : π → Access
  advance : σ → π → ω → Option (LockOp × σ × π)
  external : σ → ε → Option σ
  disciplined : ∀ {x p w op x' p'}, advance x p w = some (op, x', p') →
    op.Moves (access p) (access p')

/-- The lock, the data, and where every thread is. -/
structure Guarded (τ σ π : Type*) where
  mu : RWMutex τ
  shared : σ
  pc : τ → π

/-- A proof outline. -/
structure Outline (σ π : Type*) where
  /-- The data while nobody writes. -/
  unlocked : σ → Prop
  /-- The data as the writer at a point knows them. -/
  held : π → σ → Prop
  /-- What a thread at a point knows about itself. -/
  own : σ → π → Prop
  /-- How the data change. -/
  rely : σ → σ → Prop

namespace Program

variable {τ σ π ω ε : Type*} (P : Program σ π ω ε) (O : Outline σ π)

/-- A step that works on the data: with the lock held, taken or given back. -/
def Inside (p : π) (op : LockOp) : Prop := P.access p ≠ .none ∨ op ≠ .none

/-- What a thread at a point knows about the data when it works on them. -/
def Sees (p : π) (x : σ) : Prop := if P.access p = .write then O.held p x else O.unlocked x

/-- The outline is right about every single step. -/
structure Checked : Prop where
  inside : ∀ {x p w op x' p'}, P.advance x p w = some (op, x', p') → P.Inside p op →
    P.Sees O p x → P.Sees O p' x'
  outside : ∀ {x p w op x' p'}, P.advance x p w = some (op, x', p') → ¬P.Inside p op → x' = x
  external : ∀ {x e x'}, P.external x e = some x' →
    (O.unlocked x → O.unlocked x') ∧ ∀ p, O.held p x → O.held p x'
  rely : ∀ {x p w op x' p'}, P.advance x p w = some (op, x', p') →
    (P.Inside p op → P.Sees O p x) → O.rely x x'
  external_rely : ∀ {x e x'}, P.external x e = some x' → O.rely x x'
  stable : ∀ {x x' p}, O.rely x x' → O.own x p → O.own x' p
  own : ∀ {x p w op x' p'}, P.advance x p w = some (op, x', p') →
    (P.Inside p op → P.Sees O p x) → O.own x p → O.own x' p'

variable [DecidableEq τ]

/-- Nobody holds the lock and every thread is at one point. -/
def start (shared : σ) (p : π) : Guarded τ σ π := ⟨.free, shared, fun _ => p⟩

def machine : Machine (Guarded τ σ π) (τ × ω ⊕ ε) where
  step s a :=
    match a with
    | .inl (t, w) =>
      (P.advance s.shared (s.pc t) w).bind fun next =>
        (s.mu.perform t next.1).map fun mu => ⟨mu, next.2.1, Function.update s.pc t next.2.2⟩
    | .inr e => (P.external s.shared e).map fun shared => { s with shared := shared }

/-- The outline holds in a state. -/
structure Holds (s : Guarded τ σ π) : Prop where
  access_eq : ∀ t, s.mu.access t = P.access (s.pc t)
  unlocked : (∀ t, P.access (s.pc t) ≠ .write) → O.unlocked s.shared
  held : ∀ t, P.access (s.pc t) = .write → O.held (s.pc t) s.shared
  own : ∀ t, O.own s.shared (s.pc t)

variable {P O} {s s' : Guarded τ σ π}

theorem start_holds {x : σ} {p : π} (haccess : P.access p = .none) (hx : O.unlocked x)
    (hown : O.own x p) : P.Holds O (start x p : Guarded τ σ π) where
  access_eq := fun _ => haccess.symm
  unlocked := fun _ => hx
  held := by
    intro t hwrite
    have hnone : P.access p = .write := hwrite
    rw [haccess] at hnone
    cases hnone
  own := fun _ => hown

theorem Holds.sees {t : τ} {op : LockOp} {mu : RWMutex τ} {b : Access} (h : P.Holds O s)
    (hmoves : op.Moves (P.access (s.pc t)) b) (hmu : s.mu.perform t op = some mu)
    (hinside : P.Inside (s.pc t) op) : P.Sees O (s.pc t) s.shared := by
  unfold Sees
  split
  next hwrite => exact h.held t hwrite
  next hwrite =>
    apply h.unlocked
    intro u
    rw [← h.access_eq u]
    cases op with
    | none =>
      have hread : s.mu.access t = .read := by
        rw [h.access_eq t]
        cases haccess : P.access (s.pc t) with
        | none => simp [Inside, haccess] at hinside
        | read => rfl
        | write => exact absurd haccess hwrite
      exact RWMutex.access_ne_write_of_read hread u
    | lock =>
      rw [RWMutex.access_eq_none_of_lock hmu u]
      simp
    | unlock => exact absurd hmoves.1 hwrite
    | rLock => exact RWMutex.access_ne_write_of_rLock hmu u
    | rUnlock => exact RWMutex.access_ne_write_of_read ((h.access_eq t).trans hmoves.1) u

theorem not_inside {p : π} {op : LockOp} (hmoves : op.Moves .none .none)
    (haccess : P.access p = .none) : ¬P.Inside p op := by
  cases op <;> simp_all [LockOp.Moves, Inside]

theorem access_eq_none_of_not_inside {p : π} {op : LockOp} {b : Access}
    (hmoves : op.Moves (P.access p) b) (h : ¬P.Inside p op) : P.access p = .none ∧ b = .none := by
  simp only [Inside, not_or, ne_eq, not_not] at h
  rw [h.2] at hmoves
  exact ⟨h.1, hmoves.symm.trans h.1⟩

theorem Checked.advance (hO : P.Checked O) {t : τ} {w : ω} {op : LockOp} {x' : σ} {p' : π}
    {mu : RWMutex τ} (h : P.Holds O s)
    (hadvance : P.advance s.shared (s.pc t) w = some (op, x', p'))
    (hmu : s.mu.perform t op = some mu) :
    P.Holds O (⟨mu, x', Function.update s.pc t p'⟩ : Guarded τ σ π) := by
  have hmoves := P.disciplined hadvance
  have hsees : P.Inside (s.pc t) op → P.Sees O (s.pc t) s.shared := h.sees hmoves hmu
  have hself : Function.update s.pc t p' t = p' := Function.update_self ..
  have hother : ∀ u, u ≠ t → Function.update s.pc t p' u = s.pc u :=
    fun u hu => Function.update_of_ne hu ..
  have haccess : ∀ u, mu.access u = P.access (Function.update s.pc t p' u) := by
    intro u
    by_cases hu : u = t
    · subst hu
      rw [hself]
      exact RWMutex.perform_access_self hmoves (h.access_eq u) hmu
    · rw [hother u hu, RWMutex.perform_access_of_ne hmoves (h.access_eq t) hmu hu]
      exact h.access_eq u
  have hunlocked : (∀ u, P.access (Function.update s.pc t p' u) ≠ .write) → O.unlocked x' := by
    intro hfree
    by_cases hinside : P.Inside (s.pc t) op
    · have hafter := hO.inside hadvance hinside (hsees hinside)
      have hp' := hfree t
      rw [hself] at hp'
      rwa [Sees, if_neg hp'] at hafter
    · rw [hO.outside hadvance hinside]
      apply h.unlocked
      intro u
      by_cases hu : u = t
      · subst hu
        rw [(access_eq_none_of_not_inside hmoves hinside).1]
        simp
      · rw [← hother u hu]
        exact hfree u
  have hheld : ∀ u, P.access (Function.update s.pc t p' u) = .write →
      O.held (Function.update s.pc t p' u) x' := by
    intro u hwrite
    by_cases hu : u = t
    · subst hu
      rw [hself] at hwrite ⊢
      by_cases hinside : P.Inside (s.pc u) op
      · have hafter := hO.inside hadvance hinside (hsees hinside)
        rwa [Sees, if_pos hwrite] at hafter
      · rw [(access_eq_none_of_not_inside hmoves hinside).2] at hwrite
        cases hwrite
    · -- Beside a writer, a thread can only have moved without the lock.
      have hafter : P.access p' = .none := by
        have hnone := RWMutex.access_eq_none_of_write ((haccess u).trans hwrite) (Ne.symm hu)
        rwa [haccess t, hself] at hnone
      rw [hother u hu] at hwrite ⊢
      have hbefore : P.access (s.pc t) = .none := by
        rw [← h.access_eq t]
        exact RWMutex.access_eq_none_of_write ((h.access_eq u).trans hwrite) (Ne.symm hu)
      rw [hbefore, hafter] at hmoves
      rw [hO.outside hadvance (not_inside hmoves hbefore)]
      exact h.held u hwrite
  have hown : ∀ u, O.own x' (Function.update s.pc t p' u) := by
    intro u
    by_cases hu : u = t
    · subst hu
      rw [hself]
      exact hO.own hadvance hsees (h.own u)
    · rw [hother u hu]
      exact hO.stable (hO.rely hadvance hsees) (h.own u)
  exact ⟨haccess, hunlocked, hheld, hown⟩

/-- A checked outline holds after every run. -/
theorem Checked.run (hO : P.Checked O) (labels : List (τ × ω ⊕ ε)) (s s' : Guarded τ σ π)
    (h : P.Holds O s) (hrun : P.machine.run s labels = some s') : P.Holds O s' := by
  refine P.machine.run_invariant ?_ labels s s' h hrun
  intro s a s' h hstep
  rcases a with ⟨t, w⟩ | e
  · obtain ⟨⟨op, x', p'⟩, hadvance, hstep⟩ := Option.bind_eq_some_iff.mp hstep
    obtain ⟨mu, hmu, rfl⟩ := Option.map_eq_some_iff.mp hstep
    exact hO.advance h hadvance hmu
  · obtain ⟨x', hx', rfl⟩ := Option.map_eq_some_iff.mp hstep
    obtain ⟨hunlocked, hheld⟩ := hO.external hx'
    exact ⟨h.access_eq, fun hfree => hunlocked (h.unlocked hfree),
      fun t ht => hheld _ (h.held t ht), fun t => hO.stable (hO.external_rely hx') (h.own t)⟩

/-- At every moment the data are as in the outline, for the writer or for everybody. -/
theorem Holds.data (h : P.Holds O s) :
    O.unlocked s.shared ∨ ∃ t, P.access (s.pc t) = .write ∧ O.held (s.pc t) s.shared := by
  by_cases hfree : ∀ t, P.access (s.pc t) ≠ .write
  · exact Or.inl (h.unlocked hfree)
  · obtain ⟨t, ht⟩ := not_forall.mp hfree
    rw [not_not] at ht
    exact Or.inr ⟨t, ht, h.held t ht⟩

end Program
end SshClientWasm.Library
