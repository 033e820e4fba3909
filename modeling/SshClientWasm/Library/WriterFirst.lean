import Mathlib.Data.Finset.Basic
import Mathlib.Logic.Function.Basic
import Mathlib.Tactic

/-!
# Reader-writer locks that prefer writers

A writer announces itself, and has the lock when the readers that were there are gone;
from the announcement on nobody else comes in. What a thread has of the lock is its
claim, which its operations move.
-/
namespace SshClientWasm.Library

/-- What a thread has of the lock; who has announced itself waits for readers. -/
inductive Claim
  | none
  | read
  | announced
  | write
  deriving DecidableEq, Repr

/-- The lock operation of a step. -/
inductive ClaimOp
  | none
  | announce
  | acquire
  | unlock
  | rLock
  | rUnlock
  deriving DecidableEq, Repr

namespace ClaimOp

/-- The operation fits a thread that goes from one claim to the other. -/
@[simp] def Moves : ClaimOp → Claim → Claim → Prop
  | none, a, b => a = b
  | announce, a, b => a = .none ∧ b = .announced
  | acquire, a, b => a = .announced ∧ b = .write
  | unlock, a, b => a = .write ∧ b = .none
  | rLock, a, b => a = .none ∧ b = .read
  | rUnlock, a, b => a = .read ∧ b = .none

/-- The operations that may have to wait. -/
@[simp] def blocking : ClaimOp → Bool
  | announce | acquire | rLock => true
  | none | unlock | rUnlock => false

end ClaimOp

/-- The writer, from its announcement on, and the readers. -/
structure WriterFirst (τ : Type*) where
  writer : Option τ
  readers : Finset τ

namespace WriterFirst

variable {τ : Type*}

def free : WriterFirst τ := ⟨none, ∅⟩

/-- Do an operation, if it does not have to wait. -/
def perform [DecidableEq τ] (m : WriterFirst τ) (t : τ) : ClaimOp → Option (WriterFirst τ)
  | .none => some m
  | .announce => if m.writer = none then some ⟨some t, m.readers⟩ else none
  | .acquire => if m.readers = ∅ then some m else none
  | .unlock => some ⟨none, m.readers⟩
  | .rLock => if m.writer = none then some ⟨none, insert t m.readers⟩ else none
  | .rUnlock => some ⟨m.writer, m.readers.erase t⟩

/-- The lock knows the claims of the threads. -/
structure Agrees (m : WriterFirst τ) (claim : τ → Claim) : Prop where
  writer : ∀ t, m.writer = some t ↔ claim t = .announced ∨ claim t = .write
  reader : ∀ t, t ∈ m.readers ↔ claim t = .read
  alone : ∀ t, claim t = .write → m.readers = ∅

variable {m m' : WriterFirst τ} {claim : τ → Claim} {t u : τ} {op : ClaimOp} {b : Claim}

theorem free_agrees : (free : WriterFirst τ).Agrees fun _ => .none where
  writer := by simp [free]
  reader := by simp [free]
  alone := by simp

namespace Agrees

theorem eq_of_writer (h : m.Agrees claim) (ht : claim t = .announced ∨ claim t = .write)
    (hu : claim u = .announced ∨ claim u = .write) : t = u :=
  Option.some.inj (((h.writer t).mpr ht).symm.trans ((h.writer u).mpr hu))

theorem ne_read (h : m.Agrees claim) (ht : claim t = .write) (u : τ) : claim u ≠ .read := by
  intro hu
  have hmem := (h.reader u).mpr hu
  rw [h.alone t ht] at hmem
  cases hmem

theorem not_writer (h : m.Agrees claim) (hwriter : m.writer = none) (u : τ) :
    ¬(claim u = .announced ∨ claim u = .write) := by
  rw [← h.writer u, hwriter]
  simp

variable [DecidableEq τ]

theorem update (hwriter : m.writer = some t ↔ b = .announced ∨ b = .write)
    (hreader : t ∈ m.readers ↔ b = .read) (halone : b = .write → m.readers = ∅)
    (hwriters : ∀ u, u ≠ t → (m.writer = some u ↔ claim u = .announced ∨ claim u = .write))
    (hreaders : ∀ u, u ≠ t → (u ∈ m.readers ↔ claim u = .read))
    (hothers : ∀ u, u ≠ t → claim u = .write → m.readers = ∅) :
    m.Agrees (Function.update claim t b) := by
  have hother : ∀ u, u ≠ t → Function.update claim t b u = claim u :=
    fun u hu => Function.update_of_ne hu ..
  refine ⟨fun u => ?_, fun u => ?_, fun u hu => ?_⟩
  all_goals by_cases hut : u = t
  · subst hut
    simpa using hwriter
  · rw [hother u hut]
    exact hwriters u hut
  · subst hut
    simpa using hreader
  · rw [hother u hut]
    exact hreaders u hut
  · subst hut
    rw [Function.update_self] at hu
    exact halone hu
  · rw [hother u hut] at hu
    exact hothers u hut hu

/-- An operation moves the claim of its thread, and the lock with it. -/
theorem perform (h : m.Agrees claim) (hmoves : op.Moves (claim t) b)
    (hperform : m.perform t op = some m') : m'.Agrees (Function.update claim t b) := by
  have ht := h.writer t
  have hmem := h.reader t
  cases op with
  | none =>
    cases hperform
    rw [← show claim t = b from hmoves, Function.update_eq_self]
    exact h
  | announce =>
    obtain ⟨hwriter, heq⟩ := Option.ite_none_right_eq_some.mp hperform
    cases heq
    obtain ⟨hclaim, rfl⟩ := hmoves
    refine update (by simp) (by simp [hmem, hclaim]) (by simp) (fun u hu => ?_)
      (fun u _ => h.reader u) (fun u _ => h.alone u)
    simp [hu.symm, h.not_writer hwriter u]
  | acquire =>
    obtain ⟨hreaders, heq⟩ := Option.ite_none_right_eq_some.mp hperform
    cases heq
    obtain ⟨hclaim, rfl⟩ := hmoves
    exact update (by simp [ht, hclaim]) (by simp [hmem, hclaim]) (fun _ => hreaders)
      (fun u _ => h.writer u) (fun u _ => h.reader u) (fun _ _ _ => hreaders)
  | unlock =>
    cases hperform
    obtain ⟨hclaim, rfl⟩ := hmoves
    refine update (by simp) (by simp [hmem, hclaim]) (by simp) (fun u hu => ?_)
      (fun u _ => h.reader u) (fun _ _ _ => h.alone t hclaim)
    have hne : ¬(claim u = .announced ∨ claim u = .write) :=
      fun hclaims => hu (h.eq_of_writer hclaims (Or.inr hclaim))
    simp [hne]
  | rLock =>
    obtain ⟨hwriter, heq⟩ := Option.ite_none_right_eq_some.mp hperform
    cases heq
    obtain ⟨hclaim, rfl⟩ := hmoves
    refine update (by simp) (by simp) (by simp) (fun u _ => ?_) (fun u hu => ?_)
      (fun u _ hwrite => absurd (Or.inr hwrite) (h.not_writer hwriter u))
    · simp [h.not_writer hwriter u]
    · simp [hu, h.reader u]
  | rUnlock =>
    cases hperform
    obtain ⟨hclaim, rfl⟩ := hmoves
    refine update (by simp [ht, hclaim]) (by simp) (by simp) (fun u _ => h.writer u)
      (fun u hu => ?_) (fun u _ hwrite => absurd hclaim (h.ne_read hwrite t))
    simp [hu, h.reader u]

end Agrees

section Waiting

variable [DecidableEq τ]

theorem isSome_perform (h : op.blocking = false) : (m.perform t op).isSome = true := by
  cases op <;> first | rfl | cases h

theorem perform_eq_none (hop : op ≠ .acquire) :
    m.perform t op = none ↔ op.blocking = true ∧ m.writer ≠ none := by
  cases op with
  | acquire => exact absurd rfl hop
  | announce | rLock => simp [perform]
  | none | unlock | rUnlock => simp [perform]

theorem perform_acquire_eq_none : m.perform t .acquire = none ↔ m.readers ≠ ∅ := by
  simp [perform]

theorem writer_ne_none (hwriter : m.writer ≠ none) (hop : op ≠ .unlock)
    (h : m.perform t op = some m') : m'.writer ≠ none := by
  cases op with
  | none | rUnlock =>
    cases h
    exact hwriter
  | announce | rLock =>
    obtain ⟨hnone, _⟩ := Option.ite_none_right_eq_some.mp h
    exact absurd hnone hwriter
  | acquire =>
    obtain ⟨_, heq⟩ := Option.ite_none_right_eq_some.mp h
    cases heq
    exact hwriter
  | unlock => exact absurd rfl hop

end Waiting

end WriterFirst
end SshClientWasm.Library
