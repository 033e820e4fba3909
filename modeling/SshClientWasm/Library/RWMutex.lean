import Mathlib.Data.Finset.Basic
import Mathlib.Logic.Function.Basic
import Mathlib.Tactic

/-!
# Reader-writer locks

A lock is held by one writer, by any number of readers, or by nobody; that these
exclude each other is part of the type. What a thread does with the lock in one
step moves its access as the operation says, and nobody else's.
-/
namespace SshClientWasm.Library

/-- What a thread may do to the data behind the lock. -/
inductive Access
  | none
  | read
  | write
  deriving DecidableEq, Repr

/-- The lock operation of a step. -/
inductive LockOp
  | none
  | lock
  | unlock
  | rLock
  | rUnlock
  deriving DecidableEq, Repr

/-- The operation fits a thread that goes from one access to the other. -/
def LockOp.Moves : LockOp → Access → Access → Prop
  | .none, a, b => a = b
  | .lock, a, b => a = .none ∧ b = .write
  | .unlock, a, b => a = .write ∧ b = .none
  | .rLock, a, b => a = .none ∧ b = .read
  | .rUnlock, a, b => a = .read ∧ b = .none

/-- A lock with its holders. -/
structure RWMutex (τ : Type*) where
  writer : Option τ
  readers : Finset τ
  exclusive : writer ≠ none → readers = ∅

namespace RWMutex

variable {τ : Type*}

def free : RWMutex τ := ⟨none, ∅, fun _ => rfl⟩

/-- A lock that one thread has for itself, as its access says. -/
def only (t : τ) : Access → RWMutex τ
  | .none => free
  | .read => ⟨none, {t}, fun h => absurd rfl h⟩
  | .write => ⟨some t, ∅, fun _ => rfl⟩

def unlock (m : RWMutex τ) : RWMutex τ := ⟨none, m.readers, fun h => absurd rfl h⟩

variable [DecidableEq τ]

def access (m : RWMutex τ) (t : τ) : Access :=
  if m.writer = some t then .write else if t ∈ m.readers then .read else .none

/-- Blocked while anybody holds the lock. -/
def lock (m : RWMutex τ) (t : τ) : Option (RWMutex τ) :=
  if m.writer = none ∧ m.readers = ∅ then some ⟨some t, ∅, fun _ => rfl⟩ else none

/-- Blocked while there is a writer. -/
def rLock (m : RWMutex τ) (t : τ) : Option (RWMutex τ) :=
  if m.writer = none then some ⟨none, insert t m.readers, fun h => absurd rfl h⟩ else none

def rUnlock (m : RWMutex τ) (t : τ) : RWMutex τ where
  writer := m.writer
  readers := m.readers.erase t
  exclusive := by
    intro h
    rw [m.exclusive h, Finset.erase_empty]

/-- Do an operation, if it is not blocked. -/
def perform (m : RWMutex τ) (t : τ) : LockOp → Option (RWMutex τ)
  | .none => some m
  | .lock => m.lock t
  | .unlock => some m.unlock
  | .rLock => m.rLock t
  | .rUnlock => some (m.rUnlock t)

variable {m m' : RWMutex τ} {t u : τ} {op : LockOp} {a b : Access}

theorem access_eq_write : m.access t = .write ↔ m.writer = some t := by
  unfold access
  split_ifs with h <;> simp [h]

theorem access_eq_none_of_write (h : m.access t = .write) (hu : u ≠ t) : m.access u = .none := by
  have hwriter := access_eq_write.mp h
  have hreaders : m.readers = ∅ := m.exclusive (by simp [hwriter])
  simp [access, hwriter, hreaders, hu.symm]

theorem access_eq_none_of_lock (h : m.perform t .lock = some m') (u : τ) : m.access u = .none := by
  obtain ⟨⟨hwriter, hreaders⟩, _⟩ := Option.ite_none_right_eq_some.mp h
  simp [access, hwriter, hreaders]

theorem access_ne_write_of_rLock (h : m.perform t .rLock = some m') (u : τ) :
    m.access u ≠ .write := by
  obtain ⟨hwriter, _⟩ := Option.ite_none_right_eq_some.mp h
  rw [ne_eq, access_eq_write, hwriter]
  simp

theorem access_ne_write_of_read (h : m.access t = .read) (u : τ) : m.access u ≠ .write := by
  intro hu
  by_cases htu : t = u
  · subst htu
    rw [h] at hu
    cases hu
  · rw [access_eq_none_of_write hu htu] at h
    cases h

theorem perform_access_self (hmoves : op.Moves a b) (ha : m.access t = a)
    (h : m.perform t op = some m') : m'.access t = b := by
  cases op with
  | none =>
    cases h
    exact ha.trans hmoves
  | lock =>
    obtain ⟨_, heq⟩ := Option.ite_none_right_eq_some.mp h
    cases heq
    simp [access, hmoves.2]
  | unlock =>
    have hwriter := access_eq_write.mp (ha.trans hmoves.1)
    have hreaders : m.readers = ∅ := m.exclusive (by simp [hwriter])
    cases h
    simp [access, unlock, hreaders, hmoves.2]
  | rLock =>
    obtain ⟨_, heq⟩ := Option.ite_none_right_eq_some.mp h
    cases heq
    simp [access, hmoves.2]
  | rUnlock =>
    have hwriter : m.writer ≠ some t :=
      fun hw => access_ne_write_of_read (ha.trans hmoves.1) t (access_eq_write.mpr hw)
    cases h
    simp [access, rUnlock, hwriter, hmoves.2]

theorem perform_access_of_ne (hmoves : op.Moves a b) (ha : m.access t = a)
    (h : m.perform t op = some m') (hu : u ≠ t) : m'.access u = m.access u := by
  cases op with
  | none =>
    cases h
    rfl
  | lock =>
    rw [access_eq_none_of_lock h u]
    obtain ⟨_, heq⟩ := Option.ite_none_right_eq_some.mp h
    cases heq
    simp [access, hu.symm]
  | unlock =>
    have hwriter := access_eq_write.mp (ha.trans hmoves.1)
    have hreaders : m.readers = ∅ := m.exclusive (by simp [hwriter])
    cases h
    simp [access, unlock, hwriter, hreaders, hu.symm]
  | rLock =>
    obtain ⟨hwriter, heq⟩ := Option.ite_none_right_eq_some.mp h
    cases heq
    simp [access, hwriter, hu]
  | rUnlock =>
    cases h
    simp [access, rUnlock, hu]

/-- A thread that has the lock for itself gets what it asks for. -/
theorem perform_only (hmoves : op.Moves a b) : (only t a).perform t op = some (only t b) := by
  cases op with
  | none =>
    cases hmoves
    rfl
  | lock =>
    obtain ⟨rfl, rfl⟩ := hmoves
    simp [perform, only, free, lock]
  | unlock =>
    obtain ⟨rfl, rfl⟩ := hmoves
    rfl
  | rLock =>
    obtain ⟨rfl, rfl⟩ := hmoves
    simp [perform, only, free, rLock]
  | rUnlock =>
    obtain ⟨rfl, rfl⟩ := hmoves
    simp [perform, only, free, rUnlock]

end RWMutex
end SshClientWasm.Library
