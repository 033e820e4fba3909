import SshClientWasm.Library.Pipe

/-!
# Channels that can be closed

A buffered channel behind a variable that may be nil. A send on nil never
proceeds, a send on a closed channel and a close of a closed or nil channel panic,
and a receive from a closed channel ends when the buffer is empty.
-/
namespace SshClientWasm.Library

structure Channel (α : Type*) (cap : ℕ) where
  buffer : BoundedQueue α cap
  closed : Bool

/-- What becomes of an operation that does not wait. -/
inductive Attempt (γ : Type*)
  | blocks
  | panics
  | proceeds (c : γ)

/-- What becomes of a receive. -/
inductive Received (α γ : Type*)
  | blocks
  | ended
  | item (x : α) (c : γ)

namespace Channel

variable {α : Type*} {cap : ℕ}

/-- `make`. -/
def make : Channel α cap := ⟨.empty, false⟩

def send (ref : Option (Channel α cap)) (x : α) : Attempt (Channel α cap) :=
  match ref with
  | none => .blocks
  | some c =>
    if c.closed then .panics
    else
      match c.buffer.trySend x with
      | none => .blocks
      | some buffer => .proceeds { c with buffer := buffer }

def close (ref : Option (Channel α cap)) : Attempt (Channel α cap) :=
  match ref with
  | none => .panics
  | some c => if c.closed then .panics else .proceeds { c with closed := true }

def recv (c : Channel α cap) : Received α (Channel α cap) :=
  match c.buffer.recv with
  | some (x, buffer) => .item x { c with buffer := buffer }
  | none => if c.closed then .ended else .blocks

variable {ref : Option (Channel α cap)} {c c' : Channel α cap} {x : α}

theorem send_ne_panics (h : ∀ c, ref = some c → c.closed = false) : send ref x ≠ .panics := by
  cases ref with
  | none => simp [send]
  | some c =>
    rw [send, h c rfl]
    simp only [Bool.false_eq_true, if_false]
    cases c.buffer.trySend x <;> simp

theorem send_proceeds (h : send ref x = .proceeds c') :
    ∃ c, ref = some c ∧ c'.closed = c.closed := by
  cases ref with
  | none => cases h
  | some c =>
    simp only [send] at h
    split at h
    · cases h
    · split at h
      · cases h
      · cases h
        exact ⟨c, rfl, rfl⟩

/-- What is sent comes last, what is received was first. -/
theorem send_items (h : send ref x = .proceeds c') :
    ∃ c, ref = some c ∧ c'.buffer.items = c.buffer.items ++ [x] := by
  cases ref with
  | none => cases h
  | some c =>
    simp only [send] at h
    split at h
    · cases h
    · split at h
      · cases h
      · next hsend =>
        cases h
        exact ⟨c, rfl, (BoundedQueue.trySend_eq_some hsend).2⟩

theorem recv_items (h : c.recv = .item x c') : c.buffer.items = x :: c'.buffer.items := by
  unfold recv at h
  split at h
  next hrecv =>
    cases h
    exact BoundedQueue.recv_eq_some hrecv
  next => split at h <;> cases h

theorem recv_closed (h : c.recv = .item x c') : c'.closed = c.closed := by
  unfold recv at h
  split at h
  · cases h
    rfl
  · split at h <;> cases h

end Channel
end SshClientWasm.Library
