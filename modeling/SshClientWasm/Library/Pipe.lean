import Mathlib.Data.List.Infix
import Mathlib.Logic.Relation
import Mathlib.Tactic

/-!
# Bounded queues and ordered pipes

`BoundedQueue` is a buffered channel with its capacity as an invariant: a send
that finds no room is refused, a receive takes the oldest item. `Pipe` is the
specification of an ordered byte stream. What was delivered followed by what is
still pending is always a prefix of what was offered; after something offered
has been lost the pipe may deliver what it holds but accepts nothing more.
-/
namespace SshClientWasm.Library

/-- A first-in first-out buffer of at most `cap` items. -/
@[ext] structure BoundedQueue (α : Type*) (cap : ℕ) where
  items : List α
  bounded : items.length ≤ cap

namespace BoundedQueue

variable {α : Type*} {cap : ℕ}

def empty : BoundedQueue α cap := ⟨[], Nat.zero_le _⟩

/-- A send that does not wait: `none` when every slot is taken. -/
def trySend (q : BoundedQueue α cap) (x : α) : Option (BoundedQueue α cap) :=
  if h : q.items.length < cap then
    some ⟨q.items ++ [x], by rw [List.length_append]; exact h⟩
  else none

/-- The oldest item and the queue without it; `none` when there is nothing to receive. -/
def recv (q : BoundedQueue α cap) : Option (α × BoundedQueue α cap) :=
  match q with
  | ⟨[], _⟩ => none
  | ⟨x :: rest, h⟩ => some (x, ⟨rest, (Nat.le_succ _).trans h⟩)

theorem trySend_eq_some {q q' : BoundedQueue α cap} {x : α} (h : q.trySend x = some q') :
    q.items.length < cap ∧ q'.items = q.items ++ [x] := by
  unfold trySend at h
  split_ifs at h with hroom
  cases h
  exact ⟨hroom, rfl⟩

theorem trySend_eq_none {q : BoundedQueue α cap} {x : α} :
    q.trySend x = none ↔ q.items.length = cap := by
  have hb := q.bounded
  unfold trySend
  split_ifs with hroom
  · simp only [false_iff]
    omega
  · simp only [true_iff]
    omega

theorem recv_eq_some {q q' : BoundedQueue α cap} {x : α} (h : q.recv = some (x, q')) :
    q.items = x :: q'.items := by
  obtain ⟨items, hb⟩ := q
  cases items with
  | nil => cases h
  | cons y rest =>
    cases h
    rfl

end BoundedQueue

/-- The history of an ordered stream: what was offered to it, what it has
delivered, and what it has accepted and not delivered yet. -/
structure Pipe (α : Type*) where
  offered : List α
  delivered : List α
  pending : List α
  ordered : delivered ++ pending <+: offered

namespace Pipe

variable {α : Type*}

def empty : Pipe α := ⟨[], [], [], List.prefix_rfl⟩

/-- Nothing offered so far is missing. -/
def Gapless (p : Pipe α) : Prop := p.delivered ++ p.pending = p.offered

theorem empty_gapless : (empty : Pipe α).Gapless := rfl

/-- Take in what is offered, behind everything pending. -/
def accept (p : Pipe α) (h : p.Gapless) (xs : List α) : Pipe α where
  offered := p.offered ++ xs
  delivered := p.delivered
  pending := p.pending ++ xs
  ordered := by
    rw [← List.append_assoc, show p.delivered ++ p.pending = p.offered from h]

/-- Turn down what is offered. -/
def refuse (p : Pipe α) (xs : List α) : Pipe α where
  offered := p.offered ++ xs
  delivered := p.delivered
  pending := p.pending
  ordered := p.ordered.trans (List.prefix_append _ _)

/-- Hand over the front of what is pending. -/
def deliver (p : Pipe α) (front back : List α) (h : p.pending = front ++ back) : Pipe α where
  offered := p.offered
  delivered := p.delivered ++ front
  pending := back
  ordered := by
    rw [List.append_assoc, ← h]
    exact p.ordered

/-- Lose what is pending. -/
def discard (p : Pipe α) : Pipe α where
  offered := p.offered
  delivered := p.delivered
  pending := []
  ordered := by
    rw [List.append_nil]
    exact (List.prefix_append _ _).trans p.ordered

theorem accept_gapless (p : Pipe α) (h : p.Gapless) (xs : List α) : (p.accept h xs).Gapless := by
  unfold Gapless accept
  rw [← List.append_assoc, show p.delivered ++ p.pending = p.offered from h]

theorem deliver_gapless (p : Pipe α) {front back : List α} (h : p.pending = front ++ back)
    (hg : p.Gapless) : (p.deliver front back h).Gapless := by
  unfold Gapless deliver
  rw [List.append_assoc, ← h]
  exact hg

/-- One step of the ordered pipe. Only a pipe without a gap accepts. -/
inductive Step : Pipe α → Pipe α → Prop
  | accept (p : Pipe α) (h : p.Gapless) (xs : List α) : Step p (p.accept h xs)
  | refuse (p : Pipe α) (xs : List α) : Step p (p.refuse xs)
  | deliver (p : Pipe α) (front back : List α) (h : p.pending = front ++ back) :
      Step p (p.deliver front back h)
  | discard (p : Pipe α) : Step p p.discard

/-- Whatever the pipe has delivered is a prefix of what it was offered. -/
theorem delivered_prefix (p : Pipe α) : p.delivered <+: p.offered :=
  (List.prefix_append _ _).trans p.ordered

end Pipe
end SshClientWasm.Library
