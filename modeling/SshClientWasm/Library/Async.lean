import Mathlib.Tactic

/-!
# Asynchronous functions

Such a function makes calls and in the end returns, throws or waits forever. A handler runs
behind a throw and a finalizer behind both ways to end, and neither behind an `await` that
never does.
-/
namespace SshClientWasm.Library

/-- The calls in their order, and how the function ended; `none` while it waits. -/
structure Async (κ ε α : Type*) where
  calls : List κ
  settled : Option (Except ε α)

namespace Async

variable {κ ε : Type*} {α β : Type u}

def call (k : κ) : Async κ ε Unit := ⟨[k], some (.ok ())⟩

/-- Wait for a promise that becomes what is given. -/
def await (p : Option (Except ε α)) : Async κ ε α := ⟨[], p⟩

def bind (x : Async κ ε α) (f : α → Async κ ε β) : Async κ ε β :=
  match x.settled with
  | none => ⟨x.calls, none⟩
  | some (.error e) => ⟨x.calls, some (.error e)⟩
  | some (.ok a) => ⟨x.calls ++ (f a).calls, (f a).settled⟩

def catchWith (x : Async κ ε α) (handler : ε → Async κ ε α) : Async κ ε α :=
  match x.settled with
  | some (.error e) => ⟨x.calls ++ (handler e).calls, (handler e).settled⟩
  | _ => x

/-- What the function throws, if it does. -/
def rejection (x : Async κ ε α) : Option ε :=
  match x.settled with
  | some (.error e) => some e
  | _ => none

/-- The finalizer decides how the whole ends unless it returns. -/
def finallyDo (x : Async κ ε α) (last : Async κ ε Unit) : Async κ ε α :=
  match x.settled with
  | none => x
  | some ending =>
    match last.settled with
    | none => ⟨x.calls ++ last.calls, none⟩
    | some (.error e) => ⟨x.calls ++ last.calls, some (.error e)⟩
    | some (.ok _) => ⟨x.calls ++ last.calls, some ending⟩

instance : Monad (Async κ ε) where
  pure a := ⟨[], some (.ok a)⟩
  bind := Async.bind

instance : MonadExcept ε (Async κ ε) where
  throw e := ⟨[], some (.error e)⟩
  tryCatch := catchWith

section Rules

variable (x : Async κ ε α) (f : α → Async κ ε β)

/-- A sequence ends as its first part does, unless that returns. -/
theorem bind_settled : (x >>= f).settled =
    match x.settled with
    | none => none
    | some (.error e) => some (.error e)
    | some (.ok a) => (f a).settled := by
  change (x.bind f).settled = _
  unfold bind
  cases x.settled with
  | none => rfl
  | some ending => cases ending <;> rfl

theorem bind_rejection : (x >>= f).rejection =
    match x.settled with
    | none => none
    | some (.error e) => some e
    | some (.ok a) => (f a).rejection := by
  rw [rejection, bind_settled]
  cases x.settled with
  | none => rfl
  | some ending => cases ending <;> rfl

theorem mem_calls_bind_left {k : κ} (h : k ∈ x.calls) : k ∈ (x >>= f).calls := by
  change k ∈ (x.bind f).calls
  unfold bind
  cases x.settled with
  | none => exact h
  | some ending =>
    cases ending with
    | error e => exact h
    | ok a => exact List.mem_append_left _ h

theorem mem_calls_bind_right {k : κ} {a : α} (ha : x.settled = some (.ok a))
    (h : k ∈ (f a).calls) : k ∈ (x >>= f).calls := by
  change k ∈ (x.bind f).calls
  unfold bind
  rw [ha]
  exact List.mem_append_right _ h

theorem rejection_eq_some {e : ε} : x.rejection = some e ↔ x.settled = some (.error e) := by
  unfold rejection
  rcases x.settled with _ | ⟨e' | a⟩
  · simp
  · simp
  · simp

theorem tryCatch_settled (handler : ε → Async κ ε α) : (tryCatch x handler).settled =
    match x.settled with
    | some (.error e) => (handler e).settled
    | ending => ending := by
  change (x.catchWith handler).settled = _
  unfold catchWith
  split
  · rfl
  · rfl

theorem tryCatch_rejection (handler : ε → Async κ ε α) : (tryCatch x handler).rejection =
    x.rejection.bind fun e => (handler e).rejection := by
  change (x.catchWith handler).rejection = _
  unfold catchWith rejection
  cases hx : x.settled with
  | none => simp only [hx, Option.bind_none]
  | some ending =>
    cases ending with
    | error e => rfl
    | ok a => simp only [hx, Option.bind_none]

theorem finallyDo_rejection (last : Async κ ε Unit) (h : last.rejection = none) :
    (x.finallyDo last).rejection = if last.settled.isNone then none else x.rejection := by
  unfold finallyDo rejection
  unfold rejection at h
  cases hx : x.settled with
  | none => simp [hx]
  | some ending =>
    cases hlast : last.settled with
    | none => rfl
    | some result =>
      cases result with
      | error e => simp [hlast] at h
      | ok a => rfl

end Rules
end Async
end SshClientWasm.Library
