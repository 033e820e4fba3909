import SshClientWasm.Bridge.JSTransport
import SshClientWasm.Library.Machine
import SshClientWasm.Library.Outbox

/-!
# Outbound bytes from the SSH writer to the JS transport

`Write` passes its data to `onWrite`, as `TransportManager.createTransport` sets it.
That starts a `send` of the transport and returns, so `Write` has reported success
before the `send` settles. A rejection goes to `onError` of the transport and to
nobody else.
-/
namespace SshClientWasm.Bridge

open Library

/-- A `Write` of the Go side, a `send` that settles, or a `Close`. -/
inductive Departure
  | write (p : Bytes)
  | settle (i : ℕ) (resolves : Bool)
  | close
  deriving DecidableEq, Repr

/-- The `JSTransport`, whether the JS transport has an `onError`, what was passed to
`send`, the data of the `Write` calls that returned their length and nil, and the
calls of `onError`. -/
structure Outbound where
  transport : JSTransport
  onError : Bool
  sends : Outbox UInt8
  written : List Bytes
  errors : ℕ

/-- `writeFunc` of the exported `createTransport`: nil, whatever `onWrite` does. -/
def writeFunc (_ : Bytes) : Option String := none

namespace Outbound

/-- After `createTransport`. -/
def start (id : String) (onError : Bool) : Outbound := ⟨.new id, onError, [], [], 0⟩

def machine : Machine Outbound Departure where
  step s
    | .write p =>
      match s.transport.check "transport closed", s.transport.write writeFunc p with
      | none, (_, none) => some { s with sends := s.sends.post p, written := s.written ++ [p] }
      | none, (_, some _) => some { s with sends := s.sends.post p }
      | some _, _ => some s
    | .settle i resolves =>
      (s.sends.settle i resolves).map fun sends =>
        { s with
          sends := sends
          errors := if resolves = false ∧ s.onError = true then s.errors + 1 else s.errors }
    | .close =>
      match s.transport.closeLocked with
      | (_, false) => some s
      | (t, true) => some { s with transport := t.closeChan }

/-- What the transport has sent is the front of what `Write` reported as written, and
no `Write` is both reported and sent behind one that is not. -/
def Sound (s : Outbound) : Prop :=
  s.sends.resolved <+: s.written.flatten ∧ s.sends.Unmasked

/-- A `send` resolves only when those before it have, where data were to be sent. -/
def InTurn (s : Outbound) : Departure → Prop
  | .settle i true => s.sends.Next i
  | _ => True

variable {s s' : Outbound} {a : Departure}

theorem step_cases (h : machine.step s a = some s') :
    (∃ p, a = .write p ∧ s'.sends = s.sends.post p ∧ s'.written = s.written ++ [p]) ∨
    (∃ i resolves, a = .settle i resolves ∧ s.sends.settle i resolves = some s'.sends ∧
      s'.written = s.written) ∨
    (¬ ∃ i resolves, a = .settle i resolves) ∧ s'.sends = s.sends ∧ s'.written = s.written := by
  cases a with
  | write p =>
    by_cases hclosed : s.transport.closed
    · simp only [machine, JSTransport.check, hclosed, if_true] at h
      cases h
      exact Or.inr (Or.inr ⟨by simp, rfl, rfl⟩)
    · simp only [machine, JSTransport.check, JSTransport.write, hclosed, writeFunc] at h
      cases h
      exact Or.inl ⟨p, rfl, rfl, rfl⟩
  | settle i resolves =>
    obtain ⟨sends, hsettle, rfl⟩ := Option.map_eq_some_iff.mp h
    exact Or.inr (Or.inl ⟨i, resolves, rfl, hsettle, rfl⟩)
  | close =>
    rcases s.transport.closeLocked_cases with ⟨_, hclose⟩ | ⟨_, hclose⟩
    · simp only [machine, hclose] at h
      cases h
      exact Or.inr (Or.inr ⟨by simp, rfl, rfl⟩)
    · simp only [machine, hclose] at h
      cases h
      exact Or.inr (Or.inr ⟨by simp, rfl, rfl⟩)

theorem step_posted (hs : s.sends.posted = s.written.flatten)
    (h : machine.step s a = some s') : s'.sends.posted = s'.written.flatten := by
  rcases step_cases h with ⟨p, _, hsends, hwritten⟩ | ⟨i, resolves, _, hsettle, hwritten⟩ |
    ⟨_, hsends, hwritten⟩
  · rw [hsends, hwritten, Outbox.posted, Outbox.post, List.map_append, List.flatten_append,
      List.flatten_append, ← hs]
    rfl
  · obtain ⟨front, x, back, hbefore, _, hafter⟩ := Outbox.settle_eq_some hsettle
    rw [hwritten, ← hs, hafter, hbefore]
    simp [Outbox.posted]
  · rw [hsends, hwritten, hs]

theorem sound_iff (hs : s.sends.posted = s.written.flatten) : s.Sound ↔ s.sends.Unmasked := by
  refine ⟨fun h => h.2, fun h => ⟨?_, h⟩⟩
  rw [← hs]
  exact h.resolved_prefix

/-- A step keeps what is sent the front of what is written exactly if no `send`
resolves out of turn in it. -/
theorem step_sound (hs : s.sends.posted = s.written.flatten) (hsound : s.Sound)
    (h : machine.step s a = some s') : s'.Sound ↔ s.InTurn a := by
  rw [sound_iff (step_posted hs h)]
  rcases step_cases h with ⟨p, rfl, hsends, _⟩ | ⟨i, resolves, rfl, hsettle, _⟩ |
    ⟨hother, hsends, _⟩
  · rw [hsends, Outbox.post_unmasked]
    exact iff_of_true hsound.2 trivial
  · rw [Outbox.settle_unmasked hsound.2 hsettle]
    cases resolves <;> simp [InTurn]
  · have hturn : s.InTurn a := by
      unfold InTurn
      split
      next i => exact absurd ⟨i, true, rfl⟩ hother
      next => trivial
    rw [hsends]
    exact iff_of_true hsound.2 hturn

/-- In every run of `Write` calls and of sends that settle in any order, what the
transport has sent is in every state the front of what was reported as written, and
no loss is masked, exactly if no `send` resolves while one before it is pending or
has been rejected. -/
theorem always_sound_iff (id : String) (onError : Bool) (labels : List Departure) (s : Outbound)
    (hrun : machine.run (start id onError) labels = some s) :
    machine.Always Sound (start id onError) labels ↔
      machine.Admits InTurn (start id onError) labels := by
  apply machine.always_iff_admits (I := fun s => s.sends.posted = s.written.flatten) _ _ labels
    (start id onError) s rfl _ hrun
  · exact fun s a t hs h => step_posted hs h
  · exact fun s a t hs hsound h => step_sound hs hsound h
  · exact (sound_iff rfl).mpr List.Pairwise.nil

/-- Two writes whose sends resolve in turn, and one that is rejected behind them. -/
theorem always_sound_inTurn :
    machine.Always Sound (start "t" false)
      [.write [1], .write [2, 3], .settle 0 true, .settle 1 true, .write [4], .settle 2 false] := by
  apply (always_sound_iff "t" false _ _ rfl).mpr
  refine ⟨trivial, fun _ h₁ => ⟨trivial, fun _ h₂ => ⟨?_, fun _ h₃ => ⟨?_, fun _ h₄ =>
    ⟨trivial, fun _ _ => ⟨trivial, fun _ _ => trivial⟩⟩⟩⟩⟩⟩
  · cases h₁
    cases h₂
    simp [InTurn, Outbox.Next]
  · cases h₁
    cases h₂
    cases h₃
    simp [InTurn, Outbox.Next, start, Outbox.post]

/-- The first `send` is rejected, the second one resolves: both writes are reported as
written, and only the second is sent. -/
theorem maskedSend_not_sound :
    ∃ s, machine.run (start "t" false)
        [.write [0], .write [1], .settle 0 false, .settle 1 true] = some s ∧
      s.written = [[0], [1]] ∧ s.sends.resolved = [1] ∧ s.errors = 0 ∧ ¬ s.Sound := by
  refine ⟨_, rfl, rfl, rfl, rfl, ?_⟩
  rintro ⟨hfront, _⟩
  exact absurd hfront (by decide)

end Outbound
end SshClientWasm.Bridge
