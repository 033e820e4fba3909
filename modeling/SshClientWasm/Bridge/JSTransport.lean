import SshClientWasm.Library.Bytes
import SshClientWasm.Library.Pipe

/-!
# The Go side of a transport

`JSTransport` and its methods, cut at the critical sections of its mutex: what
a method does before it unlocks and what it does afterwards are separate
definitions, since other goroutines may run in between. The bytes a transport
holds are the rest of a partly read chunk and the chunks in the channel.
-/
namespace SshClientWasm.Bridge

open Library

/-- `JSTransport`. The zero-length channel `closeChan` is only ever closed. -/
structure JSTransport where
  id : String
  readBuffer : Bytes
  readChan : BoundedQueue Bytes 100
  closeChanClosed : Bool
  closed : Bool

/-- The arms of the `select` in `Read`. -/
inductive Arm
  | readChan
  | closeChan
  deriving DecidableEq, Repr

namespace JSTransport

/-- `NewJSTransport`. -/
def new (id : String) : JSTransport where
  id := id
  readBuffer := []
  readChan := .empty
  closeChanClosed := false
  closed := false

variable (t : JSTransport)

/-- The critical section of `Read`, `Write` and `InjectData`: fail once closed. -/
def check (err : String) : Option String := if t.closed then some err else none

/-- `Read` behind its critical section, for a buffer of length `len`: the bytes
it returns. It waits as long as the chosen arm of the `select` is not ready. -/
def readUnlocked (len : ℕ) (arm : Arm) : Option (JSTransport × Bytes × Option String) :=
  if t.readBuffer ≠ [] then
    some ({ t with readBuffer := t.readBuffer.drop len }, t.readBuffer.take len, none)
  else
    match arm with
    | .readChan =>
      t.readChan.recv.map fun (data, rest) =>
        ({ t with
            readChan := rest
            readBuffer := if len < data.length then data.drop len else t.readBuffer },
          data.take len, none)
    | .closeChan => if t.closeChanClosed then some (t, [], some "EOF") else none

/-- `InjectData` behind its critical section: a send that does not block. -/
def injectUnlocked (data : Bytes) : JSTransport × Option String :=
  match t.readChan.trySend data with
  | some q => ({ t with readChan := q }, none)
  | none => (t, some "read buffer full")

/-- `InjectData` as a whole. -/
def injectData (data : Bytes) : JSTransport × Option String :=
  match t.check "transport closed" with
  | some err => (t, some err)
  | none => t.injectUnlocked data

/-- `Write`, with what `onWrite` returns for the data. -/
def write (onWrite : Bytes → Option String) (p : Bytes) : ℕ × Option String :=
  match t.check "transport closed" with
  | some err => (0, some err)
  | none =>
    match onWrite p with
    | some err => (0, some err)
    | none => (p.length, none)

/-- The critical section of `Close`; whether the rest of it runs. -/
def closeLocked : JSTransport × Bool :=
  if t.closed then (t, false) else ({ t with closed := true }, true)

/-- `close(t.closeChan)`. -/
def closeChan : JSTransport := { t with closeChanClosed := true }

/-- The bytes taken in and not returned yet, in order. -/
def pending : Bytes := t.readBuffer ++ t.readChan.items.flatten

/-- `closed` and whether `closeChan` is closed. -/
def shut : Bool × Bool := (t.closed, t.closeChanClosed)

variable {t} {t' : JSTransport} {len : ℕ} {arm : Arm} {data bytes : Bytes} {err : Option String}

/-- A `Read` takes what it returns off the front of the pending bytes. -/
theorem readUnlocked_pending (h : t.readUnlocked len arm = some (t', bytes, err)) :
    bytes ++ t'.pending = t.pending := by
  by_cases hbuffer : t.readBuffer = []
  · cases arm with
    | readChan =>
      simp only [readUnlocked, hbuffer, ne_eq, not_true_eq_false, if_false] at h
      obtain ⟨⟨chunk, rest⟩, hrecv, hread⟩ := Option.map_eq_some_iff.mp h
      cases hread
      have hitems := BoundedQueue.recv_eq_some hrecv
      by_cases hlen : len < chunk.length
      · simp [pending, hitems, hbuffer, hlen, ← List.append_assoc]
      · simp [pending, hitems, hbuffer, hlen, List.take_of_length_le (Nat.le_of_not_lt hlen)]
    | closeChan =>
      simp only [readUnlocked, hbuffer, ne_eq, not_true_eq_false, if_false] at h
      obtain ⟨_, hread⟩ := Option.ite_none_right_eq_some.mp h
      cases hread
      rfl
  · simp only [readUnlocked, ne_eq, hbuffer, not_false_eq_true, if_true] at h
    cases h
    simp only [pending, ← List.append_assoc, List.take_append_drop]

theorem readUnlocked_shut (h : t.readUnlocked len arm = some (t', bytes, err)) :
    t'.shut = t.shut := by
  unfold readUnlocked at h
  split at h
  · cases h
    rfl
  · cases arm with
    | readChan =>
      obtain ⟨_, _, hread⟩ := Option.map_eq_some_iff.mp h
      cases hread
      rfl
    | closeChan =>
      obtain ⟨_, hread⟩ := Option.ite_none_right_eq_some.mp h
      cases hread
      rfl

theorem closeLocked_cases :
    t.closed = true ∧ t.closeLocked = (t, false) ∨
      t.closed = false ∧ t.closeLocked = ({ t with closed := true }, true) := by
  by_cases h : t.closed
  · exact Or.inl ⟨h, by simp [closeLocked, h]⟩
  · exact Or.inr ⟨by simpa using h, by simp [closeLocked, h]⟩

theorem injectUnlocked_cases (t : JSTransport) (data : Bytes) :
    (∃ q, t.readChan.trySend data = some q ∧
      t.injectUnlocked data = ({ t with readChan := q }, none) ∧
      ({ t with readChan := q } : JSTransport).pending = t.pending ++ data) ∨
    t.readChan.items.length = 100 ∧ t.injectUnlocked data = (t, some "read buffer full") := by
  cases hsend : t.readChan.trySend data with
  | some q =>
    refine Or.inl ⟨q, rfl, by simp [injectUnlocked, hsend], ?_⟩
    simp [pending, BoundedQueue.trySend_eq_some hsend]
  | none =>
    exact Or.inr ⟨BoundedQueue.trySend_eq_none.mp hsend, by simp [injectUnlocked, hsend]⟩

/-- Whether `InjectData` takes a chunk now. -/
def Takes (t : JSTransport) : Prop := t.closed = false ∧ t.readChan.items.length < 100

theorem injectData_eq_self (t : JSTransport) (data : Bytes) :
    (t.injectData data).1 = t ↔ ¬ t.Takes := by
  by_cases hclosed : t.closed = true
  · simp [injectData, check, Takes, hclosed]
  · have hinject : t.injectData data = t.injectUnlocked data := by
      simp [injectData, check, hclosed]
    rw [hinject]
    rcases t.injectUnlocked_cases data with ⟨q, hsend, heq, _⟩ | ⟨hfull, heq⟩
    · obtain ⟨hroom, hitems⟩ := BoundedQueue.trySend_eq_some hsend
      rw [heq]
      refine iff_of_false ?_ (not_not.mpr ⟨by simpa using hclosed, hroom⟩)
      intro hsame
      have hlength := congrArg (fun t : JSTransport => t.readChan.items.length) hsame
      simp [hitems] at hlength
    · rw [heq]
      apply iff_of_true rfl
      rintro ⟨_, hroom⟩
      omega

theorem injectData_shut (t : JSTransport) : (t.injectData data).1.shut = t.shut := by
  unfold injectData
  split
  · rfl
  · rcases t.injectUnlocked_cases data with ⟨q, _, hsend, _⟩ | ⟨_, hsend⟩
    · rw [hsend]
      rfl
    · rw [hsend]

/-- A transport that is shut fails every later `Read` and `Write`, and a `Read`
that found nothing to return and waits can return EOF. -/
theorem of_shut (h : t.shut = (true, true)) :
    t.check "EOF" = some "EOF" ∧
      (t.readBuffer = [] → ∀ len, t.readUnlocked len .closeChan = some (t, [], some "EOF")) ∧
      ∀ onWrite p, t.write onWrite p = (0, some "transport closed") := by
  obtain ⟨hclosed, hchan⟩ := Prod.mk.inj h
  refine ⟨by simp [check, hclosed], ?_, ?_⟩
  · intro hbuffer len
    simp [readUnlocked, hbuffer, hchan]
  · intro onWrite p
    simp [write, check, hclosed]

end JSTransport
end SshClientWasm.Bridge
