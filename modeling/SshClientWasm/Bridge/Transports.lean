import SshClientWasm.Bridge.Manager

/-!
# Many transports at work

The steps that concern transports, in any order and for any number of objects:
creation, `connect()`, traffic in both directions, `Close` in Go, `closeTransport` of
the manager with its `await`, and `disconnect()` called by anybody else. A
`disconnect()` runs the teardown that the user has supplied; that it settles is a step of
its own.
-/
namespace SshClientWasm.Bridge

open Library

/-- A `closeTransport` call, with the `JSTransport` of its object when it was made. -/
structure Closing where
  id : String
  place : Option ℕ

/-- A `disconnect()` that has not settled, and the `closeTransport` that awaits it. -/
structure Teardown (ι : Type*) where
  object : ι
  awaits : Option Closing

inductive Move (ι : Type*)
  | createTransport (i : ι)
  | connect (i : ι)
  | onData (i : ι) (data : Bytes)
  | read (k len : ℕ) (arm : Arm)
  | write (k : ℕ) (p : Bytes)
  | close (k : ℕ)
  | closeTransport (id : String)
  | disconnect (i : ι)
  | settle (c : ℕ) (resolves : Bool)
  deriving DecidableEq, Repr

/-- The manager, what was passed to `send` of each object, the pending `disconnect()`
calls, and for each object how often `connect()` has resolved, how often
`disconnect()` has run its teardown and how often its `onClose` was notified. -/
structure Transports (ι : Type*) (idOf : ι → String) where
  manager : Manager ι idOf
  sent : ι → List Bytes
  pending : List (Teardown ι)
  isConnected : ι → Bool
  connects : ι → ℕ
  teardowns : ι → ℕ
  notified : ι → ℕ

namespace Transports

variable {ι : Type*} {idOf : ι → String}

def start : Transports ι idOf where
  manager := .empty
  sent := fun _ => []
  pending := []
  isConnected := fun _ => false
  connects := fun _ => 0
  teardowns := fun _ => 0
  notified := fun _ => 0

section Steps

variable [DecidableEq ι] (s : Transports ι idOf)

/-- Count one more for an object. -/
def bump (f : ι → ℕ) (i : ι) : ι → ℕ := Function.update f i (f i + 1)

/-- A call of `disconnect()`. -/
def disconnect (i : ι) (awaits : Option Closing) : Transports ι idOf :=
  { s with
    pending := s.pending ++ [⟨i, awaits⟩]
    teardowns := bump s.teardowns i }

/-- What the manager did, and the object whose `disconnect()` it has called for Go. -/
def released (p : Manager ι idOf × Option ι) : Transports ι idOf :=
  match p with
  | (m, none) => { s with manager := m }
  | (m, some i) => { s with manager := m }.disconnect i none

/-- A `disconnect()` resolves: the object is disconnected and says so, and the
`closeTransport` that awaits it goes on. -/
def disconnected (d : Teardown ι) : Transports ι idOf :=
  let s' := { s with
    isConnected := Function.update s.isConnected d.object false
    notified := bump s.notified d.object }
  match d.awaits with
  | none => s'
  | some call => s'.released (s'.manager.closeTransport call.id)

/-- `closeTransport` up to its `await`, and the `disconnect()` that it awaits. -/
def startClosing (id : String) : Option (Transports ι idOf × Teardown ι) :=
  (s.manager.transports id).map fun i =>
    ({ s with teardowns := bump s.teardowns i }, ⟨i, some ⟨id, s.manager.place i⟩⟩)

def machine : Machine (Transports ι idOf) (Move ι) where
  step s
    | .createTransport i => some { s with manager := s.manager.createTransport i }
    | .connect i =>
      some { s with
        isConnected := Function.update s.isConnected i true
        connects := bump s.connects i }
    | .onData i data => some { s with manager := s.manager.onData i data }
    | .read k len arm =>
      (s.manager.wasm.heap[k]?).bind fun t =>
        if t.closed then some s
        else (t.readUnlocked len arm).map fun r => { s with manager := s.manager.set k r.1 }
    | .write k p =>
      (s.manager.wasm.heap[k]?).bind fun t =>
        (s.manager.owners[k]?).map fun i =>
          if t.closed then s else { s with sent := Function.update s.sent i (s.sent i ++ [p]) }
    | .close k => (s.manager.close k).map s.released
    | .closeTransport id =>
      match s.manager.transports id with
      | none => some s
      | some i => some (s.disconnect i (some ⟨id, s.manager.place i⟩))
    | .disconnect i => some (s.disconnect i none)
    | .settle c resolves =>
      (s.pending[c]?).map fun d =>
        let s' := { s with pending := s.pending.eraseIdx c }
        if resolves then s'.disconnected d else s'

end Steps

section Frames

variable [DecidableEq ι] (s : Transports ι idOf) (i : ι) (awaits : Option Closing)
  (p : Manager ι idOf × Option ι) (d : Teardown ι)

@[simp] theorem disconnect_manager : (s.disconnect i awaits).manager = s.manager := rfl

@[simp] theorem disconnect_sent : (s.disconnect i awaits).sent = s.sent := rfl

@[simp] theorem released_manager : (s.released p).manager = p.1 := by
  obtain ⟨m, _ | i⟩ := p <;> rfl

@[simp] theorem released_sent : (s.released p).sent = s.sent := by
  obtain ⟨m, _ | i⟩ := p <;> rfl

theorem disconnected_manager : (s.disconnected d).manager =
    d.awaits.elim s.manager fun call => (s.manager.closeTransport call.id).1 := by
  unfold disconnected
  cases d.awaits with
  | none => rfl
  | some call => exact released_manager ..

@[simp] theorem disconnected_sent : (s.disconnected d).sent = s.sent := by
  unfold disconnected
  cases d.awaits with
  | none => rfl
  | some call => exact released_sent ..

end Frames

/-- The object behind a `JSTransport` that is open. -/
def openOwner (s : Transports ι idOf) (k : ℕ) : Option ι :=
  if s.manager.isClosed k then none else s.manager.owners[k]?

/-- The object whose `disconnect()` a step calls: anybody may call it, `closeTransport`
calls that of the object it finds, and `Close` in Go that of the object behind a
`JSTransport` that is open, also at the end of a `closeTransport`. -/
def used (s : Transports ι idOf) : Move ι → Option ι
  | .disconnect i => some i
  | .close k => s.openOwner k
  | .closeTransport id => s.manager.transports id
  | .settle c true => (s.pending[c]?).bind fun d => d.awaits.bind fun call =>
      (s.manager.wasm.transports call.id).bind s.openOwner
  | _ => none

/-- A step that opens, closes and registers nothing. -/
structure Quiet (s s' : Transports ι idOf) : Prop where
  owners : s'.manager.owners = s.manager.owners
  place : s'.manager.place = s.manager.place
  registered : s'.manager.wasm.transports = s.manager.wasm.transports
  closed : ∀ k, s'.manager.isClosed k = s.manager.isClosed k
  pending : s'.pending = s.pending
  connects : s'.connects = s.connects
  teardowns : s'.teardowns = s.teardowns
  notified : s'.notified = s.notified

theorem Quiet.refl (s : Transports ι idOf) : Quiet s s :=
  ⟨rfl, rfl, rfl, fun _ => rfl, rfl, rfl, rfl, rfl⟩

variable [DecidableEq ι]

/-- What a step can do. -/
inductive Step (s : Transports ι idOf) : Move ι → Transports ι idOf → Prop
  | quiet (a s') (hsettle : ∀ c resolves, a ≠ .settle c resolves) (hconnect : ∀ i, a ≠ .connect i)
      (hused : s.used a = none) (h : Quiet s s') : Step s a s'
  | createTransport (i) :
      Step s (.createTransport i) { s with manager := s.manager.createTransport i }
  | connect (i) : Step s (.connect i)
      { s with
        isConnected := Function.update s.isConnected i true
        connects := bump s.connects i }
  | close (k m o) (h : s.manager.close k = some (m, o)) : Step s (.close k) (s.released (m, o))
  | closeTransport (id i) (h : s.manager.transports id = some i) :
      Step s (.closeTransport id) (s.disconnect i (some ⟨id, s.manager.place i⟩))
  | disconnect (i) : Step s (.disconnect i) (s.disconnect i none)
  | rejected (c d) (h : s.pending[c]? = some d) :
      Step s (.settle c false) { s with pending := s.pending.eraseIdx c }
  | resolved (c d) (h : s.pending[c]? = some d) :
      Step s (.settle c true) ({ s with pending := s.pending.eraseIdx c }.disconnected d)

variable {s s' : Transports ι idOf} {a : Move ι}

theorem step_cases (h : machine.step s a = some s') : Step s a s' := by
  cases a with
  | createTransport i =>
    cases h
    exact .createTransport i
  | connect i =>
    cases h
    exact .connect i
  | onData i data =>
    cases h
    obtain ⟨howners, hplace, hregistered, hclosed⟩ := s.manager.onData_frame i data
    exact .quiet _ _ (by simp) (by simp) rfl
      ⟨howners, hplace, hregistered, hclosed, rfl, rfl, rfl, rfl⟩
  | read k len arm =>
    obtain ⟨t, ht, h⟩ := Option.bind_eq_some_iff.mp h
    split_ifs at h
    · cases h
      exact .quiet _ _ (by simp) (by simp) rfl (.refl s)
    · obtain ⟨⟨t', bytes, err⟩, hread, rfl⟩ := Option.map_eq_some_iff.mp h
      have hsame := congrArg Prod.fst (JSTransport.readUnlocked_shut hread)
      exact .quiet _ _ (by simp) (by simp) rfl
        ⟨rfl, rfl, rfl, Manager.set_isClosed_same ht hsame, rfl, rfl, rfl, rfl⟩
  | write k p =>
    obtain ⟨t, _, h⟩ := Option.bind_eq_some_iff.mp h
    obtain ⟨i, _, rfl⟩ := Option.map_eq_some_iff.mp h
    split_ifs
    · exact .quiet _ _ (by simp) (by simp) rfl (.refl s)
    · exact .quiet _ _ (by simp) (by simp) rfl
        ⟨rfl, rfl, rfl, fun _ => rfl, rfl, rfl, rfl, rfl⟩
  | close k =>
    obtain ⟨⟨m, o⟩, hclose, rfl⟩ := Option.map_eq_some_iff.mp h
    exact .close k m o hclose
  | closeTransport id =>
    cases hfound : s.manager.transports id with
    | none =>
      simp only [machine, hfound] at h
      cases h
      exact .quiet _ _ (by simp) (by simp) hfound (.refl s)
    | some i =>
      simp only [machine, hfound] at h
      cases h
      exact .closeTransport id i hfound
  | disconnect i =>
    cases h
    exact .disconnect i
  | settle c resolves =>
    obtain ⟨d, hd, rfl⟩ := Option.map_eq_some_iff.mp h
    cases resolves with
    | true => exact .resolved c d hd
    | false => exact .rejected c d hd

theorem Step.owners (h : Step s a s') {k : ℕ} {i : ι} (hk : s.manager.owners[k]? = some i) :
    s'.manager.owners[k]? = some i := by
  cases h with
  | quiet _ _ _ _ _ hq => rwa [hq.owners]
  | createTransport j =>
    exact (List.getElem?_append_left (List.getElem?_eq_some_iff.mp hk).1).trans hk
  | close j m o hclose =>
    rw [released_manager, (Manager.close_eq_some hclose).1]
    exact hk
  | connect | closeTransport | disconnect | rejected => exact hk
  | resolved c d hd =>
    rw [disconnected_manager]
    cases d.awaits <;> exact hk

end Transports
end SshClientWasm.Bridge
