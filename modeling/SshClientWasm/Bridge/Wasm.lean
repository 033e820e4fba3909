import SshClientWasm.Bridge.JSTransport

/-!
# The Go registry of transports

The `JSTransport` objects the program has created, and the map of the Go
`TransportManager` from ids to them. Every id in the map refers to an object
that exists. The exported functions return a promise; what it settles to is
their second result.
-/
namespace SshClientWasm.Bridge

open Library

/-- The objects in the order of their creation, and the map of registered ids. -/
structure Wasm where
  heap : List JSTransport
  transports : String → Option ℕ
  valid : ∀ id k, transports id = some k → k < heap.length

namespace Wasm

def empty : Wasm := ⟨[], fun _ => none, by simp⟩

variable (w : Wasm)

/-- `GetTransport`, with the place of the object. -/
def getTransport (id : String) : Option (ℕ × JSTransport) :=
  (w.transports id).bind fun k => (w.heap[k]?).map fun t => (k, t)

/-- Replace the object at a place by what a method made of it. -/
def set (k : ℕ) (t : JSTransport) : Wasm where
  heap := w.heap.set k t
  transports := w.transports
  valid := by
    intro id j h
    rw [List.length_set]
    exact w.valid id j h

/-- `RemoveTransport`. -/
def removeTransport (id : String) : Wasm where
  heap := w.heap
  transports := fun id' => if id' = id then none else w.transports id'
  valid := by
    intro id' k h
    split_ifs at h
    exact w.valid id' k h

/-- `createTransport`: a new object, registered in place of an older one. -/
def createTransport (id : String) : Wasm where
  heap := w.heap ++ [.new id]
  transports := fun id' => if id' = id then some w.heap.length else w.transports id'
  valid := by
    intro id' k h
    rw [List.length_append, List.length_singleton]
    split_ifs at h
    · cases h
      exact Nat.lt_succ_self _
    · exact (w.valid id' k h).trans (Nat.lt_succ_self _)

/-- `injectTransportData`. -/
def injectTransportData (id : String) (data : Bytes) : Wasm × Except String Unit :=
  match w.getTransport id with
  | none => (w, .error "transport not found")
  | some (k, t) =>
    match t.injectData data with
    | (t', none) => (w.set k t', .ok ())
    | (t', some err) => (w.set k t', .error err)

/-- `closeTransport`, where `onClose` returns nil: the place of the object on
which `onClose` was called, and the promise. -/
def closeTransport (id : String) : Wasm × Option ℕ × Except String Unit :=
  match w.getTransport id with
  | none => (w, none, .error "transport not found")
  | some (k, t) =>
    match t.closeLocked with
    | (_, false) => (w.removeTransport id, none, .ok ())
    | (t', true) => ((w.set k t'.closeChan).removeTransport id, some k, .ok ())

variable {w} {id : String} {k : ℕ} {t : JSTransport} {data : Bytes}

theorem getTransport_eq_some :
    w.getTransport id = some (k, t) ↔ w.transports id = some k ∧ w.heap[k]? = some t := by
  simp only [getTransport, Option.bind_eq_some_iff, Option.map_eq_some_iff, Prod.mk.injEq]
  constructor
  · rintro ⟨k', hk, t', ht, rfl, rfl⟩
    exact ⟨hk, ht⟩
  · rintro ⟨hk, ht⟩
    exact ⟨k, hk, t, ht, rfl, rfl⟩

theorem createTransport_getTransport :
    (w.createTransport id).getTransport id = some (w.heap.length, .new id) := by
  rw [getTransport_eq_some]
  simp [createTransport]

theorem set_getTransport (h : w.getTransport id = some (k, t)) (t' : JSTransport) :
    (w.set k t').getTransport id = some (k, t') := by
  obtain ⟨hk, _⟩ := getTransport_eq_some.mp h
  rw [getTransport_eq_some]
  exact ⟨hk, List.getElem?_set_self (w.valid id k hk)⟩

theorem injectTransportData_eq (h : w.getTransport id = some (k, t)) :
    (w.injectTransportData id data).1 = w.set k (t.injectData data).1 := by
  unfold injectTransportData
  rw [h]
  dsimp only
  split <;> simp_all

/-- Whether an object and its `closeChan` are closed. -/
def shutAt (w : Wasm) (k : ℕ) : Option (Bool × Bool) := (w.heap[k]?).map (·.shut)

theorem set_shutAt (h : w.heap[k]? = some t) (t' : JSTransport) (j : ℕ) :
    (w.set k t').shutAt j = if j = k then some t'.shut else w.shutAt j := by
  have hk : k < w.heap.length := (List.getElem?_eq_some_iff.mp h).1
  by_cases hj : j = k
  · subst hj
    simp [shutAt, set, hk]
  · rw [if_neg hj, shutAt, shutAt, set, List.getElem?_set_ne (Ne.symm hj)]

theorem set_shutAt_same (h : w.heap[k]? = some t) {t' : JSTransport} (ht : t'.shut = t.shut)
    (j : ℕ) : (w.set k t').shutAt j = w.shutAt j := by
  rw [set_shutAt h]
  split_ifs with hj
  · rw [hj, shutAt, h, ht]
    rfl
  · rfl

theorem injectTransportData_frame (w : Wasm) (id : String) (data : Bytes) :
    (w.injectTransportData id data).1.transports = w.transports ∧
      (w.injectTransportData id data).1.heap.length = w.heap.length ∧
      ∀ j, (w.injectTransportData id data).1.shutAt j = w.shutAt j := by
  cases h : w.getTransport id with
  | none =>
    simp [injectTransportData, h]
  | some p =>
    obtain ⟨k, t⟩ := p
    rw [injectTransportData_eq h]
    refine ⟨rfl, List.length_set, ?_⟩
    exact set_shutAt_same (getTransport_eq_some.mp h).2 t.injectData_shut

theorem closeTransport_of_registered (h : w.getTransport id = some (k, t))
    (hshut : t.shut = (true, true) ∨ t.shut = (false, false)) :
    (w.closeTransport id).1.shutAt k = some (true, true) ∧
      (w.closeTransport id).1.transports id = none ∧
      (w.closeTransport id).1.heap.length = w.heap.length := by
  have hheap := (getTransport_eq_some.mp h).2
  rcases t.closeLocked_cases with ⟨hclosed, hclose⟩ | ⟨_, hclose⟩
  · have hshut' : t.shut = (true, true) := by
      rcases hshut with hshut | hshut
      · exact hshut
      · rw [(Prod.mk.inj hshut).1] at hclosed
        cases hclosed
    simp [closeTransport, h, hclose, shutAt, removeTransport, hheap, hshut']
  · have hk : k < w.heap.length := (List.getElem?_eq_some_iff.mp hheap).1
    simp [closeTransport, h, hclose, shutAt, removeTransport, set, hk, JSTransport.closeChan,
      JSTransport.shut]

/-- What `closeTransport` does: nothing for an id that is not registered, and otherwise
it closes the object under the id, unless that is closed, and frees the id. -/
theorem closeTransport_cases (w : Wasm) (id : String) :
    (w.transports id = none ∧ w.closeTransport id = (w, none, .error "transport not found")) ∨
    ∃ k t, w.transports id = some k ∧ w.heap[k]? = some t ∧
      (t.closed = true ∧ w.closeTransport id = (w.removeTransport id, none, .ok ()) ∨
        t.closed = false ∧ w.closeTransport id =
          ((w.set k { t with closed := true }.closeChan).removeTransport id, some k, .ok ())) := by
  cases hget : w.getTransport id with
  | none =>
    left
    refine ⟨?_, by simp [closeTransport, hget]⟩
    cases hk : w.transports id with
    | none => rfl
    | some k =>
      have hlt : k < w.heap.length := w.valid id k hk
      simp [getTransport, hk, hlt] at hget
  | some p =>
    obtain ⟨k, t⟩ := p
    obtain ⟨hk, ht⟩ := getTransport_eq_some.mp hget
    refine Or.inr ⟨k, t, hk, ht, ?_⟩
    rcases t.closeLocked_cases with ⟨hclosed, hclose⟩ | ⟨hopen, hclose⟩
    · exact Or.inl ⟨hclosed, by simp [closeTransport, hget, hclose]⟩
    · exact Or.inr ⟨hopen, by simp [closeTransport, hget, hclose]⟩

theorem closeTransport_frame (w : Wasm) (id : String) :
    (w.closeTransport id).1.transports = (fun id' => if id' = id then none else w.transports id') ∧
      (w.closeTransport id).1.heap.length = w.heap.length := by
  rcases w.closeTransport_cases id with ⟨hfree, hclose⟩ | ⟨k, t, _, _, ⟨_, hclose⟩ | ⟨_, hclose⟩⟩
  · rw [hclose]
    refine ⟨?_, rfl⟩
    funext id'
    by_cases hid : id' = id
    · rw [if_pos hid, hid, hfree]
    · rw [if_neg hid]
  · rw [hclose]
    exact ⟨rfl, rfl⟩
  · rw [hclose]
    exact ⟨rfl, List.length_set ..⟩

end Wasm
end SshClientWasm.Bridge
