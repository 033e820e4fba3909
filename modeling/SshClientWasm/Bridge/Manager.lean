import SshClientWasm.Bridge.Inbound

/-!
# The manager of many transports

`TransportManager` with the Go program behind it, for any number of transport
objects, of which several may have the same id. A `JSTransport` is bound to the
object whose `createTransport` call has made it, by the callbacks it was given. Both
registries are keyed by the id, and refer to the same objects.
-/
namespace SshClientWasm.Bridge

open Library

/-- The Go side, the manager's map, the object behind each `JSTransport`, and the
`JSTransport` of the last `createTransport` call for each object. -/
structure Manager (ι : Type*) (idOf : ι → String) where
  wasm : Wasm
  transports : String → Option ι
  owners : List ι
  place : ι → Option ℕ
  owned : owners.length = wasm.heap.length
  placed : ∀ i k, place i = some k → owners[k]? = some i
  synced : ∀ id, transports id = (wasm.transports id).bind (owners[·]?)
  current : ∀ id k i, wasm.transports id = some k → owners[k]? = some i →
    idOf i = id ∧ place i = some k

namespace Manager

variable {ι : Type*} {idOf : ι → String}

/-- Before any transport was created. -/
def empty : Manager ι idOf where
  wasm := .empty
  transports := fun _ => none
  owners := []
  place := fun _ => none
  owned := rfl
  placed := by simp
  synced := by simp [Wasm.empty]
  current := by simp

variable (m : Manager ι idOf)

/-- Replace the `JSTransport` at a place by what a method made of it. -/
def set (k : ℕ) (t : JSTransport) : Manager ι idOf where
  wasm := m.wasm.set k t
  transports := m.transports
  owners := m.owners
  place := m.place
  owned := m.owned.trans (List.length_set ..).symm
  placed := m.placed
  synced := m.synced
  current := m.current

/-- `createTransport` for an object. -/
def createTransport [DecidableEq ι] (i : ι) : Manager ι idOf where
  wasm := m.wasm.createTransport (idOf i)
  transports := Function.update m.transports (idOf i) (some i)
  owners := m.owners ++ [i]
  place := Function.update m.place i (some m.wasm.heap.length)
  owned := by simp [Wasm.createTransport, m.owned]
  placed := by
    intro j k hplace
    by_cases hj : j = i
    · subst hj
      rw [Function.update_self] at hplace
      cases hplace
      rw [← m.owned]
      exact List.getElem?_concat_length
    · rw [Function.update_of_ne hj] at hplace
      have hk := m.placed j k hplace
      rwa [List.getElem?_append_left (List.getElem?_eq_some_iff.mp hk).1]
  synced := by
    intro id
    by_cases hid : id = idOf i
    · subst hid
      simp [Wasm.createTransport, ← m.owned]
    · rw [Function.update_of_ne hid, m.synced id]
      cases hk : m.wasm.transports id with
      | none => simp [Wasm.createTransport, hid, hk]
      | some k =>
        have hlt : k < m.owners.length := m.owned ▸ m.wasm.valid id k hk
        simp [Wasm.createTransport, hid, hk, List.getElem?_append_left hlt]
  current := by
    intro id k j hk hj
    by_cases hid : id = idOf i
    · subst hid
      simp only [Wasm.createTransport, if_true] at hk
      cases hk
      rw [← m.owned, List.getElem?_concat_length] at hj
      cases hj
      exact ⟨rfl, Function.update_self ..⟩
    · simp only [Wasm.createTransport, hid, if_false] at hk
      have hlt : k < m.owners.length := m.owned ▸ m.wasm.valid id k hk
      rw [List.getElem?_append_left hlt] at hj
      obtain ⟨hname, hplace⟩ := m.current id k j hk hj
      have hne : j ≠ i := by
        rintro rfl
        exact hid hname.symm
      exact ⟨hname, (Function.update_of_ne hne ..).trans hplace⟩

/-- `onData` of an object; it is set by the first `createTransport` for it. -/
def onData (i : ι) (data : Bytes) : Manager ι idOf :=
  match m.place i with
  | none => m
  | some _ =>
    match m.wasm.getTransport (idOf i) with
    | none => m
    | some (k, t) => m.set k (t.injectData data).1

/-- `Close` of the `JSTransport` at a place: its `onClose` calls `disconnect()` of the
object behind it. -/
def close (k : ℕ) : Option (Manager ι idOf × Option ι) :=
  (m.wasm.heap[k]?).map fun t =>
    match t.closeLocked with
    | (_, false) => (m, none)
    | (t', true) => (m.set k t'.closeChan, m.owners[k]?)

/-- The rest of `closeTransport` behind its `await`: that of Go, which closes what is
registered under the id now, and the removal from the map. -/
def closeTransport (id : String) : Manager ι idOf × Option ι :=
  ({ wasm := (m.wasm.closeTransport id).1
     transports := Function.update m.transports id none
     owners := m.owners
     place := m.place
     owned := m.owned.trans (m.wasm.closeTransport_frame id).2.symm
     placed := m.placed
     synced := by
       intro id'
       rw [(m.wasm.closeTransport_frame id).1]
       by_cases hid : id' = id
       · simp [hid]
       · simp [hid, m.synced id']
     current := by
       intro id' k i hk hi
       rw [(m.wasm.closeTransport_frame id).1] at hk
       by_cases hid : id' = id
       · simp [hid] at hk
       · simp only [hid, if_false] at hk
         exact m.current id' k i hk hi },
    (m.wasm.closeTransport id).2.1.bind (m.owners[·]?))

/-- Whether the `JSTransport` at a place is closed. -/
def isClosed (k : ℕ) : Bool := (m.wasm.heap[k]?).any (·.closed)

variable {m} {m' : Manager ι idOf} {i : ι} {o : Option ι} {id : String} {k : ℕ} {t : JSTransport}

theorem owner_of_registered (h : m.wasm.transports id = some k) :
    ∃ i, m.owners[k]? = some i ∧ m.transports id = some i := by
  have hlt : k < m.owners.length := m.owned ▸ m.wasm.valid id k h
  refine ⟨m.owners[k], List.getElem?_eq_getElem hlt, ?_⟩
  rw [m.synced id, h]
  exact List.getElem?_eq_getElem hlt

theorem registered_of_mapped (h : m.transports id = some i) :
    ∃ k, m.wasm.transports id = some k ∧ m.owners[k]? = some i ∧ idOf i = id ∧
      m.place i = some k := by
  rw [m.synced id] at h
  obtain ⟨k, hk, hi⟩ := Option.bind_eq_some_iff.mp h
  exact ⟨k, hk, hi, m.current id k i hk hi⟩

theorem set_isClosed (ht : m.wasm.heap[k]? = some t) (t' : JSTransport) (j : ℕ) :
    (m.set k t').isClosed j = if j = k then t'.closed else m.isClosed j := by
  obtain ⟨hlt, _⟩ := List.getElem?_eq_some_iff.mp ht
  by_cases hj : j = k
  · subst hj
    simp [isClosed, set, Wasm.set, hlt]
  · simp [isClosed, set, Wasm.set, hj, Ne.symm hj]

theorem set_isClosed_same (ht : m.wasm.heap[k]? = some t) {t' : JSTransport}
    (hsame : t'.closed = t.closed) (j : ℕ) : (m.set k t').isClosed j = m.isClosed j := by
  rw [set_isClosed ht]
  split_ifs with hj
  · rw [hj, hsame, isClosed, ht]
    rfl
  · rfl

theorem createTransport_isClosed [DecidableEq ι] (m : Manager ι idOf) (i : ι) (j : ℕ) :
    (m.createTransport i).isClosed j = m.isClosed j := by
  rcases Nat.lt_trichotomy j m.wasm.heap.length with hlt | rfl | hlt
  · simp [isClosed, createTransport, Wasm.createTransport, List.getElem?_append_left hlt]
  · simp [isClosed, createTransport, Wasm.createTransport, JSTransport.new]
  · have hout : (m.wasm.heap ++ [JSTransport.new (idOf i)])[j]? = none := by
      rw [List.getElem?_eq_none_iff, List.length_append]
      exact hlt
    simp [isClosed, createTransport, Wasm.createTransport, hout, hlt.le]

theorem close_eq_some (h : m.close k = some (m', o)) :
    m'.owners = m.owners ∧ m'.place = m.place ∧ m'.wasm.transports = m.wasm.transports ∧
      (∀ j, m'.isClosed j = (m.isClosed j || decide (j = k))) ∧
      o = if m.isClosed k then none else m.owners[k]? := by
  obtain ⟨t, ht, hclose⟩ := Option.map_eq_some_iff.mp h
  have hk : m.isClosed k = t.closed := by simp [isClosed, ht]
  rcases t.closeLocked_cases with ⟨hclosed, heq⟩ | ⟨hopen, heq⟩
  · rw [heq] at hclose
    cases hclose
    refine ⟨rfl, rfl, rfl, fun j => ?_, by simp [hk, hclosed]⟩
    by_cases hj : j = k
    · simp [hj, hk, hclosed]
    · simp [hj]
  · rw [heq] at hclose
    cases hclose
    refine ⟨rfl, rfl, rfl, fun j => ?_, by simp [hk, hopen]⟩
    rw [set_isClosed ht]
    by_cases hj : j = k
    · simp [hj, JSTransport.closeChan]
    · simp [hj]

/-- The rest of `closeTransport` closes what is registered under the id, disconnects its
object if that was open, and frees the id. -/
theorem closeTransport_spec (m : Manager ι idOf) (id : String) :
    (∀ j, (m.closeTransport id).1.isClosed j =
        (m.isClosed j || decide (m.wasm.transports id = some j))) ∧
      (m.closeTransport id).2 = (m.wasm.transports id).bind fun k =>
        if m.isClosed k then none else m.owners[k]? := by
  rcases m.wasm.closeTransport_cases id with ⟨hfree, hclose⟩ | ⟨k, t, hk, ht, hcases⟩
  · simp [closeTransport, isClosed, hclose, hfree]
  · have hopen : m.isClosed k = t.closed := by simp [isClosed, ht]
    obtain ⟨hlt, _⟩ := List.getElem?_eq_some_iff.mp ht
    rcases hcases with ⟨hclosed, hclose⟩ | ⟨hclosed, hclose⟩
    · refine ⟨fun j => ?_, by simp [closeTransport, hclose, hk, hopen, hclosed]⟩
      have hsame : (m.closeTransport id).1.isClosed j = m.isClosed j := by
        simp [closeTransport, isClosed, hclose, Wasm.removeTransport]
      rw [hsame, hk]
      by_cases hj : k = j
      · simp [← hj, hopen, hclosed]
      · simp [hj]
    · refine ⟨fun j => ?_, by simp [closeTransport, hclose, hk, hopen, hclosed]⟩
      have hset : (m.closeTransport id).1.isClosed j =
          (m.set k { t with closed := true }.closeChan).isClosed j := by
        simp [closeTransport, isClosed, hclose, Wasm.removeTransport, set]
      rw [hset, set_isClosed ht, hk]
      by_cases hj : j = k
      · simp [hj, JSTransport.closeChan]
      · simp [hj, Ne.symm hj]

theorem onData_frame (m : Manager ι idOf) (i : ι) (data : Bytes) :
    (m.onData i data).owners = m.owners ∧ (m.onData i data).place = m.place ∧
      (m.onData i data).wasm.transports = m.wasm.transports ∧
      ∀ j, (m.onData i data).isClosed j = m.isClosed j := by
  unfold onData
  split
  · exact ⟨rfl, rfl, rfl, fun _ => rfl⟩
  · split
    next => exact ⟨rfl, rfl, rfl, fun _ => rfl⟩
    next k t hget =>
      have hshut : (t.injectData data).1.shut = t.shut := t.injectData_shut
      have hsame := congrArg Prod.fst hshut
      exact ⟨rfl, rfl, rfl, set_isClosed_same (Wasm.getTransport_eq_some.mp hget).2 hsame⟩

end Manager
end SshClientWasm.Bridge
