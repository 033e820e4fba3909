import SshClientWasm.Bridge.Wasm
import SshClientWasm.Library.Machine

/-!
# Inbound bytes from the JS transport to the SSH reader

A chunk passes through `onData`, as `TransportManager.createTransport` sets it,
and `injectTransportData` to the object registered under the transport's id,
from which a single reader reads. `onData` does not look at the promise it gets
back, so a chunk that finds the channel full is lost without a word.
-/
namespace SshClientWasm.Bridge

open Library

/-- `transport.onData`: the promise of `injectTransportData` is not looked at. -/
def onData (w : Wasm) (id : String) (data : Bytes) : Wasm := (w.injectTransportData id data).1

/-- A chunk arriving at the JS transport, or a step of the reader. -/
inductive Arrival
  | chunk (data : Bytes)
  | read (len : ℕ)
  | readRest (arm : Arm)
  deriving DecidableEq, Repr

/-- The registry, the object the reader holds, all chunks the JS transport has
received, and the bytes its `Read` calls have returned. -/
structure Inbound where
  wasm : Wasm
  id : String
  conn : ℕ
  reading : Option ℕ
  received : List Bytes
  returned : List Bytes

namespace Inbound

/-- After `createTransport` for the transport. -/
def start (w : Wasm) (id : String) : Inbound where
  wasm := w.createTransport id
  id := id
  conn := w.heap.length
  reading := none
  received := []
  returned := []

def machine : Machine Inbound Arrival where
  step s
    | .chunk data =>
      some { s with wasm := onData s.wasm s.id data, received := s.received ++ [data] }
    | .read len => do
      let t ← s.wasm.heap[s.conn]?
      if s.reading.isSome ∨ t.check "EOF" ≠ none then none
      else some { s with reading := some len }
    | .readRest arm => do
      let t ← s.wasm.heap[s.conn]?
      let len ← s.reading
      let (t', bytes, _) ← t.readUnlocked len arm
      some { s with
        wasm := s.wasm.set s.conn t'
        reading := none
        returned := s.returned ++ [bytes] }

/-- The bytes returned so far are those received first. -/
def Intact (s : Inbound) : Prop := s.returned.flatten <+: s.received.flatten

/-- A chunk that is not empty finds one of the 100 places of the channel free. -/
def Room (s : Inbound) : Arrival → Prop
  | .chunk data => data = [] ∨ ∀ t, s.wasm.getTransport s.id = some (s.conn, t) →
      t.readChan.items.length < 100
  | _ => True

/-- The open transport is registered, and nothing received is missing. -/
structure Whole (s : Inbound) (t : JSTransport) : Prop where
  registered : s.wasm.getTransport s.id = some (s.conn, t)
  isOpen : t.closed = false
  whole : s.returned.flatten ++ t.pending = s.received.flatten

theorem start_whole (w : Wasm) (id : String) : (start w id).Whole (.new id) where
  registered := Wasm.createTransport_getTransport
  isOpen := rfl
  whole := rfl

theorem Whole.intact {s : Inbound} {t : JSTransport} (h : s.Whole t) : s.Intact :=
  ⟨t.pending, h.whole⟩

/-- With room in the channel nothing gets lost. -/
theorem step_whole {s s' : Inbound} {a : Arrival} (h : ∃ t, s.Whole t) (hroom : s.Room a)
    (hstep : machine.step s a = some s') : ∃ t, s'.Whole t := by
  obtain ⟨t, ht⟩ := h
  have hget := ht.registered
  have hheap := (Wasm.getTransport_eq_some.mp hget).2
  cases a with
  | chunk data =>
    cases hstep
    have hinject : t.injectData data = t.injectUnlocked data := by
      simp [JSTransport.injectData, JSTransport.check, ht.isOpen]
    have honData : onData s.wasm s.id data = s.wasm.set s.conn (t.injectUnlocked data).1 := by
      rw [onData, Wasm.injectTransportData_eq hget, hinject]
    rcases t.injectUnlocked_cases data with ⟨q, _, hsend, hpending⟩ | ⟨hfull, hsend⟩
    · rw [hsend] at honData
      refine ⟨{ t with readChan := q }, ?_, ht.isOpen, ?_⟩
      · rw [honData]
        exact Wasm.set_getTransport hget _
      · rw [hpending, List.flatten_append, ← ht.whole, ← List.append_assoc]
        simp
    · -- the full channel turns down a chunk without a byte in it
      have hempty : data = [] := by
        rcases hroom with hempty | hroom
        · exact hempty
        · have hlt := hroom t hget
          omega
      rw [hsend] at honData
      refine ⟨t, ?_, ht.isOpen, ?_⟩
      · rw [honData]
        exact Wasm.set_getTransport hget _
      · rw [ht.whole, hempty]
        simp
  | read len =>
    obtain ⟨t', _, hstep⟩ := Option.bind_eq_some_iff.mp hstep
    obtain ⟨_, hstep⟩ := Option.ite_none_left_eq_some.mp hstep
    cases hstep
    exact ⟨t, ht.registered, ht.isOpen, ht.whole⟩
  | readRest arm =>
    obtain ⟨t', ht', hstep⟩ := Option.bind_eq_some_iff.mp hstep
    obtain ⟨len, _, hstep⟩ := Option.bind_eq_some_iff.mp hstep
    obtain ⟨⟨t'', bytes, err⟩, hread, hstep⟩ := Option.bind_eq_some_iff.mp hstep
    cases hstep
    obtain rfl : t = t' := Option.some.inj (hheap.symm.trans ht')
    refine ⟨t'', Wasm.set_getTransport hget _, ?_, ?_⟩
    · exact (congrArg Prod.fst (JSTransport.readUnlocked_shut hread)).trans ht.isOpen
    · rw [← ht.whole, ← JSTransport.readUnlocked_pending hread]
      simp

/-- In a run in which every chunk that is not empty finds room in the channel,
the bytes returned are a prefix of the bytes received, in every state reached. -/
theorem always_intact_of_room (w : Wasm) (id : String) (labels : List Arrival)
    (hroom : machine.Admits Room (start w id) labels) :
    machine.Always Intact (start w id) labels := by
  apply machine.always_of_admits (I := fun s => ∃ t, s.Whole t) _ _ labels
    (start w id) ⟨_, start_whole w id⟩ hroom
  · rintro s ⟨t, ht⟩
    exact ht.intact
  · intro s a s' h hguard hstep
    exact step_whole h hguard hstep

/-- A chunk, an empty one, and a short read of the first. -/
theorem always_intact_of_room_short :
    machine.Always Intact (start .empty "t")
      [.chunk [1, 2], .chunk [], .read 1, .readRest .readChan] := by
  apply always_intact_of_room
  refine ⟨Or.inr ?_, fun _ _ => ⟨Or.inl rfl, fun _ _ => ⟨trivial, fun _ _ => ⟨trivial, fun _ _ =>
    trivial⟩⟩⟩⟩
  intro t ht
  cases Wasm.createTransport_getTransport.symm.trans ht
  decide

/-- A full channel, one more chunk, and after one `Read` another. -/
def overrun : List Arrival :=
  List.replicate 100 (.chunk [0]) ++ [.chunk [1], .read 1, .readRest .readChan, .chunk [2]] ++
    (List.replicate 100 [.read 1, .readRest .readChan]).flatten

/-- The chunk that found the channel full is missing from what is read, and the
chunk that came after it is not. -/
theorem overrun_not_intact :
    ∃ s, machine.run (start .empty "t") overrun = some s ∧ ¬ s.Intact := by
  have hrun : (machine.run (start .empty "t") overrun).map
      (fun s => (s.returned.flatten, s.received.flatten)) =
      some (List.replicate 100 0 ++ [2], List.replicate 100 0 ++ [1, 2]) := by
    decide +kernel
  obtain ⟨s, hs, hvalues⟩ := Option.map_eq_some_iff.mp hrun
  obtain ⟨hreturned, hreceived⟩ := Prod.mk.inj hvalues
  refine ⟨s, hs, ?_⟩
  rw [Intact, hreturned, hreceived, List.prefix_append_right_inj]
  decide

end Inbound
end SshClientWasm.Bridge
