import SshClientWasm.Bridge.JSTransport
import SshClientWasm.Library.Machine

/-!
# One transport under concurrent calls

Any number of goroutines call `InjectData` and `Close` while a single reader
calls `Read`. The steps are the critical sections of the mutex and what follows
each of them. Every run refines the ordered pipe that neither refuses nor
discards.
-/
namespace SshClientWasm.Bridge

open Library

/-- The calls that have returned, with their results. -/
inductive Return
  | read (bytes : Bytes) (err : Option String)
  | injectData (data : Bytes) (err : Option String)
  deriving DecidableEq, Repr

/-- The bytes the `Read` calls have returned. -/
def returned (record : List Return) : List Bytes :=
  record.filterMap fun | .read bytes _ => some bytes | _ => none

/-- The chunks for which `InjectData` has returned nil. -/
def accepted (record : List Return) : List Bytes :=
  record.filterMap fun | .injectData data none => some data | _ => none

@[simp] theorem returned_append (front back : List Return) :
    returned (front ++ back) = returned front ++ returned back :=
  List.filterMap_append

@[simp] theorem accepted_append (front back : List Return) :
    accepted (front ++ back) = accepted front ++ accepted back :=
  List.filterMap_append

/-- A transport, the calls that are behind their critical sections, and the
calls that have returned. -/
structure Stream where
  transport : JSTransport
  reading : Option ℕ
  injecting : List Bytes
  closing : ℕ
  record : List Return

/-- The next step of some goroutine: the critical section of a new call, or the
rest of one that has passed it. -/
inductive Step
  | read (len : ℕ)
  | readRest (arm : Arm)
  | injectData (data : Bytes)
  | injectRest (i : ℕ)
  | close
  | closeRest
  deriving DecidableEq, Repr

namespace Stream

def fresh (id : String) : Stream := ⟨.new id, none, [], 0, []⟩

def log (s : Stream) (r : Return) : Stream := { s with record := s.record ++ [r] }

def machine : Machine Stream Step where
  step s
    | .read len =>
      if s.reading.isSome then none
      else
        match s.transport.check "EOF" with
        | some err => some (s.log (.read [] (some err)))
        | none => some { s with reading := some len }
    | .readRest arm => do
      let len ← s.reading
      let (t, bytes, err) ← s.transport.readUnlocked len arm
      some ({ s with transport := t, reading := none }.log (.read bytes err))
    | .injectData data =>
      match s.transport.check "transport closed" with
      | some err => some (s.log (.injectData data (some err)))
      | none => some { s with injecting := s.injecting ++ [data] }
    | .injectRest i => do
      let data ← s.injecting[i]?
      let (t, err) := s.transport.injectUnlocked data
      some ({ s with transport := t, injecting := s.injecting.eraseIdx i }.log
        (.injectData data err))
    | .close =>
      let (t, rest) := s.transport.closeLocked
      some { s with transport := t, closing := if rest then s.closing + 1 else s.closing }
    | .closeRest =>
      if s.closing = 0 then none
      else some { s with transport := s.transport.closeChan, closing := s.closing - 1 }

variable {s s' : Stream} {a : Step}

theorem step_cases (h : machine.step s a = some s') :
    (∃ r, s'.record = s.record ++ r ∧ (accepted r).flatten = [] ∧ (returned r).flatten = [] ∧
      s'.transport.readBuffer = s.transport.readBuffer ∧
      s'.transport.readChan = s.transport.readChan) ∨
    (∃ bytes err, s'.record = s.record ++ [.read bytes err] ∧
      bytes ++ s'.transport.pending = s.transport.pending) ∨
    ∃ data, s'.record = s.record ++ [.injectData data none] ∧
      s'.transport.pending = s.transport.pending ++ data := by
  cases a with
  | read len =>
    left
    simp only [machine] at h
    split_ifs at h
    split at h
    · cases h
      exact ⟨_, rfl, rfl, rfl, rfl, rfl⟩
    · cases h
      exact ⟨[], (List.append_nil _).symm, rfl, rfl, rfl, rfl⟩
  | readRest arm =>
    right
    left
    obtain ⟨len, _, h⟩ := Option.bind_eq_some_iff.mp h
    obtain ⟨⟨t, bytes, err⟩, hread, h⟩ := Option.bind_eq_some_iff.mp h
    cases h
    exact ⟨bytes, err, rfl, JSTransport.readUnlocked_pending hread⟩
  | injectData data =>
    left
    simp only [machine] at h
    split at h
    · cases h
      exact ⟨_, rfl, rfl, rfl, rfl, rfl⟩
    · cases h
      exact ⟨[], (List.append_nil _).symm, rfl, rfl, rfl, rfl⟩
  | injectRest i =>
    obtain ⟨data, _, h⟩ := Option.bind_eq_some_iff.mp h
    rcases s.transport.injectUnlocked_cases data with
      ⟨q, _, hinject, hpending⟩ | ⟨_, hinject⟩
    · rw [hinject] at h
      cases h
      exact Or.inr (Or.inr ⟨data, rfl, hpending⟩)
    · rw [hinject] at h
      cases h
      exact Or.inl ⟨_, rfl, rfl, rfl, rfl, rfl⟩
  | close =>
    left
    rcases s.transport.closeLocked_cases with ⟨_, hclose⟩ | ⟨_, hclose⟩
    all_goals
      simp only [machine, hclose] at h
      cases h
      exact ⟨[], (List.append_nil _).symm, rfl, rfl, rfl, rfl⟩
  | closeRest =>
    left
    obtain ⟨_, h⟩ := Option.ite_none_left_eq_some.mp h
    cases h
    exact ⟨[], (List.append_nil _).symm, rfl, rfl, rfl, rfl⟩

/-- The transport, as an ordered pipe of bytes without a gap. -/
structure Carries (s : Stream) (p : Pipe UInt8) : Prop where
  offered : p.offered = (accepted s.record).flatten
  delivered : p.delivered = (returned s.record).flatten
  pending : p.pending = s.transport.pending
  gapless : p.Gapless

theorem fresh_carries (id : String) : (fresh id).Carries .empty where
  offered := rfl
  delivered := rfl
  pending := rfl
  gapless := Pipe.empty_gapless

/-- Every step is matched by steps of the pipe: a `Read` delivers, an
`InjectData` that finds room is accepted, and nothing else moves a byte. -/
theorem machine_simulates : machine.Simulates Pipe.Step Carries := by
  intro s p a s' hp h
  rcases step_cases h with
    ⟨r, hrecord, haccepted, hreturned, hbuffer, hchan⟩ | ⟨bytes, err, hrecord, hread⟩ |
      ⟨data, hrecord, hinject⟩
  · refine ⟨p, .refl, ?_, ?_, ?_, hp.gapless⟩
    · simp [hp.offered, hrecord, haccepted]
    · simp [hp.delivered, hrecord, hreturned]
    · rw [hp.pending, JSTransport.pending, JSTransport.pending, hbuffer, hchan]
  · have hsplit : p.pending = bytes ++ s'.transport.pending := hp.pending.trans hread.symm
    refine ⟨p.deliver bytes s'.transport.pending hsplit,
      .single (.deliver p bytes s'.transport.pending hsplit), ?_, ?_, rfl,
      p.deliver_gapless hsplit hp.gapless⟩
    · simp [Pipe.deliver, hp.offered, hrecord, accepted]
    · simp [Pipe.deliver, hp.delivered, hrecord, returned]
  · refine ⟨p.accept hp.gapless data, .single (.accept p hp.gapless data), ?_, ?_, ?_,
      p.accept_gapless hp.gapless data⟩
    · simp [Pipe.accept, hp.offered, hrecord, accepted]
    · simp [Pipe.accept, hp.delivered, hrecord, returned]
    · rw [hinject, ← hp.pending]
      rfl

theorem step_injectData_error {a : Step} {data : Bytes} {err : String}
    (h : machine.step s a = some s')
    (hrecord : s'.record = s.record ++ [.injectData data (some err)]) :
    s'.transport.readBuffer = s.transport.readBuffer ∧
      s'.transport.readChan = s.transport.readChan := by
  rcases step_cases h with ⟨_, _, _, _, hbuffers⟩ | ⟨bytes, err', hread, _⟩ | ⟨data', hinject, _⟩
  · exact hbuffers
  · rw [hread] at hrecord
    simp at hrecord
  · rw [hinject] at hrecord
    simp at hrecord

/-- In every run, the bytes returned by `Read`, the rest of a partly read chunk
and the chunks in the channel are exactly the accepted chunks, in order. At most
100 chunks wait in the channel, and a failing `InjectData` changes neither buffer. -/
theorem returned_append_pending (id : String) (labels : List Step) (s : Stream)
    (hrun : machine.run (fresh id) labels = some s) :
    (returned s.record).flatten ++ s.transport.readBuffer ++ s.transport.readChan.items.flatten =
      (accepted s.record).flatten ∧
    s.transport.readChan.items.length ≤ 100 ∧
    ∀ a s' data err, machine.step s a = some s' →
      s'.record = s.record ++ [.injectData data (some err)] →
      s'.transport.readBuffer = s.transport.readBuffer ∧
        s'.transport.readChan = s.transport.readChan := by
  obtain ⟨p, _, hp⟩ := machine_simulates.run labels (fresh id) s .empty (fresh_carries id) hrun
  refine ⟨?_, s.transport.readChan.bounded, ?_⟩
  · rw [List.append_assoc, ← hp.offered, ← hp.delivered]
    have hpending : s.transport.readBuffer ++ s.transport.readChan.items.flatten = p.pending :=
      hp.pending.symm
    rw [hpending]
    exact hp.gapless
  · intro a s' data err hstep hrecord
    exact step_injectData_error hstep hrecord

/-- Short, empty and long reads of two chunks and an empty one. -/
theorem returned_append_pending_short :
    ∃ s, machine.run (fresh "t")
        [.injectData [1, 2, 3], .injectRest 0, .injectData [], .read 2, .readRest .readChan,
          .injectRest 0, .injectData [4], .injectRest 0, .read 0, .readRest .readChan,
          .read 8, .readRest .readChan] = some s ∧
      (returned s.record).flatten = [1, 2, 3] ∧
      (returned s.record).flatten ++ s.transport.readBuffer ++
        s.transport.readChan.items.flatten = (accepted s.record).flatten := by
  have hrun : (machine.run (fresh "t")
      [.injectData [1, 2, 3], .injectRest 0, .injectData [], .read 2, .readRest .readChan,
        .injectRest 0, .injectData [4], .injectRest 0, .read 0, .readRest .readChan,
        .read 8, .readRest .readChan]).map (fun s => (returned s.record).flatten) =
      some [1, 2, 3] := by
    rfl
  obtain ⟨s, hs, hreturned⟩ := Option.map_eq_some_iff.mp hrun
  exact ⟨s, hs, hreturned, (returned_append_pending "t" _ s hs).1⟩

end Stream
end SshClientWasm.Bridge
