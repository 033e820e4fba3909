import SshClientWasm.Bridge.Calls

/-!
# Overlapping reads of one transport

Between its check of the buffer and its `select` a `Read` lets others run, and so may find
the buffer filled when it puts the rest of its own chunk there. The check is not repeated,
and what was in the buffer is gone.
-/
namespace SshClientWasm.Bridge

open Library

/-- Data that a step takes in or returns. -/
inductive Flow
  | accepted (data : Bytes)
  | returned (bytes : Bytes)
  deriving DecidableEq, Repr

/-- What the next step of a call takes in or returns. -/
def Point.flows (x : JSTransport) (arm : Arm) : Point → List Flow
  | reading len => if x.readBuffer ≠ [] then [.returned (x.readBuffer.take len)] else []
  | selecting len => ((x.select len arm).map fun r => Flow.returned r.2.1).toList
  | injecting data => if (x.injectUnlocked data).2 = none then [.accepted data] else []
  | _ => []

/-- All bytes that have been taken in. -/
def acceptedBytes (flows : List Flow) : Bytes :=
  flows.flatMap fun | .accepted data => data | .returned _ => []

/-- All bytes that have been returned. -/
def returnedBytes (flows : List Flow) : Bytes :=
  flows.flatMap fun | .returned bytes => bytes | .accepted _ => []

@[simp] theorem acceptedBytes_nil : acceptedBytes [] = [] := rfl

@[simp] theorem returnedBytes_nil : returnedBytes [] = [] := rfl

@[simp] theorem acceptedBytes_append (front back : List Flow) :
    acceptedBytes (front ++ back) = acceptedBytes front ++ acceptedBytes back :=
  List.flatMap_append

@[simp] theorem returnedBytes_append (front back : List Flow) :
    returnedBytes (front ++ back) = returnedBytes front ++ returnedBytes back :=
  List.flatMap_append

/-- A short `Read` from the channel finds the buffer empty. -/
def Point.Alone (x : JSTransport) (arm : Arm) : Point → Prop
  | selecting len =>
    arm = .readChan → ∀ data ∈ x.readChan.items.head?, len < data.length → x.readBuffer = []
  | _ => True

instance (x : JSTransport) (arm : Arm) : ∀ p : Point, Decidable (p.Alone x arm)
  | .selecting _ => inferInstanceAs (Decidable (_ → _))
  | .idle | .called _ | .refused _ | .reading _ | .read _ _ _ | .writing _ | .inOnWrite _
  | .wrote _ _ | .injecting _ | .injected _ _ | .closing | .announcing | .inOnClose
  | .closed _ => isTrue trivial

section Going

variable {f : Callbacks} {x x' : JSTransport} {p p' : Point} {arm : Arm} {err : Option String}
  {accepted returned : Bytes}

theorem select_conserves (len : ℕ) {data : Bytes} {rest : BoundedQueue Bytes 100}
    (hrecv : x.readChan.recv = some (data, rest)) (h : (returned ++ x.pending).Perm accepted) :
    ((returned ++ data.take len) ++ ({ x with
        readChan := rest
        readBuffer := if len < data.length then data.drop len else x.readBuffer } :
          JSTransport).pending).Perm accepted ↔
      (len < data.length → x.readBuffer = []) := by
  have hitems := BoundedQueue.recv_eq_some hrecv
  have hpending : x.pending = x.readBuffer ++ (data ++ rest.items.flatten) := by
    rw [JSTransport.pending, hitems, List.flatten_cons]
  rw [hpending] at h
  by_cases hlen : len < data.length
  · -- both parts of the chunk remain, what they replace is gone
    have hparts : (returned ++ data.take len) ++ (data.drop len ++ rest.items.flatten) =
        returned ++ (data ++ rest.items.flatten) := by
      rw [List.append_assoc, ← List.append_assoc (data.take len), List.take_append_drop]
    simp only [JSTransport.pending, hlen, if_true, forall_const]
    rw [hparts]
    constructor
    · intro hperm
      have hlength := (hperm.trans h.symm).length_eq
      simp only [List.length_append] at hlength
      exact List.length_eq_zero_iff.mp (by omega)
    · intro hempty
      rw [hempty, List.nil_append] at h
      exact h
  · simp only [JSTransport.pending, hlen, if_false, false_imp_iff, iff_true]
    rw [List.take_of_length_le (Nat.le_of_not_lt hlen), List.append_assoc]
    refine List.Perm.trans (List.Perm.append_left returned ?_) h
    rw [← List.append_assoc, ← List.append_assoc]
    exact List.Perm.append_right _ List.perm_append_comm

theorem advance_selecting {len : ℕ} (h : (Point.selecting len).advance f x arm err = .proceeds (x', p')) :
    (arm = .closeChan ∧ x' = x ∧ (Point.selecting len).flows x arm = [.returned []]) ∨
      ∃ data rest, arm = .readChan ∧ x.readChan.recv = some (data, rest) ∧
        x' = { x with
          readChan := rest
          readBuffer := if len < data.length then data.drop len else x.readBuffer } ∧
        (Point.selecting len).flows x arm = [.returned (data.take len)] := by
  cases arm with
  | closeChan =>
    cases hclosed : x.closeChanClosed with
    | false => simp [Point.advance, JSTransport.select, hclosed] at h
    | true =>
      simp only [Point.advance, JSTransport.select, hclosed, if_true, Attempt.proceeds.injEq,
        Prod.mk.injEq] at h
      exact Or.inl ⟨rfl, h.1.symm, by simp [Point.flows, JSTransport.select, hclosed]⟩
  | readChan =>
    cases hrecv : x.readChan.recv with
    | none => simp [Point.advance, JSTransport.select, hrecv] at h
    | some next =>
      obtain ⟨data, rest⟩ := next
      simp only [Point.advance, JSTransport.select, hrecv, Option.map_some, Attempt.proceeds.injEq,
        Prod.mk.injEq] at h
      exact Or.inr ⟨data, rest, rfl, rfl, h.1.symm, by simp [Point.flows, JSTransport.select, hrecv]⟩

/-- A step loses bytes exactly if its `Read` is not alone. -/
theorem Point.advance_conserves (h : p.advance f x arm err = .proceeds (x', p'))
    (hperm : (returned ++ x.pending).Perm accepted) :
    ((returned ++ returnedBytes (p.flows x arm)) ++ x'.pending).Perm
        (accepted ++ acceptedBytes (p.flows x arm)) ↔ p.Alone x arm := by
  by_cases hp : ∃ len, p = .selecting len
  · obtain ⟨len, rfl⟩ := hp
    rcases advance_selecting h with ⟨rfl, rfl, hflows⟩ | ⟨data, rest, rfl, hrecv, rfl, hflows⟩
    · rw [hflows]
      exact iff_of_true (by simpa [returnedBytes, acceptedBytes] using hperm)
        fun harm => absurd harm (by decide)
    · have hitems := BoundedQueue.recv_eq_some hrecv
      rw [hflows]
      have hselect := select_conserves len hrecv hperm
      simp only [returnedBytes, acceptedBytes, List.flatMap_singleton, List.append_nil, Alone, hitems,
        List.head?_cons, Option.mem_some_iff, forall_eq', forall_const]
      exact hselect
  · have halone : p.Alone x arm := by
      cases p with
      | selecting len => exact absurd ⟨len, rfl⟩ hp
      | _ => trivial
    refine iff_of_true ?_ halone
    have hquiet : p.flows x arm = [] → x'.pending = x.pending →
        ((returned ++ returnedBytes (p.flows x arm)) ++ x'.pending).Perm
          (accepted ++ acceptedBytes (p.flows x arm)) := by
      intro hflows hpending
      rw [hflows, hpending]
      simpa [returnedBytes, acceptedBytes] using hperm
    have hgoing := advance_going h
    generalize p.effects f x arm err = es at hgoing
    cases hgoing with
    | buffered len hbuffer =>
      simp only [flows, if_pos hbuffer]
      simp only [returnedBytes, acceptedBytes, List.flatMap_singleton, List.append_nil,
        JSTransport.pending]
      rw [List.append_assoc, ← List.append_assoc (x.readBuffer.take len), List.take_append_drop]
      exact hperm
    | waits len hbuffer => exact hquiet (if_neg (not_not.mpr hbuffer)) rfl
    | received len => exact absurd ⟨len, rfl⟩ hp
    | ended len => exact absurd ⟨len, rfl⟩ hp
    | injected data hsend =>
      rcases x.injectUnlocked_cases data with ⟨q, hq, hinject, hpending⟩ | ⟨hfull, hinject⟩
      · cases hsend.symm.trans hq
        simp only [flows, hinject, if_true]
        simp only [returnedBytes, acceptedBytes, List.flatMap_singleton, List.append_nil, hpending]
        rw [← List.append_assoc]
        exact hperm.append_right data
      · rw [BoundedQueue.trySend_eq_none.mpr hfull] at hsend
        cases hsend
    | full data =>
      refine hquiet ?_ rfl
      rcases x.injectUnlocked_cases data with ⟨q, hq, hinject, -⟩ | ⟨hfull, hinject⟩
      · simp [advance, hinject] at h
      · simp [flows, hinject]
    | _ => exact hquiet rfl rfl

end Going

namespace Calls

variable {τ : Type*} [DecidableEq τ] {f : Callbacks} {s s' : Calls τ}

/-- What a step of the calls takes in or returns. -/
def flows (s : Calls τ) : CallStep τ → List Flow
  | .call _ _ => []
  | .go t arm _ => (s.pc t).flows s.transport arm

/-- The calls, with all that they have taken in and returned. -/
abbrev flowing (f : Callbacks) : Machine (Calls τ × List Flow) (CallStep τ) :=
  (machine f).recorded flows

/-- Every byte that was taken in has been returned or is pending, and no other has. -/
def Conserved (s : Calls τ × List Flow) : Prop :=
  (returnedBytes s.2 ++ s.1.transport.pending).Perm (acceptedBytes s.2)

/-- No short `Read` puts the rest of a chunk in the place of another's. -/
def Alone (s : Calls τ × List Flow) : CallStep τ → Prop
  | .call _ _ => True
  | .go t arm _ => (s.1.pc t).Alone s.1.transport arm

instance (s : Calls τ × List Flow) : ∀ a, Decidable (Alone s a)
  | .call _ _ => isTrue trivial
  | .go _ _ _ => inferInstanceAs (Decidable (Point.Alone _ _ _))

theorem step_conserved {s s' : Calls τ × List Flow} {a : CallStep τ} (h : Conserved s)
    (hstep : (flowing f).step s a = some s') : Conserved s' ↔ Alone s a := by
  obtain ⟨hmove, hflows⟩ := (machine f).recorded_step.mp hstep
  obtain ⟨c', log'⟩ := s'
  rw [Conserved, hflows, returnedBytes_append, acceptedBytes_append]
  cases step_stepped hmove with
  | called hidle =>
    exact iff_of_true (by simpa [Conserved, flows] using h) trivial
  | panics hpanic =>
    obtain ⟨hclosing, -⟩ := Point.advance_panics hpanic
    simp only [flows, Alone, hclosing]
    exact iff_of_true (by simpa [Conserved, Point.flows] using h) trivial
  | goes hadvance => exact Point.advance_conserves hadvance h

/-- For any number of calls in any order, in every state every byte that was taken in has
been returned once or is pending, exactly if no `Read` behind its check of the buffer gets a
chunk that is too long for it while the buffer has been filled. -/
theorem always_conserved_iff (f : Callbacks) (id : String) (labels : List (CallStep τ))
    (s : Calls τ × List Flow) (hrun : (flowing f).run (fresh id, []) labels = some s) :
    (flowing f).Always Conserved (fresh id, []) labels ↔
      (flowing f).Admits Alone (fresh id, []) labels :=
  (flowing f).always_iff_admits (I := fun _ => True) (fun _ _ _ _ _ => trivial)
    (fun _ _ _ _ h hstep => step_conserved h hstep) labels (fresh id, []) s trivial .rfl hrun

/-- Two reads of two bytes each that are both behind the check, and two chunks of three. -/
def overlapping : List (CallStep ℕ) :=
  [.call 0 (.read 2), .go 0 .readChan none, .go 0 .readChan none,
    .call 1 (.read 2), .go 1 .readChan none, .go 1 .readChan none,
    .call 2 (.injectData [1, 2, 3]), .go 2 .readChan none, .go 2 .readChan none,
    .call 3 (.injectData [4, 5, 6]), .go 3 .readChan none, .go 3 .readChan none,
    .go 0 .readChan none]

/-- One of the reads gets by; the other one takes the third byte away. -/
theorem always_conserved_overlapping :
    (flowing ⟨false, false⟩).Always Conserved (fresh "t", []) overlapping ∧
      ¬ (flowing ⟨false, false⟩).Always Conserved (fresh "t", [])
        (overlapping ++ [.go 1 .readChan none]) :=
  ⟨(always_conserved_iff _ _ _ _ rfl).mpr (by decide),
    fun h => absurd ((always_conserved_iff _ _ _ _ rfl).mp h) (by decide)⟩

end Calls
end SshClientWasm.Bridge
