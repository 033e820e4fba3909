import SshClientWasm.Bridge.JSTransport
import SshClientWasm.Library.Channel
import SshClientWasm.Library.Journal
import SshClientWasm.Library.Machine

/-!
# All methods of one transport at once

Any number of calls of `Read`, `Write`, `InjectData` and `Close`, each of them at a point of
its own. A critical section of the mutex is one step, and so is what follows it up to the
next place where others may run: a `select`, a callback. A call that a callback makes is a
call like any other. What a call does is written into a journal.
-/
namespace SshClientWasm.Bridge

open Library

/-- The methods with their arguments; of the buffer of `Read` the length. -/
inductive Method
  | read (len : ℕ)
  | write (p : Bytes)
  | injectData (data : Bytes)
  | close
  deriving DecidableEq, Repr

/-- Where a call is. -/
inductive Point
  | idle
  | called (m : Method)
  /-- Has found the flag set, and has returned. -/
  | refused (m : Method)
  | reading (len : ℕ)
  | selecting (len : ℕ)
  | read (len : ℕ) (bytes : Bytes) (err : Option String)
  | writing (p : Bytes)
  | inOnWrite (p : Bytes)
  | wrote (p : Bytes) (err : Option String)
  | injecting (data : Bytes)
  | injected (data : Bytes) (err : Option String)
  /-- Has set the flag. -/
  | closing
  | announcing
  | inOnClose
  /-- Has closed the channel and returned, with what `onClose` has returned if there is one. -/
  | closed (result : Option (Option String))
  deriving DecidableEq, Repr

/-- What a call does for others to see. -/
inductive Effect
  | takes (bytes : Bytes)
  | receives (data : Bytes)
  | sends (ch : Arm) (data : Bytes)
  | closes (ch : Arm)
  | onWrite (p : Bytes)
  | onClose
  | onCloseReturned (err : Option String)
  deriving DecidableEq, Repr

/-- Which callbacks are not nil. -/
structure Callbacks where
  onWrite : Bool
  onClose : Bool

/-- What a method returns that finds the flag set. -/
def Method.refusal : Method → Option String
  | read _ => some "EOF"
  | write _ | injectData _ => some "transport closed"
  | close => none

/-- The error that a call has returned. -/
def Point.returned : Point → Option (Option String)
  | refused m => some m.refusal
  | read _ _ err | wrote _ err | injected _ err => some err
  | closed result => some (result.getD none)
  | _ => none

namespace JSTransport

variable (t : JSTransport)

/-- The critical section of a method, and where it leads. -/
def enter (m : Method) : JSTransport × Point :=
  match m with
  | .read len =>
    match t.check "EOF" with
    | some _ => (t, .refused m)
    | none => (t, .reading len)
  | .write p =>
    match t.check "transport closed" with
    | some _ => (t, .refused m)
    | none => (t, .writing p)
  | .injectData data =>
    match t.check "transport closed" with
    | some _ => (t, .refused m)
    | none => (t, .injecting data)
  | .close =>
    match t.closeLocked with
    | (t', false) => (t', .refused m)
    | (t', true) => (t', .closing)

/-- The `select` of `Read`; another call may have put something into the buffer meanwhile. -/
def select (len : ℕ) (arm : Arm) : Option (JSTransport × Bytes × Option String) :=
  match arm with
  | .readChan =>
    t.readChan.recv.map fun (data, rest) =>
      ({ t with
          readChan := rest
          readBuffer := if len < data.length then data.drop len else t.readBuffer },
        data.take len, none)
  | .closeChan => if t.closeChanClosed then some (t, [], some "EOF") else none

/-- What is behind the critical section of `Read`, where no other call comes in between. -/
theorem readUnlocked_eq (len : ℕ) (arm : Arm) :
    t.readUnlocked len arm =
      if t.readBuffer ≠ [] then
        some ({ t with readBuffer := t.readBuffer.drop len }, t.readBuffer.take len, none)
      else t.select len arm := by
  cases arm <;> rfl

end JSTransport

/-- The next step of a call: `arm` is the choice of the `select`, and `err` what a callback
returns. -/
def Point.advance (f : Callbacks) (x : JSTransport) (arm : Arm) (err : Option String) :
    Point → Attempt (JSTransport × Point)
  | called m => .proceeds (x.enter m)
  | reading len =>
    if x.readBuffer ≠ [] then
      .proceeds ({ x with readBuffer := x.readBuffer.drop len },
        .read len (x.readBuffer.take len) none)
    else .proceeds (x, .selecting len)
  | selecting len =>
    match x.select len arm with
    | some (x', bytes, err') => .proceeds (x', .read len bytes err')
    | none => .blocks
  | writing p => .proceeds (x, if f.onWrite then .inOnWrite p else .wrote p none)
  | inOnWrite p => .proceeds (x, .wrote p err)
  | injecting data => .proceeds ((x.injectUnlocked data).1, .injected data (x.injectUnlocked data).2)
  | closing => if x.closeChanClosed then .panics else .proceeds (x.closeChan, .announcing)
  | announcing => .proceeds (x, if f.onClose then .inOnClose else .closed none)
  | inOnClose => .proceeds (x, .closed (some err))
  | _ => .blocks

/-- What it does in that step. -/
def Point.effects (f : Callbacks) (x : JSTransport) (arm : Arm) (err : Option String) :
    Point → List Effect
  | reading len => if x.readBuffer ≠ [] then [.takes (x.readBuffer.take len)] else []
  | selecting _ =>
    match arm with
    | .readChan => (x.readChan.recv.map fun p => Effect.receives p.1).toList
    | .closeChan => []
  | writing p => if f.onWrite then [.onWrite p] else []
  | injecting data => if (x.injectUnlocked data).2 = none then [.sends .readChan data] else []
  | closing => [.closes .closeChan]
  | announcing => if f.onClose then [.onClose] else []
  | inOnClose => [.onCloseReturned err]
  | _ => []

/-- The transport with all calls; `late` are those that were called when the flag was set. -/
structure Calls (τ : Type*) where
  transport : JSTransport
  pc : τ → Point
  late : τ → Bool
  panicked : Bool

/-- A method is called, or a call takes a step. -/
inductive CallStep (τ : Type*)
  | call (t : τ) (m : Method)
  | go (t : τ) (arm : Arm) (err : Option String)

namespace Calls

variable {τ : Type*}

/-- A new transport. -/
def fresh (id : String) : Calls τ := ⟨.new id, fun _ => .idle, fun _ => false, false⟩

/-- A panic ends the program. -/
def machine [DecidableEq τ] (f : Callbacks) : Machine (Calls τ) (CallStep τ) where
  step s a :=
    if s.panicked then none
    else
      match a with
      | .call t m =>
        if s.pc t = .idle then
          some { s with
            pc := Function.update s.pc t (.called m)
            late := Function.update s.late t s.transport.closed }
        else none
      | .go t arm err =>
        match (s.pc t).advance f s.transport arm err with
        | .blocks => none
        | .panics => some { s with panicked := true }
        | .proceeds (x, p) => some { s with transport := x, pc := Function.update s.pc t p }

def events (f : Callbacks) (s : Calls τ) : CallStep τ → List (τ × Effect)
  | .call _ _ => []
  | .go t arm err => ((s.pc t).effects f s.transport arm err).map (t, ·)

/-- The calls with their journal. -/
abbrev journaling [DecidableEq τ] (f : Callbacks) :
    Machine (Calls τ × List (τ × Effect)) (CallStep τ) :=
  (machine f).recorded (events f)

end Calls

/-- A step of a call, with what it does. -/
inductive Point.Going (f : Callbacks) (x : JSTransport) :
    Point → JSTransport → Point → List Effect → Prop
  | refused (m) (h : x.closed = true) : Going f x (called m) x (refused m) []
  | reading (len) (h : x.closed = false) : Going f x (called (.read len)) x (reading len) []
  | writing (p) (h : x.closed = false) : Going f x (called (.write p)) x (writing p) []
  | injecting (data) (h : x.closed = false) :
      Going f x (called (.injectData data)) x (injecting data) []
  | closing (h : x.closed = false) :
      Going f x (called .close) { x with closed := true } closing []
  | buffered (len) (h : x.readBuffer ≠ []) :
      Going f x (reading len) { x with readBuffer := x.readBuffer.drop len }
        (read len (x.readBuffer.take len) none) [.takes (x.readBuffer.take len)]
  | waits (len) (h : x.readBuffer = []) : Going f x (reading len) x (selecting len) []
  | received (len) {data rest} (h : x.readChan.recv = some (data, rest)) :
      Going f x (selecting len)
        { x with
          readChan := rest
          readBuffer := if len < data.length then data.drop len else x.readBuffer }
        (read len (data.take len) none) [.receives data]
  | ended (len) (h : x.closeChanClosed = true) :
      Going f x (selecting len) x (read len [] (some "EOF")) []
  | onWrite (p) (h : f.onWrite = true) : Going f x (writing p) x (inOnWrite p) [.onWrite p]
  | noOnWrite (p) (h : f.onWrite = false) : Going f x (writing p) x (wrote p none) []
  | wrote (p err) : Going f x (inOnWrite p) x (wrote p err) []
  | injected (data) {q} (h : x.readChan.trySend data = some q) :
      Going f x (injecting data) { x with readChan := q } (injected data none)
        [.sends .readChan data]
  | full (data) : Going f x (injecting data) x (injected data (some "read buffer full")) []
  | closesChan (h : x.closeChanClosed = false) :
      Going f x closing x.closeChan announcing [.closes .closeChan]
  | onClose (h : f.onClose = true) : Going f x announcing x inOnClose [.onClose]
  | noOnClose (h : f.onClose = false) : Going f x announcing x (closed none) []
  | closed (err) : Going f x inOnClose x (closed (some err)) [.onCloseReturned err]

namespace JSTransport

variable {t : JSTransport}

theorem enter_closed (h : t.closed = true) (m : Method) : t.enter m = (t, .refused m) := by
  cases m <;> simp [enter, check, closeLocked, h]

theorem enter_going (f : Callbacks) (m : Method) :
    Point.Going f t (.called m) (t.enter m).1 (t.enter m).2 [] := by
  cases h : t.closed with
  | true =>
    rw [enter_closed h]
    exact .refused m h
  | false =>
    cases m with
    | read len => simpa [enter, check, h] using Point.Going.reading len h
    | write p => simpa [enter, check, h] using Point.Going.writing p h
    | injectData data => simpa [enter, check, h] using Point.Going.injecting data h
    | close => simpa [enter, closeLocked, h] using Point.Going.closing h

end JSTransport

theorem Point.advance_going {f : Callbacks} {x x' : JSTransport} {p p' : Point} {arm : Arm}
    {err : Option String} (h : p.advance f x arm err = .proceeds (x', p')) :
    Going f x p x' p' (p.effects f x arm err) := by
  cases p with
  | idle | refused | read | wrote | injected | closed => cases h
  | called m =>
    obtain ⟨rfl, rfl⟩ := Prod.mk.inj (Attempt.proceeds.inj h)
    exact x.enter_going f m
  | reading len =>
    simp only [advance] at h
    split at h
    next hbuffer =>
      cases h
      rw [effects, if_pos hbuffer]
      exact .buffered len hbuffer
    next hbuffer =>
      cases h
      rw [effects, if_neg hbuffer]
      exact .waits len (not_not.mp hbuffer)
  | selecting len =>
    cases arm with
    | readChan =>
      cases hrecv : x.readChan.recv with
      | none => simp [advance, JSTransport.select, hrecv] at h
      | some next =>
        obtain ⟨data, rest⟩ := next
        simp only [advance, JSTransport.select, hrecv, Option.map_some, Attempt.proceeds.injEq,
          Prod.mk.injEq] at h
        obtain ⟨rfl, rfl⟩ := h
        simpa [effects, hrecv] using Going.received len hrecv
    | closeChan =>
      cases hclosed : x.closeChanClosed with
      | false => simp [advance, JSTransport.select, hclosed] at h
      | true =>
        simp only [advance, JSTransport.select, hclosed, if_true, Attempt.proceeds.injEq,
          Prod.mk.injEq] at h
        obtain ⟨rfl, rfl⟩ := h
        exact .ended len hclosed
  | writing p =>
    cases honWrite : f.onWrite with
    | true =>
      simp only [advance, honWrite, if_true] at h
      cases h
      simpa [effects, honWrite] using Going.onWrite p honWrite
    | false =>
      simp only [advance, honWrite] at h
      cases h
      simpa [effects, honWrite] using Going.noOnWrite p honWrite
  | inOnWrite p =>
    cases h
    exact .wrote p err
  | injecting data =>
    cases h
    rcases x.injectUnlocked_cases data with ⟨q, hsend, hinject, _⟩ | ⟨_, hinject⟩
    · rw [hinject]
      simpa [effects, hinject] using Going.injected data hsend
    · rw [hinject]
      simpa [effects, hinject] using Going.full data
  | closing =>
    simp only [advance] at h
    split at h
    · cases h
    next hclosed =>
      cases h
      exact .closesChan (by simpa using hclosed)
  | announcing =>
    cases honClose : f.onClose with
    | true =>
      simp only [advance, honClose, if_true] at h
      cases h
      simpa [effects, honClose] using Going.onClose honClose
    | false =>
      simp only [advance, honClose] at h
      cases h
      simpa [effects, honClose] using Going.noOnClose honClose
  | inOnClose =>
    cases h
    exact .closed err

theorem Point.advance_panics {f : Callbacks} {x : JSTransport} {p : Point} {arm : Arm}
    {err : Option String} (h : p.advance f x arm err = .panics) : p = .closing ∧ x.closeChanClosed = true := by
  cases p with
  | closing =>
    simp only [advance] at h
    split at h
    next hclosed => exact ⟨rfl, hclosed⟩
    · cases h
  | reading | selecting =>
    simp only [advance] at h
    split at h <;> cases h
  | _ => cases h

namespace Calls

variable {τ : Type*} [DecidableEq τ] {f : Callbacks} {s s' : Calls τ} {a : CallStep τ}

/-- What a step makes of the calls. -/
inductive Stepped (f : Callbacks) (s : Calls τ) : CallStep τ → Calls τ → Prop
  | called {t m} (h : s.pc t = .idle) :
      Stepped f s (.call t m)
        { s with
          pc := Function.update s.pc t (.called m)
          late := Function.update s.late t s.transport.closed }
  | panics {t arm err} (h : (s.pc t).advance f s.transport arm err = .panics) :
      Stepped f s (.go t arm err) { s with panicked := true }
  | goes {t arm err x p} (h : (s.pc t).advance f s.transport arm err = .proceeds (x, p)) :
      Stepped f s (.go t arm err) { s with transport := x, pc := Function.update s.pc t p }

theorem step_stepped (h : (machine f).step s a = some s') : Stepped f s a s' := by
  obtain ⟨_, h⟩ := Option.ite_none_left_eq_some.mp h
  cases a with
  | call t m =>
    obtain ⟨hidle, hcalled⟩ := Option.ite_none_right_eq_some.mp h
    cases hcalled
    exact .called hidle
  | go t arm err =>
    dsimp only at h
    split at h
    · cases h
    next hadvance =>
      cases h
      exact .panics hadvance
    next hadvance =>
      cases h
      exact .goes hadvance

end Calls
end SshClientWasm.Bridge
