import SshClientWasm.Library.Machine
import SshClientWasm.Ssh.Notifications

/-!
# The React hook of a connection

`useSSHConnection` with all that writes its state: the callbacks it hands out, the states that
Go reports, and what is behind an `await`. An update is there at once for the next one and is
seen with the next commit. The effect depends on the session, so that its cleanup runs behind
every commit that changes the session, and not on unmounting alone.
-/
namespace SshClientWasm.React

open Library

inductive ConnectionState
  | idle
  | connecting
  | connected
  | error
  | disconnected
  deriving DecidableEq, Repr

/-- What the hook keeps; a session is known by its number. -/
structure Hook where
  session : Option ℕ
  connectionState : ConnectionState
  connectionError : Option String
  deriving DecidableEq, Repr

namespace Hook

def initial : Hook := ⟨none, .idle, none⟩

variable (h : Hook)

/-- `connect`, up to its `await`. -/
def connect : Hook := { h with connectionState := .connecting, connectionError := none }

/-- `onStateChange` of the enhanced callbacks. -/
def onStateChange (state : String) : Hook :=
  { h with connectionState := if state = "connected" then .connected else .connecting }

/-- `connect` behind its `await`. -/
def connectSettled : Except String ℕ → Hook
  | .ok session => { h with session := some session, connectionState := .connected }
  | .error e => { h with connectionError := some e, connectionState := .error }

/-- `disconnect` behind its `await`. -/
def disconnectSettled : Except String Unit → Hook
  | .ok _ => { h with session := none, connectionState := .disconnected }
  | .error e => { h with connectionError := some e, connectionState := .error }

/-- What is asked of it after a `disconnect()`. -/
def Shut : Prop := h.session = none ∧ h.connectionState = .disconnected

instance : Decidable h.Shut := inferInstanceAs (Decidable (_ ∧ _))

end Hook

/-- A call that has a promise, with the states that Go has reported in it. -/
inductive Call
  | connect (reported : List String)
  /-- The `disconnect()` of a session: by the hook, with the number of calls of `connect` up to
  then, or by the cleanup or somebody else. -/
  | disconnect (byHook : Option ℕ) (reported : List String)
  | settled
  deriving DecidableEq, Repr

namespace Call

/-- `Connect` reports two states, and `Disconnect` two others. -/
def MayReport (state : String) : Call → Prop
  | connect reported =>
    reported ++ [state] <+: ["connecting", "connected"] ∨
      reported ++ [state] <+: ["connecting", "error"]
  | disconnect _ reported => reported ++ [state] <+: ["disconnecting", "disconnected"]
  | settled => False

def reporting (state : String) : Call → Call
  | connect reported => connect (reported ++ [state])
  | disconnect byHook reported => disconnect byHook (reported ++ [state])
  | settled => settled

/-- A `connect()` may also fail before it gets to Go; Go's `Disconnect` returns nil. -/
def MaySettle : Call → Except String Unit → Prop
  | connect reported, .ok _ => reported = ["connecting", "connected"]
  | connect reported, .error _ => reported = [] ∨ reported = ["connecting", "error"]
  | disconnect _ reported, .ok _ => reported = ["disconnecting", "disconnected"]
  | _, _ => False

instance (state : String) : ∀ c : Call, Decidable (c.MayReport state)
  | connect _ => inferInstanceAs (Decidable (_ ∨ _))
  | disconnect _ _ => inferInstanceAs (Decidable (_ <+: _))
  | settled => inferInstanceAs (Decidable False)

instance : ∀ (c : Call) (result : Except String Unit), Decidable (c.MaySettle result)
  | connect _, .ok _ => inferInstanceAs (Decidable (_ = _))
  | connect _, .error _ => inferInstanceAs (Decidable (_ ∨ _))
  | disconnect _ _, .ok _ => inferInstanceAs (Decidable (_ = _))
  | disconnect _ _, .error _ => inferInstanceAs (Decidable False)
  | settled, .ok _ => inferInstanceAs (Decidable False)
  | settled, .error _ => inferInstanceAs (Decidable False)

/-- A pending `connect()`. -/
def connects : Call → Bool
  | connect _ => true
  | _ => false

/-- A pending `disconnect()` of the hook for a session. -/
def covers : Call → Bool
  | disconnect (some _) _ => true
  | _ => false

variable {c : Call} {state : String}

@[simp] theorem connects_reporting : (c.reporting state).connects = c.connects := by
  cases c <;> rfl

@[simp] theorem covers_reporting : (c.reporting state).covers = c.covers := by
  cases c with
  | disconnect byHook => cases byHook <;> rfl
  | _ => rfl

/-- Go's `Connect` reports what lets its call settle the way it does. -/
theorem maySettle_connect {Key Signer Conn : Type*} (ssh : Ssh.SshLibrary Key Signer Conn)
    (client : Ssh.Client Conn) (registry : Ssh.Sessions Conn) :
    (∃ e, (client.connect ssh registry).result = .error e) ∧
        (∀ e, (connect (client.connect ssh registry).states).MaySettle (.error e)) ∨
      (∃ id, (client.connect ssh registry).result = .ok id) ∧
        (connect (client.connect ssh registry).states).MaySettle (.ok ()) :=
  (Ssh.Client.connect_states ssh client registry).imp
    (And.imp_right fun hstates _ => Or.inr hstates) id

end Call

/-- The hook in its component: `hook` with all updates, and `rendered` as the last commit shows
it. `renders` are the sessions of all commits, `effect` the session of the installed effect. -/
structure World where
  hook : Hook
  rendered : Hook
  renders : List (Option ℕ)
  effect : Option ℕ
  calls : List Call
  sessions : ℕ
  /-- How often `connect` has been called. -/
  connects : ℕ
  /-- A `disconnect()` has resolved, and `connect` has not been called since it was. -/
  down : Bool
  deriving DecidableEq, Repr

inductive Event
  | connect
  /-- The callback of a render with this session. -/
  | disconnect (session : Option ℕ)
  | sessionDisconnect (session : ℕ)
  | report (i : ℕ) (state : String)
  | settle (i : ℕ) (result : Except String Unit)
  | commit
  /-- React runs what is left of the cleanup and the effect of the last commit. -/
  | flush

namespace World

/-- Behind the first commit. -/
def start : World where
  hook := .initial
  rendered := .initial
  renders := [none]
  effect := none
  calls := []
  sessions := 0
  connects := 0
  down := false

variable (w : World)

def connect : World :=
  { w with
    hook := w.hook.connect
    calls := w.calls ++ [.connect []]
    connects := w.connects + 1
    down := false }

def sessionDisconnect : World := { w with calls := w.calls ++ [.disconnect none []] }

/-- Without a session the promise resolves at once. -/
def disconnect : Option ℕ → World
  | some _ => { w with calls := w.calls ++ [.disconnect (some w.connects) []] }
  | none => { w with down := true }

def report (i : ℕ) (c : Call) (state : String) : World :=
  { w with hook := w.hook.onStateChange state, calls := w.calls.set i (c.reporting state) }

/-- What is behind the `await` of a call. -/
def behind : Call → Except String Unit → World
  | .connect _, .ok _ =>
    { w with hook := w.hook.connectSettled (.ok w.sessions), sessions := w.sessions + 1 }
  | .connect _, .error e => { w with hook := w.hook.connectSettled (.error e) }
  | .disconnect (some n) _, .ok _ =>
    { w with hook := w.hook.disconnectSettled (.ok ()), down := w.down || n = w.connects }
  | .disconnect (some _) _, .error e => { w with hook := w.hook.disconnectSettled (.error e) }
  | _, _ => w

def settle (i : ℕ) (c : Call) (result : Except String Unit) : World :=
  { w.behind c result with calls := w.calls.set i .settled }

def commit : World :=
  { w with rendered := w.hook, renders := w.hook.session :: w.renders }

def flush : World :=
  { w with
    effect := w.rendered.session
    calls := if w.effect.isSome then w.calls ++ [.disconnect none []] else w.calls }

end World

/-- React has run the effect of one commit before it comes to the next. -/
def machine : Machine World Event where
  step w
    | .connect => some w.connect
    | .disconnect session => if session ∈ w.renders then some (w.disconnect session) else none
    | .sessionDisconnect session => if session < w.sessions then some w.sessionDisconnect else none
    | .report i state =>
      (w.calls[i]?).bind fun c => if c.MayReport state then some (w.report i c state) else none
    | .settle i result =>
      (w.calls[i]?).bind fun c => if c.MaySettle result then some (w.settle i c result) else none
    | .commit => if w.effect = w.rendered.session then some w.commit else none
    | .flush => if w.effect = w.rendered.session then none else some w.flush

/-- What a step makes of the world. -/
inductive Stepped (w : World) : Event → World → Prop
  | connect : Stepped w .connect w.connect
  | disconnect (session) : Stepped w (.disconnect session) (w.disconnect session)
  | sessionDisconnect (session) : Stepped w (.sessionDisconnect session) w.sessionDisconnect
  | report {i c state} (hc : w.calls[i]? = some c) (h : c.MayReport state) :
      Stepped w (.report i state) (w.report i c state)
  | settle {i c result} (hc : w.calls[i]? = some c) (h : c.MaySettle result) :
      Stepped w (.settle i result) (w.settle i c result)
  | commit (h : w.effect = w.rendered.session) : Stepped w .commit w.commit
  | flush (h : w.effect ≠ w.rendered.session) : Stepped w .flush w.flush

theorem step_stepped {w w' : World} {a : Event} (h : machine.step w a = some w') :
    Stepped w a w' := by
  cases a with
  | connect =>
    cases h
    exact .connect
  | disconnect session =>
    obtain ⟨_, hstep⟩ := Option.ite_none_right_eq_some.mp h
    cases hstep
    exact .disconnect session
  | sessionDisconnect session =>
    obtain ⟨_, hstep⟩ := Option.ite_none_right_eq_some.mp h
    cases hstep
    exact .sessionDisconnect session
  | report i state =>
    obtain ⟨c, hc, hstep⟩ := Option.bind_eq_some_iff.mp h
    obtain ⟨hreport, hstep⟩ := Option.ite_none_right_eq_some.mp hstep
    cases hstep
    exact .report hc hreport
  | settle i result =>
    obtain ⟨c, hc, hstep⟩ := Option.bind_eq_some_iff.mp h
    obtain ⟨hsettle, hstep⟩ := Option.ite_none_right_eq_some.mp hstep
    cases hstep
    exact .settle hc hsettle
  | commit =>
    obtain ⟨heffect, hstep⟩ := Option.ite_none_right_eq_some.mp h
    cases hstep
    exact .commit heffect
  | flush =>
    obtain ⟨heffect, hstep⟩ := Option.ite_none_left_eq_some.mp h
    cases hstep
    exact .flush heffect

end SshClientWasm.React
