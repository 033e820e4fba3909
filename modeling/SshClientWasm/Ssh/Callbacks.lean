import SshClientWasm.Bridge.JSTransport
import SshClientWasm.Library.Host
import SshClientWasm.Ssh.Lifecycle

/-!
# User functions that throw

The sessions of a page are parts of one Go program. Wherever a session calls into
JavaScript, a function of the user may throw; `Value.Invoke` panics then, and nothing
recovers, unless an asynchronous method of `CustomTransport` has made a rejected promise
of it, which the callbacks of the manager catch.
-/
namespace SshClientWasm.Ssh

open Library Bridge

/-- Which callbacks the user has supplied with `connect`. -/
structure SessionCallbacks where
  onPacketSend : Bool
  onPacketReceive : Bool
  onStateChange : Bool
  deriving DecidableEq, Repr

/-- A transport object of the user's own, or a `CustomTransport` with the functions that
the user has supplied. -/
inductive UserTransport
  | own
  | custom (sendImpl disconnectImpl : Bool)
  deriving DecidableEq, Repr

/-- The functions of the user that Go reaches. -/
inductive UserFunction
  | onPacketSend
  | onPacketReceive
  | onStateChange
  | send
  | disconnect
  | sendImpl
  | disconnectImpl
  deriving DecidableEq, Repr

/-- What the JavaScript function that Go invokes does. The callbacks pass an exception on;
`onWrite` and `onClose` catch a promise that rejects, but no exception. -/
def UserFunction.invoked (f : UserFunction) (r : Reaction) : Reaction :=
  match f with
  | sendImpl | disconnectImpl => .returns
  | onPacketSend | onPacketReceive | onStateChange | send | disconnect =>
    match r with
    | .throws => .throws
    | .returns | .rejects => .returns

/-- `Value.Invoke` panics on an exception, and no goroutine recovers. -/
def UserFunction.fatal (f : UserFunction) (r : Reaction) : Bool := f.invoked r = .throws

/-- A session: what the user has supplied, the client with its goroutines, the transport,
the goroutines that the interceptor has started, what was passed to `send` and what the
connection has read. -/
structure SessionState (τ κ : Type*) where
  callbacks : Option SessionCallbacks
  userTransport : UserTransport
  isConnected : Bool
  client : Guarded τ (Shared κ ℕ) Goroutine
  transport : JSTransport
  spawned : List UserFunction
  sent : List Bytes
  received : Bytes

/-- The steps of a session in Go: of the client, of `Connect` when it notifies, of the
goroutines for stdout and stderr when they have read, of the connection on its
intercepted transport, and of the goroutines of the interceptor. -/
inductive SessionStep (τ : Type*)
  | client (a : τ × Input ⊕ ℕ)
  | notify (state : String)
  | output (data : Bytes)
  | write (p : Bytes)
  | read (len : ℕ) (arm : Arm)
  | spawned (g : ℕ)
  | close
  | inject (data : Bytes)
  | connected (isConnected : Bool)

namespace SessionState

variable {τ κ : Type*} (s : SessionState τ κ)

/-- The wrapper of a packet callback is always there, the callback itself may not be. -/
def onPacketSend : Option UserFunction :=
  if s.callbacks.any (·.onPacketSend) then some .onPacketSend else none

def onPacketReceive : Option UserFunction :=
  if s.callbacks.any (·.onPacketReceive) then some .onPacketReceive else none

def notifyStateChange : Option UserFunction :=
  if s.callbacks.any (·.onStateChange) then some .onStateChange else none

/-- `onWrite`, which calls `send`. -/
def onWrite : Option UserFunction :=
  match s.userTransport with
  | .own => some .send
  | .custom sendImpl _ => if s.isConnected && sendImpl then some .sendImpl else none

/-- `onClose`, which calls `disconnect`. -/
def onClose : Option UserFunction :=
  match s.userTransport with
  | .own => some .disconnect
  | .custom _ disconnectImpl => if disconnectImpl then some .disconnectImpl else none

/-- A goroutine of the interceptor. -/
def spawn (f : UserFunction) : List UserFunction :=
  if s.callbacks.isSome then s.spawned ++ [f] else s.spawned

/-- What a step of the client calls: `Disconnect` notifies before it takes the lock and
before it gives it back, `Send` calls back when the channel has taken the data. -/
def clientCall (client : Guarded τ (Shared κ ℕ) Goroutine) :
    τ × Input ⊕ ℕ → Option UserFunction
  | .inl (_, .call .disconnect) => s.notifyStateChange
  | .inl (t, .go _) =>
    match (s.client.pc t).stage, (client.pc t).stage with
    | .unregister, _ => s.notifyStateChange
    | .select _, .done _ (.ok _) => s.onPacketSend
    | _, _ => none
  | _ => none

end SessionState

variable {τ κ : Type*} [DecidableEq τ]

/-- A step with the function of the user that it calls. -/
def sessionPart : Part (SessionState τ κ) (SessionStep τ) UserFunction where
  step s
    | .client a =>
      (program.machine.step s.client a).map fun client =>
        ({ s with client := client }, s.clientCall client a)
    | .notify _ => some (s, s.notifyStateChange)
    | .output data => some (s, if data = [] then none else s.onPacketReceive)
    | .write p =>
      let s' := { s with spawned := s.spawn .onPacketSend }
      some (if s.transport.closed then (s', none)
        else ({ s' with sent := s.sent ++ [p] }, s.onWrite))
    | .read len arm =>
      if s.transport.closed then some (s, none)
      else
        (s.transport.readUnlocked len arm).map fun r =>
          ({ s with
              transport := r.1
              received := s.received ++ r.2.1
              spawned := if r.2.1 = [] then s.spawned else s.spawn .onPacketReceive }, none)
    | .spawned g =>
      (s.spawned[g]?).map fun f =>
        ({ s with spawned := s.spawned.eraseIdx g },
          match f with
          | .onPacketSend => s.onPacketSend
          | _ => s.onPacketReceive)
    | .close =>
      match s.transport.closeLocked with
      | (_, false) => some (s, none)
      | (t, true) => some ({ s with transport := t.closeChan }, s.onClose)
    | .inject data => some ({ s with transport := (s.transport.injectData data).1 }, none)
    | .connected isConnected => some ({ s with isConnected := isConnected }, none)

/-- Where a function of the user throws in a step, it is one that `CustomTransport` calls
in an asynchronous method. -/
def Asynchronous {ι : Type*} (s : Host ι (SessionState τ κ))
    (label : ι × SessionStep τ × Reaction) : Prop :=
  ∀ f, Host.Throws sessionPart s label f → f = .sendImpl ∨ f = .disconnectImpl

variable {ι : Type*} [DecidableEq ι]

theorem UserFunction.fatal_throws_iff {f : UserFunction} :
    f.fatal .throws = false ↔ f = .sendImpl ∨ f = .disconnectImpl := by
  cases f <;> decide

/-- In every run of any number of sessions, every throw is contained exactly if it
happens in an asynchronous method of `CustomTransport`. -/
theorem faults_contained_iff (labels : List (ι × SessionStep τ × Reaction))
    (s s' : Host ι (SessionState τ κ))
    (hrun : (Host.machine sessionPart UserFunction.fatal).run s labels = some s') :
    (Host.machine sessionPart UserFunction.fatal).Steps (Host.Contained sessionPart) s labels ↔
      (Host.machine sessionPart UserFunction.fatal).Admits Asynchronous s labels := by
  have hguard : Host.Survived sessionPart UserFunction.fatal =
      (Asynchronous : Host ι (SessionState τ κ) → _ → Prop) := by
    funext s label
    simp only [Host.Survived, Asynchronous, UserFunction.fatal_throws_iff]
  rw [← hguard]
  exact Host.steps_contained_iff labels s s' hrun

/-- A connected session with all callbacks. -/
def connectedSession (userTransport : UserTransport) : SessionState ℕ Unit where
  callbacks := some ⟨true, true, true⟩
  userTransport := userTransport
  isConnected := true
  client := Program.start (Shared.connected "ssh-00" 0 (fun _ => none) ()) ⟨.idle, false⟩
  transport := .new "t"
  spawned := []
  sent := []
  received := []

/-- The `sendImpl` of one session throws, and the other one goes on. -/
theorem faults_contained_sendImpl :
    (Host.machine sessionPart UserFunction.fatal).Steps (Host.Contained sessionPart)
      ⟨true, fun _ : Bool => connectedSession (.custom true true)⟩
      [(false, .write [1], .throws), (true, .write [2], .returns)] := by
  apply (faults_contained_iff _ _ _ rfl).mpr
  refine (Machine.admits_cons _ rfl).mpr ⟨?_, (Machine.admits_cons _ rfl).mpr ⟨?_, trivial⟩⟩
  · rintro f ⟨_, next, hstep⟩
    cases hstep
    exact Or.inl rfl
  · rintro f ⟨hthrows, _⟩
    cases hthrows

/-- A callback of one session that throws ends the program, and with it the other one. -/
theorem throwing_not_contained :
    ∃ s, (Host.machine sessionPart UserFunction.fatal).run
        ⟨true, fun _ : Bool => connectedSession .own⟩
        [(false, .client (.inl (0, .call .disconnect)), .throws)] = some s ∧
      s.running = false ∧
      (Host.machine sessionPart UserFunction.fatal).step s (true, .write [2], .returns) = none ∧
      ¬ (Host.machine sessionPart UserFunction.fatal).Steps (Host.Contained sessionPart)
        ⟨true, fun _ : Bool => connectedSession .own⟩
        [(false, .client (.inl (0, .call .disconnect)), .throws)] := by
  refine ⟨_, rfl, rfl, rfl, ?_⟩
  intro hsteps
  have hrunning := ((hsteps _ rfl).1 ⟨.onStateChange, rfl, _, rfl⟩).1
  cases hrunning

end SshClientWasm.Ssh
