import SshClientWasm.Bridge.Wasm
import SshClientWasm.Tunnel.Session

/-!
# The three transport classes

What an event or a call does to a transport object, which data it passes to
`onData`, and whether it is the object's closure: the close event of a socket, a
reset of the stream or of the session, or the end of a custom `disconnect()`.
-/
namespace SshClientWasm.Bridge

open Library Tunnel

/-- Who awaits a `disconnect()`: the user, `closeTransport` of the manager, or
the `onClose` callback that Go holds. -/
inductive Caller
  | user
  | manager
  | go
  deriving DecidableEq, Repr

/-- `WebSocketTransport`, with the sockets it has constructed. -/
structure WebSocketTransport where
  ws : Option ℕ
  sockets : List ReadyState

/-- `CustomTransport`: which implementation callbacks it was given, and the
calls of them that have not settled. -/
structure CustomTransport where
  isConnected : Bool
  connectImpl : Bool
  disconnectImpl : Bool
  connecting : ℕ
  disconnecting : List Caller

/-- A transport object of one of the three classes. -/
inductive Object
  | webSocket (t : WebSocketTransport)
  | secureTunnel (r : Receiver)
  | custom (t : CustomTransport)

/-- What a step makes of an object, the data it passes to `onData`, and whether
it was the closure of the object. -/
structure Outcome where
  object : Object
  data : Option Bytes
  closes : Bool

namespace WebSocketTransport

variable (t : WebSocketTransport)

def setSocket (i : ℕ) (s : ReadyState) : WebSocketTransport :=
  { t with sockets := t.sockets.set i s }

def unclosed (i : ℕ) : Bool := (t.sockets[i]?).any (· ≠ .closed)

/-- The synchronous part of `connect`. -/
def connect (constructs : Bool) : WebSocketTransport :=
  if constructs then ⟨some t.sockets.length, t.sockets ++ [.connecting]⟩ else t

def disconnect : WebSocketTransport :=
  match t.ws with
  | none => t
  | some i =>
    { ws := none
      sockets := t.sockets.modify i fun
        | .connecting => .closing
        | .open => .closing
        | s => s }

/-- The handlers of the sockets, and the calls of `connect` and `send`. -/
def event : Input → Option Outcome
  | .call (.connect constructs) => some ⟨.webSocket (t.connect constructs), none, false⟩
  | .call (.send _) => some ⟨.webSocket t, none, false⟩
  | .call .disconnect => some ⟨.webSocket t.disconnect, none, false⟩
  | .open i =>
    if t.sockets[i]? = some .connecting then
      some ⟨.webSocket (t.setSocket i .open), none, false⟩
    else none
  | .message i data =>
    if t.sockets[i]? = some .open then some ⟨.webSocket t, data, false⟩ else none
  | .error i => if t.unclosed i then some ⟨.webSocket t, none, false⟩ else none
  | .closing i =>
    if t.unclosed i then some ⟨.webSocket (t.setSocket i .closing), none, false⟩ else none
  | .close i =>
    if t.unclosed i then some ⟨.webSocket (t.setSocket i .closed), none, true⟩ else none

end WebSocketTransport

section SecureTunnel

variable (env : Env) (r : Receiver)

/-- The calls and socket events of the tunnel. The bytes of a message are put
into the buffer; the turns of the receive loop are steps of their own, so that
whatever a callback sets off falls between two of them. -/
def tunnelEvent : Input → Option Outcome
  | .message i data =>
    if r.world.sockets[i]? = some .open then
      some ⟨.secureTunnel { r with receiveBuffer := r.receiveBuffer ++ data.getD [] }, none, false⟩
    else none
  | .close i => ((session env).step r (.close i)).map fun r' => ⟨.secureTunnel r', none, true⟩
  | a => ((session env).step r a).map fun r' => ⟨.secureTunnel r', none, false⟩

/-- The message in the next complete frame, if there is one and it decodes. -/
def nextMessage : Option TunnelMessage :=
  (frameCutter.next r.receiveBuffer).bind fun p => r.world.decoded env p.1

/-- Whether a message resets the stream or the session. -/
def resets (m : TunnelMessage) : Bool :=
  m.type = TunnelMessageType.streamReset ∨ m.type = TunnelMessageType.sessionReset

/-- One turn of the receive loop. -/
def tunnelFrame : Option Outcome :=
  (r.frameStep env).map fun r' =>
    { object := .secureTunnel r'
      data := ((nextMessage env r).filter (·.type = TunnelMessageType.data)).map (·.payload)
      closes := (nextMessage env r).any resets }

end SecureTunnel

namespace CustomTransport

variable (t : CustomTransport)

/-- The call of `connect`, up to the `await`. -/
def connect : CustomTransport :=
  if t.connectImpl then { t with connecting := t.connecting + 1 } else { t with isConnected := true }

/-- `connectImpl` resolves. -/
def connected : Option CustomTransport :=
  if t.connecting = 0 then none
  else some { t with connecting := t.connecting - 1, isConnected := true }

/-- The call of `disconnect`, up to the `await` or to its end. -/
def disconnect (caller : Caller) : Outcome :=
  if t.disconnectImpl then
    ⟨.custom { t with disconnecting := t.disconnecting ++ [caller] }, none, false⟩
  else ⟨.custom { t with isConnected := false }, none, true⟩

/-- A pending `disconnectImpl` settles; a rejection leaves the rest undone. -/
def disconnected (i : ℕ) (resolves : Bool) : Option (Caller × Outcome) :=
  (t.disconnecting[i]?).map fun caller =>
    (caller,
      { object := .custom { t with
          disconnecting := t.disconnecting.eraseIdx i
          isConnected := if resolves then false else t.isConnected }
        data := none
        closes := resolves })

end CustomTransport

namespace Object

variable (env : Env)

def event (o : Object) (a : Input) : Option Outcome :=
  match o with
  | .webSocket t => t.event a
  | .secureTunnel r => tunnelEvent env r a
  | .custom t =>
    match a with
    | .call (.connect _) => some ⟨.custom t.connect, none, false⟩
    | .call (.send _) => some ⟨.custom t, none, false⟩
    | .call .disconnect => some (t.disconnect .user)
    | _ => none

/-- `disconnect()` on behalf of a caller. -/
def disconnect (o : Object) (caller : Caller) : Outcome :=
  match o with
  | .webSocket t => ⟨.webSocket t.disconnect, none, false⟩
  | .secureTunnel r => ⟨.secureTunnel { r with world := r.world.disconnect env }, none, false⟩
  | .custom t => t.disconnect caller

/-- Whether the promise of `disconnect()` resolves without waiting. -/
def disconnects : Object → Bool
  | .custom t => !t.disconnectImpl
  | _ => true

/-- `send()`, as the `onWrite` callback calls it. -/
def send (o : Object) (data : Bytes) : Object :=
  match o with
  | .secureTunnel r => .secureTunnel { r with world := r.world.send env data }
  | o => o

end Object

variable {env : Env} {o : Outcome} {i : Input}

/-- The inputs that are the closure of a networked object: the close event. -/
def IsClose : Input → Prop
  | .close _ => True
  | _ => False

theorem WebSocketTransport.event_closes {t : WebSocketTransport} (h : t.event i = some o) :
    o.closes = true ↔ IsClose i := by
  cases i with
  | call c =>
    cases c <;>
    · cases h
      simp [IsClose]
  | «open» j =>
    obtain ⟨_, h⟩ := Option.ite_none_right_eq_some.mp h
    cases h
    simp [IsClose]
  | message j data =>
    obtain ⟨_, h⟩ := Option.ite_none_right_eq_some.mp h
    cases h
    simp [IsClose]
  | error j =>
    obtain ⟨_, h⟩ := Option.ite_none_right_eq_some.mp h
    cases h
    simp [IsClose]
  | closing j =>
    obtain ⟨_, h⟩ := Option.ite_none_right_eq_some.mp h
    cases h
    simp [IsClose]
  | close j =>
    obtain ⟨_, h⟩ := Option.ite_none_right_eq_some.mp h
    cases h
    simp [IsClose]

theorem tunnelEvent_closes {r : Receiver} (h : tunnelEvent env r i = some o) :
    o.closes = true ↔ IsClose i := by
  cases i with
  | message j data =>
    obtain ⟨_, h⟩ := Option.ite_none_right_eq_some.mp h
    cases h
    simp [IsClose]
  | close j =>
    obtain ⟨_, _, rfl⟩ := Option.map_eq_some_iff.mp h
    simp [IsClose]
  | call c =>
    cases h
    simp [IsClose]
  | «open» j =>
    obtain ⟨_, _, rfl⟩ := Option.map_eq_some_iff.mp h
    simp [IsClose]
  | error j =>
    obtain ⟨_, _, rfl⟩ := Option.map_eq_some_iff.mp h
    simp [IsClose]
  | closing j =>
    obtain ⟨_, _, rfl⟩ := Option.map_eq_some_iff.mp h
    simp [IsClose]

theorem CustomTransport.disconnect_closes (t : CustomTransport) (caller : Caller) :
    (t.disconnect caller).closes = !t.disconnectImpl := by
  unfold CustomTransport.disconnect
  split_ifs with h
  · simp [h]
  · simp [h]

theorem disconnect_closes_of_waits (env : Env) {object : Object} {caller : Caller}
    (h : ¬ object.disconnects = true) : (object.disconnect env caller).closes = false := by
  cases object with
  | webSocket t => rfl
  | secureTunnel r => rfl
  | custom t =>
    have himpl : t.disconnectImpl = true := by simpa [Object.disconnects] using h
    rw [Object.disconnect, t.disconnect_closes, himpl]
    rfl

end SshClientWasm.Bridge
