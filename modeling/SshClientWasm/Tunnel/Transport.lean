import SshClientWasm.Tunnel.Messages

/-!
# The secure tunnel transport

`SecureTunnelTransport` with the sockets it has constructed and a record of
what it did. The record holds what the source passes to a socket, to a callback
or to the console, in order. `receiveBuffer` is kept beside the other fields:
only `handleIncomingData` touches it, and the types below say so.

A callback is user code. It may call the transport again before it returns; the
calls it makes are an arbitrary function of everything recorded so far.
-/
namespace SshClientWasm.Tunnel

open Library

inductive ReadyState
  | connecting
  | open
  | closing
  | closed
  deriving DecidableEq, Repr

/-- What the transport did, as an observer of its console, its sockets and its
callbacks sees it. A written frame is recorded with the message it encodes. -/
inductive Event
  | connectCalled
  | sendCalled (data : Bytes)
  | wrote (socket : ℕ) (message : MessageFields) (frame : Bytes)
  | receivedFrame (body : Bytes)
  | receivedMessage (message : TunnelMessage)
  | onData (payload : Bytes)
  | onError (error : String)
  | onClose
  deriving DecidableEq, Repr

/-- The public methods; `connect` carries whether the `WebSocket` constructor
returned or threw. -/
inductive ApiCall
  | connect (constructs : Bool)
  | send (data : Bytes)
  | disconnect
  deriving DecidableEq, Repr

/-- The optional callbacks, as the calls each makes on the transport. -/
structure Handlers where
  onData : Option (List Event → List ApiCall)
  onError : Option (List Event → List ApiCall)
  onClose : Option (List Event → List ApiCall)

/-- Callbacks that are installed and call nothing. -/
def Handlers.passive : Handlers where
  onData := some fun _ => []
  onError := some fun _ => []
  onClose := some fun _ => []

/-- The generated message classes and the installed callbacks. -/
structure Env where
  codecs : ProtocolVersion → Codec
  handlers : Handlers

/-- The fields of `SecureTunnelTransport` except `receiveBuffer`. `ws` refers to
the sockets in the order of their construction. -/
structure World where
  config : SecureTunnelConfig
  ws : Option ℕ
  streamId : Int32
  connectionId : UInt32
  isConnected : Bool
  tunnelReady : Bool
  messageQueue : List Bytes
  sockets : List ReadyState
  trace : List Event

/-- `new SecureTunnelTransport(id, config)`. -/
def World.fresh (config : SecureTunnelConfig) : World where
  config := config
  ws := none
  streamId := 1
  connectionId := 1
  isConnected := false
  tunnelReady := false
  messageQueue := []
  sockets := []
  trace := []

/-- What `encodeMessage` returns, with the message it was made from. -/
structure Encoded where
  message : MessageFields
  bytes : Bytes

namespace World

def log (w : World) (e : Event) : World := { w with trace := w.trace ++ [e] }

/-- `ws.close()`: a socket that is closing or closed is left as it is. -/
def closeSocket (w : World) (i : ℕ) : World :=
  { w with
    sockets := w.sockets.modify i fun
      | .connecting => .closing
      | .open => .closing
      | s => s }

def encodeMessage (env : Env) (w : World) (m : MessageFields) : Encoded :=
  ⟨m, (env.codecs w.config.version).encode m⟩

/-- `this.ws && this.ws.readyState === WebSocket.OPEN`. -/
def socketOpen (w : World) : Option ℕ :=
  w.ws.filter fun i => w.sockets[i]? = some .open

/-- `sendFrame`: dropped with a warning unless the socket is open. -/
def sendFrame (w : World) (data : Encoded) : World :=
  match w.socketOpen with
  | none => w
  | some i => w.log (.wrote i data.message (frame data.bytes))

def sendControlMessage (env : Env) (w : World) (m : MessageFields) : World :=
  w.sendFrame (w.encodeMessage env m)

def maxPayloadSize : ℕ := 63 * 1024

/-- The message `sendDataFrame` builds around one chunk. -/
def dataMessage (w : World) (chunk : Bytes) : MessageFields where
  type := TunnelMessageType.data
  streamId := some w.streamId
  payload := some chunk
  serviceId := if w.config.version ≠ .v1 then w.config.truthyServiceId else none
  connectionId := if w.config.version = .v3 then some w.connectionId else none

def sendDataFrame (env : Env) (w : World) (data : Bytes) : World :=
  (slices maxPayloadSize data).foldl
    (fun w chunk => w.sendFrame (w.encodeMessage env (w.dataMessage chunk))) w

/-- The loop of `processQueuedMessages` over the entries it shifts off. -/
def processQueuedFrom (env : Env) : List Bytes → World → World
  | [], w => w
  | msg :: rest, w =>
    processQueuedFrom env rest ({ w with messageQueue := rest }.sendDataFrame env msg)

def processQueuedMessages (env : Env) (w : World) : World :=
  processQueuedFrom env w.messageQueue w

/-- `send`: queued unless connected, with a socket, and ready. -/
def send (env : Env) (w : World) (data : Bytes) : World :=
  let w := w.log (.sendCalled data)
  if w.isConnected = false ∨ w.ws = none ∨ w.tunnelReady = false then
    { w with messageQueue := w.messageQueue ++ [data] }
  else w.sendDataFrame env data

def disconnect (env : Env) (w : World) : World :=
  let w := match w.ws with
    | none => w
    | some i =>
      { (w.sendControlMessage env
          { type := TunnelMessageType.streamReset, streamId := some w.streamId }).closeSocket i with
        ws := none }
  { w with isConnected := false, tunnelReady := false }

/-- `connect`: without an access token `buildWebSocketUrl` throws before any
socket exists. -/
def connect (w : World) (constructs : Bool) : World :=
  let w := w.log .connectCalled
  if w.config.accessToken = "" ∨ constructs = false then w
  else { w with ws := some w.sockets.length, sockets := w.sockets ++ [.connecting] }

def apiCall (env : Env) (w : World) : ApiCall → World
  | .connect constructs => w.connect constructs
  | .send data => w.send env data
  | .disconnect => w.disconnect env

/-- Invoke a callback if one is installed: it may call the transport again. -/
def invoke (env : Env) (w : World) (callback : Option (List Event → List ApiCall))
    (e : Event) : World :=
  match callback with
  | none => w
  | some react => (react (w.trace ++ [e])).foldl (apiCall env) (w.log e)

/-- `handleMessage`. The prototype of every message class gives `streamId` and
`payload` a value, so that the tests for a missing one never fail. -/
def handleMessage (env : Env) (w : World) (m : TunnelMessage) : World :=
  let w := w.log (.receivedMessage m)
  if m.type = TunnelMessageType.data then
    w.invoke env env.handlers.onData (.onData m.payload)
  else if m.type = TunnelMessageType.streamStart then
    if w.config.clientMode = .destination then
      { w with streamId := m.streamId, tunnelReady := true }.processQueuedMessages env
    else w
  else if m.type = TunnelMessageType.streamReset then
    w.invoke env env.handlers.onClose .onClose
  else if m.type = TunnelMessageType.sessionReset then
    w.disconnect env
  else if m.type = TunnelMessageType.serviceIds then
    if w.config.clientMode = .source then
      { w with tunnelReady := true }.processQueuedMessages env
    else w
  else w

/-- The body of the receive loop behind the cutting: log, decode, handle, and
report a body that does not decode. -/
def dispatch (env : Env) (w : World) (body : Bytes) : World :=
  let w := w.log (.receivedFrame body)
  match (env.codecs w.config.version).decode body with
  | .ok m => w.handleMessage env m
  | .error e => w.invoke env env.handlers.onError (.onError e)

/-- The `onopen` handler: the opening message of the client's mode. -/
def onopen (env : Env) (w : World) : World :=
  let w := { w with isConnected := true }
  match w.config.clientMode with
  | .destination =>
    match w.config.truthyServiceId with
    | some id =>
      w.sendControlMessage env
        { type := TunnelMessageType.serviceIds, availableServiceIds := [id] }
    | none => w
  | .source =>
    w.sendControlMessage env
      { type := TunnelMessageType.streamStart
        streamId := some w.streamId
        serviceId := w.config.serviceId }

/-- The `onerror` handler. -/
def onerror (env : Env) (w : World) : World :=
  w.invoke env env.handlers.onError
    (.onError "WebSocket error connecting to AWS IoT Secure Tunnel")

/-- The `onclose` handler. -/
def onclose (env : Env) (w : World) : World :=
  { w with isConnected := false, tunnelReady := false }.invoke env env.handlers.onClose .onClose

end World

/-- `SecureTunnelTransport` with its `receiveBuffer`. -/
structure Receiver where
  world : World
  receiveBuffer : Bytes

def Receiver.fresh (config : SecureTunnelConfig) : Receiver := ⟨.fresh config, []⟩

namespace Receiver

/-- One turn of the loop in `handleIncomingData`; `none` when the loop ends,
because a prefix or a body is incomplete. -/
def frameStep (env : Env) (r : Receiver) : Option Receiver :=
  match r.receiveBuffer with
  | hi :: lo :: rest =>
    if rest.length < getUint16 hi lo then none
    else some
      { world := r.world.dispatch env (rest.take (getUint16 hi lo))
        receiveBuffer := rest.drop (getUint16 hi lo) }
  | _ => none

/-- The loop, for at most the given number of turns. -/
def frameLoop (env : Env) : ℕ → Receiver → Receiver
  | 0, r => r
  | turns + 1, r =>
    match r.frameStep env with
    | none => r
    | some r' => frameLoop env turns r'

/-- `handleIncomingData`. Every turn consumes at least a prefix, so the number of
bytes bounds the number of turns (`frameStep_handleIncomingData`). -/
def handleIncomingData (env : Env) (r : Receiver) (data : Bytes) : Receiver :=
  let r := { r with receiveBuffer := r.receiveBuffer ++ data }
  frameLoop env r.receiveBuffer.length r

end Receiver
end SshClientWasm.Tunnel
