import SshClientWasm.Ssh.Pinning

/-!
# The exported functions and their arguments

How each function that Go exports reads its arguments, which functions among them it
calls later, and exactly with which arguments all of that goes well. Reading a value with
an accessor for another type panics, and so does calling a function that throws.
-/
namespace SshClientWasm.Ssh

open Library

/-- An argument: a value, or what passes for a `Uint8Array` or a `Uint8ClampedArray`, with
the number that `Length` makes of its property `length`, what `subarray` gives for a number
of bytes, and its other properties. Each of the first two may throw instead. -/
inductive JsArg
  | value (v : JsValue)
  | byteArray (length : Option ℤ) (subarray : ℕ → Option Bytes)
      (properties : String → Option JsValue)

namespace JsArg

/-- An array as its constructor leaves it. -/
def uint8Array (bytes : Bytes) : JsArg :=
  .byteArray (some bytes.length) (fun n => some (bytes.take n)) fun _ => some .undefined

/-- An array whose buffer has been transferred: `subarray` throws. -/
def detached : JsArg := .byteArray (some 0) (fun _ => none) fun _ => some .undefined

/-- The argument as `Type`, `Get` and `String` see it. -/
def toValue : JsArg → JsValue
  | value v => v
  | byteArray _ _ properties => .object properties

/-- `make([]byte, n)`, where there is room for so many bytes. -/
def makeBytes (room : ℕ) (n : ℤ) : Option ℕ :=
  if 0 ≤ n ∧ n ≤ room then some n.toNat else none

/-- `Length`, and `CopyBytesToGo` into as many bytes. What `subarray` gives may be shorter
than that, but `set` throws if it is longer. -/
def copyBytesToGo (room : ℕ) : JsArg → Option Bytes
  | value _ => none
  | byteArray length subarray _ => do
    let n ← length.bind (makeBytes room)
    let toCopy ← subarray n
    if toCopy.length ≤ n then some (toCopy ++ List.replicate (n - toCopy.length) 0) else none

theorem uint8Array_copyBytesToGo {room : ℕ} {bytes : Bytes} (h : bytes.length ≤ room) :
    (uint8Array bytes).copyBytesToGo room = some bytes := by
  simp [uint8Array, copyBytesToGo, makeBytes, h]

example : detached.copyBytesToGo 8 = none := rfl

end JsArg

/-- A call of a function that came with the arguments. -/
inductive Invocation
  | onPacketReceive (data : Bytes)
  | onPacketSend (data : Bytes)
  | onStateChange (state : String)
  | onWrite (data : Bytes)
  | onClose
  deriving DecidableEq, Repr

/-- What a call meets: the transports that Go has, the bytes that it can still allocate,
the private keys that it can parse, and the calls for which a function throws. -/
structure Setting where
  registered : String → Bool
  room : ℕ
  parsePrivateKey : String → Except GoError Unit
  throws : Invocation → Bool

/-- The callbacks of `connect` that are functions. -/
structure GoCallbacks where
  onPacketReceive : Bool
  onPacketSend : Bool
  onStateChange : Bool
  deriving DecidableEq, Repr

/-- What an exported function goes on with. -/
inductive Request
  | connect (options : ConnectionOptions) (transportID : String) (callbacks : GoCallbacks)
  | disconnect (sessionID : String)
  | send (sessionID : String) (data : Bytes)
  | createTransport (transportID : String) (onWrite onClose : JsValue)
  | closeTransport (transportID : String)
  | injectTransportData (transportID : String) (data : Bytes)
  | getServerFingerprint (options : ConnectionOptions) (transportID : String)
  | sftpOpen (sshSessionID : String)
  | sftpPut (sftpSessionID remotePath b64 : String)
  | sftpMkdir (sftpSessionID path : String)
  | sftpClose (sftpSessionID : String)

inductive Reply
  | rejected (e : RawError)
  | proceeds (r : Request)

/-- The exported functions that take arguments. -/
inductive Binding
  | connect
  | disconnect
  | send
  | createTransport
  | closeTransport
  | injectTransportData
  | getServerFingerprint
  | sftpOpen
  | sftpPut
  | sftpMkdir
  | sftpClose
  deriving DecidableEq, Repr

/-- Whether a property is a function. -/
def functionField (v : JsValue) (name : String) : Option Bool := do
  let f ← v.get name
  let type ← f.type
  some (type = .function)

/-- The third argument of `connect`. -/
def connectCallbacks (rest : List JsArg) : Option GoCallbacks :=
  match rest with
  | [] => some ⟨false, false, false⟩
  | a :: _ => do
    let type ← a.toValue.type
    if type = .object then
      let onPacketReceive ← functionField a.toValue "onPacketReceive"
      let onPacketSend ← functionField a.toValue "onPacketSend"
      let onStateChange ← functionField a.toValue "onStateChange"
      some ⟨onPacketReceive, onPacketSend, onStateChange⟩
    else some ⟨false, false, false⟩

/-- The second argument of `createTransport`. -/
def transportCallbacks (rest : List JsArg) : Option (JsValue × JsValue) :=
  match rest with
  | [] => some (.undefined, .undefined)
  | a :: _ => do
    let type ← a.toValue.type
    if type = .object then
      let onWrite ← a.toValue.get "onWrite"
      let onClose ← a.toValue.get "onClose"
      some (onWrite, onClose)
    else some (.undefined, .undefined)

namespace Binding

/-- `promiseReject`. -/
def promiseReject (reason : String) : Option Reply := some (.rejected (.text reason))

/-- A call, up to what the function goes on with; `none` is a panic. -/
def call (w : Setting) (args : List JsArg) : Binding → Option Reply
  | .connect =>
    match args with
    | options :: id :: rest => do
      let options ← parseConnectionOptions options.toValue
      let transportID ← id.toValue.str
      if w.registered transportID then
        let callbacks ← connectCallbacks rest
        some (.proceeds (.connect options transportID callbacks))
      else promiseReject "transport not found"
    | _ => promiseReject "missing connection options or transport ID"
  | .disconnect =>
    match args with
    | id :: _ => id.toValue.str.map fun sessionID => .proceeds (.disconnect sessionID)
    | _ => promiseReject "missing session ID"
  | .send =>
    match args with
    | id :: data :: _ => do
      let sessionID ← id.toValue.str
      let data ← data.copyBytesToGo w.room
      some (.proceeds (.send sessionID data))
    | _ => promiseReject "missing session ID or data"
  | .createTransport =>
    match args with
    | id :: rest => do
      let transportID ← id.toValue.str
      let callbacks ← transportCallbacks rest
      some (.proceeds (.createTransport transportID callbacks.1 callbacks.2))
    | _ => promiseReject "missing transport ID"
  | .closeTransport =>
    match args with
    | id :: _ => do
      let transportID ← id.toValue.str
      if w.registered transportID then some (.proceeds (.closeTransport transportID))
      else promiseReject "transport not found"
    | _ => promiseReject "missing transport ID"
  | .injectTransportData =>
    match args with
    | id :: data :: _ => do
      let transportID ← id.toValue.str
      if w.registered transportID then
        let data ← data.copyBytesToGo w.room
        some (.proceeds (.injectTransportData transportID data))
      else promiseReject "transport not found"
    | _ => promiseReject "missing transport ID or data"
  | .getServerFingerprint =>
    match args with
    | options :: id :: _ => do
      let options ← parseConnectionOptions options.toValue
      let transportID ← id.toValue.str
      if w.registered transportID then some (.proceeds (.getServerFingerprint options transportID))
      else some (.rejected (.connectError (newConnectError .transportError
        ("transport not found: " ++ transportID))))
    | _ => promiseReject "missing connection options or transport ID"
  | .sftpOpen =>
    match args with
    | id :: _ => id.toValue.str.map fun sshSessionID => .proceeds (.sftpOpen sshSessionID)
    | _ => promiseReject "missing ssh session ID"
  | .sftpPut =>
    match args with
    | id :: path :: data :: _ => do
      let sftpSessionID ← id.toValue.str
      let remotePath ← path.toValue.str
      let b64 ← data.toValue.str
      some (.proceeds (.sftpPut sftpSessionID remotePath b64))
    | _ => promiseReject "missing sftp session ID, remote path, or data"
  | .sftpMkdir =>
    match args with
    | id :: path :: _ => do
      let sftpSessionID ← id.toValue.str
      let path ← path.toValue.str
      some (.proceeds (.sftpMkdir sftpSessionID path))
    | _ => promiseReject "missing sftp session ID or path"
  | .sftpClose =>
    match args with
    | id :: _ => id.toValue.str.map fun sftpSessionID => .proceeds (.sftpClose sftpSessionID)
    | _ => promiseReject "missing sftp session ID"

end Binding

/-- What a server does in a handshake. -/
abbrev Server := ℕ → String → ClientConfig Unit Unit → Handshake Unit Unit Unit

def Setting.ssh (w : Setting) (server : Server) : SshLibrary Unit Unit Unit where
  type := fun _ => ""
  fingerprintSHA256 := fun _ => ""
  parsePrivateKey := w.parsePrivateKey
  newClientConn := server

@[simp] theorem Setting.ssh_newClientConn (w : Setting) (server : Server) :
    (w.ssh server).newClientConn = server := rfl

/-- `Connect` with the options of a call, against a server. -/
def Setting.connecting (w : Setting) (server : Server) (options : ConnectionOptions) :
    Connecting Unit Unit Unit :=
  (⟨options, "ssh-00", some 0, none⟩ : Client Unit).connect (w.ssh server) fun _ => none

/-- `Connect` can succeed. -/
def Setting.CanConnect (w : Setting) (options : ConnectionOptions) : Prop :=
  ∃ server id, (w.connecting server options).result = .ok id

/-- What Go may call on account of a request, at once or later. `Connect` notifies at once;
packets pass where a handshake is made, and `Disconnect` notifies behind a connection. -/
inductive Request.Invokes (w : Setting) : Request → Invocation → Prop
  | connect {options id callbacks state} (h : callbacks.onStateChange = true) (server : Server)
      (hstate : state ∈ (w.connecting server options).states) :
      Invokes w (.connect options id callbacks) (.onStateChange state)
  | disconnect {options id callbacks state} (h : callbacks.onStateChange = true)
      (hcan : w.CanConnect options) (hstate : state ∈ ["disconnecting", "disconnected"]) :
      Invokes w (.connect options id callbacks) (.onStateChange state)
  | receive {options id callbacks data} (h : callbacks.onPacketReceive = true)
      (hcan : w.CanConnect options) (hdata : data ≠ []) :
      Invokes w (.connect options id callbacks) (.onPacketReceive data)
  | send {options id callbacks data} (h : callbacks.onPacketSend = true)
      (hcan : w.CanConnect options) :
      Invokes w (.connect options id callbacks) (.onPacketSend data)
  | write {id onWrite onClose data} (h : onWrite.type = some .function) :
      Invokes w (.createTransport id onWrite onClose) (.onWrite data)
  | close {id onWrite onClose} (h : onClose.type = some .function) :
      Invokes w (.createTransport id onWrite onClose) .onClose

/-- No function that Go may call throws. -/
def Reply.Harmless (w : Setting) : Reply → Prop
  | .rejected _ => True
  | .proceeds r => ∀ i, r.Invokes w i → w.throws i = false

namespace JsValue

/-- A value of one of the types that Go knows. -/
def Typed (v : JsValue) : Prop := ∀ b, v ≠ .bigint b

/-- A number, or nothing. -/
def Numeric (v : JsValue) : Prop := v = .undefined ∨ ∃ n, v = .number n

/-- An object or a function with a property, whose getter does not throw. -/
def Has (v : JsValue) (name : String) (P : JsValue → Prop) : Prop :=
  ∃ u, v.get name = some u ∧ P u

/-- An object for the pin has a fingerprint, and beside a nonempty one an algorithm. -/
def PinReadable (pin : JsValue) : Prop :=
  pin.Typed ∧ (pin.type = some .object →
    pin.Has "sha256" fun sha =>
      sha.Typed ∧ ∀ s, sha = .string s → s ≠ "" → pin.Has "algorithm" Typed)

/-- Options that can be read: `port` and `timeout` are numbers if they are there. -/
structure OptionsReadable (v : JsValue) : Prop where
  host : v.Has "host" Typed
  port : v.Has "port" Numeric
  user : v.Has "user" Typed
  password : v.Has "password" Typed
  privateKey : v.Has "privateKey" Typed
  timeout : v.Has "timeout" Numeric
  hostKeyPin : v.Has "hostKeyPin" PinReadable

end JsValue

/-- An argument with callbacks, if there is one. -/
def CallbacksReadable (names : List String) (rest : List JsArg) : Prop :=
  ∀ a ∈ rest.head?, a.toValue.Typed ∧
    (a.toValue.type = some .object → ∀ name ∈ names, a.toValue.Has name JsValue.Typed)

/-- What passes for a byte array: its `length` is a number of bytes for which there is room,
and `subarray` gives no more than that. -/
def JsArg.Copyable (room : ℕ) (a : JsArg) : Prop :=
  ∃ (n : ℕ) (subarray : ℕ → Option Bytes) (properties : String → Option JsValue),
    a = .byteArray (some (n : ℤ)) subarray properties ∧ n ≤ room ∧
      ∃ toCopy, subarray n = some toCopy ∧ toCopy.length ≤ n

/-- The arguments that a function can read: options as above, byte arrays where bytes are
read, and nowhere a value of a type that Go does not know. -/
def Binding.Readable (w : Setting) (args : List JsArg) : Binding → Prop
  | .connect =>
    match args with
    | options :: id :: rest =>
      options.toValue.OptionsReadable ∧ id.toValue.Typed ∧
        (id.toValue.str.any w.registered = true →
          CallbacksReadable ["onPacketReceive", "onPacketSend", "onStateChange"] rest)
    | _ => True
  | .send =>
    match args with
    | id :: data :: _ => id.toValue.Typed ∧ data.Copyable w.room
    | _ => True
  | .createTransport =>
    match args with
    | id :: rest => id.toValue.Typed ∧ CallbacksReadable ["onWrite", "onClose"] rest
    | _ => True
  | .injectTransportData =>
    match args with
    | id :: data :: _ => id.toValue.Typed ∧
        (id.toValue.str.any w.registered = true → data.Copyable w.room)
    | _ => True
  | .getServerFingerprint =>
    match args with
    | options :: id :: _ => options.toValue.OptionsReadable ∧ id.toValue.Typed
    | _ => True
  | .sftpPut =>
    match args with
    | id :: path :: data :: _ => id.toValue.Typed ∧ path.toValue.Typed ∧ data.toValue.Typed
    | _ => True
  | .sftpMkdir =>
    match args with
    | id :: path :: _ => id.toValue.Typed ∧ path.toValue.Typed
    | _ => True
  | .disconnect | .closeTransport | .sftpOpen | .sftpClose =>
    match args with
    | id :: _ => id.toValue.Typed
    | _ => True

/-- A property of the callbacks is a function. -/
def JsArg.Supplies (a : JsArg) (name : String) : Prop :=
  a.toValue.type = some .object ∧ ∃ f, a.toValue.get name = some f ∧ f.type = some .function

/-- Options with a pin, and without a private key or with one that Go can parse. -/
def Setting.Dials (w : Setting) (options : ConnectionOptions) : Prop :=
  options.hostKeyPin ≠ none ∧ (options.privateKey = "" ∨
    looksLikePPK options.privateKey = false ∧ ∃ signer, w.parsePrivateKey options.privateKey = .ok signer)

/-- The callbacks of `connect` throw for no state and for no packet that they can get. -/
structure CallbacksQuiet (w : Setting) (options : ConnectionOptions) (a : JsArg) : Prop where
  early : a.Supplies "onStateChange" →
    w.throws (.onStateChange "connecting") = false ∧ w.throws (.onStateChange "error") = false
  late : w.Dials options → a.Supplies "onStateChange" →
    ∀ state ∈ ["connected", "disconnecting", "disconnected"],
      w.throws (.onStateChange state) = false
  receive : w.Dials options → a.Supplies "onPacketReceive" →
    ∀ data ≠ [], w.throws (.onPacketReceive data) = false
  send : w.Dials options → a.Supplies "onPacketSend" →
    ∀ data, w.throws (.onPacketSend data) = false

/-- The functions among the arguments do not throw. -/
def Binding.Quiet (w : Setting) (args : List JsArg) : Binding → Prop
  | .connect =>
    match args with
    | options :: id :: a :: _ => id.toValue.str.any w.registered = true →
        ∀ parsed, parseConnectionOptions options.toValue = some parsed → CallbacksQuiet w parsed a
    | _ => True
  | .createTransport =>
    match args with
    | _ :: a :: _ => (a.Supplies "onWrite" → ∀ data, w.throws (.onWrite data) = false) ∧
        (a.Supplies "onClose" → w.throws .onClose = false)
    | _ => True
  | _ => True

section Accessors

variable {α β : Type*} {x : Option α} {f : α → Option β} {v : JsValue} {name : String}

namespace JsValue

end JsValue

end Accessors

section Calls

variable {α : Type*} {w : Setting} {args rest : List JsArg} {a : JsArg}

end Calls

section Exported

variable {w : Setting} {args rest : List JsArg} {id : JsArg}

end Exported

section Callbacks

variable {w : Setting} {options : ConnectionOptions} {state : String}

end Callbacks

section Harmless

variable {w : Setting} {args : List JsArg} {reply : Reply}

end Harmless

end SshClientWasm.Ssh
