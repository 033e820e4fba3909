import SshClientWasm.Bridge.Wasm
import SshClientWasm.Ssh.Connect

/-!
# Host key pinning on the whole path

`SSHClient.connect` and `SSHClient.getServerFingerprint` from the call in
TypeScript to the handshake in Go. Between the awaits anything may happen: what
the functions find when they go on is part of a scenario, and nothing relates
the options that the guard has seen to those that Go parses.
-/
namespace SshClientWasm.Ssh

open Library Bridge

/-- What became of a promise. -/
inductive Promise (ε α : Type*)
  | pending
  | rejected (e : ε)
  | resolved (a : α)
  deriving DecidableEq, Repr

/-- A rejection by the exported Go functions: a text, or a serialized `ConnectError`; or the
`Error` that a call throws when the program is over, or ends in it. -/
inductive RawError
  | text (s : String)
  | connectError (e : ConnectError)
  | exception
  deriving DecidableEq, Repr

/-- A rejection in TypeScript: an `Error` of its own, what a getter, a transport or an
export of Go has thrown, or a typed error with its code. -/
inductive Rejection
  | error (message : String)
  | thrown
  | ssh (e : ConnectError)
  deriving DecidableEq, Repr

/-- `wrapSSHError`; only a mismatch keeps the two pins, and an `Error` stays as it is. -/
def wrapSSHError : RawError → Rejection
  | .text s => .ssh (newConnectError .internal s)
  | .connectError e =>
    if e.code = .hostKeyMismatch then .ssh e else .ssh (newConnectError e.code e.message)
  | .exception => .thrown

/-- The options when the guard reads them, once for each operand of its condition,
and when Go parses them; the promises on the way; the transports and sessions that
Go has when it looks; and the random session id. -/
structure Scenario (Conn : Type*) where
  initialized : Bool
  guardOptions : JsValue
  guardOptions' : JsValue
  options : JsValue
  created : Promise Rejection Unit
  connected : Promise Rejection Unit
  closed : Promise Rejection Unit
  transportID : String
  wasm : Wasm
  sessions : Sessions Conn
  sessionID : String

/-- What the caller's promise became, and what Go did if it was reached. -/
structure Run (α γ : Type*) where
  settled : Promise Rejection α
  go : Option γ

/-- `await` of a promise that only has to resolve. -/
def Run.after {α γ : Type*} (p : Promise Rejection Unit) (rest : Run α γ) : Run α γ :=
  match p with
  | .pending => ⟨.pending, none⟩
  | .rejected e => ⟨.rejected e, none⟩
  | .resolved _ => rest

variable {Key Signer Conn : Type*} (ssh : SshLibrary Key Signer Conn) (env : Scenario Conn)

/-- `!options.hostKeyPin || !options.hostKeyPin.sha256`; `none` where it throws. -/
def pinMissing (options options' : JsValue) : Option Bool := do
  let pin ← options.property "hostKeyPin"
  if pin.truthy then
    let pin' ← options'.property "hostKeyPin"
    let sha256 ← pin'.property "sha256"
    some !sha256.truthy
  else some true

/-- The `connect` that Go exports. A panic while it parses ends the program inside the call,
which throws. -/
def wasmConnect : Promise RawError String × Option (Connecting Key Signer Conn) :=
  match parseConnectionOptions env.options with
  | none => (.rejected .exception, none)
  | some options =>
    match env.wasm.getTransport env.transportID with
    | none => (.rejected (.text "transport not found"), none)
    | some (place, _) =>
      let client : Client Conn := ⟨options, env.sessionID, some place, none⟩
      let connecting := client.connect ssh env.sessions
      match connecting.result with
      | .error e => (.rejected (.connectError e), some connecting)
      | .ok sessionID => (.resolved sessionID, some connecting)

/-- The `getServerFingerprint` that Go exports. -/
def wasmGetServerFingerprint : Promise RawError HostKeyPin × Option (Capturing Key Signer) :=
  match parseConnectionOptions env.options with
  | none => (.rejected .exception, none)
  | some options =>
    match env.wasm.getTransport env.transportID with
    | none => (.rejected (.connectError (newConnectError .transportError
        ("transport not found: " ++ env.transportID))), none)
    | some (place, _) =>
      let capturing := getServerFingerprint ssh options (some place)
      match capturing.result with
      | .error e => (.rejected (.connectError e), some capturing)
      | .ok pin => (.resolved pin, some capturing)

namespace SSHClient

/-- What becomes of a promise of Go. It rejects the caller's once the transport is closed. -/
def settle {α γ : Type*} (p : Promise RawError α × Option γ)
    (onResolved : α → Promise Rejection α) : Run α γ where
  settled :=
    match p.1 with
    | .pending => .pending
    | .rejected e => if env.closed = .pending then .pending else .rejected (wrapSSHError e)
    | .resolved a => onResolved a
  go := p.2

def connect : Run String (Connecting Key Signer Conn) :=
  if env.initialized then
    match pinMissing env.guardOptions env.guardOptions' with
    | none => ⟨.rejected .thrown, none⟩
    | some true => ⟨.rejected (.ssh (newConnectError .hostKeyPinRequired
        "ConnectionOptions.hostKeyPin is required. Use SSHClient.getServerFingerprint() for TOFU capture.")),
        none⟩
    | some false =>
      Run.after env.created <| Run.after env.connected <| settle env (wasmConnect ssh env) .resolved
  else ⟨.rejected (.error "SSHClient not initialized. Call initialize() first."), none⟩

/-- Here the transport is closed in either case. -/
def getServerFingerprint : Run HostKeyPin (Capturing Key Signer) :=
  if env.initialized then
    Run.after env.created <| Run.after env.connected <|
      settle env (wasmGetServerFingerprint ssh env) fun pin =>
        if env.closed = .pending then .pending else .resolved pin
  else ⟨.rejected (.error "SSHClient not initialized. Call initialize() first."), none⟩

end SSHClient

variable {α γ : Type*} {p : Promise RawError α × Option γ} {run : Run α γ}

/-- A run that ends before Go is reached does not resolve, and one that reaches Go
resolves only as Go does. -/
def Run.Follows (run : Run α γ) (p : Promise RawError α × Option γ) : Prop :=
  run.go = none ∧ (∀ a, run.settled ≠ .resolved a) ∨
    run.go = p.2 ∧ ∀ a, run.settled = .resolved a → p.1 = .resolved a

theorem Run.Follows.after (h : run.Follows p) (first : Promise Rejection Unit) :
    (Run.after first run).Follows p := by
  cases first with
  | pending => exact Or.inl ⟨rfl, by simp [Run.after]⟩
  | rejected e => exact Or.inl ⟨rfl, by simp [Run.after]⟩
  | resolved _ => exact h

theorem settle_follows {onResolved : α → Promise Rejection α}
    (h : ∀ a b, onResolved a = .resolved b → a = b) :
    (SSHClient.settle env p onResolved).Follows p := by
  right
  refine ⟨rfl, ?_⟩
  intro b hb
  unfold SSHClient.settle at hb
  cases hp : p.1 with
  | pending => simp [hp] at hb
  | rejected e =>
    rw [hp] at hb
    simp only at hb
    split_ifs at hb
  | resolved a =>
    rw [hp] at hb
    rw [h a b hb]

theorem connect_follows : (SSHClient.connect ssh env).Follows (wasmConnect ssh env) := by
  unfold SSHClient.connect
  split
  · split
    · exact Or.inl ⟨rfl, by simp⟩
    · exact Or.inl ⟨rfl, by simp⟩
    · apply Run.Follows.after
      apply Run.Follows.after
      apply settle_follows
      simp
  · exact Or.inl ⟨rfl, by simp⟩

theorem getServerFingerprint_follows :
    (SSHClient.getServerFingerprint ssh env).Follows (wasmGetServerFingerprint ssh env) := by
  unfold SSHClient.getServerFingerprint
  split
  · apply Run.Follows.after
    apply Run.Follows.after
    apply settle_follows
    intro a b h
    split_ifs at h
    cases h
    rfl
  · exact Or.inl ⟨rfl, by simp⟩

theorem wasmConnect_cases :
    (wasmConnect ssh env).2 = none ∧ (∀ id, (wasmConnect ssh env).1 ≠ .resolved id) ∨
    ∃ c : Client Conn, parseConnectionOptions env.options = some c.options ∧
      (wasmConnect ssh env).2 = some (c.connect ssh env.sessions) ∧
      ∀ id, (wasmConnect ssh env).1 = .resolved id →
        (c.connect ssh env.sessions).result = .ok id := by
  unfold wasmConnect
  cases hparse : parseConnectionOptions env.options with
  | none => simp
  | some options =>
    cases htransport : env.wasm.getTransport env.transportID with
    | none => simp
    | some found =>
      right
      refine ⟨⟨options, env.sessionID, some found.1, none⟩, rfl, ?_⟩
      cases hresult : ((⟨options, env.sessionID, some found.1, none⟩ : Client Conn).connect
          ssh env.sessions).result with
      | error e => simp [hresult]
      | ok id => simp [hresult]

theorem wasmGetServerFingerprint_cases :
    (wasmGetServerFingerprint ssh env).2 = none ∧
      (∀ pin, (wasmGetServerFingerprint ssh env).1 ≠ .resolved pin) ∨
    ∃ options transport,
      (wasmGetServerFingerprint ssh env).2 = some (getServerFingerprint ssh options transport) ∧
      ∀ pin, (wasmGetServerFingerprint ssh env).1 = .resolved pin →
        (getServerFingerprint ssh options transport).result = .ok pin := by
  unfold wasmGetServerFingerprint
  cases hparse : parseConnectionOptions env.options with
  | none => simp
  | some options =>
    cases htransport : env.wasm.getTransport env.transportID with
    | none => simp
    | some found =>
      right
      refine ⟨options, some found.1, ?_⟩
      cases hresult : (getServerFingerprint ssh options (some found.1)).result with
      | error e => simp [hresult]
      | ok pin => simp [hresult]

variable {ssh} {env}

/-- The pin that Go has parsed. -/
def Scenario.Parsed (env : Scenario Conn) (pin : HostKeyPin) : Prop :=
  ∃ v, env.options.get "hostKeyPin" = some v ∧ parseHostKeyPin v = some (some pin)

/-- A connection that resolves is one that Go has made and registered, for a pin it
has parsed, with a server all of whose keys have the pinned fingerprint. -/
theorem connect_resolved (hdoc : ssh.Documented) {id : String}
    (h : (SSHClient.connect ssh env).settled = .resolved id) :
    ∃ connecting pin client, (SSHClient.connect ssh env).go = some connecting ∧
      connecting.result = .ok id ∧ connecting.sessions id = some client ∧
      env.Parsed pin ∧ pin.sha256 ≠ "" ∧
      (∃ key, .keyExchange key ∈ connecting.events) ∧
      ∀ key, .keyExchange key ∈ connecting.events → ssh.fingerprintSHA256 key = pin.sha256 := by
  rcases connect_follows ssh env with ⟨_, hnot⟩ | ⟨hgo, hresolves⟩
  · exact absurd h (hnot id)
  have hwasm := hresolves id h
  rcases wasmConnect_cases ssh env with ⟨_, hnot⟩ | ⟨c, hparse, hc, hok⟩
  · exact absurd hwasm (hnot id)
  have hresult := hok id hwasm
  obtain ⟨pin, conn, hpin, hsessions, hkey, hkeys⟩ := Client.connect_ok hdoc hresult
  obtain ⟨v, hv, hparsed⟩ := parseConnectionOptions_pin hparse hpin
  exact ⟨_, pin, _, hgo.trans hc, hresult, hsessions, ⟨v, hv, hparsed⟩,
    (parseHostKeyPin_eq_some hparsed).1, hkey, hkeys⟩

/-- Whatever becomes of the promise, no authentication method has been used before
the callback for the parsed pin had accepted a key, or after it had refused one. -/
theorem connect_auth (hdoc : ssh.Documented) {connecting : Connecting Key Signer Conn}
    (hgo : (SSHClient.connect ssh env).go = some connecting) :
    AtEach (fun front e => ∀ m, e = .auth m → ∃ pin, env.Parsed pin ∧
      (∃ key, .keyExchange key ∈ front) ∧ ∀ key, .keyExchange key ∈ front →
        makePinnedHostKeyCallback ssh pin key = none) connecting.events := by
  rcases connect_follows ssh env with ⟨hnone, _⟩ | ⟨hfollows, _⟩
  · rw [hnone] at hgo
    cases hgo
  rw [hfollows] at hgo
  rcases wasmConnect_cases ssh env with ⟨hnone, _⟩ | ⟨c, hparse, hc, _⟩
  · rw [hnone] at hgo
    cases hgo
  rw [hc] at hgo
  cases hgo
  refine (c.connect_auth hdoc env.sessions).mono ?_
  intro front e h m hm
  obtain ⟨pin, hpin, haccepted⟩ := h m hm
  exact ⟨pin, parseConnectionOptions_pin hparse hpin, haccepted⟩

/-- A capture uses no authentication method, and resolves with a presented key. -/
theorem getServerFingerprint_captures (env : Scenario Conn) (hdoc : ssh.Documented) :
    (∀ capturing, (SSHClient.getServerFingerprint ssh env).go = some capturing →
      ∀ m, .auth m ∉ capturing.events) ∧
    ∀ pin, (SSHClient.getServerFingerprint ssh env).settled = .resolved pin →
      ∃ capturing key, (SSHClient.getServerFingerprint ssh env).go = some capturing ∧
        .keyExchange key ∈ capturing.events ∧ pin = ⟨ssh.type key, ssh.fingerprintSHA256 key⟩ := by
  rcases getServerFingerprint_follows ssh env with
    ⟨hnone, hnot⟩ | ⟨hfollows, hresolves⟩
  · constructor
    · intro capturing hgo
      rw [hnone] at hgo
      cases hgo
    · exact fun pin h => absurd h (hnot pin)
  rcases wasmGetServerFingerprint_cases ssh env with
    ⟨hnone, hnot⟩ | ⟨options, transport, hgo, hok⟩
  · constructor
    · intro capturing h
      rw [hfollows, hnone] at h
      cases h
    · exact fun pin h => absurd (hresolves pin h) (hnot pin)
  constructor
  · intro capturing h m
    rw [hfollows, hgo] at h
    cases h
    exact getServerFingerprint_no_auth hdoc options transport m
  · intro pin h
    obtain ⟨key, hkey, hpin⟩ := getServerFingerprint_ok (hok pin (hresolves pin h))
    exact ⟨_, key, hfollows.trans hgo, hkey, hpin⟩

/-- Host key pinning fails closed: a connection resolves only with the pinned keys, no
authentication method is used before the pinned callback has accepted, and a capture
authenticates nowhere, accepts no key and returns a presented one. -/
theorem pinning_fails_closed (ssh : SshLibrary Key Signer Conn) (hdoc : ssh.Documented)
    (env : Scenario Conn) :
    (∀ id, (SSHClient.connect ssh env).settled = .resolved id →
      ∃ connecting pin client, (SSHClient.connect ssh env).go = some connecting ∧
        connecting.result = .ok id ∧ connecting.sessions id = some client ∧
        env.Parsed pin ∧ pin.sha256 ≠ "" ∧
        (∃ key, .keyExchange key ∈ connecting.events) ∧
        ∀ key, .keyExchange key ∈ connecting.events →
          ssh.fingerprintSHA256 key = pin.sha256) ∧
    (∀ connecting, (SSHClient.connect ssh env).go = some connecting →
      AtEach (fun front e => ∀ m, e = .auth m → ∃ pin, env.Parsed pin ∧
        (∃ key, .keyExchange key ∈ front) ∧ ∀ key, .keyExchange key ∈ front →
          makePinnedHostKeyCallback ssh pin key = none) connecting.events) ∧
    (∀ capturing, (SSHClient.getServerFingerprint ssh env).go = some capturing →
      ∀ m, .auth m ∉ capturing.events) ∧
    (∀ (options : ConnectionOptions) (key : Key),
      (captureConfig options : ClientConfig Key Signer).hostKeyCallback key ≠ none) ∧
    ∀ pin, (SSHClient.getServerFingerprint ssh env).settled = .resolved pin →
      ∃ capturing key, (SSHClient.getServerFingerprint ssh env).go = some capturing ∧
        .keyExchange key ∈ capturing.events ∧
        pin = ⟨ssh.type key, ssh.fingerprintSHA256 key⟩ := by
  obtain ⟨hauth, hcaptured⟩ := getServerFingerprint_captures env hdoc
  refine ⟨fun id h => connect_resolved hdoc h, fun connecting h => connect_auth hdoc h, hauth, ?_,
    hcaptured⟩
  intro options key
  exact Option.some_ne_none _

/-- A server with one host key that takes one password. -/
def passwordServer : SshLibrary String Unit Unit where
  type := fun _ => "ssh-ed25519"
  fingerprintSHA256 := fun key => "SHA256:" ++ key
  parsePrivateKey := fun _ => .error (.text "ssh: no key found")
  newClientConn := fun _ _ config =>
    match config.hostKeyCallback "key" with
    | some err => ⟨[.keyExchange "key"], .error (.wrap ("ssh: handshake failed: " ++ err.message) err)⟩
    | none =>
      if .password "secret" ∈ config.auth then
        ⟨[.keyExchange "key", .auth .none, .auth (.password "secret")], .ok ()⟩
      else ⟨[.keyExchange "key", .auth .none], .error (.text
        "ssh: handshake failed: ssh: unable to authenticate, attempted methods [none], no supported methods remain")⟩

theorem passwordServer_cases (t : ℕ) (addr : String) (config : ClientConfig String Unit) :
    (passwordServer.newClientConn t addr config).events = [.keyExchange "key"] ∧
      (∃ e, (passwordServer.newClientConn t addr config).result = .error e) ∨
    config.hostKeyCallback "key" = none ∧ ∃ used,
      (passwordServer.newClientConn t addr config).events =
        .keyExchange "key" :: List.map .auth used := by
  cases hcallback : config.hostKeyCallback "key" with
  | some err => simp [passwordServer, hcallback]
  | none =>
    right
    by_cases hauth : .password "secret" ∈ config.auth
    · exact ⟨rfl, [.none, .password "secret"], by simp [passwordServer, hcallback, hauth]⟩
    · exact ⟨rfl, [.none], by simp [passwordServer, hcallback, hauth]⟩

theorem passwordServer_documented : passwordServer.Documented where
  refused_last t addr config := by
    intro front e back hsplit key hkey
    rcases passwordServer_cases t addr config with ⟨hevents, _⟩ | ⟨hnone, used, hevents⟩
    · rw [hevents] at hsplit
      have hlen := congrArg List.length hsplit
      simp only [List.length_cons, List.length_nil, List.length_append] at hlen
      have hfront : front = [] := List.length_eq_zero_iff.mp (by omega)
      rw [hfront] at hkey
      cases hkey
    · have hmem : .keyExchange key ∈ (passwordServer.newClientConn t addr config).events := by
        rw [hsplit]
        exact List.mem_append_left _ hkey
      rw [hevents] at hmem
      obtain rfl : key = "key" := by simpa using hmem
      exact hnone
  refused_fails t addr config key err hkey hrefused := by
    rcases passwordServer_cases t addr config with ⟨_, herror⟩ | ⟨hnone, used, hevents⟩
    · exact herror
    · rw [hevents] at hkey
      obtain rfl : key = "key" := by simpa using hkey
      rw [hnone] at hrefused
      cases hrefused
  auth_after_keyExchange t addr config := by
    rintro front e back hsplit m rfl
    rcases passwordServer_cases t addr config with ⟨hevents, _⟩ | ⟨_, used, hevents⟩
    all_goals
      rw [hevents] at hsplit
      cases front with
      | nil => simp at hsplit
      | cons first front =>
        obtain ⟨rfl, _⟩ := List.cons.inj hsplit
        exact ⟨"key", List.mem_cons_self⟩
  ok_after_keyExchange t addr config conn _ := by
    rcases passwordServer_cases t addr config with ⟨hevents, _⟩ | ⟨_, used, hevents⟩
    all_goals exact ⟨"key", by simp [hevents]⟩

/-- An options object with a password and a pin. -/
def optionsObject (sha256 : String) : JsValue :=
  .object fun name => some <|
    if name = "password" then .string "secret"
    else if name = "hostKeyPin" then
      .object fun name => some (if name = "sha256" then .string sha256 else .undefined)
    else .undefined

/-- The pin is exchanged between the guard and Go. -/
def exchangedPin : Scenario Unit where
  initialized := true
  guardOptions := optionsObject "SHA256:other"
  guardOptions' := optionsObject "SHA256:other"
  options := optionsObject "SHA256:key"
  created := .resolved ()
  connected := .resolved ()
  closed := .resolved ()
  transportID := "transport"
  wasm := Wasm.empty.createTransport "transport"
  sessions := fun _ => none
  sessionID := "ssh-00"

theorem pinning_fails_closed_exchangedPin :
    (SSHClient.connect passwordServer exchangedPin).settled = .resolved "ssh-00" ∧
      ∃ connecting pin client,
        (SSHClient.connect passwordServer exchangedPin).go = some connecting ∧
        connecting.result = .ok "ssh-00" ∧ connecting.sessions "ssh-00" = some client ∧
        exchangedPin.Parsed pin ∧ pin.sha256 ≠ "" ∧
        (∃ key, .keyExchange key ∈ connecting.events) ∧
        ∀ key, .keyExchange key ∈ connecting.events →
          passwordServer.fingerprintSHA256 key = pin.sha256 := by
  have hresolved : (SSHClient.connect passwordServer exchangedPin).settled = .resolved "ssh-00" := by
    decide +kernel
  exact ⟨hresolved, (pinning_fails_closed passwordServer passwordServer_documented exchangedPin).1
    "ssh-00" hresolved⟩

end SshClientWasm.Ssh
