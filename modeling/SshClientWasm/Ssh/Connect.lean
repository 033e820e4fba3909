import SshClientWasm.Library.History
import SshClientWasm.Ssh.ConnectError

/-!
# Opening a connection in Go

`Client.Connect` and `GetServerFingerprint` on top of an SSH library that is a
parameter. What a handshake did is the list of the host keys it presented to the
callback and of the authentication methods it used; what both functions need to
know about the library is `SshLibrary.Documented`.
-/
namespace SshClientWasm.Ssh

open Library

/-- A method of authentication; the library itself tries `none` first. -/
inductive AuthMethod (Signer : Type*)
  | none
  | password (secret : String)
  | publicKeys (signer : Signer)
  deriving DecidableEq, Repr

/-- A key exchange calls the callback with the key that the server presented. -/
inductive Event (Key Signer : Type*)
  | keyExchange (key : Key)
  | auth (m : AuthMethod Signer)
  deriving DecidableEq, Repr

structure ClientConfig (Key Signer : Type*) where
  user : String
  hostKeyCallback : Key → Option GoError
  auth : List (AuthMethod Signer)
  timeout : ℤ

/-- What `NewClientConn` did, and what it returned. -/
structure Handshake (Key Signer Conn : Type*) where
  events : List (Event Key Signer)
  result : Except GoError Conn

/-- The parts of `golang.org/x/crypto/ssh` in use, with a server behind each
transport. A transport is the place of its `JSTransport`. -/
structure SshLibrary (Key Signer Conn : Type*) where
  type : Key → String
  fingerprintSHA256 : Key → String
  parsePrivateKey : String → Except GoError Signer
  newClientConn : ℕ → String → ClientConfig Key Signer → Handshake Key Signer Conn

variable {Key Signer Conn : Type*}

/-- The documented behaviour of `NewClientConn`: the callback is called in each key
exchange, of which one comes before authentication and before success; when it
errors, the handshake is over and has failed. -/
structure SshLibrary.Documented (ssh : SshLibrary Key Signer Conn) : Prop where
  refused_last : ∀ t addr config, AtEach
    (fun front _ => ∀ key, .keyExchange key ∈ front → config.hostKeyCallback key = none)
    (ssh.newClientConn t addr config).events
  refused_fails : ∀ t addr config key err,
    .keyExchange key ∈ (ssh.newClientConn t addr config).events →
    config.hostKeyCallback key = some err →
      ∃ e, (ssh.newClientConn t addr config).result = .error e
  auth_after_keyExchange : ∀ t addr config, AtEach
    (fun front e => ∀ m, e = .auth m → ∃ key, .keyExchange key ∈ front)
    (ssh.newClientConn t addr config).events
  ok_after_keyExchange : ∀ t addr config conn,
    (ssh.newClientConn t addr config).result = .ok conn →
      ∃ key, .keyExchange key ∈ (ssh.newClientConn t addr config).events

/-- The fields of a `Client` that `Connect` uses; the session id is random. -/
structure Client (Conn : Type*) where
  options : ConnectionOptions
  sessionID : String
  transport : Option ℕ
  conn : Option Conn

/-- The connected clients by session id. -/
abbrev Sessions (Conn : Type*) := String → Option (Client Conn)

/-- The notifications and the handshake of a `Connect`, the registry behind it,
and what it returned. -/
structure Connecting (Key Signer Conn : Type*) where
  states : List String
  events : List (Event Key Signer)
  sessions : Sessions Conn
  result : Except ConnectError String

variable (ssh : SshLibrary Key Signer Conn)

/-- The pin of a presented key. -/
def SshLibrary.pinOf (key : Key) : HostKeyPin := ⟨ssh.type key, ssh.fingerprintSHA256 key⟩

/-- `makePinnedHostKeyCallback`. -/
def makePinnedHostKeyCallback (pin : HostKeyPin) (key : Key) : Option GoError :=
  let got := ssh.pinOf key
  if got.sha256 = pin.sha256 then none
  else some (.connectError ⟨.hostKeyMismatch,
    "host key mismatch: expected " ++ pin.sha256 ++ ", got " ++ got.sha256 ++
      " (" ++ got.algorithm ++ ")", some pin, some got⟩)

/-- Seconds as a `time.Duration`. -/
def seconds (timeout : ℤ) : ℤ := Int.bmod (timeout * 1000000000) (2 ^ 64)

def address (options : ConnectionOptions) : String := options.host ++ ":" ++ toString options.port

namespace Client

variable (c : Client Conn) (sessions : Sessions Conn)

/-- The methods for the credentials of the options. -/
def authMethods : Except ConnectError (List (AuthMethod Signer)) :=
  let passwords : List (AuthMethod Signer) :=
    if c.options.password ≠ "" then [.password c.options.password] else []
  if c.options.privateKey = "" then .ok passwords
  else if looksLikePPK c.options.privateKey then
    .error (newConnectError .ppkNotSupported
      "PuTTY (.ppk) private keys are not supported; convert with `puttygen -O private-openssh yourkey.ppk`")
  else
    match ssh.parsePrivateKey c.options.privateKey with
    | .error err =>
      .error (newConnectError .invalidPrivateKey ("failed to parse private key: " ++ err.message))
    | .ok signer => .ok (passwords ++ [.publicKeys signer])

/-- The configuration for a pin. -/
def config (pin : HostKeyPin) (auth : List (AuthMethod Signer)) : ClientConfig Key Signer where
  user := c.options.user
  hostKeyCallback := makePinnedHostKeyCallback ssh pin
  auth := auth
  timeout := seconds c.options.timeout

/-- An attempt that ends with an error. -/
def failed (events : List (Event Key Signer)) (e : ConnectError) : Connecting Key Signer Conn :=
  ⟨["connecting", "error"], events, sessions, .error e⟩

/-- `Connect`. -/
def connect : Connecting Key Signer Conn :=
  match c.options.hostKeyPin with
  | none => failed sessions [] (newConnectError .hostKeyPinRequired
      "host key pin is required; supply options.HostKeyPin before Connect")
  | some pin =>
    match c.authMethods ssh with
    | .error e => failed sessions [] e
    | .ok auth =>
      match c.transport with
      | none => failed sessions [] (newConnectError .transportError "no transport configured")
      | some t =>
        let handshake := ssh.newClientConn t (address c.options) (c.config ssh pin auth)
        match handshake.result with
        | .error err => failed sessions handshake.events (classifyConnectError err)
        | .ok conn =>
          { states := ["connecting", "connected"]
            events := handshake.events
            sessions := Function.update sessions c.sessionID (some { c with conn := some conn })
            result := .ok c.sessionID }

end Client

/-- The handshake of a `GetServerFingerprint`, and what it returned. -/
structure Capturing (Key Signer : Type*) where
  events : List (Event Key Signer)
  result : Except ConnectError HostKeyPin

/-- The configuration of `GetServerFingerprint`. Its callback captures the key and
returns the sentinel. -/
def captureConfig (options : ConnectionOptions) : ClientConfig Key Signer where
  user := options.user
  hostKeyCallback := fun _ => some (.text "fingerprint-captured")
  auth := []
  timeout := seconds options.timeout

/-- What the callback has captured after its calls. -/
def captured (events : List (Event Key Signer)) : Option HostKeyPin :=
  events.foldl (fun got e =>
    match e with
    | .keyExchange key => some (ssh.pinOf key)
    | .auth _ => got) none

/-- `GetServerFingerprint`. -/
def getServerFingerprint (options : ConnectionOptions) (transport : Option ℕ) :
    Capturing Key Signer :=
  match transport with
  | none => ⟨[], .error (newConnectError .transportError "no transport configured")⟩
  | some t =>
    let handshake := ssh.newClientConn t (address options) (captureConfig options)
    match captured ssh handshake.events with
    | some pin => ⟨handshake.events, .ok pin⟩
    | none =>
      let err := match handshake.result with
        | .error err => err.message
        | .ok _ => "<nil>"
      ⟨handshake.events, .error (newConnectError .transportError
        ("failed to capture host key before handshake error: " ++ err))⟩

variable {ssh} {pin : HostKeyPin} {key : Key} {events front back : List (Event Key Signer)}
  {m : AuthMethod Signer} {t : ℕ} {addr : String} {config : ClientConfig Key Signer} {conn : Conn}

theorem makePinnedHostKeyCallback_eq_none :
    makePinnedHostKeyCallback ssh pin key = none ↔ ssh.fingerprintSHA256 key = pin.sha256 := by
  by_cases h : (ssh.pinOf key).sha256 = pin.sha256
  · exact iff_of_true (if_pos h) h
  · have hrefused : makePinnedHostKeyCallback ssh pin key ≠ none := by
      rw [makePinnedHostKeyCallback, if_neg h]
      exact Option.some_ne_none _
    exact iff_of_false hrefused h

theorem mem_of_captured (h : captured ssh events = some pin) :
    ∃ key, .keyExchange key ∈ events ∧ pin = ssh.pinOf key := by
  induction events using List.reverseRecOn with
  | nil => cases h
  | append_singleton events e ih =>
    rw [captured, List.foldl_append] at h
    cases e with
    | keyExchange key =>
      cases h
      exact ⟨key, by simp, rfl⟩
    | auth m =>
      obtain ⟨key, hmem, hpin⟩ := ih h
      exact ⟨key, List.mem_append_left _ hmem, hpin⟩

namespace SshLibrary.Documented

theorem accepted_before_auth (h : ssh.Documented)
    (hsplit : (ssh.newClientConn t addr config).events = front ++ .auth m :: back) :
    (∃ key, .keyExchange key ∈ front) ∧
      ∀ key, .keyExchange key ∈ front → config.hostKeyCallback key = none :=
  ⟨h.auth_after_keyExchange t addr config front _ back hsplit m rfl,
    h.refused_last t addr config front _ back hsplit⟩

theorem accepted_of_ok (h : ssh.Documented)
    (hok : (ssh.newClientConn t addr config).result = .ok conn)
    (hkey : .keyExchange key ∈ (ssh.newClientConn t addr config).events) :
    config.hostKeyCallback key = none := by
  by_contra hrefused
  obtain ⟨err, herr⟩ := Option.ne_none_iff_exists'.mp hrefused
  obtain ⟨e, he⟩ := h.refused_fails t addr config key err hkey herr
  rw [hok] at he
  cases he

end SshLibrary.Documented

/-- The handshake of a `Connect`, if it comes to one, is made with the callback for
its pin, and decides the rest. -/
theorem Client.connect_cases (c : Client Conn) (sessions : Sessions Conn) :
    ((c.connect ssh sessions).events = [] ∧ ∃ e, (c.connect ssh sessions).result = .error e) ∨
    ∃ pin t addr config, c.options.hostKeyPin = some pin ∧
      config.hostKeyCallback = makePinnedHostKeyCallback ssh pin ∧
      (c.connect ssh sessions).events = (ssh.newClientConn t addr config).events ∧
      ((∃ e, (c.connect ssh sessions).result = .error e) ∨
        ∃ conn, (ssh.newClientConn t addr config).result = .ok conn ∧
          (c.connect ssh sessions).result = .ok c.sessionID ∧
          (c.connect ssh sessions).sessions c.sessionID = some { c with conn := some conn }) := by
  unfold Client.connect
  cases hpin : c.options.hostKeyPin with
  | none => exact Or.inl ⟨rfl, _, rfl⟩
  | some pin =>
    cases hauth : c.authMethods ssh with
    | error e => exact Or.inl ⟨rfl, _, rfl⟩
    | ok auth =>
      cases ht : c.transport with
      | none => exact Or.inl ⟨rfl, _, rfl⟩
      | some t =>
        right
        refine ⟨pin, t, address c.options, c.config ssh pin auth, rfl, rfl, ?_⟩
        cases hresult : (ssh.newClientConn t (address c.options) (c.config ssh pin auth)).result with
        | error err => simp [hresult, Client.failed]
        | ok conn => simp [hresult]

theorem Client.connect_states (ssh : SshLibrary Key Signer Conn) (c : Client Conn)
    (sessions : Sessions Conn) :
    (∃ e, (c.connect ssh sessions).result = .error e) ∧
        (c.connect ssh sessions).states = ["connecting", "error"] ∨
      (∃ id, (c.connect ssh sessions).result = .ok id) ∧
        (c.connect ssh sessions).states = ["connecting", "connected"] := by
  unfold Client.connect
  cases hpin : c.options.hostKeyPin with
  | none => exact Or.inl ⟨⟨_, rfl⟩, rfl⟩
  | some pin =>
    cases hauth : c.authMethods ssh with
    | error e => exact Or.inl ⟨⟨_, rfl⟩, rfl⟩
    | ok auth =>
      cases ht : c.transport with
      | none => exact Or.inl ⟨⟨_, rfl⟩, rfl⟩
      | some t =>
        cases hresult : (ssh.newClientConn t (address c.options) (c.config ssh pin auth)).result with
        | error err =>
          left
          refine ⟨⟨classifyConnectError err, ?_⟩, ?_⟩
          all_goals simp [hresult, Client.failed]
        | ok conn =>
          right
          refine ⟨⟨c.sessionID, ?_⟩, ?_⟩
          all_goals simp [hresult]

theorem Client.connect_ok (hdoc : ssh.Documented) {c : Client Conn} {sessions : Sessions Conn}
    {id : String} (hok : (c.connect ssh sessions).result = .ok id) :
    ∃ pin conn, c.options.hostKeyPin = some pin ∧
      (c.connect ssh sessions).sessions id = some { c with conn := some conn } ∧
      (∃ key, .keyExchange key ∈ (c.connect ssh sessions).events) ∧
      ∀ key, .keyExchange key ∈ (c.connect ssh sessions).events →
        ssh.fingerprintSHA256 key = pin.sha256 := by
  rcases c.connect_cases sessions with
    ⟨_, e, herror⟩ | ⟨pin, t, addr, config, hpin, hcallback, hevents, ⟨e, herror⟩ | hsuccess⟩
  · rw [hok] at herror
    cases herror
  · rw [hok] at herror
    cases herror
  · obtain ⟨conn, hresult, hid, hsessions⟩ := hsuccess
    rw [hok] at hid
    cases hid
    rw [hevents]
    refine ⟨pin, conn, hpin, hsessions, hdoc.ok_after_keyExchange t addr config conn hresult, ?_⟩
    intro key hkey
    have haccepted := hdoc.accepted_of_ok hresult hkey
    rw [hcallback] at haccepted
    exact makePinnedHostKeyCallback_eq_none.mp haccepted

/-- No authentication method is used in a `Connect` before the callback for its pin
has accepted a key, or after it has refused one. -/
theorem Client.connect_auth (hdoc : ssh.Documented) (c : Client Conn) (sessions : Sessions Conn) :
    AtEach (fun front e => ∀ m, e = .auth m → ∃ pin, c.options.hostKeyPin = some pin ∧
      (∃ key, .keyExchange key ∈ front) ∧ ∀ key, .keyExchange key ∈ front →
        makePinnedHostKeyCallback ssh pin key = none) (c.connect ssh sessions).events := by
  rintro front e back hsplit m rfl
  rcases c.connect_cases sessions with ⟨hnil, _⟩ | ⟨pin, t, addr, config, hpin, hcallback, hevents, _⟩
  · rw [hnil] at hsplit
    simp at hsplit
  · rw [hevents] at hsplit
    have haccepted := hdoc.accepted_before_auth hsplit
    rw [hcallback] at haccepted
    exact ⟨pin, hpin, haccepted⟩

theorem getServerFingerprint_ok {options : ConnectionOptions} {transport : Option ℕ}
    (h : (getServerFingerprint ssh options transport).result = .ok pin) :
    ∃ key, .keyExchange key ∈ (getServerFingerprint ssh options transport).events ∧
      pin = ssh.pinOf key := by
  unfold getServerFingerprint at h ⊢
  cases transport with
  | none => cases h
  | some t =>
    simp only at h ⊢
    split at h
    next pin' hcaptured =>
      cases h
      exact mem_of_captured hcaptured
    next => cases h

theorem getServerFingerprint_no_auth (hdoc : ssh.Documented) (options : ConnectionOptions)
    (transport : Option ℕ) (m : AuthMethod Signer) :
    .auth m ∉ (getServerFingerprint ssh options transport).events := by
  intro hmem
  unfold getServerFingerprint at hmem
  cases transport with
  | none => cases hmem
  | some t =>
    simp only at hmem
    have hevents : .auth m ∈
        (ssh.newClientConn t (address options) (captureConfig options)).events := by
      split at hmem <;> exact hmem
    obtain ⟨front, back, hsplit⟩ := List.append_of_mem hevents
    obtain ⟨⟨key, hkey⟩, haccepted⟩ := hdoc.accepted_before_auth hsplit
    have hnone := haccepted key hkey
    cases hnone

end SshClientWasm.Ssh
