import SshClientWasm.Ssh.Errors
import SshClientWasm.Ssh.Pinning

/-!
# Trust on first use

A page learns a pin from `getServerFingerprint`, or from the mismatch with which `connect` has
rejected another one. Once the user has approved it, the page passes it on in the options of
the next `connect`. The pin crosses the boundary of Go three times on the way.
-/
namespace SshClientWasm.Ssh

open Library Bridge

variable {Key Signer Conn : Type*} {ssh : SshLibrary Key Signer Conn} {env : Scenario Conn}
  {pin : HostKeyPin} {key : Key}

theorem parseHostKeyPin_pinToJS (h : pin.sha256 ≠ "") :
    parseHostKeyPin (Errors.pinToJS pin) = some (some pin) := by
  have halgorithm : algorithmField (Errors.pinToJS pin) = some pin.algorithm := rfl
  have hsha256 : (Errors.pinToJS pin).get "sha256" = some (.string pin.sha256) := rfl
  rw [parseHostKeyPin, hsha256, halgorithm]
  simp [Errors.pinToJS, JsValue.type, JsValue.str, h]

theorem pinMissing_pinToJS {options : JsValue}
    (hpin : options.get "hostKeyPin" = some (Errors.pinToJS pin)) (h : pin.sha256 ≠ "") :
    pinMissing options options = some false := by
  have hproperty : options.property "hostKeyPin" = some (Errors.pinToJS pin) := by
    cases options with
    | object properties => exact hpin
    | function properties => exact hpin
    | _ => cases hpin
  have hsha256 : (Errors.pinToJS pin).property "sha256" = some (.string pin.sha256) := rfl
  have htruthy : (Errors.pinToJS pin).truthy = true := rfl
  have hstring : (JsValue.string pin.sha256).truthy = true := by simp [JsValue.truthy, h]
  simp [pinMissing, hproperty, hsha256, htruthy, hstring]

/-- The documented error of `NewClientConn`: it wraps the error of the callback. It has no
`ConnectError` of its own, and neither does the transport. -/
structure SshLibrary.Wraps (ssh : SshLibrary Key Signer Conn) : Prop where
  refused : ∀ t addr config key err,
    .keyExchange key ∈ (ssh.newClientConn t addr config).events →
    config.hostKeyCallback key = some err →
      ∃ e, (ssh.newClientConn t addr config).result = .error e ∧
        e.asConnectError = err.asConnectError
  only : ∀ t addr config e ce, (ssh.newClientConn t addr config).result = .error e →
    e.asConnectError = some ce → ∃ key err,
      .keyExchange key ∈ (ssh.newClientConn t addr config).events ∧
        config.hostKeyCallback key = some err ∧ err.asConnectError = some ce

/-- The error for a key other than the pinned one. -/
def mismatchError (ssh : SshLibrary Key Signer Conn) (pin : HostKeyPin) (key : Key) :
    ConnectError :=
  ⟨.hostKeyMismatch, "host key mismatch: expected " ++ pin.sha256 ++ ", got " ++
    (ssh.pinOf key).sha256 ++ " (" ++ (ssh.pinOf key).algorithm ++ ")", some pin,
    some (ssh.pinOf key)⟩

theorem makePinnedHostKeyCallback_eq : makePinnedHostKeyCallback ssh pin key =
    if ssh.fingerprintSHA256 key = pin.sha256 then none
    else some (.connectError (mismatchError ssh pin key)) := rfl

theorem Client.connect_mismatch (hwraps : ssh.Wraps) {c : Client Conn} {sessions : Sessions Conn}
    (hpin : c.options.hostKeyPin = some pin)
    (hkey : .keyExchange key ∈ (c.connect ssh sessions).events)
    (hother : ssh.fingerprintSHA256 key ≠ pin.sha256) :
    (c.connect ssh sessions).result = .error (mismatchError ssh pin key) := by
  unfold Client.connect at hkey ⊢
  rw [hpin] at hkey ⊢
  cases hauth : c.authMethods ssh with
  | error e =>
    rw [hauth] at hkey
    cases hkey
  | ok auth =>
    cases ht : c.transport with
    | none =>
      rw [hauth, ht] at hkey
      cases hkey
    | some t =>
      simp only [hauth, ht] at hkey ⊢
      have hrefused : (c.config ssh pin auth).hostKeyCallback key =
          some (.connectError (mismatchError ssh pin key)) := if_neg hother
      have hevent : .keyExchange key ∈
          (ssh.newClientConn t (address c.options) (c.config ssh pin auth)).events := by
        revert hkey
        split <;> exact id
      obtain ⟨e, he, hchain⟩ := hwraps.refused t _ _ key _ hevent hrefused
      rw [he]
      simp only [Client.failed, classifyConnectError, hchain, GoError.asConnectError]

theorem Client.authMethods_code {c : Client Conn} {e : ConnectError}
    (h : c.authMethods ssh = .error e) : e.code ≠ .hostKeyMismatch := by
  intro hcode
  simp only [Client.authMethods] at h
  by_cases hkey : c.options.privateKey = ""
  · rw [if_pos hkey] at h
    cases h
  rw [if_neg hkey] at h
  by_cases hppk : looksLikePPK c.options.privateKey = true
  · rw [if_pos hppk] at h
    cases h
    cases hcode
  rw [if_neg hppk] at h
  cases hsigner : ssh.parsePrivateKey c.options.privateKey with
  | error err =>
    rw [hsigner] at h
    cases h
    cases hcode
  | ok signer =>
    rw [hsigner] at h
    cases h

theorem classifyConnectError_mismatch {err : GoError}
    (h : (classifyConnectError err).code = .hostKeyMismatch) :
    err.asConnectError = some (classifyConnectError err) := by
  unfold classifyConnectError at h ⊢
  cases hchain : err.asConnectError with
  | some ce => rfl
  | none =>
    simp only [hchain] at h
    split_ifs at h
    · cases h
    · cases h

theorem Client.connect_error_mismatch (hwraps : ssh.Wraps) {c : Client Conn}
    {sessions : Sessions Conn} {e : ConnectError} (h : (c.connect ssh sessions).result = .error e)
    (hcode : e.code = .hostKeyMismatch) :
    ∃ pin key, .keyExchange key ∈ (c.connect ssh sessions).events ∧ e = mismatchError ssh pin key := by
  unfold Client.connect at h ⊢
  cases hpin : c.options.hostKeyPin with
  | none =>
    rw [hpin] at h
    cases h
    cases hcode
  | some pin =>
    rw [hpin] at h
    cases hauth : c.authMethods ssh with
    | error e =>
      rw [hauth] at h
      cases h
      exact absurd hcode (Client.authMethods_code hauth)
    | ok auth =>
      rw [hauth] at h
      cases ht : c.transport with
      | none =>
        rw [ht] at h
        cases h
        cases hcode
      | some t =>
        rw [ht] at h
        cases hresult : (ssh.newClientConn t (address c.options) (c.config ssh pin auth)).result with
        | ok conn => simp [hresult] at h
        | error err =>
          simp only [hresult, Client.failed, Except.error.injEq] at h ⊢
          subst h
          obtain ⟨key, err', hkey, hrefused, hchain⟩ := hwraps.only t _ _ err _ hresult
            (classifyConnectError_mismatch hcode)
          have hcallback : makePinnedHostKeyCallback ssh pin key = some err' := hrefused
          rw [makePinnedHostKeyCallback_eq] at hcallback
          split_ifs at hcallback
          cases hcallback
          exact ⟨pin, key, hkey, (Option.some.inj hchain).symm⟩

theorem Run.after_eq {α γ : Type*} {first : Promise Rejection Unit} {rest : Run α γ} {go : γ}
    (h : (Run.after first rest).go = some go) : Run.after first rest = rest := by
  cases first with
  | pending => cases h
  | rejected e => cases h
  | resolved _ => rfl

theorem connect_eq_settle {connecting : Connecting Key Signer Conn}
    (hgo : (SSHClient.connect ssh env).go = some connecting) :
    SSHClient.connect ssh env = SSHClient.settle env (wasmConnect ssh env) .resolved := by
  unfold SSHClient.connect at hgo ⊢
  cases hinitialized : env.initialized with
  | false => simp [hinitialized] at hgo
  | true =>
    cases hmissing : pinMissing env.guardOptions env.guardOptions' with
    | none => simp [hinitialized, hmissing] at hgo
    | some missing =>
      cases missing with
      | true => simp [hinitialized, hmissing] at hgo
      | false =>
        simp only [hinitialized, hmissing, if_true] at hgo ⊢
        have hcreated := Run.after_eq hgo
        rw [hcreated] at hgo ⊢
        exact Run.after_eq hgo

/-- Where Go is reached, its result decides what becomes of the caller's promise. -/
theorem connect_go {connecting : Connecting Key Signer Conn}
    (hgo : (SSHClient.connect ssh env).go = some connecting) :
    ∃ c : Client Conn, parseConnectionOptions env.options = some c.options ∧
      connecting = c.connect ssh env.sessions ∧
      (∀ e, connecting.result = .error e → (SSHClient.connect ssh env).settled =
        if env.closed = .pending then .pending
        else .rejected (wrapSSHError (.connectError e))) ∧
      ∀ id, connecting.result = .ok id → (SSHClient.connect ssh env).settled = .resolved id := by
  have hsettle := connect_eq_settle hgo
  rw [hsettle] at hgo ⊢
  have hwasm : (wasmConnect ssh env).2 = some connecting := hgo
  unfold wasmConnect at hwasm
  cases hparse : parseConnectionOptions env.options with
  | none => simp [hparse] at hwasm
  | some options =>
    cases htransport : env.wasm.getTransport env.transportID with
    | none => simp [hparse, htransport] at hwasm
    | some found =>
      refine ⟨⟨options, env.sessionID, some found.1, none⟩, rfl, ?_⟩
      cases hresult : ((⟨options, env.sessionID, some found.1, none⟩ : Client Conn).connect
          ssh env.sessions).result with
      | error e =>
        simp only [hparse, htransport, hresult, Option.some.injEq] at hwasm
        subst hwasm
        refine ⟨rfl, fun e' he' => ?_, fun id hid => ?_⟩
        · obtain rfl := Except.error.inj (hresult.symm.trans he')
          simp [SSHClient.settle, wasmConnect, hparse, htransport, hresult]
        · cases hresult.symm.trans hid
      | ok id =>
        simp only [hparse, htransport, hresult, Option.some.injEq] at hwasm
        subst hwasm
        refine ⟨rfl, fun e' he' => ?_, fun id' hid => ?_⟩
        · cases hresult.symm.trans he'
        · obtain rfl := Except.ok.inj (hresult.symm.trans hid)
          simp [SSHClient.settle, wasmConnect, hparse, htransport, hresult]

theorem parseConnectionOptions_pinToJS {jsObj : JsValue} {options : ConnectionOptions}
    (hparse : parseConnectionOptions jsObj = some options)
    (hpin : jsObj.get "hostKeyPin" = some (Errors.pinToJS pin)) (h : pin.sha256 ≠ "") :
    options.hostKeyPin = some pin := by
  have hfield : hostKeyPinField jsObj = some (some pin) := by
    have htype : (Errors.pinToJS pin).type = some .object := rfl
    simp [hostKeyPinField, hpin, htype, parseHostKeyPin_pinToJS h]
  obtain ⟨host, -, hparse⟩ := Option.bind_eq_some_iff.mp hparse
  obtain ⟨port, -, hparse⟩ := Option.bind_eq_some_iff.mp hparse
  obtain ⟨user, -, hparse⟩ := Option.bind_eq_some_iff.mp hparse
  obtain ⟨password, -, hparse⟩ := Option.bind_eq_some_iff.mp hparse
  obtain ⟨privateKey, -, hparse⟩ := Option.bind_eq_some_iff.mp hparse
  obtain ⟨timeout, -, hparse⟩ := Option.bind_eq_some_iff.mp hparse
  obtain ⟨hostKeyPin, hfield', hparse⟩ := Option.bind_eq_some_iff.mp hparse
  cases hparse
  exact Option.some.inj (hfield'.symm.trans hfield)

/-- A pin that the page has been shown: by a capture, or as what Go got instead of another one. -/
inductive Shown (Conn : Type*) (ssh : SshLibrary Key Signer Conn) : HostKeyPin → Prop
  | captured (env : Scenario Conn) {pin : HostKeyPin}
      (hresolved : (SSHClient.getServerFingerprint ssh env).settled = .resolved pin) :
      Shown Conn ssh pin
  | mismatch (env : Scenario Conn) (connecting : Connecting Key Signer Conn) (e : ConnectError)
      {pin : HostKeyPin} (hgo : (SSHClient.connect ssh env).go = some connecting)
      (hrejected : (SSHClient.connect ssh env).settled = .rejected (.ssh e))
      (hcode : e.code = .hostKeyMismatch) (hgot : e.got = some pin) : Shown Conn ssh pin

/-- A server has presented the key, to a capture or to a connection attempt. -/
def Presented (ssh : SshLibrary Key Signer Conn) (key : Key) : Prop :=
  (∃ env capturing, (SSHClient.getServerFingerprint ssh env).go = some capturing ∧
    .keyExchange key ∈ capturing.events) ∨
  ∃ env connecting, (SSHClient.connect ssh env).go = some connecting ∧
    .keyExchange key ∈ connecting.events

/-- What the page is shown is the pin of a key that a server has presented. -/
theorem Shown.presented (hdoc : ssh.Documented) (hwraps : ssh.Wraps) (h : Shown Conn ssh pin) :
    ∃ key, Presented ssh key ∧ pin = ssh.pinOf key := by
  cases h with
  | captured env hresolved =>
    obtain ⟨capturing, key, hgo, hkey, hpin⟩ :=
      (getServerFingerprint_captures env hdoc).2 pin hresolved
    exact ⟨key, Or.inl ⟨env, capturing, hgo, hkey⟩, hpin⟩
  | mismatch env connecting e hgo hrejected hcode hgot =>
    obtain ⟨c, -, hconnecting, herror, hok⟩ := connect_go hgo
    cases hresult : connecting.result with
    | ok id =>
      rw [hok id hresult] at hrejected
      cases hrejected
    | error e' =>
      have hwrap := (herror e' hresult).symm.trans hrejected
      split_ifs at hwrap with hclosed
      rw [Promise.rejected.injEq, wrapSSHError] at hwrap
      split_ifs at hwrap with hcode'
      · cases hwrap
        rw [hconnecting] at hresult
        obtain ⟨pin', key, hkey, rfl⟩ := Client.connect_error_mismatch hwraps hresult hcode
        rw [← hconnecting] at hkey
        exact ⟨key, Or.inr ⟨env, connecting, hgo, hkey⟩, (Option.some.inj hgot).symm⟩
      · cases hwrap
        exact absurd hcode hcode'

/-- A pin that the page has been shown, and passes on once it is approved, is that of a key that
a server has presented. The guard lets it pass. A connection resolves only with keys of this
fingerprint, no authentication method is used before such a key, and for any other key the
caller is shown both pins, so that it may approve the new one. -/
theorem trust_on_first_use (hdoc : ssh.Documented) (hwraps : ssh.Wraps)
    (hfingerprint : ∀ key, ssh.fingerprintSHA256 key ≠ "") (hshown : Shown Conn ssh pin)
    (hpin : env.options.get "hostKeyPin" = some (Errors.pinToJS pin)) :
    ∃ approved, Presented ssh approved ∧ pin = ssh.pinOf approved ∧
      pinMissing env.options env.options = some false ∧
      (∀ id, (SSHClient.connect ssh env).settled = .resolved id →
        ∃ connecting, (SSHClient.connect ssh env).go = some connecting ∧
          (∃ key, .keyExchange key ∈ connecting.events) ∧
          ∀ key, .keyExchange key ∈ connecting.events →
            ssh.fingerprintSHA256 key = ssh.fingerprintSHA256 approved) ∧
      ∀ connecting, (SSHClient.connect ssh env).go = some connecting →
        AtEach (fun front e => ∀ m, e = .auth m → (∃ key, .keyExchange key ∈ front) ∧
          ∀ key, .keyExchange key ∈ front →
            ssh.fingerprintSHA256 key = ssh.fingerprintSHA256 approved) connecting.events ∧
        ∀ key, .keyExchange key ∈ connecting.events →
          ssh.fingerprintSHA256 key ≠ ssh.fingerprintSHA256 approved →
          env.closed = .pending ∨
            (SSHClient.connect ssh env).settled =
              .rejected (.ssh (mismatchError ssh pin key)) ∧ Shown Conn ssh (ssh.pinOf key) := by
  obtain ⟨approved, hpresented, rfl⟩ := hshown.presented hdoc hwraps
  have hsha256 : (ssh.pinOf approved).sha256 ≠ "" := hfingerprint approved
  refine ⟨approved, hpresented, rfl, pinMissing_pinToJS hpin hsha256, fun id hresolved => ?_,
    fun connecting hgo => ?_⟩
  · obtain ⟨connecting, parsed, client, hgo, -, -, ⟨v, hv, hparsed⟩, -, hkey, hkeys⟩ :=
      connect_resolved hdoc hresolved
    obtain rfl := Option.some.inj (hv.symm.trans hpin)
    rw [parseHostKeyPin_pinToJS hsha256] at hparsed
    cases hparsed
    exact ⟨connecting, hgo, hkey, hkeys⟩
  · obtain ⟨c, hparse, hconnecting, herror, -⟩ := connect_go hgo
    have hoptions := parseConnectionOptions_pinToJS hparse hpin hsha256
    constructor
    · rw [hconnecting]
      refine (c.connect_auth hdoc env.sessions).mono ?_
      intro front e h m hm
      obtain ⟨pin', hpin', hkey, haccepted⟩ := h m hm
      obtain rfl := Option.some.inj (hpin'.symm.trans hoptions)
      exact ⟨hkey, fun key hfront => makePinnedHostKeyCallback_eq_none.mp (haccepted key hfront)⟩
    · intro key hkey hother
      have hresult : connecting.result = .error (mismatchError ssh (ssh.pinOf approved) key) := by
        rw [hconnecting] at hkey ⊢
        exact Client.connect_mismatch hwraps hoptions hkey hother
      rcases Classical.em (env.closed = .pending) with hpending | hclosed
      · exact Or.inl hpending
      · have hrejected := herror _ hresult
        rw [if_neg hclosed] at hrejected
        exact Or.inr ⟨hrejected, .mismatch env connecting _ hgo hrejected rfl rfl⟩

/-- A page that passes the options on as they are. -/
def visit (hostKeyPin : JsValue) : Scenario Unit :=
  let options : JsValue := .object fun name => some <|
    if name = "password" then .string "secret"
    else if name = "hostKeyPin" then hostKeyPin
    else .undefined
  { exchangedPin with guardOptions := options, guardOptions' := options, options := options }

theorem passwordServer_wraps : passwordServer.Wraps where
  refused t addr config key err hkey hrefused := by
    rcases passwordServer_cases t addr config with ⟨hevents, -⟩ | ⟨hnone, used, hevents⟩
    · rw [hevents] at hkey
      obtain rfl : key = "key" := by simpa using hkey
      refine ⟨.wrap ("ssh: handshake failed: " ++ err.message) err, ?_, rfl⟩
      simp [passwordServer, hrefused]
    · rw [hevents] at hkey
      obtain rfl : key = "key" := by simpa using hkey
      rw [hnone] at hrefused
      cases hrefused
  only t addr config e ce hresult hchain := by
    cases hcallback : config.hostKeyCallback "key" with
    | some err =>
      simp only [passwordServer, hcallback, Except.error.injEq] at hresult
      subst hresult
      refine ⟨"key", err, ?_, hcallback, hchain⟩
      simp [passwordServer, hcallback]
    | none =>
      by_cases hauth : .password "secret" ∈ config.auth
      · simp [passwordServer, hcallback, hauth] at hresult
      · simp only [passwordServer, hcallback, if_neg hauth, Except.error.injEq] at hresult
        subst hresult
        cases hchain

theorem trust_on_first_use_password :
    ∃ pin, (SSHClient.getServerFingerprint passwordServer (visit .undefined)).settled =
        .resolved pin ∧
      (SSHClient.connect passwordServer (visit (Errors.pinToJS pin))).settled = .resolved "ssh-00" ∧
      ∃ approved, pin = passwordServer.pinOf approved ∧
        ∃ connecting,
          (SSHClient.connect passwordServer (visit (Errors.pinToJS pin))).go = some connecting ∧
          ∀ key, .keyExchange key ∈ connecting.events →
            passwordServer.fingerprintSHA256 key = passwordServer.fingerprintSHA256 approved := by
  have hcaptured : (SSHClient.getServerFingerprint passwordServer (visit .undefined)).settled =
      .resolved ⟨"ssh-ed25519", "SHA256:key"⟩ := by decide +kernel
  have hresolved : (SSHClient.connect passwordServer
      (visit (Errors.pinToJS ⟨"ssh-ed25519", "SHA256:key"⟩))).settled = .resolved "ssh-00" := by
    decide +kernel
  have hfingerprint : ∀ key, passwordServer.fingerprintSHA256 key ≠ "" := by
    intro key hempty
    have hlen := congrArg String.length hempty
    simp [passwordServer] at hlen
  have hpassed : (visit (Errors.pinToJS ⟨"ssh-ed25519", "SHA256:key"⟩)).options.get "hostKeyPin" =
      some (Errors.pinToJS ⟨"ssh-ed25519", "SHA256:key"⟩) := rfl
  obtain ⟨approved, -, hpin, -, hconnects, -⟩ := trust_on_first_use passwordServer_documented
    passwordServer_wraps hfingerprint (.captured (visit .undefined) hcaptured) hpassed
  obtain ⟨connecting, hgo, -, hkeys⟩ := hconnects "ssh-00" hresolved
  exact ⟨_, hcaptured, hresolved, approved, hpin, connecting, hgo, hkeys⟩

end SshClientWasm.Ssh
