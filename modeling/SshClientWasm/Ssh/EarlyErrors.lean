import SshClientWasm.Ssh.Operations

/-!
# Errors before the network

A missing pin and a key of PuTTY can be told from the options alone. The guard of
`SSHClient.connect` looks at the pin; the key is looked at in Go, which is called when the
transport has been connected. Here the two sides run together: what Go's `connect` answers is
what the promise of its export is settled with.
-/
namespace SshClientWasm.Ssh.EarlyErrors

open Library Bridge Errors Operations

/-- The options have a pin with a fingerprint. -/
def PinGiven (options : JsValue) : Prop :=
  ∃ pin sha256, options.property "hostKeyPin" = some pin ∧
    pin.property "sha256" = some (.string sha256) ∧ sha256 ≠ ""

/-- The private key of the options is one of PuTTY. -/
def HasPPK (options : JsValue) : Prop :=
  ∃ key, options.property "privateKey" = some (.string key) ∧ looksLikePPK key = true

/-- The operation ends with the typed error, and the transport has been neither connected nor
used. -/
def RejectsEarly {α : Type} (run : Operation α) (c : SSHErrorClass) : Prop :=
  (∃ e : SSHError, run.settled = some (.error (.error (.ssh e))) ∧ e.errorClass = c) ∧
    .connect ∉ run.calls ∧ ∀ data, .send data ∉ run.calls

/-- Both errors of the options come before the network. -/
def ReportsEarly {α : Type} (options : JsValue) (run : Operation α) : Prop :=
  (¬ PinGiven options → RejectsEarly run .hostKeyPinRequired) ∧
    (PinGiven options → HasPPK options → RejectsEarly run .ppkFormat)

/-- The guard finds no pin, or one without a fingerprint. -/
def FindsNoPin (options options' : JsValue) : Prop :=
  ∃ pin, options.property "hostKeyPin" = some pin ∧
    (pin.truthy = false ∨
      ∃ pin' sha256, options'.property "hostKeyPin" = some pin' ∧
        pin'.property "sha256" = some sha256 ∧ sha256.truthy = false)

/-- The options are of their type as far as the pin is concerned. -/
def PinTyped (options : JsValue) : Prop :=
  ∃ pin, options.property "hostKeyPin" = some pin ∧
    (pin.truthy = false ∨ ∃ sha256, pin.property "sha256" = some (.string sha256))

theorem pinMissing_eq_true {options options' : JsValue} :
    pinMissing options options' = some true ↔ FindsNoPin options options' := by
  unfold pinMissing FindsNoPin
  cases hpin : options.property "hostKeyPin" with
  | none => simp
  | some pin =>
    cases htruthy : pin.truthy with
    | false => simp [htruthy]
    | true =>
      cases hpin' : options'.property "hostKeyPin" with
      | none => simp [htruthy]
      | some pin' =>
        cases hsha : pin'.property "sha256" with
        | none => simp [htruthy, hsha]
        | some sha256 => simp [htruthy, hsha]

theorem findsNoPin_of_typed {options : JsValue} (htyped : PinTyped options)
    (h : ¬ PinGiven options) : FindsNoPin options options := by
  obtain ⟨pin, hpin, hfalsy | ⟨sha256, hsha⟩⟩ := htyped
  · exact ⟨pin, hpin, Or.inl hfalsy⟩
  · have hempty : sha256 = "" := by
      by_contra hne
      exact h ⟨pin, sha256, hpin, hsha, hne⟩
    refine ⟨pin, hpin, Or.inr ⟨pin, .string sha256, hpin, hsha, ?_⟩⟩
    rw [hempty]
    rfl

variable {js : Platform}

theorem connect_mem_calls {s : Surroundings} (sends : List Bytes) (go : WasmCall String)
    (hinitialized : s.initialized = true)
    (hpin : pinMissing s.guardOptions s.guardOptions' = some false)
    (hcreated : s.created = .ok ()) : .connect ∈ (connect js s sends go).calls := by
  have hinitial : (requireInitialized s).settled = some (.ok ()) := by
    rw [requireInitialized_settled, if_pos hinitialized]
  have hguard : (requirePin js s).settled = some (.ok ()) := by
    rw [requirePin, hpin]
    rfl
  have hcreates : s.createTransport.settled = some (.ok ()) := by
    rw [s.createTransport_settled, hcreated]
    rfl
  have hconnects : .connect ∈ s.transportConnect.calls :=
    Async.mem_calls_bind_left _ _ List.mem_cons_self
  unfold connect
  refine Async.mem_calls_bind_right _ _ hinitial ?_
  refine Async.mem_calls_bind_right _ _ hguard ?_
  refine Async.mem_calls_bind_right _ _ hcreates ?_
  exact Async.mem_calls_bind_left _ _ hconnects

theorem connect_rejectsEarly_iff {s : Surroundings} (sends : List Bytes) (go : WasmCall String)
    (c : SSHErrorClass) : RejectsEarly (connect js s sends go) c ↔
      c = .hostKeyPinRequired ∧ s.initialized = true ∧
        pinMissing s.guardOptions s.guardOptions' = some true := by
  constructor
  · rintro ⟨⟨e, hsettled, hclass⟩, hconnect, _⟩
    have hrejection := Async.rejection_eq_some _ |>.mpr hsettled
    rw [connect_rejection] at hrejection
    cases hinitialized : s.initialized with
    | false =>
      rw [hinitialized] at hrejection
      cases hrejection
    | true =>
      simp only [hinitialized, if_true, requirePin] at hrejection
      rcases hpin : pinMissing s.guardOptions s.guardOptions' with _ | _ | _
      · rw [hpin] at hrejection
        cases hrejection
      · cases hcreated : s.created with
        | error message =>
          rw [hpin, Surroundings.rejection, hcreated] at hrejection
          cases hrejection
        | ok _ => exact absurd (connect_mem_calls sends go hinitialized hpin hcreated) hconnect
      · rw [hpin] at hrejection
        cases hrejection
        exact ⟨hclass.symm, rfl, rfl⟩
  · rintro ⟨rfl, hinitialized, hpin⟩
    obtain ⟨e, hclass, hthrows⟩ : ∃ e : SSHError, e.errorClass = .hostKeyPinRequired ∧
        connect js s sends go = ⟨[], some (.error (.error (.ssh e)))⟩ := by
      rw [connect, requireInitialized, if_pos hinitialized, requirePin, hpin]
      exact ⟨_, rfl, rfl⟩
    rw [hthrows]
    exact ⟨⟨e, rfl, hclass⟩, List.not_mem_nil, fun _ => List.not_mem_nil⟩

/-- The missing pin is reported before the network where the client is initialized and the
guard finds it, the key of PuTTY never. -/
theorem reportsEarly_iff (js : Platform) (s : Surroundings) (sends : List Bytes)
    (go : WasmCall String) : ReportsEarly s.guardOptions (connect js s sends go) ↔
      (¬ PinGiven s.guardOptions →
        s.initialized = true ∧ FindsNoPin s.guardOptions s.guardOptions') ∧
      ¬ (PinGiven s.guardOptions ∧ HasPPK s.guardOptions) := by
  unfold ReportsEarly
  simp only [connect_rejectsEarly_iff, pinMissing_eq_true, true_and, reduceCtorEq, false_and,
    imp_false, not_and]

theorem missing_pin_early {s : Surroundings} (sends : List Bytes) (go : WasmCall String)
    (hinitialized : s.initialized = true) (hsame : s.guardOptions' = s.guardOptions)
    (htyped : PinTyped s.guardOptions) (hpin : ¬ PinGiven s.guardOptions) :
    RejectsEarly (connect js s sends go) .hostKeyPinRequired := by
  refine (connect_rejectsEarly_iff sends go _).mpr ⟨rfl, hinitialized, ?_⟩
  rw [pinMissing_eq_true, hsame]
  exact findsNoPin_of_typed htyped hpin

section Go

variable {Key Signer Conn : Type*} (ssh : SshLibrary Key Signer Conn) (env : Scenario Conn)

/-- A rejection of an export as a call of it. -/
def goCall (js : Platform) {α : Type} : RawError → WasmCall α
  | .text s => .settled (.error (.text s))
  | .connectError e => .settled (.error (.connectError e))
  | .exception => .thrown (.native js.typeError .undefined)

/-- What becomes of the call of the `connect` that Go exports. -/
def goConnect (js : Platform) : WasmCall String :=
  match (wasmConnect ssh env).1 with
  | .pending => .pending
  | .rejected e => goCall js e
  | .resolved sessionID => .settled (.ok sessionID)

def ppkError : ConnectError :=
  newConnectError .ppkNotSupported
    "PuTTY (.ppk) private keys are not supported; convert with `puttygen -O private-openssh yourkey.ppk`"

theorem client_connect_ppk {c : Client Conn} (sessions : Sessions Conn)
    (hpin : c.options.hostKeyPin ≠ none) (hppk : looksLikePPK c.options.privateKey = true) :
    c.connect ssh sessions = Client.failed sessions [] ppkError := by
  obtain ⟨pin, hpin⟩ := Option.ne_none_iff_exists'.mp hpin
  have hkey : c.options.privateKey ≠ "" := by
    intro hempty
    rw [hempty] at hppk
    cases hppk
  have hmethods : c.authMethods ssh = .error ppkError := by
    rw [Client.authMethods, if_neg hkey, if_pos hppk]
    rfl
  rw [Client.connect, hpin, hmethods]

theorem wasmConnect_ppk {options : ConnectionOptions}
    (hparse : parseConnectionOptions env.options = some options)
    (hpin : options.hostKeyPin ≠ none) (hppk : looksLikePPK options.privateKey = true)
    (htransport : env.wasm.getTransport env.transportID ≠ none) :
    wasmConnect ssh env =
      (.rejected (.connectError ppkError), some (Client.failed env.sessions [] ppkError)) := by
  obtain ⟨found, hfound⟩ := Option.ne_none_iff_exists'.mp htransport
  have hconnect := client_connect_ppk ssh (c := ⟨options, env.sessionID, some found.1, none⟩)
    env.sessions hpin hppk
  simp only [wasmConnect, hparse, hfound, hconnect, Client.failed]

variable {ssh env}

/-- With a key of PuTTY and a pin, the typed error comes when the transport has been connected
and closed again. -/
theorem ppk_late {s : Surroundings} {options : ConnectionOptions} {ending : Except Unknown Unit}
    (hinitialized : s.initialized = true)
    (hguard : pinMissing s.guardOptions s.guardOptions' = some false)
    (hcreated : s.created = .ok ()) (hconnected : s.connected = some (.ok ()))
    (hclosed : s.closed = some ending)
    (hparse : parseConnectionOptions env.options = some options)
    (hpin : options.hostKeyPin ≠ none) (hppk : looksLikePPK options.privateKey = true)
    (htransport : env.wasm.getTransport env.transportID ≠ none) :
    connect js s [] (goConnect ssh env js) =
      ⟨[.createTransport, .connect, .wasm "connect", .closeTransport],
        some (.error (.error (.ssh (sshError ppkError))))⟩ := by
  have hgo : goConnect ssh env js = .settled (.error (.connectError ppkError)) := by
    rw [goConnect, wasmConnect_ppk ssh env hparse hpin hppk htransport]
    rfl
  rw [connect, requireInitialized, if_pos hinitialized, requirePin, hguard,
    Surroundings.createTransport, hcreated, Surroundings.transportConnect, hconnected, hgo]
  unfold Surroundings.closeTransport
  rw [hclosed]
  cases ending <;> rfl

section Agreement

variable (js) (env)

/-- A rejection of the pinning model as the caller meets it. -/
def unknownOf : Rejection → Unknown
  | .error message => nativeError message
  | .thrown => js.thrown
  | .ssh ce => .error (.ssh (sshError ce))

/-- A promise of the pinning model as an `await` meets it. -/
def endingOf {α : Type} : Promise Rejection α → Option (Except Unknown α)
  | .pending => none
  | .rejected e => some (.error (unknownOf js e))
  | .resolved a => some (.ok a)

/-- A call meets what a scenario of the pinning model says. -/
structure Matches (s : Surroundings) : Prop where
  initialized : s.initialized = env.initialized
  guardOptions : s.guardOptions = env.guardOptions
  guardOptions' : s.guardOptions' = env.guardOptions'
  created : some (s.created.mapError nativeError) = endingOf js env.created
  connected : s.connected = endingOf js env.connected
  closed : s.closed = endingOf js env.closed

variable {js} {env}

theorem rethrow_agrees (js : Platform) (e : RawError) :
    ∃ raw, (goCall js e : WasmCall String).promise = some (.error raw) ∧
      (rethrow js raw : Operation String).settled =
        some (.error (unknownOf js (Ssh.wrapSSHError e))) := by
  cases e with
  | text s =>
    obtain ⟨ce, hraw, hwrapped⟩ := wrapSSHError_text_agrees js s
    refine ⟨_, rfl, ?_⟩
    rw [rethrow, hwrapped, hraw]
    rfl
  | connectError e =>
    obtain ⟨ce, hraw, hwrapped⟩ := wrapSSHError_agrees js e
    refine ⟨_, rfl, ?_⟩
    rw [rethrow, hwrapped, hraw]
    rfl
  | exception => exact ⟨_, rfl, rfl⟩

theorem callWasm_agrees {s : Surroundings} (h : Matches js env s) (sends : List Bytes) :
    (tryCatch (callWasm "connect" sends (goConnect ssh env js)) fun e => do
      s.closeTransport
      rethrow js e).settled =
        endingOf js (SSHClient.settle env (wasmConnect ssh env) .resolved).settled := by
  rw [Async.tryCatch_settled]
  unfold callWasm goConnect SSHClient.settle
  cases hwasm : (wasmConnect ssh env).1 with
  | pending => rfl
  | resolved sessionID => rfl
  | rejected e =>
    obtain ⟨raw, hraw, hrethrow⟩ := rethrow_agrees js e
    dsimp only
    rw [hraw]
    dsimp only
    rw [Async.bind_settled, s.closeTransport_settled, h.closed, hrethrow]
    cases env.closed with
    | pending => rfl
    | rejected _ => rfl
    | resolved _ => rfl

theorem requirePin_agrees (js : Platform) (s : Surroundings)
    (h : pinMissing s.guardOptions s.guardOptions' = some true) :
    (requirePin js s).settled = some (.error (unknownOf js (.ssh (newConnectError
      .hostKeyPinRequired
        "ConnectionOptions.hostKeyPin is required. Use SSHClient.getServerFingerprint() for TOFU capture.")))) := by
  have hmessage := valueOf_eq_self_iff.mpr (show Unmarked
    "ConnectionOptions.hostKeyPin is required. Use SSHClient.getServerFingerprint() for TOFU capture."
    by decide +kernel)
  rw [requirePin, h, unknownOf, sshError, newConnectError, hmessage]
  rfl

/-- The two models of `connect` agree on what becomes of its promise. -/
theorem connect_agrees {s : Surroundings} (h : Matches js env s) (sends : List Bytes) :
    (connect js s sends (goConnect ssh env js)).settled =
      endingOf js (SSHClient.connect ssh env).settled := by
  rw [connect, Async.bind_settled, requireInitialized_settled, SSHClient.connect, h.initialized]
  cases env.initialized with
  | false => rfl
  | true =>
    have hguard := h.guardOptions ▸ h.guardOptions' ▸ requirePin_agrees js s
    rw [Async.bind_settled]
    rcases hpin : pinMissing env.guardOptions env.guardOptions' with _ | _ | _
    · rw [requirePin, h.guardOptions, h.guardOptions', hpin]
      rfl
    · rw [requirePin, h.guardOptions, h.guardOptions', hpin]
      dsimp only
      rw [Async.bind_settled, s.createTransport_settled, h.created]
      cases env.created with
      | pending => rfl
      | rejected _ => rfl
      | resolved _ =>
        dsimp only [endingOf]
        rw [Async.bind_settled, s.transportConnect_settled, h.connected]
        cases env.connected with
        | pending => rfl
        | rejected _ => rfl
        | resolved _ => exact callWasm_agrees h sends
    · rw [hguard hpin]
      rfl

end Agreement
end Go

/-- Options with a pin and a key of PuTTY. -/
def puttyOptions : JsValue :=
  .object fun name => some <|
    if name = "privateKey" then .string "PuTTY-User-Key-File-3: ssh-ed25519"
    else if name = "hostKeyPin" then
      .object fun name => some (if name = "sha256" then .string "SHA256:key" else .undefined)
    else .undefined

/-- An initialized client with these options, and what becomes of `transport.connect()`. -/
def puttyCall (connected : Option (Except Unknown Unit)) : Surroundings where
  initialized := true
  guardOptions := puttyOptions
  guardOptions' := puttyOptions
  created := .ok ()
  connected := connected
  closed := some (.ok ())

/-- The connection with a key of PuTTY, in Go. -/
def puttyScenario : Scenario Unit := { exchangedPin with options := puttyOptions }

/-- With a key of PuTTY the transport is connected first: `connect` waits for ever if that
does, and otherwise the error comes behind it. -/
theorem putty_not_early :
    PinGiven puttyOptions ∧ HasPPK puttyOptions ∧
      connect plainPlatform (puttyCall none) [] .pending =
        ⟨[.createTransport, .connect], none⟩ ∧
      connect plainPlatform (puttyCall (some (.ok ()))) []
          (goConnect passwordServer puttyScenario plainPlatform) =
        ⟨[.createTransport, .connect, .wasm "connect", .closeTransport],
          some (.error (.error (.ssh (sshError ppkError))))⟩ ∧
      ∀ connected sends go,
        ¬ ReportsEarly puttyOptions (connect plainPlatform (puttyCall connected) sends go) := by
  have hpin : PinGiven puttyOptions :=
    ⟨_, "SHA256:key", rfl, rfl, by decide⟩
  have hppk : HasPPK puttyOptions :=
    ⟨"PuTTY-User-Key-File-3: ssh-ed25519", rfl, by decide +kernel⟩
  have hparse : parseConnectionOptions puttyOptions = some
      ⟨"", 0, "", "", "PuTTY-User-Key-File-3: ssh-ed25519", 0, some ⟨"", "SHA256:key"⟩⟩ := by
    decide +kernel
  refine ⟨hpin, hppk, rfl, ?_, ?_⟩
  · exact ppk_late rfl (by decide +kernel) rfl rfl rfl hparse (by decide) (by decide +kernel)
      (by decide +kernel)
  · intro connected sends go hearly
    obtain ⟨hclass, _⟩ := (connect_rejectsEarly_iff sends go _).mp (hearly.2 hpin hppk)
    cases hclass

end SshClientWasm.Ssh.EarlyErrors
