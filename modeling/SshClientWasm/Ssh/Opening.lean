import SshClientWasm.Bridge.Transports
import SshClientWasm.Ssh.Pinning

/-!
# What a failed open leaves behind

`SSHClient.connect` and `SSHClient.getServerFingerprint` once more, with the transports
they open and close. At each `await` any other activity of the transports may happen, and
the Go program may end: it is a run of their machine. Every export of a program that is
over throws.
-/
namespace SshClientWasm.Ssh

open Library Bridge

/-- The transports, and whether the Go program is over. -/
structure Live (ι : Type*) (idOf : ι → String) where
  transports : Transports ι idOf
  exited : Bool

inductive Happening (ι : Type*)
  | move (a : Move ι)
  | exit
  deriving DecidableEq, Repr

namespace Live

variable {ι : Type*} {idOf : ι → String} [DecidableEq ι] (s : Live ι idOf)

def move (a : Move ι) : Option (Live ι idOf) :=
  (Transports.machine.step s.transports a).map fun t => { s with transports := t }

/-- A `disconnect()` resolves. When the program is over, the `closeTransport` that awaits it
throws in its call of Go, and so removes nothing. -/
def disconnected (d : Teardown ι) : Live ι idOf :=
  { s with
    transports := s.transports.disconnected (if s.exited then { d with awaits := none } else d) }

def machine : Machine (Live ι idOf) (Happening ι) where
  step s
    | .exit => if s.exited then none else some { s with exited := true }
    | .move a =>
      if s.exited then
        match a with
        | .createTransport _ | .onData .. => some s
        | .read .. | .write .. | .close _ => none
        | .settle c resolves =>
          (s.transports.pending[c]?).map fun d =>
            let s' := { s with
              transports := { s.transports with pending := s.transports.pending.eraseIdx c } }
            if resolves then s'.disconnected d else s'
        | a => s.move a
      else s.move a

variable {s} {s' : Live ι idOf} {k : ℕ} {i : ι}

theorem disconnected_manager (d : Teardown ι) : (s.disconnected d).transports.manager =
    if s.exited then s.transports.manager
    else d.awaits.elim s.transports.manager fun call =>
      (s.transports.manager.closeTransport call.id).1 := by
  rw [disconnected, Transports.disconnected_manager]
  cases s.exited <;> rfl

end Live

/-- A call with its transport, and what it meets: the promises on the way, what happens
to the transports meanwhile, and the sessions when Go has ended its attempt. -/
structure Attempt (ι Conn : Type*) where
  transport : ι
  initialized : Bool
  guardOptions : JsValue
  guardOptions' : JsValue
  options : JsValue
  created : Promise Rejection Unit
  connected : Promise Rejection Unit
  closed : Promise Rejection Unit
  whileConnecting : List (Happening ι)
  whileInGo : List (Happening ι)
  whileClosing : List (Happening ι)
  sessions : Sessions Conn
  sessionID : String

/-- What became of a call: its promise, the place of the `JSTransport` it has created,
and what it leaves. -/
structure Outcome (α ι : Type*) (idOf : ι → String) (Conn : Type*) where
  settled : Promise Rejection α
  place : Option ℕ
  transports : Transports ι idOf
  sessions : Sessions Conn

variable {Key Signer Conn ι α : Type*} {idOf : ι → String}

section Clean

variable {a : Attempt ι Conn} {r : Outcome α ι idOf Conn} {k : ℕ}

end Clean

variable [DecidableEq ι]

namespace Attempt

variable (a : Attempt ι Conn) (s : Transports ι idOf)

/-- What Go is called with. -/
def scenario (idOf : ι → String) (wasm : Wasm) : Scenario Conn where
  initialized := a.initialized
  guardOptions := a.guardOptions
  guardOptions' := a.guardOptions'
  options := a.options
  created := a.created
  connected := a.connected
  closed := a.closed
  transportID := idOf a.transport
  wasm := wasm
  sessions := a.sessions
  sessionID := a.sessionID

/-- Behind `createTransport`. The program runs, as the call of its export has not thrown. -/
def create : Live ι idOf :=
  ⟨{ s with manager := s.manager.createTransport a.transport }, false⟩

/-- Parsing the options panics, which ends the program inside the call. -/
def Panics : Prop := parseConnectionOptions a.options = none

instance : Decidable a.Panics := inferInstanceAs (Decidable (_ = none))

/-- The call of Go throws at once; otherwise it is awaited. -/
def inGo (l : Live ι idOf) : Option (Live ι idOf) :=
  if l.exited ∨ a.Panics then
    (l.move (.connect a.transport)).map fun l => { l with exited := true }
  else Live.machine.run l (.move (.connect a.transport) :: a.whileInGo)

/-- `closeTransport` of the manager, with what happens at its `await`. -/
def closing (l : Live ι idOf) : Option (Live ι idOf) :=
  match l.transports.startClosing (idOf a.transport) with
  | none => some l
  | some (t, d) =>
    (Live.machine.run { l with transports := t } a.whileClosing).map fun l =>
      match a.closed with
      | .resolved _ => l.disconnected d
      | _ => l

/-- What the call of Go gives: it throws at once, or the promise never settles as the
program has ended meanwhile, or Go gets the scenario and has a promise and the sessions
afterwards. -/
def answer (go : Scenario Conn → Promise RawError α × Sessions Conn) (l l' : Live ι idOf) :
    Promise RawError α × Sessions Conn :=
  if l.exited ∨ a.Panics then (.rejected .exception, a.sessions)
  else if l'.exited then (.pending, a.sessions)
  else go (a.scenario idOf l.transports.manager.wasm)

/-- A call that has passed its guards; `closes` says for which promises of Go the transport
is closed. -/
def body (go : Scenario Conn → Promise RawError α × Sessions Conn)
    (closes : Promise RawError α → Bool) (onResolved : α → Promise Rejection α) :
    Option (Outcome α ι idOf Conn) :=
  match a.created with
  | .pending => some ⟨.pending, none, s, a.sessions⟩
  | .rejected e => some ⟨.rejected e, none, s, a.sessions⟩
  | .resolved _ =>
    let place := some s.manager.wasm.heap.length
    (Live.machine.run (a.create s) a.whileConnecting).bind fun l =>
      match a.connected with
      | .pending => some ⟨.pending, place, l.transports, a.sessions⟩
      | .rejected e => some ⟨.rejected e, place, l.transports, a.sessions⟩
      | .resolved _ =>
        (a.inGo l).bind fun l' =>
          let p := a.answer go l l'
          let settled := (SSHClient.settle (a.scenario idOf l.transports.manager.wasm)
            (p.1, (none : Option Unit)) onResolved).settled
          if closes p.1 then (a.closing l').map fun l => ⟨settled, place, l.transports, p.2⟩
          else some ⟨settled, place, l'.transports, p.2⟩

end Attempt

namespace SSHClient

variable (ssh : SshLibrary Key Signer Conn) (a : Attempt ι Conn) (s : Transports ι idOf)

/-- The sessions behind the `connect` of Go. -/
def goConnect (env : Scenario Conn) : Promise RawError String × Sessions Conn :=
  match wasmConnect ssh env with
  | (p, none) => (p, env.sessions)
  | (p, some connecting) => (p, connecting.sessions)

def goGetServerFingerprint (env : Scenario Conn) : Promise RawError HostKeyPin × Sessions Conn :=
  ((wasmGetServerFingerprint ssh env).1, env.sessions)

/-- The guards of `connect`, with what it rejects with. -/
def connectRefusal : Option Rejection :=
  if a.initialized then
    match pinMissing a.guardOptions a.guardOptions' with
    | none => some .thrown
    | some true => some (.ssh (newConnectError .hostKeyPinRequired
        "ConnectionOptions.hostKeyPin is required. Use SSHClient.getServerFingerprint() for TOFU capture."))
    | some false => none
  else some (.error "SSHClient not initialized. Call initialize() first.")

/-- The guard of `getServerFingerprint`. -/
def captureRefusal : Option Rejection :=
  if a.initialized then none
  else some (.error "SSHClient not initialized. Call initialize() first.")

/-- `connect`, which closes its transport in a `catch`. -/
def openSession : Option (Outcome String ι idOf Conn) :=
  match connectRefusal a with
  | some e => some ⟨.rejected e, none, s, a.sessions⟩
  | none =>
    a.body s (goConnect ssh) (fun p => match p with
      | .rejected _ => true
      | _ => false) .resolved

/-- `getServerFingerprint`, which closes its transport in a `finally`. -/
def captureFingerprint : Option (Outcome HostKeyPin ι idOf Conn) :=
  match captureRefusal a with
  | some e => some ⟨.rejected e, none, s, a.sessions⟩
  | none =>
    a.body s (goGetServerFingerprint ssh) (fun p => match p with
      | .pending => false
      | _ => true) fun pin => if a.closed = .pending then .pending else .resolved pin

end SSHClient

/-- A `JSTransport` is closed and has lost the id. -/
def Attempt.Gone (a : Attempt ι Conn) (l : Live ι idOf) (k : ℕ) : Prop :=
  l.transports.manager.isClosed k = true ∧
    l.transports.manager.wasm.transports (idOf a.transport) ≠ some k

variable {a : Attempt ι Conn} {s s' : Transports ι idOf} {l l' : Live ι idOf}
  {r : Outcome α ι idOf Conn} {k : ℕ}

theorem Attempt.settled_eq {closes : Bool} {settled : Promise Rejection α} {place : Option ℕ}
    {sessions : Sessions Conn}
    (h : (if closes then (a.closing l').map fun l => ⟨settled, place, l.transports, sessions⟩
      else some ⟨settled, place, l'.transports, sessions⟩) = some r) : r.settled = settled := by
  split_ifs at h
  · obtain ⟨s', _, rfl⟩ := Option.map_eq_some_iff.mp h
    rfl
  · cases h
    rfl

theorem settle_ne_resolved {γ : Type*} {env : Scenario Conn} {p : Promise RawError α × Option γ}
    {onResolved : α → Promise Rejection α} (h : ∀ v, p.1 ≠ .resolved v) (v : α) :
    (SSHClient.settle env p onResolved).settled ≠ .resolved v := by
  unfold SSHClient.settle
  cases hp : p.1 with
  | pending => simp
  | rejected e =>
    dsimp only
    split_ifs <;> simp
  | resolved v' => exact absurd hp (h v')

omit [DecidableEq ι] in
theorem Attempt.answer_cases (a : Attempt ι Conn)
    (go : Scenario Conn → Promise RawError α × Sessions Conn) (l l' : Live ι idOf) :
    (∀ v, (a.answer go l l').1 ≠ .resolved v) ∨
      a.answer go l l' = go (a.scenario idOf l.transports.manager.wasm) := by
  unfold Attempt.answer
  split_ifs
  · exact Or.inl (by simp)
  · exact Or.inl (by simp)
  · exact Or.inr rfl

theorem Attempt.body_settled {γ : Type*} {go : Scenario Conn → Promise RawError α × Sessions Conn}
    {closes : Promise RawError α → Bool} {onResolved : α → Promise Rejection α}
    (p : Scenario Conn → Promise RawError α × Option γ) (hp : ∀ env, (p env).1 = (go env).1)
    (h : a.body s go closes onResolved = some r) :
    (∃ wasm, r.settled = (Run.after a.created <| Run.after a.connected <|
      SSHClient.settle (a.scenario idOf wasm) (p (a.scenario idOf wasm)) onResolved).settled) ∨
    ∀ v, r.settled ≠ .resolved v := by
  unfold Attempt.body at h
  cases hcreated : a.created with
  | pending | rejected =>
    rw [hcreated] at h
    cases h
    exact Or.inr (by simp)
  | resolved u =>
    rw [hcreated] at h
    obtain ⟨l₁, _, h⟩ := Option.bind_eq_some_iff.mp h
    cases hconnected : a.connected with
    | pending | rejected =>
      rw [hconnected] at h
      cases h
      exact Or.inr (by simp)
    | resolved u' =>
      rw [hconnected] at h
      obtain ⟨l₂, _, h⟩ := Option.bind_eq_some_iff.mp h
      have hsettled := Attempt.settled_eq h
      rcases Attempt.answer_cases a go l₁ l₂ with hnot | hanswer
      · right
        rw [hsettled]
        exact settle_ne_resolved hnot
      · left
        refine ⟨l₁.transports.manager.wasm, ?_⟩
        rw [hsettled, hanswer, ← hp]
        rfl

/-- A promise is that of the scenario or does not resolve, so that pinning fails closed here
as well. -/
theorem openSession_settled {ssh : SshLibrary Key Signer Conn} {r : Outcome String ι idOf Conn}
    (h : SSHClient.openSession ssh a s = some r) :
    (∃ wasm, r.settled = (SSHClient.connect ssh (a.scenario idOf wasm)).settled) ∨
      ∀ id, r.settled ≠ .resolved id := by
  have hguard : ∀ wasm, SSHClient.connect ssh (a.scenario idOf wasm) =
      match SSHClient.connectRefusal a with
      | some e => ⟨.rejected e, none⟩
      | none => Run.after a.created <| Run.after a.connected <|
          SSHClient.settle (a.scenario idOf wasm) (wasmConnect ssh (a.scenario idOf wasm))
            .resolved := by
    intro wasm
    unfold SSHClient.connect SSHClient.connectRefusal Attempt.scenario
    cases a.initialized with
    | false => rfl
    | true =>
      cases hpin : pinMissing a.guardOptions a.guardOptions' with
      | none => simp
      | some missing => cases missing <;> simp
  unfold SSHClient.openSession at h
  cases hrefusal : SSHClient.connectRefusal a with
  | some e =>
    rw [hrefusal] at h
    cases h
    exact Or.inr (by simp)
  | none =>
    rw [hrefusal] at h
    have hgo : ∀ env, (wasmConnect ssh env).1 = (SSHClient.goConnect ssh env).1 := by
      intro env
      unfold SSHClient.goConnect
      obtain ⟨p, _ | connecting⟩ := wasmConnect ssh env <;> rfl
    refine (Attempt.body_settled (wasmConnect ssh) hgo h).imp_left ?_
    rintro ⟨wasm, hsettled⟩
    refine ⟨wasm, ?_⟩
    rw [hguard, hrefusal, hsettled]

theorem captureFingerprint_settled {ssh : SshLibrary Key Signer Conn}
    {r : Outcome HostKeyPin ι idOf Conn} (h : SSHClient.captureFingerprint ssh a s = some r) :
    (∃ wasm, r.settled = (SSHClient.getServerFingerprint ssh (a.scenario idOf wasm)).settled) ∨
      ∀ pin, r.settled ≠ .resolved pin := by
  unfold SSHClient.captureFingerprint SSHClient.captureRefusal at h
  unfold SSHClient.getServerFingerprint Attempt.scenario
  cases hinitialized : a.initialized with
  | false =>
    rw [hinitialized] at h
    cases h
    exact Or.inr (by simp)
  | true =>
    rw [hinitialized] at h
    refine (Attempt.body_settled (wasmGetServerFingerprint ssh) (fun _ => rfl) h).imp_left ?_
    rintro ⟨wasm, hsettled⟩
    refine ⟨wasm, ?_⟩
    rw [hsettled, Attempt.scenario, hinitialized]
    rfl

/-- A server whose key is not the pinned one. -/
def mismatch : Attempt Unit Unit where
  transport := ()
  initialized := true
  guardOptions := optionsObject "SHA256:other"
  guardOptions' := optionsObject "SHA256:other"
  options := optionsObject "SHA256:other"
  created := .resolved ()
  connected := .resolved ()
  closed := .resolved ()
  whileConnecting := []
  whileInGo := []
  whileClosing := []
  sessions := fun _ => none
  sessionID := "ssh-00"

end SshClientWasm.Ssh
