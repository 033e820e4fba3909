import SshClientWasm.Bridge.Transports
import SshClientWasm.Ssh.Pinning
import SshClientWasm.Ssh.Safety

/-!
# Two ways to drive a session

The session object has its client and its transport, and calls the client in a
goroutine. `SSHClient.disconnect` and `SSHClient.send` look the client up by the id of
the session and call it in the handler that JavaScript waits for. Both are run by
themselves, in any state that the goroutines of the client can reach. A handler that waits
for another goroutine or for the server waits for ever: the runtime ends the program with
a deadlock error, and the promise resolves with nothing done.
-/
namespace SshClientWasm.Ssh

open Library Bridge

/-- Run a call by itself, with answers to its remote operations. It does not end where
an answer is missing. -/
def Stage.complete {κ Conn : Type*} (answers : Remote → Option (Option String)) :
    ℕ → Shared κ Conn → Stage → Option (Shared κ Conn × Except String Unit)
  | 0, _, _ => none
  | _ + 1, x, .done _ result => some (x, result)
  | n + 1, x, .remote op caller =>
    (answers op).bind fun err =>
      ((Stage.remote op caller).go x err).bind fun next => complete answers n next.2.1 next.2.2
  | n + 1, x, stage => (stage.go x none).bind fun next => complete answers n next.2.1 next.2.2

/-- Run a call by itself beside the others that have the mutex. It does not end where a
lock is not free. -/
def Stage.alone {τ κ Conn : Type*} [DecidableEq τ] (t : τ)
    (answers : Remote → Option (Option String)) :
    ℕ → RWMutex τ → Shared κ Conn → Stage →
      Option (RWMutex τ × Shared κ Conn × Except String Unit)
  | 0, _, _, _ => none
  | _ + 1, mu, x, .done _ result => some (mu, x, result)
  | n + 1, mu, x, .remote op caller =>
    (answers op).bind fun err =>
      ((Stage.remote op caller).go x err).bind fun next =>
        (mu.perform t next.1).bind fun mu => alone t answers n mu next.2.1 next.2.2
  | n + 1, mu, x, stage =>
    (stage.go x none).bind fun next =>
      (mu.perform t next.1).bind fun mu => alone t answers n mu next.2.1 next.2.2

section Alone

variable {τ κ Conn : Type*} [DecidableEq τ] {answers : Remote → Option (Option String)}
  {x' : Shared κ Conn} {result : Except String Unit}

/-- A call that ends by itself is a run of the goroutines in which only one moves. -/
theorem alone_run {mu' : RWMutex τ} (t : τ) (n : ℕ) :
    ∀ (s : Guarded τ (Shared κ Conn) Goroutine) (stage : Stage), (s.pc t).stage = stage →
      Stage.alone t answers n s.mu s.shared stage = some (mu', x', result) →
      ∃ labels s', program.machine.run s labels = some s' ∧ s'.shared = x' ∧ s'.mu = mu' ∧
        ∃ call, (s'.pc t).stage = .done call result := by
  induction n with
  | zero =>
    intro s stage _ h
    cases h
  | succ n ih =>
    intro s stage hstage h
    -- A step of the call is a step of the goroutine, which gets the lock it asks for.
    have hstep : ∀ err next mu, stage.go s.shared err = some next →
        s.mu.perform t next.1 = some mu →
        Stage.alone t answers n mu next.2.1 next.2.2 = some (mu', x', result) →
        ∃ labels s', program.machine.run s labels = some s' ∧ s'.shared = x' ∧ s'.mu = mu' ∧
          ∃ call, (s'.pc t).stage = .done call result := by
      rintro err ⟨op, y, stage'⟩ mu hgo hperform hrest
      let s₁ : Guarded τ (Shared κ Conn) Goroutine :=
        ⟨mu, y, Function.update s.pc t ⟨stage', (s.pc t).late⟩⟩
      have hadvance : program.machine.step s (.inl (t, .go err)) = some s₁ := by
        simp only [Program.machine, program, advance, hstage, hgo, Option.map_some,
          Option.bind_some, hperform, s₁]
      obtain ⟨labels, s', hrun, hend⟩ := ih s₁ stage' (by simp [s₁]) hrest
      exact ⟨.inl (t, .go err) :: labels, s',
        (program.machine.run_cons_eq_some).mpr ⟨s₁, hadvance, hrun⟩, hend⟩
    cases stage with
    | done call result' =>
      cases h
      exact ⟨[], s, rfl, rfl, rfl, call, hstage⟩
    | remote op caller =>
      obtain ⟨err, _, h⟩ := Option.bind_eq_some_iff.mp h
      obtain ⟨next, hgo, h⟩ := Option.bind_eq_some_iff.mp h
      obtain ⟨mu, hperform, hrest⟩ := Option.bind_eq_some_iff.mp h
      exact hstep err next mu hgo hperform hrest
    | _ =>
      obtain ⟨next, hgo, h⟩ := Option.bind_eq_some_iff.mp h
      obtain ⟨mu, hperform, hrest⟩ := Option.bind_eq_some_iff.mp h
      exact hstep none next mu hgo hperform hrest

/-- Where nobody else has the mutex, a call gets every lock it asks for. -/
theorem alone_only (t : τ) (n : ℕ) : ∀ (x : Shared κ Conn) (stage : Stage),
    Stage.alone t answers n (.only t stage.access) x stage =
      (Stage.complete answers n x stage).map fun p => (.free, p) := by
  induction n with
  | zero => exact fun _ _ => rfl
  | succ n ih =>
    intro x stage
    have hstep : ∀ err, ((stage.go x err).bind fun next =>
        ((RWMutex.only t stage.access).perform t next.1).bind fun mu =>
          Stage.alone t answers n mu next.2.1 next.2.2) =
        ((stage.go x err).bind fun next =>
          Stage.complete answers n next.2.1 next.2.2).map fun p => (.free, p) := by
      intro err
      cases hgo : stage.go x err with
      | none => rfl
      | some next =>
        obtain ⟨op, y, stage'⟩ := next
        have hmoves := (Stage.go_transition hgo).moves
        rw [Option.bind_some, Option.bind_some, RWMutex.perform_only hmoves, Option.bind_some]
        exact ih y stage'
    cases stage with
    | done call result => rfl
    | remote op caller =>
      rw [Stage.alone, Stage.complete]
      cases answers op with
      | none => rfl
      | some err => exact hstep err
    | _ => exact hstep none

theorem complete_run (t : τ) (n : ℕ) (s : Guarded τ (Shared κ Conn) Goroutine) (stage : Stage)
    (hstage : (s.pc t).stage = stage) (hmu : s.mu = .only t stage.access)
    (h : Stage.complete answers n s.shared stage = some (x', result)) :
    ∃ labels s', program.machine.run s labels = some s' ∧ s'.shared = x' ∧ s'.mu = .free ∧
      ∃ call, (s'.pc t).stage = .done call result := by
  have halone : Stage.alone t answers n s.mu s.shared stage = some (.free, x', result) := by
    rw [hmu, alone_only, h]
    rfl
  exact alone_run t n s stage hstage halone

end Alone

/-- The client with its goroutines, whether one of them waits to write, the goroutine of
the next call, the transports, and the transport that the session was opened with. -/
structure Driving (τ κ ι : Type*) (idOf : ι → String) where
  initialized : Bool
  client : Guarded τ (Shared κ ℕ) Goroutine
  waiting : Bool
  caller : τ
  transports : Transports ι idOf
  transport : ι

/-- A rejection as the caller gets it: an `Error`, what Go has rejected with, or what
`wrapSSHError` has made of that. -/
inductive Thrown
  | error (message : String)
  | raw (e : RawError)
  | wrapped (e : Rejection)
  deriving DecidableEq, Repr

/-- The code of a typed error. -/
def Thrown.code : Thrown → Option ConnectErrorCode
  | .wrapped (.ssh e) => some e.code
  | _ => none

namespace Driving

variable {τ κ ι : Type*} {idOf : ι → String} (s : Driving τ κ ι idOf)

/-- Nobody holds the mutex of the client. -/
def Idle : Prop := s.client.mu.writer = none ∧ s.client.mu.readers = ∅

/-- Nobody writes or waits to write. -/
def Readable : Prop := s.client.mu.writer = none ∧ s.waiting = false

/-- A call of a method. `RLock` waits also for who waits to write. -/
def call [DecidableEq τ] (c : Call) (answers : Remote → Option (Option String)) :
    Option (Driving τ κ ι idOf × Except String Unit) :=
  if (Stage.first s.client.shared c).1 = .rLock ∧ s.waiting then none
  else (Stage.alone s.caller answers 16 s.client.mu s.client.shared (.enter c)).map fun p =>
    ({ s with client := { s.client with mu := p.1, shared := p.2.1 } }, p.2.2)

end Driving

variable {τ κ ι : Type*} {idOf : ι → String}

section ById

variable {s : Driving τ κ ι idOf}

/-- A static method: the client registered under the id of the session. -/
def SSHClient.byId (s : Driving τ κ ι idOf)
    (call : Option (Driving τ κ ι idOf × Except String Unit)) :
    Option (Driving τ κ ι idOf × Except Thrown Unit) :=
  if s.initialized then
    match s.client.shared.sessions s.client.shared.sessionID with
    | none => some (s, .error (.raw (.text ("session not found: " ++ s.client.shared.sessionID))))
    | some _ => call.map fun p => (p.1, p.2.mapError fun err => .raw (.text err))
  else some (s, .error (.error "SSHClient not initialized"))

theorem byId_ok {call : Option (Driving τ κ ι idOf × Except String Unit)}
    {d : Driving τ κ ι idOf × Except Thrown Unit} (h : SSHClient.byId s call = some d)
    (hok : d.2 = .ok ()) :
    s.initialized = true ∧ s.client.shared.sessions s.client.shared.sessionID ≠ none ∧
      ∃ p, call = some p ∧ p.2 = .ok () := by
  unfold SSHClient.byId at h
  split_ifs at h with hinitialized
  · cases hfound : s.client.shared.sessions s.client.shared.sessionID with
    | none =>
      rw [hfound] at h
      cases h
      cases hok
    | some entry =>
      rw [hfound] at h
      obtain ⟨⟨t, result⟩, hp, rfl⟩ := Option.map_eq_some_iff.mp h
      refine ⟨hinitialized, by simp, _, hp, ?_⟩
      cases result with
      | error err => cases hok
      | ok u => rfl
  · cases h
    cases hok

theorem byId_error {call : Option (Driving τ κ ι idOf × Except String Unit)}
    {d : Driving τ κ ι idOf × Except Thrown Unit} {e : Thrown} (h : SSHClient.byId s call = some d)
    (herror : d.2 = .error e) : e.code = none := by
  unfold SSHClient.byId at h
  split_ifs at h with hinitialized
  · cases hfound : s.client.shared.sessions s.client.shared.sessionID with
    | none =>
      rw [hfound] at h
      cases h
      cases herror
      rfl
    | some entry =>
      rw [hfound] at h
      obtain ⟨⟨t, result⟩, _, rfl⟩ := Option.map_eq_some_iff.mp h
      cases result with
      | error err =>
        cases herror
        rfl
      | ok u => cases herror
  · cases h
    cases herror
    rfl

end ById

section Send

variable [DecidableEq τ]

/-- No answer reaches Go while JavaScript waits for the handler, which does not get to its
`select` then. -/
def SSHClient.send (s : Driving τ κ ι idOf) (data : Bytes) :
    Option (Driving τ κ ι idOf × Except Thrown Unit) :=
  SSHClient.byId s (s.call (.send data) fun _ => none)

def Session.send (s : Driving τ κ ι idOf) (data : Bytes)
    (answers : Remote → Option (Option String)) :
    Option (Driving τ κ ι idOf × Except Thrown Unit) :=
  (s.call (.send data) answers).map fun p =>
    (p.1, p.2.mapError fun err => .wrapped (wrapSSHError (.text err)))

/-- Both ways to send deliver to the same queue, or reject with the same code. -/
def SendAgrees (s : Driving τ κ ι idOf) (data : Bytes)
    (answers : Remote → Option (Option String)) : Prop :=
  ∃ d d', SSHClient.send s data = some d ∧ Session.send s data answers = some d' ∧
    (d.2 = .ok () ∧ d'.2 = .ok () ∧ d.1.client.shared.channel = d'.1.client.shared.channel ∨
      ∃ e e' code, d.2 = .error e ∧ d'.2 = .error e' ∧ e.code = some code ∧ e'.code = some code)

variable {Conn : Type*} {x : Shared κ Conn} {s : Driving τ κ ι idOf} {id : String} {this : κ}
  {answers : Remote → Option (Option String)} {data : Bytes}

theorem alone_send {mu : RWMutex τ} {t : τ} (hmu : mu.writer = none) (h : x.shellStarted = true) :
    ∃ mu', Stage.alone t answers 16 mu x (.enter (.send data)) = some (mu', x.select data) := by
  simp [Stage.alone, Stage.go, Stage.first, h, RWMutex.perform, RWMutex.rLock, hmu]

theorem alone_enter_send {mu : RWMutex τ} {t : τ} (hmu : mu.writer ≠ none) :
    Stage.alone t answers 16 mu x (.enter (.send data)) = none := by
  simp [Stage.alone, Stage.go, Stage.first, RWMutex.perform, RWMutex.rLock, hmu]

theorem alone_send_waits {mu : RWMutex τ} {t : τ} (h : x.shellStarted = false)
    (hconn : x.conn ≠ none) :
    Stage.alone t (fun _ => none) 16 mu x (.enter (.send data)) = none := by
  obtain ⟨conn, hconn⟩ := Option.ne_none_iff_exists'.mp hconn
  simp [Stage.alone, Stage.go, Stage.first, h, hconn]

theorem Alive.select_ok_iff (h : Alive id this x)
    (hopen : x.channel.closed = false) :
    (x.select data).2 = .ok () ↔ x.channel.buffer.items.length < 100 := by
  cases hroom : x.channel.buffer.trySend data with
  | none =>
    have hfull := BoundedQueue.trySend_eq_none.mp hroom
    simp [Shared.select, h.stdinRef, Channel.send, hopen, hroom, hfull]
  | some buffer =>
    have hlt := (BoundedQueue.trySend_eq_some hroom).1
    simp [Shared.select, h.stdinRef, Channel.send, hopen, hroom, hlt]

/-- Both ways to send agree where nobody writes or waits to write, `SSHClient` can reach the
client, its shell is started and its queue has room. -/
theorem sendAgrees_iff (hx : s.client.mu.writer = none → Unlocked id this s.client.shared) :
    SendAgrees s data answers ↔ s.Readable ∧ s.initialized = true ∧
      s.client.shared.sessions s.client.shared.sessionID ≠ none ∧
      s.client.shared.shellStarted = true ∧
      s.client.shared.channel.buffer.items.length < 100 := by
  constructor
  · rintro ⟨d, d', hstatic, _, ⟨hok, _, _⟩ | ⟨e, e', code, herror, _, hcode, _⟩⟩
    · obtain ⟨hinitialized, hregistered, p, hp, hpok⟩ := byId_ok hstatic hok
      obtain ⟨hwaits, hp⟩ := Option.ite_none_left_eq_some.mp hp
      have hwaiting : s.waiting = false := by simpa [Stage.first] using hwaits
      obtain ⟨q, hq, rfl⟩ := Option.map_eq_some_iff.mp hp
      have hwriter : s.client.mu.writer = none := by
        by_contra hnot
        rw [alone_enter_send hnot] at hq
        cases hq
      rcases hx hwriter with ⟨halive, hopen, _⟩ | ⟨hgone, hunregistered⟩
      · have hstarted : s.client.shared.shellStarted = true := by
          by_contra hnot
          rw [alone_send_waits (by simpa using hnot) halive.conn] at hq
          cases hq
        obtain ⟨mu', hsend⟩ := alone_send hwriter hstarted
        rw [hsend] at hq
        cases hq
        exact ⟨⟨hwriter, hwaiting⟩, hinitialized, hregistered, hstarted,
          (halive.select_ok_iff hopen).mp hpok⟩
      · rw [hgone.sessionID] at hregistered
        exact absurd hunregistered hregistered
    · rw [byId_error hstatic herror] at hcode
      cases hcode
  · rintro ⟨⟨hwriter, hwaiting⟩, hinitialized, hregistered, hstarted, hroom⟩
    rcases hx hwriter with ⟨halive, hopen, _⟩ | ⟨hgone, _⟩
    · have hok : (s.client.shared.select data).2 = .ok () := (halive.select_ok_iff hopen).mpr hroom
      have hsent : ∀ answers, ∃ sent : Driving τ κ ι idOf,
          s.call (.send data) answers = some (sent, .ok ()) ∧
            sent.client.shared = (s.client.shared.select data).1 := by
        intro answers
        obtain ⟨mu', hsend⟩ : ∃ mu', Stage.alone s.caller answers 16 s.client.mu s.client.shared
            (.enter (.send data)) = some (mu', s.client.shared.select data) :=
          alone_send hwriter hstarted
        refine ⟨{ s with client := ⟨mu', (s.client.shared.select data).1, s.client.pc⟩ }, ?_, rfl⟩
        rw [Driving.call, if_neg (by simp [hwaiting]), hsend, Option.map_some, hok]
      obtain ⟨entry, hentry⟩ := Option.ne_none_iff_exists'.mp hregistered
      obtain ⟨sent, hcall, hshared⟩ := hsent fun _ => none
      obtain ⟨sent', hcall', hshared'⟩ := hsent answers
      have hstatic : SSHClient.send s data = some (sent, .ok ()) := by
        rw [SSHClient.send, SSHClient.byId, if_pos hinitialized, hentry, hcall]
        rfl
      have hobject : Session.send s data answers = some (sent', .ok ()) := by
        rw [Session.send, hcall']
        rfl
      refine ⟨_, _, hstatic, hobject, Or.inl ⟨rfl, rfl, ?_⟩⟩
      rw [hshared, hshared']
    · rw [hgone.shellStarted] at hstarted
      cases hstarted

end Send

section Disconnect

variable [DecidableEq ι]

/-- `closeTransport` of the manager by itself; it swallows the rejection of `disconnect()`. -/
def Driving.closeTransport (s : Driving τ κ ι idOf) (resolves : Bool) : Driving τ κ ι idOf :=
  match s.transports.startClosing (idOf s.transport) with
  | none => s
  | some (transports, d) =>
    { s with transports := if resolves then transports.disconnected d else transports }

/-- The registries have the same contents, and the transports are in the same state. -/
structure SameContents (s s' : Driving τ κ ι idOf) : Prop where
  sessions : s.client.shared.sessions = s'.client.shared.sessions
  registered : s.transports.manager.wasm.transports = s'.transports.manager.wasm.transports
  mapped : s.transports.manager.transports = s'.transports.manager.transports
  isConnected : s.transports.isConnected = s'.transports.isConnected
  closed : ∀ k, s.transports.manager.isClosed k = s'.transports.manager.isClosed k

omit [DecidableEq ι] in
theorem sameContents_congr {s s' t : Driving τ κ ι idOf}
    (hsessions : s'.client.shared.sessions = s.client.shared.sessions)
    (htransports : s'.transports = s.transports) : SameContents s t ↔ SameContents s' t := by
  constructor
  · rintro ⟨h₁, h₂, h₃, h₄, h₅⟩
    exact ⟨hsessions.trans h₁, htransports ▸ h₂, htransports ▸ h₃, htransports ▸ h₄,
      htransports ▸ h₅⟩
  · rintro ⟨h₁, h₂, h₃, h₄, h₅⟩
    exact ⟨hsessions.symm.trans h₁, htransports ▸ h₂, htransports ▸ h₃, htransports ▸ h₄,
      htransports ▸ h₅⟩

theorem closeTransport_same_iff {s : Driving τ κ ι idOf} {resolves : Bool} :
    SameContents s (s.closeTransport resolves) ↔
      s.transports.manager.transports (idOf s.transport) = none ∨ resolves = false := by
  unfold Driving.closeTransport Transports.startClosing
  cases hfound : s.transports.manager.transports (idOf s.transport) with
  | none => exact iff_of_true ⟨rfl, rfl, rfl, rfl, fun _ => rfl⟩ (Or.inl rfl)
  | some i =>
    cases resolves with
    | false => exact iff_of_true ⟨rfl, rfl, rfl, rfl, fun _ => rfl⟩ (Or.inr rfl)
    | true =>
      refine iff_of_false ?_ (by simp)
      intro hsame
      have hmapped := congrFun hsame.mapped (idOf s.transport)
      rw [hfound] at hmapped
      simp [Transports.disconnected_manager, Manager.closeTransport] at hmapped

theorem closeTransport_client {s : Driving τ κ ι idOf} {resolves : Bool} :
    (s.closeTransport resolves).client = s.client := by
  unfold Driving.closeTransport
  split <;> rfl

variable [DecidableEq τ]

/-- `Disconnect`, which closes the connection and with it the `JSTransport` below. -/
def Driving.disconnect (s : Driving τ κ ι idOf) : Option (Driving τ κ ι idOf × Except String Unit) :=
  (s.call .disconnect fun _ => none).map fun p =>
    ({ p.1 with
        transports := (s.client.shared.conn.bind s.transports.manager.close).elim s.transports
          s.transports.released }, p.2)

def SSHClient.disconnect (s : Driving τ κ ι idOf) :
    Option (Driving τ κ ι idOf × Except Thrown Unit) :=
  SSHClient.byId s s.disconnect

def Session.disconnect (s : Driving τ κ ι idOf) (resolves : Bool) :
    Option (Driving τ κ ι idOf × Except Thrown Unit) :=
  s.disconnect.map fun p =>
    (p.1.closeTransport resolves, p.2.mapError fun err => .raw (.text err))

/-- Both ways to disconnect settle, and leave the same. -/
def DisconnectAgrees (s : Driving τ κ ι idOf) (resolves : Bool) : Prop :=
  ∃ d d', SSHClient.disconnect s = some d ∧ Session.disconnect s resolves = some d' ∧
    SameContents d.1 d'.1

variable {Conn : Type*} {s : Driving τ κ ι idOf} {id : String} {this : κ}
  {resolves : Bool} {answers : Remote → Option (Option String)}

theorem alone_disconnect {x : Shared κ Conn} {mu : RWMutex τ} {t : τ} (hwriter : mu.writer = none)
    (hreaders : mu.readers = ∅) :
    ∃ mu', Stage.alone t answers 16 mu x (.enter .disconnect) = some (mu',
      ({ x with entered := true } : Shared κ Conn).closeStdin.clear.unregister, .ok ()) := by
  simp [Stage.alone, Stage.go, Stage.first, RWMutex.perform, RWMutex.lock, hwriter, hreaders]

omit [DecidableEq ι] in
theorem call_disconnect_waits (hidle : ¬ s.Idle) : s.call .disconnect answers = none := by
  have hlock : s.client.mu.lock s.caller = none := if_neg hidle
  simp [Driving.call, Stage.alone, Stage.go, Stage.first, RWMutex.perform, hlock]

theorem closeStdin_sessions {x : Shared κ Conn} : x.closeStdin.sessions = x.sessions ∧
    x.closeStdin.sessionID = x.sessionID := by
  unfold Shared.closeStdin
  split
  · split <;> exact ⟨rfl, rfl⟩
  · exact ⟨rfl, rfl⟩

theorem disconnect_spec (hidle : s.Idle) : ∃ d, s.disconnect = some (d, .ok ()) ∧
    d.client.shared.sessions =
      Function.update s.client.shared.sessions s.client.shared.sessionID none ∧
    d.transport = s.transport ∧
    d.transports.manager.transports = s.transports.manager.transports ∧
    (s.client.shared.conn = none → d.transports = s.transports) := by
  obtain ⟨mu', hdisconnect⟩ : ∃ mu', Stage.alone s.caller (fun _ => none) 16 s.client.mu
      s.client.shared (.enter .disconnect) = some (mu', ({ s.client.shared with
        entered := true } : Shared κ ℕ).closeStdin.clear.unregister, .ok ()) :=
    alone_disconnect hidle.1 hidle.2
  unfold Driving.disconnect Driving.call
  rw [if_neg (by simp [Stage.first]), hdisconnect]
  refine ⟨_, rfl, ?_, rfl, ?_, fun hconn => by simp [hconn]⟩
  · obtain ⟨hsessions, hid⟩ := closeStdin_sessions (x := { s.client.shared with entered := true })
    simp [Shared.unregister, Shared.clear, hsessions, hid]
  · cases hclose : s.client.shared.conn.bind s.transports.manager.close with
    | none => rfl
    | some p =>
      obtain ⟨k, _, hclose⟩ := Option.bind_eq_some_iff.mp hclose
      obtain ⟨howners, _, hregistered, _⟩ := Manager.close_eq_some hclose
      rw [Option.elim_some, Transports.released_manager]
      funext name
      rw [p.1.synced, s.transports.manager.synced, howners, hregistered]

/-- Both ways to disconnect agree where nobody is inside the client, the client is not
connected any more unless `SSHClient` can reach it, and the manager has nothing to close. -/
theorem disconnectAgrees_iff (hx : s.Idle → Unlocked id this s.client.shared) :
    DisconnectAgrees s resolves ↔ s.Idle ∧
      (s.initialized = true ∨ s.client.shared.conn = none) ∧
      (s.transports.manager.transports (idOf s.transport) = none ∨ resolves = false) := by
  by_cases hidle : s.Idle
  · obtain ⟨d, hd, hsessions, htransport, hmapped, hgoes⟩ := disconnect_spec hidle
    have hsession : Session.disconnect s resolves = some (d.closeTransport resolves, .ok ()) := by
      rw [Session.disconnect, hd]
      rfl
    have hagrees : ∀ t r, SSHClient.disconnect s = some (t, r) →
        (DisconnectAgrees s resolves ↔ SameContents t (d.closeTransport resolves)) := by
      intro t r ht
      constructor
      · rintro ⟨_, _, hstatic, hobject, hsame⟩
        cases ht.symm.trans hstatic
        cases hsession.symm.trans hobject
        exact hsame
      · exact fun hsame => ⟨_, _, ht, hsession, hsame⟩
    have hcloses : SameContents d (d.closeTransport resolves) ↔
        s.transports.manager.transports (idOf s.transport) = none ∨ resolves = false := by
      rw [closeTransport_same_iff, hmapped, htransport]
    rw [and_iff_right hidle]
    rcases hx hidle with ⟨halive, _⟩ | ⟨hgone, hunregistered⟩
    · have hregistered := halive.registered
      rw [← halive.sessionID] at hregistered
      cases hinitialized : s.initialized with
      | true =>
        have hstatic : SSHClient.disconnect s = some (d, .ok ()) := by
          rw [SSHClient.disconnect, SSHClient.byId, if_pos hinitialized, hregistered, hd]
          rfl
        rw [hagrees _ _ hstatic, hcloses]
        simp
      | false =>
        have hstatic : SSHClient.disconnect s =
            some (s, .error (.error "SSHClient not initialized")) := by
          rw [SSHClient.disconnect, SSHClient.byId, hinitialized]
          rfl
        rw [hagrees _ _ hstatic]
        refine iff_of_false ?_ (by simp [halive.conn])
        intro hsame
        have hleft := congrFun hsame.sessions s.client.shared.sessionID
        rw [closeTransport_client, hsessions, Function.update_self, hregistered] at hleft
        cases hleft
    · rw [← hgone.sessionID] at hunregistered
      -- Both ways leave a client that is gone as it is.
      have hstatic : ∃ r, SSHClient.disconnect s = some (s, r) := by
        rw [SSHClient.disconnect, SSHClient.byId, hunregistered]
        split_ifs <;> exact ⟨_, rfl⟩
      obtain ⟨r, hstatic⟩ := hstatic
      have hkept : d.client.shared.sessions = s.client.shared.sessions := by
        rw [hsessions, ← hunregistered, Function.update_eq_self]
      rw [hagrees _ _ hstatic, sameContents_congr hkept (hgoes hgone.conn), hcloses]
      simp [hgone.conn]
  · refine iff_of_false ?_ (fun h => hidle h.1)
    rintro ⟨_, _, _, hsession, _⟩
    simp [Session.disconnect, Driving.disconnect, call_disconnect_waits hidle] at hsession

/-- In every state that a connected client can reach, in any interleaving of calls and
with any transports, the two ways to drive its session agree exactly under these
conditions. -/
theorem driving_agrees_iff (id : String) (conn : ℕ) (sessions : String → Option κ) (this : κ)
    (labels : List (τ × Input ⊕ ℕ)) (s : Driving τ κ ι idOf)
    (hrun : program.machine.run
      (Program.start (Shared.connected id conn sessions this) ⟨.idle, false⟩) labels =
        some s.client)
    (resolves : Bool) (data : Bytes) (answers : Remote → Option (Option String)) :
    (DisconnectAgrees s resolves ↔ s.Idle ∧
      (s.initialized = true ∨ s.client.shared.conn = none) ∧
      (s.transports.manager.transports (idOf s.transport) = none ∨ resolves = false)) ∧
    (SendAgrees s data answers ↔ s.Readable ∧ s.initialized = true ∧
      s.client.shared.sessions s.client.shared.sessionID ≠ none ∧
      s.client.shared.shellStarted = true ∧
      s.client.shared.channel.buffer.items.length < 100) := by
  have hx : s.client.mu.writer = none → Unlocked id this s.client.shared := by
    intro hwriter
    apply (connected_holds hrun).unlocked
    intro t hwrite
    rw [← (connected_holds hrun).access_eq t, RWMutex.access_eq_write, hwriter] at hwrite
    cases hwrite
  exact ⟨disconnectAgrees_iff fun hidle => hx hidle.1, sendAgrees_iff hx⟩

end Disconnect

/-- A session on the `JSTransport` that was created and connected for it. -/
def opened : Driving ℕ Unit Unit fun _ => "t" where
  initialized := true
  client := Program.start (Shared.connected "ssh-00" 0 (fun _ => none) ()) ⟨.idle, false⟩
  waiting := false
  caller := 1
  transports :=
    { (Transports.start : Transports Unit fun _ => "t") with
      manager := Manager.empty.createTransport ()
      isConnected := fun _ => true }
  transport := ()

/-- The shell is started by a first `Send`, and somebody has closed the transport. -/
theorem driving_agrees_started :
    ∃ s : Driving ℕ Unit Unit fun _ => "t",
      program.machine.run opened.client
        (.inl (0, .call (.send [1])) :: List.replicate 12 (.inl (0, .go none))) = some s.client ∧
      DisconnectAgrees s true ∧ SendAgrees s [2] fun _ => none := by
  let s : Driving ℕ Unit Unit fun _ => "t" :=
    ⟨true, (program.machine.run opened.client
      (.inl (0, .call (.send [1])) :: List.replicate 12 (.inl (0, .go none)))).getD opened.client,
      false, 1, .start, ()⟩
  have hrun : program.machine.run opened.client
      (.inl (0, .call (.send [1])) :: List.replicate 12 (.inl (0, .go none))) = some s.client := rfl
  have hagrees := driving_agrees_iff "ssh-00" 0 (fun _ => none) () _ s hrun true [2] fun _ => none
  refine ⟨s, hrun, hagrees.1.mpr ⟨⟨rfl, rfl⟩, Or.inl rfl, Or.inl rfl⟩, ?_⟩
  exact hagrees.2.mpr ⟨⟨rfl, rfl⟩, rfl, nofun, rfl, by decide⟩

/-- On a new session the two ways to disconnect leave different registries, and a first
`SSHClient.send` does not get to its `select` where that of the session delivers. -/
theorem opened_not_agrees :
    (∃ d d', SSHClient.disconnect opened = some d ∧ Session.disconnect opened true = some d' ∧
      d.1.transports.manager.transports "t" = some () ∧
      d'.1.transports.manager.transports "t" = none) ∧
    ¬ DisconnectAgrees opened true ∧
    SSHClient.send opened [1] = none ∧
    (∃ d, Session.send opened [1] (fun _ => some none) = some d ∧ d.2 = .ok ()) ∧
    ¬ SendAgrees opened [1] fun _ => some none := by
  refine ⟨⟨_, _, rfl, rfl, rfl, rfl⟩, ?_, rfl, ⟨_, rfl, rfl⟩, ?_⟩
  · rintro ⟨d, d', hd, hd', hsame⟩
    cases hd
    cases hd'
    exact absurd (congrFun hsame.mapped "t") (by decide)
  · rintro ⟨d, d', hd, _⟩
    cases hd

end SshClientWasm.Ssh
