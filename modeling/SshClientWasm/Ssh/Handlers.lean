import SshClientWasm.Library.EventLoop
import SshClientWasm.Ssh.Bindings
import SshClientWasm.Ssh.Lifecycle

/-!
# Handlers that wait for the client

`SSHClient.send` and `SSHClient.disconnect` call the client in the handler itself, the
session object in a goroutine. The client is that of the goroutines, at its mutex and in
the callbacks that it calls: an answer of the peer reaches Go only when nothing is on the
stack of the event loop.
-/
namespace SshClientWasm.Ssh

open Library

namespace Remote

/-- The operations that send a request and wait for its answer; the pipes are local. -/
def asks : Remote → Bool
  | newSession | requestPty | shell => true
  | stdinPipe | stdoutPipe | stderrPipe => false

end Remote

namespace Stage

/-- Where the transport may be written to, or closed, which calls JavaScript: requests, the
change of a window, SFTP, and the closes of `Disconnect`. -/
def writes {κ Conn : Type*} (x : Shared κ Conn) : Stage → Bool
  | remote op _ => op.asks
  | resize => x.session.isSome
  | sftpOpen => true
  | clear => x.session.isSome || x.conn.isSome
  | _ => false

@[simp] def claim (stage : Stage) : Claim :=
  match stage.access with
  | .none => .none
  | .read => .read
  | .write => .write

end Stage

/-- Where a goroutine is between the stages of its call: it notifies of a state, has called
`Lock` and waits for readers, has its answer, or is at what `Send` and `Disconnect` do last. -/
inductive Point
  | stage (stage : Stage)
  | disconnecting
  | startWaits (caller : Option Bytes)
  | disconnectWaits
  | answered (op : Remote) (caller : Option Bytes) (err : Option String)
  | packetSend (data : Bytes)
  | sent (data : Bytes) (result : Except String Unit)
  | disconnected
  | leaving

/-- The static methods that a handler calls the client for. -/
inductive Static
  | send (data : Bytes)
  | disconnect
  deriving DecidableEq, Repr

def Static.call : Static → Call
  | send data => .send data
  | disconnect => .disconnect

namespace Point

@[simp] def fresh : Point → Bool
  | stage .idle => true
  | _ => false

@[simp] def done : Point → Bool
  | stage (.done _ _) => true
  | _ => false

@[simp] def claim : Point → Claim
  | stage s => s.claim
  | disconnecting => .none
  | startWaits _ | disconnectWaits => .announced
  | packetSend _ | sent _ _ => .read
  | answered _ _ _ | disconnected | leaving => .write

@[simp] def wants : Point → Option ClaimOp
  | stage (.enter .startShell) | stage (.enter .disconnect) | stage (.startLock _) => some .announce
  | stage (.enter _) | stage (.relock _ _) => some .rLock
  | startWaits _ | disconnectWaits => some .acquire
  | _ => none

/-- The first point of a call. -/
def spawn : Call → Point
  | .disconnect => disconnecting
  | call => stage (.enter call)

variable {κ Conn : Type*}

/-- `DisconnectSession` and `SendToSession`. -/
def handle (x : Shared κ Conn) (c : Static) : Point :=
  if (x.sessions x.sessionID).isSome then spawn c.call
  else stage (.done c.call (.error ("session not found: " ++ x.sessionID)))

/-- A `Lock` takes two steps, which are not among these. -/
def lockOp : LockOp → ClaimOp
  | .none => .none
  | .lock => .acquire
  | .unlock => .unlock
  | .rLock => .rLock
  | .rUnlock => .rUnlock

/-- The next step of a call, with the error of a local operation. A point that waits for
the peer, or has to call a callback, has none. -/
def advance (callbacks : GoCallbacks) (x : Shared κ Conn) (p : Point) (err : Option String) :
    Option (ClaimOp × Shared κ Conn × Point) :=
  match p with
  | disconnecting =>
    if callbacks.onStateChange then none else some (.none, x, stage (.enter .disconnect))
  | stage (.enter .startShell) => some (.announce, x, startWaits none)
  | stage (.enter .disconnect) => some (.announce, x, disconnectWaits)
  | stage (.startLock data) => some (.announce, x, startWaits (some data))
  | startWaits caller => some (.acquire, x, stage (.start caller))
  | disconnectWaits => some (.acquire, { x with entered := true }, stage .closeStdin)
  | stage (.remote op caller) =>
    if op.asks then none
    else (Stage.go x (.remote op caller) err).map fun next =>
      (lockOp next.1, next.2.1, stage next.2.2)
  | answered op caller err =>
    (Stage.go x (.remote op caller) err).map fun next => (lockOp next.1, next.2.1, stage next.2.2)
  | stage (.select data) =>
    let (x', result) := x.select data
    some (.none, x',
      if result.isOk && callbacks.onPacketSend then packetSend data else sent data result)
  | packetSend _ => none
  | sent data result => some (.rUnlock, x, stage (.done (.send data) result))
  | stage .unregister => some (.none, x.unregister, disconnected)
  | disconnected => if callbacks.onStateChange then none else some (.none, x, leaving)
  | leaving => some (.unlock, x, stage (.done .disconnect (.ok ())))
  | stage s => (s.go x err).map fun next => (lockOp next.1, next.2.1, stage next.2.2)

/-- A call of a callback, or of JavaScript by the transport, and where it goes on then. -/
def callOut (callbacks : GoCallbacks) (x : Shared κ Conn) : Point → Option Point
  | disconnecting => if callbacks.onStateChange then some (stage (.enter .disconnect)) else none
  | packetSend data => some (sent data (.ok ()))
  | disconnected => if callbacks.onStateChange then some leaving else none
  | stage s => if s.writes x then some (stage s) else none
  | _ => none

/-- An answer of the peer. -/
def answer (p : Point) (err : Option String) : Option Point :=
  match p with
  | stage (.remote op caller) => if op.asks then some (answered op caller err) else none
  | _ => none

/-- Inside a `StartShell` that goes to the peer, or will. -/
@[simp] def Starting (x : Shared κ Conn) : Point → Prop
  | startWaits _ | stage (.start _) => x.shellStarted = false ∧ x.conn ≠ none
  | stage (.remote _ _) | answered _ _ _ => True
  | _ => False

/-- About to call `Lock` for a `StartShell` that will go to the peer. -/
@[simp] def Starts (x : Shared κ Conn) : Point → Prop
  | stage (.enter .startShell) | stage (.startLock _) => x.shellStarted = false ∧ x.conn ≠ none
  | _ => False

/-- The call still has to take the lock. -/
@[simp] def Needs (x : Shared κ Conn) : Point → Prop
  | disconnecting | startWaits _ | disconnectWaits => True
  | stage (.enter _) | stage (.startLock _) | stage (.relock _ _) => True
  | stage (.send _) => x.shellStarted = false
  | stage (.start caller) | stage (.remote _ caller) | answered _ caller _ => caller ≠ none
  | _ => False

/-- What a step does to the lock, to what its call still needs, and to the fields that
`StartShell` asks for. -/
structure Effect (x : Shared κ Conn) (p : Point) (op : ClaimOp) (x' : Shared κ Conn)
    (p' : Point) : Prop where
  moves : op.Moves p.claim p'.claim
  stale : p'.fresh = false
  wants : p.wants = if op.blocking then some op else none
  waits : ∀ err, p.answer err = none
  needs : Needs x' p' → Needs x p
  starting : Starting x' p' → Starting x p ∨ Starts x p
  frame : x'.shellStarted = x.shellStarted ∧ x'.conn = x.conn ∨ p.claim = .write

variable {callbacks : GoCallbacks} {x x' : Shared κ Conn} {p p' q : Point} {err : Option String}
  {op : ClaimOp}

theorem select_keeps (data : Bytes) :
    (x.select data).1.shellStarted = x.shellStarted ∧ (x.select data).1.conn = x.conn := by
  unfold Shared.select
  split <;> exact ⟨rfl, rfl⟩

theorem returned_effect (caller : Option Bytes) (err : Option String) :
    (stage (returned caller err)).claim = .none ∧ (stage (returned caller err)).fresh = false ∧
      (Needs x (stage (returned caller err)) → caller ≠ none) ∧
      ¬Starting x (stage (returned caller err)) := by
  cases caller <;> simp [returned, Stage.access]

theorem remote_effect {remote : Remote} {caller : Option Bytes} {lockOp' : LockOp} {s' : Stage}
    (h : Transition x (.remote remote caller) lockOp' x' s') :
    (lockOp lockOp').Moves .write s'.claim ∧ (lockOp lockOp').blocking = false ∧
      (stage s').fresh = false ∧ (Needs x' (stage s') → caller ≠ none) := by
  cases h with
  | remoteFailed op caller err =>
    obtain ⟨hclaim, hstale, hneeds, _⟩ := returned_effect (x := x) caller (some err)
    exact ⟨⟨rfl, hclaim⟩, rfl, hstale, hneeds⟩
  | remoteDone =>
    obtain ⟨hclaim, hstale, hneeds, _⟩ := returned_effect (x := x.remote .shell) caller none
    exact ⟨⟨rfl, hclaim⟩, rfl, hstale, hneeds⟩
  | remoteNext => exact ⟨rfl, rfl, rfl, id⟩

theorem start_effect {caller : Option Bytes} {lockOp' : LockOp} {s' : Stage}
    (h : Transition x (.start caller) lockOp' x' s') :
    Effect x (stage (.start caller)) (lockOp lockOp') x' (stage s') := by
  cases h with
  | startAgain _ hstarted =>
    obtain ⟨hclaim, hstale, hneeds, hstarting⟩ := returned_effect (x := x) caller none
    exact ⟨⟨rfl, hclaim⟩, hstale, rfl, fun _ => rfl, hneeds, fun h => absurd h hstarting,
      Or.inr rfl⟩
  | startGone _ err =>
    obtain ⟨hclaim, hstale, hneeds, hstarting⟩ := returned_effect (x := x) caller (some err)
    exact ⟨⟨rfl, hclaim⟩, hstale, rfl, fun _ => rfl, hneeds, fun h => absurd h hstarting,
      Or.inr rfl⟩
  | startRemote _ hstarted hconn =>
    exact ⟨rfl, rfl, rfl, fun _ => rfl, id, fun _ => Or.inl ⟨hstarted, hconn⟩, Or.inr rfl⟩

theorem select_effect {data : Bytes} (h : advance callbacks x (stage (.select data)) err =
    some (op, x', p')) : Effect x (stage (.select data)) op x' p' := by
  cases h
  have hafter : ∀ p : Point, p = (if (x.select data).2.isOk && callbacks.onPacketSend
      then packetSend data else sent data (x.select data).2) →
      p.claim = .read ∧ p.fresh = false ∧ ∀ y : Shared κ Conn, ¬Needs y p ∧ ¬Starting y p := by
    rintro p rfl
    split <;> simp
  obtain ⟨hclaim, hstale, hnot⟩ := hafter _ rfl
  exact ⟨hclaim.symm, hstale, rfl, fun _ => rfl, fun h => absurd h (hnot _).1,
    fun h => absurd h (hnot _).2, Or.inl (select_keeps data)⟩

theorem advance_effect (h : advance callbacks x p err = some (op, x', p')) :
    Effect x p op x' p' := by
  cases p with
  | disconnecting =>
    obtain ⟨_, h⟩ := Option.ite_none_left_eq_some.mp h
    cases h
    constructor <;> simp [answer, Stage.access]
  | disconnected =>
    obtain ⟨_, h⟩ := Option.ite_none_left_eq_some.mp h
    cases h
    constructor <;> simp [answer]
  | packetSend data => cases h
  | startWaits | disconnectWaits | sent | leaving =>
    cases h
    constructor <;> simp [answer, Stage.access]
  | answered remote caller err' =>
    simp only [advance] at h
    obtain ⟨⟨lockOp', y, s'⟩, hgo, hnext⟩ := Option.map_eq_some_iff.mp h
    cases hnext
    obtain ⟨hmoves, hblocking, hstale, hneeds⟩ := remote_effect (Stage.go_transition hgo)
    exact ⟨hmoves, hstale, (if_neg (ne_true_of_eq_false hblocking)).symm, fun _ => rfl, hneeds,
      fun _ => Or.inl trivial, Or.inr rfl⟩
  | stage s =>
    cases s with
    | idle | done => cases h
    | enter call =>
      cases call <;> simp only [advance, Stage.go, Stage.first, Option.map_some] at h <;> cases h
      all_goals constructor <;> simp [answer, lockOp, Stage.access]
    | startLock data =>
      cases h
      constructor <;> simp [answer, Stage.access]
    | send data =>
      by_cases hstarted : x.shellStarted
      · simp only [advance, Stage.go, hstarted, if_true, Option.map_some] at h
        cases h
        constructor <;> simp [answer, lockOp, Stage.access]
      · simp only [advance, Stage.go, hstarted, Option.map_some] at h
        cases h
        constructor <;> simp [answer, lockOp, Stage.access, hstarted]
    | start caller =>
      simp only [advance] at h
      obtain ⟨⟨lockOp', y, s'⟩, hgo, hnext⟩ := Option.map_eq_some_iff.mp h
      cases hnext
      exact start_effect (Stage.go_transition hgo)
    | remote remote caller =>
      simp only [advance] at h
      obtain ⟨hasks, h⟩ := Option.ite_none_left_eq_some.mp h
      obtain ⟨⟨lockOp', y, s'⟩, hgo, hnext⟩ := Option.map_eq_some_iff.mp h
      cases hnext
      obtain ⟨hmoves, hblocking, hstale, hneeds⟩ := remote_effect (Stage.go_transition hgo)
      exact ⟨hmoves, hstale, (if_neg (ne_true_of_eq_false hblocking)).symm, fun _ => if_neg hasks, hneeds,
        fun _ => Or.inl trivial, Or.inr rfl⟩
    | select data => exact select_effect h
    | unregister =>
      cases h
      constructor <;> simp [answer, Stage.access]
    | relock | sendFailed | resize | sftp | sftpOpen | closeStdin | clear =>
      simp only [advance] at h
      obtain ⟨⟨lockOp', y, s'⟩, hgo, hnext⟩ := Option.map_eq_some_iff.mp h
      cases hnext
      cases Stage.go_transition hgo <;> constructor <;> simp [answer, lockOp, Stage.access]

theorem needs_congr (h : x'.shellStarted = x.shellStarted) : Needs x' p ↔ Needs x p := by
  cases p with
  | stage s => cases s <;> simp [h]
  | _ => simp

theorem starting_congr (h : x'.shellStarted = x.shellStarted) (hconn : x'.conn = x.conn) :
    Starting x' p ↔ Starting x p := by
  cases p with
  | stage s => cases s <;> simp [h, hconn]
  | _ => simp [h, hconn]

theorem claim_of_starting (h : Starting x p) : p.claim = .announced ∨ p.claim = .write := by
  cases p with
  | stage s => cases s <;> simp_all [Stage.access]
  | _ => simp_all

theorem needs_of_claim (h : Needs x' p) (hclaim : p.claim ≠ .read) : Needs x p := by
  cases p with
  | stage s => cases s <;> simp_all [Stage.access]
  | _ => simp_all

theorem needs_of_wants (h : p.wants = some op) : Needs x p := by
  cases p with
  | stage s => cases s <;> simp_all
  | _ => simp_all

theorem wants_of_starts (h : Starts x p) : p.wants = some .announce := by
  cases p with
  | stage s =>
    cases s with
    | enter call => cases call <;> simp_all
    | _ => simp_all
  | _ => exact h.elim

theorem spawn_spec (c : Call) : (spawn c).claim = .none ∧ (spawn c).fresh = false := by
  cases c <;> exact ⟨rfl, rfl⟩

theorem not_starting_of_claim (h : p.claim = .none) : ¬Starting x p := by
  intro hstarting
  rcases claim_of_starting hstarting with hannounced | hwrite
  · rw [h] at hannounced
    cases hannounced
  · rw [h] at hwrite
    cases hwrite

theorem handle_spec (x : Shared κ Conn) (c : Static) :
    (handle x c).claim = .none ∧ (handle x c).fresh = false := by
  unfold handle
  split
  · exact spawn_spec c.call
  · exact ⟨rfl, rfl⟩

theorem resting (h : p.fresh = true ∨ p.done = true) :
    p.claim = .none ∧ p.wants = none ∧ ∀ err, p.answer err = none := by
  cases p with
  | stage s => cases s <;> simp_all [answer, Stage.access]
  | _ => simp_all

theorem wants_claim (h : p.wants = some op) :
    p.claim = if op = .acquire then .announced else .none := by
  cases p with
  | stage s =>
    cases s with
    | enter call => cases call <;> cases h <;> rfl
    | startLock | relock =>
      cases h
      rfl
    | _ => cases h
  | startWaits | disconnectWaits =>
    cases h
    rfl
  | _ => cases h

theorem called (h : callOut callbacks x p = some q) :
    q.claim = p.claim ∧ q.fresh = false ∧ p.wants = none ∧ p.claim ≠ .announced ∧
      ((∃ err r, p.answer err = some r) → q = p) ∧ (Needs x q → Needs x p) ∧
      (Starting x q → Starting x p) := by
  cases p with
  | disconnecting | disconnected =>
    obtain ⟨_, h⟩ := Option.ite_none_right_eq_some.mp h
    cases h
    simp [answer, Stage.access]
  | packetSend =>
    cases h
    simp [answer]
  | stage s =>
    obtain ⟨hwrites, h⟩ := Option.ite_none_right_eq_some.mp h
    cases h
    cases s <;> simp_all [Stage.writes, Stage.access]
  | _ => cases h

theorem answered_spec (h : p.answer err = some q) :
    ∃ op caller, op.asks = true ∧ p = stage (.remote op caller) ∧ q = answered op caller err := by
  cases p with
  | stage s =>
    cases s with
    | remote op caller =>
      obtain ⟨hasks, h⟩ := Option.ite_none_right_eq_some.mp h
      cases h
      exact ⟨op, caller, hasks, rfl, rfl⟩
    | _ => cases h
  | _ => cases h

theorem starting_of_answer (h : p.answer err = some q) : Starting x p := by
  obtain ⟨op, caller, _, rfl, _⟩ := answered_spec h
  trivial

theorem ready (x : Shared κ Conn) (hstale : p.fresh = false) (hdone : p.done = false)
    (hanswer : ∀ err, p.answer err = none) :
    callOut callbacks x p ≠ none ∨ ∃ err next, advance callbacks x p err = some next := by
  cases p with
  | disconnecting | disconnected =>
    cases hcallback : callbacks.onStateChange with
    | true => simp [callOut, hcallback]
    | false => simp [advance, hcallback]
  | packetSend data =>
    left
    simp [callOut]
  | startWaits | disconnectWaits | sent | leaving => exact Or.inr ⟨none, _, rfl⟩
  | answered remote caller err => cases err <;> exact Or.inr ⟨none, _, rfl⟩
  | stage s =>
    right
    cases s with
    | idle => cases hstale
    | done => cases hdone
    | remote remote caller =>
      have hasks : remote.asks = false := by
        by_contra hnot
        have hnone := hanswer none
        simp [answer, hnot] at hnone
      exact ⟨none, by simp [advance, hasks, Stage.go]⟩
    | enter call => cases call <;> exact ⟨none, _, rfl⟩
    | _ => exact ⟨none, _, rfl⟩

end Point

/-- The client, its goroutines and the handlers that call it. -/
def client {κ Conn : Type*} (callbacks : GoCallbacks) :
    Guest (Shared κ Conn) Point Call Static (Option String) ℕ where
  fresh := Point.fresh
  done := Point.done
  claim := Point.claim
  wants := Point.wants
  spawn := Point.spawn
  handle := Point.handle
  advance := Point.advance callbacks
  callOut := Point.callOut callbacks
  answer := Point.answer
  external := Shared.write
  resting := Point.resting
  spawned := Point.spawn_spec
  handled := Point.handle_spec
  disciplined := fun h => ⟨(Point.advance_effect h).moves, (Point.advance_effect h).stale⟩
  advance_wants := fun h => ⟨(Point.advance_effect h).wants, (Point.advance_effect h).waits⟩
  wants_claim := Point.wants_claim
  called := fun h =>
    have hcalled := Point.called h
    ⟨hcalled.1, hcalled.2.1, hcalled.2.2.1, hcalled.2.2.2.1, hcalled.2.2.2.2.1⟩
  answered := by
    intro p err q h
    obtain ⟨op, caller, _, rfl, rfl⟩ := Point.answered_spec h
    exact ⟨rfl, rfl, by simp [Stage.access]⟩
  ready := fun x => Point.ready x

section Runs

variable {τ κ Conn : Type*}

/-- A static method may be called for a session that is there: nobody starts a shell, and
nobody calls JavaScript with the lock, unless for reading while no writer waits. -/
structure CallFree (s : Loop τ (Shared κ Conn) Point) : Prop where
  starting : ∀ u, ¬(s.pc u).Starting s.data
  writing : ∀ u, .callback u ∈ s.stack → (s.pc u).claim ≠ .write
  reading : ∀ u, .callback u ∈ s.stack → (s.pc u).claim = .read → s.lock.writer = none

/-- A goroutine may call `Lock`: no handler still needs the lock if this is to start a
shell, and none that a reader has called does. -/
structure LockFree (s : Loop τ (Shared κ Conn) Point) (t : τ) : Prop where
  starts : (s.pc t).Starts s.data → ∀ u, .handler u ∈ s.stack → ¬(s.pc u).Needs s.data
  within : ∀ u r, Within u r s.stack → (s.pc u).Needs s.data → (s.pc r).claim ≠ .read

/-- Handlers are called, and `Lock` is, where they may be. -/
def Careful (s : Loop τ (Shared κ Conn) Point) : Turn τ Call Static (Option String) ℕ → Prop
  | .handle _ _ => (s.data.sessions s.data.sessionID).isSome = true → CallFree s
  | .go t _ => (s.pc t).wants = some .announce → LockFree s t
  | _ => True

/-- What careful steps keep. -/
structure Calm (callbacks : GoCallbacks) (s : Loop τ (Shared κ Conn) Point) : Prop where
  valid : (client callbacks).Valid s
  starting : ∀ u, (s.pc u).Starting s.data →
    .handler u ∉ s.stack ∧ ∀ t, .handler t ∈ s.stack → ¬(s.pc t).Needs s.data
  within : ∀ t r, Within t r s.stack → (s.pc t).Needs s.data →
    (s.pc r).claim ≠ .write ∧ ((s.pc r).claim = .read → s.lock.writer = none)

variable {callbacks : GoCallbacks} {s s' : Loop τ (Shared κ Conn) Point}
  {a : Turn τ Call Static (Option String) ℕ}

theorem frame_of_effect {t u : τ} {op : ClaimOp} {x' : Shared κ Conn} {p' : Point}
    (hs : Calm callbacks s) (heffect : (s.pc t).Effect s.data op x' p') (hu : u ≠ t) :
    ((s.pc u).Starting x' → (s.pc u).Starting s.data) ∧
      ((s.pc u).Needs x' → (s.pc u).Needs s.data) := by
  rcases heffect.frame with ⟨hstarted, hconn⟩ | hwrite
  · exact ⟨(Point.starting_congr hstarted hconn).mp, (Point.needs_congr hstarted).mp⟩
  · refine ⟨fun hstarting => ?_, fun hneeds => ?_⟩
    · exact absurd (hs.valid.agrees.eq_of_writer (Point.claim_of_starting hstarting)
        (Or.inr hwrite)) hu
    · exact Point.needs_of_claim hneeds (hs.valid.agrees.ne_read hwrite u)

/-- A step that calls no handler keeps what is calm, if nobody starts a shell or needs the
lock who did not before, and nobody below a handler that needs the lock has moved. -/
theorem Calm.keep (hs : Calm callbacks s) (hvalid : (client callbacks).Valid s')
    (hhandler : ∀ u, .handler u ∈ s'.stack → .handler u ∈ s.stack)
    (hwithin : ∀ u r, Within u r s'.stack → Within u r s.stack)
    (hstarting : ∀ u, (s'.pc u).Starting s'.data → (s.pc u).Starting s.data ∨
      .handler u ∉ s.stack ∧ ∀ t, .handler t ∈ s.stack → ¬(s.pc t).Needs s.data)
    (hneeds : ∀ u, .handler u ∈ s.stack → (s'.pc u).Needs s'.data → (s.pc u).Needs s.data)
    (hclaim : ∀ r, .callback r ∈ s.stack → (s'.pc r).claim = (s.pc r).claim)
    (hwriter : ∀ u r, Within u r s.stack → (s.pc u).Needs s.data → (s.pc r).claim = .read →
      s.lock.writer = none → s'.lock.writer = none) : Calm callbacks s' := by
  refine ⟨hvalid, fun u hu => ?_, fun u r hur hu => ?_⟩
  · have hbefore : .handler u ∉ s.stack ∧ ∀ t, .handler t ∈ s.stack → ¬(s.pc t).Needs s.data :=
      (hstarting u hu).elim (hs.starting u) id
    refine ⟨fun hmem => hbefore.1 (hhandler u hmem), fun t ht htneeds => ?_⟩
    exact hbefore.2 t (hhandler t ht) (hneeds t (hhandler t ht) htneeds)
  · have hbefore := hwithin u r hur
    have hbeforeNeeds := hneeds u hbefore.mem.1 hu
    obtain ⟨hwrite, hreading⟩ := hs.within u r hbefore hbeforeNeeds
    rw [hclaim r hbefore.mem.2]
    exact ⟨hwrite, fun hread => hwriter u r hbefore hbeforeNeeds hread (hreading hread)⟩

variable [DecidableEq τ]

/-- No handler is stuck in a state that careful steps keep. -/
theorem Calm.not_stuck (hs : Calm callbacks s) : ¬(client callbacks).Stuck s := by
  rintro ⟨t, hmem, ⟨err, q, hwaits⟩ | ⟨⟨op, hwants, hnone⟩, u, hholds, hu⟩⟩
  · exact (hs.starting t (Point.starting_of_answer hwaits)).1 hmem
  · have hneeds := Point.needs_of_wants (x := s.data) hwants
    rcases hu with ⟨err, q, hwaits⟩ | hwithin
    · exact (hs.starting u (Point.starting_of_answer hwaits)).2 t hmem hneeds
    · obtain ⟨hwrite, hreading⟩ := hs.within t u hwithin hneeds
      have hwriter := hreading (hholds.resolve_right hwrite)
      by_cases hop : op = .acquire
      · -- Who has announced itself is the writer.
        subst hop
        have hannounced := Point.wants_claim hwants
        have hself := (hs.valid.agrees.writer t).mpr (Or.inl hannounced)
        simp [hwriter] at hself
      · exact ((WriterFirst.perform_eq_none hop).mp hnone).2 hwriter

theorem Calm.handle (hs : Calm callbacks s) {t : τ} {c : Static}
    (hvalid : (client callbacks).Valid
      { s with stack := .handler t :: s.stack, pc := Function.update s.pc t (.handle s.data c) })
    (hfresh : (s.pc t).fresh = true)
    (hcareful : (s.data.sessions s.data.sessionID).isSome = true → CallFree s) :
    Calm callbacks
      { s with stack := .handler t :: s.stack, pc := Function.update s.pc t (.handle s.data c) } := by
  have hclaim := (Point.handle_spec s.data c).1
  have hstale : ∀ u, u = t → .handler u ∉ s.stack ∧ .callback u ∉ s.stack := by
    rintro u rfl
    refine ⟨fun hmem => ?_, fun hmem => ?_⟩
    · exact absurd hfresh (ne_true_of_eq_false (hs.valid.handlers u hmem))
    · exact absurd hfresh (ne_true_of_eq_false (hs.valid.callbacks u hmem).1)
  have hself : Function.update s.pc t (.handle s.data c) t = .handle s.data c :=
    Function.update_self ..
  have hother : ∀ u, u ≠ t → Function.update s.pc t (.handle s.data c) u = s.pc u :=
    fun u hu => Function.update_of_ne hu ..
  -- An unknown session needs no lock.
  have hfree : (Point.handle s.data c).Needs s.data → CallFree s := by
    intro hneeds
    apply hcareful
    by_contra hnot
    rw [Point.handle, if_neg hnot] at hneeds
    exact hneeds
  refine ⟨hvalid, fun u hu => ?_, fun u r hur hu => ?_⟩
  · have hut : u ≠ t := by
      rintro rfl
      dsimp only at hu
      rw [hself] at hu
      exact Point.not_starting_of_claim hclaim hu
    dsimp only at hu ⊢
    rw [hother u hut] at hu
    obtain ⟨hhandler, hall⟩ := hs.starting u hu
    refine ⟨?_, fun v hv hneeds => ?_⟩
    · simp [hut, hhandler]
    · by_cases hvt : v = t
      · subst hvt
        rw [hself] at hneeds
        exact (hfree hneeds).starting u hu
      · rw [hother v hvt] at hneeds
        exact hall v ((List.mem_cons.mp hv).resolve_left (by simpa using hvt)) hneeds
  · dsimp only at hu ⊢
    rcases hur with ⟨hf, hr⟩ | hur
    · cases hf
      have hrt : r ≠ t := fun heq => (hstale r heq).2 hr
      rw [hself] at hu
      rw [hother r hrt]
      exact ⟨(hfree hu).writing r hr, (hfree hu).reading r hr⟩
    · obtain ⟨hmemU, hmemR⟩ := Within.mem hur
      rw [hother u fun heq => (hstale u heq).1 hmemU] at hu
      rw [hother r fun heq => (hstale r heq).2 hmemR]
      exact hs.within u r hur hu

theorem write_keeps {x x' : Shared κ Conn} {i : ℕ} (h : x.write i = some x') :
    x'.shellStarted = x.shellStarted ∧ x'.conn = x.conn := by
  unfold Shared.write at h
  split at h
  next =>
    cases h
    exact ⟨rfl, rfl⟩
  next =>
    split at h <;> cases h <;> exact ⟨rfl, rfl⟩
  next => cases h

theorem Calm.go (hs : Calm callbacks s) {t : τ} {op : ClaimOp} {x' : Shared κ Conn} {p' : Point}
    {lock : WriterFirst τ} (hfree : Guest.Free s t) (heffect : (s.pc t).Effect s.data op x' p')
    (hlock : s.lock.perform t op = some lock)
    (hcareful : (s.pc t).wants = some .announce → LockFree s t)
    (hvalid : (client callbacks).Valid
      ⟨s.stack, lock, x', Function.update s.pc t p'⟩) :
    Calm callbacks ⟨s.stack, lock, x', Function.update s.pc t p'⟩ := by
  have hself : Function.update s.pc t p' t = p' := Function.update_self ..
  have hother : ∀ u, u ≠ t → Function.update s.pc t p' u = s.pc u :=
    fun u hu => Function.update_of_ne hu ..
  refine hs.keep hvalid (fun u hu => hu) (fun u r hur => hur) (fun u hu => ?_) (fun u _ hu => ?_)
    (fun r hr => ?_) (fun u r hur hu hread hnone => ?_)
  · dsimp only at hu
    by_cases hut : u = t
    · subst hut
      rw [hself] at hu
      rcases heffect.starting hu with hbefore | hstarts
      · exact Or.inl hbefore
      · have hall := (hcareful (Point.wants_of_starts hstarts)).starts hstarts
        refine Or.inr ⟨fun hmem => hall u hmem ?_, hall⟩
        exact Point.needs_of_wants (Point.wants_of_starts hstarts)
    · rw [hother u hut] at hu
      exact Or.inl ((frame_of_effect hs heffect hut).1 hu)
  · dsimp only at hu
    by_cases hut : u = t
    · subst hut
      rw [hself] at hu
      exact heffect.needs hu
    · rw [hother u hut] at hu
      exact (frame_of_effect hs heffect hut).2 hu
  · have hrt : r ≠ t := by
      rintro rfl
      exact hfree.2 hr
    dsimp only
    rw [hother r hrt]
  · -- Only an announcement makes a writer, and none is made over the head of this reader.
    cases op with
    | none | unlock | rUnlock =>
      cases hlock
      first | exact hnone | rfl
    | announce =>
      have hwants : (s.pc t).wants = some .announce := heffect.wants
      exact absurd hread ((hcareful hwants).within u r hur hu)
    | acquire | rLock =>
      obtain ⟨_, heq⟩ := Option.ite_none_right_eq_some.mp hlock
      cases heq
      first | exact hnone | rfl

theorem Calm.move (hs : Calm callbacks s) {t : τ} {q : Point} {stack : List (Frame τ)}
    (hvalid : (client callbacks).Valid ⟨stack, s.lock, s.data, Function.update s.pc t q⟩)
    (hhandler : ∀ u, .handler u ∈ stack → .handler u ∈ s.stack)
    (hwithin : ∀ u r, Within u r stack → Within u r s.stack)
    (hstarting : q.Starting s.data → (s.pc t).Starting s.data)
    (hneeds : .handler t ∈ s.stack → q.Needs s.data → (s.pc t).Needs s.data)
    (hclaim : .callback t ∈ s.stack → q.claim = (s.pc t).claim) :
    Calm callbacks ⟨stack, s.lock, s.data, Function.update s.pc t q⟩ := by
  refine hs.keep hvalid hhandler hwithin (fun u hu => Or.inl ?_) (fun u hmem hu => ?_)
    (fun r hr => ?_) (fun u r _ _ _ hnone => hnone)
  · by_cases hut : u = t
    · subst hut
      simp only [Function.update_self] at hu
      exact hstarting hu
    · simpa only [Function.update_of_ne hut] using hu
  · by_cases hut : u = t
    · subst hut
      simp only [Function.update_self] at hu
      exact hneeds hmem hu
    · simpa only [Function.update_of_ne hut] using hu
  · by_cases hrt : r = t
    · subst hrt
      simp only [Function.update_self]
      exact hclaim hr
    · simp only [Function.update_of_ne hrt]

omit [DecidableEq τ] in
theorem Calm.restack (hs : Calm callbacks s) {stack : List (Frame τ)}
    (hvalid : (client callbacks).Valid { s with stack := stack })
    (hhandler : ∀ u, .handler u ∈ stack → .handler u ∈ s.stack)
    (hwithin : ∀ u r, Within u r stack → Within u r s.stack) :
    Calm callbacks { s with stack := stack } :=
  hs.keep hvalid hhandler hwithin (fun _ hu => Or.inl hu) (fun _ _ hu => hu) (fun _ _ => rfl)
    (fun _ _ _ _ _ hnone => hnone)

theorem Calm.step (hs : Calm callbacks s) (hcareful : Careful s a)
    (h : (client callbacks).machine.step s a = some s') : Calm callbacks s' := by
  have hstep := Guest.step_cases h
  have hvalid := hs.valid.step hstep
  cases hstep with
  | spawn t c hfresh =>
    obtain ⟨hclaim, _⟩ := Point.spawn_spec c
    refine hs.move hvalid (fun u hu => hu) (fun u r hur => hur) (fun hstarting => ?_)
      (fun hmem => ?_) (fun hmem => ?_)
    · exact absurd hstarting (Point.not_starting_of_claim hclaim)
    · exact absurd hfresh (ne_true_of_eq_false (hs.valid.handlers t hmem))
    · exact absurd hfresh (ne_true_of_eq_false (hs.valid.callbacks t hmem).1)
  | handle t c hhost hfresh => exact hs.handle hvalid hfresh hcareful
  | go t err hfree hadvance hlock =>
    exact hs.go hfree (Point.advance_effect hadvance) hlock hcareful hvalid
  | callOut t hfree hcall =>
    obtain ⟨hclaim, _, _, _, _, hneeds, hstarting⟩ := Point.called hcall
    exact hs.move hvalid (fun u hu => (List.mem_cons.mp hu).resolve_left (by simp))
      (fun u r hur => hur.resolve_left (by simp)) hstarting (fun _ => hneeds) (fun _ => hclaim)
  | answer t err hstack hanswer =>
    refine hs.move hvalid (fun u hu => hu) (fun u r hur => hur)
      (fun _ => Point.starting_of_answer hanswer) (fun hmem => ?_) (fun hmem => ?_)
    · simp [hstack] at hmem
    · simp [hstack] at hmem
  | external i hwrite =>
    obtain ⟨hstarted, hconn⟩ := write_keeps hwrite
    exact hs.keep hvalid (fun u hu => hu) (fun u r hur => hur)
      (fun u hu => Or.inl ((Point.starting_congr hstarted hconn).mp hu))
      (fun u _ hu => (Point.needs_congr hstarted).mp hu) (fun r _ => rfl)
      (fun u r _ _ _ hnone => hnone)
  | guest | host =>
    exact hs.restack hvalid (fun u hu => (List.mem_cons.mp hu).resolve_left (by simp))
      (fun u r hur => hur.resolve_left (by simp))
  | leave f below hstack hdone =>
    refine hs.restack hvalid (fun u hu => ?_) (fun u r hur => ?_)
    · rw [hstack]
      exact List.mem_cons_of_mem _ hu
    · rw [hstack]
      exact Or.inr hur

/-- Behind `Connect`, with no call yet. -/
def connected (sessionID : String) (conn : Conn) (sessions : String → Option κ) (this : κ) :
    Loop τ (Shared κ Conn) Point :=
  Guest.start (.connected sessionID conn sessions this) (.stage .idle)

omit [DecidableEq τ] in
theorem connected_calm (sessionID : String) (conn : Conn) (sessions : String → Option κ)
    (this : κ) :
    Calm callbacks (connected sessionID conn sessions this : Loop τ (Shared κ Conn) Point) where
  valid := Guest.start_valid _ rfl
  starting := fun _ hu => hu.elim
  within := fun _ _ hwithin => hwithin.elim

/-- A handler that is stuck in a run is stuck in everything that may follow. In the real
program little does: once no goroutine can run, Go's runtime ends it with a deadlock error. -/
theorem handler_stuck_forever {sessionID : String} {conn : Conn} {sessions : String → Option κ}
    {this : κ} {labels later : List (Turn τ Call Static (Option String) ℕ)}
    (h : (client callbacks).machine.run (connected sessionID conn sessions this) labels = some s)
    (hstuck : (client callbacks).Stuck s)
    (hlater : (client callbacks).machine.run s later = some s') :
    (client callbacks).Stuck s' := by
  have hvalid := Guest.Valid.run labels _ s (connected_calm sessionID conn sessions this).valid h
  exact Guest.Stuck.run later s s' hvalid hstuck hlater

/-- An innermost handler in a run that is not stuck goes on, or a goroutine does that it
waits for. -/
theorem handler_goes_on {sessionID : String} {conn : Conn} {sessions : String → Option κ}
    {this : κ} {labels : List (Turn τ Call Static (Option String) ℕ)} {t : τ}
    {below : List (Frame τ)}
    (h : (client callbacks).machine.run (connected sessionID conn sessions this) labels = some s)
    (hstuck : ¬(client callbacks).Stuck s) (hstack : s.stack = .handler t :: below)
    (hdone : (s.pc t).done = false) :
    ∃ u, (u = t ∨ u ∈ s.lock.readers ∨ s.lock.writer = some u) ∧ (client callbacks).CanGo s u := by
  have hvalid := Guest.Valid.run labels _ s (connected_calm sessionID conn sessions this).valid h
  exact Guest.handler_progress hvalid hstuck hstack hdone

/-- In a run whose handlers are called where they may be, and so is `Lock`, no handler is
ever stuck. -/
theorem handlers_not_stuck (callbacks : GoCallbacks) (sessionID : String) (conn : Conn)
    (sessions : String → Option κ) (this : κ)
    (labels : List (Turn τ Call Static (Option String) ℕ))
    (h : (client callbacks).machine.Admits Careful (connected sessionID conn sessions this)
      labels) :
    (client callbacks).machine.Always (fun s => ¬(client callbacks).Stuck s)
      (connected sessionID conn sessions this) labels :=
  (client callbacks).machine.always_of_admits (fun _ hs => hs.not_stuck)
    (fun _ _ _ hs hcareful h => hs.step hcareful h) labels _ (connected_calm ..) h

/-- `SSHClient.disconnect` with `onStateChange`, which calls `SSHClient.send` at the end. -/
def disconnectAlone : List (Turn Bool Call Static (Option String) ℕ) :=
  [.handle true .disconnect, .callOut true, .leave, .go true none, .go true none, .go true none,
    .go true none, .go true none, .callOut true, .handle false (.send []), .leave, .leave,
    .go true none, .leave]

theorem handlers_not_stuck_disconnectAlone :
    (client ⟨false, true, true⟩).machine.Always (fun s => ¬(client ⟨false, true, true⟩).Stuck s)
      (connected "ssh-1" () (fun _ => none) () : Loop Bool (Shared Unit Unit) Point)
      disconnectAlone := by
  apply handlers_not_stuck ⟨false, true, true⟩ "ssh-1" () (fun _ => none) () disconnectAlone
  have hfree : CallFree
      (connected "ssh-1" () (fun _ => none) () : Loop Bool (Shared Unit Unit) Point) :=
    ⟨fun _ h => h, fun _ h => (nomatch h), fun _ h => (nomatch h)⟩
  refine (Machine.admits_cons _ rfl).mpr ⟨fun _ => hfree, ?_⟩
  iterate 2 refine (Machine.admits_cons _ rfl).mpr ⟨trivial, ?_⟩
  refine (Machine.admits_cons _ rfl).mpr ⟨fun _ => ⟨fun h => h.elim, fun _ _ h => ?_⟩, ?_⟩
  · rcases h with ⟨_, h⟩ | h
    · cases h
    · exact h.elim
  iterate 4 refine (Machine.admits_cons _ rfl).mpr ⟨fun h => absurd h (by decide), ?_⟩
  refine (Machine.admits_cons _ rfl).mpr ⟨trivial, ?_⟩
  -- The session is not registered any more.
  refine (Machine.admits_cons _ rfl).mpr ⟨fun h => absurd h (by decide), ?_⟩
  iterate 2 refine (Machine.admits_cons _ rfl).mpr ⟨trivial, ?_⟩
  refine (Machine.admits_cons _ rfl).mpr ⟨fun h => absurd h (by decide), ?_⟩
  refine (Machine.admits_cons _ rfl).mpr ⟨trivial, trivial⟩

/-- The first `SSHClient.send` of a session. -/
def firstSend : List (Turn Bool Call Static (Option String) ℕ) :=
  [.handle true (.send []), .go true none, .go true none, .go true none, .go true none,
    .go true none]

/-- `SSHClient.disconnect` while a goroutine waits for the peer in `StartShell`. -/
def disconnectWhileStarting : List (Turn Bool Call Static (Option String) ℕ) :=
  [.spawn false (.send []), .go false none, .go false none, .go false none, .go false none,
    .go false none, .handle true .disconnect, .go true none]

/-- `SSHClient.disconnect` in `onPacketSend`, behind a shell that has been started. -/
def disconnectInPacketSend : List (Turn Bool Call Static (Option String) ℕ) :=
  [.spawn false (.send []), .go false none, .go false none, .go false none, .go false none,
    .go false none, .answer false none, .go false none, .go false none, .go false none,
    .go false none, .answer false none, .go false none, .answer false none, .go false none,
    .go false none, .go false none, .callOut false, .handle true .disconnect, .go true none,
    .go true none]

/-- A handler is stuck that waits for the peer itself, one that waits for a goroutine which
does, and one that was called by a goroutine it waits for. -/
theorem handlers_stuck :
    ¬(client ⟨false, true, false⟩).machine.Always
        (fun s => ¬(client ⟨false, true, false⟩).Stuck s)
        (connected "ssh-1" () (fun _ => none) () : Loop Bool (Shared Unit Unit) Point)
        firstSend ∧
      ¬(client ⟨false, true, false⟩).machine.Always
        (fun s => ¬(client ⟨false, true, false⟩).Stuck s)
        (connected "ssh-1" () (fun _ => none) () : Loop Bool (Shared Unit Unit) Point)
        disconnectWhileStarting ∧
      ¬(client ⟨false, true, false⟩).machine.Always
        (fun s => ¬(client ⟨false, true, false⟩).Stuck s)
        (connected "ssh-1" () (fun _ => none) () : Loop Bool (Shared Unit Unit) Point)
        disconnectInPacketSend := by
  refine ⟨fun hall => ?_, fun hall => ?_, fun hall => ?_⟩
  · apply Machine.always_run _ firstSend _ _ hall rfl
    exact ⟨true, List.mem_cons_self, Or.inl ⟨none, _, rfl⟩⟩
  · apply Machine.always_run _ disconnectWhileStarting _ _ hall rfl
    exact ⟨true, List.mem_cons_self,
      Or.inr ⟨⟨.announce, rfl, rfl⟩, false, Or.inr rfl, Or.inl ⟨none, _, rfl⟩⟩⟩
  · apply Machine.always_run _ disconnectInPacketSend _ _ hall rfl
    exact ⟨true, List.mem_cons_self,
      Or.inr ⟨⟨.acquire, rfl, rfl⟩, false, Or.inl rfl, Or.inr (Or.inl ⟨rfl, List.mem_cons_self⟩)⟩⟩

end Runs

end SshClientWasm.Ssh
