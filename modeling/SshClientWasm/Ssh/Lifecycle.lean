import SshClientWasm.Library.Bytes
import SshClientWasm.Library.Channel
import SshClientWasm.Library.Guarded

/-!
# The life of a connected client

The methods of a `Client` after `Connect`, called by any number of goroutines and
interleaved at its mutex. A remote operation under the lock is a step of its own and
may fail. The goroutine that writes to the shell reads the field `stdin` without the
lock.
-/
namespace SshClientWasm.Ssh

open Library

/-- The goroutine that `StartShell` starts for stdin: before it has read the field,
receiving from the channel it found there, stuck with nil, or done. -/
inductive Writer
  | starting
  | ranging
  | stuck
  | ended
  deriving DecidableEq, Repr

/-- The fields of the client and what they refer to. A session is known by its number;
`stdin` says whether the field still refers to the channel, `written` is what the
shell got, `started` counts the `StartShell`s that ran to their end. The registry of
sessions has a lock of its own. Two marks tell whether a `Disconnect` has entered its
critical section, and whether one has finished. -/
structure Shared (κ Conn : Type*) where
  sessionID : String
  conn : Option Conn
  session : Option ℕ
  stdin : Bool
  channel : Channel Bytes 100
  shellStarted : Bool
  sessions : String → Option κ
  opened : ℕ
  started : ℕ
  writers : List Writer
  written : List Bytes
  panicked : Bool
  entered : Bool
  finished : Bool

/-- A method call with its argument. -/
inductive Call
  | send (data : Bytes)
  | startShell
  | resizeTerminal
  | newSFTPSession
  | disconnect
  deriving DecidableEq, Repr

/-- The remote operations of `StartShell`. -/
inductive Remote
  | newSession
  | stdinPipe
  | stdoutPipe
  | stderrPipe
  | requestPty
  | shell
  deriving DecidableEq, Repr

namespace Remote

def next : Remote → Option Remote
  | newSession => some stdinPipe
  | stdinPipe => some stdoutPipe
  | stdoutPipe => some stderrPipe
  | stderrPipe => some requestPty
  | requestPty => some shell
  | shell => none

def failure : Remote → String
  | newSession => "failed to create session: "
  | stdinPipe => "failed to create stdin pipe: "
  | stdoutPipe => "failed to create stdout pipe: "
  | stderrPipe => "failed to create stderr pipe: "
  | requestPty => "request for pseudo terminal failed: "
  | shell => "failed to start shell: "

end Remote

/-- Where a goroutine is: at a call's first lock, or behind it, or with the result.
`StartShell` runs for a caller of its own or, with the data, for a `Send`. -/
inductive Stage
  | idle
  | enter (call : Call)
  | send (data : Bytes)
  | startLock (data : Bytes)
  | start (caller : Option Bytes)
  | remote (op : Remote) (caller : Option Bytes)
  | relock (data : Bytes) (err : Option String)
  | sendFailed (data : Bytes) (err : String)
  | select (data : Bytes)
  | resize
  | sftp
  | sftpOpen
  | closeStdin
  | clear
  | unregister
  | done (call : Call) (result : Except String Unit)

/-- A goroutine; `late` if it was called when a `Disconnect` had finished. -/
structure Goroutine where
  stage : Stage
  late : Bool

/-- A call, or the next step of one with the error of its remote operation. -/
inductive Input
  | call (c : Call)
  | go (err : Option String)
  deriving DecidableEq, Repr

namespace Shared

variable {κ Conn : Type*} (x : Shared κ Conn)

/-- Behind a `Connect` that has registered the client. -/
def connected (sessionID : String) (conn : Conn) (sessions : String → Option κ) (this : κ) :
    Shared κ Conn where
  sessionID := sessionID
  conn := some conn
  session := none
  stdin := true
  channel := .make
  shellStarted := false
  sessions := Function.update sessions sessionID (some this)
  opened := 0
  started := 0
  writers := []
  written := []
  panicked := false
  entered := false
  finished := false

/-- The field `stdin`. -/
def stdinRef : Option (Channel Bytes 100) := if x.stdin then some x.channel else none

/-- What a remote operation that succeeds leaves in the fields. -/
def remote : Remote → Shared κ Conn
  | .newSession => { x with session := some x.opened, opened := x.opened + 1 }
  | .shell =>
    { x with
      shellStarted := true
      started := x.started + 1
      writers := x.writers ++ [.starting] }
  | _ => x

/-- The `select` of `Send`. -/
def select (data : Bytes) : Shared κ Conn × Except String Unit :=
  match Channel.send x.stdinRef data with
  | .proceeds channel => ({ x with channel := channel }, .ok ())
  | .blocks => (x, .error "stdin buffer full")
  | .panics => ({ x with panicked := true }, .error "send on closed channel")

/-- The close of `Disconnect`, behind its nil check. -/
def closeStdin : Shared κ Conn :=
  if x.stdin then
    match Channel.close x.stdinRef with
    | .proceeds channel => { x with channel := channel }
    | _ => { x with panicked := true }
  else x

/-- What `Disconnect` does to the fields then. -/
def clear : Shared κ Conn :=
  { x with stdin := false, session := none, conn := none, shellStarted := false }

def unregister : Shared κ Conn :=
  { x with sessions := Function.update x.sessions x.sessionID none, finished := true }

/-- A step of a goroutine for stdin. -/
def write (i : ℕ) : Option (Shared κ Conn) :=
  match x.writers[i]? with
  | some .starting =>
    some { x with writers := x.writers.set i (if x.stdin then .ranging else .stuck) }
  | some .ranging =>
    match x.channel.recv with
    | .blocks => none
    | .ended => some { x with writers := x.writers.set i .ended }
    | .item data channel => some { x with channel := channel, written := x.written ++ [data] }
  | _ => none

end Shared

/-- Where `StartShell` returns to. -/
def returned (caller : Option Bytes) (err : Option String) : Stage :=
  match caller with
  | some data => .relock data err
  | none => .done .startShell (match err with
    | some err => .error err
    | none => .ok ())

namespace Stage

def access : Stage → Access
  | send _ | sendFailed _ _ | select _ | resize | sftp => .read
  | start _ | remote _ _ | closeStdin | clear | unregister => .write
  | idle | enter _ | startLock _ | relock _ _ | sftpOpen | done _ _ => .none

variable {κ Conn : Type*}

/-- The first lock of a call. -/
def first (x : Shared κ Conn) : Call → LockOp × Shared κ Conn × Stage
  | .send data => (.rLock, x, .send data)
  | .startShell => (.lock, x, .start none)
  | .resizeTerminal => (.rLock, x, .resize)
  | .newSFTPSession => (.rLock, x, .sftp)
  | .disconnect => (.lock, { x with entered := true }, .closeStdin)

/-- The next step of a call, with the error of a remote operation. -/
def go (x : Shared κ Conn) (stage : Stage) (err : Option String) :
    Option (LockOp × Shared κ Conn × Stage) :=
  match stage with
  | enter call => some (first x call)
  | send data =>
    some (if x.shellStarted then (.none, x, .select data) else (.rUnlock, x, .startLock data))
  | startLock data => some (.lock, x, .start (some data))
  | start caller =>
    some (if x.shellStarted then (.unlock, x, returned caller none)
      else
        match x.conn with
        | none => (.unlock, x, returned caller (some "not connected"))
        | some _ => (.none, x, .remote .newSession caller))
  | remote op caller =>
    some (match err with
      | some err => (.unlock, x, returned caller (some (op.failure ++ err)))
      | none =>
        match op.next with
        | some next => (.none, x.remote op, .remote next caller)
        | none => (.unlock, x.remote op, returned caller none))
  | relock data err =>
    some (.rLock, x, match err with
      | some err => .sendFailed data err
      | none => .select data)
  | sendFailed data err => some (.rUnlock, x, .done (.send data) (.error err))
  | select data =>
    let (x', result) := x.select data
    some (.rUnlock, x', .done (.send data) result)
  | resize =>
    some (.rUnlock, x, .done .resizeTerminal (match x.session, err with
      | none, _ => .error "no active session"
      | some _, some err => .error err
      | some _, none => .ok ()))
  | sftp =>
    some (.rUnlock, x, match x.conn with
      | none => .done .newSFTPSession (.error "ssh not connected")
      | some _ => .sftpOpen)
  | sftpOpen =>
    some (.none, x, .done .newSFTPSession (match err with
      | some err => .error ("open sftp subsystem: " ++ err)
      | none => .ok ()))
  | closeStdin => some (.none, x.closeStdin, .clear)
  | clear => some (.none, x.clear, .unregister)
  | unregister => some (.unlock, x.unregister, .done .disconnect (.ok ()))
  | idle | done _ _ => none

end Stage

variable {κ Conn : Type*}

/-- A goroutine is called once; what follows are the steps of its call. -/
def advance (x : Shared κ Conn) (p : Goroutine) (i : Input) :
    Option (LockOp × Shared κ Conn × Goroutine) :=
  match i with
  | .call c =>
    match p.stage with
    | .idle => some (.none, x, ⟨.enter c, x.finished⟩)
    | _ => none
  | .go err => (p.stage.go x err).map fun next => (next.1, next.2.1, ⟨next.2.2, p.late⟩)

variable {x x' : Shared κ Conn}

/-- What a step behind the call can do. -/
inductive Transition (x : Shared κ Conn) :
    Stage → LockOp → Shared κ Conn → Stage → Prop
  | enterSend (data) : Transition x (.enter (.send data)) .rLock x (.send data)
  | enterStartShell : Transition x (.enter .startShell) .lock x (.start none)
  | enterResizeTerminal : Transition x (.enter .resizeTerminal) .rLock x .resize
  | enterNewSFTPSession : Transition x (.enter .newSFTPSession) .rLock x .sftp
  | enterDisconnect :
      Transition x (.enter .disconnect) .lock { x with entered := true } .closeStdin
  | sendStarted (data) (h : x.shellStarted = true) :
      Transition x (.send data) .none x (.select data)
  | sendStarts (data) : Transition x (.send data) .rUnlock x (.startLock data)
  | startLock (data) : Transition x (.startLock data) .lock x (.start (some data))
  | startAgain (caller) (h : x.shellStarted = true) :
      Transition x (.start caller) .unlock x (returned caller none)
  | startGone (caller) (err) :
      Transition x (.start caller) .unlock x (returned caller (some err))
  | startRemote (caller) (h : x.shellStarted = false) (hconn : x.conn ≠ none) :
      Transition x (.start caller) .none x (.remote .newSession caller)
  | remoteFailed (op caller) (err) :
      Transition x (.remote op caller) .unlock x (returned caller (some err))
  | remoteNext (op next caller) (h : op.next = some next) :
      Transition x (.remote op caller) .none (x.remote op) (.remote next caller)
  | remoteDone (caller) :
      Transition x (.remote .shell caller) .unlock (x.remote .shell) (returned caller none)
  | relockFailed (data err) :
      Transition x (.relock data (some err)) .rLock x (.sendFailed data err)
  | relock (data) : Transition x (.relock data none) .rLock x (.select data)
  | sendFailed (data err) :
      Transition x (.sendFailed data err) .rUnlock x (.done (.send data) (.error err))
  | select (data) :
      Transition x (.select data) .rUnlock (x.select data).1 (.done (.send data) (x.select data).2)
  | resize (result) (h : x.session = none → ∃ err, result = .error err) :
      Transition x .resize .rUnlock x (.done .resizeTerminal result)
  | sftpGone (err) : Transition x .sftp .rUnlock x (.done .newSFTPSession (.error err))
  | sftp (hconn : x.conn ≠ none) : Transition x .sftp .rUnlock x .sftpOpen
  | sftpOpen (result) : Transition x .sftpOpen .none x (.done .newSFTPSession result)
  | closeStdin : Transition x .closeStdin .none x.closeStdin .clear
  | clear : Transition x .clear .none x.clear .unregister
  | unregister : Transition x .unregister .unlock x.unregister (.done .disconnect (.ok ()))

theorem Stage.go_transition {stage stage' : Stage} {err : Option String} {op : LockOp}
    (h : stage.go x err = some (op, x', stage')) : Transition x stage op x' stage' := by
  cases stage with
  | idle => cases h
  | enter call =>
    cases call <;> cases h <;> constructor
  | send data =>
    by_cases hstarted : x.shellStarted
    · simp only [Stage.go, hstarted, if_true] at h
      cases h
      exact .sendStarted data hstarted
    · simp only [Stage.go, hstarted, Bool.false_eq_true, if_false] at h
      cases h
      exact .sendStarts data
  | start caller =>
    by_cases hstarted : x.shellStarted
    · simp only [Stage.go, hstarted, if_true] at h
      cases h
      exact .startAgain caller hstarted
    · simp only [Stage.go, hstarted, Bool.false_eq_true, if_false] at h
      cases hconn : x.conn with
      | none =>
        rw [hconn] at h
        cases h
        exact .startGone caller _
      | some conn =>
        rw [hconn] at h
        cases h
        exact .startRemote caller (by simpa using hstarted) (by simp [hconn])
  | remote remote caller =>
    cases err with
    | some err =>
      cases h
      exact .remoteFailed remote caller _
    | none =>
      cases remote with
      | shell =>
        cases h
        exact .remoteDone caller
      | _ =>
        cases h
        exact .remoteNext _ _ caller rfl
  | relock data err => cases err <;> cases h <;> constructor
  | select data =>
    cases h
    exact .select data
  | resize =>
    cases h
    apply Transition.resize
    intro hsession
    exact ⟨_, by rw [hsession]⟩
  | sftp =>
    cases hconn : x.conn with
    | none =>
      simp only [Stage.go, hconn] at h
      cases h
      exact .sftpGone _
    | some conn =>
      simp only [Stage.go, hconn] at h
      cases h
      exact .sftp (by simp [hconn])
  | done call result => cases h
  | _ =>
    cases h
    constructor

theorem returned_access (caller : Option Bytes) (err : Option String) :
    (returned caller err).access = .none := by
  cases caller <;> rfl

theorem Transition.moves {stage stage' : Stage} {op : LockOp}
    (h : Transition x stage op x' stage') : op.Moves stage.access stage'.access := by
  cases h with
  | startAgain | startGone | remoteFailed | remoteDone => exact ⟨rfl, returned_access _ _⟩
  | sendStarted | startRemote | remoteNext | sftpOpen | closeStdin | clear => rfl
  | _ => exact ⟨rfl, rfl⟩

theorem advance_cases {p p' : Goroutine} {i : Input} {op : LockOp}
    (h : advance x p i = some (op, x', p')) :
    p.stage = .idle ∧ op = .none ∧ x' = x ∧ p'.late = x.finished ∧
        (∃ c, p'.stage = .enter c) ∨
      Transition x p.stage op x' p'.stage ∧ p'.late = p.late := by
  cases i with
  | call c =>
    simp only [advance] at h
    split at h
    next hstage =>
      cases h
      exact Or.inl ⟨hstage, rfl, rfl, rfl, c, rfl⟩
    next => cases h
  | go err =>
    obtain ⟨⟨op', y, stage'⟩, hgo, hnext⟩ := Option.map_eq_some_iff.mp h
    cases hnext
    exact Or.inr ⟨Stage.go_transition hgo, rfl⟩

/-- The goroutines of the client around its mutex. -/
def program : Program (Shared κ Conn) Goroutine Input ℕ where
  access p := p.stage.access
  advance := advance
  external := Shared.write
  disciplined := by
    intro x p i op x' p' h
    rcases advance_cases h with ⟨hstage, rfl, _, _, c, hc⟩ | ⟨htransition, _⟩
    · rw [hstage, hc]
      rfl
    · exact htransition.moves

end SshClientWasm.Ssh
