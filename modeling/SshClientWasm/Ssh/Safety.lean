import SshClientWasm.Ssh.Lifecycle

/-!
# Safety of the client's life

The proof outline of the client. While nobody writes, the client is alive and
registered, or gone. Only inside of `Disconnect` is it between the two, where nobody
else looks. A goroutine that was called late finds the client gone.
-/
namespace SshClientWasm.Ssh

open Library

variable {κ Conn : Type*} {id : String} {this : κ} {x x' : Shared κ Conn}

/-- The connection is up: the fields refer to what a started shell needs. -/
structure Alive (id : String) (this : κ) (x : Shared κ Conn) : Prop where
  sessionID : x.sessionID = id
  conn : x.conn ≠ none
  session : x.shellStarted = true → x.session ≠ none
  stdin : x.stdin = true
  started : x.started = if x.shellStarted then 1 else 0
  writers : x.writers.length = x.started
  registered : x.sessions id = some this
  intact : x.panicked = false
  finished : x.finished = false

/-- A `Disconnect` has cleared the fields. -/
structure Gone (id : String) (x : Shared κ Conn) : Prop where
  sessionID : x.sessionID = id
  conn : x.conn = none
  session : x.session = none
  stdin : x.stdin = false
  shellStarted : x.shellStarted = false
  started : x.started ≤ 1
  writers : x.writers.length = x.started
  intact : x.panicked = false
  entered : x.entered = true

/-- The client while nobody writes. -/
def Unlocked (id : String) (this : κ) (x : Shared κ Conn) : Prop :=
  Alive id this x ∧ x.channel.closed = false ∧ x.entered = false ∨
    Gone id x ∧ x.sessions id = none

/-- The client as the writer at a stage knows it. -/
def Held (id : String) (this : κ) (x : Shared κ Conn) : Stage → Prop
  | .start _ => Unlocked id this x
  | .remote op _ => Alive id this x ∧ x.channel.closed = false ∧ x.entered = false ∧
      x.shellStarted = false ∧ (op ≠ .newSession → x.session ≠ none)
  | .closeStdin => x.entered = true ∧
      (Alive id this x ∧ x.channel.closed = false ∨ Gone id x ∧ x.sessions id = none)
  | .clear => x.entered = true ∧ (Alive id this x ∨ Gone id x ∧ x.sessions id = none)
  | .unregister => Gone id x ∧ (x.finished = true → x.sessions id = none)
  | _ => True

/-- Where a late goroutine can be: it has failed or is about to, unless it disconnects. -/
def Stage.Late : Stage → Prop
  | .idle | .select _ | .relock _ none | .remote _ _ | .sftpOpen => False
  | .done call result => call ≠ .disconnect → ∃ err, result = .error err
  | _ => True

/-- What goes through the channel: nothing that an invariant mentions changes. -/
structure Frame (x x' : Shared κ Conn) : Prop where
  sessionID : x'.sessionID = x.sessionID
  conn : x'.conn = x.conn
  session : x'.session = x.session
  stdin : x'.stdin = x.stdin
  closed : x'.channel.closed = x.channel.closed
  shellStarted : x'.shellStarted = x.shellStarted
  sessions : x'.sessions = x.sessions
  started : x'.started = x.started
  writers : x'.writers.length = x.writers.length
  panicked : x'.panicked = x.panicked
  entered : x'.entered = x.entered
  finished : x'.finished = x.finished

theorem Frame.alive (hf : Frame x x') (h : Alive id this x) : Alive id this x' := by
  constructor
  all_goals simp only [hf.sessionID, hf.conn, hf.session, hf.stdin, hf.shellStarted, hf.sessions,
    hf.started, hf.writers, hf.panicked, hf.finished]
  exacts [h.sessionID, h.conn, h.session, h.stdin, h.started, h.writers, h.registered, h.intact, h.finished]

theorem Frame.gone (hf : Frame x x') (h : Gone id x) : Gone id x' := by
  constructor
  all_goals simp only [hf.sessionID, hf.conn, hf.session, hf.stdin, hf.shellStarted, hf.started,
    hf.writers, hf.panicked, hf.entered]
  exacts [h.sessionID, h.conn, h.session, h.stdin, h.shellStarted, h.started, h.writers, h.intact,
    h.entered]

theorem Frame.unlocked (hf : Frame x x') (h : Unlocked id this x) : Unlocked id this x' := by
  unfold Unlocked
  rw [hf.closed, hf.entered, hf.sessions]
  exact h.imp (And.imp_left hf.alive) (And.imp_left hf.gone)

theorem Frame.held (hf : Frame x x') {stage : Stage} (h : Held id this x stage) :
    Held id this x' stage := by
  cases stage with
  | start caller => exact hf.unlocked h
  | remote op caller =>
    simp only [Held, hf.closed, hf.entered, hf.shellStarted, hf.session]
    exact h.imp_left hf.alive
  | closeStdin =>
    simp only [Held, hf.closed, hf.entered, hf.sessions]
    exact h.imp_right (Or.imp (And.imp_left hf.alive) (And.imp_left hf.gone))
  | clear =>
    simp only [Held, hf.entered, hf.sessions]
    exact h.imp_right (Or.imp hf.alive (And.imp_left hf.gone))
  | unregister =>
    simp only [Held, hf.finished, hf.sessions]
    exact h.imp_left hf.gone
  | _ => trivial

theorem write_frame {i : ℕ} (h : x.write i = some x') : Frame x x' := by
  unfold Shared.write at h
  split at h
  · cases h
    constructor <;> simp
  · split at h
    · cases h
    · cases h
      constructor <;> simp
    · next hrecv =>
      cases h
      have hclosed := Channel.recv_closed hrecv
      constructor <;> simp [hclosed]
  · cases h

theorem Alive.stdinRef (h : Alive id this x) : x.stdinRef = some x.channel := by
  rw [Shared.stdinRef, h.stdin, if_pos rfl]

theorem Gone.stdinRef (h : Gone id x) : x.stdinRef = none := by
  rw [Shared.stdinRef, h.stdin]
  rfl

theorem Unlocked.select_frame (h : Unlocked id this x) (data : Bytes) :
    Frame x (x.select data).1 := by
  have hopen : ∀ c, x.stdinRef = some c → c = x.channel ∧ c.closed = false := by
    intro c hc
    rcases h with ⟨halive, hclosed, _⟩ | ⟨hgone, _⟩
    · rw [halive.stdinRef] at hc
      cases hc
      exact ⟨rfl, hclosed⟩
    · rw [hgone.stdinRef] at hc
      cases hc
  unfold Shared.select
  split
  · next channel hsend =>
    obtain ⟨c, hc, hclosed⟩ := Channel.send_proceeds hsend
    rw [(hopen c hc).1] at hclosed
    constructor <;> simp [hclosed]
  · constructor <;> rfl
  · next hpanics => exact absurd hpanics (Channel.send_ne_panics fun c hc => (hopen c hc).2)

theorem Alive.closeStdin (h : Alive id this x) (hopen : x.channel.closed = false) :
    Alive id this x.closeStdin := by
  have hcloses : x.closeStdin = { x with channel := { x.channel with closed := true } } := by
    rw [Shared.closeStdin, if_pos h.stdin, h.stdinRef]
    simp [Channel.close, hopen]
  rw [hcloses]
  exact { h with }

theorem Gone.closeStdin (h : Gone id x) : x.closeStdin = x := by
  rw [Shared.closeStdin, h.stdin]
  rfl

theorem closeStdin_entered : x.closeStdin.entered = x.entered := by
  unfold Shared.closeStdin
  split
  · split <;> rfl
  · rfl

theorem Alive.clear (h : Alive id this x) (hentered : x.entered = true) : Gone id x.clear where
  sessionID := h.sessionID
  conn := rfl
  session := rfl
  stdin := rfl
  shellStarted := rfl
  started := by
    have hstarted := h.started
    split at hstarted <;> exact hstarted.trans_le (by omega)
  writers := h.writers
  intact := h.intact
  entered := hentered

theorem Gone.clear (h : Gone id x) : Gone id x.clear :=
  { h with conn := rfl, session := rfl, stdin := rfl, shellStarted := rfl }

theorem Held.remote {op next : Remote} {caller : Option Bytes}
    (h : Held id this x (.remote op caller)) (hnext : op.next = some next) :
    Held id this (x.remote op) (.remote next caller) := by
  obtain ⟨halive, hclosed, hentered, hstarted, hsession⟩ := h
  cases op with
  | newSession =>
    refine ⟨{ halive with session := ?_ }, hclosed, hentered, hstarted, ?_⟩
    · simp [Shared.remote]
    · simp [Shared.remote]
  | shell => cases hnext
  | _ => exact ⟨halive, hclosed, hentered, hstarted, fun _ => hsession (by simp)⟩

theorem Held.shell {caller : Option Bytes} (h : Held id this x (.remote .shell caller)) :
    Unlocked id this (x.remote .shell) := by
  obtain ⟨halive, hclosed, hentered, hstarted, hsession⟩ := h
  have hcount := halive.started
  rw [hstarted] at hcount
  left
  refine ⟨{ halive with
    session := fun _ => hsession (by simp)
    started := ?_
    writers := ?_ }, hclosed, hentered⟩
  · simpa [Shared.remote] using hcount
  · simp [Shared.remote, halive.writers]

theorem Gone.unregister (h : Gone id x) : Unlocked id this x.unregister := by
  right
  refine ⟨{ h with }, ?_⟩
  rw [Shared.unregister, h.sessionID]
  exact Function.update_self ..

/-- What a goroutine at a stage knows about the client when it works on it. -/
def Seen (id : String) (this : κ) (x : Shared κ Conn) (stage : Stage) : Prop :=
  if stage.access = .write then Held id this x stage else Unlocked id this x

theorem seen_returned {caller : Option Bytes} {err : Option String} :
    Seen id this x (returned caller err) ↔ Unlocked id this x := by
  rw [Seen, returned_access]
  simp

/-- Each step of a goroutine at the client leads from what it knows to what it then knows. -/
theorem Transition.seen {stage stage' : Stage} {op : LockOp} (h : Transition x stage op x' stage')
    (hinside : stage.access ≠ .none ∨ op ≠ .none) (hseen : Seen id this x stage) :
    Seen id this x' stage' := by
  cases h with
  | enterDisconnect =>
    rcases hseen with ⟨halive, hclosed, _⟩ | ⟨hgone, hsessions⟩
    · exact ⟨rfl, Or.inl ⟨{ halive with }, hclosed⟩⟩
    · exact ⟨rfl, Or.inr ⟨{ hgone with entered := rfl }, hsessions⟩⟩
  | startAgain | startGone => exact seen_returned.mpr hseen
  | startRemote caller hstarted hconn =>
    rcases hseen with ⟨halive, hclosed, hentered⟩ | ⟨hgone, _⟩
    · exact ⟨halive, hclosed, hentered, hstarted, fun hne => absurd rfl hne⟩
    · exact absurd hgone.conn hconn
  | remoteFailed =>
    obtain ⟨halive, hclosed, hentered, _⟩ := hseen
    exact seen_returned.mpr (Or.inl ⟨halive, hclosed, hentered⟩)
  | remoteNext op next caller hnext =>
    have hheld : Held id this x (.remote op caller) := hseen
    exact hheld.remote hnext
  | remoteDone caller =>
    have hheld : Held id this x (.remote .shell caller) := hseen
    exact seen_returned.mpr hheld.shell
  | select data => exact (Unlocked.select_frame hseen data).unlocked hseen
  | closeStdin =>
    obtain ⟨hentered, ⟨halive, hclosed⟩ | ⟨hgone, hsessions⟩⟩ := hseen
    · exact ⟨closeStdin_entered.trans hentered, Or.inl (halive.closeStdin hclosed)⟩
    · have hgoes : Held id this x.closeStdin .clear := by
        rw [hgone.closeStdin]
        exact ⟨hentered, Or.inr ⟨hgone, hsessions⟩⟩
      exact hgoes
  | clear =>
    obtain ⟨hentered, halive | ⟨hgone, hsessions⟩⟩ := hseen
    · refine ⟨halive.clear hentered, ?_⟩
      intro hfinished
      have hnot : x.finished = true := hfinished
      rw [halive.finished] at hnot
      cases hnot
    · exact ⟨hgone.clear, fun _ => hsessions⟩
  | unregister => exact hseen.1.unregister
  | sftpOpen => simp [Stage.access] at hinside
  | _ => exact hseen

theorem Transition.late {stage stage' : Stage} {op : LockOp} (h : Transition x stage op x' stage')
    (hseen : stage.access ≠ .none ∨ op ≠ .none → Seen id this x stage)
    (hfinished : x.finished = true) (hlate : stage.Late) : stage'.Late := by
  have hgone : Unlocked id this x → Gone id x := by
    rintro (⟨halive, _⟩ | ⟨hgone, _⟩)
    · rw [halive.finished] at hfinished
      cases hfinished
    · exact hgone
  cases h with
  | sendStarted data hstarted =>
    have hx := hgone (hseen (by simp [Stage.access]))
    rw [hx.shellStarted] at hstarted
    cases hstarted
  | startAgain caller hstarted =>
    have hx := hgone (hseen (by simp [Stage.access]))
    rw [hx.shellStarted] at hstarted
    cases hstarted
  | startGone caller err =>
    cases caller with
    | none => exact fun _ => ⟨err, rfl⟩
    | some data => trivial
  | startRemote caller _ hconn => exact absurd (hgone (hseen (by simp [Stage.access]))).conn hconn
  | sendFailed data err => exact fun _ => ⟨err, rfl⟩
  | resize result hresult => exact fun _ => hresult (hgone (hseen (by simp [Stage.access]))).session
  | sftpGone err => exact fun _ => ⟨_, rfl⟩
  | sftp hconn => exact absurd (hgone (hseen (by simp [Stage.access]))).conn hconn
  | unregister => exact fun hne => absurd rfl hne
  | remoteFailed | remoteNext | remoteDone | relock | select | sftpOpen => cases hlate
  | _ => trivial

theorem Transition.outside {stage stage' : Stage} {op : LockOp}
    (h : Transition x stage op x' stage') (hout : ¬(stage.access ≠ .none ∨ op ≠ .none)) :
    x' = x := by
  cases h with
  | enterDisconnect | remoteNext | remoteDone | select | closeStdin | clear | unregister =>
    simp [Stage.access] at hout
  | _ => rfl

theorem Transition.finished {stage stage' : Stage} {op : LockOp}
    (h : Transition x stage op x' stage') (hfinished : x.finished = true) :
    x'.finished = true := by
  cases h with
  | remoteNext op => cases op <;> exact hfinished
  | select data =>
    unfold Shared.select
    split <;> exact hfinished
  | closeStdin =>
    unfold Shared.closeStdin
    split
    · split <;> exact hfinished
    · exact hfinished
  | unregister => rfl
  | _ => exact hfinished

/-- The outline of the client: once a `Disconnect` has finished that stays so, and a
goroutine that is late is where the client's absence leads. -/
def outline (id : String) (this : κ) : Outline (Shared κ Conn) Goroutine where
  unlocked := Unlocked id this
  held p x := Held id this x p.stage
  own x p := p.late = true → x.finished = true ∧ p.stage.Late
  rely x x' := x.finished = true → x'.finished = true

theorem outline_checked (id : String) (this : κ) :
    (program : Program (Shared κ Conn) Goroutine Input ℕ).Checked (outline id this) where
  inside := by
    intro x p i op x' p' h hinside hsees
    rcases advance_cases h with ⟨hidle, rfl, _⟩ | ⟨htransition, _⟩
    · simp [Program.Inside, program, hidle, Stage.access] at hinside
    · exact htransition.seen hinside hsees
  outside := by
    intro x p i op x' p' h hinside
    rcases advance_cases h with ⟨_, _, rfl, _⟩ | ⟨htransition, _⟩
    · rfl
    · exact htransition.outside hinside
  external := by
    intro x i x' h
    have hframe := write_frame h
    exact ⟨hframe.unlocked, fun p => hframe.held⟩
  rely := by
    intro x p i op x' p' h _
    rcases advance_cases h with ⟨_, _, rfl, _⟩ | ⟨htransition, _⟩
    · exact fun hfinished => hfinished
    · exact htransition.finished
  external_rely := by
    intro x i x' h hfinished
    exact (write_frame h).finished.trans hfinished
  stable := fun hrely hown hlate => ⟨hrely (hown hlate).1, (hown hlate).2⟩
  own := by
    intro x p i op x' p' h hsees hown hlate
    rcases advance_cases h with ⟨_, _, rfl, hmark, c, hc⟩ | ⟨htransition, hmark⟩
    · rw [hmark] at hlate
      rw [hc]
      exact ⟨hlate, trivial⟩
    · rw [hmark] at hlate
      obtain ⟨hfinished, hstage⟩ := hown hlate
      exact ⟨htransition.finished hfinished, htransition.late hsees hfinished hstage⟩

/-- What holds of the client at every moment, also inside of `Disconnect`. -/
structure Safe (id : String) (this : κ) (x : Shared κ Conn) : Prop where
  /-- Nobody has sent on a closed channel, or closed a closed or nil one. -/
  intact : x.panicked = false
  shell : x.shellStarted = true → x.conn ≠ none ∧ x.session ≠ none ∧ x.stdin = true
  started : x.started ≤ 1
  writers : x.writers.length ≤ 1
  registered : x.entered = false → x.sessions id = some this
  disconnected : x.finished = true → x.sessions id = none ∧ x.conn = none ∧ x.session = none ∧
    x.stdin = false ∧ x.shellStarted = false

theorem Alive.safe (h : Alive id this x) : Safe id this x where
  intact := h.intact
  shell := fun hstarted => ⟨h.conn, h.session hstarted, h.stdin⟩
  started := by
    have hstarted := h.started
    split at hstarted <;> omega
  writers := by
    have hstarted := h.started
    have hwriters := h.writers
    split at hstarted <;> omega
  registered := fun _ => h.registered
  disconnected := by
    intro hfinished
    rw [h.finished] at hfinished
    cases hfinished

theorem Gone.safe (h : Gone id x) (hsessions : x.finished = true → x.sessions id = none) :
    Safe id this x where
  intact := h.intact
  shell := by
    intro hstarted
    rw [h.shellStarted] at hstarted
    cases hstarted
  started := h.started
  writers := h.writers.trans_le h.started
  registered := by
    intro hentered
    rw [h.entered] at hentered
    cases hentered
  disconnected := fun hfinished => ⟨hsessions hfinished, h.conn, h.session, h.stdin, h.shellStarted⟩

theorem Unlocked.safe (h : Unlocked id this x) : Safe id this x := by
  rcases h with ⟨halive, _⟩ | ⟨hgone, hsessions⟩
  · exact halive.safe
  · exact hgone.safe fun _ => hsessions

theorem Held.safe {stage : Stage} (h : Held id this x stage) (hwrite : stage.access = .write) :
    Safe id this x := by
  cases stage with
  | start caller => exact Unlocked.safe h
  | remote op caller => exact h.1.safe
  | closeStdin =>
    obtain ⟨_, ⟨halive, _⟩ | ⟨hgone, hsessions⟩⟩ := h
    · exact halive.safe
    · exact hgone.safe fun _ => hsessions
  | clear =>
    obtain ⟨_, halive | ⟨hgone, hsessions⟩⟩ := h
    · exact halive.safe
    · exact hgone.safe fun _ => hsessions
  | unregister => exact h.1.safe h.2
  | _ => cases hwrite

/-- The outline holds of a connected client after every run. -/
theorem connected_holds {τ : Type*} [DecidableEq τ] {conn : Conn} {sessions : String → Option κ}
    {labels : List (τ × Input ⊕ ℕ)} {s : Guarded τ (Shared κ Conn) Goroutine}
    (hrun : program.machine.run
      (Program.start (Shared.connected id conn sessions this) ⟨.idle, false⟩) labels = some s) :
    program.Holds (outline id this) s := by
  have hstart : Alive id this (Shared.connected id conn sessions this) :=
    { sessionID := rfl
      conn := Option.some_ne_none _
      session := by simp [Shared.connected]
      stdin := rfl
      started := rfl
      writers := rfl
      registered := Function.update_self ..
      intact := rfl
      finished := rfl }
  exact (outline_checked id this).run labels _ s
    (Program.start_holds rfl (Or.inl ⟨hstart, rfl, rfl⟩) (by simp [outline])) hrun

/-- In every interleaving of any number of calls on a connected client, with remote
operations that fail or succeed, the client is safe at every moment; and a call other
than `Disconnect` that begins when a `Disconnect` has finished ends with an error. -/
theorem lifecycle_safe {τ : Type*} [DecidableEq τ] (id : String) (conn : Conn)
    (sessions : String → Option κ) (this : κ) (labels : List (τ × Input ⊕ ℕ))
    (s : Guarded τ (Shared κ Conn) Goroutine)
    (hrun : program.machine.run
      (Program.start (Shared.connected id conn sessions this) ⟨.idle, false⟩) labels = some s) :
    Safe id this s.shared ∧
      ∀ t call result, (s.pc t).late = true → (s.pc t).stage = .done call result →
        call ≠ .disconnect → ∃ err, result = .error err := by
  have hholds := connected_holds hrun
  constructor
  · rcases hholds.data with hunlocked | ⟨t, hwrite, hheld⟩
    · exact Unlocked.safe hunlocked
    · exact Held.safe hheld hwrite
  · intro t call result hlate hdone hcall
    have hstage := (hholds.own t hlate).2
    rw [hdone] at hstage
    exact hstage hcall

/-- A `Send` has started the shell and waits for its lock again while a `Disconnect`
runs; another one comes too late. -/
def racing : List (ℕ × Input ⊕ ℕ) :=
  let go (t n : ℕ) : List (ℕ × Input ⊕ ℕ) := List.replicate n (.inl (t, .go none))
  [.inl (0, .call (.send [1])), .inl (1, .call .disconnect)] ++ go 0 10 ++ go 1 4 ++
    [.inr 0, .inl (2, .call (.send [2]))] ++ go 2 6 ++ go 0 2

theorem lifecycle_safe_racing :
    ∃ s, (program : Program (Shared Unit Unit) Goroutine Input ℕ).machine.run
        (Program.start (Shared.connected "ssh-00" () (fun _ => none) ()) ⟨.idle, false⟩)
        racing = some s ∧
      Safe "ssh-00" () s.shared ∧
      ∀ t call result, (s.pc t).late = true → (s.pc t).stage = .done call result →
        call ≠ .disconnect → ∃ err, result = .error err := by
  obtain ⟨s, hrun⟩ := Option.isSome_iff_exists.mp (by decide +kernel :
    ((program : Program (Shared Unit Unit) Goroutine Input ℕ).machine.run
      (Program.start (Shared.connected "ssh-00" () (fun _ => none) ()) ⟨.idle, false⟩)
      racing).isSome = true)
  exact ⟨s, hrun, lifecycle_safe "ssh-00" () (fun _ => none) () racing s hrun⟩

end SshClientWasm.Ssh
