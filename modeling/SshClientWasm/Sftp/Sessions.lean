import SshClientWasm.Library.Hex
import SshClientWasm.Library.Machine

/-!
# How long an SFTP session lives

Any number of goroutines call any number of clients, and take one critical section at a
time. An SSH connection is known by its number. `Connect` writes the field `conn` without
the lock of its client, and `NewSFTPSession` gives that lock back before it registers.
-/
namespace SshClientWasm.Sftp.Sessions

open Library

/-- `SFTPSession`, with the connection it was opened on. -/
structure SFTPSession where
  sessionID : String
  sshClient : ℕ
  deriving DecidableEq, Repr

/-- `generateSFTPSessionID` with six random bytes, or without any where `randomHex` fails. -/
def generateSFTPSessionID (random : Option { b : Bytes // b.length = 6 }) : String :=
  "sftp-" ++ random.elim "" fun b => hexEncode b.val

inductive Call (κ : Type*)
  | connect (c : κ)
  | newSFTPSession (c : κ)
  | close (session : SFTPSession)
  | disconnect (c : κ)

/-- What a call returns when it succeeds. -/
inductive Value
  | sessionID (id : String)
  | session (session : SFTPSession)
  | unit
  deriving DecidableEq, Repr

/-- Where a goroutine is. -/
inductive Stage (κ : Type*)
  | idle
  | connect (c : κ)
  | register (c : κ)
  | read (c : κ)
  | newClient (conn : ℕ)
  | publish (conn : ℕ)
  | delete (session : SFTPSession)
  | closeClient
  | disconnect (c : κ)
  | unregister (c : κ)
  | done (result : Except String Value)

/-- A call, or the next step of one: with the error of what it does outside of the two
registries, or with the random bytes of a session id. -/
inductive Action (κ : Type*)
  | call (c : Call κ)
  | go (err : Option String)
  | publish (random : Option { b : Bytes // b.length = 6 })

/-- The field `conn` of every client, whether a `Disconnect` holds its lock, the two
registries, and who made each connection. -/
structure Clients (κ τ : Type*) where
  conn : κ → Option ℕ
  locked : κ → Bool
  sessions : String → Option κ
  sftpSessions : String → Option SFTPSession
  made : List κ
  stage : τ → Stage κ

/-- The stage in which a call begins. -/
def Call.begin {κ : Type*} : Call κ → Stage κ
  | connect c => .connect c
  | newSFTPSession c => .read c
  | close session => .delete session
  | disconnect c => .disconnect c

namespace Clients

variable {κ τ : Type*}

/-- Nobody has connected yet. -/
def start : Clients κ τ where
  conn := fun _ => none
  locked := fun _ => false
  sessions := fun _ => none
  sftpSessions := fun _ => none
  made := []
  stage := fun _ => .idle

/-- `GetSFTPSession`. -/
def getSFTPSession (s : Clients κ τ) (sessionID : String) : Option SFTPSession :=
  s.sftpSessions sessionID

variable [DecidableEq κ] [DecidableEq τ]

def goto (s : Clients κ τ) (t : τ) (stage : Stage κ) : Clients κ τ :=
  { s with stage := Function.update s.stage t stage }

/-- `NewClientConn` has succeeded: the client refers to a new connection. -/
def connected (s : Clients κ τ) (c : κ) : Clients κ τ :=
  { s with conn := Function.update s.conn c (some s.made.length), made := s.made ++ [c] }

/-- `Disconnect` under the lock of its client. -/
def cleared (s : Clients κ τ) (c : κ) : Clients κ τ :=
  { s with conn := Function.update s.conn c none, locked := Function.update s.locked c true }

def setSession (s : Clients κ τ) (sessionID : String) (c : Option κ) : Clients κ τ :=
  { s with sessions := Function.update s.sessions sessionID c }

def setSFTPSession (s : Clients κ τ) (sessionID : String) (session : Option SFTPSession) :
    Clients κ τ :=
  { s with sftpSessions := Function.update s.sftpSessions sessionID session }

def unlock (s : Clients κ τ) (c : κ) : Clients κ τ :=
  { s with locked := Function.update s.locked c false }

/-- The next step of a goroutine, with the error of the operation it waits for. -/
def go (idOf : κ → String) (s : Clients κ τ) (t : τ) (err : Option String) :
    Option (Clients κ τ) :=
  match s.stage t with
  | .connect c =>
    some (match err with
      | some err => s.goto t (.done (.error err))
      | none => (s.connected c).goto t (.register c))
  | .register c =>
    some ((s.setSession (idOf c) (some c)).goto t (.done (.ok (.sessionID (idOf c)))))
  | .read c =>
    if s.locked c then none
    else some (match s.conn c with
      | none => s.goto t (.done (.error "ssh not connected"))
      | some conn => s.goto t (.newClient conn))
  | .newClient conn =>
    some (match err with
      | some err => s.goto t (.done (.error ("open sftp subsystem: " ++ err)))
      | none => s.goto t (.publish conn))
  | .delete session => some ((s.setSFTPSession session.sessionID none).goto t .closeClient)
  | .closeClient =>
    some (s.goto t (.done (match err with
      | some err => .error err
      | none => .ok .unit)))
  | .disconnect c => if s.locked c then none else some ((s.cleared c).goto t (.unregister c))
  | .unregister c =>
    some (((s.setSession (idOf c) none).unlock c).goto t (.done (.ok .unit)))
  | .idle | .publish _ | .done _ => none

/-- The registration at the end of `NewSFTPSession`. -/
def publish (s : Clients κ τ) (t : τ) (random : Option { b : Bytes // b.length = 6 }) :
    Option (Clients κ τ) :=
  match s.stage t with
  | .publish conn =>
    let session : SFTPSession := ⟨generateSFTPSessionID random, conn⟩
    some ((s.setSFTPSession session.sessionID (some session)).goto t
      (.done (.ok (.session session))))
  | _ => none

/-- A goroutine begins a call when it is not in one. -/
def call (s : Clients κ τ) (t : τ) (c : Call κ) : Option (Clients κ τ) :=
  match s.stage t with
  | .idle | .done _ => some (s.goto t c.begin)
  | _ => none

/-- `Connect`, `NewSFTPSession`, `Close` and `Disconnect`, one step of one goroutine at a time. -/
def machine (idOf : κ → String) : Machine (Clients κ τ) (τ × Action κ) where
  step s a :=
    match a.2 with
    | .call c => s.call a.1 c
    | .go err => s.go idOf a.1 err
    | .publish random => s.publish a.1 random

/-- Client `c` made connection `n`, and refers to it still. -/
def Connected (s : Clients κ τ) (c : κ) (n : ℕ) : Prop :=
  s.made[n]? = some c ∧ s.conn c = some n

/-- Every registered session belongs to a client that is connected: its `conn` is what
the session was opened on. -/
def Bounded (s : Clients κ τ) : Prop :=
  ∀ id session, s.getSFTPSession id = some session → ∃ c, s.Connected c session.sshClient

/-- No session is registered on the connection of client `c`. -/
def Free (s : Clients κ τ) (c : κ) : Prop :=
  ∀ id session, s.getSFTPSession id = some session → s.conn c ≠ some session.sshClient

/-- A client drops its connection only when no session is registered on it, and a session
is registered only while its client still has the connection. -/
def Orderly (s : Clients κ τ) (a : τ × Action κ) : Prop :=
  match s.stage a.1, a.2 with
  | .connect c, .go none | .disconnect c, .go _ => s.Free c
  | .publish conn, .publish _ => ∃ c, s.Connected c conn
  | _, _ => True

/-- A client refers to a connection that it made. -/
def Owned (s : Clients κ τ) : Prop := ∀ c n, s.conn c = some n → s.made[n]? = some c

/-- What a step does to the connections and the registry of SFTP sessions, and what it takes
to be orderly. -/
inductive Change (s : Clients κ τ) (a : τ × Action κ) (s' : Clients κ τ) : Prop
  | quiet (hconn : s'.conn = s.conn) (hmade : s'.made = s.made)
      (hsftp : s'.sftpSessions = s.sftpSessions) (horderly : s.Orderly a)
  | connected (c : κ) (hconn : s'.conn = Function.update s.conn c (some s.made.length))
      (hmade : s'.made = s.made ++ [c]) (hsftp : s'.sftpSessions = s.sftpSessions)
      (horderly : s.Orderly a ↔ s.Free c)
  | cleared (c : κ) (hconn : s'.conn = Function.update s.conn c none) (hmade : s'.made = s.made)
      (hsftp : s'.sftpSessions = s.sftpSessions) (horderly : s.Orderly a ↔ s.Free c)
  | published (session : SFTPSession) (hconn : s'.conn = s.conn) (hmade : s'.made = s.made)
      (hsftp : s'.sftpSessions =
        Function.update s.sftpSessions session.sessionID (some session))
      (horderly : s.Orderly a ↔ ∃ c, s.Connected c session.sshClient)
  | deleted (id : String) (hconn : s'.conn = s.conn) (hmade : s'.made = s.made)
      (hsftp : s'.sftpSessions = Function.update s.sftpSessions id none)
      (horderly : s.Orderly a)

variable {idOf : κ → String} {s s' : Clients κ τ} {a : τ × Action κ} {t : τ}

theorem go_change {err : Option String} (h : s.go idOf t err = some s') :
    Change s (t, .go err) s' := by
  unfold go at h
  cases hstage : s.stage t with
  | idle => simp [hstage] at h
  | connect c =>
    cases err with
    | some err =>
      simp only [hstage, Option.some.injEq] at h
      subst h
      exact .quiet rfl rfl rfl (by simp [Orderly, hstage])
    | none =>
      simp only [hstage, Option.some.injEq] at h
      subst h
      exact .connected c rfl rfl rfl (by simp [Orderly, hstage])
  | register c =>
    simp only [hstage, Option.some.injEq] at h
    subst h
    exact .quiet rfl rfl rfl (by simp [Orderly, hstage])
  | read c =>
    simp only [hstage, Option.ite_none_left_eq_some, Option.some.injEq] at h
    obtain ⟨_, rfl⟩ := h
    cases hconn : s.conn c with
    | none => exact .quiet rfl rfl rfl (by simp [Orderly, hstage])
    | some conn => exact .quiet rfl rfl rfl (by simp [Orderly, hstage])
  | newClient conn =>
    cases err with
    | some err =>
      simp only [hstage, Option.some.injEq] at h
      subst h
      exact .quiet rfl rfl rfl (by simp [Orderly, hstage])
    | none =>
      simp only [hstage, Option.some.injEq] at h
      subst h
      exact .quiet rfl rfl rfl (by simp [Orderly, hstage])
  | publish conn => simp [hstage] at h
  | delete session =>
    simp only [hstage, Option.some.injEq] at h
    subst h
    exact .deleted session.sessionID rfl rfl rfl (by simp [Orderly, hstage])
  | closeClient =>
    simp only [hstage, Option.some.injEq] at h
    subst h
    exact .quiet rfl rfl rfl (by simp [Orderly, hstage])
  | disconnect c =>
    simp only [hstage, Option.ite_none_left_eq_some, Option.some.injEq] at h
    obtain ⟨_, rfl⟩ := h
    exact .cleared c rfl rfl rfl (by simp [Orderly, hstage])
  | unregister c =>
    simp only [hstage, Option.some.injEq] at h
    subst h
    exact .quiet rfl rfl rfl (by simp [Orderly, hstage])
  | done result => simp [hstage] at h

theorem step_change (h : (machine idOf).step s a = some s') : Change s a s' := by
  obtain ⟨t, action⟩ := a
  cases action with
  | call c =>
    have hcall : s.call t c = some s' := h
    unfold call at hcall
    cases hstage : s.stage t with
    | idle | done result =>
      simp only [hstage, Option.some.injEq] at hcall
      subst hcall
      exact .quiet rfl rfl rfl (by simp [Orderly])
    | _ => simp [hstage] at hcall
  | go err => exact go_change h
  | publish random =>
    have hpublish : s.publish t random = some s' := h
    unfold publish at hpublish
    cases hstage : s.stage t with
    | publish conn =>
      simp only [hstage, Option.some.injEq] at hpublish
      subst hpublish
      exact .published ⟨generateSFTPSessionID random, conn⟩ rfl rfl rfl (by simp [Orderly, hstage])
    | _ => simp [hstage] at hpublish

theorem owned_step (howned : s.Owned) (h : (machine idOf).step s a = some s') : s'.Owned := by
  intro c n hconn
  cases step_change h with
  | quiet hconn' hmade _ _ | published _ hconn' hmade _ _ | deleted _ hconn' hmade _ _ =>
    rw [hconn'] at hconn
    rw [hmade]
    exact howned c n hconn
  | connected c' hconn' hmade _ _ =>
    rw [hconn'] at hconn
    rw [hmade]
    by_cases hc : c = c'
    · subst hc
      rw [Function.update_self] at hconn
      cases hconn
      exact List.getElem?_concat_length
    · rw [Function.update_of_ne hc] at hconn
      have hold := howned c n hconn
      rw [List.getElem?_append_left (List.getElem?_eq_some_iff.mp hold).1]
      exact hold
  | cleared c' hconn' hmade _ _ =>
    rw [hconn'] at hconn
    rw [hmade]
    by_cases hc : c = c'
    · subst hc
      rw [Function.update_self] at hconn
      cases hconn
    · rw [Function.update_of_ne hc] at hconn
      exact howned c n hconn

omit [DecidableEq τ] in
/-- A client that drops its connection leaves the other clients connected. Its own sessions
are the only ones that lose their client. -/
theorem bounded_iff_free (howned : s.Owned) (hbounded : s.Bounded) {c : κ} {conn : Option ℕ}
    (hconn : s'.conn = Function.update s.conn c conn)
    (hnew : ∀ n, conn = some n → s.made.length ≤ n)
    (hmade : ∃ more, s'.made = s.made ++ more) (hsftp : s'.sftpSessions = s.sftpSessions) :
    s'.Bounded ↔ s.Free c := by
  have hlt : ∀ d n, s.Connected d n → n < s.made.length :=
    fun d n hd => (List.getElem?_eq_some_iff.mp hd.1).1
  constructor
  · intro hbounded' id session hget hsame
    have hget' : s'.getSFTPSession id = some session := by
      rw [getSFTPSession, hsftp]
      exact hget
    obtain ⟨d, hmade', hd⟩ := hbounded' id session hget'
    have hold : s.Connected c session.sshClient := ⟨howned c _ hsame, hsame⟩
    have hdc : d = c := by
      obtain ⟨more, hmore⟩ := hmade
      rw [hmore, List.getElem?_append_left (hlt c _ hold), hold.1] at hmade'
      exact (Option.some.inj hmade').symm
    rw [hconn, hdc, Function.update_self] at hd
    exact absurd (hlt c _ hold) (Nat.not_lt.mpr (hnew _ hd))
  · intro hfree id session hget
    rw [getSFTPSession, hsftp] at hget
    obtain ⟨d, hd⟩ := hbounded id session hget
    have hdc : d ≠ c := by
      rintro rfl
      exact hfree id session hget hd.2
    refine ⟨d, ?_, ?_⟩
    · obtain ⟨more, hmore⟩ := hmade
      rw [hmore, List.getElem?_append_left (hlt d _ hd)]
      exact hd.1
    · rw [hconn, Function.update_of_ne hdc]
      exact hd.2

/-- One step keeps every session within the life of its client exactly if it is orderly. -/
theorem bounded_step_iff (howned : s.Owned) (hbounded : s.Bounded)
    (h : (machine idOf).step s a = some s') : s'.Bounded ↔ s.Orderly a := by
  cases step_change h with
  | quiet hconn hmade hsftp horderly =>
    refine iff_of_true (fun id session hget => ?_) horderly
    rw [getSFTPSession, hsftp] at hget
    simp only [Connected, hconn, hmade]
    exact hbounded id session hget
  | connected c hconn hmade hsftp horderly =>
    rw [horderly]
    apply bounded_iff_free howned hbounded hconn _ ⟨[c], hmade⟩ hsftp
    intro n hn
    exact (Option.some.inj hn).le
  | cleared c hconn hmade hsftp horderly =>
    rw [horderly]
    apply bounded_iff_free howned hbounded hconn _ ⟨[], by rw [hmade, List.append_nil]⟩ hsftp
    intro n hn
    cases hn
  | published session hconn hmade hsftp horderly =>
    rw [horderly]
    have hconnected : ∀ c n, s'.Connected c n ↔ s.Connected c n := by
      intro c n
      rw [Connected, Connected, hconn, hmade]
    simp only [Bounded, getSFTPSession, hsftp, hconnected]
    constructor
    · intro hbounded'
      exact hbounded' session.sessionID session (Function.update_self ..)
    · intro hclient id other hget
      by_cases hid : id = session.sessionID
      · rw [hid, Function.update_self] at hget
        cases hget
        exact hclient
      · rw [Function.update_of_ne hid] at hget
        exact hbounded id other hget
  | deleted id' hconn hmade hsftp horderly =>
    refine iff_of_true (fun id session hget => ?_) horderly
    simp only [Connected, hconn, hmade]
    rw [getSFTPSession, hsftp] at hget
    by_cases hid : id = id'
    · rw [hid, Function.update_self] at hget
      cases hget
    · rw [Function.update_of_ne hid] at hget
      exact hbounded id session hget

omit [DecidableEq κ] [DecidableEq τ] in
theorem Bounded.released (h : s.Bounded) {c : κ} (hconn : s.conn c = none) {id : String}
    {session : SFTPSession} (hget : s.getSFTPSession id = some session) :
    s.made[session.sshClient]? ≠ some c := by
  intro hmade
  obtain ⟨d, hmade', hd⟩ := h id session hget
  cases hmade.symm.trans hmade'
  cases hconn.symm.trans hd

/-- In every run of the four calls, no registered session outlives the connection of its
client exactly if every step is orderly. -/
theorem always_bounded_iff (idOf : κ → String) (labels : List (τ × Action κ)) (s : Clients κ τ)
    (hrun : (machine idOf).run start labels = some s) :
    (machine idOf).Always Bounded start labels ↔ (machine idOf).Admits Orderly start labels := by
  apply (machine idOf).always_iff_admits (I := Owned) ?_ ?_ labels start s ?_ ?_ hrun
  · exact fun s a t howned hstep => owned_step howned hstep
  · exact fun s a t howned hbounded hstep => bounded_step_iff howned hbounded hstep
  · intro c n hconn
    cases hconn
  · intro id session hget
    cases hget

/-- A goroutine connects its client and opens a session on it. -/
def opening : List (Unit × Action Unit) :=
  [((), .call (.connect ())), ((), .go none), ((), .go none),
    ((), .call (.newSFTPSession ())), ((), .go none), ((), .go none),
    ((), .publish (some ⟨[1, 2, 3, 4, 5, 6], rfl⟩))]

/-- The goroutine disconnects the client. -/
def disconnecting : List (Unit × Action Unit) :=
  [((), .call (.disconnect ())), ((), .go none), ((), .go none)]

def opened : SFTPSession := ⟨"sftp-010203040506", 0⟩

/-- The session is closed before its client disconnects. -/
theorem always_bounded_iff_closed :
    (machine fun _ : Unit => "ssh-00").Always Bounded start
      (opening ++ [((), .call (.close opened)), ((), .go none), ((), .go none)] ++
        disconnecting) := by
  refine (always_bounded_iff (fun _ => "ssh-00") _ _ rfl).mpr ?_
  simp only [opening, disconnecting, List.cons_append, List.nil_append]
  refine (Machine.admits_cons _ rfl).mpr ⟨trivial, ?_⟩
  refine (Machine.admits_cons _ rfl).mpr ⟨fun _ _ hget => (nomatch hget), ?_⟩
  refine (Machine.admits_cons _ rfl).mpr ⟨trivial, ?_⟩
  refine (Machine.admits_cons _ rfl).mpr ⟨trivial, ?_⟩
  refine (Machine.admits_cons _ rfl).mpr ⟨trivial, ?_⟩
  refine (Machine.admits_cons _ rfl).mpr ⟨trivial, ?_⟩
  refine (Machine.admits_cons _ rfl).mpr ⟨⟨(), rfl, rfl⟩, ?_⟩
  refine (Machine.admits_cons _ rfl).mpr ⟨trivial, ?_⟩
  refine (Machine.admits_cons _ rfl).mpr ⟨trivial, ?_⟩
  refine (Machine.admits_cons _ rfl).mpr ⟨trivial, ?_⟩
  refine (Machine.admits_cons _ rfl).mpr ⟨trivial, ?_⟩
  refine (Machine.admits_cons _ rfl).mpr ⟨?_, ?_⟩
  swap
  · exact (Machine.admits_cons _ rfl).mpr ⟨trivial, trivial⟩
  -- the registry is what it was before the session was opened
  intro id session hget
  have hid : generateSFTPSessionID (some ⟨[1, 2, 3, 4, 5, 6], rfl⟩) = opened.sessionID := by
    decide +kernel
  change Function.update (Function.update (fun _ => none)
    (generateSFTPSessionID (some ⟨[1, 2, 3, 4, 5, 6], rfl⟩)) _) opened.sessionID none id = _ at hget
  rw [hid, Function.update_idem, Function.update_apply, ite_self] at hget
  cases hget

/-- Without that it is found when `Disconnect` has returned. -/
theorem always_bounded_open :
    (∃ s, (machine fun _ : Unit => "ssh-00").run start (opening ++ disconnecting) = some s ∧
      s.conn () = none ∧ s.getSFTPSession opened.sessionID = some opened) ∧
    ¬ (machine fun _ : Unit => "ssh-00").Always Bounded start (opening ++ disconnecting) := by
  have hrun : ((machine fun _ : Unit => "ssh-00").run start (opening ++ disconnecting)).map
      (fun s : Clients Unit Unit => (s.conn (), s.getSFTPSession opened.sessionID)) =
        some (none, some opened) := by
    decide +kernel
  obtain ⟨s, hs, hfields⟩ := Option.map_eq_some_iff.mp hrun
  obtain ⟨hconn, hget⟩ := Prod.mk.inj hfields
  refine ⟨⟨s, hs, hconn, hget⟩, fun hall => ?_⟩
  obtain ⟨c, _, hc⟩ := (machine _).always_run _ _ s hall hs opened.sessionID opened hget
  cases hconn.symm.trans hc

end Clients
end SshClientWasm.Sftp.Sessions
