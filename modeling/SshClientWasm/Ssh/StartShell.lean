import SshClientWasm.Ssh.Agreement

/-!
# A `StartShell` that fails

`StartShell` stores the session as soon as it has one, and none of its later exits closes it
or takes it back. The next `Send` finds no shell and starts all over.
-/
namespace SshClientWasm.Ssh.StartShell

open Library

/-- How each remote operation fails, if it does. -/
abbrev Failures := Remote → Option String

/-- The remote operations in the order of `StartShell`. -/
def operations : List Remote :=
  [.newSession, .stdinPipe, .stdoutPipe, .stderrPipe, .requestPty, .shell]

/-- The first operation that fails, with its error. -/
def firstFailure (fails : Failures) : Option (Remote × String) :=
  operations.findSome? fun op => (fails op).map (op, ·)

/-- `StartShell` on its own, or called by a `Send` with its data. -/
structure Attempt where
  caller : Option Bytes
  fails : Failures

def Attempt.call (a : Attempt) : Call :=
  match a.caller with
  | some data => .send data
  | none => .startShell

variable {κ Conn : Type*}

/-- The call, run to its end. -/
def Attempt.run (a : Attempt) (x : Shared κ Conn) : Option (Shared κ Conn × Except String Unit) :=
  Stage.complete (fun op => some (a.fails op)) 16 x (.enter a.call)

/-- The `StartShell` of the call fails: there is no connection, or a remote operation fails. -/
def Attempt.Fails (a : Attempt) (x : Shared κ Conn) : Prop :=
  x.shellStarted = false ∧ (x.conn = none ∨ firstFailure a.fails ≠ none)

instance (a : Attempt) (x : Shared κ Conn) : Decidable (a.Fails x) :=
  inferInstanceAs (Decidable (_ ∧ (_ ∨ _)))

/-- Any number of calls that fail in `StartShell`, one after the other. -/
def attempts : Machine (Shared κ Conn) Attempt where
  step x a := if a.Fails x then (a.run x).map Prod.fst else none

/-- The call goes to the peer, and gets a session from it. -/
def Attempt.Opens (a : Attempt) (x : Shared κ Conn) : Prop :=
  x.conn ≠ none ∧ a.fails .newSession = none

instance (a : Attempt) (x : Shared κ Conn) : Decidable (a.Opens x) :=
  inferInstanceAs (Decidable (_ ∧ _))

variable {x x' : Shared κ Conn} {a : Attempt}

theorem run_gone (hstarted : x.shellStarted = false) (hconn : x.conn = none) :
    a.run x = some (x, .error "not connected") := by
  obtain ⟨caller, fails⟩ := a
  cases caller with
  | none => simp [Attempt.run, Attempt.call, Stage.complete, Stage.go, Stage.first, hstarted, hconn,
      returned]
  | some data => simp [Attempt.run, Attempt.call, Stage.complete, Stage.go, Stage.first, hstarted,
      hconn, returned]

theorem run_start (hstarted : x.shellStarted = false) (hconn : x.conn ≠ none) :
    ∃ n, a.run x = Stage.complete (fun op => some (a.fails op)) (n + 12) x
      (.remote .newSession a.caller) := by
  obtain ⟨conn, hconn⟩ := Option.ne_none_iff_exists'.mp hconn
  obtain ⟨caller, fails⟩ := a
  cases caller with
  | none =>
    exact ⟨2, by simp [Attempt.run, Attempt.call, Stage.complete, Stage.go, Stage.first, hstarted,
      hconn]⟩
  | some data =>
    exact ⟨0, by simp [Attempt.run, Attempt.call, Stage.complete, Stage.go, Stage.first, hstarted,
      hconn]⟩

section Operations

variable {caller : Option Bytes} {fails : Failures} {op next : Remote} {err : String}

theorem complete_returned (n : ℕ) (x : Shared κ Conn) (caller : Option Bytes) (err : String) :
    Stage.complete (fun op => some (fails op)) (n + 3) x (returned caller (some err)) =
      some (x, .error err) := by
  cases caller with
  | none => rfl
  | some data => rfl

theorem complete_remote_failed (n : ℕ) (x : Shared κ Conn) (h : fails op = some err) :
    Stage.complete (fun op => some (fails op)) (n + 4) x (.remote op caller) =
      some (x, .error (op.failure ++ err)) := by
  rw [Stage.complete, h, Option.bind_some]
  exact complete_returned n x caller (op.failure ++ err)

theorem complete_remote_next (n : ℕ) (x : Shared κ Conn) (h : fails op = none)
    (hnext : op.next = some next) :
    Stage.complete (fun op => some (fails op)) (n + 1) x (.remote op caller) =
      Stage.complete (fun op => some (fails op)) n (x.remote op) (.remote next caller) := by
  rw [Stage.complete, h, Option.bind_some]
  simp only [Stage.go, hnext, Option.bind_some]

theorem remote_of_next (x : Shared κ Conn) (hsession : op ≠ .newSession)
    (hnext : op.next = some next) : x.remote op = x := by
  cases op with
  | newSession => exact absurd rfl hsession
  | shell => cases hnext
  | _ => rfl

theorem complete_operations (n : ℕ) (x : Shared κ Conn) {failed : Remote} :
    ∀ (rest : List Remote) (op : Remote), (op :: rest).IsChain (fun a b => a.next = some b) →
      .newSession ∉ op :: rest →
      ((op :: rest).findSome? fun op => (fails op).map (op, ·)) = some (failed, err) →
      Stage.complete (fun op => some (fails op)) (n + rest.length + 4) x (.remote op caller) =
        some (x, .error (failed.failure ++ err)) := by
  intro rest
  induction rest with
  | nil =>
    intro op _ _ hfails
    cases hfail : fails op with
    | some e =>
      rw [List.findSome?_singleton, hfail] at hfails
      cases hfails
      exact complete_remote_failed n x hfail
    | none =>
      rw [List.findSome?_singleton, hfail] at hfails
      cases hfails
  | cons next rest ih =>
    intro op hchain hnew hfails
    obtain ⟨hnext, hchain⟩ := List.isChain_cons_cons.mp hchain
    have hop : .newSession ≠ op := List.ne_of_not_mem_cons hnew
    rw [List.findSome?_cons] at hfails
    cases hfail : fails op with
    | some e =>
      rw [hfail] at hfails
      cases hfails
      exact complete_remote_failed (n + (rest.length + 1)) x hfail
    | none =>
      rw [hfail] at hfails
      have hfuel : n + (next :: rest).length + 4 = n + rest.length + 4 + 1 := by
        rw [List.length_cons]
        omega
      rw [hfuel, complete_remote_next _ x hfail hnext, remote_of_next x hop.symm hnext]
      exact ih next hchain (List.not_mem_of_not_mem_cons hnew) hfails

end Operations

/-- The first operation that fails ends the call, with its text. Behind `NewSession` the
client has the new session, and keeps it. -/
theorem run_failed {op : Remote} {err : String} (hstarted : x.shellStarted = false)
    (hconn : x.conn ≠ none) (hfails : firstFailure a.fails = some (op, err)) :
    a.run x = some (if a.fails .newSession = none then x.remote .newSession else x,
      .error (op.failure ++ err)) := by
  obtain ⟨n, hrun⟩ := run_start (a := a) hstarted hconn
  rw [firstFailure, operations, List.findSome?_cons] at hfails
  cases hsession : a.fails .newSession with
  | some e =>
    rw [hsession] at hfails
    cases hfails
    rw [hrun]
    exact complete_remote_failed (n + 8) x hsession
  | none =>
    rw [hsession] at hfails
    rw [hrun, complete_remote_next (n + 11) x hsession rfl]
    exact complete_operations (n + 3) _ [.stdoutPipe, .stderrPipe, .requestPty, .shell] .stdinPipe
      (by simp [Remote.next]) (by decide) hfails

theorem step_eq (h : attempts.step x a = some x') :
    x' = if a.Opens x then x.remote .newSession else x := by
  simp only [attempts] at h
  split_ifs at h with hfails
  obtain ⟨hstarted, hfails⟩ := hfails
  obtain ⟨p, hp, rfl⟩ := Option.map_eq_some_iff.mp h
  by_cases hconn : x.conn = none
  · rw [run_gone hstarted hconn] at hp
    cases hp
    rw [if_neg fun hopens => hopens.1 hconn]
  · have hfirst : firstFailure a.fails ≠ none := hfails.resolve_left hconn
    obtain ⟨⟨op, err⟩, hfirst⟩ := Option.ne_none_iff_exists'.mp hfirst
    rw [run_failed hstarted hconn hfirst] at hp
    cases hp
    simp only [Attempt.Opens, hconn, ne_eq, not_false_eq_true, true_and]

theorem step_conn (h : attempts.step x a = some x') : x'.conn = x.conn := by
  rw [step_eq h]
  split_ifs <;> rfl

theorem step_shellStarted (h : attempts.step x a = some x') :
    x'.shellStarted = x.shellStarted := by
  rw [step_eq h]
  split_ifs <;> rfl

section Runs

variable {labels : List Attempt}

theorem opens_congr {y : Shared κ Conn} (h : y.conn = x.conn) : a.Opens y ↔ a.Opens x := by
  rw [Attempt.Opens, h, Attempt.Opens]

theorem run_shellStarted (h : attempts.run x labels = some x') :
    x'.shellStarted = x.shellStarted :=
  attempts.run_invariant (I := (·.shellStarted = x.shellStarted))
    (fun _ _ _ hs hstep => (step_shellStarted hstep).trans hs) labels x x' rfl h

/-- Every session that the calls get stays open: nothing here closes one. -/
theorem run_opened (h : attempts.run x labels = some x') :
    x'.opened = x.opened + labels.countP (·.Opens x) := by
  induction labels generalizing x with
  | nil =>
    cases h
    simp
  | cons a labels ih =>
    obtain ⟨y, hstep, hrest⟩ := (attempts.run_cons_eq_some).mp h
    have hcongr : labels.countP (·.Opens y) = labels.countP (·.Opens x) := by
      simp only [opens_congr (step_conn hstep)]
    rw [ih hrest, hcongr, List.countP_cons, step_eq hstep]
    by_cases hopens : a.Opens x
    · simp only [hopens, if_true, decide_true, Shared.remote]
      omega
    · simp only [hopens, if_false, decide_false, Bool.false_eq_true]
      omega

theorem run_unopened (h : attempts.run x labels = some x') (hall : ∀ a ∈ labels, ¬ a.Opens x) :
    x' = x := by
  induction labels with
  | nil =>
    cases h
    rfl
  | cons a labels ih =>
    obtain ⟨y, hstep, hrest⟩ := (attempts.run_cons_eq_some).mp h
    obtain ⟨hopens, hall⟩ := List.forall_mem_cons.mp hall
    rw [step_eq hstep, if_neg hopens] at hrest
    exact ih hrest hall

theorem run_session (h : attempts.run x labels = some x') :
    x'.session = none ↔ x.session = none ∧ ∀ a ∈ labels, ¬ a.Opens x := by
  refine attempts.run_iff_forall (I := (·.conn = x.conn)) (P := (·.session = none))
    (fun _ _ _ hs hstep => (step_conn hstep).trans hs) ?_ labels x x' rfl h
  intro y a y' hconn hstep
  rw [step_eq hstep, ← opens_congr hconn]
  by_cases hopens : a.Opens y
  · simp [hopens, Shared.remote]
  · simp [hopens]

end Runs

/-- What `ResizeTerminal` returns, called by itself. -/
def resizeTerminal (x : Shared κ Conn) : Option (Except String Unit) :=
  (Stage.complete (fun _ => some none) 16 x (.enter .resizeTerminal)).map Prod.snd

theorem resizeTerminal_iff :
    resizeTerminal x = some (.error "no active session") ↔ x.session = none := by
  cases hsession : x.session with
  | none => simp [resizeTerminal, Stage.complete, Stage.go, Stage.first, hsession]
  | some session => simp [resizeTerminal, Stage.complete, Stage.go, Stage.first, hsession]

/-- The fields, and with them the number of open sessions, are as they were, and
`ResizeTerminal` reports what it reported. -/
structure Restored (x x' : Shared κ Conn) : Prop where
  fields : x' = x
  resize : resizeTerminal x' = resizeTerminal x

/-- Calls that fail restore the client exactly if each of them finds no connection or fails at
`NewSession`. Each of the others leaves one more session open, and takes the answer of
`ResizeTerminal` away. -/
theorem run_restored_iff {labels : List Attempt} (h : attempts.run x labels = some x') :
    (Restored x x' ↔ ∀ a ∈ labels, x.conn = none ∨ a.fails .newSession ≠ none) ∧
      x'.shellStarted = x.shellStarted ∧
      x'.opened = x.opened +
        labels.countP (fun a => x.conn ≠ none ∧ a.fails .newSession = none) ∧
      (resizeTerminal x = some (.error "no active session") →
        (resizeTerminal x' = some (.error "no active session") ↔
          ∀ a ∈ labels, x.conn = none ∨ a.fails .newSession ≠ none)) := by
  have hguard : (∀ a ∈ labels, x.conn = none ∨ a.fails .newSession ≠ none) ↔
      ∀ a ∈ labels, ¬ a.Opens x := by
    simp only [Attempt.Opens, not_and_or, not_not, ne_eq]
  have hopened := run_opened h
  rw [hguard]
  refine ⟨⟨?_, ?_⟩, run_shellStarted h, hopened, ?_⟩
  · -- a session more is a difference in the fields
    rintro ⟨rfl, _⟩ a ha hopens
    have hcount : 0 < labels.countP (·.Opens x') :=
      List.countP_pos_iff.mpr ⟨a, ha, by simpa using hopens⟩
    omega
  · intro hall
    have hfields := run_unopened h hall
    exact ⟨hfields, by rw [hfields]⟩
  · intro hresize
    rw [resizeTerminal_iff, run_session h]
    exact and_iff_right (resizeTerminal_iff.mp hresize)

/-- A `Send` whose server has no terminal for it. -/
def refused : Attempt where
  caller := some [108, 115, 10]
  fails op := if op = .requestPty then some "ssh: pty-req failed" else none

def fresh : Shared Unit Unit := .connected "ssh_1" () (fun _ => none) ()

def leaking : Shared Unit Unit := { fresh with session := some 1, opened := 2 }

theorem run_fresh : attempts.run fresh [refused, refused] = some leaking := rfl

theorem run_restored_iff_refused :
    (Restored fresh leaking ↔ ∀ a ∈ [refused, refused],
        fresh.conn = none ∨ a.fails .newSession ≠ none) ∧
      leaking.shellStarted = fresh.shellStarted ∧
      leaking.opened = fresh.opened +
        [refused, refused].countP (fun a => fresh.conn ≠ none ∧ a.fails .newSession = none) ∧
      (resizeTerminal fresh = some (.error "no active session") →
        (resizeTerminal leaking = some (.error "no active session") ↔
          ∀ a ∈ [refused, refused], fresh.conn = none ∨ a.fails .newSession ≠ none)) :=
  run_restored_iff run_fresh

/-- Two calls that get no terminal leave two sessions open, and one to resize. -/
theorem send_refused_twice :
    ∃ x', attempts.run fresh [refused, refused] = some x' ∧ ¬ Restored fresh x' ∧
      fresh.session = none ∧ fresh.opened = 0 ∧ x'.session = some 1 ∧ x'.opened = 2 ∧
      resizeTerminal fresh = some (.error "no active session") ∧
      resizeTerminal x' = some (.ok ()) := by
  refine ⟨leaking, run_fresh, ?_, rfl, rfl, rfl, rfl, rfl, rfl⟩
  intro hrestored
  have hopened : leaking.opened = fresh.opened := by rw [hrestored.fields]
  exact absurd hopened (by decide)

end SshClientWasm.Ssh.StartShell
