import SshClientWasm.Ssh.Interceptor
import SshClientWasm.Ssh.Points
import SshClientWasm.Ssh.Safety

/-!
# The shell behind a client

The goroutines that `StartShell` leaves behind, next to the calls of the client: the one for
stdin has at most one array in hand, which its `Write` gets to the shell piece by piece or
not at all; those for stdout and stderr read until their stream ends. What becomes of a
`Write`, and of a stream, nobody tells the client.
-/
namespace SshClientWasm.Ssh.Shell

open Library Interceptor

inductive Output
  | stdout
  | stderr
  deriving DecidableEq, Repr

/-- The client with its shell. `hands` has, for each goroutine for stdin, what its `Write` has
still to write; `stdin` is what the shell has got, and `stray` what of it has come from a `Write`
behind one that has failed; `failed` says that a `Write` has failed, and `ended` that an output
has come to its end. -/
structure Console (τ κ Conn : Type*) where
  loop : Loop τ (Shared κ Conn) Point
  hands : ℕ → Option Bytes
  stdin : Bytes
  stray : Bytes
  failed : Bool
  ended : Output → Bool

/-- A turn of the client, at a time; a piece of an array gets to the shell; a `Write` returns;
an output ends. -/
inductive Moment (τ : Type*)
  | turn (a : Turn τ Call Static (Option String) ℕ) (now : ℤ)
  | puts (i n : ℕ)
  | wrote (i : ℕ) (failed : Bool)
  | ends (o : Output)

variable {τ κ Conn : Type*}

/-- What a goroutine for stdin receives when it moves. -/
def received (x : Shared κ Conn) (i : ℕ) : Option Bytes :=
  match x.writers[i]?, x.channel.recv with
  | some .ranging, .item data _ => some data
  | _, _ => none

namespace Console

variable (s : Console τ κ Conn)

/-- Behind `Connect`. -/
def connected (sessionID : String) (conn : Conn) (sessions : String → Option κ) (this : κ) :
    Console τ κ Conn where
  loop := Ssh.connected sessionID conn sessions this
  hands := fun _ => none
  stdin := []
  stray := []
  failed := false
  ended := fun _ => false

/-- No input gets to the shell any more, or it has exited. -/
def Dead : Prop := s.failed = true ∨ s.ended .stdout = true ∧ s.ended .stderr = true

instance : Decidable s.Dead := inferInstanceAs (Decidable (_ ∨ _ ∧ _))

/-- A goroutine for stdin moves only when its `Write` has returned. -/
def Ready : Turn τ Call Static (Option String) ℕ → Prop
  | .external i => s.hands i = none
  | _ => True

instance (a : Turn τ Call Static (Option String) ℕ) : Decidable (s.Ready a) :=
  match a with
  | .external i => inferInstanceAs (Decidable (s.hands i = none))
  | .spawn .. | .handle .. | .go .. | .callOut _ | .answer .. | .guest | .host | .leave =>
    .isTrue trivial

/-- What the goroutines for stdin have in hand behind a turn. -/
def receive (a : Turn τ Call Static (Option String) ℕ) : ℕ → Option Bytes :=
  match a with
  | .external i => Function.update s.hands i (received s.loop.data i)
  | _ => s.hands

end Console

/-- The client and its shell. A `Write` that does not fail has written everything. -/
def console [DecidableEq τ] (callbacks : GoCallbacks) : Machine (Console τ κ Conn) (Moment τ) where
  step s m :=
    match m with
    | .turn a _ =>
      if s.Ready a then
        ((client callbacks).machine.step s.loop a).map fun loop =>
          { s with
            loop := loop
            hands := s.receive a }
      else none
    | .puts i n =>
      match s.hands i with
      | some rest =>
        if n ≤ rest.length then
          some { s with
            stdin := s.stdin ++ rest.take n
            stray := if s.failed then s.stray ++ rest.take n else s.stray
            hands := Function.update s.hands i (some (rest.drop n)) }
        else none
      | none => none
    | .wrote i failed =>
      match s.hands i with
      | some rest =>
        if failed = true ∨ rest = [] then
          some { s with
            hands := Function.update s.hands i none
            failed := s.failed || failed }
        else none
      | none => none
    | .ends o =>
      if s.loop.data.started ≠ 0 ∧ s.ended o = false then
        some { s with ended := Function.update s.ended o true }
      else none

/-- What a moment does. -/
inductive Step [DecidableEq τ] (callbacks : GoCallbacks) (s : Console τ κ Conn) :
    Moment τ → Console τ κ Conn → Prop
  | turn (a now) {loop} (hready : s.Ready a)
      (h : (client callbacks).machine.step s.loop a = some loop) :
      Step callbacks s (.turn a now) { s with
        loop := loop
        hands := s.receive a }
  | puts (i n rest) (hhand : s.hands i = some rest) :
      Step callbacks s (.puts i n) { s with
        stdin := s.stdin ++ rest.take n
        stray := if s.failed then s.stray ++ rest.take n else s.stray
        hands := Function.update s.hands i (some (rest.drop n)) }
  | wrote (i failed rest) (hhand : s.hands i = some rest) (h : failed = true ∨ rest = []) :
      Step callbacks s (.wrote i failed) { s with
        hands := Function.update s.hands i none
        failed := s.failed || failed }
  | ends (o) (hstarted : s.loop.data.started ≠ 0) :
      Step callbacks s (.ends o) { s with ended := Function.update s.ended o true }

theorem step_cases [DecidableEq τ] {callbacks : GoCallbacks} {s s' : Console τ κ Conn}
    {m : Moment τ} (h : (console callbacks).step s m = some s') : Step callbacks s m s' := by
  cases m with
  | turn a now =>
    obtain ⟨hready, h⟩ := Option.ite_none_right_eq_some.mp h
    obtain ⟨loop, hloop, rfl⟩ := Option.map_eq_some_iff.mp h
    exact .turn a now hready hloop
  | puts i n =>
    cases hhand : s.hands i with
    | none => simp [console, hhand] at h
    | some rest =>
      simp only [console, hhand] at h
      obtain ⟨_, h⟩ := Option.ite_none_right_eq_some.mp h
      cases h
      exact .puts i n rest hhand
  | wrote i failed =>
    cases hhand : s.hands i with
    | none => simp [console, hhand] at h
    | some rest =>
      simp only [console, hhand] at h
      obtain ⟨hreturns, h⟩ := Option.ite_none_right_eq_some.mp h
      cases h
      exact .wrote i failed rest hhand hreturns
  | ends o =>
    obtain ⟨⟨hstarted, _⟩, h⟩ := Option.ite_none_right_eq_some.mp h
    cases h
    exact .ends o hstarted

section Single

/-- The goroutine is at a remote operation of `StartShell`. -/
def AtRemote : Point → Prop
  | .stage (.remote _ _) | .answered _ _ _ => True
  | _ => False

/-- The shell is started once: whoever is starting it finds no goroutine for its stdin. -/
structure Single (s : Loop τ (Shared κ Conn) Point) : Prop where
  few : s.data.writers.length ≤ 1
  started : s.data.started = s.data.writers.length
  busy : s.data.writers.length ≠ 0 → s.data.shellStarted = true ∨ s.data.conn = none
  starting : ∀ t, AtRemote (s.pc t) → s.data.writers.length = 0

variable {callbacks : GoCallbacks} {x x' : Shared κ Conn} {p p' q : Point}

theorem not_atRemote_returned (caller : Option Bytes) (err : Option String) :
    ¬AtRemote (.stage (returned caller err)) := by
  cases caller <;> exact id

theorem claim_of_atRemote (h : AtRemote p) : p.claim = .write := by
  cases p with
  | answered => rfl
  | stage s =>
    cases s with
    | remote => rfl
    | _ => exact h.elim
  | _ => exact h.elim

/-- The fields that say whether a shell may be started. -/
structure Same (x x' : Shared κ Conn) : Prop where
  writers : x'.writers = x.writers
  started : x'.started = x.started
  shellStarted : x'.shellStarted = x.shellStarted
  conn : x'.conn = x.conn

theorem same_select (data : Bytes) : Same x (x.select data).1 := by
  unfold Shared.select
  split <;> constructor <;> rfl

theorem same_closeStdin : Same x x.closeStdin := by
  unfold Shared.closeStdin
  split
  · split <;> constructor <;> rfl
  · constructor <;> rfl

theorem same_remote {op next : Remote} (h : op.next = some next) : Same x (x.remote op) := by
  cases op with
  | shell => cases h
  | _ => constructor <;> rfl

/-- What a step does to these fields: nothing, or it starts the shell, or clears them. Only
who finds no shell started gets to a remote operation. -/
theorem Going.shell (h : Point.Going callbacks x p x' p') :
    Same x x' ∧ (AtRemote p' → AtRemote p ∨ x.shellStarted = false ∧ x.conn ≠ none) ∨
      AtRemote p ∧ ¬AtRemote p' ∧ x' = x.remote .shell ∨
      p.claim = .write ∧ ¬AtRemote p ∧ ¬AtRemote p' ∧ x' = x.clear := by
  have hrefl : Same x x := ⟨rfl, rfl, rfl, rfl⟩
  cases h with
  | accepted data | selected data => exact Or.inl ⟨same_select data, False.elim⟩
  | unregister | disconnectWaits => exact Or.inl ⟨⟨rfl, rfl, rfl, rfl⟩, False.elim⟩
  | answered remote caller err h =>
    cases h with
    | remoteFailed => exact Or.inl ⟨hrefl, fun _ => Or.inl trivial⟩
    | remoteNext _ next _ hnext => exact Or.inl ⟨same_remote hnext, fun _ => Or.inl trivial⟩
    | remoteDone => exact Or.inr (Or.inl ⟨trivial, not_atRemote_returned _ _, rfl⟩)
  | stage hplain h =>
    cases h with
    | startRemote caller hstarted hconn => exact Or.inl ⟨hrefl, fun _ => Or.inr ⟨hstarted, hconn⟩⟩
    | remoteFailed => exact Or.inl ⟨hrefl, fun _ => Or.inl trivial⟩
    | remoteNext _ next _ hnext => exact Or.inl ⟨same_remote hnext, fun _ => Or.inl trivial⟩
    | remoteDone => exact Or.inr (Or.inl ⟨trivial, not_atRemote_returned _ _, rfl⟩)
    | clear => exact Or.inr (Or.inr ⟨rfl, id, id, rfl⟩)
    | closeStdin => exact Or.inl ⟨same_closeStdin, False.elim⟩
    | startAgain | startGone =>
      exact Or.inl ⟨hrefl, fun h => absurd h (not_atRemote_returned _ _)⟩
    | enterStartShell | enterDisconnect | startLock | select | unregister => cases hplain
    | _ => exact Or.inl ⟨hrefl, False.elim⟩
  | _ => exact Or.inl ⟨hrefl, False.elim⟩

theorem not_atRemote_spawn (c : Call) : ¬AtRemote (Point.spawn c) := by
  cases c <;> exact id

theorem not_atRemote_handle (c : Static) : ¬AtRemote (Point.handle x c) := by
  rcases Point.handle_cases x c with h | ⟨err, h⟩
  · rw [h]
    exact not_atRemote_spawn c.call
  · rw [h]
    exact id

theorem atRemote_of_callOut (h : Point.callOut callbacks x p = some q) (hq : AtRemote q) :
    AtRemote p := by
  rcases Point.callOut_cases h with ⟨rfl, rfl⟩ | ⟨data, rfl, rfl⟩ | ⟨rfl, rfl⟩ | ⟨s, rfl, rfl⟩
  · exact hq.elim
  · exact hq.elim
  · exact hq.elim
  · exact hq

variable {s s' : Loop τ (Shared κ Conn) Point} {a : Turn τ Call Static (Option String) ℕ}

theorem Single.connected (sessionID : String) (conn : Conn) (sessions : String → Option κ)
    (this : κ) : Single (Ssh.connected sessionID conn sessions this : Loop τ (Shared κ Conn) Point) where
  few := Nat.zero_le 1
  started := rfl
  busy := fun h => absurd rfl h
  starting := fun _ h => h.elim

variable [DecidableEq τ]

theorem Single.move (hs : Single s) {stack : List (Library.Frame τ)} {lock : WriterFirst τ} {t : τ}
    (hq : AtRemote q → AtRemote (s.pc t)) :
    Single (⟨stack, lock, s.data, Function.update s.pc t q⟩ : Loop τ (Shared κ Conn) Point) := by
  refine ⟨hs.few, hs.started, hs.busy, ?_⟩
  exact (Function.forall_update_iff s.pc fun _ p => AtRemote p → _).mpr
    ⟨fun h => hs.starting t (hq h), fun u _ => hs.starting u⟩

theorem Single.go (hs : Single s) (hvalid : (client callbacks).Valid s) {t : τ}
    {lock : WriterFirst τ} (h : Point.Going callbacks s.data (s.pc t) x' p') :
    Single (⟨s.stack, lock, x', Function.update s.pc t p'⟩ : Loop τ (Shared κ Conn) Point) := by
  rcases Going.shell h with ⟨hsame, hstarts⟩ | ⟨hremote, hnot, rfl⟩ | ⟨_, _, hnot, rfl⟩
  · refine ⟨?_, ?_, ?_, ?_⟩
    · exact (congrArg List.length hsame.writers).trans_le hs.few
    · rw [hsame.started, hsame.writers, hs.started]
    · rw [hsame.writers, hsame.shellStarted, hsame.conn]
      exact hs.busy
    · rw [hsame.writers]
      refine (Function.forall_update_iff s.pc fun _ p => AtRemote p → _).mpr
        ⟨fun h => ?_, fun u _ => hs.starting u⟩
      rcases hstarts h with hbefore | ⟨hstarted, hconn⟩
      · exact hs.starting t hbefore
      · by_contra hnonzero
        rcases hs.busy hnonzero with hshell | hgone
        · rw [hstarted] at hshell
          cases hshell
        · exact hconn hgone
  · -- the shell starts, and nobody else is about to start one
    have hnone := hs.starting t hremote
    have hcount : (s.data.remote .shell).writers.length = 1 := by
      simp [Shared.remote, hnone]
    refine ⟨hcount.le, ?_, fun _ => Or.inl rfl, ?_⟩
    · rw [hcount]
      simp [Shared.remote, hs.started, hnone]
    · refine (Function.forall_update_iff s.pc fun _ p => AtRemote p → _).mpr
        ⟨fun h => absurd h hnot, fun u hut hu => ?_⟩
      exact absurd (hvalid.agrees.eq_of_writer (Or.inr (claim_of_atRemote hu))
        (Or.inr (claim_of_atRemote hremote))) hut
  · refine ⟨hs.few, hs.started, fun _ => Or.inr rfl, ?_⟩
    exact (Function.forall_update_iff s.pc fun _ p => AtRemote p → _).mpr
      ⟨fun h => absurd h hnot, fun u _ => hs.starting u⟩

theorem Single.step (hs : Single s) (hvalid : (client callbacks).Valid s)
    (h : (client callbacks).machine.step s a = some s') : Single s' := by
  cases Guest.step_cases h with
  | spawn t c hfresh => exact hs.move fun h => absurd h (not_atRemote_spawn c)
  | handle t c hhost hfresh => exact hs.move fun h => absurd h (not_atRemote_handle c)
  | go t err hfree hadvance hlock => exact hs.go hvalid (Point.advance_going hadvance)
  | callOut t hfree hcall => exact hs.move (atRemote_of_callOut hcall)
  | answer t err hstack hanswer =>
    obtain ⟨op, caller, _, hpoint, _⟩ := Point.answered_spec hanswer
    refine hs.move fun _ => ?_
    rw [hpoint]
    trivial
  | external i hexternal =>
    have hframe := write_frame hexternal
    refine ⟨?_, ?_, ?_, fun t ht => ?_⟩
    · exact hframe.writers.trans_le hs.few
    · rw [hframe.started, hframe.writers, hs.started]
    · rw [hframe.writers, hframe.shellStarted, hframe.conn]
      exact hs.busy
    · rw [hframe.writers]
      exact hs.starting t ht
  | guest | host | leave => exact ⟨hs.few, hs.started, hs.busy, hs.starting⟩

end Single

section Queue

variable {callbacks : GoCallbacks} {x x' : Shared κ Conn} {p p' q : Point}

/-- What the channel accepts in a step of a goroutine. -/
def accepts (x : Shared κ Conn) : Point → List Bytes
  | .stage (.select data) => if (x.select data).2 = .ok () then [data] else []
  | _ => []

theorem select_items (data : Bytes) :
    (x.select data).1.written = x.written ∧
      (x.select data).1.channel.buffer.items =
        x.channel.buffer.items ++ accepts x (.stage (.select data)) := by
  cases hsend : Channel.send x.stdinRef data with
  | proceeds channel =>
    obtain ⟨c, hc, hitems⟩ := Channel.send_items hsend
    obtain ⟨_, hc⟩ := Option.ite_none_right_eq_some.mp hc
    cases hc
    simp [accepts, Shared.select, hsend, hitems]
  | blocks | panics => simp [accepts, Shared.select, hsend]

theorem closeStdin_items :
    x.closeStdin.written = x.written ∧
      x.closeStdin.channel.buffer.items = x.channel.buffer.items := by
  unfold Shared.closeStdin
  split
  · split
    next channel hclose =>
      refine ⟨rfl, ?_⟩
      cases href : x.stdinRef with
      | none =>
        rw [href] at hclose
        cases hclose
      | some c =>
        obtain ⟨_, hc⟩ := Option.ite_none_right_eq_some.mp href
        cases hc
        rw [href, Channel.close] at hclose
        split at hclose
        · cases hclose
        · cases hclose
          rfl
    all_goals exact ⟨rfl, rfl⟩
  · exact ⟨rfl, rfl⟩

theorem remote_items (op : Remote) :
    (x.remote op).written = x.written ∧
      (x.remote op).channel.buffer.items = x.channel.buffer.items := by
  cases op <;> exact ⟨rfl, rfl⟩

theorem Going.items (h : Point.Going callbacks x p x' p') :
    x'.written = x.written ∧
      x'.channel.buffer.items = x.channel.buffer.items ++ accepts x p := by
  have hsame : ∀ y : Shared κ Conn, y.written = x.written ∧
      y.channel.buffer.items = x.channel.buffer.items →
      y.written = x.written ∧ y.channel.buffer.items = x.channel.buffer.items ++ [] := by
    intro y hy
    rwa [List.append_nil]
  cases h with
  | accepted data | selected data => exact select_items data
  | answered remote caller err h =>
    cases h with
    | remoteFailed => exact hsame x ⟨rfl, rfl⟩
    | remoteNext | remoteDone => exact hsame _ (remote_items _)
  | stage hplain h =>
    cases h with
    | enterStartShell | enterDisconnect | startLock | select | unregister => cases hplain
    | remoteNext | remoteDone => exact hsame _ (remote_items _)
    | closeStdin => exact hsame _ closeStdin_items
    | _ => exact hsame _ ⟨rfl, rfl⟩
  | _ => exact hsame _ ⟨rfl, rfl⟩

theorem write_items {i : ℕ} (h : x.write i = some x') :
    x'.written = x.written ++ (received x i).toList ∧
      x.channel.buffer.items = (received x i).toList ++ x'.channel.buffer.items ∧
      (received x i ≠ none → i < x.writers.length) := by
  unfold Shared.write at h
  split at h
  next hwriter =>
    cases h
    simp [received, hwriter]
  next hwriter =>
    split at h
    · cases h
    next hrecv =>
      cases h
      simp [received, hwriter, hrecv]
    next data channel hrecv =>
      cases h
      have hlt : i < x.writers.length := by
        by_contra hnot
        rw [List.getElem?_eq_none (by omega)] at hwriter
        cases hwriter
      have hreceived : received x i = some data := by rw [received, hwriter, hrecv]
      rw [hreceived]
      exact ⟨rfl, Channel.recv_items hrecv, fun _ => hlt⟩
  next => cases h

end Queue

end SshClientWasm.Ssh.Shell
