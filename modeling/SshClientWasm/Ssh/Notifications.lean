import SshClientWasm.Library.Journal
import SshClientWasm.Ssh.Pinning
import SshClientWasm.Ssh.Points

/-!
# The states that a client reports

`Connect` reports two states, and every `Disconnect` two more: the first before it takes
the lock, the second while it has it. Nothing asks whether the connection is in a state from
which it can get there.
-/
namespace SshClientWasm.Ssh.Notifications

open Library

/-- The state machine of a connection, as the two ways it can go. -/
def Follows (states : List String) : Prop :=
  states <+: ["connecting", "error"] ∨
    states <+: ["connecting", "connected", "disconnecting", "disconnected"]

instance (states : List String) : Decidable (Follows states) :=
  inferInstanceAs (Decidable (_ ∨ _))

/-- What a goroutine has reported before it gets to a point. -/
def reported : Point → List String
  | .stage (.enter .disconnect) | .disconnectWaits | .stage .closeStdin | .stage .clear
  | .stage .unregister | .disconnected => ["disconnecting"]
  | .leaving | .stage (.done .disconnect (.ok ())) => ["disconnecting", "disconnected"]
  | _ => []

/-- What it reports there, to a client that has an `onStateChange`. -/
def reports : Point → List String
  | .disconnecting => ["disconnecting"]
  | .disconnected => ["disconnected"]
  | _ => []

variable {τ κ Conn : Type*}

/-- The report of a turn, with the goroutine it comes from. -/
def report (s : Loop τ (Shared κ Conn) Point) :
    Turn τ Call Static (Option String) ℕ → List (τ × String)
  | .callOut t => (reports (s.pc t)).map (t, ·)
  | _ => []

/-- A goroutine reports that its `Disconnect` begins only if no other has. -/
def Once (s : Loop τ (Shared κ Conn) Point) : Turn τ Call Static (Option String) ℕ → Prop
  | .callOut t => s.pc t = .disconnecting → ∀ u, reported (s.pc u) = []
  | _ => True

variable {callbacks : GoCallbacks} {x x' : Shared κ Conn} {p p' q : Point}

theorem reported_returned (caller : Option Bytes) (err : Option String) :
    reported (.stage (returned caller err)) = [] := by
  cases caller <;> rfl

theorem reported_going (hstate : callbacks.onStateChange = true)
    (h : Point.Going callbacks x p x' p') : reported p' = reported p := by
  cases h with
  | unheard h | unheardAgain h =>
    rw [hstate] at h
    cases h
  | answered remote caller err h =>
    cases h with
    | remoteNext => rfl
    | remoteFailed | remoteDone => exact reported_returned _ _
  | stage hplain h =>
    cases h with
    | enterStartShell | enterDisconnect | startLock | select | unregister => cases hplain
    | startAgain | startGone | remoteFailed | remoteDone => exact reported_returned _ _
    | _ => rfl
  | _ => rfl

theorem reported_callOut (h : Point.callOut callbacks x p = some q) :
    reported q = reported p ++ reports p := by
  rcases Point.callOut_cases h with ⟨rfl, rfl⟩ | ⟨data, rfl, rfl⟩ | ⟨rfl, rfl⟩ | ⟨s, rfl, rfl⟩
  · rfl
  · rfl
  · rfl
  · exact (List.append_nil _).symm

theorem reported_answer {err : Option String} (h : p.answer err = some q) :
    reported q = reported p := by
  obtain ⟨op, caller, _, rfl, rfl⟩ := Point.answered_spec h
  rfl

theorem reported_fresh (h : p.fresh = true) : reported p = [] := by
  rw [Point.eq_of_fresh h]
  rfl

theorem reported_spawn (c : Call) : reported (Point.spawn c) = [] := by
  cases c <;> rfl

theorem reported_handle (x : Shared κ Conn) (c : Static) : reported (Point.handle x c) = [] := by
  rcases Point.handle_cases x c with h | ⟨err, h⟩
  · rw [h, reported_spawn]
  · rw [h]
    cases c <;> rfl

theorem reported_follows (p : Point) :
    reported p ++ reports p <+: ["disconnecting", "disconnected"] := by
  unfold reported reports
  split
  case h_9 => split <;> simp_all [List.cons_prefix_cons]
  all_goals decide

theorem disconnecting_of_disconnected (h : "disconnected" ∈ reported p) :
    "disconnecting" ∈ reported p := by
  obtain ⟨rest, hrest⟩ := (List.prefix_append _ (reports p)).trans (reported_follows p)
  cases hreported : reported p with
  | nil =>
    rw [hreported] at h
    cases h
  | cons state states =>
    rw [hreported] at hrest
    obtain ⟨rfl, _⟩ := List.cons.inj hrest
    exact List.mem_cons_self

variable {s s' : Loop τ (Shared κ Conn) Point × List (τ × String)}

section Lists

variable {states : List String}

theorem follows_connected :
    Follows (["connecting", "connected"] ++ states) ↔
      states <+: ["disconnecting", "disconnected"] := by
  simp [Follows, List.cons_prefix_cons]

theorem disconnecting_first :
    states ++ ["disconnecting"] <+: ["disconnecting", "disconnected"] ↔ states = [] := by
  constructor
  · intro h
    match states with
    | [] => rfl
    | [state] => simp [List.cons_prefix_cons] at h
    | _ :: _ :: states =>
      have hlength := h.length_le
      simp at hlength
  · rintro rfl
    decide

end Lists

/-- The goroutine that reports the end is the one that has reported the beginning. -/
theorem disconnected_last [DecidableEq τ] (hs : Journaled reported s.1.pc s.2)
    (hstates : s.2.map Prod.snd <+: ["disconnecting", "disconnected"]) {t : τ}
    (ht : s.1.pc t = .disconnected) :
    s.2.map Prod.snd ++ ["disconnected"] <+: ["disconnecting", "disconnected"] := by
  have hbegun : (t, "disconnecting") ∈ s.2 := by
    rw [hs.mem, ht]
    decide
  have hnot : (t, "disconnected") ∉ s.2 := by
    rw [hs.mem, ht]
    decide
  have hclosed : ∀ u, (u, "disconnected") ∈ s.2 → (u, "disconnecting") ∈ s.2 := by
    intro u hu
    rw [hs.mem] at hu ⊢
    exact disconnecting_of_disconnected hu
  match hlog : s.2 with
  | [] =>
    rw [hlog] at hbegun
    cases hbegun
  | [(u, state)] =>
    rw [hlog] at hstates
    obtain ⟨hstate, _⟩ := List.cons_prefix_cons.mp hstates
    simpa using hstate
  | (u, state) :: (v, state') :: rest =>
    exfalso
    rw [hlog] at hstates hbegun hnot hclosed
    obtain ⟨hstate, htail⟩ := List.cons_prefix_cons.mp hstates
    obtain ⟨hstate', hrest⟩ := List.cons_prefix_cons.mp htail
    have hrest : rest = [] := by simpa using hrest
    subst hstate hstate' hrest
    have htu : t = u := by simpa using hbegun
    have hvu : v = u := by simpa using hclosed v (by simp)
    exact hnot (by simp [htu, hvu])

/-- The client with its log. -/
abbrev logging [DecidableEq τ] (callbacks : GoCallbacks) :
    Machine (Loop τ (Shared κ Conn) Point × List (τ × String))
      (Turn τ Call Static (Option String) ℕ) :=
  (client callbacks).machine.recorded report

variable [DecidableEq τ] {a : Turn τ Call Static (Option String) ℕ}

theorem journaled_step (hstate : callbacks.onStateChange = true)
    (hs : Journaled reported s.1.pc s.2) (h : (logging callbacks).step s a = some s') :
    Journaled reported s'.1.pc s'.2 := by
  obtain ⟨loop, log⟩ := s'
  obtain ⟨hstep, hlog⟩ := (Machine.recorded_step _).mp h
  dsimp only at hstep hlog
  subst hlog
  cases Guest.step_cases hstep with
  | spawn t c hfresh => exact hs.quiet ((reported_spawn c).trans (reported_fresh hfresh).symm)
  | handle t c hhost hfresh =>
    exact hs.quiet ((reported_handle _ c).trans (reported_fresh hfresh).symm)
  | go t err hfree hadvance hlock =>
    exact hs.quiet (reported_going hstate (Point.advance_going hadvance))
  | answer t err hstack hanswer => exact hs.quiet (reported_answer hanswer)
  | callOut t hfree hcall => exact hs.move (reported_callOut hcall)
  | external | guest | host | leave => exact (List.append_nil s.2).symm ▸ hs

/-- A step keeps to the state machine exactly if it does not begin a second `Disconnect`. -/
theorem step_follows_iff (hs : Journaled reported s.1.pc s.2)
    (hstates : Follows (["connecting", "connected"] ++ s.2.map Prod.snd))
    (h : (logging callbacks).step s a = some s') :
    Follows (["connecting", "connected"] ++ s'.2.map Prod.snd) ↔ Once s.1 a := by
  obtain ⟨_, hlog⟩ := (Machine.recorded_step _).mp h
  rw [follows_connected] at hstates ⊢
  rw [hlog, List.map_append]
  cases a with
  | callOut t =>
    cases hpc : s.1.pc t with
    | disconnecting =>
      simp only [report, hpc, reports, Once, List.map_cons, List.map_nil, forall_const]
      rw [disconnecting_first, List.map_eq_nil_iff, hs.eq_nil_iff]
    | disconnected =>
      simp only [report, hpc, reports, Once, List.map_cons, List.map_nil]
      exact iff_of_true (disconnected_last hs hstates hpc) fun h => (nomatch h)
    | _ => exact iff_of_true (by simpa [report, hpc, reports] using hstates) (by simp [Once, hpc])
  | _ => exact iff_of_true (by simpa [report] using hstates) trivial

theorem report_unheard (hstate : callbacks.onStateChange = false)
    (h : (logging callbacks).step s a = some s') :
    report s.1 a = [] ∧ Once s.1 a := by
  obtain ⟨loop, log⟩ := s'
  obtain ⟨hstep, _⟩ := (Machine.recorded_step _).mp h
  dsimp only at hstep
  cases a with
  | callOut t =>
    cases Guest.step_cases hstep with
    | callOut _ hfree hcall =>
      cases hpc : s.1.pc t with
      | disconnecting | disconnected =>
        rw [hpc] at hcall
        obtain ⟨hheard, _⟩ := Option.ite_none_right_eq_some.mp hcall
        rw [hstate] at hheard
        cases hheard
      | _ => exact ⟨by simp [report, hpc, reports], by simp [Once, hpc]⟩
  | _ => exact ⟨rfl, trivial⟩

/-- What `onStateChange` gets of the states that a `Connect` goes through. -/
def heard (callbacks : GoCallbacks) (states : List String) : List String :=
  if callbacks.onStateChange then states else []

theorem always_connected_iff (labels : List (Turn τ Call Static (Option String) ℕ))
    (hs : Journaled reported s.1.pc s.2) (hlog : s.2 = []) (hrun : (logging callbacks).run s labels = some s') :
    (logging callbacks).Always
        (fun s => Follows (heard callbacks ["connecting", "connected"] ++ s.2.map Prod.snd))
        s labels ↔
      (logging callbacks).Admits (fun s => Once s.1) s labels := by
  cases hstate : callbacks.onStateChange with
  | true =>
    have hheard : heard callbacks ["connecting", "connected"] = ["connecting", "connected"] := by
      rw [heard, hstate, if_pos rfl]
    rw [hheard]
    refine (logging callbacks).always_iff_admits (I := fun s => Journaled reported s.1.pc s.2)
      (fun _ _ _ hs h => journaled_step hstate hs h) (fun _ _ _ hs hP h => step_follows_iff hs hP h)
      labels s s' hs ?_ hrun
    rw [hlog, List.map_nil, List.append_nil]
    decide
  | false =>
    have hheard : heard callbacks ["connecting", "connected"] = [] := by
      rw [heard, hstate, if_neg (by simp)]
    rw [hheard]
    refine (logging callbacks).always_iff_admits (I := fun s => s.2 = [])
      (fun s a t hs h => ?_) (fun s a t hs _ h => ?_) labels s s' hlog ?_ hrun
    · rw [((Machine.recorded_step _).mp h).2, hs, (report_unheard hstate h).1]
      rfl
    · obtain ⟨hreport, honce⟩ := report_unheard hstate h
      rw [((Machine.recorded_step _).mp h).2, hs, hreport]
      exact iff_of_true (Or.inl List.nil_prefix) honce
    · rw [hlog]
      exact Or.inl List.nil_prefix

/-- A `Connect` that fails ends in the state for it. Behind one that succeeds, the states
that a client reports are those of a connection exactly as long as no `Disconnect` begins
behind another. -/
theorem always_follows_iff {Key Signer : Type*} (ssh : SshLibrary Key Signer Conn)
    (c : Client Conn) (registry : Sessions Conn) (callbacks : GoCallbacks) :
    (∀ e, (c.connect ssh registry).result = .error e →
      Follows (heard callbacks (c.connect ssh registry).states)) ∧
    ∀ id conn, (c.connect ssh registry).result = .ok id →
      (c.connect ssh registry).sessions id = some { c with conn := some conn } →
      ∀ (labels : List (Turn τ Call Static (Option String) ℕ)) (s),
        (logging callbacks).run
          (connected id conn registry { c with conn := some conn }, []) labels = some s →
        ((logging callbacks).Always
            (fun s => Follows (heard callbacks (c.connect ssh registry).states ++
              s.2.map Prod.snd))
            (connected id conn registry { c with conn := some conn }, []) labels ↔
          (logging callbacks).Admits (fun s => Once s.1)
            (connected id conn registry { c with conn := some conn }, []) labels) := by
  constructor
  · intro e herror
    rcases Client.connect_states ssh c registry with ⟨_, hstates⟩ | ⟨⟨id, hok⟩, _⟩
    · rw [hstates]
      unfold heard
      split <;> decide
    · rw [herror] at hok
      cases hok
  · intro id conn hok _ labels s hrun
    rcases Client.connect_states ssh c registry with ⟨⟨e, herror⟩, _⟩ | ⟨_, hstates⟩
    · rw [hok] at herror
      cases herror
    · rw [hstates]
      exact always_connected_iff labels (Journaled.start rfl) rfl hrun

/-- A client for the server that takes a password. -/
def passwordClient : Client Unit where
  options :=
    { host := "localhost"
      port := 22
      user := "root"
      password := "secret"
      privateKey := ""
      timeout := 30
      hostKeyPin := some ⟨"ssh-ed25519", "SHA256:key"⟩ }
  sessionID := "ssh-1"
  transport := some 0
  conn := none

/-- A `Disconnect` from its call to its end. -/
def disconnect (t : Bool) : List (Turn Bool Call Static (Option String) ℕ) :=
  [.spawn t .disconnect, .callOut t, .leave] ++ List.replicate 5 (.go t none) ++
    [.callOut t, .leave, .go t none]

def afterConnect : Loop Bool (Shared (Client Unit) Unit) Point × List (Bool × String) :=
  (connected "ssh-1" () (fun _ => none) { passwordClient with conn := some () }, [])

theorem connect_passwordClient :
    (passwordClient.connect passwordServer fun _ => none).result = .ok "ssh-1" ∧
      (passwordClient.connect passwordServer fun _ => none).sessions "ssh-1" =
        some { passwordClient with conn := some () } ∧
      (passwordClient.connect passwordServer fun _ => none).states = ["connecting", "connected"] := by
  have hauth : passwordClient.authMethods passwordServer = .ok [.password "secret"] := by
    decide +kernel
  have hok : (passwordServer.newClientConn 0 (address passwordClient.options)
      (passwordClient.config passwordServer ⟨"ssh-ed25519", "SHA256:key"⟩
        [.password "secret"])).result = .ok () := by
    decide +kernel
  have hpin : passwordClient.options.hostKeyPin = some ⟨"ssh-ed25519", "SHA256:key"⟩ := rfl
  have htransport : passwordClient.transport = some 0 := rfl
  have hid : passwordClient.sessionID = "ssh-1" := rfl
  simp [Client.connect, hpin, hauth, htransport, hok, hid]

theorem always_follows_iff_once :
    ∃ s, (logging ⟨false, false, true⟩).run afterConnect (disconnect true) = some s ∧
      s.2 = [(true, "disconnecting"), (true, "disconnected")] ∧
      (logging ⟨false, false, true⟩).Always
        (fun s => Follows (heard ⟨false, false, true⟩
          (passwordClient.connect passwordServer fun _ => none).states ++ s.2.map Prod.snd))
        afterConnect (disconnect true) := by
  obtain ⟨hresult, hsessions, _⟩ := connect_passwordClient
  refine ⟨_, rfl, rfl, ?_⟩
  refine ((always_follows_iff passwordServer passwordClient (fun _ => none) ⟨false, false, true⟩).2
    "ssh-1" () hresult hsessions (disconnect true) _ rfl).mpr ?_
  refine (Machine.admits_cons _ rfl).mpr ⟨trivial, ?_⟩
  refine (Machine.admits_cons _ rfl).mpr ⟨fun _ u => ?_, ?_⟩
  · cases u <;> rfl
  iterate 6 refine (Machine.admits_cons _ rfl).mpr ⟨trivial, ?_⟩
  refine (Machine.admits_cons _ rfl).mpr ⟨fun h => (nomatch h), ?_⟩
  iterate 2 refine (Machine.admits_cons _ rfl).mpr ⟨trivial, ?_⟩
  trivial

/-- Two calls of `session.disconnect`, one behind the other or both at once. -/
theorem disconnect_twice :
    ∃ s u, (logging ⟨false, false, true⟩).run afterConnect
        (disconnect true ++ [.spawn false .disconnect, .callOut false]) = some s ∧
      heard ⟨false, false, true⟩ (passwordClient.connect passwordServer fun _ => none).states ++
        s.2.map Prod.snd =
          ["connecting", "connected", "disconnecting", "disconnected", "disconnecting"] ∧
      (logging ⟨false, false, true⟩).run afterConnect
        [.spawn true .disconnect, .callOut true, .leave, .spawn false .disconnect,
          .callOut false] = some u ∧
      heard ⟨false, false, true⟩ (passwordClient.connect passwordServer fun _ => none).states ++
        u.2.map Prod.snd = ["connecting", "connected", "disconnecting", "disconnecting"] ∧
      ¬Follows ["connecting", "connected", "disconnecting", "disconnected", "disconnecting"] ∧
      ¬Follows ["connecting", "connected", "disconnecting", "disconnecting"] := by
  rw [connect_passwordClient.2.2]
  exact ⟨_, _, rfl, rfl, rfl, rfl, by decide, by decide⟩

end SshClientWasm.Ssh.Notifications
