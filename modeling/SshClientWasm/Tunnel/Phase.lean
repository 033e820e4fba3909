import SshClientWasm.Tunnel.Session

/-!
# The phases of a single connection

As long as `connect()` has been called at most once, the transport has at most
one socket, and its flags are determined by the phase that socket is in: nothing
is ready before the socket opens, and nothing can be written once it is over.
-/
namespace SshClientWasm.Tunnel

open Library

inductive Phase
  | idle
  | connecting
  | active
  | ended
  deriving DecidableEq, Repr

namespace World

/-- The phase of the only socket; letting go of it ends the connection. -/
def phase (w : World) : Phase :=
  match w.sockets, w.ws with
  | [], _ => .idle
  | .connecting :: _, some _ => .connecting
  | .open :: _, some _ => .active
  | _, _ => .ended

/-- `connect()` was called at most once. -/
def Single (w : World) : Prop := connectCalls w.trace ≤ 1

/-- What holds in every state of a single connection. -/
structure Steady (w : World) : Prop where
  sockets_le : w.sockets.length ≤ connectCalls w.trace
  ws_lt : ∀ i, w.ws = some i → i < w.sockets.length
  quiet : w.phase = .idle ∨ w.phase = .connecting → w.isConnected = false ∧ w.tunnelReady = false
  connected : w.phase = .active → w.isConnected = true

theorem fresh_steady (config : SecureTunnelConfig) : (fresh config).Steady where
  sockets_le := Nat.zero_le _
  ws_lt := by simp [fresh]
  quiet := fun _ => ⟨rfl, rfl⟩
  connected := by simp [fresh, phase]

variable {env : Env} {w w' : World}

@[simp] theorem phase_log (e : Event) : (w.log e).phase = w.phase := rfl

@[simp] theorem phase_logAll (events : List Event) : (w.logAll events).phase = w.phase := rfl

theorem phase_eq_idle : w.phase = .idle ↔ w.sockets = [] := by
  unfold phase
  split <;> simp_all

theorem Steady.sockets_length (h : w.Steady) (hsingle : w.Single) : w.sockets.length ≤ 1 :=
  h.sockets_le.trans hsingle

theorem Steady.sockets_cases (h : w.Steady) (hsingle : w.Single) :
    w.sockets = [] ∨ ∃ s, w.sockets = [s] := by
  have hlen := h.sockets_length hsingle
  rcases hs : w.sockets with _ | ⟨s, _ | ⟨t, rest⟩⟩
  · exact Or.inl rfl
  · exact Or.inr ⟨s, rfl⟩
  · rw [hs] at hlen
    simp at hlen

theorem Steady.socketOpen (h : w.Steady) (hsingle : w.Single) :
    w.socketOpen = if w.phase = .active then some 0 else none := by
  rcases h.sockets_cases hsingle with hs | ⟨s, hs⟩
  · cases hws : w.ws with
    | none => simp [World.socketOpen, phase, hs, hws]
    | some i => simp [World.socketOpen, phase, hs, hws]
  · cases hws : w.ws with
    | none => simp [World.socketOpen, phase, hs, hws]
    | some i =>
      have hi := h.ws_lt i hws
      rw [hs, List.length_singleton] at hi
      obtain rfl : i = 0 := by omega
      cases s <;> simp [World.socketOpen, phase, hs, hws, Option.filter]

/-- The frames of several messages, written to the only socket. -/
def writes (env : Env) (w : World) (messages : List MessageFields) : List Event :=
  messages.map fun m => .wrote 0 m (frame ((env.codecs w.config.version).encode m))

section Writes

variable (messages : List MessageFields)

@[simp] theorem writtenMessages_writes : writtenMessages (w.writes env messages) = messages := by
  induction messages with
  | nil => rfl
  | cons m messages ih => exact congrArg (m :: ·) ih

@[simp] theorem sendCalls_writes : sendCalls (w.writes env messages) = [] := by
  induction messages with
  | nil => rfl
  | cons m messages ih => exact ih

@[simp] theorem receivedMessages_writes : receivedMessages (w.writes env messages) = [] := by
  induction messages with
  | nil => rfl
  | cons m messages ih => exact ih

end Writes

theorem Steady.dataWrites (env : Env) (h : w.Steady) (hsingle : w.Single) (chunks : List Bytes) :
    w.dataWrites env chunks =
      if w.phase = .active then w.writes env (chunks.map w.dataMessage) else [] := by
  rw [World.dataWrites, h.socketOpen hsingle]
  split_ifs
  · simp [writes]
  · rfl

theorem Steady.controlWrites (env : Env) (h : w.Steady) (hsingle : w.Single) (m : MessageFields) :
    w.controlWrites env m = if w.phase = .active then w.writes env [m] else [] := by
  rw [World.controlWrites, h.socketOpen hsingle]
  split_ifs
  · rfl
  · rfl

/-- The fields that no socket event changes before the connection is over. -/
structure Same (w w' : World) : Prop where
  config : w'.config = w.config
  streamId : w'.streamId = w.streamId
  tunnelReady : w'.tunnelReady = w.tunnelReady
  messageQueue : w'.messageQueue = w.messageQueue

/-- All that an effect can do to a single connection. -/
inductive Transition (env : Env) (w : World) : World → Prop
  | stutter : Transition env w w
  | note (e : Event) (hpassive : w.Passive e) : Transition env w (w.log e)
  | connect (w' : World) (hidle : w.phase = .idle)
      (hphase : w'.phase = .idle ∨ w'.phase = .connecting)
      (htrace : w'.trace = w.trace ++ [.connectCalled]) (hsame : Same w w') : Transition env w w'
  | queue (data : Bytes) (hphase : w.phase ≠ .ended)
      (hwait : ¬ (w.phase = .active ∧ w.tunnelReady = true)) :
      Transition env w
        { w.log (.sendCalled data) with messageQueue := w.messageQueue ++ [data] }
  | transmit (data : Bytes) (hopen : w.phase = .active) (hready : w.tunnelReady = true) :
      Transition env w ((w.log (.sendCalled data)).logAll
        (w.writes env ((slices maxPayloadSize data).map w.dataMessage)))
  | ready (m : TunnelMessage) (hopen : w.phase = .active) (hm : w.Readies m) :
      Transition env w ({ w.readied m with messageQueue := [] }.logAll
        (w.writes env
          ((w.messageQueue.flatMap (slices maxPayloadSize)).map (w.readied m).dataMessage)))
  | opened (w' : World) (hphase : w.phase = .connecting) (hphase' : w'.phase = .active)
      (htrace : w'.trace = w.trace ++ w.writes env w.opening) (hsame : Same w w') :
      Transition env w w'
  | ends (w' : World) (messages : List MessageFields)
      (hphase : w.phase = .connecting ∨ w.phase = .active) (hphase' : w'.phase = .ended)
      (hmessages : messages = [] ∨ w.phase = .active ∧ messages = [w.streamReset])
      (htrace : w'.trace = w.trace ++ w.writes env messages) (hconfig : w'.config = w.config) :
      Transition env w w'
  | ended (w' : World) (events : List Event) (hphase : w.phase = .ended)
      (hphase' : w'.phase = .ended) (htrace : w'.trace = w.trace ++ events)
      (hwrites : writtenMessages events = []) (hconfig : w'.config = w.config) :
      Transition env w w'

theorem Effect.trace_grows (h : Effect env w w') : w.trace <+: w'.trace := by
  cases h with
  | note e h => exact List.prefix_append _ _
  | call c =>
    obtain ⟨events, htrace, _⟩ := apiCall_extends env w c
    exact ⟨events, htrace.symm⟩
  | ready m h hstarted =>
    rw [processQueuedMessages_eq, logAll_trace]
    exact (List.prefix_append _ _).trans (List.prefix_append _ _)
  | opened i h =>
    rw [onopen_eq, logAll_trace]
    exact List.prefix_append _ _
  | closing i h => exact List.prefix_rfl
  | closed i h => exact List.prefix_rfl

theorem connectCalls_le (h : w.trace <+: w'.trace) :
    connectCalls w.trace ≤ connectCalls w'.trace :=
  h.sublist.count_le _

theorem Effect.single (h : Effect env w w') (hsingle : w'.Single) : w.Single :=
  (connectCalls_le h.trace_grows).trans hsingle

theorem Steady.congr (h : w.Steady) (hsockets : w'.sockets = w.sockets) (hws : w'.ws = w.ws)
    (htrace : w.trace <+: w'.trace) (hconnected : w'.isConnected = w.isConnected)
    (hready : w'.tunnelReady = w.tunnelReady ∨ w.phase = .active ∨ w.phase = .ended) :
    w'.Steady := by
  have hphase : w'.phase = w.phase := by rw [phase, phase, hsockets, hws]
  refine ⟨?_, ?_, ?_, ?_⟩
  · rw [hsockets]
    exact h.sockets_le.trans (connectCalls_le htrace)
  · rw [hws, hsockets]
    exact h.ws_lt
  · intro hquiet
    rw [hphase] at hquiet
    rcases hready with hready | hopen | hover
    · rw [hconnected, hready]
      exact h.quiet hquiet
    · simp [hopen] at hquiet
    · simp [hover] at hquiet
  · intro hopen
    rw [hphase] at hopen
    rw [hconnected]
    exact h.connected hopen

theorem Steady.ended (hsockets : w.sockets.length ≤ connectCalls w.trace)
    (hws : ∀ i, w.ws = some i → i < w.sockets.length) (hphase : w.phase = .ended) : w.Steady where
  sockets_le := hsockets
  ws_lt := hws
  quiet := by simp [hphase]
  connected := by simp [hphase]

theorem ws_ne_none_of_open (h : w.phase = .active) : w.ws ≠ none := by
  intro hws
  unfold phase at h
  split at h <;> simp_all

theorem Steady.send_steady (h : w.Steady) (data : Bytes) : (w.send env data).Steady := by
  have htrace : w.trace <+: (w.send env data).trace :=
    (Effect.call w (.send data) : Effect env w (w.apiCall env (.send data))).trace_grows
  unfold World.send at htrace ⊢
  dsimp only at htrace ⊢
  split_ifs at htrace ⊢
  · exact h.congr rfl rfl htrace rfl (Or.inl rfl)
  · rw [sendDataFrame_eq] at htrace ⊢
    exact h.congr rfl rfl htrace rfl (Or.inl rfl)

theorem Steady.send_transition (h : w.Steady) (hsingle : w.Single) (data : Bytes) :
    Transition env w (w.send env data) := by
  have hsteady : (w.log (.sendCalled data)).Steady :=
    h.congr rfl rfl (List.prefix_append _ _) rfl (Or.inl rfl)
  have hsingle' : (w.log (.sendCalled data)).Single := by
    simpa [Single, connectCalls] using hsingle
  have hwrites := hsteady.dataWrites env hsingle' (slices maxPayloadSize data)
  by_cases hover : w.phase = .ended
  · have hnone : (w.log (.sendCalled data)).dataWrites env (slices maxPayloadSize data) = [] := by
      rw [hwrites, phase_log, hover]
      rfl
    have htrace : (w.send env data).trace = w.trace ++ [.sendCalled data] := by
      unfold World.send
      dsimp only
      split_ifs
      · rfl
      · rw [sendDataFrame_eq, hnone, logAll_nil, log_trace]
    apply Transition.ended _ [.sendCalled data] hover _ htrace rfl (apiCall_config env w (.send data))
    unfold World.send
    dsimp only
    split_ifs
    · exact hover
    · rw [sendDataFrame_eq]
      exact hover
  · by_cases hdirect : w.phase = .active ∧ w.tunnelReady = true
    · obtain ⟨hopen, hready⟩ := hdirect
      have heq : w.send env data = (w.log (.sendCalled data)).logAll
          (w.writes env ((slices maxPayloadSize data).map w.dataMessage)) := by
        unfold World.send
        dsimp only
        rw [if_neg]
        · rw [sendDataFrame_eq, hwrites, phase_log, if_pos hopen]
          rfl
        · simp [h.connected hopen, hready, ws_ne_none_of_open hopen]
      rw [heq]
      exact .transmit data hopen hready
    · have heq : w.send env data =
          { w.log (.sendCalled data) with messageQueue := w.messageQueue ++ [data] } := by
        unfold World.send
        dsimp only
        rw [if_pos]
        · rfl
        · cases hphase : w.phase with
          | idle => exact Or.inl (h.quiet (Or.inl hphase)).1
          | connecting => exact Or.inl (h.quiet (Or.inr hphase)).1
          | active => exact Or.inr (Or.inr (by simpa [hphase] using hdirect))
          | ended => exact absurd hphase hover
      rw [heq]
      exact .queue data hover hdirect

theorem phase_of_ws_none (hws : w.ws = none) (hsockets : w.sockets ≠ []) : w.phase = .ended := by
  unfold phase
  rcases hs : w.sockets with _ | ⟨s, rest⟩
  · exact absurd hs hsockets
  · cases s <;> simp [hws]

theorem phase_of_finished {s : ReadyState} (hsockets : w.sockets = [s])
    (hs : s = .closing ∨ s = .closed) : w.phase = .ended := by
  unfold phase
  rcases hs with rfl | rfl
  · rw [hsockets]
  · rw [hsockets]

theorem Transition.finish (hidle : w.phase ≠ .idle) (hphase : w'.phase = .ended)
    (htrace : w'.trace = w.trace) (hconfig : w'.config = w.config) : Transition env w w' := by
  have hends : w.phase = .connecting ∨ w.phase = .active → Transition env w w' := fun h =>
    .ends w' [] h hphase (Or.inl rfl) (htrace.trans (List.append_nil _).symm) hconfig
  cases hw : w.phase with
  | idle => exact absurd hw hidle
  | connecting => exact hends (Or.inl hw)
  | active => exact hends (Or.inr hw)
  | ended => exact .ended w' [] hw hphase (htrace.trans (List.append_nil _).symm) rfl hconfig

theorem Steady.disconnect (h : w.Steady) (hsingle : w.Single) :
    Transition env w (w.disconnect env) ∧ (w.disconnect env).Steady := by
  have hwrites := h.controlWrites env hsingle w.streamReset
  have htrace : w.trace <+: (w.disconnect env).trace :=
    (Effect.call w .disconnect : Effect env w (w.apiCall env .disconnect)).trace_grows
  rw [disconnect_eq] at htrace ⊢
  by_cases hsockets : w.sockets = []
  · have hidle : w.phase = .idle := phase_eq_idle.mpr hsockets
    have hws : w.ws = none := by
      cases hws : w.ws with
      | none => rfl
      | some i => simpa [hsockets] using h.ws_lt i hws
    obtain ⟨hconnected, hready⟩ := h.quiet (Or.inl hidle)
    have hsame : ({ w.logAll (w.controlWrites env w.streamReset) with
        ws := none
        isConnected := false
        tunnelReady := false
        sockets := w.ws.elim w.sockets fun i => (w.closeSocket i).sockets } : World) = w := by
      rw [hwrites, hidle, if_neg (by decide), logAll_nil, hws]
      cases w
      simp_all
    rw [hsame]
    exact ⟨.stutter, h⟩
  · have hsockets' : (w.ws.elim w.sockets fun i => (w.closeSocket i).sockets).length =
        w.sockets.length := by
      cases w.ws with
      | none => rfl
      | some i => simp [closeSocket]
    have hended : ({ w.logAll (w.controlWrites env w.streamReset) with
        ws := none
        isConnected := false
        tunnelReady := false
        sockets := w.ws.elim w.sockets fun i => (w.closeSocket i).sockets } : World).phase =
          .ended := by
      apply phase_of_ws_none rfl
      rw [← List.length_pos_iff, hsockets']
      exact List.length_pos_iff.mpr hsockets
    constructor
    · by_cases hactive : w.phase = .active
      · rw [hwrites, if_pos hactive] at hended ⊢
        exact .ends _ [w.streamReset] (Or.inr hactive) hended (Or.inr ⟨hactive, rfl⟩) rfl rfl
      · rw [hwrites, if_neg hactive, logAll_nil] at hended ⊢
        exact .finish (fun hidle => hsockets (phase_eq_idle.mp hidle)) hended rfl rfl
    · apply Steady.ended _ _ hended
      · exact hsockets'.le.trans (h.sockets_le.trans (connectCalls_le htrace))
      · simp

theorem Steady.connect (h : w.Steady) (constructs : Bool) (hsingle : (w.connect constructs).Single) :
    Transition env w (w.connect constructs) ∧ (w.connect constructs).Steady := by
  have htrace : (w.connect constructs).trace = w.trace ++ [.connectCalled] := by
    unfold World.connect
    dsimp only
    split_ifs <;> rfl
  have hnone : connectCalls w.trace = 0 := by
    have hle := hsingle
    rw [Single, htrace, connectCalls_append] at hle
    have hone : connectCalls [.connectCalled] = 1 := rfl
    omega
  have hsockets : w.sockets = [] := by
    apply List.length_eq_zero_iff.mp
    have hle := h.sockets_le
    omega
  have hidle : w.phase = .idle := phase_eq_idle.mpr hsockets
  have hquiet := h.quiet (Or.inl hidle)
  unfold World.connect at htrace ⊢
  dsimp only at htrace ⊢
  split_ifs at htrace ⊢
  · constructor
    · exact .connect _ hidle (Or.inl hidle) htrace ⟨rfl, rfl, rfl, rfl⟩
    · exact h.congr rfl rfl (htrace ▸ List.prefix_append _ _) rfl (Or.inl rfl)
  · have hphase : ({ w.log .connectCalled with
        ws := some (w.log .connectCalled).sockets.length
        sockets := (w.log .connectCalled).sockets ++ [.connecting] } : World).phase =
          .connecting := by
      simp [phase, hsockets]
    constructor
    · exact .connect _ hidle (Or.inr hphase) htrace ⟨rfl, rfl, rfl, rfl⟩
    · refine ⟨?_, ?_, fun _ => hquiet, ?_⟩
      · simp [hsockets, connectCalls]
      · simp
      · intro hactive
        rw [hphase] at hactive
        cases hactive

theorem Started.phase_cases (hstarted : w.Started) (h : w.Steady) (hsingle : w.Single) :
    w.phase = .active ∨ w.phase = .ended := by
  obtain ⟨s, hs, hne⟩ := hstarted
  rcases h.sockets_cases hsingle with hnil | ⟨t, hone⟩
  · simp [hnil] at hs
  · rw [hone, List.mem_singleton] at hs
    subst hs
    unfold phase
    rw [hone]
    cases s <;> cases w.ws <;> simp_all

theorem Steady.ready (h : w.Steady) (hsingle : w.Single) (m : TunnelMessage) (hm : w.Readies m)
    (hstarted : w.Started) :
    Transition env w ((w.readied m).processQueuedMessages env) ∧
      ((w.readied m).processQueuedMessages env).Steady := by
  have hphase := hstarted.phase_cases h hsingle
  have hsteady : (w.readied m).Steady :=
    h.congr rfl rfl (List.prefix_append _ _) rfl (Or.inr hphase)
  have hsingle' : (w.readied m).Single := by
    simpa [Single, readied, connectCalls] using hsingle
  have hwrites := hsteady.dataWrites env hsingle'
    ((w.readied m).messageQueue.flatMap (slices maxPayloadSize))
  have hsame : (w.readied m).phase = w.phase := rfl
  rw [processQueuedMessages_eq, hwrites, hsame]
  constructor
  · rcases hphase with hactive | hended
    · rw [if_pos hactive]
      exact .ready m hactive hm
    · rw [if_neg (by simp [hended]), logAll_nil]
      exact .ended _ [.receivedMessage m] hended hended rfl rfl rfl
  · exact hsteady.congr rfl rfl (List.prefix_append _ _) rfl (Or.inl rfl)

theorem Steady.only_socket (h : w.Steady) (hsingle : w.Single) {i : ℕ} {s : ReadyState}
    (hi : w.sockets[i]? = some s) : i = 0 ∧ w.sockets = [s] := by
  rcases h.sockets_cases hsingle with hnil | ⟨t, hone⟩
  · simp [hnil] at hi
  · obtain ⟨hlt, heq⟩ := List.getElem?_eq_some_iff.mp hi
    rw [hone, List.length_singleton] at hlt
    obtain rfl : i = 0 := by omega
    simp only [hone, List.getElem_cons_zero] at heq
    exact ⟨rfl, heq ▸ hone⟩

theorem writes_flatMap (messages : List MessageFields) :
    messages.flatMap (fun m => w.writes env [m]) = w.writes env messages := by
  induction messages with
  | nil => rfl
  | cons m messages ih => rw [List.flatMap_cons, ih]; rfl

theorem Steady.opened (h : w.Steady) (hsingle : w.Single) {i : ℕ}
    (hi : w.sockets[i]? = some .connecting) :
    Transition env w ((w.setSocket i .open).onopen env) ∧
      ((w.setSocket i .open).onopen env).Steady := by
  obtain ⟨rfl, hsockets⟩ := h.only_socket hsingle hi
  have hset : w.sockets.set 0 .open = [.open] := by rw [hsockets]; rfl
  rw [onopen_eq]
  cases hws : w.ws with
  | none =>
    have hended : w.phase = .ended := phase_of_ws_none hws (by simp [hsockets])
    have hended' : ({ w.setSocket 0 .open with isConnected := true } : World).phase = .ended :=
      phase_of_ws_none hws (by simp [setSocket, hset])
    have hclosed : ∀ m, (w.setSocket 0 .open).controlWrites env m = [] := by
      intro m
      simp [World.controlWrites, World.socketOpen, setSocket, hws]
    have hnone : (w.setSocket 0 .open).opening.flatMap ((w.setSocket 0 .open).controlWrites env) =
        [] := by
      simp [hclosed]
    rw [hnone, logAll_nil]
    constructor
    · exact .finish (by simp [hended]) hended' rfl rfl
    · apply Steady.ended _ _ hended'
      · exact List.length_set.le.trans h.sockets_le
      · simp [setSocket, hws]
  | some j =>
    have hj := h.ws_lt j hws
    rw [hsockets, List.length_singleton] at hj
    obtain rfl : j = 0 := by omega
    have hconnecting : w.phase = .connecting := by simp [phase, hsockets, hws]
    have hquiet := h.quiet (Or.inr hconnecting)
    have hactive : ({ w.setSocket 0 .open with isConnected := true } : World).phase = .active := by
      simp [phase, setSocket, hset, hws]
    have hopen : (w.setSocket 0 .open).socketOpen = some 0 := by
      simp [World.socketOpen, setSocket, hset, hws]
    have hwrites : (w.setSocket 0 .open).opening.flatMap
        ((w.setSocket 0 .open).controlWrites env) = w.writes env w.opening := by
      have hone : (w.setSocket 0 .open).controlWrites env = fun m => w.writes env [m] := by
        funext m
        simp only [World.controlWrites, hopen]
        rfl
      rw [hone]
      exact writes_flatMap _
    rw [hwrites]
    constructor
    · exact .opened _ hconnecting hactive rfl ⟨rfl, rfl, rfl, rfl⟩
    · refine ⟨?_, ?_, ?_, fun _ => rfl⟩
      · apply le_trans _ (connectCalls_le (List.prefix_append _ _))
        exact List.length_set.le.trans h.sockets_le
      · intro k hk
        exact (h.ws_lt k hk).trans_eq List.length_set.symm
      · intro hquiet
        rw [phase_logAll, hactive] at hquiet
        simp at hquiet

theorem Steady.finished (h : w.Steady) (hsingle : w.Single) {i : ℕ} {s : ReadyState}
    (hi : w.Unclosed i) (hs : s = .closing ∨ s = .closed)
    (hsockets : w'.sockets = w.sockets.set i s) (hws : w'.ws = w.ws)
    (htrace : w'.trace = w.trace) (hconfig : w'.config = w.config) :
    Transition env w w' ∧ w'.Steady := by
  obtain ⟨t, ht, _⟩ := hi
  obtain ⟨rfl, hone⟩ := h.only_socket hsingle ht
  have hset : w'.sockets = [s] := by rw [hsockets, hone]; rfl
  have hended := phase_of_finished hset hs
  constructor
  · apply Transition.finish _ hended htrace hconfig
    intro hidle
    rw [phase_eq_idle.mp hidle] at hone
    cases hone
  · apply Steady.ended _ _ hended
    · rw [hsockets, htrace, List.length_set]
      exact h.sockets_le
    · rw [hsockets, hws, List.length_set]
      exact h.ws_lt

/-- In a single connection every effect is one of the transitions, and steady
states lead to steady states. -/
theorem Effect.transition (heffect : Effect env w w') (hsingle' : w'.Single) (h : w.Steady) :
    Transition env w w' ∧ w'.Steady := by
  have hsingle := heffect.single hsingle'
  cases heffect with
  | note e hpassive =>
    exact ⟨.note e hpassive, h.congr rfl rfl (List.prefix_append _ _) rfl (Or.inl rfl)⟩
  | call c =>
    cases c with
    | connect constructs => exact h.connect constructs hsingle'
    | send data => exact ⟨h.send_transition hsingle data, h.send_steady data⟩
    | disconnect => exact h.disconnect hsingle
  | ready m hm hstarted => exact h.ready hsingle m hm hstarted
  | opened i hi => exact h.opened hsingle hi
  | closing i hi => exact h.finished hsingle hi (Or.inl rfl) rfl rfl rfl rfl
  | closed i hi => exact h.finished hsingle hi (Or.inr rfl) rfl rfl rfl rfl

end World

/-- Along the runs of a fresh transport with a single connection, every state is
steady, and what the transitions preserve is preserved. -/
theorem session_single_invariant {env : Env} {J : World → Prop}
    (htransition : ∀ w w', World.Transition env w w' → w.Steady → J w → J w')
    {config : SecureTunnelConfig} {labels : List Input} {r : Receiver}
    (hrun : (session env).run (.fresh config) labels = some r) (hsingle : r.world.Single)
    (hfresh : J (.fresh config)) : r.world.Steady ∧ J r.world := by
  have hinv := (session env).run_invariant
    (I := fun r => r.world.Single → r.world.Steady ∧ J r.world) ?_ labels (.fresh config) r
    (fun _ => ⟨World.fresh_steady config, hfresh⟩) hrun
  · exact hinv hsingle
  · intro s a t hs hstep
    apply (session_step_effects env hstep).invariant (I := fun w => w.Single → w.Steady ∧ J w) _ hs
    intro w w' heffect hw hsingle'
    obtain ⟨hsteady, hJ⟩ := hw (heffect.single hsingle')
    obtain ⟨htrans, hsteady'⟩ := heffect.transition hsingle' hsteady
    exact ⟨hsteady', htransition w w' htrans hsteady hJ⟩

end SshClientWasm.Tunnel
