import SshClientWasm.Tunnel.Turns

/-!
# Connecting once more

What is seen on the sockets behind a `connect()`, compared with a transport that has just
been constructed. The sockets of the earlier connections are further ones, and the queue
may hold what was not sent. Runs of the two transports are matched turn by turn.
-/
namespace SshClientWasm.Tunnel

open Library

/-- The turns of a transport that has constructed `n` sockets before. -/
def Turn.shift (n : ℕ) : Turn → Turn
  | .call c => .call c
  | .frame => .frame
  | .open i => .open (n + i)
  | .message i data => .message (n + i) data
  | .error i => .error (n + i)
  | .closing i => .closing (n + i)
  | .close i => .close (n + i)

namespace Handling

/-- A `connect()` for which the `WebSocket` constructor returns. -/
def connect (s : Handling) : Handling := { s with world := s.world.connect true }

/-- The frames dispatched since `base`, and the handshake state reached. -/
def observed (base s : Handling) : List Bytes × Bool × Bool × Int32 :=
  (receivedFrames (s.world.trace.drop base.world.trace.length), s.world.isConnected,
    s.world.tunnelReady, s.world.streamId)

/-- From a `connect()` on, the transport takes the turns of a new one, and the same is
seen of it. -/
def StartsFresh (env : Env) (s : Handling) : Prop :=
  ∀ labels : List Turn,
    ((turns env).run s.connect (labels.map (Turn.shift s.world.sockets.length))).map
        (observed s) =
      ((turns env).run (Receiver.fresh s.world.config).idle.connect labels).map
        (observed (Receiver.fresh s.world.config).idle)

/-- Nothing inbound is left: neither bytes nor frames, nor a handshake state. -/
structure Blank (s : Handling) : Prop where
  receiveBuffer : s.receiveBuffer = []
  pending : s.pending = []
  isConnected : s.world.isConnected = false
  tunnelReady : s.world.tunnelReady = false
  streamId : s.world.streamId = 1

end Handling

theorem receivedFrames_of_outbound {events : List Event} (h : ∀ e ∈ events, e.Outbound) :
    receivedFrames events = [] :=
  (received_of_handled fun e he => (h e he).handled).1

namespace World

theorem connect_eq {w : World} (htoken : w.config.accessToken ≠ "") :
    w.connect true =
      { w.log .connectCalled with
        ws := some w.sockets.length
        sockets := w.sockets ++ [.connecting] } :=
  if_neg (by simpa using htoken)

theorem dispatch_frames (env : Env) (w : World) (body : Bytes) :
    ∃ rest, (w.dispatch env body).trace = w.trace ++ .receivedFrame body :: rest ∧
      receivedFrames rest = [] := by
  obtain ⟨events, htrace, _⟩ := w.dispatch_trace env body
  obtain ⟨hframes, _⟩ := w.dispatch_received env body
  refine ⟨_, htrace, ?_⟩
  rw [htrace, receivedFrames_append] at hframes
  exact (List.cons.inj (List.append_cancel_left hframes)).2

/-- The inbound side of `w` is that of `v`, behind some earlier sockets and two records. -/
structure Alike (earlier : List ReadyState) (base base' : List Event) (w v : World) : Prop where
  config : w.config = v.config
  isConnected : w.isConnected = v.isConnected
  tunnelReady : w.tunnelReady = v.tunnelReady
  streamId : w.streamId = v.streamId
  ws : w.ws = v.ws.map (earlier.length + ·)
  sockets : w.sockets = earlier ++ v.sockets
  trace : ∃ events events', w.trace = base ++ events ∧ v.trace = base' ++ events' ∧
    receivedFrames events = receivedFrames events'

variable {env : Env} {earlier : List ReadyState} {base base' events events' : List Event}
  {w v : World}

theorem Alike.logAll (h : Alike earlier base base' w v)
    (hframes : receivedFrames events = receivedFrames events') :
    Alike earlier base base' (w.logAll events) (v.logAll events') := by
  obtain ⟨front, front', hw, hv, hsame⟩ := h.trace
  refine ⟨h.config, h.isConnected, h.tunnelReady, h.streamId, h.ws, h.sockets,
    front ++ events, front' ++ events', ?_, ?_, ?_⟩
  · rw [logAll_trace, hw, List.append_assoc]
  · rw [logAll_trace, hv, List.append_assoc]
  · rw [receivedFrames_append, receivedFrames_append, hsame, hframes]

theorem Alike.outbound (h : Alike earlier base base' w v) (hevents : ∀ e ∈ events, e.Outbound)
    (hevents' : ∀ e ∈ events', e.Outbound) :
    Alike earlier base base' (w.logAll events) (v.logAll events') :=
  h.logAll ((receivedFrames_of_outbound hevents).trans (receivedFrames_of_outbound hevents').symm)

theorem Alike.getElem? (h : Alike earlier base base' w v) (i : ℕ) :
    w.sockets[earlier.length + i]? = v.sockets[i]? := by
  rw [h.sockets, List.getElem?_append_right (Nat.le_add_right _ _), Nat.add_sub_cancel_left]

theorem Alike.unclosed (h : Alike earlier base base' w v) (i : ℕ) :
    w.Unclosed (earlier.length + i) ↔ v.Unclosed i := by
  rw [Unclosed, Unclosed, h.getElem?]

theorem Alike.set (h : Alike earlier base base' w v) (i : ℕ) (s : ReadyState) :
    w.sockets.set (earlier.length + i) s = earlier ++ v.sockets.set i s := by
  rw [h.sockets, List.set_append_right _ _ (Nat.le_add_right _ _), Nat.add_sub_cancel_left]

theorem Alike.setSocket (h : Alike earlier base base' w v) (i : ℕ) (s : ReadyState) :
    Alike earlier base base' (w.setSocket (earlier.length + i) s) (v.setSocket i s) :=
  ⟨h.config, h.isConnected, h.tunnelReady, h.streamId, h.ws, h.set i s, h.trace⟩

theorem Alike.closeSocket (h : Alike earlier base base' w v) (i : ℕ) :
    (w.closeSocket (earlier.length + i)).sockets = earlier ++ (v.closeSocket i).sockets := by
  unfold World.closeSocket
  rw [List.modify_eq_set_getElem?, List.modify_eq_set_getElem?, h.getElem?]
  cases v.sockets[i]? with
  | none => exact h.sockets
  | some s => exact h.set i _

theorem Alike.down (h : Alike earlier base base' w v) :
    Alike earlier base base' { w with isConnected := false, tunnelReady := false }
      { v with isConnected := false, tunnelReady := false } :=
  ⟨h.config, rfl, rfl, h.streamId, h.ws, h.sockets, h.trace⟩

theorem Alike.disconnect (h : Alike earlier base base' w v) :
    Alike earlier base base' (w.disconnect env) (v.disconnect env) := by
  have hlogged : Alike earlier base base' (w.logAll (w.controlWrites env w.streamReset))
      (v.logAll (v.controlWrites env v.streamReset)) :=
    h.outbound (fun e he => outbound_of_mem_controlWrites env w he)
      fun e he => outbound_of_mem_controlWrites env v he
  rw [disconnect_eq, disconnect_eq]
  refine ⟨h.config, rfl, rfl, h.streamId, rfl, ?_, hlogged.trace⟩
  dsimp only
  rw [h.ws]
  cases v.ws with
  | none => exact h.sockets
  | some i => exact h.closeSocket i

theorem Alike.connect (h : Alike earlier base base' w v) (constructs : Bool) :
    Alike earlier base base' (w.connect constructs) (v.connect constructs) := by
  have hlogged : Alike earlier base base' (w.log .connectCalled) (v.log .connectCalled) :=
    h.logAll rfl
  unfold World.connect
  dsimp only
  rw [log_config, log_config, h.config]
  split_ifs
  · exact hlogged
  · refine ⟨rfl, h.isConnected, h.tunnelReady, h.streamId, ?_, ?_, hlogged.trace⟩
    · simp [h.sockets]
    · simp [h.sockets]

theorem Alike.send (h : Alike earlier base base' w v) (data : Bytes) :
    Alike earlier base base' (w.send env data) (v.send env data) := by
  have hqueues : (w.isConnected = false ∨ w.ws = none ∨ w.tunnelReady = false) ↔
      (v.isConnected = false ∨ v.ws = none ∨ v.tunnelReady = false) := by
    rw [h.isConnected, h.ws, Option.map_eq_none_iff, h.tunnelReady]
  by_cases hqueue : v.isConnected = false ∨ v.ws = none ∨ v.tunnelReady = false
  · have hlogged : Alike earlier base base' (w.log (.sendCalled data))
        (v.log (.sendCalled data)) := h.logAll rfl
    rw [send_queued env _ hqueue, send_queued env _ (hqueues.mpr hqueue)]
    exact ⟨h.config, h.isConnected, h.tunnelReady, h.streamId, h.ws, h.sockets, hlogged.trace⟩
  · have hwrites : ∀ (x : World) (e : Event),
        e ∈ .sendCalled data :: x.dataWrites env (slices maxPayloadSize data) → e.Outbound := by
      intro x e he
      rcases List.mem_cons.mp he with rfl | he
      · trivial
      · exact outbound_of_mem_dataWrites env x he
    rw [send_direct env _ hqueue, send_direct env _ (mt hqueues.mp hqueue)]
    exact h.outbound (hwrites w) (hwrites v)

theorem Alike.apiCall (h : Alike earlier base base' w v) (c : ApiCall) :
    Alike earlier base base' (w.apiCall env c) (v.apiCall env c) := by
  cases c with
  | connect constructs => exact h.connect constructs
  | send data => exact h.send data
  | disconnect => exact h.disconnect

theorem Alike.onopen (h : Alike earlier base base' w v) :
    Alike earlier base base' (w.onopen env) (v.onopen env) := by
  have hconnected : Alike earlier base base' { w with isConnected := true }
      { v with isConnected := true } :=
    ⟨h.config, rfl, h.tunnelReady, h.streamId, h.ws, h.sockets, h.trace⟩
  have hwrites : ∀ (x : World) (e : Event), e ∈ x.opening.flatMap (x.controlWrites env) →
      e.Outbound := by
    intro x e he
    obtain ⟨m, _, hmem⟩ := List.mem_flatMap.mp he
    exact outbound_of_mem_controlWrites env x hmem
  rw [onopen_eq, onopen_eq]
  exact hconnected.outbound (hwrites w) (hwrites v)

theorem Alike.readied (h : Alike earlier base base' w v) (m : TunnelMessage) :
    Alike earlier base base' ((w.readied m).processQueuedMessages env)
      ((v.readied m).processQueuedMessages env) := by
  have hlogged : Alike earlier base base' (w.log (.receivedMessage m))
      (v.log (.receivedMessage m)) := h.logAll rfl
  have hready : Alike earlier base base' { w.readied m with messageQueue := [] }
      { v.readied m with messageQueue := [] } := by
    refine ⟨h.config, h.isConnected, rfl, ?_, h.ws, h.sockets, hlogged.trace⟩
    simp only [World.readied, h.config, h.streamId]
  rw [processQueuedMessages_eq, processQueuedMessages_eq]
  exact hready.outbound (fun e he => outbound_of_mem_dataWrites env _ he)
    fun e he => outbound_of_mem_dataWrites env _ he

theorem Alike.dispatch (h : Alike earlier base base' w v) (body : Bytes) :
    Alike earlier base base' (w.dispatch env.quiet body) (v.dispatch env.quiet body) := by
  have hframe : Alike earlier base base' (w.log (.receivedFrame body))
      (v.log (.receivedFrame body)) := h.logAll rfl
  unfold World.dispatch
  dsimp only
  rw [log_config, log_config, h.config]
  cases (env.quiet.codecs v.config.version).decode body with
  | error e =>
    have hcalled : ∀ x : World, x.invoke env.quiet env.quiet.handlers.onError (.onError e) =
        x.logAll (called env.handlers.onError (.onError e)) := fun x => x.invoke_quiet _ _
    dsimp only
    rw [hcalled, hcalled]
    exact hframe.logAll rfl
  | ok m =>
    have hreadies : (w.log (.receivedFrame body)).Readies m ↔
        (v.log (.receivedFrame body)).Readies m := by
      rw [Readies, Readies, log_config, log_config, h.config]
    dsimp only
    by_cases hready : (v.log (.receivedFrame body)).Readies m
    · rw [handleMessage_ready hready, handleMessage_ready (hreadies.mpr hready),
        processQueuedMessages_quiet, processQueuedMessages_quiet]
      exact hframe.readied m
    by_cases hreset : m.type = TunnelMessageType.sessionReset
    · rw [handleMessage_reset hreset, handleMessage_reset hreset]
      exact Alike.disconnect (hframe.logAll rfl)
    · rw [handleMessage_passed hready hreset, handleMessage_passed (mt hreadies.mp hready) hreset]
      exact hframe.logAll rfl

theorem Alike.onclose (h : Alike earlier base base' w v) :
    Alike earlier base base' (w.onclose env.quiet) (v.onclose env.quiet) := by
  rw [onclose_quiet, onclose_quiet]
  exact h.down.logAll rfl

end World

namespace Handling

/-- The transports agree on what is inbound. -/
structure Alike (earlier : List ReadyState) (base base' : List Event) (s t : Handling) : Prop where
  world : World.Alike earlier base base' s.world t.world
  receiveBuffer : s.receiveBuffer = t.receiveBuffer
  pending : s.pending = t.pending.map (Prod.map (earlier.length + ·) id)

variable {env : Env} {earlier : List ReadyState} {base base' : List Event} {s t : Handling}

theorem connect_open (env : Env) (hpending : s.pending = [])
    (htoken : s.world.config.accessToken ≠ "") :
    ∃ t, (turns env).step s.connect (.open s.world.sockets.length) = some t ∧ t.pending = [] ∧
      t.receiveBuffer = s.receiveBuffer ∧
      t.world.sockets[s.world.sockets.length]? = some .open ∧
      ∃ events, t.world.trace = s.world.trace ++ events ∧ receivedFrames events = [] := by
  have hconnecting : s.connect.world.sockets[s.world.sockets.length]? = some .connecting := by
    rw [connect, World.connect_eq htoken]
    simp
  refine ⟨_, if_pos ⟨hpending, hconnecting⟩, hpending, rfl, ?_, ?_⟩
  · rw [World.onopen_eq, connect, World.connect_eq htoken]
    simp [World.setSocket]
  · rw [World.onopen_eq, connect, World.connect_eq htoken]
    refine ⟨.connectCalled :: _, List.append_assoc .., receivedFrames_of_outbound ?_⟩
    intro e he
    rcases List.mem_cons.mp he with rfl | he
    · trivial
    · obtain ⟨m, _, hmem⟩ := List.mem_flatMap.mp he
      exact World.outbound_of_mem_controlWrites env _ hmem

theorem run_first_frame (env : Env) (hpending : s.pending = [])
    (htoken : s.world.config.accessToken ≠ "") (data : Bytes) :
    ((turns env).run s.connect
        ([Turn.open 0, .message 0 data, .frame].map (Turn.shift s.world.sockets.length))).map
        (fun t => (observed s t).1) =
      (frameCutter.next (s.receiveBuffer ++ data)).map fun p => [p.1] := by
  obtain ⟨t, hopen, hidle, hbuffer, hsocket, events, htrace, hframes⟩ :=
    connect_open env hpending htoken
  have hmessage : (turns env).step t (.message s.world.sockets.length data) = some
      { t with
        receiveBuffer := (frameCutter.cut (t.receiveBuffer ++ data)).2
        pending := (frameCutter.cut (t.receiveBuffer ++ data)).1.map
          (s.world.sockets.length, ·) } := if_pos ⟨hidle, hsocket⟩
  simp only [List.map_cons, List.map_nil, Turn.shift, Nat.add_zero]
  rw [Machine.run_cons, hopen, Option.bind_some, Machine.run_cons, hmessage, Option.bind_some,
    Machine.run_cons, hbuffer]
  cases hnext : frameCutter.next (s.receiveBuffer ++ data) with
  | none =>
    rw [frameCutter.cut_of_none hnext]
    rfl
  | some p =>
    obtain ⟨body, r⟩ := p
    obtain ⟨rest, hdispatch, hrest⟩ := World.dispatch_frames env.quiet t.world body
    have hseen : receivedFrames ((t.world.dispatch env.quiet body).trace.drop
        s.world.trace.length) = [body] := by
      rw [hdispatch, htrace, List.append_assoc, List.drop_left, receivedFrames_append, hframes]
      exact congrArg (body :: ·) hrest
    rw [frameCutter.cut_of_some hnext]
    exact congrArg some hseen

/-- A transport that starts like a new one has nothing inbound left: the start of a frame
in the buffer would shift the frames of the new connection. -/
theorem StartsFresh.blank (hincomplete : frameCutter.next s.receiveBuffer = none)
    (htoken : s.world.config.accessToken ≠ "") (h : s.StartsFresh env) : s.Blank := by
  have hnow : observed s s.connect = observed (Receiver.fresh s.world.config).idle
      (Receiver.fresh s.world.config).idle.connect := Option.some.inj (h [])
  have hpending : s.pending = [] := by
    obtain ⟨w, buffer, pending⟩ := s
    cases pending with
    | nil => rfl
    | cons p rest => cases h [.frame]
  have hbuffer : s.receiveBuffer = [] := by
    by_contra hne
    obtain ⟨data, body, r, hnext, hother⟩ := nextFrame_shifted hne hincomplete
    have hstale := run_first_frame env hpending htoken data
    have hfresh := run_first_frame env (s := (Receiver.fresh s.world.config).idle) rfl htoken data
    have hsame := congrArg (Option.map Prod.fst) (h [.open 0, .message 0 data, .frame])
    rw [Option.map_map, Option.map_map] at hsame
    have hfirst : (frameCutter.next (s.receiveBuffer ++ data)).map (fun p => [p.1]) =
        (frameCutter.next data).map fun p => [p.1] := hstale.symm.trans (hsame.trans hfresh)
    rw [show frameCutter.next (s.receiveBuffer ++ data) = some (body, r) from hnext] at hfirst
    obtain ⟨⟨body', r'⟩, hnext', heq⟩ := Option.map_eq_some_iff.mp hfirst.symm
    exact hother body' r' hnext' (List.cons.inj heq).1
  have htoken' : (Receiver.fresh s.world.config).idle.world.config.accessToken ≠ "" := htoken
  rw [observed, observed, connect, connect, World.connect_eq htoken,
    World.connect_eq htoken'] at hnow
  simp only [Prod.mk.injEq] at hnow
  exact ⟨hbuffer, hpending, hnow.2.1, hnow.2.2.1, hnow.2.2.2⟩

end Handling

end SshClientWasm.Tunnel
