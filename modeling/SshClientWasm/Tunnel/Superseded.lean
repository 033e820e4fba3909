import SshClientWasm.Tunnel.Turns

/-!
# Events of a superseded socket

`disconnect()` and `connect()` replace `this.ws`, and the handlers of the old socket stay
installed. They write the fields of the transport, whatever its socket is by then.
-/
namespace SshClientWasm.Tunnel

open Library

/-- The socket whose event a turn is, or whose handler it continues. -/
def Turn.socket (s : Handling) : Turn → Option ℕ
  | .call _ => none
  | .frame => s.pending.head?.map Prod.fst
  | .open i | .message i _ | .error i | .closing i | .close i => some i

/-- Neither `onData` nor `onClose` is among the events. -/
def Unheard (events : List Event) : Prop :=
  .onClose ∉ events ∧ ∀ payload, .onData payload ∉ events

/-- The fields are as before, and if there is a current connection it hears nothing. -/
structure Unmoved (s s' : Handling) : Prop where
  isConnected : s'.world.isConnected = s.world.isConnected
  tunnelReady : s'.world.tunnelReady = s.world.tunnelReady
  streamId : s'.world.streamId = s.world.streamId
  messageQueue : s'.world.messageQueue = s.world.messageQueue
  receiveBuffer : s'.receiveBuffer = s.receiveBuffer
  unheard : s.world.ws ≠ none →
    ∃ events, s'.world.trace = s.world.trace ++ events ∧ Unheard events

/-- A turn of a socket that is not `this.ws` moves nothing. -/
def Inert (s : Handling) (a : Turn) (s' : Handling) : Prop :=
  ∀ i, a.socket s = some i → s.world.ws ≠ some i → Unmoved s s'

/-- The callback is not installed, or there is no current connection to hear of it. -/
def Deaf (s : Handling) (callback : Option (List Event → List ApiCall)) : Prop :=
  s.world.ws ≠ none → callback = none

/-- A message that finds nothing to do: the tunnel is ready with its stream id and an empty
queue, it is down already, or nobody listens. -/
structure Idle (env : Env) (s : Handling) (m : TunnelMessage) : Prop where
  ready : s.world.Readies m → s.world.tunnelReady = true ∧ s.world.messageQueue = [] ∧
    (s.world.config.clientMode = .destination → m.streamId = s.world.streamId)
  reset : m.type = TunnelMessageType.sessionReset →
    s.world.isConnected = false ∧ s.world.tunnelReady = false
  data : m.type = TunnelMessageType.data → Deaf s env.handlers.onData
  closed : m.type = TunnelMessageType.streamReset → Deaf s env.handlers.onClose

/-- Where the turn of a superseded socket moves nothing. -/
def Moot (env : Env) (s : Handling) : Turn → Prop
  | .open _ => s.world.isConnected = true
  | .message _ data => (frameCutter.cut (s.receiveBuffer ++ data)).2 = s.receiveBuffer
  | .frame =>
    ∀ i body rest m, s.pending = (i, body) :: rest →
      (env.codecs s.world.config.version).decode body = .ok m → Idle env s m
  | .close _ =>
    s.world.isConnected = false ∧ s.world.tunnelReady = false ∧ Deaf s env.handlers.onClose
  | .call _ | .error _ | .closing _ => True

/-- Every turn of a socket that is not `this.ws` comes when it is moot. -/
def Harmless (env : Env) (s : Handling) (a : Turn) : Prop :=
  ∀ i, a.socket s = some i → s.world.ws ≠ some i → Moot env s a

variable {env : Env} {s s' : Handling} {a : Turn} {events : List Event}

theorem unheard_cons {e : Event} (hclose : e ≠ .onClose) (hdata : ∀ payload, e ≠ .onData payload) :
    Unheard (e :: events) ↔ Unheard events := by
  unfold Unheard
  simp only [List.mem_cons, not_or]
  constructor
  · rintro ⟨⟨_, h⟩, h'⟩
    exact ⟨h, fun payload => (h' payload).2⟩
  · rintro ⟨h, h'⟩
    exact ⟨⟨hclose.symm, h⟩, fun payload => ⟨(hdata payload).symm, h' payload⟩⟩

theorem unheard_of_outbound (h : ∀ e ∈ events, e.Outbound) : Unheard events :=
  ⟨fun hmem => h _ hmem, fun _ hmem => h _ hmem⟩

theorem unheard_nil : Unheard [] := unheard_of_outbound fun _ hmem => absurd hmem List.not_mem_nil

theorem unheard_called {callback : Option (List Event → List ApiCall)} {e : Event}
    (he : e = .onClose ∨ ∃ payload, e = .onData payload) :
    Unheard (called callback e) ↔ callback = none := by
  cases callback with
  | none => exact iff_of_true unheard_nil rfl
  | some react =>
    refine iff_of_false ?_ (Option.some_ne_none react)
    rintro ⟨hclose, hdata⟩
    rcases he with rfl | ⟨payload, rfl⟩
    · exact hclose (List.mem_singleton_self _)
    · exact hdata payload (List.mem_singleton_self _)

theorem unheard_forwarded {m : TunnelMessage} :
    Unheard (forwarded env m) ↔
      (m.type = TunnelMessageType.data → env.handlers.onData = none) ∧
        (m.type = TunnelMessageType.streamReset → env.handlers.onClose = none) := by
  unfold forwarded
  by_cases hdata : m.type = TunnelMessageType.data
  · have hreset : m.type ≠ TunnelMessageType.streamReset := by
      rw [hdata]
      decide
    rw [if_pos hdata, unheard_called (Or.inr ⟨m.payload, rfl⟩)]
    constructor
    · exact fun h => ⟨fun _ => h, fun htype => absurd htype hreset⟩
    · exact fun h => h.1 hdata
  rw [if_neg hdata]
  by_cases hreset : m.type = TunnelMessageType.streamReset
  · rw [if_pos hreset, unheard_called (Or.inl rfl)]
    constructor
    · exact fun h => ⟨fun htype => absurd htype hdata, fun _ => h⟩
    · exact fun h => h.2 hreset
  · rw [if_neg hreset]
    exact iff_of_true unheard_nil ⟨fun h => absurd h hdata, fun h => absurd h hreset⟩

theorem unmoved_iff (htrace : s'.world.trace = s.world.trace ++ events) :
    Unmoved s s' ↔
      s'.world.isConnected = s.world.isConnected ∧ s'.world.tunnelReady = s.world.tunnelReady ∧
      s'.world.streamId = s.world.streamId ∧ s'.world.messageQueue = s.world.messageQueue ∧
      s'.receiveBuffer = s.receiveBuffer ∧ (s.world.ws ≠ none → Unheard events) := by
  constructor
  · rintro ⟨hconnected, hready, hstream, hqueue, hbuffer, hheard⟩
    refine ⟨hconnected, hready, hstream, hqueue, hbuffer, fun hws => ?_⟩
    obtain ⟨events', htrace', hunheard⟩ := hheard hws
    rwa [List.append_cancel_left (htrace.symm.trans htrace')]
  · rintro ⟨hconnected, hready, hstream, hqueue, hbuffer, hheard⟩
    exact ⟨hconnected, hready, hstream, hqueue, hbuffer, fun hws => ⟨events, htrace, hheard hws⟩⟩

section Frame

variable {body : Bytes} {m : TunnelMessage}

theorem unheard_received :
    Unheard (.receivedFrame body :: .receivedMessage m :: events) ↔ Unheard events := by
  rw [unheard_cons (by simp) (by simp), unheard_cons (by simp) (by simp)]

theorem unheard_called_onError (callback : Option (List Event → List ApiCall)) (text : String) :
    Unheard (called callback (.onError text)) := by
  unfold called
  split_ifs
  · exact (unheard_cons (by simp) (by simp)).mpr unheard_nil
  · exact unheard_nil

theorem ready_unmoved_iff (hready : s.world.Readies m)
    (hnext : s'.world =
      ((s.world.log (.receivedFrame body)).readied m).processQueuedMessages env)
    (hbuffer : s'.receiveBuffer = s.receiveBuffer) : Unmoved s s' ↔ Idle env s m := by
  have hother : m.type ≠ TunnelMessageType.sessionReset ∧ m.type ≠ TunnelMessageType.data ∧
      m.type ≠ TunnelMessageType.streamReset := by
    rcases hready with ⟨htype, _⟩ | ⟨htype, _⟩
    · rw [htype]
      decide
    · rw [htype]
      decide
  have htrace : s'.world.trace = s.world.trace ++ (.receivedFrame body :: .receivedMessage m ::
      ((s.world.log (.receivedFrame body)).readied m).dataWrites env
        (s.world.messageQueue.flatMap (slices World.maxPayloadSize))) := by
    rw [hnext, World.processQueuedMessages_eq]
    exact (List.append_assoc ..).trans (List.append_assoc ..)
  rw [unmoved_iff htrace, hnext, hbuffer, World.processQueuedMessages_eq, unheard_received]
  constructor
  · rintro ⟨_, hup, hstream, hqueue, _, _⟩
    refine ⟨fun _ => ⟨hup.symm, hqueue.symm, fun hmode => ?_⟩, ?_, ?_, ?_⟩
    · exact (if_pos hmode).symm.trans hstream
    · exact fun htype => absurd htype hother.1
    · exact fun htype => absurd htype hother.2.1
    · exact fun htype => absurd htype hother.2.2
  · intro hidle
    obtain ⟨hup, hqueue, hstream⟩ := hidle.ready hready
    refine ⟨rfl, hup.symm, ?_, hqueue.symm, rfl, fun _ => ?_⟩
    · exact ite_eq_right_iff.mpr hstream
    · exact unheard_of_outbound fun e he => World.outbound_of_mem_dataWrites env _ he

theorem reset_unmoved_iff (htype : m.type = TunnelMessageType.sessionReset)
    (hnext : s'.world =
      ((s.world.log (.receivedFrame body)).log (.receivedMessage m)).disconnect env)
    (hbuffer : s'.receiveBuffer = s.receiveBuffer) : Unmoved s s' ↔ Idle env s m := by
  have hother : m.type ≠ TunnelMessageType.data ∧ m.type ≠ TunnelMessageType.streamReset := by
    rw [htype]
    decide
  have htrace : s'.world.trace = s.world.trace ++ (.receivedFrame body :: .receivedMessage m ::
      s.world.controlWrites env s.world.streamReset) := by
    rw [hnext, World.disconnect_eq]
    exact (List.append_assoc ..).trans (List.append_assoc ..)
  rw [unmoved_iff htrace, hnext, hbuffer, World.disconnect_eq, unheard_received]
  constructor
  · rintro ⟨hconnected, hup, _⟩
    refine ⟨?_, fun _ => ⟨hconnected.symm, hup.symm⟩, ?_, ?_⟩
    · exact fun hready => absurd hready (World.not_readies_of_reset htype)
    · exact fun h => absurd h hother.1
    · exact fun h => absurd h hother.2
  · intro hidle
    obtain ⟨hconnected, hup⟩ := hidle.reset htype
    refine ⟨hconnected.symm, hup.symm, rfl, rfl, rfl, fun _ => ?_⟩
    exact unheard_of_outbound fun e he => World.outbound_of_mem_controlWrites env s.world he

theorem passed_unmoved_iff (hready : ¬ s.world.Readies m)
    (htype : m.type ≠ TunnelMessageType.sessionReset)
    (hnext : s'.world =
      s.world.logAll (.receivedFrame body :: .receivedMessage m :: forwarded env m))
    (hbuffer : s'.receiveBuffer = s.receiveBuffer) : Unmoved s s' ↔ Idle env s m := by
  rw [unmoved_iff (congrArg World.trace hnext), hnext, hbuffer, unheard_received,
    unheard_forwarded]
  constructor
  · rintro ⟨_, _, _, _, _, hunheard⟩
    refine ⟨fun h => absurd h hready, fun h => absurd h htype, ?_, ?_⟩
    · exact fun hdata hws => (hunheard hws).1 hdata
    · exact fun hclosed hws => (hunheard hws).2 hclosed
  · intro hidle
    refine ⟨rfl, rfl, rfl, rfl, rfl, fun hws => ⟨?_, ?_⟩⟩
    · exact fun hdata => hidle.data hdata hws
    · exact fun hclosed => hidle.closed hclosed hws

theorem frame_unmoved_iff (hstep : (turns env).step s .frame = some s') :
    Unmoved s s' ↔ Moot env s .frame := by
  obtain ⟨i, body, rest, hpending, _, hbuffer, hdispatched⟩ := turns_frame_cases hstep
  have hmoot : ∀ m, (env.codecs s.world.config.version).decode body = .ok m →
      (Moot env s .frame ↔ Idle env s m) := by
    intro m hdecode
    constructor
    · exact fun h => h i body rest m hpending hdecode
    · intro h j body' rest' m' hpending' hdecode'
      cases hpending.symm.trans hpending'
      cases hdecode.symm.trans hdecode'
      exact h
  generalize hnext : s'.world = next at hdispatched
  cases hdispatched with
  | failed e hdecode =>
    refine iff_of_true ?_ ?_
    · rw [unmoved_iff (congrArg World.trace hnext), hnext, hbuffer,
        unheard_cons (by simp) (by simp)]
      exact ⟨rfl, rfl, rfl, rfl, rfl, fun _ => unheard_called_onError _ _⟩
    · intro j body' rest' m hpending' hdecode'
      cases hpending.symm.trans hpending'
      cases hdecode.symm.trans hdecode'
  | ready m hdecode hready =>
    rw [hmoot m hdecode]
    exact ready_unmoved_iff hready hnext hbuffer
  | reset m hdecode htype =>
    rw [hmoot m hdecode]
    exact reset_unmoved_iff htype hnext hbuffer
  | passed m hdecode hready htype =>
    rw [hmoot m hdecode]
    exact passed_unmoved_iff hready htype hnext hbuffer

end Frame

/-- A turn moves nothing exactly if it is moot. -/
theorem step_unmoved_iff (hevent : ∀ c, a ≠ .call c) (hstep : (turns env).step s a = some s') :
    Unmoved s s' ↔ Moot env s a := by
  cases turns_cases hstep with
  | call c => exact absurd rfl (hevent c)
  | frame => exact frame_unmoved_iff hstep
  | «open» i =>
    refine Iff.trans (unmoved_iff rfl) ?_
    constructor
    · exact fun h => h.1.symm
    · intro hconnected
      refine ⟨hconnected.symm, rfl, rfl, rfl, rfl, fun _ => unheard_of_outbound ?_⟩
      intro e he
      obtain ⟨m, _, hmem⟩ := List.mem_flatMap.mp he
      exact World.outbound_of_mem_controlWrites env _ hmem
  | message i data =>
    refine Iff.trans (unmoved_iff (List.append_nil _).symm) ?_
    constructor
    · exact fun h => h.2.2.2.2.1
    · exact fun h => ⟨rfl, rfl, rfl, rfl, h, fun _ => unheard_nil⟩
  | error i =>
    refine Iff.trans (unmoved_iff rfl) ?_
    exact iff_of_true ⟨rfl, rfl, rfl, rfl, rfl, fun _ => unheard_called_onError _ _⟩ trivial
  | closing i =>
    refine Iff.trans (unmoved_iff (List.append_nil _).symm) ?_
    exact iff_of_true ⟨rfl, rfl, rfl, rfl, rfl, fun _ => unheard_nil⟩ trivial
  | close i =>
    refine Iff.trans (unmoved_iff rfl) ?_
    rw [unheard_called (Or.inl rfl)]
    constructor
    · rintro ⟨hconnected, hup, _, _, _, hdeaf⟩
      exact ⟨hconnected.symm, hup.symm, hdeaf⟩
    · rintro ⟨hconnected, hup, hdeaf⟩
      exact ⟨hconnected.symm, hup.symm, rfl, rfl, rfl, hdeaf⟩

theorem step_inert_iff (hstep : (turns env).step s a = some s') :
    Inert s a s' ↔ Harmless env s a := by
  unfold Inert Harmless
  refine forall_congr' fun i => forall_congr' fun hi => imp_congr_right fun _ => ?_
  apply step_unmoved_iff _ hstep
  rintro c rfl
  cases hi

/-- In every run, with calls from inside the callbacks as well, the events of superseded
sockets are inert exactly if each of them comes when it is moot. -/
theorem steps_inert_iff (env : Env) (config : SecureTunnelConfig) (labels : List Turn)
    (s : Handling) (hrun : (turns env).run (Receiver.fresh config).idle labels = some s) :
    (turns env).Steps Inert (Receiver.fresh config).idle labels ↔
      (turns env).Admits (Harmless env) (Receiver.fresh config).idle labels := by
  apply (turns env).steps_iff_admits (I := fun _ => True) (fun _ _ _ _ _ => trivial) ?_
    labels _ s trivial hrun
  intro s a t _ hstep
  exact step_inert_iff hstep

/-- A source that is ready on its first socket, and again on its second one. -/
def reconnectedSource : List Turn :=
  [.call (.connect true), .open 0, .message 0 [0, 2, 8, 5], .frame, .call .disconnect,
    .call (.connect true), .open 1, .message 1 [0, 2, 8, 5], .frame]

/-- The first socket closes before the second one is opened, and nobody listens. -/
theorem steps_inert_iff_early :
    let env : Env := ⟨ProtobufMessages.codec, ⟨none, none, none⟩⟩
    let start := (Receiver.fresh ⟨"eu-west-1", "token", .source, none, none⟩).idle
    (turns env).Steps Inert start [.call (.connect true), .open 0, .call .disconnect,
      .call (.connect true), .close 0, .open 1] := by
  intro env start
  refine (steps_inert_iff env _ _ _ rfl).mpr ?_
  have hcurrent : ∀ {s : Handling} {a : Turn} {j : ℕ}, a.socket s = some j → s.world.ws = some j →
      Harmless env s a := by
    intro s a j hj hws i hi hne
    cases hj.symm.trans hi
    exact absurd hws hne
  have hcall : ∀ (s : Handling) (c : ApiCall), Harmless env s (.call c) := by
    intro s c i hi
    cases hi
  refine (Machine.admits_cons _ rfl).mpr ⟨hcall _ _, ?_⟩
  refine (Machine.admits_cons _ rfl).mpr ⟨hcurrent rfl rfl, ?_⟩
  refine (Machine.admits_cons _ rfl).mpr ⟨hcall _ _, ?_⟩
  refine (Machine.admits_cons _ rfl).mpr ⟨hcall _ _, ?_⟩
  refine (Machine.admits_cons _ rfl).mpr ⟨?_, ?_⟩
  · exact fun _ _ _ => ⟨rfl, rfl, fun _ => rfl⟩
  · exact (Machine.admits_cons _ rfl).mpr ⟨hcurrent rfl rfl, trivial⟩

/-- The close event of the first socket comes late: the second one is open, and the
transport is neither connected nor ready any more. -/
theorem steps_inert_late :
    let env : Env := ⟨ProtobufMessages.codec, .passive⟩
    let start := (Receiver.fresh ⟨"eu-west-1", "token", .source, none, none⟩).idle
    (∃ s, (turns env).run start (reconnectedSource ++ [.close 0]) = some s ∧
      s.world.socketOpen = some 1 ∧ s.world.isConnected = false ∧ s.world.tunnelReady = false) ∧
    ¬ (turns env).Steps Inert start (reconnectedSource ++ [.close 0]) := by
  intro env start
  have hreconnected : ((turns env).run start reconnectedSource).map (fun s =>
      (s.pending, s.world.ws, s.world.sockets, s.world.isConnected)) =
        some ([], some 1, [.closing, .open], true) := by
    decide +kernel
  obtain ⟨s, hrun, hfields⟩ := Option.map_eq_some_iff.mp hreconnected
  simp only [Prod.mk.injEq] at hfields
  obtain ⟨hpending, hws, hsockets, hconnected⟩ := hfields
  have hunclosed : s.world.Unclosed 0 := ⟨.closing, by rw [hsockets]; rfl, by decide⟩
  have hclose : (turns env).step s (.close 0) =
      some { s with world := (s.world.setSocket 0 .closed).onclose env.quiet } :=
    if_pos ⟨hpending, hunclosed⟩
  rw [World.onclose_quiet] at hclose
  constructor
  · have hlate := ((turns env).run_append start reconnectedSource [.close 0]).trans
      ((congrArg (Option.bind · _) hrun).trans
        (((turns env).run_cons_eq_some).mpr ⟨_, hclose, rfl⟩))
    refine ⟨_, hlate, ?_, rfl, rfl⟩
    simp [World.socketOpen, World.setSocket, World.logAll, hws, hsockets]
  · intro hsteps
    have hlast := (((turns env).steps_append hsteps hrun) _ hclose).1
    have hunmoved := hlast 0 rfl (by rw [hws]; decide)
    cases hunmoved.isConnected.trans hconnected

end SshClientWasm.Tunnel
