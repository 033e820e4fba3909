import SshClientWasm.Tunnel.FrameLength

/-!
# What passes between a client and its socket

The frames that a client has written are the framings of its messages, and what it has
passed to `onData` is decided by the bodies that it has cut off, in every state of every
run.
-/
namespace SshClientWasm.Tunnel

open Library

/-- A written frame is the framing of its message. -/
def Event.Framing (c : Codec) : Event → Prop
  | .wrote _ m f => f = frame (c.encode m)
  | _ => True

theorem writtenFrames_eq {c : Codec} : ∀ {events : List Event},
    (∀ e ∈ events, e.Framing c) →
      writtenFrames events = (writtenMessages events).map fun m => frame (c.encode m) := by
  intro events
  induction events with
  | nil => exact fun _ => rfl
  | cons e events ih =>
    intro h
    obtain ⟨he, hrest⟩ := List.forall_mem_cons.mp h
    cases e with
    | wrote i m f => exact congrArg₂ List.cons he (ih hrest)
    | _ => exact ih hrest

/-- The payload of a body that is a DATA message. -/
def dataOf (c : Codec) (body : Bytes) : Option Bytes :=
  match c.decode body with
  | .ok m => if m.type = TunnelMessageType.data then some m.payload else none
  | .error _ => none

/-- Events that have nothing to do with what is received. -/
def Event.Quiet : Event → Prop
  | .receivedFrame _ | .onData _ => False
  | _ => True

theorem Event.Outbound.quiet {e : Event} (h : e.Outbound) : e.Quiet := by
  cases e <;> trivial

theorem received_of_quiet {events : List Event} (h : ∀ e ∈ events, e.Quiet) :
    receivedFrames events = [] ∧ onDataPayloads events = [] := by
  constructor <;>
  · refine List.filterMap_eq_nil_iff.mpr fun e he => ?_
    have hquiet := h e he
    cases e <;> first | rfl | exact absurd hquiet id

namespace World

variable {env : Env} {w w' : World}

section Framing

theorem framing_dataWrites (chunks : List Bytes) :
    ∀ e ∈ w.dataWrites env chunks, e.Framing (env.codecs w.config.version) := by
  intro e he
  cases hopen : w.socketOpen with
  | none => simp [dataWrites, hopen] at he
  | some i =>
    simp only [dataWrites, hopen, List.mem_map] at he
    obtain ⟨chunk, -, rfl⟩ := he
    rfl

theorem framing_controlWrites (m : MessageFields) :
    ∀ e ∈ w.controlWrites env m, e.Framing (env.codecs w.config.version) := by
  intro e he
  cases hopen : w.socketOpen with
  | none => simp [controlWrites, hopen] at he
  | some i =>
    simp only [controlWrites, hopen, List.mem_singleton] at he
    subst he
    rfl

theorem framing_apiCall (c : ApiCall) :
    Extends (Event.Framing (env.codecs w.config.version)) w (w.apiCall env c) := by
  cases c with
  | connect constructs =>
    refine ⟨[.connectCalled], ?_, by simp [Event.Framing]⟩
    simp only [apiCall, connect]
    split_ifs <;> rfl
  | send data =>
    have hcalled : Extends (Event.Framing (env.codecs w.config.version)) w (w.log (.sendCalled data)) :=
      .log w trivial
    simp only [apiCall, send]
    split_ifs
    · exact hcalled.trans (.of_trace_eq rfl)
    · refine hcalled.trans ?_
      rw [sendDataFrame_eq]
      exact ⟨_, rfl, framing_dataWrites (w := w.log (.sendCalled data)) _⟩
  | disconnect =>
    rw [apiCall, disconnect_eq]
    exact ⟨_, rfl, framing_controlWrites w.streamReset⟩

theorem Effect.framing (h : Effect env w w') :
    Extends (Event.Framing (env.codecs w.config.version)) w w' := by
  cases h with
  | note e h =>
    refine .log w ?_
    cases e <;> trivial
  | call c => exact framing_apiCall c
  | ready m h hstarted =>
    rw [processQueuedMessages_eq]
    refine ⟨.receivedMessage m :: _, (List.append_assoc _ _ _), ?_⟩
    intro e he
    rcases List.mem_cons.mp he with rfl | he
    · trivial
    · exact framing_dataWrites (w := w.readied m) _ e he
  | opened i h =>
    rw [onopen_eq]
    refine ⟨_, rfl, fun e he => ?_⟩
    obtain ⟨m, -, he⟩ := List.mem_flatMap.mp he
    exact framing_controlWrites (w := w.setSocket i .open) m e he
  | closing i h => exact .of_trace_eq rfl
  | closed i h => exact .of_trace_eq rfl

end Framing

section Received

variable (env) (w)

theorem invoke_onData (callback : Option (List Event → List ApiCall)) (e : Event) :
    onDataPayloads (w.invoke env callback e).trace =
      onDataPayloads w.trace ++ if callback.isSome then onDataPayloads [e] else [] := by
  obtain ⟨events, htrace, hout⟩ := invoke_trace env w callback e
  rw [htrace, onDataPayloads_append, onDataPayloads_append, onDataPayloads_of_outbound hout,
    List.append_nil]
  split_ifs <;> rfl

theorem onData_of_extends {w' : World} (h : Extends Event.Outbound w w') :
    onDataPayloads w'.trace = onDataPayloads w.trace := by
  obtain ⟨events, htrace, hout⟩ := h
  rw [htrace, onDataPayloads_append, onDataPayloads_of_outbound hout, List.append_nil]

theorem onData_processQueuedMessages :
    onDataPayloads (w.processQueuedMessages env).trace = onDataPayloads w.trace := by
  refine onData_of_extends w ?_
  rw [processQueuedMessages_eq]
  exact ⟨_, rfl, fun e he => outbound_of_mem_dataWrites env w he⟩

theorem handleMessage_onData (m : TunnelMessage) :
    onDataPayloads (w.handleMessage env m).trace = onDataPayloads w.trace ++
      if m.type = TunnelMessageType.data ∧ env.handlers.onData.isSome then [m.payload] else [] := by
  have hlog : onDataPayloads (w.log (.receivedMessage m)).trace = onDataPayloads w.trace := by
    rw [log_trace, onDataPayloads_append]
    exact List.append_nil _
  by_cases hdata : m.type = TunnelMessageType.data
  · have heq : w.handleMessage env m =
        (w.log (.receivedMessage m)).invoke env env.handlers.onData (.onData m.payload) :=
      if_pos hdata
    rw [heq, invoke_onData, hlog]
    simp only [hdata, true_and]
    rfl
  · rw [if_neg fun h => hdata h.1, List.append_nil, ← hlog]
    have hqueue : ∀ w' : World, onDataPayloads w'.trace = onDataPayloads (w.log (.receivedMessage m)).trace →
        onDataPayloads (w'.processQueuedMessages env).trace =
          onDataPayloads (w.log (.receivedMessage m)).trace :=
      fun w' h => (onData_processQueuedMessages env w').trans h
    unfold handleMessage
    dsimp only
    split_ifs with hstart hdest hreset hsession hids hsource
    · exact hqueue _ rfl
    · rfl
    · rw [invoke_onData]
      split_ifs <;> exact List.append_nil _
    · exact onData_of_extends _ (apiCall_extends env _ .disconnect)
    · exact hqueue _ rfl
    · rfl
    · rfl

theorem dispatch_onData (body : Bytes) :
    onDataPayloads (w.dispatch env body).trace = onDataPayloads w.trace ++
      if env.handlers.onData.isSome then (dataOf (env.codecs w.config.version) body).toList
      else [] := by
  have hlog : onDataPayloads (w.log (.receivedFrame body)).trace = onDataPayloads w.trace := by
    rw [log_trace, onDataPayloads_append]
    exact List.append_nil _
  cases hdecode : (env.codecs w.config.version).decode body with
  | ok m =>
    have heq : w.dispatch env body = (w.log (.receivedFrame body)).handleMessage env m := by
      simp [dispatch, hdecode]
    rw [heq, handleMessage_onData, hlog, dataOf, hdecode]
    by_cases hdata : m.type = TunnelMessageType.data
    · simp [hdata]
    · simp [hdata]
  | error e =>
    have heq : w.dispatch env body =
        (w.log (.receivedFrame body)).invoke env env.handlers.onError (.onError e) := by
      simp [dispatch, hdecode]
    rw [heq, invoke_onData, hlog, dataOf, hdecode]
    split_ifs <;> rfl

theorem foldl_dispatch_onData : ∀ (bodies : List Bytes) (w : World),
    onDataPayloads (bodies.foldl (dispatch env) w).trace = onDataPayloads w.trace ++
      if env.handlers.onData.isSome then bodies.filterMap (dataOf (env.codecs w.config.version))
      else [] := by
  intro bodies
  induction bodies with
  | nil =>
    intro w
    split_ifs <;> exact (List.append_nil _).symm
  | cons body bodies ih =>
    intro w
    rw [List.foldl_cons, ih, dispatch_onData, dispatch_config, List.append_assoc]
    congr 1
    split_ifs
    · cases h : dataOf (env.codecs w.config.version) body <;> simp [h]
    · rfl

end Received
end World

/-- An input that is not a message. -/
def Input.Silent : Input → Prop
  | .message _ _ => False
  | _ => True

instance : DecidablePred Input.Silent
  | .message _ _ => isFalse id
  | .call _ | .open _ | .error _ | .closing _ | .close _ => isTrue trivial

variable {env : Env} {r r' : Receiver}

theorem session_step_silent {a : Input} (ha : a.Silent) (h : (session env).step r a = some r') :
    r'.receiveBuffer = r.receiveBuffer ∧ World.Extends Event.Quiet r.world r'.world := by
  have hout : ∀ {w w' : World}, World.Extends Event.Outbound w w' → World.Extends Event.Quiet w w' :=
    fun ⟨events, htrace, hall⟩ => ⟨events, htrace, fun e he => (hall e he).quiet⟩
  have hinvoke : ∀ (w : World) (callback : Option (List Event → List ApiCall)) (e : Event),
      e.Quiet → World.Extends Event.Quiet w (w.invoke env callback e) := by
    intro w callback e he
    obtain ⟨events, htrace, hall⟩ := World.invoke_trace env w callback e
    refine ⟨(if callback.isSome then [e] else []) ++ events, by rw [htrace, List.append_assoc], ?_⟩
    intro e' he'
    rcases List.mem_append.mp he' with he' | he'
    · split_ifs at he'
      · rw [List.mem_singleton.mp he']
        exact he
      · cases he'
    · exact (hall e' he').quiet
  cases a with
  | call c =>
    cases h
    exact ⟨rfl, hout (World.apiCall_extends env r.world c)⟩
  | «open» i =>
    obtain ⟨hi, hr⟩ := Option.ite_none_right_eq_some.mp h
    cases hr
    refine ⟨rfl, hout ?_⟩
    rw [World.onopen_eq]
    refine ⟨_, rfl, fun e he => ?_⟩
    obtain ⟨m, -, he⟩ := List.mem_flatMap.mp he
    exact World.outbound_of_mem_controlWrites env (r.world.setSocket i .open) he
  | message i data => exact ha.elim
  | error i =>
    obtain ⟨hi, hr⟩ := Option.ite_none_right_eq_some.mp h
    cases hr
    exact ⟨rfl, hinvoke _ _ _ trivial⟩
  | closing i =>
    obtain ⟨hi, hr⟩ := Option.ite_none_right_eq_some.mp h
    cases hr
    exact ⟨rfl, .of_trace_eq rfl⟩
  | close i =>
    obtain ⟨hi, hr⟩ := Option.ite_none_right_eq_some.mp h
    cases hr
    exact ⟨rfl, hinvoke _ _ _ trivial⟩

theorem received_of_extends {w w' : World} (h : World.Extends Event.Quiet w w') :
    receivedFrames w'.trace = receivedFrames w.trace ∧
      onDataPayloads w'.trace = onDataPayloads w.trace := by
  obtain ⟨events, htrace, hquiet⟩ := h
  obtain ⟨hframes, hdata⟩ := received_of_quiet hquiet
  rw [htrace, receivedFrames_append, onDataPayloads_append, hframes, hdata, List.append_nil,
    List.append_nil]
  exact ⟨rfl, rfl⟩

/-- In every state of every run, the bodies cut off so far decide what has gone to
`onData`. -/
theorem session_onData {config : SecureTunnelConfig} {inputs : List Input}
    (hrun : (session env).run (.fresh config) inputs = some r) :
    r.world.config = config ∧
      onDataPayloads r.world.trace =
        if env.handlers.onData.isSome then
          (receivedFrames r.world.trace).filterMap (dataOf (env.codecs config.version))
        else [] := by
  refine (session env).run_invariant
    (I := fun r => r.world.config = config ∧ onDataPayloads r.world.trace =
      if env.handlers.onData.isSome then
        (receivedFrames r.world.trace).filterMap (dataOf (env.codecs config.version))
      else []) ?_ inputs (.fresh config) r ⟨rfl, by split_ifs <;> rfl⟩ hrun
  rintro s a t ⟨hconfig, hdata⟩ hstep
  refine ⟨(session_step_effects env hstep).invariant
    (I := fun w => w.config = config) (fun w w' h hw => h.config.trans hw) hconfig, ?_⟩
  by_cases ha : a.Silent
  · obtain ⟨hframes, hpayloads⟩ := received_of_extends (session_step_silent ha hstep).2
    rw [hframes, hpayloads]
    exact hdata
  · cases a with
    | message i data =>
      obtain ⟨-, hr⟩ := Option.ite_none_right_eq_some.mp hstep
      cases hr
      cases data with
      | none => exact hdata
      | some data =>
        rw [Option.elim_some, Receiver.handleIncomingData_eq]
        dsimp only
        rw [World.foldl_dispatch_onData, (World.foldl_dispatch_received env _ s.world).1, hdata,
          hconfig]
        split_ifs
        · rw [List.filterMap_append]
        · rfl
    | _ => exact absurd trivial ha

theorem session_framing {config : SecureTunnelConfig} {inputs : List Input}
    (hrun : (session env).run (.fresh config) inputs = some r) :
    writtenFrames r.world.trace =
      (writtenMessages r.world.trace).map fun m => frame ((env.codecs config.version).encode m) := by
  apply writtenFrames_eq
  refine ((session env).run_invariant
    (I := fun r => r.world.config = config ∧ ∀ e ∈ r.world.trace, e.Framing (env.codecs config.version)) ?_ inputs
    (.fresh config) r ⟨rfl, fun e he => absurd he List.not_mem_nil⟩ hrun).2
  intro s a t hs hstep
  refine (session_step_effects _ hstep).invariant
    (I := fun w => w.config = config ∧ ∀ e ∈ w.trace, e.Framing (env.codecs config.version)) ?_ hs
  rintro w w' heffect ⟨hconfig, hall⟩
  refine ⟨heffect.config.trans hconfig, fun e he => ?_⟩
  obtain ⟨events, htrace, hframing⟩ := heffect.framing
  rw [htrace] at he
  rcases List.mem_append.mp he with he | he
  · exact hall e he
  · exact hconfig ▸ hframing e he

end SshClientWasm.Tunnel
