import SshClientWasm.Tunnel.Delivery

/-!
# Which handshakes can complete

A client is ready once its peer has sent the message its mode waits for. The schemas do
not all have that message: V1 has no SERVICE_IDS, so that a source that speaks it waits
forever.
-/
namespace SshClientWasm.Tunnel

open Library

/-- The `Type` enum of a version's schema. V1 names the number 3 `STREAM_END`. -/
def ProtocolVersion.types : ProtocolVersion → List Int32
  | .v1 => [TunnelMessageType.unknown, TunnelMessageType.data, TunnelMessageType.streamStart,
      TunnelMessageType.streamReset]
  | .v2 => [TunnelMessageType.unknown, TunnelMessageType.data, TunnelMessageType.streamStart,
      TunnelMessageType.streamReset, TunnelMessageType.sessionReset, TunnelMessageType.serviceIds]
  | .v3 => [TunnelMessageType.unknown, TunnelMessageType.data, TunnelMessageType.streamStart,
      TunnelMessageType.streamReset, TunnelMessageType.sessionReset, TunnelMessageType.serviceIds,
      TunnelMessageType.connectionStart, TunnelMessageType.connectionReset]

/-- What a peer sends to make a client of this mode ready. -/
def ClientMode.answer : ClientMode → MessageFields
  | .source => { type := TunnelMessageType.serviceIds }
  | .destination => { type := TunnelMessageType.streamStart, streamId := some 1 }

namespace World

/-- Every message received so far has a type of its schema. -/
def Lawful (w : World) : Prop := ∀ m ∈ receivedMessages w.trace, m.type ∈ w.config.version.types

/-- A source that speaks V1. -/
def Stuck (w : World) : Prop := w.config.version = .v1 ∧ w.config.clientMode = .source

variable {env : Env} {w w' : World}

theorem Effect.config (h : Effect env w w') : w'.config = w.config := by
  cases h with
  | note e h => rfl
  | call c => exact apiCall_config env w c
  | ready m h hstarted => rw [processQueuedMessages_eq]; rfl
  | opened i h => rw [onopen_eq]; rfl
  | closing i h => rfl
  | closed i h => rfl

theorem apiCall_tunnelReady (c : ApiCall) (h : w.tunnelReady = false) :
    (w.apiCall env c).tunnelReady = false := by
  cases c with
  | connect constructs =>
    simp only [apiCall, connect]
    split_ifs
    · exact h
    · exact h
  | send data =>
    simp only [apiCall, send, sendDataFrame_eq]
    split_ifs
    · exact h
    · exact h
  | disconnect =>
    rw [apiCall, disconnect_eq]

theorem Lawful.of_prefix (h : w'.Lawful) (htrace : w.trace <+: w'.trace)
    (hconfig : w'.config = w.config) : w.Lawful := by
  intro m hm
  rw [← hconfig]
  exact h m ((htrace.filterMap _).subset hm)

theorem Stuck.not_readies (h : w.Stuck) {m : TunnelMessage}
    (hm : m.type ∈ w.config.version.types) : ¬ w.Readies m := by
  obtain ⟨hversion, hmode⟩ := h
  rw [hversion] at hm
  rintro (⟨_, hdestination⟩ | ⟨hids, _⟩)
  · cases hmode.symm.trans hdestination
  · rw [hids] at hm
    revert hm
    decide

theorem Effect.unready (h : Effect env w w') (hstuck : w.Stuck)
    (hready : w.Lawful → w.tunnelReady = false) (hlawful : w'.Lawful) :
    w'.tunnelReady = false := by
  have hbefore : w.tunnelReady = false := hready (hlawful.of_prefix h.trace_grows h.config)
  cases h with
  | note e h => exact hbefore
  | call c => exact apiCall_tunnelReady c hbefore
  | ready m h hstarted =>
    have hreceived : m ∈ receivedMessages ((w.readied m).processQueuedMessages env).trace := by
      have hgrows : (w.readied m).trace <+: ((w.readied m).processQueuedMessages env).trace := by
        rw [processQueuedMessages_eq]
        exact List.prefix_append _ _
      apply (hgrows.filterMap _).subset
      simp [readied]
    have htype := hlawful m hreceived
    rw [processQueuedMessages_eq] at htype
    exact absurd h (hstuck.not_readies htype)
  | opened i h =>
    rw [onopen_eq]
    exact hbefore
  | closing i h => exact hbefore
  | closed i h => rfl

end World

/-- In no run does a source that speaks V1 become ready through messages of its schema. -/
theorem session_unready (env : Env) (config : SecureTunnelConfig)
    (hstuck : config.version = .v1 ∧ config.clientMode = .source) (inputs : List Input)
    (r : Receiver) (hrun : (session env).run (Receiver.fresh config) inputs = some r)
    (hlawful : r.world.Lawful) : r.world.tunnelReady = false := by
  have hinv : r.world.Stuck ∧ (r.world.Lawful → r.world.tunnelReady = false) := by
    apply (session env).run_invariant
      (I := fun r => r.world.Stuck ∧ (r.world.Lawful → r.world.tunnelReady = false))
      ?_ inputs (Receiver.fresh config) r ⟨hstuck, fun _ => rfl⟩ hrun
    intro s a t hs hstep
    refine (session_step_effects env hstep).invariant
      (I := fun w => w.Stuck ∧ (w.Lawful → w.tunnelReady = false)) ?_ hs
    rintro w w' heffect ⟨hw, hready⟩
    refine ⟨?_, heffect.unready hw hready⟩
    rw [World.Stuck, heffect.config]
    exact hw
  exact hinv.2 hlawful

theorem Receiver.handleIncomingData_frame (env : Env) {r : Receiver}
    (hbuffer : r.receiveBuffer = []) {body : Bytes} (hbody : body.length < 65536) :
    r.handleIncomingData env (frame body) = ⟨r.world.dispatch env body, []⟩ := by
  have hnil : frameCutter.next [] = none := rfl
  rw [handleIncomingData_eq, hbuffer, List.nil_append,
    frameCutter.cut_of_some (frameCutter_frame hbody), frameCutter.cut_of_none hnil]
  rfl

theorem encode_answer_length (version : ProtocolVersion) (mode : ClientMode) :
    (ProtobufMessages.encode version mode.answer).length < 65536 := by
  cases version <;> cases mode <;> decide +kernel

theorem answer_mem_types {config : SecureTunnelConfig}
    (h : ¬ (config.version = .v1 ∧ config.clientMode = .source)) :
    config.clientMode.answer.type ∈ config.version.types := by
  cases hversion : config.version <;> cases hmode : config.clientMode
  · exact absurd ⟨hversion, hmode⟩ h
  all_goals decide

/-- Socket `i` has just been opened on a transport that has received only messages of its
schema, and no part of a frame is left from before. -/
structure FreshlyOpened (env : Env) (config : SecureTunnelConfig) (i : ℕ) (r : Receiver) :
    Prop where
  opened : ∃ inputs r₀, (session env).run (Receiver.fresh config) inputs = some r₀ ∧
    (session env).step r₀ (.open i) = some r
  current : r.world.ws = some i
  lawful : r.world.Lawful
  buffer : r.receiveBuffer = []

/-- Finitely many messages of the schema on socket `i` make the transport ready, and all
that was queued is sent. -/
def Completes (env : Env) (i : ℕ) (r : Receiver) : Prop :=
  ∃ (arrays : List Bytes) (r' : Receiver),
    (session env).run r (arrays.map fun data => .message i (some data)) = some r' ∧
    r'.world.Lawful ∧ r'.world.tunnelReady = true ∧ r'.world.messageQueue = [] ∧
    (sentPayloads r'.world.trace).flatten =
      (sentPayloads r.world.trace).flatten ++ r.world.messageQueue.flatten

namespace World

variable {w : World}

theorem dispatch_readies (codecs : ProtocolVersion → Codec) (handlers : Handlers)
    {a : MessageFields} (hcodec : (codecs w.config.version).RoundTrips w.config.version)
    (hsize : ((codecs w.config.version).encode a).length < 65536)
    (hready : w.Readies (a.read w.config.version)) :
    let env : Env := ⟨codecs, handlers⟩
    let body := (codecs w.config.version).encode a
    w.dispatch env body =
      ((w.log (.receivedFrame body)).readied (a.read w.config.version)).processQueuedMessages
        env := by
  intro env body
  have hdecode : (env.codecs w.config.version).decode body = .ok (a.read w.config.version) :=
    hcodec a (Nat.le_of_lt_succ hsize)
  have hready' : (w.log (.receivedFrame body)).Readies (a.read w.config.version) := hready
  unfold dispatch
  dsimp only
  rw [log_config, hdecode]
  exact handleMessage_ready hready'

theorem readies_answer : w.Readies (w.config.clientMode.answer.read w.config.version) := by
  cases hmode : w.config.clientMode with
  | source => exact Or.inr ⟨rfl, hmode⟩
  | destination => exact Or.inl ⟨rfl, hmode⟩

theorem readied_spec (env : Env) (body : Bytes) (m : TunnelMessage) (hopen : w.socketOpen ≠ none) :
    let w' := ((w.log (.receivedFrame body)).readied m).processQueuedMessages env
    w'.messageQueue = [] ∧ w'.tunnelReady = true ∧
      receivedMessages w'.trace = receivedMessages w.trace ++ [m] ∧
      (sentPayloads w'.trace).flatten =
        (sentPayloads w.trace).flatten ++ w.messageQueue.flatten := by
  intro w'
  set v := (w.log (.receivedFrame body)).readied m with hv
  have hw' : w'.trace = v.trace ++ v.dataWrites env (chunksOf w.messageQueue) := by
    simp only [w', processQueuedMessages_eq]
    rfl
  have hreceived : receivedMessages (v.dataWrites env (chunksOf w.messageQueue)) = [] :=
    (received_of_handled fun e he => (outbound_of_mem_dataWrites env v he).handled).2.1
  have hsent : (sentPayloads (v.dataWrites env (chunksOf w.messageQueue))).flatten =
      w.messageQueue.flatten := by
    have hopen' : v.socketOpen ≠ none := hopen
    have hspec := (dataWrites_spec (w := v) env w.messageQueue).2
    rwa [if_neg hopen'] at hspec
  refine ⟨?_, ?_, ?_, ?_⟩
  · simp only [w', processQueuedMessages_eq, logAll_messageQueue]
  · simp only [w', processQueuedMessages_eq, logAll_tunnelReady, readied]
  · rw [hw', receivedMessages_append, hreceived, List.append_nil]
    simp [hv, readied, receivedMessages]
  · rw [hw', sentPayloads_append, List.flatten_append, hsent]
    simp [hv, readied, sentPayloads, writtenMessages]

end World

/-- On an open socket that answer is all that a client needs. -/
theorem completes_of_not_stuck (codecs : ProtocolVersion → Codec) (handlers : Handlers) {i : ℕ}
    {r : Receiver} (hcodec : (codecs r.world.config.version).RoundTrips r.world.config.version)
    (hfits : ((codecs r.world.config.version).encode
      r.world.config.clientMode.answer).length < 65536)
    (hsocket : r.world.sockets[i]? = some .open) (hcurrent : r.world.ws = some i)
    (hlawful : r.world.Lawful) (hbuffer : r.receiveBuffer = []) (h : ¬ r.world.Stuck) :
    Completes ⟨codecs, handlers⟩ i r := by
  have htype := answer_mem_types h
  have hdispatch := r.world.dispatch_readies codecs handlers hcodec hfits r.world.readies_answer
  set env : Env := ⟨codecs, handlers⟩
  set body := (codecs r.world.config.version).encode r.world.config.clientMode.answer
  set m := r.world.config.clientMode.answer.read r.world.config.version
  have hstep : (session env).step r (.message i (some (frame body))) =
      some ⟨r.world.dispatch env body, []⟩ := by
    rw [← Receiver.handleIncomingData_frame env hbuffer hfits]
    exact if_pos hsocket
  have hopen : r.world.socketOpen ≠ none := by
    have hsome : r.world.socketOpen = some i :=
      Option.filter_eq_some_iff.mpr ⟨hcurrent, decide_eq_true hsocket⟩
    rw [hsome]
    exact Option.some_ne_none i
  obtain ⟨hqueue, hready, hreceived, hsent⟩ := World.readied_spec env body m hopen
  rw [← hdispatch] at hqueue hready hreceived hsent
  refine ⟨[frame body], _, ((session env).run_cons_eq_some).mpr ⟨_, hstep, rfl⟩, ?_, hready,
    hqueue, hsent⟩
  intro m' hm'
  rw [World.dispatch_config]
  rw [hreceived] at hm'
  rcases List.mem_append.mp hm' with hbefore | hanswer
  · exact hlawful m' hbefore
  · rw [List.mem_singleton.mp hanswer]
    exact htype

theorem FreshlyOpened.config {env : Env} {config : SecureTunnelConfig} {i : ℕ} {r : Receiver}
    (h : FreshlyOpened env config i r) :
    r.world.config = config ∧ r.world.sockets[i]? = some .open := by
  obtain ⟨inputs, r₀, hrun, hstep⟩ := h.opened
  have hconfig : r₀.world.config = config := by
    apply (session env).run_invariant (I := fun r => r.world.config = config) ?_ inputs
      (Receiver.fresh config) r₀ rfl hrun
    intro s a t hs hnext
    refine (session_step_effects env hnext).invariant (I := fun w => w.config = config) ?_ hs
    intro w w' heffect hw
    exact heffect.config.trans hw
  obtain ⟨hconnecting, heq⟩ := Option.ite_none_right_eq_some.mp hstep
  cases heq
  rw [World.onopen_eq]
  refine ⟨hconfig, ?_⟩
  obtain ⟨hlt, _⟩ := List.getElem?_eq_some_iff.mp hconnecting
  exact List.getElem?_set_self hlt

theorem FreshlyOpened.unready {env : Env} {config : SecureTunnelConfig} {i : ℕ} {r r' : Receiver}
    (h : FreshlyOpened env config i r) (hstuck : config.version = .v1 ∧ config.clientMode = .source)
    {inputs : List Input} (hrun : (session env).run r inputs = some r')
    (hlawful : r'.world.Lawful) : r'.world.tunnelReady = false := by
  obtain ⟨before, r₀, hbefore, hopen⟩ := h.opened
  have hrest : (session env).run r₀ (.open i :: inputs) = some r' :=
    ((session env).run_cons_eq_some).mpr ⟨r, hopen, hrun⟩
  apply session_unready env config hstuck (before ++ .open i :: inputs) r' _ hlawful
  rw [Machine.run_append, hbefore, Option.bind_some]
  exact hrest

/-- The handshake can complete in every version and mode but V1 and source, whatever the
callbacks do. The generated class is to read back what it writes, and to fit the answer
of the peer into a frame. -/
theorem completes_iff (codecs : ProtocolVersion → Codec) (handlers : Handlers)
    (config : SecureTunnelConfig) (i : ℕ) (r : Receiver)
    (hcodec : (codecs config.version).RoundTrips config.version)
    (hfits : ((codecs config.version).encode config.clientMode.answer).length < 65536)
    (hfresh : FreshlyOpened ⟨codecs, handlers⟩ config i r) :
    Completes ⟨codecs, handlers⟩ i r ↔
      ¬ (config.version = .v1 ∧ config.clientMode = .source) := by
  obtain ⟨hconfig, hsocket⟩ := hfresh.config
  constructor
  · rintro ⟨arrays, r', hrun, hlawful, hready, _⟩ hstuck
    cases (hfresh.unready hstuck hrun hlawful).symm.trans hready
  · intro h
    rw [← hconfig] at hcodec hfits h
    exact completes_of_not_stuck codecs handlers hcodec hfits hsocket hfresh.current hfresh.lawful
      hfresh.buffer h

/-- The user sends before the socket is open. -/
def earlySend : List Input := [.call (.connect true), .call (.send [1, 2])]

theorem earlySend_opened (env : Env) (version : ProtocolVersion) (mode : ClientMode) :
    ∃ r, FreshlyOpened env ⟨"eu-west-1", "token", mode, none, some version⟩ 0 r ∧
      r.world.messageQueue = [[1, 2]] := by
  cases mode with
  | source =>
    refine ⟨_, ⟨⟨earlySend, _, rfl, rfl⟩, rfl, ?_, rfl⟩, rfl⟩
    exact fun m hm => absurd hm (List.not_mem_nil (a := m))
  | destination =>
    refine ⟨_, ⟨⟨earlySend, _, rfl, rfl⟩, rfl, ?_, rfl⟩, rfl⟩
    exact fun m hm => absurd hm (List.not_mem_nil (a := m))

/-- A destination that speaks V1 can become ready. -/
theorem completes_iff_v1_destination :
    ∃ r, r.world.messageQueue = [[1, 2]] ∧ Completes ⟨ProtobufMessages.codec, .passive⟩ 0 r := by
  obtain ⟨r, hfresh, hqueue⟩ := earlySend_opened ⟨ProtobufMessages.codec, .passive⟩ .v1 .destination
  refine ⟨r, hqueue, (completes_iff ProtobufMessages.codec .passive _ 0 r
    (ProtobufMessages.interoperate_codec.roundTrips _) (encode_answer_length _ _) hfresh).mpr ?_⟩
  rintro ⟨_, hmode⟩
  cases hmode

/-- A source that speaks V1 cannot: its data stays in the queue. -/
theorem completes_v1_source :
    ∃ r, FreshlyOpened ⟨ProtobufMessages.codec, .passive⟩
        ⟨"eu-west-1", "token", .source, none, some .v1⟩ 0 r ∧
      ¬ Completes ⟨ProtobufMessages.codec, .passive⟩ 0 r := by
  obtain ⟨r, hfresh, _⟩ := earlySend_opened ⟨ProtobufMessages.codec, .passive⟩ .v1 .source
  refine ⟨r, hfresh, ?_⟩
  rintro ⟨arrays, r', hrun, hlawful, hready, _⟩
  cases (hfresh.unready ⟨rfl, rfl⟩ hrun hlawful).symm.trans hready

end SshClientWasm.Tunnel
