import SshClientWasm.Tunnel.Handshake

/-!
# The length prefix of a frame

A full chunk leaves 1023 bytes of a frame for the other fields of its message. The service
id is the only one without a bound, and nothing checks it.
-/
namespace SshClientWasm.Tunnel

open Library ProtobufMessages

namespace SecureTunnelConfig

/-- The most UTF-8 bytes of a service id that a full DATA frame has room for. The stream id
of a source is 1, that of a destination may be negative. -/
def serviceIdRoom (c : SecureTunnelConfig) : ℕ :=
  match c.version, c.clientMode with
  | .v3, .source => 1010
  | .v3, .destination => 1001
  | _, .source => 1012
  | _, .destination => 1003

/-- The client cannot connect, its schema has no service id, or its service id is short. -/
def Roomy (c : SecureTunnelConfig) : Prop :=
  c.accessToken = "" ∨ c.version = .v1 ∨
    ∀ id, c.serviceId = some id → (utf8 id).length ≤ c.serviceIdRoom

end SecureTunnelConfig

/-- The bytes of a service id among the fields of a message. -/
def serviceIdSize (id : Option String) : ℕ := id.elim 0 fun x => 1 + delimitedSize (utf8 x).length

namespace World

variable (w : World)

theorem dataMessage_length (chunk : Bytes) :
    (encode w.config.version (w.dataMessage chunk)).length =
      4 + varintSize (int32ToNat w.streamId) + delimitedSize chunk.length +
        (if w.config.version = .v1 then 0 else serviceIdSize w.config.truthyServiceId) +
        if w.config.version = .v3 then 1 + varintSize w.connectionId.toNat else 0 := by
  have htype : varintSize (int32ToNat TunnelMessageType.data) = 1 := varintSize_eq_one (by decide)
  rw [encode_length, encodedSize, dataMessage, htype]
  cases w.config.version <;> simp [serviceIdSize] <;> omega

theorem streamReset_length :
    (encode w.config.version w.streamReset).length = 3 + varintSize (int32ToNat w.streamId) := by
  have htype : varintSize (int32ToNat TunnelMessageType.streamReset) = 1 :=
    varintSize_eq_one (by decide)
  rw [encode_length, encodedSize, streamReset, htype]
  cases w.config.version <;> simp <;> omega

theorem opening_length {m : MessageFields} (hm : m ∈ w.opening) :
    (encode w.config.version m).length =
      match w.config.clientMode with
      | .source => 3 + varintSize (int32ToNat w.streamId) +
          if w.config.version = .v1 then 0 else serviceIdSize w.config.serviceId
      | .destination =>
          2 + if w.config.version = .v1 then 0 else serviceIdSize w.config.truthyServiceId := by
  have htype : varintSize (int32ToNat TunnelMessageType.streamStart) = 1 ∧
      varintSize (int32ToNat TunnelMessageType.serviceIds) = 1 :=
    ⟨varintSize_eq_one (by decide), varintSize_eq_one (by decide)⟩
  rw [encode_length, encodedSize]
  unfold opening at hm
  cases hmode : w.config.clientMode with
  | source =>
    rw [hmode, List.mem_singleton] at hm
    subst hm
    rw [htype.1]
    cases w.config.version <;> simp [serviceIdSize] <;> omega
  | destination =>
    rw [hmode] at hm
    obtain ⟨id, hid, rfl⟩ := List.mem_map.mp hm
    rw [Option.mem_toList] at hid
    rw [htype.2, hid]
    cases w.config.version <;> simp [serviceIdSize]

end World

theorem delimitedSize_two {n : ℕ} (hlow : 128 ≤ n) (hhigh : n < 16384) :
    delimitedSize n = n + 2 := by
  rw [delimitedSize, varintSize_eq (k := 1) (by omega) (by omega)]
  omega

theorem SecureTunnelConfig.serviceIdSize_le {c : SecureTunnelConfig} {id : Option String}
    (hroom : ∀ x, id = some x → (utf8 x).length ≤ c.serviceIdRoom) :
    serviceIdSize id ≤ c.serviceIdRoom + 3 := by
  have htwo : delimitedSize c.serviceIdRoom = c.serviceIdRoom + 2 := by
    unfold serviceIdRoom
    split <;> exact delimitedSize_two (by omega) (by omega)
  cases id with
  | none => exact Nat.zero_le _
  | some x =>
    have hmono := delimitedSize_mono (hroom x rfl)
    simp only [serviceIdSize, Option.elim_some]
    omega

/-- In every state the fields of a message are as short as the mode allows, and every frame
written so far has the length that its prefix says. -/
structure World.Framed (c : SecureTunnelConfig) (w : World) : Prop where
  config : w.config = c
  connectionId : w.connectionId = 1
  streamId : c.clientMode = .source → w.streamId = 1
  sockets : c.accessToken = "" → w.sockets = []
  counts : ∀ i m f, .wrote i m f ∈ w.trace → PrefixCounts f

namespace World.Framed

variable {c : SecureTunnelConfig} {w w' : World} {codecs : ProtocolVersion → Codec}

theorem fresh (c : SecureTunnelConfig) : (World.fresh c).Framed c where
  config := rfl
  connectionId := rfl
  streamId := fun _ => rfl
  sockets := fun _ => rfl
  counts := fun _ _ _ hmem => absurd hmem List.not_mem_nil

theorem streamId_size (h : w.Framed c) :
    varintSize (int32ToNat w.streamId) ≤ if c.clientMode = .source then 1 else 10 := by
  split_ifs with hmode
  · rw [h.streamId hmode]
    exact (varintSize_eq_one (by decide)).le
  · exact varintSize_int32_le w.streamId

theorem room (h : w.Framed c) (hroomy : c.Roomy) (hopen : w.socketOpen ≠ none) :
    c.version = .v1 ∨ ∀ id, c.serviceId = some id → (utf8 id).length ≤ c.serviceIdRoom := by
  rcases hroomy with htoken | hrest
  · exfalso
    apply hopen
    cases hws : w.ws <;> simp [socketOpen, hws, h.sockets htoken]
  · exact hrest

theorem truthyServiceId_room
    (hroom : ∀ id, c.serviceId = some id → (utf8 id).length ≤ c.serviceIdRoom) :
    ∀ id, c.truthyServiceId = some id → (utf8 id).length ≤ c.serviceIdRoom :=
  fun id hid => hroom id (Option.filter_eq_some_iff.mp hid).1

theorem dataMessage_length_le (h : w.Framed c) (hroomy : c.Roomy) (hopen : w.socketOpen ≠ none)
    {chunk : Bytes} (hchunk : chunk.length ≤ maxPayloadSize) :
    (encode w.config.version (w.dataMessage chunk)).length ≤ 65535 := by
  have hstream := h.streamId_size
  have hpayload : delimitedSize chunk.length ≤ 64515 := by
    have hmax : delimitedSize maxPayloadSize = 64515 := by
      rw [delimitedSize, varintSize_eq (k := 2) (by decide) (by decide)]
      rfl
    exact hmax ▸ delimitedSize_mono hchunk
  have hconnection : varintSize w.connectionId.toNat = 1 := by
    rw [h.connectionId]
    exact varintSize_eq_one (by decide)
  rw [dataMessage_length, h.config, hconnection]
  rcases h.room hroomy hopen with hv1 | hroom
  · rw [if_pos hv1, if_neg (by rw [hv1]; decide)]
    split_ifs at hstream <;> omega
  · have hid := SecureTunnelConfig.serviceIdSize_le (truthyServiceId_room hroom)
    unfold SecureTunnelConfig.serviceIdRoom at hid
    cases hversion : c.version <;> cases hmode : c.clientMode <;>
      simp only [hversion, hmode, reduceCtorEq, if_true, if_false] at hid hstream ⊢ <;> omega

theorem streamReset_length_le (w : World) :
    (encode w.config.version w.streamReset).length ≤ 65535 := by
  have hstream := varintSize_int32_le w.streamId
  rw [streamReset_length]
  omega

theorem opening_length_le (h : w.Framed c) (hroomy : c.Roomy) (hopen : w.socketOpen ≠ none)
    {m : MessageFields} (hm : m ∈ w.opening) :
    (encode w.config.version m).length ≤ 65535 := by
  have hstream := varintSize_int32_le w.streamId
  rw [w.opening_length hm, h.config]
  rcases h.room hroomy hopen with hv1 | hroom
  · rw [if_pos hv1, if_pos hv1]
    cases c.clientMode <;> simp only <;> omega
  · have hid := SecureTunnelConfig.serviceIdSize_le hroom
    have htruthy := SecureTunnelConfig.serviceIdSize_le (truthyServiceId_room hroom)
    unfold SecureTunnelConfig.serviceIdRoom at hid htruthy
    cases hversion : c.version <;> cases hmode : c.clientMode <;>
      simp only [hversion, hmode, reduceCtorEq, if_true, if_false] at hid htruthy ⊢ <;> omega

section Sized

variable (hsized : ∀ v m, ((codecs v).encode m).length = encodedSize v m)
include hsized

theorem counts_of_encode {v : ProtocolVersion} {m : MessageFields}
    (hm : (encode v m).length ≤ 65535) : PrefixCounts (frame ((codecs v).encode m)) := by
  rw [prefixCounts_frame, hsized, ← encode_length]
  exact hm

theorem counts_dataWrites (h : w.Framed c) (hroomy : c.Roomy) (handlers : Handlers)
    (arrays : List Bytes) :
    ∀ i m f, .wrote i m f ∈ w.dataWrites ⟨codecs, handlers⟩ (chunksOf arrays) →
      PrefixCounts f := by
  intro i m f hmem
  cases hopen : w.socketOpen with
  | none => simp [dataWrites, hopen] at hmem
  | some j =>
    simp only [dataWrites, hopen, List.mem_map] at hmem
    obtain ⟨chunk, hchunk, hwrote⟩ := hmem
    cases hwrote
    apply counts_of_encode hsized
    exact h.dataMessage_length_le hroomy (by rw [hopen]; simp) (chunksOf_bounds hchunk).2

theorem counts_controlWrites {m : MessageFields} (handlers : Handlers)
    (hm : w.socketOpen ≠ none → (encode w.config.version m).length ≤ 65535) :
    ∀ i m' f, .wrote i m' f ∈ w.controlWrites ⟨codecs, handlers⟩ m → PrefixCounts f := by
  intro i m' f hmem
  cases hopen : w.socketOpen with
  | none => simp [controlWrites, hopen] at hmem
  | some j =>
    simp only [controlWrites, hopen, List.mem_singleton] at hmem
    cases hmem
    exact counts_of_encode hsized (hm (by rw [hopen]; simp))

end Sized

theorem keep (h : w.Framed c) (events : List Event) (hconfig : w'.config = w.config)
    (hconnection : w'.connectionId = w.connectionId)
    (hstream : c.clientMode = .source → w'.streamId = w.streamId)
    (hsockets : c.accessToken = "" → w.sockets = [] → w'.sockets = [])
    (htrace : w'.trace = w.trace ++ events)
    (hevents : ∀ i m f, .wrote i m f ∈ events → PrefixCounts f) : w'.Framed c where
  config := hconfig.trans h.config
  connectionId := hconnection.trans h.connectionId
  streamId := fun hmode => (hstream hmode).trans (h.streamId hmode)
  sockets := fun htoken => hsockets htoken (h.sockets htoken)
  counts := by
    intro i m f hmem
    rw [htrace] at hmem
    rcases List.mem_append.mp hmem with hmem | hmem
    · exact h.counts i m f hmem
    · exact hevents i m f hmem

theorem log (h : w.Framed c) {e : Event} (he : ∀ i m f, e ≠ .wrote i m f) : (w.log e).Framed c := by
  refine h.keep [e] rfl rfl (fun _ => rfl) (fun _ hs => hs) rfl ?_
  intro i m f hmem
  exact absurd (List.mem_singleton.mp hmem).symm (he i m f)

theorem logAll (h : w.Framed c) {events : List Event}
    (hevents : ∀ i m f, .wrote i m f ∈ events → PrefixCounts f) : (w.logAll events).Framed c :=
  h.keep events rfl rfl (fun _ => rfl) (fun _ hs => hs) rfl hevents

theorem congr (h : w.Framed c) (hconfig : w'.config = w.config)
    (hconnection : w'.connectionId = w.connectionId) (hstream : w'.streamId = w.streamId)
    (hsockets : w.sockets = [] → w'.sockets = []) (htrace : w'.trace = w.trace) : w'.Framed c := by
  refine h.keep [] hconfig hconnection (fun _ => hstream) (fun _ => hsockets) ?_ ?_
  · rw [htrace, List.append_nil]
  · exact fun _ _ _ hmem => absurd hmem List.not_mem_nil

theorem setSocket (h : w.Framed c) (i : ℕ) (s : ReadyState) : (w.setSocket i s).Framed c := by
  refine h.congr rfl rfl rfl (fun hs => ?_) rfl
  simp [World.setSocket, hs]

section Sized

variable (hsized : ∀ v m, ((codecs v).encode m).length = encodedSize v m)
include hsized

theorem apiCall (h : w.Framed c) (hroomy : c.Roomy) (handlers : Handlers) (call : ApiCall) :
    (w.apiCall ⟨codecs, handlers⟩ call).Framed c := by
  cases call with
  | connect constructs =>
    have hlog : (w.log .connectCalled).Framed c := h.log (by simp)
    simp only [World.apiCall, World.connect]
    split_ifs with hfails
    · exact hlog
    · refine hlog.keep [] rfl rfl (fun _ => rfl) (fun htoken => ?_) (List.append_nil _).symm
        (by simp)
      rw [log_config, h.config] at hfails
      exact absurd (Or.inl htoken) hfails
  | send data =>
    have hlog : (w.log (.sendCalled data)).Framed c := h.log (by simp)
    simp only [World.apiCall, World.send]
    split_ifs
    · exact hlog.congr rfl rfl rfl (fun hs => hs) rfl
    · rw [sendDataFrame_eq]
      have hchunks : slices maxPayloadSize data = chunksOf [data] := by simp [chunksOf]
      rw [hchunks]
      exact hlog.logAll (hlog.counts_dataWrites hsized hroomy handlers [data])
  | disconnect =>
    rw [World.apiCall, disconnect_eq]
    have hreset : (w.logAll (w.controlWrites ⟨codecs, handlers⟩ w.streamReset)).Framed c :=
      h.logAll (counts_controlWrites hsized handlers fun _ => streamReset_length_le w)
    refine hreset.congr rfl rfl rfl (fun hs => ?_) rfl
    cases hws : w.ws with
    | none => exact hs
    | some i => simp [closeSocket, show w.sockets = [] from hs]

theorem effect (h : w.Framed c) (hroomy : c.Roomy) {handlers : Handlers}
    (heffect : Effect ⟨codecs, handlers⟩ w w') : w'.Framed c := by
  cases heffect with
  | note e hpassive =>
    apply h.log
    rintro i m f rfl
    exact hpassive
  | call call => exact h.apiCall hsized hroomy handlers call
  | ready m hready hstarted =>
    have hreadied : (w.readied m).Framed c := by
      refine h.keep [.receivedMessage m] rfl rfl (fun hmode => ?_) (fun _ hs => hs) rfl (by simp)
      have hsource : w.config.clientMode ≠ .destination := by
        rw [h.config, hmode]
        decide
      exact if_neg hsource
    rw [processQueuedMessages_eq]
    have hqueue : ({ w.readied m with messageQueue := [] } : World).Framed c :=
      hreadied.congr rfl rfl rfl (fun hs => hs) rfl
    exact hqueue.logAll (hreadied.counts_dataWrites hsized hroomy handlers (w.readied m).messageQueue)
  | opened i hconnecting =>
    rw [onopen_eq]
    have hset := h.setSocket i .open
    have hconnected : ({ w.setSocket i .open with isConnected := true } : World).Framed c :=
      hset.congr rfl rfl rfl (fun hs => hs) rfl
    apply hconnected.logAll
    intro j m f hmem
    obtain ⟨m', hm', hmem⟩ := List.mem_flatMap.mp hmem
    exact counts_controlWrites hsized handlers (fun hopen => hset.opening_length_le hroomy hopen hm')
      j m f hmem
  | closing i hunclosed => exact h.setSocket i .closing
  | closed i hunclosed => exact (h.setSocket i .closed).congr rfl rfl rfl (fun hs => hs) rfl

/-- In a roomy configuration no frame of any run is too long for its prefix. -/
theorem session_counts (c : SecureTunnelConfig) (hroomy : c.Roomy) (handlers : Handlers)
    (inputs : List Input) (r : Receiver)
    (hrun : (session ⟨codecs, handlers⟩).run (Receiver.fresh c) inputs = some r) :
    r.world.Framed c := by
  apply (session ⟨codecs, handlers⟩).run_invariant (I := fun r => r.world.Framed c) ?_ inputs
    (Receiver.fresh c) r (Framed.fresh c) hrun
  intro s a t hs hstep
  exact (session_step_effects _ hstep).invariant
    (fun w w' heffect hw => hw.effect hsized hroomy heffect) hs

end Sized
end World.Framed

/-- A client connects, its socket opens, and a message makes it ready. -/
def readying (c : SecureTunnelConfig) (a : MessageFields) : List Input :=
  [.call (.connect true), .open 0, .message 0 (some (frame (encode c.version a)))]

theorem run_readying (handlers : Handlers) {c : SecureTunnelConfig} (htoken : c.accessToken ≠ "")
    {a : MessageFields} (hsize : (encode c.version a).length < 65536)
    (hready : (World.fresh c).Readies (a.read c.version)) :
    ∃ r, (session ⟨codec, handlers⟩).run (Receiver.fresh c) (readying c a) = some r ∧
      r.world.config = c ∧ r.world.connectionId = 1 ∧
      r.world.streamId = (if c.clientMode = .destination then a.streamId.getD 0 else 1) ∧
      r.world.ws = some 0 ∧ r.world.sockets = [.open] ∧
      r.world.isConnected = true ∧ r.world.tunnelReady = true := by
  set env : Env := ⟨codec, handlers⟩
  set w₁ : World :=
    { (World.fresh c).log .connectCalled with ws := some 0, sockets := [.connecting] }
  have hconnect : (session env).step (Receiver.fresh c) (.call (.connect true)) =
      some ⟨w₁, []⟩ := by
    have hworld : (World.fresh c).connect true = w₁ := if_neg (by simp [World.fresh, htoken])
    exact congrArg (fun w => some (Receiver.mk w [])) hworld
  set w₂ := (w₁.setSocket 0 .open).onopen env with hw₂
  rw [World.onopen_eq] at hw₂
  have hconfig : w₂.config = c := by rw [hw₂]; rfl
  have hreadies : w₂.Readies (a.read w₂.config.version) := by
    rw [World.Readies, hconfig]
    exact hready
  have hsize' : (encode w₂.config.version a).length < 65536 := by
    rw [hconfig]
    exact hsize
  have hdispatch : w₂.dispatch env (encode w₂.config.version a) =
      ((w₂.log (.receivedFrame (encode w₂.config.version a))).readied
        (a.read w₂.config.version)).processQueuedMessages env :=
    w₂.dispatch_readies codec handlers (interoperate_codec.roundTrips _) hsize' hreadies
  have hmessage : (session env).step ⟨w₂, []⟩ (.message 0 (some (frame (encode c.version a)))) =
      some ⟨w₂.dispatch env (encode c.version a), []⟩ := by
    have hframe := Receiver.handleIncomingData_frame env (r := ⟨w₂, []⟩) rfl hsize
    rw [← hframe]
    exact if_pos (by rw [hw₂]; rfl)
  have hrun : (session env).run (Receiver.fresh c) (readying c a) =
      some ⟨w₂.dispatch env (encode c.version a), []⟩ :=
    ((session env).run_cons_eq_some).mpr ⟨_, hconnect, ((session env).run_cons_eq_some).mpr
      ⟨⟨w₂, []⟩, rfl, ((session env).run_cons_eq_some).mpr ⟨_, hmessage, rfl⟩⟩⟩
  rw [hconfig] at hdispatch
  refine ⟨_, hrun, ?_⟩
  dsimp only
  rw [hdispatch, World.processQueuedMessages_eq, hw₂]
  exact ⟨rfl, rfl, rfl, rfl, rfl, rfl, rfl⟩

/-- What makes a client ready whose service id is long: a destination adopts a stream id
that takes ten bytes. -/
def lengthening : ClientMode → MessageFields
  | .source => { type := TunnelMessageType.serviceIds }
  | .destination => { type := TunnelMessageType.streamStart, streamId := some (-1) }

/-- A full chunk. -/
def fullChunk : Bytes := List.replicate World.maxPayloadSize 0

theorem World.dataMessage_overflows {w : World} {id : String}
    (hversion : w.config.version ≠ .v1) (hid : w.config.serviceId = some id)
    (hlong : w.config.serviceIdRoom < (utf8 id).length) (hconnection : w.connectionId = 1)
    (hstream : w.streamId = if w.config.clientMode = .destination then -1 else 1) :
    65535 < (encode w.config.version (w.dataMessage fullChunk)).length := by
  have hsize : varintSize (int32ToNat w.streamId) =
      if w.config.clientMode = .destination then 10 else 1 := by
    rw [hstream]
    split_ifs
    · exact varintSize_eq (k := 9) (by decide) (by decide)
    · exact varintSize_eq_one (by decide)
  have htruthy : w.config.truthyServiceId = some id := by
    refine Option.filter_eq_some_iff.mpr ⟨hid, decide_eq_true ?_⟩
    rintro rfl
    exact absurd hlong (Nat.not_lt_zero _)
  have hpayload : delimitedSize fullChunk.length = 64515 := by
    rw [fullChunk, List.length_replicate, delimitedSize,
      varintSize_eq (k := 2) (by decide) (by decide)]
    rfl
  have hone : varintSize w.connectionId.toNat = 1 := by
    rw [hconnection]
    exact varintSize_eq_one (by decide)
  have hmono : delimitedSize (w.config.serviceIdRoom + 1) ≤ delimitedSize (utf8 id).length :=
    delimitedSize_mono hlong
  have htwo : delimitedSize (w.config.serviceIdRoom + 1) = w.config.serviceIdRoom + 3 := by
    unfold SecureTunnelConfig.serviceIdRoom
    split <;> exact delimitedSize_two (by omega) (by omega)
  rw [dataMessage_length, hsize, hpayload, hone, htruthy, if_neg hversion, serviceIdSize,
    Option.elim_some]
  rw [htwo] at hmono
  unfold SecureTunnelConfig.serviceIdRoom at hmono
  cases hv : w.config.version <;> cases hmode : w.config.clientMode <;>
    simp only [hv, hmode, reduceCtorEq, if_true, if_false] at hmono hversion ⊢ <;> omega

/-- Where the service id is too long, a send of one full chunk writes a wrong prefix. -/
theorem run_overflows (handlers : Handlers) {c : SecureTunnelConfig} (h : ¬ c.Roomy) :
    ∃ r m f, (session ⟨codec, handlers⟩).run (Receiver.fresh c)
        (readying c (lengthening c.clientMode) ++ [.call (.send fullChunk)]) = some r ∧
      .wrote 0 m f ∈ r.world.trace ∧ f = frame (encode c.version m) ∧
      65535 < (encode c.version m).length := by
  simp only [SecureTunnelConfig.Roomy, not_or, not_forall, Nat.not_le] at h
  obtain ⟨htoken, hversion, id, hid, hlong⟩ := h
  have hready : (World.fresh c).Readies ((lengthening c.clientMode).read c.version) := by
    cases hmode : c.clientMode with
    | source => exact Or.inr ⟨rfl, hmode⟩
    | destination => exact Or.inl ⟨rfl, hmode⟩
  have hsize : (encode c.version (lengthening c.clientMode)).length < 65536 := by
    cases c.version <;> cases c.clientMode <;> decide +kernel
  obtain ⟨r, hrun, hconfig, hconnection, hstream, hws, hsockets, hconnected, htunnel⟩ :=
    run_readying handlers htoken hsize hready
  have hopen : r.world.socketOpen = some 0 := by
    rw [World.socketOpen, hws, hsockets]
    rfl
  have hchunk : slices World.maxPayloadSize fullChunk = [fullChunk] := by
    apply slices_single
    · decide
    · rw [fullChunk, List.length_replicate]
  have hsend := @World.send_direct ⟨codec, handlers⟩ r.world fullChunk
    (by rw [hconnected, hws, htunnel]; simp)
  rw [hchunk, World.dataWrites, hopen] at hsend
  refine ⟨⟨r.world.send ⟨codec, handlers⟩ fullChunk, r.receiveBuffer⟩,
    r.world.dataMessage fullChunk, _, ?_, ?_, rfl, ?_⟩
  · rw [Machine.run_append, hrun]
    rfl
  · dsimp only
    rw [hsend]
    apply List.mem_append_right
    apply List.mem_cons_of_mem
    rw [hconfig]
    exact List.mem_singleton_self _
  · rw [← hconfig] at hversion hid hlong ⊢
    apply r.world.dataMessage_overflows hversion hid hlong hconnection
    rw [hstream, hconfig]
    cases c.clientMode <;> rfl

/-- The prefixes of all frames of all runs are the lengths of their bodies exactly in the
roomy configurations. -/
theorem frames_count_iff (c : SecureTunnelConfig) :
    (∀ (handlers : Handlers) (inputs : List Input) (r : Receiver),
      (session ⟨codec, handlers⟩).run (Receiver.fresh c) inputs = some r →
        ∀ i m f, .wrote i m f ∈ r.world.trace → PrefixCounts f) ↔ c.Roomy := by
  constructor
  · intro h
    by_contra hroomy
    obtain ⟨r, m, f, hrun, hwrote, hframe, hlong⟩ := run_overflows .passive hroomy
    have hcounts := h .passive _ r hrun 0 m f hwrote
    rw [hframe, prefixCounts_frame] at hcounts
    omega
  · exact fun hroomy handlers inputs r hrun =>
      (World.Framed.session_counts encode_length c hroomy handlers inputs r hrun).counts

/-- A source whose service id is one byte too long. -/
def longServiceId : SecureTunnelConfig :=
  ⟨"eu-west-1", "token", .source, some (String.ofList (List.replicate 1013 'a')), some .v2⟩

/-- Such a source sends 64512 bytes at once, and the prefix of the frame is not its length. -/
theorem frames_count_long :
    ∃ r m f, (session ⟨codec, .passive⟩).run (Receiver.fresh longServiceId)
        (readying longServiceId { type := TunnelMessageType.serviceIds } ++
          [.call (.send fullChunk)]) = some r ∧
      .wrote 0 m f ∈ r.world.trace ∧ f = frame (encode .v2 m) ∧ ¬ PrefixCounts f := by
  have hlong : ¬ longServiceId.Roomy := by
    rintro (htoken | hversion | hroom)
    · revert htoken
      decide
    · cases hversion
    · have hlen : (utf8 (String.ofList (List.replicate 1013 'a'))).length ≤ 1012 := hroom _ rfl
      revert hlen
      decide +kernel
  obtain ⟨r, m, f, hrun, hwrote, hframe, hsize⟩ := run_overflows .passive hlong
  refine ⟨r, m, f, hrun, hwrote, hframe, ?_⟩
  rw [hframe, prefixCounts_frame]
  exact Nat.not_le.mpr hsize

end SshClientWasm.Tunnel
