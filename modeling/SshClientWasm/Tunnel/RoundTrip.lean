import SshClientWasm.Tunnel.Receive
import SshClientWasm.Tunnel.WireFields

/-!
# Data through the tunnel

What `sendDataFrame` writes to an open socket, `handleIncomingData` of a peer
with the same protocol version turns back into the same bytes, however the
frames are cut into socket messages on the way.
-/
namespace SshClientWasm.Tunnel

open Library

namespace World

variable (env : Env) (w : World)

/-- The chunks of several arrays sent one after the other. -/
def chunksOf (arrays : List Bytes) : List Bytes := arrays.flatMap (slices maxPayloadSize)

theorem chunksOf_flatten (arrays : List Bytes) : (chunksOf arrays).flatten = arrays.flatten := by
  induction arrays with
  | nil => rfl
  | cons array arrays ih =>
    have hslices : (slices maxPayloadSize array).flatten = array :=
      slices_flatten (by decide) array
    have hcons : chunksOf (array :: arrays) = slices maxPayloadSize array ++ chunksOf arrays :=
      List.flatMap_cons
    rw [hcons, List.flatten_append, hslices, ih, List.flatten_cons]

theorem chunksOf_bounds {arrays : List Bytes} {chunk : Bytes} (h : chunk ∈ chunksOf arrays) :
    chunk ≠ [] ∧ chunk.length ≤ maxPayloadSize := by
  obtain ⟨array, _, hchunk⟩ := List.mem_flatMap.mp h
  exact slices_bounds (by decide) hchunk

theorem foldl_sendDataFrame_eq (arrays : List Bytes) :
    arrays.foldl (sendDataFrame env) w = w.logAll (w.dataWrites env (chunksOf arrays)) := by
  induction arrays generalizing w with
  | nil => simp [chunksOf]
  | cons array arrays ih =>
    have hsame : (w.logAll (w.dataWrites env (slices maxPayloadSize array))).dataWrites env
        (chunksOf arrays) = w.dataWrites env (chunksOf arrays) := rfl
    rw [List.foldl_cons, sendDataFrame_eq, ih, hsame, logAll_logAll, ← dataWrites_append]
    rfl

/-- The body of the frame written around a chunk. -/
def dataBody (chunk : Bytes) : Bytes :=
  (env.codecs w.config.version).encode (w.dataMessage chunk)

theorem writtenFrames_dataWrites {i : ℕ} (hopen : w.socketOpen = some i) (chunks : List Bytes) :
    writtenFrames (w.dataWrites env chunks) = chunks.map fun chunk => frame (w.dataBody env chunk) := by
  simp only [dataWrites, hopen]
  induction chunks with
  | nil => rfl
  | cons chunk chunks ih =>
    rw [List.map_cons, List.map_cons, ← ih]
    rfl

theorem dispatch_data {m : MessageFields} {body : Bytes}
    (hdecode : (env.codecs w.config.version).decode body = .ok (m.read w.config.version))
    (htype : m.type = TunnelMessageType.data) (honData : env.handlers.onData.isSome) :
    onErrors (w.dispatch env body).trace = onErrors w.trace ∧
      onDataPayloads (w.dispatch env body).trace = onDataPayloads w.trace ++ [m.payload.getD []] := by
  have hdispatch : w.dispatch env body =
      (w.log (.receivedFrame body)).handleMessage env (m.read w.config.version) := by
    simp [dispatch, hdecode]
  obtain ⟨events, htrace, hhandled, hpayload⟩ :=
    handleMessage_trace env (w.log (.receivedFrame body)) (m.read w.config.version)
  have herrors := (received_of_handled hhandled).2.2
  have hpayloads : onDataPayloads events = [m.payload.getD []] := hpayload htype honData
  have hsplit : (w.dispatch env body).trace = w.trace ++
      [.receivedFrame body, .receivedMessage (m.read w.config.version)] ++ events := by
    rw [hdispatch, htrace, log_trace, List.append_assoc, List.append_assoc]
    rfl
  constructor
  · rw [hsplit, onErrors_append, onErrors_append, herrors, List.append_nil]
    exact List.append_nil _
  · rw [hsplit, onDataPayloads_append, onDataPayloads_append, hpayloads]
    exact congrArg (· ++ _) (List.append_nil _)

/-- Chunks whose messages fit a frame arrive at `onData` as they were sent, in order. -/
theorem foldl_dispatch_data (sender : World) (hversion : w.config.version = sender.config.version)
    (hround : (env.codecs sender.config.version).RoundTrips sender.config.version)
    (honData : env.handlers.onData.isSome) (chunks : List Bytes)
    (hfit : ∀ chunk ∈ chunks, (sender.dataBody env chunk).length ≤ 65535) :
    onErrors ((chunks.map (sender.dataBody env)).foldl (dispatch env) w).trace = onErrors w.trace ∧
      onDataPayloads ((chunks.map (sender.dataBody env)).foldl (dispatch env) w).trace =
        onDataPayloads w.trace ++ chunks := by
  induction chunks generalizing w with
  | nil => simp
  | cons chunk chunks ih =>
    have hdecode : (env.codecs w.config.version).decode (sender.dataBody env chunk) =
        .ok ((sender.dataMessage chunk).read w.config.version) := by
      rw [hversion]
      apply hround
      exact hfit chunk (by simp)
    obtain ⟨herrors, hpayloads⟩ := dispatch_data env w hdecode rfl honData
    have hnext : (w.dispatch env (sender.dataBody env chunk)).config.version =
        sender.config.version := by
      rw [dispatch_config, hversion]
    obtain ⟨ihErrors, ihPayloads⟩ := ih _ hnext fun c hc => hfit c (by simp [hc])
    rw [List.map_cons, List.foldl_cons]
    constructor
    · rw [ihErrors, herrors]
    · rw [ihPayloads, hpayloads, List.append_assoc]
      rfl

end World

/-- Arrays sent on an open socket arrive whole at a fresh peer of the same
protocol version, whatever the segmentation of the frames on the way. -/
theorem Receiver.handleIncomingData_sendDataFrame (codecs : ProtocolVersion → Codec)
    (handlers handlers' : Handlers) (w : World) (i : ℕ) (arrays chunks : List Bytes)
    (config : SecureTunnelConfig) (hversion : config.version = w.config.version)
    (hround : (codecs w.config.version).RoundTrips w.config.version)
    (hopen : w.socketOpen = some i) (honData : handlers'.onData.isSome)
    (hfit : ∀ array ∈ arrays, ∀ chunk ∈ slices World.maxPayloadSize array,
      ((codecs w.config.version).encode (w.dataMessage chunk)).length ≤ 65535)
    (hsplit : (writtenFrames
        (arrays.foldl (World.sendDataFrame ⟨codecs, handlers⟩) w).trace).flatten =
      (writtenFrames w.trace).flatten ++ chunks.flatten) :
    let final := chunks.foldl (handleIncomingData ⟨codecs, handlers'⟩) (.fresh config)
    onErrors final.world.trace = [] ∧
    (onDataPayloads final.world.trace).flatten = arrays.flatten ∧
    (∀ payload ∈ onDataPayloads final.world.trace,
      payload ≠ [] ∧ payload.length ≤ World.maxPayloadSize) ∧
    final.receiveBuffer = [] := by
  intro final
  have hfit' : ∀ chunk ∈ World.chunksOf arrays,
      (w.dataBody ⟨codecs, handlers'⟩ chunk).length ≤ 65535 := by
    intro chunk hchunk
    obtain ⟨array, harray, hmem⟩ := List.mem_flatMap.mp hchunk
    exact hfit array harray chunk hmem
  have hbytes : chunks.flatten =
      ((World.chunksOf arrays).map (w.dataBody ⟨codecs, handlers'⟩)).flatMap frame := by
    rw [World.foldl_sendDataFrame_eq, World.logAll_trace, writtenFrames_append,
      World.writtenFrames_dataWrites _ _ hopen, List.flatten_append] at hsplit
    rw [← List.append_cancel_left hsplit, List.flatMap_map]
    rfl
  have hcut : frameCutter.cut chunks.flatten =
      ((World.chunksOf arrays).map (w.dataBody ⟨codecs, handlers'⟩), []) := by
    have hrecognised : ∀ body ∈ (World.chunksOf arrays).map (w.dataBody ⟨codecs, handlers'⟩),
        frameCutter.next (frame body) = some (body, []) := by
      intro body hbody
      obtain ⟨chunk, hchunk, rfl⟩ := List.mem_map.mp hbody
      have hlen := hfit' chunk hchunk
      exact frameCutter_frame (by omega)
    have hcut := frameCutter.cut_flatMap frame [] _ hrecognised
    rw [frameCutter.cut_of_none (s := []) rfl, List.append_nil, List.append_nil] at hcut
    rw [hbytes, hcut]
  have hfinal : final = (Receiver.fresh config).handleIncomingData ⟨codecs, handlers'⟩
      chunks.flatten := foldl_handleIncomingData _ _ _ rfl
  have hcut' : frameCutter.cut ((Receiver.fresh config).receiveBuffer ++ chunks.flatten) =
      ((World.chunksOf arrays).map (w.dataBody ⟨codecs, handlers'⟩), []) := hcut
  rw [handleIncomingData_eq, hcut'] at hfinal
  obtain ⟨herrors, hpayloads⟩ := World.foldl_dispatch_data ⟨codecs, handlers'⟩
    (Receiver.fresh config).world w hversion hround honData (World.chunksOf arrays) hfit'
  have hall : onDataPayloads final.world.trace = World.chunksOf arrays := by
    rw [hfinal]
    exact hpayloads
  refine ⟨?_, ?_, ?_, ?_⟩
  · rw [hfinal]
    exact herrors
  · rw [hall, World.chunksOf_flatten]
  · intro payload hpayload
    rw [hall] at hpayload
    exact World.chunksOf_bounds hpayload
  · rw [hfinal]

/-- Two arrays and an empty one, in two frames cut inside the first prefix and
the second body. -/
theorem Receiver.handleIncomingData_sendDataFrame_split :
    let config : SecureTunnelConfig := ⟨"eu-west-1", "token", .source, none, none⟩
    let final := [[0], [9, 8, 1, 16, 1, 34, 3, 1, 2, 3, 0, 7, 8, 1], [16, 1, 34, 1, 4]].foldl
      (handleIncomingData ⟨ProtobufMessages.codec, .passive⟩) (.fresh config)
    (onDataPayloads final.world.trace).flatten = [1, 2, 3, 4] ∧ final.receiveBuffer = [] := by
  intro config final
  have hall := handleIncomingData_sendDataFrame ProtobufMessages.codec .passive .passive
    { World.fresh config with ws := some 0, sockets := [.open] } 0 [[1, 2, 3], [], [4]]
    [[0], [9, 8, 1, 16, 1, 34, 3, 1, 2, 3, 0, 7, 8, 1], [16, 1, 34, 1, 4]] config rfl
    (ProtobufMessages.interoperate_codec.roundTrips _) rfl rfl (by decide) (by decide)
  exact ⟨hall.2.1, hall.2.2.2⟩

end SshClientWasm.Tunnel
