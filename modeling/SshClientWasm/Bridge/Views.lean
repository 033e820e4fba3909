import SshClientWasm.Bridge.Objects
import SshClientWasm.Tunnel.Order
import SshClientWasm.Tunnel.ProtobufMessages

/-!
# Views into a larger buffer

A `Uint8Array` shows a part of its buffer. The tunnel cuts its chunks out of the view,
`WebSocketTransport` hands over the buffer. Go makes arrays that show the whole of it, but
`send` is public.
-/
namespace SshClientWasm.Bridge

open Library Tunnel

/-- A `Uint8Array`, with what its buffer contains. -/
structure Uint8Array where
  buffer : Bytes
  byteOffset : ℕ
  length : ℕ
  within : byteOffset + length ≤ buffer.length

namespace Uint8Array

/-- An array with a buffer of its own. -/
def whole (bytes : Bytes) : Uint8Array := ⟨bytes, 0, bytes.length, (Nat.zero_add _).le⟩

variable (v : Uint8Array)

def bytes : Bytes := (v.buffer.drop v.byteOffset).take v.length

/-- `slice`, which copies. -/
def slice (i j : ℕ) : Uint8Array :=
  whole ((v.buffer.drop (v.byteOffset + i)).take (min j v.length - i))

@[simp] theorem bytes_whole (bytes : Bytes) : (whole bytes).bytes = bytes := List.take_length

@[simp] theorem bytes_length : v.bytes.length = v.length := by
  have h := v.within
  rw [bytes, List.length_take, List.length_drop]
  omega

theorem bytes_slice (i j : ℕ) : (v.slice i j).bytes = (v.bytes.drop i).take (j - i) := by
  rw [slice, bytes_whole, bytes, List.drop_take, List.drop_drop, List.take_take]
  congr 1
  omega

/-- A view shows all of its buffer exactly if it is as long. -/
theorem buffer_eq_bytes_iff : v.buffer = v.bytes ↔ v.length = v.buffer.length := by
  constructor
  · intro h
    rw [h, bytes_length]
  · intro h
    have hoffset : v.byteOffset = 0 := by
      have hwithin := v.within
      omega
    rw [bytes, hoffset, List.drop_zero, h, List.take_length]

end Uint8Array

/-- `WebSocketTransport.send`: what goes to which socket. -/
def WebSocketTransport.send (t : WebSocketTransport) (data : Uint8Array) :
    Except String (ℕ × Bytes) :=
  match t.ws.filter fun i => t.sockets[i]? = some .open with
  | none => .error "WebSocket is not connected"
  | some i => .ok (i, data.buffer)

/-- The chunks that `sendDataFrame` cuts out of a view from an offset on. -/
def chunksFrom (data : Uint8Array) : ℕ → ℕ → List Uint8Array
  | 0, _ => []
  | fuel + 1, i =>
    if i < data.length then
      data.slice i (min (i + World.maxPayloadSize) data.length) ::
        chunksFrom data fuel (i + World.maxPayloadSize)
    else []

/-- `SecureTunnelTransport.send` of a view. -/
def sendView (env : Env) (w : World) (data : Uint8Array) : World :=
  let w := w.log (.sendCalled data.bytes)
  if w.isConnected = false ∨ w.ws = none ∨ w.tunnelReady = false then
    { w with messageQueue := w.messageQueue ++ [data.bytes] }
  else
    (chunksFrom data data.length 0).foldl
      (fun w chunk => w.sendFrame (w.encodeMessage env (w.dataMessage chunk.bytes))) w

theorem chunksFrom_bytes (v : Uint8Array) (fuel i : ℕ) :
    (chunksFrom v fuel i).map Uint8Array.bytes =
      slicesFrom World.maxPayloadSize fuel (v.bytes.drop i) := by
  induction fuel generalizing i with
  | zero => rfl
  | succ fuel ih =>
    have hlength : (v.bytes.drop i).length = v.length - i := by
      rw [List.length_drop, v.bytes_length]
    unfold chunksFrom
    split_ifs with hlt
    · obtain ⟨x, xs, hcons⟩ := List.exists_cons_of_length_pos (l := v.bytes.drop i) (by omega)
      rw [List.map_cons, ih, v.bytes_slice, hcons, slicesFrom, ← hcons, List.drop_drop]
      congr 1
      rw [List.take_eq_take_iff, hlength]
      omega
    · rw [List.eq_nil_of_length_eq_zero (l := v.bytes.drop i) (by omega)]
      rfl

theorem sendView_eq (env : Env) (w : World) (v : Uint8Array) :
    sendView env w v = w.send env v.bytes := by
  have hchunks := chunksFrom_bytes v v.length 0
  rw [List.drop_zero] at hchunks
  unfold sendView World.send
  dsimp only
  split_ifs with hqueued
  · rfl
  · rw [World.sendDataFrame, slices, v.bytes_length, ← hchunks, List.foldl_map]

/-- On open sockets, and behind the handshake of the tunnel: what the tunnel sends is always
what the view shows, and what `WebSocketTransport` sends is that, or the same as what the
tunnel sends, exactly if the view shows the whole of its buffer. -/
theorem sent_eq_bytes_iff (env : Env) (t : WebSocketTransport) (w : World) (v : Uint8Array)
    (i j : ℕ) (hws : t.ws = some i) (hsocket : t.sockets[i]? = some .open)
    (hconnected : w.isConnected = true) (hready : w.tunnelReady = true)
    (hopen : w.socketOpen = some j) :
    ∃ sent chunks, t.send v = .ok (i, sent) ∧
      writtenFrames (sendView env w v).trace =
        writtenFrames w.trace ++ chunks.map (fun chunk => frame (w.dataBody env chunk)) ∧
      sentPayloads (sendView env w v).trace = sentPayloads w.trace ++ chunks ∧
      chunks.flatten = v.bytes ∧
      (sent = v.bytes ↔ v.length = v.buffer.length) ∧
      (sent = chunks.flatten ↔ v.length = v.buffer.length) := by
  have hflatten : (slices World.maxPayloadSize v.bytes).flatten = v.bytes :=
    slices_flatten (by decide) v.bytes
  have hdirect : ¬(w.isConnected = false ∨ w.ws = none ∨ w.tunnelReady = false) := by
    have hws : w.ws ≠ none := by
      rintro hnone
      rw [World.socketOpen, hnone] at hopen
      cases hopen
    simp [hconnected, hready, hws]
  have htrace : (sendView env w v).trace = w.trace ++ [.sendCalled v.bytes] ++
      w.dataWrites env (slices World.maxPayloadSize v.bytes) := by
    rw [sendView_eq, w.send_direct env hdirect, World.logAll_trace, List.append_assoc]
    rfl
  refine ⟨v.buffer, slices World.maxPayloadSize v.bytes, ?_, ?_, ?_, hflatten,
    v.buffer_eq_bytes_iff, ?_⟩
  · have hfilter : (some i).filter (fun k => t.sockets[k]? = some .open) = some i := by
      simp [hsocket]
    rw [WebSocketTransport.send, hws, hfilter]
  · rw [htrace, writtenFrames_append, writtenFrames_append, w.writtenFrames_dataWrites env hopen]
    exact congrArg (· ++ _) (List.append_nil _)
  · rw [htrace, sentPayloads_append, sentPayloads_append, World.sentPayloads_dataWrites hopen]
    exact congrArg (· ++ _) (List.append_nil _)
  · rw [hflatten]
    exact v.buffer_eq_bytes_iff

/-- A tunnel behind its handshake. -/
def readyWorld : World :=
  { World.fresh ⟨"eu-west-1", "token", .source, none, none⟩ with
    ws := some 0
    sockets := [.open]
    isConnected := true
    tunnelReady := true }

theorem sent_eq_bytes_iff_whole :
    ∃ sent chunks, WebSocketTransport.send ⟨some 0, [.open]⟩ (.whole [1, 2]) = .ok (0, sent) ∧
      sentPayloads (sendView ⟨ProtobufMessages.codec, .passive⟩ readyWorld (.whole [1, 2])).trace =
        chunks ∧
      sent = [1, 2] ∧ sent = chunks.flatten := by
  obtain ⟨sent, chunks, hsend, _, hpayloads, _, hbytes, hsame⟩ :=
    sent_eq_bytes_iff ⟨ProtobufMessages.codec, .passive⟩ ⟨some 0, [.open]⟩ readyWorld
      (.whole [1, 2]) 0 0 rfl rfl rfl rfl rfl
  exact ⟨sent, chunks, hsend, hpayloads, hbytes.mpr rfl, hsame.mpr rfl⟩

/-- Three bytes in the middle of five. -/
def middle : Uint8Array := ⟨[9, 1, 2, 3, 8], 1, 3, by decide⟩

/-- `WebSocketTransport` sends the whole buffer, the tunnel the three bytes. -/
theorem middle_sent : middle.bytes = [1, 2, 3] ∧
    WebSocketTransport.send ⟨some 0, [.open]⟩ middle = .ok (0, [9, 1, 2, 3, 8]) ∧
    sentPayloads (sendView ⟨ProtobufMessages.codec, .passive⟩ readyWorld middle).trace =
      [[1, 2, 3]] :=
  ⟨rfl, rfl, rfl⟩

end SshClientWasm.Bridge
