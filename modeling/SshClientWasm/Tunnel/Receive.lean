import SshClientWasm.Tunnel.ProtobufMessages
import SshClientWasm.Tunnel.Record

/-!
# The receive loop

`handleIncomingData` cuts the buffered bytes at their length prefixes and
dispatches the bodies in order. Handling a message cannot reach the buffer, so
the cutting depends on the bytes alone: neither the pieces in which they arrive
nor a body that does not decode changes how the others are cut.
-/
namespace SshClientWasm.Tunnel

open Library

namespace Receiver

variable (env : Env) (r : Receiver)

theorem frameStep_eq :
    r.frameStep env =
      (frameCutter.next r.receiveBuffer).map fun p => ⟨r.world.dispatch env p.1, p.2⟩ := by
  obtain ⟨w, buffer⟩ := r
  rcases buffer with _ | ⟨hi, _ | ⟨lo, rest⟩⟩
  · rfl
  · rfl
  · by_cases h : rest.length < getUint16 hi lo
    · simp [frameStep, frameCutter, nextFrame, h]
    · simp [frameStep, frameCutter, nextFrame, h]

theorem frameStep_eq_none : r.frameStep env = none ↔ frameCutter.next r.receiveBuffer = none := by
  rw [frameStep_eq, Option.map_eq_none_iff]

theorem frameLoop_eq : ∀ (turns : ℕ) (r : Receiver), r.receiveBuffer.length ≤ turns →
    frameLoop env turns r =
      { world := (frameCutter.cut r.receiveBuffer).1.foldl (World.dispatch env) r.world
        receiveBuffer := (frameCutter.cut r.receiveBuffer).2 } := by
  intro turns
  induction turns with
  | zero =>
    intro r h
    have hnil : r.receiveBuffer = [] := List.length_eq_zero_iff.mp (Nat.le_zero.mp h)
    have hnone : frameCutter.next r.receiveBuffer = none := by rw [hnil]; rfl
    rw [frameLoop, frameCutter.cut_of_none hnone]
    rfl
  | succ turns ih =>
    intro r h
    rw [frameLoop, frameStep_eq]
    cases hnext : frameCutter.next r.receiveBuffer with
    | none =>
      rw [frameCutter.cut_of_none hnext]
      rfl
    | some p =>
      have hlt := frameCutter.shrinks hnext
      rw [frameCutter.cut_of_some hnext, Option.map_some]
      exact ih _ (by dsimp only; omega)

theorem handleIncomingData_eq (data : Bytes) :
    r.handleIncomingData env data =
      { world := (frameCutter.cut (r.receiveBuffer ++ data)).1.foldl (World.dispatch env) r.world
        receiveBuffer := (frameCutter.cut (r.receiveBuffer ++ data)).2 } :=
  frameLoop_eq env _ _ le_rfl

/-- The loop really ends: no complete frame is left in the buffer. -/
theorem frameStep_handleIncomingData (data : Bytes) :
    (r.handleIncomingData env data).frameStep env = none := by
  rw [frameStep_eq_none, handleIncomingData_eq]
  exact frameCutter.next_cut_rest _

/-- The receiver is the buffered consumer of the frame cutter. -/
theorem foldl_handleIncomingData (chunks : List Bytes) (hidle : r.frameStep env = none) :
    chunks.foldl (handleIncomingData env) r = r.handleIncomingData env chunks.flatten := by
  have hfeed : ∀ (chunks : List Bytes) (r : Receiver),
      chunks.foldl (handleIncomingData env) r =
        ⟨(chunks.foldl (frameCutter.feed (World.dispatch env)) (r.receiveBuffer, r.world)).2,
          (chunks.foldl (frameCutter.feed (World.dispatch env)) (r.receiveBuffer, r.world)).1⟩ := by
    intro chunks
    induction chunks with
    | nil => exact fun r => rfl
    | cons chunk chunks ih =>
      intro r
      rw [List.foldl_cons, ih, handleIncomingData_eq, List.foldl_cons]
      rfl
  rw [hfeed, frameCutter.feed_flatten _ _ _ ((frameStep_eq_none env r).mp hidle),
    handleIncomingData_eq]
  rfl

end Receiver

namespace World

variable (env : Env) (w : World)

/-- The message a body decodes to, if it does. -/
def decoded (body : Bytes) : Option TunnelMessage :=
  ((env.codecs w.config.version).decode body).toOption

/-- The error a body fails to decode with, if it does. -/
def decodeError (body : Bytes) : Option String :=
  match (env.codecs w.config.version).decode body with
  | .ok _ => none
  | .error e => some e

theorem dispatch_received (body : Bytes) :
    receivedFrames (w.dispatch env body).trace = receivedFrames w.trace ++ [body] ∧
      receivedMessages (w.dispatch env body).trace =
        receivedMessages w.trace ++ (w.decoded env body).toList ∧
      (env.handlers.onError.isSome →
        onErrors (w.dispatch env body).trace =
          onErrors w.trace ++ (w.decodeError env body).toList) := by
  obtain ⟨events, htrace, hall⟩ := w.dispatch_trace env body
  obtain ⟨hframes, hmessages, herrors⟩ := received_of_handled hall
  have hsplit : (w.dispatch env body).trace =
      w.trace ++ ([.receivedFrame body] ++ (w.verdict env body ++ events)) := htrace
  rw [hsplit]
  simp only [receivedFrames_append, receivedMessages_append, onErrors_append, hframes, hmessages,
    herrors, List.append_nil]
  cases hdec : (env.codecs w.config.version).decode body with
  | ok m =>
    simp [verdict, decoded, decodeError, hdec, receivedFrames, receivedMessages, onErrors,
      Except.toOption]
  | error e =>
    by_cases hsome : env.handlers.onError.isSome
    · simp [verdict, decoded, decodeError, hdec, hsome, receivedFrames, receivedMessages, onErrors,
        Except.toOption]
    · simp [verdict, decoded, decodeError, hdec, hsome, receivedFrames, receivedMessages,
        Except.toOption]

theorem foldl_dispatch_received : ∀ (bodies : List Bytes) (w : World),
    receivedFrames (bodies.foldl (dispatch env) w).trace = receivedFrames w.trace ++ bodies ∧
      receivedMessages (bodies.foldl (dispatch env) w).trace =
        receivedMessages w.trace ++ bodies.filterMap (w.decoded env) ∧
      (env.handlers.onError.isSome →
        onErrors (bodies.foldl (dispatch env) w).trace =
          onErrors w.trace ++ bodies.filterMap (w.decodeError env)) := by
  intro bodies
  induction bodies with
  | nil => intro w; simp
  | cons body bodies ih =>
    intro w
    obtain ⟨hframes, hmessages, herrors⟩ := w.dispatch_received env body
    obtain ⟨ihframes, ihmessages, iherrors⟩ := ih (w.dispatch env body)
    have hdecoded : (w.dispatch env body).decoded env = w.decoded env := by
      funext b
      rw [decoded, decoded, dispatch_config]
    have herror : (w.dispatch env body).decodeError env = w.decodeError env := by
      funext b
      rw [decodeError, decodeError, dispatch_config]
    rw [List.foldl_cons]
    refine ⟨?_, ?_, fun hsome => ?_⟩
    · rw [ihframes, hframes, List.append_assoc, List.singleton_append]
    · rw [ihmessages, hmessages, hdecoded, List.append_assoc]
      cases hd : w.decoded env body <;> simp [hd]
    · rw [iherrors hsome, herrors hsome, herror, List.append_assoc]
      cases hd : w.decodeError env body <;> simp [hd]

end World

/-- Bytes that do not make up one complete frame. -/
def Incomplete (s : Bytes) : Prop :=
  s.length < 2 ∨ ∃ hi lo rest, s = hi :: lo :: rest ∧ s.length < 2 + getUint16 hi lo

namespace Receiver

/-- However a stream is split, a receiver between two events ends in the state it
reaches on the whole stream, with the same record. The bodies it dispatches are
the longest cutting of the stream at its length prefixes; what stays in the
buffer is shorter than a frame; and each body that does not decode is reported
once, while every other body is still decoded in its place. -/
theorem handleIncomingData_segmentation (env : Env) (r : Receiver)
    (hidle : r.frameStep env = none) (stream : Bytes) (chunks : List Bytes)
    (hsplit : chunks.flatten = stream) :
    let final := chunks.foldl (handleIncomingData env) r
    let bodies := (frameCutter.cut (r.receiveBuffer ++ stream)).1
    final = r.handleIncomingData env stream ∧
    final.frameStep env = none ∧
    final.world = bodies.foldl (World.dispatch env) r.world ∧
    frameCutter.CutsTo (r.receiveBuffer ++ stream) bodies final.receiveBuffer ∧
    (∀ bodies' rest, frameCutter.CutsTo (r.receiveBuffer ++ stream) bodies' rest →
      bodies' <+: bodies) ∧
    Incomplete final.receiveBuffer ∧
    receivedFrames final.world.trace = receivedFrames r.world.trace ++ bodies ∧
    receivedMessages final.world.trace =
      receivedMessages r.world.trace ++ bodies.filterMap (r.world.decoded env) ∧
    (env.handlers.onError.isSome →
      onErrors final.world.trace =
        onErrors r.world.trace ++ bodies.filterMap (r.world.decodeError env)) := by
  intro final bodies
  have hwhole : final = r.handleIncomingData env stream := by
    rw [← hsplit]
    exact foldl_handleIncomingData env r chunks hidle
  have hworld : final.world = bodies.foldl (World.dispatch env) r.world := by
    rw [hwhole, handleIncomingData_eq]
  have hbuffer : final.receiveBuffer = (frameCutter.cut (r.receiveBuffer ++ stream)).2 := by
    rw [hwhole, handleIncomingData_eq]
  have hreceived := World.foldl_dispatch_received env bodies r.world
  rw [← hworld] at hreceived
  refine ⟨hwhole, ?_, hworld, ?_, ?_, ?_, hreceived⟩
  · rw [hwhole]
    exact frameStep_handleIncomingData env r stream
  · rw [hbuffer]
    exact frameCutter.cutsTo_cut _
  · intro bodies' rest h
    exact h.prefix_cut
  · rw [hbuffer]
    exact nextFrame_eq_none (frameCutter.next_cut_rest _)

/-- A DATA frame, a body that is no message, an empty body and the start of a fourth
frame, split inside a prefix and inside a body. -/
theorem handleIncomingData_segmentation_hostile :
    let config : SecureTunnelConfig := ⟨"eu-west-1", "token", .source, none, none⟩
    let final := [[0], [5, 8, 1, 34], [], [1, 7, 0, 1, 255, 0, 0, 0], [9]].foldl
      (handleIncomingData ⟨ProtobufMessages.codec, .passive⟩) (.fresh config)
    receivedFrames final.world.trace = [[8, 1, 34, 1, 7], [255], []] ∧
      onErrors final.world.trace = ["index out of range"] ∧ Incomplete final.receiveBuffer := by
  intro config final
  have hall := handleIncomingData_segmentation ⟨ProtobufMessages.codec, .passive⟩ (.fresh config)
    rfl [0, 5, 8, 1, 34, 1, 7, 0, 1, 255, 0, 0, 0, 9]
    [[0], [5, 8, 1, 34], [], [1, 7, 0, 1, 255, 0, 0, 0], [9]] rfl
  have hframes := hall.2.2.2.2.2.2.1
  have herrors := hall.2.2.2.2.2.2.2.2 rfl
  refine ⟨?_, ?_, hall.2.2.2.2.2.1⟩
  · rw [hframes]
    decide
  · rw [herrors]
    decide

end Receiver
end SshClientWasm.Tunnel
