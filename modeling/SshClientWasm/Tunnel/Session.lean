import SshClientWasm.Library.Machine
import SshClientWasm.Tunnel.Receive

/-!
# Runs of a secure tunnel

A run interleaves calls of the public methods with the events of the sockets.
The events obey the WebSocket state machine: a socket opens from CONNECTING
only, receives while OPEN only, and never leaves CLOSED. Every step is a
sequence of a few elementary effects, and only those are ever inspected.
-/
namespace SshClientWasm.Tunnel

open Library

/-- A call of the user, or an event of socket `i`. A message that is not an
`ArrayBuffer` carries `none`. -/
inductive Input
  | call (c : ApiCall)
  | open (i : ℕ)
  | message (i : ℕ) (data : Option Bytes)
  | error (i : ℕ)
  | closing (i : ℕ)
  | close (i : ℕ)
  deriving DecidableEq, Repr

namespace World

variable (env : Env) (w : World)

def setSocket (i : ℕ) (s : ReadyState) : World := { w with sockets := w.sockets.set i s }

/-- Socket `i` exists and is not closed. -/
def Unclosed (i : ℕ) : Prop := ∃ s, w.sockets[i]? = some s ∧ s ≠ .closed

instance (i : ℕ) : Decidable (w.Unclosed i) :=
  match h : w.sockets[i]? with
  | none => isFalse (by simp [Unclosed, h])
  | some s => decidable_of_iff (s ≠ .closed) (by simp [Unclosed, h])

end World

/-- The transport between the user and the sockets. -/
def session (env : Env) : Machine Receiver Input where
  step r
    | .call c => some { r with world := r.world.apiCall env c }
    | .open i =>
      if r.world.sockets[i]? = some .connecting then
        some { r with world := (r.world.setSocket i .open).onopen env }
      else none
    | .message i data =>
      if r.world.sockets[i]? = some .open then
        some (data.elim r (r.handleIncomingData env))
      else none
    | .error i =>
      if r.world.Unclosed i then some { r with world := r.world.onerror env } else none
    | .closing i =>
      if r.world.Unclosed i then some { r with world := r.world.setSocket i .closing } else none
    | .close i =>
      if r.world.Unclosed i then
        some { r with world := (r.world.setSocket i .closed).onclose env }
      else none

namespace World

variable (env : Env) (w : World)

/-- A message that makes the tunnel ready in the mode of this client. -/
def Readies (m : TunnelMessage) : Prop :=
  m.type = TunnelMessageType.streamStart ∧ w.config.clientMode = .destination ∨
    m.type = TunnelMessageType.serviceIds ∧ w.config.clientMode = .source

/-- Events whose recording is all that happens. -/
def Passive : Event → Prop
  | .receivedMessage m => ¬ w.Readies m
  | .receivedFrame _ | .onData _ | .onError _ | .onClose => True
  | _ => False

/-- Some socket has left CONNECTING. -/
def Started : Prop := ∃ s ∈ w.sockets, s ≠ .connecting

/-- Take note of a readying message; a destination adopts its stream id. -/
def readied (m : TunnelMessage) : World :=
  { w.log (.receivedMessage m) with
    streamId := if w.config.clientMode = .destination then m.streamId else w.streamId
    tunnelReady := true }

/-- The socket is gone, and with it the tunnel. -/
def closed (i : ℕ) : World :=
  { w.setSocket i .closed with isConnected := false, tunnelReady := false }

/-- The elementary effects of a run. -/
inductive Effect : World → World → Prop
  | note (w : World) (e : Event) (h : w.Passive e) : Effect w (w.log e)
  | call (w : World) (c : ApiCall) : Effect w (w.apiCall env c)
  | ready (w : World) (m : TunnelMessage) (h : w.Readies m) (hstarted : w.Started) :
      Effect w ((w.readied m).processQueuedMessages env)
  | opened (w : World) (i : ℕ) (h : w.sockets[i]? = some .connecting) :
      Effect w ((w.setSocket i .open).onopen env)
  | closing (w : World) (i : ℕ) (h : w.Unclosed i) : Effect w (w.setSocket i .closing)
  | closed (w : World) (i : ℕ) (h : w.Unclosed i) : Effect w (w.closed i)

/-- Finitely many effects in a row. -/
abbrev Effects : World → World → Prop := Relation.ReflTransGen (Effect env)

variable {env w}

theorem Effects.calls (calls : List ApiCall) : Effects env w (calls.foldl (apiCall env) w) :=
  foldl_apiCall_invariant env (fun _ c h => h.tail (.call _ c)) calls w .refl

theorem Effects.invoke {callback : Option (List Event → List ApiCall)} {e : Event}
    (h : w.Passive e) : Effects env w (w.invoke env callback e) := by
  cases callback with
  | none => exact .refl
  | some react => exact .head (.note w e h) (Effects.calls _)

theorem handleMessage_ready {m : TunnelMessage} (hready : w.Readies m) :
    w.handleMessage env m = (w.readied m).processQueuedMessages env := by
  rcases hready with ⟨htype, hmode⟩ | ⟨htype, hmode⟩
  · simp [World.handleMessage, readied, htype, hmode, TunnelMessageType.streamStart,
      TunnelMessageType.data]
  · simp [World.handleMessage, readied, htype, hmode, TunnelMessageType.streamStart,
      TunnelMessageType.data, TunnelMessageType.serviceIds, TunnelMessageType.streamReset,
      TunnelMessageType.sessionReset]

theorem Effects.handleMessage (m : TunnelMessage) (hstarted : w.Started) :
    Effects env w (w.handleMessage env m) := by
  by_cases hready : w.Readies m
  · rw [handleMessage_ready hready]
    exact .single (.ready w m hready hstarted)
  · have hnote : Effect env w (w.log (.receivedMessage m)) := .note w _ hready
    unfold World.handleMessage
    dsimp only
    split_ifs with hdata hstart hdest hreset hsession hids hsource
    · exact .head hnote (Effects.invoke trivial)
    · exact absurd (Or.inl ⟨hstart, hdest⟩) hready
    · exact .single hnote
    · exact .head hnote (Effects.invoke trivial)
    · exact .head hnote (.single (.call _ .disconnect))
    · exact absurd (Or.inr ⟨hids, hsource⟩) hready
    · exact .single hnote
    · exact .single hnote

theorem Effects.dispatch (body : Bytes) (hstarted : w.Started) :
    Effects env w (w.dispatch env body) := by
  have hnote : Effect env w (w.log (.receivedFrame body)) := .note w _ trivial
  unfold World.dispatch
  dsimp only
  split
  · exact .head hnote (Effects.handleMessage _ hstarted)
  · exact .head hnote (Effects.invoke trivial)

theorem closeSocket_sockets (i : ℕ) :
    ∃ s : ReadyState, (s = .closing ∨ s = .closed) ∧
      (w.closeSocket i).sockets = w.sockets.set i s := by
  cases hi : w.sockets[i]? with
  | none =>
    refine ⟨.closed, Or.inr rfl, ?_⟩
    rw [closeSocket, List.modify_eq_set_getElem?, hi]
    exact (List.set_eq_of_length_le (List.getElem?_eq_none_iff.mp hi)).symm
  | some s =>
    rw [closeSocket, List.modify_eq_set_getElem?, hi]
    cases s with
    | connecting => exact ⟨.closing, Or.inl rfl, rfl⟩
    | «open» => exact ⟨.closing, Or.inl rfl, rfl⟩
    | closing => exact ⟨.closing, Or.inl rfl, rfl⟩
    | closed => exact ⟨.closed, Or.inr rfl, rfl⟩

theorem started_set {sockets : List ReadyState} (i : ℕ) {s : ReadyState} (hs : s ≠ .connecting)
    (h : ∃ t ∈ sockets, t ≠ .connecting) : ∃ t ∈ sockets.set i s, t ≠ .connecting := by
  by_cases hi : i < sockets.length
  · exact ⟨s, List.mem_set hi s, hs⟩
  · rw [List.set_eq_of_length_le (Nat.le_of_not_lt hi)]
    exact h

theorem Effect.started {w' : World} (h : Effect env w w') (hstarted : w.Started) : w'.Started := by
  cases h with
  | note e h => exact hstarted
  | call c =>
    cases c with
    | connect constructs =>
      obtain ⟨s, hs, hne⟩ := hstarted
      simp only [apiCall, connect]
      split_ifs
      · exact ⟨s, hs, hne⟩
      · exact ⟨s, List.mem_append_left _ hs, hne⟩
    | send data =>
      simp only [apiCall, send, sendDataFrame_eq]
      split_ifs
      · exact hstarted
      · exact hstarted
    | disconnect =>
      rw [apiCall, disconnect_eq]
      cases hws : w.ws with
      | none => exact hstarted
      | some i =>
        obtain ⟨s, hs, hset⟩ := w.closeSocket_sockets i
        unfold Started
        simp only [Option.elim_some, hset]
        apply started_set i _ hstarted
        rcases hs with rfl | rfl
        · decide
        · decide
  | ready m h hstarted =>
    rw [processQueuedMessages_eq]
    exact hstarted
  | opened i h =>
    rw [onopen_eq]
    exact started_set i (s := .open) (by decide) hstarted
  | closing i h => exact started_set i (s := .closing) (by decide) hstarted
  | closed i h => exact started_set i (s := .closed) (by decide) hstarted

theorem Effects.invariant {I : World → Prop} (heffect : ∀ w w', Effect env w w' → I w → I w')
    {w' : World} (h : Effects env w w') (hw : I w) : I w' := by
  induction h with
  | refl => exact hw
  | tail _ hstep ih => exact heffect _ _ hstep ih

theorem Effects.started {w' : World} (h : Effects env w w') (hstarted : w.Started) :
    w'.Started :=
  h.invariant (fun _ _ heffect => heffect.started) hstarted

theorem Effects.foldl_dispatch (bodies : List Bytes) (hstarted : w.Started) :
    Effects env w (bodies.foldl (World.dispatch env) w) := by
  induction bodies generalizing w with
  | nil => exact .refl
  | cons body bodies ih =>
    have hfirst : Effects env w (w.dispatch env body) := Effects.dispatch body hstarted
    exact hfirst.trans (ih (hfirst.started hstarted))

end World

/-- A step of a run is a sequence of effects. -/
theorem session_step_effects (env : Env) {r r' : Receiver} {a : Input}
    (h : (session env).step r a = some r') : World.Effects env r.world r'.world := by
  cases a with
  | call c =>
    cases h
    exact .single (.call _ c)
  | «open» i =>
    obtain ⟨hi, hr⟩ := Option.ite_none_right_eq_some.mp h
    cases hr
    exact .single (.opened _ i hi)
  | message i data =>
    obtain ⟨hi, hr⟩ := Option.ite_none_right_eq_some.mp h
    have hstarted : r.world.Started := ⟨.open, List.mem_of_getElem? hi, by decide⟩
    cases hr
    cases data with
    | none => exact .refl
    | some data =>
      rw [Option.elim_some, Receiver.handleIncomingData_eq]
      exact World.Effects.foldl_dispatch _ hstarted
  | error i =>
    obtain ⟨hi, hr⟩ := Option.ite_none_right_eq_some.mp h
    cases hr
    exact World.Effects.invoke trivial
  | closing i =>
    obtain ⟨hi, hr⟩ := Option.ite_none_right_eq_some.mp h
    cases hr
    exact .single (.closing _ i hi)
  | close i =>
    obtain ⟨hi, hr⟩ := Option.ite_none_right_eq_some.mp h
    cases hr
    exact .head (.closed _ i hi) (World.Effects.invoke trivial)

end SshClientWasm.Tunnel
