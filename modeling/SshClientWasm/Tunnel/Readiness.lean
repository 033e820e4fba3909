import SshClientWasm.Tunnel.Turns

/-!
# What `tunnelReady` stands for

`send` asks for all three of `isConnected`, `ws` and `tunnelReady`. `disconnect()` and
`onclose` lower the flags together, but the message that raises `tunnelReady` raises it on
whatever it finds: `handleMessage` looks at neither of the other two.
-/
namespace SshClientWasm.Tunnel

open Library

namespace World

/-- A tunnel that is ready is connected and has a socket. -/
def Coherent (w : World) : Prop := w.tunnelReady = true → w.isConnected = true ∧ w.ws ≠ none

variable {env : Env} {w : World}

theorem coherent_of_down (h : w.tunnelReady = false) : w.Coherent :=
  fun hready => absurd (h.symm.trans hready) Bool.false_ne_true

theorem Coherent.congr {w' : World} (h : w.Coherent) (hready : w'.tunnelReady = w.tunnelReady)
    (hconnected : w.isConnected = true → w'.isConnected = true) (hws : w.ws ≠ none → w'.ws ≠ none) :
    w'.Coherent := by
  intro hup
  obtain ⟨hc, hs⟩ := h (hready.symm.trans hup)
  exact ⟨hconnected hc, hws hs⟩

theorem Coherent.apiCall (h : w.Coherent) (c : ApiCall) : (w.apiCall env c).Coherent := by
  cases c with
  | connect constructs =>
    unfold World.apiCall connect
    dsimp only
    split_ifs
    · exact h.congr rfl id id
    · exact h.congr rfl id fun _ => Option.some_ne_none _
  | send data =>
    by_cases hqueue : w.isConnected = false ∨ w.ws = none ∨ w.tunnelReady = false
    · rw [World.apiCall, send_queued env w hqueue]
      exact h.congr rfl id id
    · rw [World.apiCall, send_direct env w hqueue]
      exact h.congr rfl id id
  | disconnect =>
    rw [World.apiCall, disconnect_eq]
    exact coherent_of_down rfl

theorem coherent_readied (body : Bytes) (m : TunnelMessage) :
    (((w.log (.receivedFrame body)).readied m).processQueuedMessages env).Coherent ↔
      w.isConnected = true ∧ w.ws ≠ none := by
  rw [processQueuedMessages_eq]
  exact ⟨fun h => h rfl, fun h _ => h⟩

end World

/-- A message that makes the tunnel ready is handled while it is connected. -/
def Grounded (env : Env) (s : Handling) : Turn → Prop
  | .frame =>
    ∀ i body rest m, s.pending = (i, body) :: rest →
      (env.codecs s.world.config.version).decode body = .ok m → s.world.Readies m →
        s.world.isConnected = true ∧ s.world.ws ≠ none
  | .call _ | .open _ | .message _ _ | .error _ | .closing _ | .close _ => True

variable {env : Env} {s s' : Handling} {a : Turn}

theorem frame_coherent_iff (h : s.world.Coherent) (hstep : (turns env).step s .frame = some s') :
    s'.world.Coherent ↔ Grounded env s .frame := by
  obtain ⟨i, body, rest, hpending, _, _, hdispatched⟩ := turns_frame_cases hstep
  have hgrounded : (∀ m, (env.codecs s.world.config.version).decode body = .ok m →
      s.world.Readies m → s.world.isConnected = true ∧ s.world.ws ≠ none) →
        Grounded env s .frame := by
    intro hall j body' rest' m hpending' hdecode hready
    cases hpending.symm.trans hpending'
    exact hall m hdecode hready
  generalize s'.world = next at hdispatched
  cases hdispatched with
  | failed e hdecode =>
    refine iff_of_true (h.congr rfl id id) (hgrounded fun m hdecode' => ?_)
    cases hdecode.symm.trans hdecode'
  | ready m hdecode hready =>
    rw [World.coherent_readied]
    constructor
    · exact fun hup => hgrounded fun _ _ _ => hup
    · exact fun hall => hall i body rest m hpending hdecode hready
  | reset m hdecode htype =>
    rw [World.disconnect_eq]
    refine iff_of_true (World.coherent_of_down rfl) (hgrounded fun m' hdecode' hready => ?_)
    cases hdecode.symm.trans hdecode'
    exact absurd hready (World.not_readies_of_reset htype)
  | passed m hdecode hready htype =>
    refine iff_of_true (h.congr rfl id id) (hgrounded fun m' hdecode' hready' => ?_)
    cases hdecode.symm.trans hdecode'
    exact absurd hready' hready

/-- A turn keeps the fields coherent exactly if it is grounded. -/
theorem step_coherent_iff (h : s.world.Coherent) (hstep : (turns env).step s a = some s') :
    s'.world.Coherent ↔ Grounded env s a := by
  cases turns_cases hstep with
  | call c => exact iff_of_true (h.apiCall c) trivial
  | frame => exact frame_coherent_iff h hstep
  | «open» i => exact iff_of_true (h.congr rfl (fun _ => rfl) id) trivial
  | message i data => exact iff_of_true h trivial
  | error i => exact iff_of_true (h.congr rfl id id) trivial
  | closing i => exact iff_of_true (h.congr rfl id id) trivial
  | close i => exact iff_of_true (World.coherent_of_down rfl) trivial

/-- In every run, the tunnel is ready only while it is connected exactly if every message
that makes it ready is handled while it is connected. -/
theorem always_coherent_iff (env : Env) (config : SecureTunnelConfig) (labels : List Turn)
    (s : Handling) (hrun : (turns env).run (Receiver.fresh config).idle labels = some s) :
    (turns env).Always (fun s => s.world.Coherent) (Receiver.fresh config).idle labels ↔
      (turns env).Admits (Grounded env) (Receiver.fresh config).idle labels := by
  apply (turns env).always_iff_admits (I := fun _ => True) (fun _ _ _ _ _ => trivial) ?_
    labels _ s trivial (World.coherent_of_down rfl) hrun
  intro s a t _ hcoherent hstep
  exact step_coherent_iff hcoherent hstep

/-- A source whose peer answers on the open socket, and that disconnects afterwards. -/
theorem always_coherent_iff_answered :
    let env : Env := ⟨ProtobufMessages.codec, .passive⟩
    let start := (Receiver.fresh ⟨"eu-west-1", "token", .source, none, none⟩).idle
    (turns env).Always (fun s => s.world.Coherent) start
      [.call (.connect true), .open 0, .message 0 [0, 2, 8, 5], .frame, .call .disconnect] := by
  intro env start
  refine (always_coherent_iff env _ _ _ rfl).mpr ?_
  refine (Machine.admits_cons _ rfl).mpr ⟨trivial, ?_⟩
  refine (Machine.admits_cons _ rfl).mpr ⟨trivial, ?_⟩
  refine (Machine.admits_cons _ rfl).mpr ⟨trivial, ?_⟩
  refine (Machine.admits_cons _ rfl).mpr ⟨?_, ?_⟩
  · exact fun _ _ _ _ _ _ _ => ⟨rfl, Option.some_ne_none 0⟩
  · exact (Machine.admits_cons _ rfl).mpr ⟨trivial, trivial⟩

/-- One chunk brings SESSION_RESET and SERVICE_IDS. The first disconnects the transport, and
the second makes it ready again, without a socket. -/
theorem ready_behind_sessionReset :
    let env : Env := ⟨ProtobufMessages.codec, .passive⟩
    let start := (Receiver.fresh ⟨"eu-west-1", "token", .source, none, none⟩).idle
    let labels : List Turn := [.call (.connect true), .open 0,
      .message 0 [0, 2, 8, 4, 0, 2, 8, 5], .frame, .frame]
    ¬ (turns env).Always (fun s => s.world.Coherent) start labels := by
  intro env start labels hall
  have hfields : ((turns env).run start labels).map (fun s =>
      (s.world.tunnelReady, s.world.isConnected, s.world.ws)) = some (true, false, none) := by
    decide +kernel
  obtain ⟨s, hrun, hs⟩ := Option.map_eq_some_iff.mp hfields
  simp only [Prod.mk.injEq] at hs
  obtain ⟨hready, hconnected, _⟩ := hs
  obtain ⟨hup, _⟩ := (turns env).always_run labels start s hall hrun hready
  cases hconnected.symm.trans hup

end SshClientWasm.Tunnel
