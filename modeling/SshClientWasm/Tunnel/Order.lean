import SshClientWasm.Library.Pipe
import SshClientWasm.Tunnel.Phase
import SshClientWasm.Tunnel.RoundTrip

/-!
# The order of transmitted data

The transport refines an ordered pipe: `send` offers, the queue holds what is
pending, and a DATA frame delivers. Before the connection is over the pipe has
no gap; afterwards nothing more is delivered.
-/
namespace SshClientWasm.Tunnel

open Library

/-- The payloads of the DATA messages among several messages. -/
def dataPayloads (messages : List MessageFields) : List Bytes :=
  messages.filterMap fun m => if m.type = TunnelMessageType.data then m.payload else none

@[simp] theorem dataPayloads_append (front back : List MessageFields) :
    dataPayloads (front ++ back) = dataPayloads front ++ dataPayloads back :=
  List.filterMap_append

/-- The payloads of the DATA frames handed to a socket, in order. -/
def sentPayloads (trace : List Event) : List Bytes := dataPayloads (writtenMessages trace)

@[simp] theorem sentPayloads_append (front back : List Event) :
    sentPayloads (front ++ back) = sentPayloads front ++ sentPayloads back := by
  simp [sentPayloads]

namespace World

variable {env : Env} {w w' : World} {p : Pipe UInt8}

theorem dataPayloads_map_dataMessage (chunks : List Bytes) :
    dataPayloads (chunks.map w.dataMessage) = chunks := by
  induction chunks with
  | nil => rfl
  | cons chunk chunks ih => exact congrArg (chunk :: ·) ih

theorem sentPayloads_dataWrites {i : ℕ} (hopen : w.socketOpen = some i) (chunks : List Bytes) :
    sentPayloads (w.dataWrites env chunks) = chunks := by
  have hmessages : writtenMessages (w.dataWrites env chunks) = chunks.map w.dataMessage := by
    simp only [dataWrites, hopen, writtenMessages, List.filterMap_map]
    exact congrFun (List.filterMap_eq_map (f := w.dataMessage)) _
  rw [sentPayloads, hmessages, dataPayloads_map_dataMessage]

theorem dataPayloads_opening : dataPayloads w.opening = [] := by
  unfold opening
  cases w.config.clientMode with
  | destination => cases w.config.truthyServiceId <;> rfl
  | source => rfl

/-- The transport, as an ordered pipe of bytes. -/
structure Carries (w : World) (p : Pipe UInt8) : Prop where
  offered : p.offered = (sendCalls w.trace).flatten
  delivered : p.delivered = (sentPayloads w.trace).flatten
  live : w.phase ≠ .ended → p.Gapless ∧ p.pending = w.messageQueue.flatten
  drained : w.phase = .active → w.tunnelReady = true → w.messageQueue = []

theorem fresh_carries (config : SecureTunnelConfig) : (fresh config).Carries .empty where
  offered := rfl
  delivered := rfl
  live := fun _ => ⟨Pipe.empty_gapless, rfl⟩
  drained := fun _ _ => rfl

@[simp] theorem sentPayloads_writes (messages : List MessageFields) :
    sentPayloads (w.writes env messages) = dataPayloads messages := by
  rw [sentPayloads, writtenMessages_writes]

theorem passive_streams {e : Event} (h : w.Passive e) : sendCalls [e] = [] ∧ sentPayloads [e] = [] := by
  cases e <;> first | exact ⟨rfl, rfl⟩ | exact absurd h (by simp [Passive])

theorem Carries.keep (hp : w.Carries p) {events : List Event} (htrace : w'.trace = w.trace ++ events)
    (hsends : sendCalls events = []) (hsent : sentPayloads events = [])
    (hlive : w'.phase ≠ .ended → w.phase ≠ .ended ∧ w'.messageQueue = w.messageQueue)
    (hdrained : w'.phase = .active → w'.tunnelReady = true → w'.messageQueue = []) :
    w'.Carries p where
  offered := by rw [hp.offered, htrace, sendCalls_append, hsends, List.append_nil]
  delivered := by rw [hp.delivered, htrace, sentPayloads_append, hsent, List.append_nil]
  live := by
    intro hphase
    obtain ⟨hphase', hqueue⟩ := hlive hphase
    rw [hqueue]
    exact hp.live hphase'
  drained := hdrained

theorem carries_writes {chunks : List Bytes} (w₀ w₁ : World)
    (hoffered : p.offered = (sendCalls w.trace).flatten)
    (hdelivered : p.delivered = (sentPayloads w.trace).flatten) (hgapless : p.Gapless)
    (hall : p.pending = chunks.flatten ++ []) (hqueue : w.messageQueue = []) :
    (w.logAll (w₀.writes env (chunks.map w₁.dataMessage))).Carries
      (p.deliver chunks.flatten [] hall) where
  offered := by
    rw [logAll_trace, sendCalls_append, sendCalls_writes, List.append_nil]
    exact hoffered
  delivered := by
    rw [logAll_trace, sentPayloads_append, sentPayloads_writes, dataPayloads_map_dataMessage,
      List.flatten_append, ← hdelivered]
    rfl
  live := by
    intro _
    refine ⟨p.deliver_gapless hall hgapless, ?_⟩
    rw [logAll_messageQueue, hqueue]
    rfl
  drained := fun _ _ => hqueue

theorem Transition.carries (h : Transition env w w') (hsteady : w.Steady) (hp : w.Carries p) :
    ∃ p', Relation.ReflTransGen Pipe.Step p p' ∧ w'.Carries p' := by
  cases h with
  | stutter => exact ⟨p, .refl, hp⟩
  | note e hpassive =>
    obtain ⟨hsends, hsent⟩ := passive_streams hpassive
    exact ⟨p, .refl, hp.keep rfl hsends hsent (fun h => ⟨h, rfl⟩) hp.drained⟩
  | connect w' hidle hphase htrace hsame =>
    refine ⟨p, .refl, hp.keep htrace rfl rfl ?_ ?_⟩
    · intro _
      exact ⟨by simp [hidle], hsame.messageQueue⟩
    · intro hactive
      rcases hphase with hphase | hphase
      · simp [hphase] at hactive
      · simp [hphase] at hactive
  | queue data hphase hwait =>
    obtain ⟨hgapless, hpending⟩ := hp.live hphase
    refine ⟨p.accept hgapless data, .single (.accept p hgapless data), ?_, ?_, ?_, ?_⟩
    · simp [Pipe.accept, hp.offered, sendCalls]
    · simp [Pipe.accept, hp.delivered, sentPayloads, writtenMessages]
    · intro _
      refine ⟨p.accept_gapless hgapless data, ?_⟩
      simp [Pipe.accept, hpending]
    · intro hactive hready
      exact absurd ⟨hactive, hready⟩ hwait
  | transmit data hopen hready =>
    have hphase : w.phase ≠ .ended := by simp [hopen]
    obtain ⟨hgapless, hpending⟩ := hp.live hphase
    rw [hp.drained hopen hready] at hpending
    -- the queue is empty: what is taken in goes straight out
    have hall : (p.accept hgapless data).pending =
        (slices maxPayloadSize data).flatten ++ [] := by
      rw [slices_flatten (by decide), List.append_nil]
      simp [Pipe.accept, hpending]
    refine ⟨_, .tail (.single (.accept p hgapless data)) (.deliver _ _ [] hall),
      carries_writes w w ?_ ?_ (p.accept_gapless hgapless data) hall (hp.drained hopen hready)⟩
    · simp [Pipe.accept, hp.offered, sendCalls]
    · simp [Pipe.accept, hp.delivered, sentPayloads, writtenMessages]
  | ready m hopen hm =>
    obtain ⟨hgapless, hpending⟩ := hp.live (by simp [hopen])
    have hall : p.pending = (w.messageQueue.flatMap (slices maxPayloadSize)).flatten ++ [] := by
      rw [List.append_nil, hpending]
      exact (chunksOf_flatten w.messageQueue).symm
    refine ⟨_, .single (.deliver p _ [] hall),
      carries_writes w (w.readied m) ?_ ?_ hgapless hall rfl⟩
    · simp [hp.offered, readied, sendCalls]
    · simp [hp.delivered, readied, sentPayloads, writtenMessages]
  | opened w' hphase hphase' htrace hsame =>
    refine ⟨p, .refl, hp.keep htrace (sendCalls_writes _) ?_ ?_ ?_⟩
    · rw [sentPayloads_writes, dataPayloads_opening]
    · intro _
      exact ⟨by simp [hphase], hsame.messageQueue⟩
    · intro _ hready
      rw [hsame.tunnelReady, (hsteady.quiet (Or.inr hphase)).2] at hready
      cases hready
  | ends w' messages hphase hphase' hmessages htrace hconfig =>
    refine ⟨p, .refl, hp.keep htrace (sendCalls_writes _) ?_ ?_ ?_⟩
    · rw [sentPayloads_writes]
      rcases hmessages with rfl | ⟨_, rfl⟩
      · rfl
      · rfl
    · exact fun hlive => absurd hphase' hlive
    · simp [hphase']
  | ended w' events hphase hphase' htrace hwrites hconfig =>
    refine ⟨p.refuse (sendCalls events).flatten, .single (.refuse p _), ?_, ?_, ?_, ?_⟩
    · simp [Pipe.refuse, hp.offered, htrace]
    · simp [Pipe.refuse, hp.delivered, htrace, sentPayloads, hwrites, dataPayloads]
    · exact fun hlive => absurd hphase' hlive
    · simp [hphase']

end World

/-- Every run of a single connection refines a run of the ordered pipe. -/
theorem session_refines_pipe {env : Env} {config : SecureTunnelConfig} {labels : List Input}
    {r : Receiver} (hrun : (session env).run (.fresh config) labels = some r)
    (hsingle : r.world.Single) :
    ∃ p, Relation.ReflTransGen Pipe.Step .empty p ∧ r.world.Carries p := by
  have hinv := session_single_invariant
    (J := fun w => ∃ p, Relation.ReflTransGen Pipe.Step .empty p ∧ w.Carries p) ?_ hrun hsingle
    ⟨.empty, .refl, World.fresh_carries config⟩
  · exact hinv.2
  · rintro w w' htransition hsteady ⟨p, hsteps, hp⟩
    obtain ⟨p', hsteps', hp'⟩ := htransition.carries hsteady hp
    exact ⟨p', hsteps.trans hsteps', hp'⟩

/-- With a single `connect()`, the payloads handed to the socket are a prefix of
the arrays passed to `send`, whatever the calls, socket events and messages. -/
theorem sentPayloads_prefix (env : Env) (config : SecureTunnelConfig) (labels : List Input)
    (r : Receiver) (hrun : (session env).run (.fresh config) labels = some r)
    (hsingle : connectCalls r.world.trace ≤ 1) :
    (sentPayloads r.world.trace).flatten <+: (sendCalls r.world.trace).flatten := by
  obtain ⟨p, _, hp⟩ := session_refines_pipe hrun hsingle
  rw [← hp.delivered, ← hp.offered]
  exact p.delivered_prefix

/-- Data sent before the handshake, after it and after `disconnect()`. -/
theorem sentPayloads_prefix_handshake :
    let config : SecureTunnelConfig := ⟨"eu-west-1", "token", .source, none, none⟩
    ∃ r, (session ⟨ProtobufMessages.codec, .passive⟩).run (.fresh config)
        [.call (.connect true), .call (.send [1, 2]), .open 0, .message 0 (some [0, 2, 8]),
          .call (.send [3]), .message 0 (some [5]), .call (.send [4, 5]), .call .disconnect,
          .call (.send [6]), .close 0] = some r ∧
      (sentPayloads r.world.trace).flatten = [1, 2, 3, 4, 5] ∧
      (sentPayloads r.world.trace).flatten <+: (sendCalls r.world.trace).flatten := by
  intro config
  have hrun : ((session ⟨ProtobufMessages.codec, .passive⟩).run (.fresh config)
      [.call (.connect true), .call (.send [1, 2]), .open 0, .message 0 (some [0, 2, 8]),
        .call (.send [3]), .message 0 (some [5]), .call (.send [4, 5]), .call .disconnect,
        .call (.send [6]), .close 0]).map (fun r =>
          ((sentPayloads r.world.trace).flatten, connectCalls r.world.trace)) =
      some ([1, 2, 3, 4, 5], 1) := by
    decide +kernel
  obtain ⟨r, hr, hvalues⟩ := Option.map_eq_some_iff.mp hrun
  obtain ⟨hsent, hconnects⟩ := Prod.mk.inj hvalues
  exact ⟨r, hr, hsent, sentPayloads_prefix _ _ _ r hr hconnects.le⟩

end SshClientWasm.Tunnel
