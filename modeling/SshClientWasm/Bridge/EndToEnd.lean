import SshClientWasm.Bridge.Inbound
import SshClientWasm.Tunnel.Relay

/-!
# From one end of a tunnel to the reader at the other

`TransportManager.createTransport` makes the `onData` of each client pass its payloads to
the object in Go that a single reader reads. The calls and events of both clients, the
service between them, the payloads on their way into Go and the steps of the readers come
in any order.
-/
namespace SshClientWasm.Bridge

open Library Tunnel

/-- Two clients of one tunnel, and above each the objects of its Go program. -/
structure EndToEnd where
  relay : Relay
  reader : ClientMode → Inbound

/-- A move of the tunnel, the next payload that `onData` passes into Go, or a step of a
reader. -/
inductive Hop
  | relay (m : Tunnel.Move)
  | onData (e : ClientMode)
  | read (e : ClientMode) (len : ℕ)
  | readRest (e : ClientMode) (arm : Arm)

namespace EndToEnd

/-- The payload that goes into Go next. -/
def next (s : EndToEnd) (e : ClientMode) : Option Bytes :=
  (onDataPayloads (s.relay.ends e).world.trace)[(s.reader e).received.length]?

def advance (s : EndToEnd) (e : ClientMode) (a : Arrival) : Option EndToEnd :=
  (Inbound.machine.step (s.reader e) a).map fun i =>
    { s with reader := Function.update s.reader e i }

variable (codecs : ProtocolVersion → Codec) (handlers : ClientMode → Handlers)

def machine : Machine EndToEnd Hop where
  step s
    | .relay m => (Relay.step codecs handlers s.relay m).map fun r => { s with relay := r }
    | .onData e => (s.next e).bind fun data => s.advance e (.chunk data)
    | .read e len => s.advance e (.read len)
    | .readRest e arm => s.advance e (.readRest arm)

/-- After `createTransport` at both ends. -/
def start (config : ClientMode → SecureTunnelConfig) (w : ClientMode → Wasm)
    (id : ClientMode → String) : EndToEnd where
  relay := .start config
  reader := fun e => .start (w e) (id e)

/-- A payload that is not empty finds a place in the channel free. -/
def Room (s : EndToEnd) : Hop → Prop
  | .onData e => ∀ data ∈ s.next e, (s.reader e).Room (.chunk data)
  | _ => True

instance (i : Inbound) (data : Bytes) : Decidable (i.Room (.chunk data)) :=
  match h : i.wasm.getTransport i.id with
  | none => isTrue (Or.inr (by simp [h]))
  | some (k, t) =>
    decidable_of_iff (data = [] ∨ (k = i.conn → t.readChan.items.length < 100)) <| by
      simp only [Inbound.Room, h, Option.some.injEq, Prod.mk.injEq]
      exact or_congr_right ⟨fun hroom _ ht => ht.2 ▸ hroom ht.1, fun hroom hk => hroom t ⟨hk, rfl⟩⟩

instance (s : EndToEnd) : ∀ a, Decidable (s.Room a)
  | .onData e => inferInstanceAs (Decidable (∀ data ∈ s.next e, (s.reader e).Room (.chunk data)))
  | .relay _ | .read _ _ | .readRest _ _ => isTrue trivial

/-- Each layer is sound, and each reader has got a front of what `onData` has passed on. -/
structure Joined (config : ClientMode → SecureTunnelConfig) (s : EndToEnd) : Prop where
  relay : ∀ e, s.relay.Sound codecs handlers config e
  whole : ∀ e, ∃ t, (s.reader e).Whole t
  received : ∀ e, (s.reader e).received <+: onDataPayloads (s.relay.ends e).world.trace

variable {codecs} {handlers} {config : ClientMode → SecureTunnelConfig} {s t : EndToEnd}

theorem start_joined (config : ClientMode → SecureTunnelConfig) (w : ClientMode → Wasm)
    (id : ClientMode → String) : (start config w id).Joined codecs handlers config where
  relay := Relay.sound_start config
  whole := fun e => ⟨_, Inbound.start_whole (w e) (id e)⟩
  received := fun _ => List.nil_prefix

theorem step_received {i j : Inbound} {a : Arrival} (h : Inbound.machine.step i a = some j) :
    j.received = i.received ++ match a with
      | .chunk data => [data]
      | _ => [] := by
  cases a with
  | chunk data =>
    cases h
    rfl
  | read len =>
    obtain ⟨t, -, h⟩ := Option.bind_eq_some_iff.mp h
    obtain ⟨-, h⟩ := Option.ite_none_left_eq_some.mp h
    cases h
    exact (List.append_nil _).symm
  | readRest arm =>
    obtain ⟨t, -, h⟩ := Option.bind_eq_some_iff.mp h
    obtain ⟨len, -, h⟩ := Option.bind_eq_some_iff.mp h
    obtain ⟨⟨t', bytes, err⟩, -, h⟩ := Option.bind_eq_some_iff.mp h
    cases h
    exact (List.append_nil _).symm

theorem prefix_concat {front list : List Bytes} {x : Bytes} (h : front <+: list)
    (hx : list[front.length]? = some x) : front ++ [x] <+: list := by
  obtain ⟨rest, rfl⟩ := h
  rw [List.getElem?_append_right le_rfl, Nat.sub_self] at hx
  obtain ⟨y, rest, rfl⟩ := List.exists_cons_of_ne_nil (List.ne_nil_of_mem (List.mem_of_getElem? hx))
  cases hx
  exact ⟨rest, List.append_assoc _ _ _⟩

theorem Joined.advance (h : s.Joined codecs handlers config) {e : ClientMode} {a : Arrival}
    (hroom : (s.reader e).Room a)
    (hnext : ∀ data, a = .chunk data → s.next e = some data)
    (hstep : s.advance e a = some t) : t.Joined codecs handlers config := by
  obtain ⟨i, hi, ht⟩ := Option.map_eq_some_iff.mp hstep
  have hrelay : t.relay = s.relay := by rw [← ht]
  have hself : t.reader e = i := by
    rw [← ht]
    exact Function.update_self ..
  have hother : ∀ d, d ≠ e → t.reader d = s.reader d := by
    intro d hd
    rw [← ht]
    exact Function.update_of_ne hd ..
  have hreceived : i.received <+: onDataPayloads (s.relay.ends e).world.trace := by
    rw [step_received hi]
    cases a with
    | chunk data => exact prefix_concat (h.received e) (hnext data rfl)
    | read len => exact (List.append_nil (s.reader e).received).symm ▸ h.received e
    | readRest arm => exact (List.append_nil (s.reader e).received).symm ▸ h.received e
  constructor
  case relay => exact hrelay ▸ h.relay
  case whole =>
    intro d
    by_cases hd : d = e
    · rw [hd, hself]
      exact Inbound.step_whole (h.whole e) hroom hi
    · rw [hother d hd]
      exact h.whole d
  case received =>
    intro d
    rw [hrelay]
    by_cases hd : d = e
    · rw [hd, hself]
      exact hreceived
    · rw [hother d hd]
      exact h.received d

theorem onData_grows {r r' : Relay} {m : Tunnel.Move} (h : Relay.step codecs handlers r m = some r')
    (e : ClientMode) :
    onDataPayloads (r.ends e).world.trace <+: onDataPayloads (r'.ends e).world.trace := by
  obtain ⟨events, htrace⟩ := Relay.step_trace_grows h e
  rw [← htrace, onDataPayloads_append]
  exact List.prefix_append _ _

theorem Joined.step (hcodecs : ProtobufMessages.Interoperate codecs)
    (hroomy : ∀ d, (config d).Roomy) (h : s.Joined codecs handlers config) {a : Hop}
    (hroom : s.Room a) (hstep : (machine codecs handlers).step s a = some t) :
    t.Joined codecs handlers config := by
  cases a with
  | relay m =>
    obtain ⟨r, hr, rfl⟩ := Option.map_eq_some_iff.mp hstep
    exact ⟨Relay.Sound.step hcodecs hroomy h.relay hr, h.whole,
      fun e => (h.received e).trans (onData_grows hr e)⟩
  | onData e =>
    obtain ⟨data, hdata, hstep⟩ := Option.bind_eq_some_iff.mp hstep
    refine h.advance (hroom data hdata) ?_ hstep
    rintro _ ⟨⟩
    exact hdata
  | read e len =>
    exact h.advance (a := .read len) trivial (fun _ ha => Arrival.noConfusion ha) hstep
  | readRest e arm =>
    exact h.advance (a := .readRest arm) trivial (fun _ ha => Arrival.noConfusion ha) hstep

theorem joined_run (hcodecs : ProtobufMessages.Interoperate codecs)
    (hroomy : ∀ d, (config d).Roomy) {w : ClientMode → Wasm}
    {id : ClientMode → String} {hops : List Hop}
    (hroom : (machine codecs handlers).Admits Room (start config w id) hops)
    (hrun : (machine codecs handlers).run (start config w id) hops = some s) :
    s.Joined codecs handlers config :=
  (machine codecs handlers).always_run hops (start config w id) s
    ((machine codecs handlers).always_of_admits (fun _ h => h)
      (fun _ _ _ h hroom hstep => h.step hcodecs hroomy hroom hstep) hops (start config w id)
      (start_joined config w id) hroom) hrun

theorem Joined.returned_prefix (h : s.Joined codecs handlers config) (e : ClientMode) :
    (s.reader e).returned.flatten <+: (onDataPayloads (s.relay.ends e).world.trace).flatten := by
  obtain ⟨t, ht⟩ := h.whole e
  exact ht.intact.trans (h.received e).flatten

/-- Nothing that an end has sent is still on its way to the reader at the other. -/
structure Still (s : EndToEnd) (e : ClientMode) : Prop where
  taken : s.relay.taken e = (writtenMessages (s.relay.ends e).world.trace).length
  arrived : (s.relay.ends e.peer).receiveBuffer ++ s.relay.inbound e.peer = []
  passed : s.next e.peer = none
  read : ∀ t, (s.reader e.peer).wasm.getTransport (s.reader e.peer).id =
    some ((s.reader e.peer).conn, t) → t.pending = []

/-- When nothing is on the way the reader has returned all that has reached its `onData`. -/
theorem Joined.returned_all (h : s.Joined codecs handlers config) {e : ClientMode}
    (hstill : s.Still e) :
    (s.reader e.peer).returned.flatten =
      (onDataPayloads (s.relay.ends e.peer).world.trace).flatten := by
  obtain ⟨t, ht⟩ := h.whole e.peer
  have hall : (s.reader e.peer).received = onDataPayloads (s.relay.ends e.peer).world.trace :=
    (h.received e.peer).eq_of_length_le (List.getElem?_eq_none_iff.mp hstill.passed)
  have hwhole := ht.whole
  rw [hstill.read t ht.registered, List.append_nil] at hwhole
  rw [hwhole, hall]

/-- What `Read` returns at one end is a prefix of what was passed to `send` at the other,
in every order of the calls, events, frames, payloads and reads, as long as the payloads
find room in the channel. -/
theorem read_of_send (codecs : ProtocolVersion → Codec)
    (hcodecs : ProtobufMessages.Interoperate codecs) (handlers : ClientMode → Handlers)
    (config : ClientMode → SecureTunnelConfig) (hroomy : ∀ e, (config e).Roomy)
    (w : ClientMode → Wasm) (id : ClientMode → String) (hops : List Hop) (s : EndToEnd)
    (hroom : (machine codecs handlers).Admits Room (start config w id) hops)
    (hrun : (machine codecs handlers).run (start config w id) hops = some s) (e : ClientMode)
    (hsingle : connectCalls (s.relay.ends e).world.trace ≤ 1) :
    (s.reader e.peer).returned.flatten <+: (sendCalls (s.relay.ends e).world.trace).flatten := by
  have hjoined := joined_run hcodecs hroomy hroom hrun
  calc (s.reader e.peer).returned.flatten
    _ <+: (onDataPayloads (s.relay.ends e.peer).world.trace).flatten :=
      hjoined.returned_prefix e.peer
    _ <+: _ := Relay.Sound.onData_isPrefix hjoined.relay e
    _ <+: (sendCalls (s.relay.ends e).world.trace).flatten :=
      (hjoined.relay e).taken_isPrefix hsingle

/-- The source sends three bytes, and the destination reads them in two calls. -/
def crossing : List Hop :=
  Relay.opening.map .relay ++
    [.read .destination 2, .onData .destination, .readRest .destination .readChan,
      .read .destination 8, .readRest .destination .readChan]

/-- Three bytes have been read, one more has been sent. -/
theorem read_of_send_crossing :
    ∃ s, (machine ProtobufMessages.codec fun _ => .passive).run
        (start Relay.mixed (fun _ => .empty) fun _ => "t")
        (crossing ++ [.relay (.act .source (.call (.send [1])))]) = some s ∧
      (sendCalls (s.relay.ends .source).world.trace).flatten = [7, 8, 9, 1] ∧
      (s.reader .destination).returned.flatten <+:
        (sendCalls (s.relay.ends .source).world.trace).flatten := by
  have hrun : ((machine ProtobufMessages.codec fun _ => .passive).run
      (start Relay.mixed (fun _ => .empty) fun _ => "t")
      (crossing ++ [.relay (.act .source (.call (.send [1])))])).map (fun s =>
        ((sendCalls (s.relay.ends .source).world.trace).flatten,
          connectCalls (s.relay.ends .source).world.trace)) = some ([7, 8, 9, 1], 1) := by
    decide +kernel
  obtain ⟨s, hs, hvalues⟩ := Option.map_eq_some_iff.mp hrun
  obtain ⟨hsent, hconnects⟩ := Prod.mk.inj hvalues
  exact ⟨s, hs, hsent, read_of_send _ ProtobufMessages.interoperate_codec _ Relay.mixed
    Relay.mixed_roomy _ _ _ s (by decide +kernel) hs .source hconnects.le⟩

/-- Once nothing is on the way, all that was sent has been read, if the connection of the
sender is still up and its handshake over. -/
theorem read_complete (codecs : ProtocolVersion → Codec)
    (hcodecs : ProtobufMessages.Interoperate codecs) (handlers : ClientMode → Handlers)
    (config : ClientMode → SecureTunnelConfig) (hroomy : ∀ e, (config e).Roomy)
    (w : ClientMode → Wasm) (id : ClientMode → String) (hops : List Hop) (s : EndToEnd)
    (hroom : (machine codecs handlers).Admits Room (start config w id) hops)
    (hrun : (machine codecs handlers).run (start config w id) hops = some s) (e : ClientMode)
    (hdata : (handlers e.peer).onData.isSome) (hstill : s.Still e)
    (hsingle : connectCalls (s.relay.ends e).world.trace ≤ 1)
    (hphase : (s.relay.ends e).world.phase ≠ .ended)
    (hqueue : (s.relay.ends e).world.messageQueue = []) :
    (s.reader e.peer).returned.flatten = (sendCalls (s.relay.ends e).world.trace).flatten := by
  have hjoined := joined_run hcodecs hroomy hroom hrun
  calc (s.reader e.peer).returned.flatten
    _ = (onDataPayloads (s.relay.ends e.peer).world.trace).flatten := hjoined.returned_all hstill
    _ = _ := Relay.Sound.onData_rest hjoined.relay hdata hstill.arrived
    _ = (sentPayloads (s.relay.ends e).world.trace).flatten := by
      rw [hstill.taken, List.take_length]
      rfl
    _ = (sendCalls (s.relay.ends e).world.trace).flatten :=
      (hjoined.relay e).sent_all hsingle hphase hqueue

/-- All three bytes have been read. -/
theorem read_complete_crossing :
    ∃ s, (machine ProtobufMessages.codec fun _ => .passive).run
        (start Relay.mixed (fun _ => .empty) fun _ => "t") crossing = some s ∧
      (s.reader .destination).returned.flatten =
        (sendCalls (s.relay.ends .source).world.trace).flatten := by
  have hrun : ((machine ProtobufMessages.codec fun _ => .passive).run
      (start Relay.mixed (fun _ => .empty) fun _ => "t") crossing).map (fun s =>
        (((s.relay.taken .source, (writtenMessages (s.relay.ends .source).world.trace).length),
          (s.relay.ends .destination).receiveBuffer ++ s.relay.inbound .destination),
          (s.next .destination, ((s.reader .destination).wasm.getTransport "t").map fun (_, t) =>
            t.pending),
          (s.reader .destination).id, connectCalls (s.relay.ends .source).world.trace,
          (s.relay.ends .source).world.phase, (s.relay.ends .source).world.messageQueue)) =
      some (((2, 2), []), (none, some []), "t", 1, .active, []) := by
    rfl
  obtain ⟨s, hs, hvalues⟩ := Option.map_eq_some_iff.mp hrun
  simp only [Prod.mk.injEq] at hvalues
  obtain ⟨⟨⟨htaken, hwritten⟩, harrived⟩, ⟨hnext, hread⟩, hid, hconnects, hphase, hqueue⟩ := hvalues
  refine ⟨s, hs, read_complete _ ProtobufMessages.interoperate_codec _ Relay.mixed
    Relay.mixed_roomy _ _ crossing s (by decide +kernel) hs .source rfl ⟨htaken.trans hwritten.symm, harrived, hnext, fun t ht => ?_⟩ hconnects.le
    (by rw [hphase]; decide) hqueue⟩
  rw [show (s.reader (ClientMode.peer .source)).id = "t" from hid] at ht
  rw [show (s.reader .destination).wasm.getTransport "t" = _ from ht] at hread
  exact Option.some.inj hread

end EndToEnd
end SshClientWasm.Bridge
