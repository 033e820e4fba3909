import SshClientWasm.Library.History
import SshClientWasm.Tunnel.Delivery

/-!
# A stream that the remote has reset

For STREAM_RESET, `handleMessage` reports `onClose` and changes no field: what `send`, the
queue and the receive loop consult is as it was. `onclose` reports the same and lowers both
flags first.
-/
namespace SshClientWasm.Tunnel

open Library

/-- A DATA frame that is written, or the payload of one that is passed on. -/
def Event.Traffic : Event → Prop
  | .wrote _ m _ => m.type = TunnelMessageType.data
  | .onData _ => True
  | _ => False

def Event.Received (type : Int32) : Event → Prop
  | .receivedMessage m => m.type = type
  | _ => False

/-- The remote has reset the stream and not started one since. -/
def IsReset (trace : List Event) : Prop :=
  Since (Event.Received TunnelMessageType.streamReset)
    (Event.Received TunnelMessageType.streamStart) trace

/-- No data passes while the stream is reset. -/
def Silent (trace : List Event) : Prop := AtEach (fun front e => e.Traffic → ¬ IsReset front) trace

/-- None of the events is a message of the remote. -/
def Unanswered (events : List Event) : Prop := ∀ m, .receivedMessage m ∉ events

variable {trace events : List Event} {body : Bytes} {m : TunnelMessage}

theorem Unanswered.not_received (h : Unanswered events) {e : Event} (he : e ∈ events)
    (type : Int32) : ¬ e.Received type := by
  cases e with
  | receivedMessage m => exact absurd he (h m)
  | _ => exact not_false

theorem Unanswered.isReset_iff (h : Unanswered events) :
    IsReset (trace ++ events) ↔ IsReset trace :=
  since_append_iff fun _ he => ⟨h.not_received he _, h.not_received he _⟩

/-- Only messages decide between the states of the stream, so what follows the last one is
silent as a whole or not at all. -/
theorem Silent.append_iff (hsilent : Silent trace) (hquiet : Unanswered events) :
    Silent (trace ++ events) ↔ (IsReset trace → ∀ e ∈ events, ¬ e.Traffic) := by
  constructor
  · intro h hreset e he htraffic
    obtain ⟨front, back, hsplit⟩ := List.append_of_mem he
    refine AtEach.of_append h front e back hsplit htraffic ?_
    have hfront : Unanswered front := by
      intro m hm
      refine hquiet m ?_
      rw [hsplit]
      exact List.mem_append_left _ hm
    exact hfront.isReset_iff.mpr hreset
  · intro h
    refine hsilent.append fun front e back hsplit htraffic hreset => ?_
    have hmem : e ∈ events := by
      rw [hsplit]
      exact List.mem_append_right _ List.mem_cons_self
    have hfront : Unanswered front := by
      intro m hm
      refine hquiet m ?_
      rw [hsplit]
      exact List.mem_append_left _ hm
    exact h (hfront.isReset_iff.mp hreset) e hmem htraffic

theorem Silent.received (hsilent : Silent trace) (body : Bytes) (m : TunnelMessage) :
    Silent (trace ++ [.receivedFrame body, .receivedMessage m]) := by
  refine hsilent.append fun front e back hsplit htraffic => ?_
  have hmem : e ∈ [Event.receivedFrame body, .receivedMessage m] := by
    rw [hsplit]
    exact List.mem_append_right _ List.mem_cons_self
  rcases List.mem_pair.mp hmem with rfl | rfl
  · exact absurd htraffic not_false
  · exact absurd htraffic not_false

theorem isReset_received (hstart : m.type ≠ TunnelMessageType.streamStart)
    (hreset : m.type ≠ TunnelMessageType.streamReset) :
    IsReset (trace ++ [.receivedFrame body, .receivedMessage m]) ↔ IsReset trace := by
  refine since_append_iff fun e he => ?_
  rcases List.mem_pair.mp he with rfl | rfl
  · exact ⟨not_false, not_false⟩
  · exact ⟨hreset, hstart⟩

theorem not_isReset_started (hstart : m.type = TunnelMessageType.streamStart) :
    ¬ IsReset (trace ++ [.receivedFrame body, .receivedMessage m]) := by
  have hsplit : trace ++ [.receivedFrame body, .receivedMessage m] =
      (trace ++ [.receivedFrame body]) ++ [.receivedMessage m] := by simp
  rw [hsplit]
  refine not_since_concat (fun hreset => ?_) hstart
  exact absurd (hstart.symm.trans hreset) (by decide)

section Events

variable {env : Env} {w : World}

theorem unanswered_nil : Unanswered [] := fun _ => List.not_mem_nil

theorem unanswered_of_outbound (h : ∀ e ∈ events, e.Outbound) : Unanswered events :=
  fun _ hmem => h _ hmem

theorem unanswered_called (callback : Option (List Event → List ApiCall)) {e : Event}
    (h : ∀ m, e ≠ .receivedMessage m) : Unanswered (called callback e) := by
  intro m hmem
  unfold called at hmem
  split_ifs at hmem
  · exact h m (List.mem_singleton.mp hmem).symm
  · cases hmem

theorem unanswered_forwarded (env : Env) (m : TunnelMessage) : Unanswered (forwarded env m) := by
  unfold forwarded
  split_ifs
  · exact unanswered_called _ (by simp)
  · exact unanswered_called _ (by simp)
  · exact unanswered_nil

theorem not_traffic_called (callback : Option (List Event → List ApiCall)) {e : Event}
    (h : ¬ e.Traffic) : ∀ x ∈ called callback e, ¬ x.Traffic := by
  intro x hx
  unfold called at hx
  split_ifs at hx
  · rwa [List.mem_singleton.mp hx]
  · cases hx

theorem forwarded_traffic_iff :
    (∀ e ∈ forwarded env m, ¬ e.Traffic) ↔
      (m.type = TunnelMessageType.data → env.handlers.onData = none) := by
  unfold forwarded
  by_cases hdata : m.type = TunnelMessageType.data
  · rw [if_pos hdata]
    cases honData : env.handlers.onData with
    | none => exact iff_of_true (fun e he => absurd he List.not_mem_nil) fun _ => rfl
    | some react =>
      refine iff_of_false ?_ ?_
      · exact fun h => h _ (List.mem_singleton_self _) trivial
      · exact fun h => Option.some_ne_none react (h hdata)
  rw [if_neg hdata]
  refine iff_of_true ?_ fun h => absurd h hdata
  split_ifs
  · exact not_traffic_called _ not_false
  · exact fun e he => absurd he List.not_mem_nil

theorem not_traffic_of_dataless (hout : ∀ e ∈ events, e.Outbound) (h : Dataless events) :
    ∀ e ∈ events, ¬ e.Traffic := by
  intro e he htraffic
  cases e with
  | wrote i m f => exact h i m f he htraffic
  | onData payload => exact hout _ he
  | _ => exact htraffic

namespace World

theorem dataWrites_traffic_iff (arrays : List Bytes) :
    (∀ e ∈ w.dataWrites env (chunksOf arrays), ¬ e.Traffic) ↔
      w.socketOpen = none ∨ ∀ data ∈ arrays, data = [] := by
  cases hopen : w.socketOpen with
  | none =>
    refine iff_of_true ?_ (Or.inl rfl)
    simp [dataWrites, hopen]
  | some i =>
    have hwrites : (∀ e ∈ w.dataWrites env (chunksOf arrays), ¬ e.Traffic) ↔
        chunksOf arrays = [] := by
      rw [List.eq_nil_iff_forall_not_mem]
      simp only [dataWrites, hopen, List.forall_mem_map]
      exact ⟨fun h chunk hchunk => h chunk hchunk rfl, fun h chunk hchunk => absurd hchunk (h chunk)⟩
    have hchunks : chunksOf arrays = [] ↔ ∀ data ∈ arrays, data = [] := by
      refine List.flatMap_eq_nil_iff.trans (forall₂_congr fun data _ => ⟨fun h => ?_, ?_⟩)
      · rw [← slices_flatten (n := maxPayloadSize) (by decide) data, h]
        rfl
      · rintro rfl
        rfl
    rw [hwrites, hchunks]
    exact ⟨Or.inr, fun h => h.resolve_left (Option.some_ne_none i)⟩

end World
end Events

/-- A message that finds nothing to send, and nobody to hand data to. -/
structure Mute (env : Env) (s : Handling) (m : TunnelMessage) : Prop where
  ready : s.world.Readies m → s.world.socketOpen = none ∨ ∀ data ∈ s.world.messageQueue, data = []
  data : m.type = TunnelMessageType.data → env.handlers.onData = none

/-- While the stream is reset, nothing that a turn finds makes it carry data: `send` queues
or has no open socket, the queue is not sent, and nobody listens for a payload. -/
def Hushed (env : Env) (s : Handling) : Turn → Prop
  | .call (.send data) =>
    IsReset s.world.trace →
      (s.world.isConnected = false ∨ s.world.ws = none ∨ s.world.tunnelReady = false) ∨
        s.world.socketOpen = none ∨ data = []
  | .frame =>
    ∀ i body rest m, s.pending = (i, body) :: rest →
      (env.codecs s.world.config.version).decode body = .ok m →
        IsReset s.world.trace → m.type ≠ TunnelMessageType.streamStart → Mute env s m
  | _ => True

variable {env : Env} {s s' : Handling} {a : Turn}

theorem Silent.idle (h : Silent trace) (hout : ∀ e ∈ events, e.Outbound)
    (hdata : Dataless events) : Silent (trace ++ events) :=
  (h.append_iff (unanswered_of_outbound hout)).mpr fun _ => not_traffic_of_dataless hout hdata

theorem Silent.called (h : Silent trace) (callback : Option (List Event → List ApiCall)) {e : Event}
    (he : ∀ m, e ≠ .receivedMessage m) (hdata : ¬ e.Traffic) :
    Silent (trace ++ called callback e) :=
  (h.append_iff (unanswered_called callback he)).mpr fun _ => not_traffic_called callback hdata

theorem send_silent_iff {data : Bytes} (h : Silent s.world.trace)
    (hstep : (turns env).step s (.call (.send data)) = some s') :
    Silent s'.world.trace ↔ Hushed env s (.call (.send data)) := by
  cases hstep
  by_cases hqueue : s.world.isConnected = false ∨ s.world.ws = none ∨ s.world.tunnelReady = false
  · rw [World.apiCall, World.send_queued env _ hqueue]
    refine iff_of_true (h.idle ?_ (dataless_cons (by simp) dataless_nil)) fun _ => Or.inl hqueue
    simp [Event.Outbound]
  · have htrace : (s.world.apiCall env (.send data)).trace = s.world.trace ++
        .sendCalled data :: s.world.dataWrites env (World.chunksOf [data]) := by
      rw [World.apiCall, World.send_direct env _ hqueue, World.chunksOf, List.flatMap_singleton]
      rfl
    have hout : Unanswered (.sendCalled data :: s.world.dataWrites env (World.chunksOf [data])) := by
      refine unanswered_of_outbound (List.forall_mem_cons.mpr ⟨trivial, fun e he => ?_⟩)
      exact World.outbound_of_mem_dataWrites env _ he
    rw [htrace, h.append_iff hout, List.forall_mem_cons, World.dataWrites_traffic_iff,
      List.forall_mem_singleton]
    constructor
    · exact fun hall hreset => Or.inr (hall hreset).2
    · exact fun hhushed hreset => ⟨not_false, (hhushed hreset).resolve_left hqueue⟩

theorem message_silent_iff (h : Silent s.world.trace) (hquiet : Unanswered events)
    (htrace : s'.world.trace =
      s.world.trace ++ (.receivedFrame body :: .receivedMessage m :: events)) :
    Silent s'.world.trace ↔
      (IsReset (s.world.trace ++ [.receivedFrame body, .receivedMessage m]) →
        ∀ e ∈ events, ¬ e.Traffic) := by
  have hsplit : s'.world.trace =
      (s.world.trace ++ [.receivedFrame body, .receivedMessage m]) ++ events := by
    rw [htrace, List.append_assoc]
    rfl
  rw [hsplit, (h.received body m).append_iff hquiet]

theorem hushed_frame_iff {i : ℕ} {rest : List (ℕ × Bytes)} (hpending : s.pending = (i, body) :: rest)
    (hdecode : (env.codecs s.world.config.version).decode body = .ok m) :
    Hushed env s .frame ↔
      (IsReset s.world.trace → m.type ≠ TunnelMessageType.streamStart → Mute env s m) := by
  constructor
  · exact fun h => h i body rest m hpending hdecode
  · intro h j body' rest' m' hpending' hdecode'
    cases hpending.symm.trans hpending'
    cases hdecode.symm.trans hdecode'
    exact h

theorem ready_silent_iff (h : Silent s.world.trace) (hready : s.world.Readies m)
    (hnext : s'.world =
      ((s.world.log (.receivedFrame body)).readied m).processQueuedMessages env) :
    Silent s'.world.trace ↔
      (IsReset s.world.trace → m.type ≠ TunnelMessageType.streamStart → Mute env s m) := by
  have htrace : s'.world.trace = s.world.trace ++ (.receivedFrame body :: .receivedMessage m ::
      ((s.world.log (.receivedFrame body)).readied m).dataWrites env
        (World.chunksOf s.world.messageQueue)) := by
    rw [hnext, World.processQueuedMessages_eq]
    exact (List.append_assoc ..).trans (List.append_assoc ..)
  have hquiet : Unanswered (((s.world.log (.receivedFrame body)).readied m).dataWrites env
      (World.chunksOf s.world.messageQueue)) :=
    unanswered_of_outbound fun e he => World.outbound_of_mem_dataWrites env _ he
  rw [message_silent_iff h hquiet htrace, World.dataWrites_traffic_iff]
  by_cases hstart : m.type = TunnelMessageType.streamStart
  · refine iff_of_true ?_ ?_
    · exact fun hreset => absurd hreset (not_isReset_started hstart)
    · exact fun _ hne => absurd hstart hne
  · have hids : m.type = TunnelMessageType.serviceIds :=
      (hready.resolve_left fun h => hstart h.1).1
    have hother : m.type ≠ TunnelMessageType.streamReset ∧ m.type ≠ TunnelMessageType.data := by
      rw [hids]
      decide
    rw [isReset_received hstart hother.1]
    constructor
    · exact fun hall hreset _ => ⟨fun _ => hall hreset, fun hdata => absurd hdata hother.2⟩
    · exact fun hhushed hreset => (hhushed hreset hstart).ready hready

theorem passed_silent_iff (h : Silent s.world.trace) (hready : ¬ s.world.Readies m)
    (hnext : s'.world =
      s.world.logAll (.receivedFrame body :: .receivedMessage m :: forwarded env m)) :
    Silent s'.world.trace ↔
      (IsReset s.world.trace → m.type ≠ TunnelMessageType.streamStart → Mute env s m) := by
  rw [message_silent_iff h (unanswered_forwarded env m) (congrArg World.trace hnext),
    forwarded_traffic_iff]
  by_cases hdata : m.type = TunnelMessageType.data
  · have hother : m.type ≠ TunnelMessageType.streamStart ∧
        m.type ≠ TunnelMessageType.streamReset := by
      rw [hdata]
      decide
    rw [isReset_received hother.1 hother.2]
    constructor
    · exact fun hall hreset _ => ⟨fun h => absurd h hready, hall hreset⟩
    · exact fun hhushed hreset => (hhushed hreset hother.1).data
  · refine iff_of_true (fun _ h => absurd h hdata) fun _ _ => ⟨?_, ?_⟩
    · exact fun h => absurd h hready
    · exact fun h => absurd h hdata

theorem frame_silent_iff (h : Silent s.world.trace)
    (hstep : (turns env).step s .frame = some s') :
    Silent s'.world.trace ↔ Hushed env s .frame := by
  obtain ⟨i, body, rest, hpending, _, _, hdispatched⟩ := turns_frame_cases hstep
  generalize hnext : s'.world = next at hdispatched
  cases hdispatched with
  | failed e hdecode =>
    refine iff_of_true ?_ ?_
    · have hfront : Silent (s.world.trace ++ [.receivedFrame body]) := by
        refine (h.append_iff ?_).mpr fun _ => ?_
        · simp [Unanswered]
        · simp [Event.Traffic]
      have hall := hfront.called env.handlers.onError (e := .onError e) (by simp) not_false
      rw [List.append_assoc] at hall
      exact hall
    · intro j body' rest' m hpending' hdecode'
      cases hpending.symm.trans hpending'
      cases hdecode.symm.trans hdecode'
  | ready m hdecode hready =>
    rw [← hnext, hushed_frame_iff hpending hdecode]
    exact ready_silent_iff h hready hnext
  | reset m hdecode htype =>
    have hother : m.type ≠ TunnelMessageType.data := by
      rw [htype]
      decide
    have htrace : s'.world.trace = (s.world.trace ++ [.receivedFrame body, .receivedMessage m]) ++
        s.world.controlWrites env s.world.streamReset := by
      rw [hnext, World.disconnect_eq, List.append_assoc]
      exact (List.append_assoc ..).trans (List.append_assoc ..)
    rw [← hnext, hushed_frame_iff hpending hdecode, htrace]
    refine iff_of_true ?_ fun _ _ => ⟨?_, fun h => absurd h hother⟩
    · refine (h.received body m).idle (fun e he => ?_) World.dataless_streamReset
      exact World.outbound_of_mem_controlWrites env s.world he
    · exact fun hready => absurd hready (World.not_readies_of_reset htype)
  | passed m hdecode hready htype =>
    rw [← hnext, hushed_frame_iff hpending hdecode]
    exact passed_silent_iff h hready hnext

/-- A turn keeps the silence exactly if it is hushed. -/
theorem step_silent_iff (h : Silent s.world.trace) (hstep : (turns env).step s a = some s') :
    Silent s'.world.trace ↔ Hushed env s a := by
  cases turns_cases hstep with
  | call c =>
    cases c with
    | connect constructs =>
      have htrace : (s.world.apiCall env (.connect constructs)).trace =
          s.world.trace ++ [.connectCalled] := by
        simp only [World.apiCall, World.connect]
        split_ifs
        · rfl
        · rfl
      rw [htrace]
      exact iff_of_true (h.idle (by simp [Event.Outbound]) (by simp [Dataless])) trivial
    | send data => exact send_silent_iff h hstep
    | disconnect =>
      rw [World.apiCall, World.disconnect_eq]
      refine iff_of_true (h.idle (fun e he => ?_) World.dataless_streamReset) trivial
      exact World.outbound_of_mem_controlWrites env s.world he
  | frame => exact frame_silent_iff h hstep
  | «open» i =>
    refine iff_of_true (h.idle (fun e he => ?_) (World.dataless_opening _ _)) trivial
    obtain ⟨m, _, hmem⟩ := List.mem_flatMap.mp he
    exact World.outbound_of_mem_controlWrites env _ hmem
  | message i data => exact iff_of_true h trivial
  | error i => exact iff_of_true (h.called _ (by simp) not_false) trivial
  | closing i => exact iff_of_true h trivial
  | close i => exact iff_of_true (h.called _ (by simp) not_false) trivial

/-- In every run, no data passes on a reset stream exactly if every turn is hushed. -/
theorem always_silent_iff (env : Env) (config : SecureTunnelConfig) (labels : List Turn)
    (s : Handling) (hrun : (turns env).run (Receiver.fresh config).idle labels = some s) :
    (turns env).Always (fun s => Silent s.world.trace) (Receiver.fresh config).idle labels ↔
      (turns env).Admits (Hushed env) (Receiver.fresh config).idle labels := by
  apply (turns env).always_iff_admits (I := fun _ => True) (fun _ _ _ _ _ => trivial) ?_
    labels _ s trivial atEach_nil hrun
  intro s a t _ hsilent hstep
  exact step_silent_iff hsilent hstep

/-- A source that is ready, whose peer then resets the stream. -/
def resetSource : List Turn :=
  [.call (.connect true), .open 0, .message 0 [0, 2, 8, 5], .frame, .message 0 [0, 2, 8, 3], .frame]

/-- The remote closes the socket behind its reset, and what is sent from then on is queued. -/
theorem always_silent_iff_closed :
    let env : Env := ⟨ProtobufMessages.codec, .passive⟩
    let start := (Receiver.fresh ⟨"eu-west-1", "token", .source, none, none⟩).idle
    (turns env).Always (fun s => Silent s.world.trace) start
      [.call (.connect true), .open 0, .message 0 [0, 2, 8, 3], .frame, .close 0,
        .call (.send [1])] := by
  intro env start
  refine (always_silent_iff env _ _ _ rfl).mpr ?_
  refine (Machine.admits_cons _ rfl).mpr ⟨trivial, ?_⟩
  refine (Machine.admits_cons _ rfl).mpr ⟨trivial, ?_⟩
  refine (Machine.admits_cons _ rfl).mpr ⟨trivial, ?_⟩
  refine (Machine.admits_cons _ rfl).mpr ⟨?_, ?_⟩
  · intro i body rest m hpending hdecode _ _
    cases hpending
    have htype : m.type = TunnelMessageType.streamReset := by
      cases hdecode
      decide +kernel
    refine ⟨fun _ => Or.inr fun data hdata => absurd hdata List.not_mem_nil, fun hdata => ?_⟩
    exact absurd (htype.symm.trans hdata) (by decide)
  · refine (Machine.admits_cons _ rfl).mpr ⟨trivial, ?_⟩
    exact (Machine.admits_cons _ rfl).mpr ⟨fun _ => Or.inl (Or.inl rfl), trivial⟩

/-- The remote has reset the stream, and the next send goes out on it as DATA. -/
theorem send_behind_streamReset :
    let env : Env := ⟨ProtobufMessages.codec, .passive⟩
    let start := (Receiver.fresh ⟨"eu-west-1", "token", .source, none, none⟩).idle
    ¬ (turns env).Always (fun s => Silent s.world.trace) start
      (resetSource ++ [.call (.send [1])]) := by
  intro env start hall
  let data : MessageFields :=
    { type := TunnelMessageType.data, streamId := some 1, payload := some [1] }
  have htrace : ((turns env).run start (resetSource ++ [.call (.send [1])])).map (fun s =>
      s.world.trace.drop 5) = some ([.receivedMessage
        { type := TunnelMessageType.streamReset, streamId := 0, ignorable := false, payload := []
          serviceId := "", availableServiceIds := [], connectionId := 0 }, .onClose,
        .sendCalled [1]] ++ [.wrote 0 data [0, 7, 8, 1, 16, 1, 34, 1, 1]]) := by
    decide +kernel
  obtain ⟨s, hrun, hlast⟩ := Option.map_eq_some_iff.mp htrace
  have hsilent : Silent s.world.trace := (turns env).always_run _ start s hall hrun
  rw [← List.take_append_drop 5 s.world.trace, hlast, ← List.append_assoc] at hsilent
  refine hsilent _ (.wrote 0 data _) [] rfl rfl ⟨s.world.trace.take 5, _, _, rfl, rfl, ?_⟩
  simp [Event.Received]

end SshClientWasm.Tunnel
