import SshClientWasm.Tunnel.Transport

/-!
# What each method records

Closed forms of the sending methods, and for every method the events it appends
to the record. Sending, connecting and disconnecting only ever append outbound
events, so that everything received is recorded by `dispatch` alone.
-/
namespace SshClientWasm.Tunnel

open Library

/-- Events that a call of the public interface may record. -/
def Event.Outbound : Event → Prop
  | .connectCalled | .sendCalled _ | .wrote _ _ _ => True
  | _ => False

/-- Events that handling a decoded message may record. -/
def Event.Handled : Event → Prop
  | .onData _ | .onClose => True
  | e => e.Outbound

theorem Event.Outbound.handled {e : Event} (h : e.Outbound) : e.Handled := by
  cases e <;> first | exact h | trivial

/-- The bodies the receive loop cut off, in order. -/
def receivedFrames (trace : List Event) : List Bytes :=
  trace.filterMap fun | .receivedFrame body => some body | _ => none

/-- The messages that decoded, in order. -/
def receivedMessages (trace : List Event) : List TunnelMessage :=
  trace.filterMap fun | .receivedMessage m => some m | _ => none

/-- The calls of `onError`, in order. -/
def onErrors (trace : List Event) : List String :=
  trace.filterMap fun | .onError e => some e | _ => none

/-- The payloads passed to `onData`, in order. -/
def onDataPayloads (trace : List Event) : List Bytes :=
  trace.filterMap fun | .onData payload => some payload | _ => none

/-- The messages whose frames went to a socket, in order. -/
def writtenMessages (trace : List Event) : List MessageFields :=
  trace.filterMap fun | .wrote _ m _ => some m | _ => none

/-- The frames that went to a socket, in order. -/
def writtenFrames (trace : List Event) : List Bytes :=
  trace.filterMap fun | .wrote _ _ f => some f | _ => none

/-- The arrays passed to `send`, in order. -/
def sendCalls (trace : List Event) : List Bytes :=
  trace.filterMap fun | .sendCalled data => some data | _ => none

/-- The number of `connect()` calls. -/
def connectCalls (trace : List Event) : ℕ := trace.count .connectCalled

section Projections

variable (front back : List Event)

@[simp] theorem receivedFrames_append :
    receivedFrames (front ++ back) = receivedFrames front ++ receivedFrames back :=
  List.filterMap_append

@[simp] theorem receivedMessages_append :
    receivedMessages (front ++ back) = receivedMessages front ++ receivedMessages back :=
  List.filterMap_append

@[simp] theorem onErrors_append : onErrors (front ++ back) = onErrors front ++ onErrors back :=
  List.filterMap_append

@[simp] theorem onDataPayloads_append :
    onDataPayloads (front ++ back) = onDataPayloads front ++ onDataPayloads back :=
  List.filterMap_append

@[simp] theorem writtenMessages_append :
    writtenMessages (front ++ back) = writtenMessages front ++ writtenMessages back :=
  List.filterMap_append

@[simp] theorem writtenFrames_append :
    writtenFrames (front ++ back) = writtenFrames front ++ writtenFrames back :=
  List.filterMap_append

@[simp] theorem sendCalls_append : sendCalls (front ++ back) = sendCalls front ++ sendCalls back :=
  List.filterMap_append

@[simp] theorem connectCalls_append :
    connectCalls (front ++ back) = connectCalls front + connectCalls back :=
  List.count_append

end Projections

theorem received_of_handled {events : List Event} (h : ∀ e ∈ events, e.Handled) :
    receivedFrames events = [] ∧ receivedMessages events = [] ∧ onErrors events = [] := by
  refine ⟨?_, ?_, ?_⟩ <;>
  · apply List.filterMap_eq_nil_iff.mpr
    intro e he
    have := h e he
    cases e <;> simp_all [Event.Handled, Event.Outbound]

theorem onDataPayloads_of_outbound {events : List Event} (h : ∀ e ∈ events, e.Outbound) :
    onDataPayloads events = [] := by
  apply List.filterMap_eq_nil_iff.mpr
  intro e he
  have := h e he
  cases e <;> simp_all [Event.Outbound]

namespace World

/-- The record of `w'` is that of `w` followed by events satisfying `P`. -/
def Extends (P : Event → Prop) (w w' : World) : Prop :=
  ∃ events, w'.trace = w.trace ++ events ∧ ∀ e ∈ events, P e

theorem Extends.of_trace_eq {P : Event → Prop} {w w' : World} (h : w'.trace = w.trace) :
    Extends P w w' :=
  ⟨[], by rw [h, List.append_nil], by simp⟩

theorem Extends.refl {P : Event → Prop} (w : World) : Extends P w w := .of_trace_eq rfl

theorem Extends.trans {P : Event → Prop} {w w' w'' : World} (h : Extends P w w')
    (h' : Extends P w' w'') : Extends P w w'' := by
  obtain ⟨events, htrace, hP⟩ := h
  obtain ⟨events', htrace', hP'⟩ := h'
  refine ⟨events ++ events', by rw [htrace', htrace, List.append_assoc], ?_⟩
  intro e he
  rcases List.mem_append.mp he with he | he
  · exact hP e he
  · exact hP' e he

theorem Extends.log {P : Event → Prop} (w : World) {e : Event} (he : P e) :
    Extends P w (w.log e) :=
  ⟨[e], rfl, by simpa using he⟩

variable (env : Env) (w : World)

section Log

variable (e : Event)

@[simp] theorem log_config : (w.log e).config = w.config := rfl
@[simp] theorem log_ws : (w.log e).ws = w.ws := rfl
@[simp] theorem log_streamId : (w.log e).streamId = w.streamId := rfl
@[simp] theorem log_isConnected : (w.log e).isConnected = w.isConnected := rfl
@[simp] theorem log_tunnelReady : (w.log e).tunnelReady = w.tunnelReady := rfl
@[simp] theorem log_messageQueue : (w.log e).messageQueue = w.messageQueue := rfl
@[simp] theorem log_sockets : (w.log e).sockets = w.sockets := rfl
@[simp] theorem log_trace : (w.log e).trace = w.trace ++ [e] := rfl

end Log

/-- Several events recorded at once. -/
def logAll (events : List Event) : World := { w with trace := w.trace ++ events }

section LogAll

variable (events : List Event)

@[simp] theorem logAll_config : (w.logAll events).config = w.config := rfl
@[simp] theorem logAll_ws : (w.logAll events).ws = w.ws := rfl
@[simp] theorem logAll_streamId : (w.logAll events).streamId = w.streamId := rfl
@[simp] theorem logAll_isConnected : (w.logAll events).isConnected = w.isConnected := rfl
@[simp] theorem logAll_tunnelReady : (w.logAll events).tunnelReady = w.tunnelReady := rfl
@[simp] theorem logAll_messageQueue : (w.logAll events).messageQueue = w.messageQueue := rfl
@[simp] theorem logAll_sockets : (w.logAll events).sockets = w.sockets := rfl
@[simp] theorem logAll_trace : (w.logAll events).trace = w.trace ++ events := rfl
@[simp] theorem logAll_socketOpen : (w.logAll events).socketOpen = w.socketOpen := rfl

@[simp] theorem logAll_nil : w.logAll [] = w := by
  rw [logAll, List.append_nil]

@[simp] theorem logAll_logAll (events' : List Event) :
    (w.logAll events).logAll events' = w.logAll (events ++ events') := by
  rw [logAll, logAll, logAll, List.append_assoc]

end LogAll

/-- The record of writing one DATA frame a chunk: nothing unless the socket is open. -/
def dataWrites (chunks : List Bytes) : List Event :=
  match w.socketOpen with
  | none => []
  | some i => chunks.map fun chunk => .wrote i (w.dataMessage chunk)
      (frame ((env.codecs w.config.version).encode (w.dataMessage chunk)))

theorem dataWrites_append (front back : List Bytes) :
    w.dataWrites env (front ++ back) = w.dataWrites env front ++ w.dataWrites env back := by
  cases h : w.socketOpen <;> simp [dataWrites, h]

@[simp] theorem dataWrites_nil : w.dataWrites env [] = [] := by
  cases h : w.socketOpen <;> simp [dataWrites, h]

theorem sendFrame_dataMessage (chunk : Bytes) :
    w.sendFrame (w.encodeMessage env (w.dataMessage chunk)) =
      w.logAll (w.dataWrites env [chunk]) := by
  cases h : w.socketOpen with
  | none => simp [sendFrame, dataWrites, h]
  | some i =>
    simp only [sendFrame, dataWrites, h]
    rfl

theorem sendDataFrame_eq (data : Bytes) :
    w.sendDataFrame env data = w.logAll (w.dataWrites env (slices maxPayloadSize data)) := by
  have general : ∀ (chunks : List Bytes) (w : World),
      chunks.foldl (fun w chunk => w.sendFrame (w.encodeMessage env (w.dataMessage chunk))) w =
        w.logAll (w.dataWrites env chunks) := by
    intro chunks
    induction chunks with
    | nil =>
      intro w
      simp
    | cons chunk chunks ih =>
      intro w
      have hsame : (w.logAll (w.dataWrites env [chunk])).dataWrites env chunks =
          w.dataWrites env chunks := rfl
      rw [List.foldl_cons, sendFrame_dataMessage, ih, hsame, logAll_logAll, ← dataWrites_append,
        List.singleton_append]
  exact general _ w

theorem processQueuedMessages_eq :
    w.processQueuedMessages env =
      { w with messageQueue := [] }.logAll
        (w.dataWrites env (w.messageQueue.flatMap (slices maxPayloadSize))) := by
  have general : ∀ (queue : List Bytes) (w : World), w.messageQueue = queue →
      processQueuedFrom env queue w =
        { w with messageQueue := [] }.logAll
          (w.dataWrites env (queue.flatMap (slices maxPayloadSize))) := by
    intro queue
    induction queue with
    | nil =>
      intro w hqueue
      rw [processQueuedFrom, List.flatMap_nil, dataWrites_nil, logAll_nil, ← hqueue]
    | cons msg queue ih =>
      intro w _
      have hsame : ∀ chunks, ({ w with messageQueue := queue } : World).dataWrites env chunks =
          w.dataWrites env chunks := fun _ => rfl
      rw [processQueuedFrom, sendDataFrame_eq, ih _ rfl, List.flatMap_cons, dataWrites_append,
        ← logAll_logAll, hsame]
      rfl
  exact general _ w rfl

theorem outbound_of_mem_dataWrites {chunks : List Bytes} {e : Event}
    (he : e ∈ w.dataWrites env chunks) : e.Outbound := by
  cases h : w.socketOpen with
  | none => simp [dataWrites, h] at he
  | some i =>
    simp only [dataWrites, h, List.mem_map] at he
    obtain ⟨chunk, _, rfl⟩ := he
    trivial

/-- The record of writing one control frame: nothing unless the socket is open. -/
def controlWrites (m : MessageFields) : List Event :=
  match w.socketOpen with
  | none => []
  | some i => [.wrote i m (frame ((env.codecs w.config.version).encode m))]

theorem sendControlMessage_eq (m : MessageFields) :
    w.sendControlMessage env m = w.logAll (w.controlWrites env m) := by
  cases h : w.socketOpen with
  | none => simp [sendControlMessage, sendFrame, controlWrites, h]
  | some i =>
    simp only [sendControlMessage, sendFrame, controlWrites, h]
    rfl

theorem outbound_of_mem_controlWrites {m : MessageFields} {e : Event}
    (he : e ∈ w.controlWrites env m) : e.Outbound := by
  cases h : w.socketOpen with
  | none => simp [controlWrites, h] at he
  | some i =>
    simp only [controlWrites, h, List.mem_singleton] at he
    subst he
    trivial

/-- The messages `onopen` sends in the client's mode. -/
def opening : List MessageFields :=
  match w.config.clientMode with
  | .destination =>
    w.config.truthyServiceId.toList.map fun id =>
      { type := TunnelMessageType.serviceIds, availableServiceIds := [id] }
  | .source =>
    [{ type := TunnelMessageType.streamStart
       streamId := some w.streamId
       serviceId := w.config.serviceId }]

theorem onopen_eq :
    w.onopen env =
      { w with isConnected := true }.logAll (w.opening.flatMap (w.controlWrites env)) := by
  unfold onopen opening
  dsimp only
  cases w.config.clientMode with
  | destination =>
    cases w.config.truthyServiceId with
    | none => simp
    | some id =>
      simp only [sendControlMessage_eq, Option.toList_some, List.map_cons, List.map_nil,
        List.flatMap_cons, List.flatMap_nil, List.append_nil]
      rfl
  | source =>
    simp only [sendControlMessage_eq, List.flatMap_cons, List.flatMap_nil, List.append_nil]
    rfl

def streamReset : MessageFields where
  type := TunnelMessageType.streamReset
  streamId := some w.streamId

theorem disconnect_eq :
    w.disconnect env =
      { w.logAll (w.controlWrites env w.streamReset) with
        ws := none
        isConnected := false
        tunnelReady := false
        sockets := w.ws.elim w.sockets fun i => (w.closeSocket i).sockets } := by
  cases h : w.ws with
  | none =>
    have hopen : w.socketOpen = none := by simp [socketOpen, h]
    simp [disconnect, controlWrites, hopen, h, logAll]
  | some i =>
    simp only [disconnect, h, sendControlMessage_eq]
    rfl

theorem send_queued {data : Bytes}
    (h : w.isConnected = false ∨ w.ws = none ∨ w.tunnelReady = false) :
    w.send env data =
      { w.log (.sendCalled data) with messageQueue := w.messageQueue ++ [data] } :=
  if_pos h

theorem send_direct {data : Bytes}
    (h : ¬ (w.isConnected = false ∨ w.ws = none ∨ w.tunnelReady = false)) :
    w.send env data =
      w.logAll (.sendCalled data :: w.dataWrites env (slices maxPayloadSize data)) := by
  have hsend : w.send env data = (w.log (.sendCalled data)).sendDataFrame env data := if_neg h
  rw [hsend, sendDataFrame_eq]
  exact w.logAll_logAll [.sendCalled data] _

theorem send_trace (data : Bytes) :
    ∃ events, (w.send env data).trace = w.trace ++ .sendCalled data :: events ∧
      ∀ e ∈ events, e.Outbound := by
  unfold send
  dsimp only
  split_ifs
  · exact ⟨[], by simp, by simp⟩
  · refine ⟨(w.log (.sendCalled data)).dataWrites env (slices maxPayloadSize data), ?_,
      fun e he => outbound_of_mem_dataWrites env (w.log (.sendCalled data)) he⟩
    rw [sendDataFrame_eq, logAll_trace, log_trace, List.append_assoc, List.singleton_append]

theorem apiCall_extends (c : ApiCall) : Extends Event.Outbound w (w.apiCall env c) := by
  cases c with
  | connect constructs =>
    refine ⟨[.connectCalled], ?_, by simp [Event.Outbound]⟩
    simp only [apiCall, connect]
    split_ifs <;> rfl
  | send data =>
    obtain ⟨events, htrace, hout⟩ := w.send_trace env data
    refine ⟨_, htrace, ?_⟩
    intro e he
    rcases List.mem_cons.mp he with rfl | he
    · trivial
    · exact hout e he
  | disconnect =>
    refine ⟨w.controlWrites env w.streamReset, ?_,
      fun e he => outbound_of_mem_controlWrites env w he⟩
    rw [apiCall, disconnect_eq]
    rfl

@[simp] theorem apiCall_config (c : ApiCall) : (w.apiCall env c).config = w.config := by
  cases c with
  | connect constructs =>
    simp only [apiCall, connect]
    split_ifs <;> rfl
  | send data =>
    simp only [apiCall, send, sendDataFrame_eq]
    split_ifs <;> rfl
  | disconnect =>
    rw [apiCall, disconnect_eq]
    rfl

theorem foldl_apiCall_invariant {I : World → Prop}
    (h : ∀ w c, I w → I (w.apiCall env c)) :
    ∀ (calls : List ApiCall) (w : World), I w → I (calls.foldl (apiCall env) w) := by
  intro calls
  induction calls with
  | nil => exact fun _ hw => hw
  | cons c calls ih => exact fun w hw => ih _ (h w c hw)

theorem foldl_apiCall_extends (calls : List ApiCall) :
    Extends Event.Outbound w (calls.foldl (apiCall env) w) :=
  foldl_apiCall_invariant env (I := Extends Event.Outbound w)
    (fun _ c h => h.trans (apiCall_extends env _ c)) calls w (.refl w)

theorem foldl_apiCall_config (calls : List ApiCall) :
    (calls.foldl (apiCall env) w).config = w.config :=
  foldl_apiCall_invariant env (I := fun w' => w'.config = w.config)
    (fun w' c h => (apiCall_config env w' c).trans h) calls w rfl

variable (callback : Option (List Event → List ApiCall)) (e : Event)

theorem invoke_trace :
    ∃ events, (w.invoke env callback e).trace =
        w.trace ++ (if callback.isSome then [e] else []) ++ events ∧
      ∀ e' ∈ events, e'.Outbound := by
  cases callback with
  | none => exact ⟨[], by simp [invoke], by simp⟩
  | some react =>
    obtain ⟨events, htrace, hout⟩ := foldl_apiCall_extends env (w.log e) (react (w.trace ++ [e]))
    exact ⟨events, by simpa [invoke] using htrace, hout⟩

@[simp] theorem invoke_config : (w.invoke env callback e).config = w.config := by
  cases callback with
  | none => rfl
  | some react => exact foldl_apiCall_config env (w.log e) _

theorem handleMessage_config (m : TunnelMessage) : (w.handleMessage env m).config = w.config := by
  unfold handleMessage
  dsimp only
  split_ifs <;> simp [processQueuedMessages_eq, disconnect_eq]

theorem dispatch_config (body : Bytes) : (w.dispatch env body).config = w.config := by
  unfold dispatch
  dsimp only
  split
  · rw [handleMessage_config, log_config]
  · rw [invoke_config, log_config]

/-- A handled message is recorded first; a DATA message is then passed to `onData`. -/
theorem handleMessage_trace (m : TunnelMessage) :
    ∃ events, (w.handleMessage env m).trace = w.trace ++ .receivedMessage m :: events ∧
      (∀ e ∈ events, e.Handled) ∧
      (m.type = TunnelMessageType.data → env.handlers.onData.isSome →
        onDataPayloads events = [m.payload]) := by
  have hinvoke : ∀ (callback : Option (List Event → List ApiCall)) (e : Event), e.Handled →
      ∃ events, ((w.log (.receivedMessage m)).invoke env callback e).trace =
          w.trace ++ .receivedMessage m :: events ∧ (∀ e' ∈ events, e'.Handled) ∧
        (callback.isSome → onDataPayloads events = onDataPayloads [e]) := by
    intro callback e he
    obtain ⟨events, htrace, hout⟩ := invoke_trace env (w.log (.receivedMessage m)) callback e
    refine ⟨(if callback.isSome then [e] else []) ++ events, by simp [htrace], ?_, ?_⟩
    · intro e' he'
      rcases List.mem_append.mp he' with he' | he'
      · split_ifs at he'
        · rw [List.mem_singleton.mp he']
          exact he
        · cases he'
      · exact (hout e' he').handled
    · intro hsome
      rw [if_pos hsome, onDataPayloads_append, onDataPayloads_of_outbound hout, List.append_nil]
  have hrest : ∀ w' : World, Extends Event.Outbound (w.log (.receivedMessage m)) w' →
      m.type ≠ TunnelMessageType.data →
      ∃ events, w'.trace = w.trace ++ .receivedMessage m :: events ∧
        (∀ e ∈ events, e.Handled) ∧
        (m.type = TunnelMessageType.data → env.handlers.onData.isSome →
          onDataPayloads events = [m.payload]) := by
    intro w' hext hdata
    obtain ⟨events, htrace, hout⟩ := hext
    exact ⟨events, by simp [htrace], fun e he => (hout e he).handled, fun h => absurd h hdata⟩
  have hflush : ∀ w' : World, w'.trace = w.trace ++ [.receivedMessage m] →
      Extends Event.Outbound (w.log (.receivedMessage m)) (w'.processQueuedMessages env) := by
    intro w' htrace
    rw [processQueuedMessages_eq]
    exact ⟨_, by simp [htrace]; rfl, fun e he => outbound_of_mem_dataWrites env w' he⟩
  unfold handleMessage
  dsimp only
  split_ifs with hdata hstart hdest hreset hsession hids hsource
  · obtain ⟨events, htrace, hall, hpay⟩ := hinvoke env.handlers.onData (.onData m.payload) trivial
    exact ⟨events, htrace, hall, fun _ hsome => hpay hsome⟩
  · exact hrest _ (hflush _ rfl) hdata
  · exact hrest _ (.refl _) hdata
  · obtain ⟨events, htrace, hall, _⟩ := hinvoke env.handlers.onClose .onClose trivial
    exact ⟨events, htrace, hall, fun h => absurd h hdata⟩
  · exact hrest _ (apiCall_extends env _ .disconnect) hdata
  · exact hrest _ (hflush _ rfl) hdata
  · exact hrest _ (.refl _) hdata
  · exact hrest _ (.refl _) hdata

/-- What the receive loop records about a body itself: the message it decodes
to, or the error reported for it. -/
def verdict (body : Bytes) : List Event :=
  match (env.codecs w.config.version).decode body with
  | .ok m => [.receivedMessage m]
  | .error e => if env.handlers.onError.isSome then [.onError e] else []

theorem dispatch_trace (body : Bytes) :
    ∃ events, (w.dispatch env body).trace =
        w.trace ++ .receivedFrame body :: (w.verdict env body ++ events) ∧
      ∀ e ∈ events, e.Handled := by
  unfold dispatch verdict
  dsimp only
  rw [log_config]
  cases (env.codecs w.config.version).decode body with
  | ok m =>
    obtain ⟨events, htrace, hall, _⟩ := handleMessage_trace env (w.log (.receivedFrame body)) m
    exact ⟨events, by simp [htrace], hall⟩
  | error e =>
    obtain ⟨events, htrace, hout⟩ :=
      invoke_trace env (w.log (.receivedFrame body)) env.handlers.onError (.onError e)
    exact ⟨events, by simp [htrace], fun e' he' => (hout e' he').handled⟩

end World
end SshClientWasm.Tunnel
