import SshClientWasm.Tunnel.Grammar
import SshClientWasm.Tunnel.Turns

/-!
# What happens to the data of a send

An array given to `send` is in the queue or handed over, and an array of the queue stays
there until it is handed over. Handed over means that all its bytes go to an open socket
in DATA frames. `sendFrame` only warns where there is no such socket.
-/
namespace SshClientWasm.Tunnel

open Library

/-- The array that a turn gives to the transport. -/
def Turn.offered : Turn → List Bytes
  | .call (.send data) => [data]
  | _ => []

/-- Every array that was queued or is offered in this turn is handed to an open socket in
full, or queued behind it. -/
def Keeps (s : Handling) (a : Turn) (s' : Handling) : Prop :=
  ∃ (events : List Event) (handed : List Bytes),
    s'.world.trace = s.world.trace ++ events ∧
    (∀ i m f, .wrote i m f ∈ events → m.type = TunnelMessageType.data →
      s.world.sockets[i]? = some .open) ∧
    (sentPayloads events).flatten = handed.flatten ∧
    (handed ++ s'.world.messageQueue).Perm (s.world.messageQueue ++ a.offered)

/-- The socket is open where `send` does not queue, and where a message makes the tunnel
ready with something in the queue. Arrays without bytes do not matter. -/
def Delivers (env : Env) (s : Handling) : Turn → Prop
  | .call (.send data) =>
    data = [] ∨ s.world.socketOpen ≠ none ∨
      s.world.isConnected = false ∨ s.world.ws = none ∨ s.world.tunnelReady = false
  | .frame =>
    ∀ i body rest m, s.pending = (i, body) :: rest →
      (env.codecs s.world.config.version).decode body = .ok m → s.world.Readies m →
        s.world.socketOpen ≠ none ∨ ∀ data ∈ s.world.messageQueue, data = []
  | _ => True

/-- No DATA frame is among the events. -/
def Dataless (events : List Event) : Prop :=
  ∀ i m f, .wrote i m f ∈ events → m.type ≠ TunnelMessageType.data

theorem Dataless.sentPayloads {events : List Event} (h : Dataless events) :
    sentPayloads events = [] := by
  apply List.filterMap_eq_nil_iff.mpr
  intro m hm
  obtain ⟨e, he, hwrote⟩ := List.mem_filterMap.mp hm
  cases e with
  | wrote i m' f =>
    cases hwrote
    exact if_neg (h i m f he)
  | _ => cases hwrote

theorem dataless_nil : Dataless [] := fun _ _ _ hmem => absurd hmem List.not_mem_nil

theorem Dataless.append {front back : List Event} (hfront : Dataless front)
    (hback : Dataless back) : Dataless (front ++ back) := by
  intro i m f hmem
  rcases List.mem_append.mp hmem with hmem | hmem
  · exact hfront i m f hmem
  · exact hback i m f hmem

theorem dataless_called (callback : Option (List Event → List ApiCall)) {e : Event}
    (h : ∀ i m f, e ≠ .wrote i m f) : Dataless (called callback e) := by
  intro i m f hmem
  unfold called at hmem
  split_ifs at hmem
  · exact absurd (List.mem_singleton.mp hmem).symm (h i m f)
  · cases hmem

theorem dataless_forwarded (env : Env) (m : TunnelMessage) : Dataless (forwarded env m) := by
  unfold forwarded
  split_ifs
  · exact dataless_called _ (by simp)
  · exact dataless_called _ (by simp)
  · exact dataless_nil

theorem dataless_cons {e : Event} {events : List Event} (he : ∀ i m f, e ≠ .wrote i m f)
    (h : Dataless events) : Dataless (e :: events) := by
  intro i m f hmem
  rcases List.mem_cons.mp hmem with heq | hmem
  · exact absurd heq.symm (he i m f)
  · exact h i m f hmem

namespace World

variable {env : Env} {w : World}

theorem dataless_controlWrites {m : MessageFields} (hm : m.type ≠ TunnelMessageType.data) :
    Dataless (w.controlWrites env m) := by
  intro i m' f hmem
  cases hopen : w.socketOpen with
  | none => simp [controlWrites, hopen] at hmem
  | some j =>
    simp only [controlWrites, hopen, List.mem_singleton] at hmem
    cases hmem
    exact hm

theorem dataless_streamReset : Dataless (w.controlWrites env w.streamReset) :=
  dataless_controlWrites (show TunnelMessageType.streamReset ≠ TunnelMessageType.data by decide)

theorem dataless_opening (w w' : World) : Dataless (w.opening.flatMap (w'.controlWrites env)) := by
  intro i m f hmem
  obtain ⟨m', hm', hmem⟩ := List.mem_flatMap.mp hmem
  exact dataless_controlWrites (opening_types_ne_data hm') i m f hmem

theorem dataWrites_spec (env : Env) (arrays : List Bytes) :
    (∀ i m f, .wrote i m f ∈ w.dataWrites env (chunksOf arrays) →
      w.sockets[i]? = some .open) ∧
    (sentPayloads (w.dataWrites env (chunksOf arrays))).flatten =
      if w.socketOpen = none then [] else arrays.flatten := by
  cases hopen : w.socketOpen with
  | none => simp [dataWrites, hopen, sentPayloads, writtenMessages, dataPayloads]
  | some j =>
    constructor
    · intro i m f hmem
      simp only [dataWrites, hopen, List.mem_map] at hmem
      obtain ⟨chunk, _, hwrote⟩ := hmem
      cases hwrote
      obtain ⟨_, hsocket⟩ := Option.filter_eq_some_iff.mp hopen
      exact of_decide_eq_true hsocket
    · rw [sentPayloads_dataWrites hopen, if_neg (by simp)]
      exact chunksOf_flatten arrays

end World

variable {env : Env} {s s' : Handling} {a : Turn}

theorem keeps_of_dataless (events : List Event)
    (htrace : s'.world.trace = s.world.trace ++ events) (hevents : Dataless events)
    (hqueue : s'.world.messageQueue = s.world.messageQueue ++ a.offered) : Keeps s a s' := by
  refine ⟨events, [], htrace, ?_, ?_, ?_⟩
  · exact fun i m f hmem htype => absurd htype (hevents i m f hmem)
  · rw [hevents.sentPayloads]
  · rw [List.nil_append, hqueue]

theorem keeps_iff_of_dataWrites {front : List Event} {arrays : List Bytes} {w : World}
    (hws : w.ws = s.world.ws) (hsockets : w.sockets = s.world.sockets)
    (htrace : s'.world.trace = s.world.trace ++
      (front ++ w.dataWrites env (World.chunksOf arrays)))
    (hfront : Dataless front)
    (hqueue : (arrays ++ s'.world.messageQueue).Perm (s.world.messageQueue ++ a.offered)) :
    Keeps s a s' ↔ s.world.socketOpen ≠ none ∨ ∀ data ∈ arrays, data = [] := by
  have hsame : w.socketOpen = s.world.socketOpen := by
    rw [World.socketOpen, World.socketOpen, hws, hsockets]
  obtain ⟨hwrites, hpayloads⟩ := w.dataWrites_spec env arrays
  rw [hsockets] at hwrites
  rw [hsame] at hpayloads
  constructor
  · rintro ⟨events, handed, hevents, _, hhanded, hperm⟩
    by_cases hopen : s.world.socketOpen = none
    · right
      have heq := List.append_cancel_left (hevents.symm.trans htrace)
      rw [heq, sentPayloads_append, hfront.sentPayloads, List.nil_append, hpayloads,
        if_pos hopen] at hhanded
      have hsame : handed.Perm arrays :=
        (List.perm_append_right_iff _).mp (hperm.trans hqueue.symm)
      intro data hdata
      exact List.flatten_eq_nil_iff.mp hhanded.symm data (hsame.mem_iff.mpr hdata)
    · exact Or.inl hopen
  · intro h
    refine ⟨_, arrays, htrace, ?_, ?_, hqueue⟩
    · intro i m f hmem htype
      rcases List.mem_append.mp hmem with hmem | hmem
      · exact absurd htype (hfront i m f hmem)
      · exact hwrites i m f hmem
    · rw [sentPayloads_append, hfront.sentPayloads, List.nil_append, hpayloads]
      split_ifs with hopen
      · exact (List.flatten_eq_nil_iff.mpr (h.resolve_left (not_not.mpr hopen))).symm
      · rfl

theorem send_keeps_iff {data : Bytes}
    (hstep : (turns env).step s (.call (.send data)) = some s') :
    Keeps s (.call (.send data)) s' ↔ Delivers env s (.call (.send data)) := by
  cases hstep
  by_cases hqueue : s.world.isConnected = false ∨ s.world.ws = none ∨ s.world.tunnelReady = false
  · refine iff_of_true ?_ (Or.inr (Or.inr hqueue))
    apply keeps_of_dataless [.sendCalled data]
    · rw [World.apiCall, World.send_queued env _ hqueue]
      rfl
    · exact dataless_cons (by simp) dataless_nil
    · rw [World.apiCall, World.send_queued env _ hqueue]
      rfl
  · have htrace : (s.world.apiCall env (.send data)).trace = s.world.trace ++
        ([.sendCalled data] ++ s.world.dataWrites env (World.chunksOf [data])) := by
      rw [World.apiCall, World.send_direct env _ hqueue, World.chunksOf, List.flatMap_singleton]
      rfl
    have hperm : ([data] ++ (s.world.apiCall env (.send data)).messageQueue).Perm
        (s.world.messageQueue ++ (Turn.call (.send data)).offered) := by
      rw [World.apiCall, World.send_direct env _ hqueue]
      exact List.perm_append_comm
    rw [keeps_iff_of_dataWrites rfl rfl htrace (dataless_cons (by simp) dataless_nil) hperm]
    unfold Delivers
    simp only [List.mem_singleton, forall_eq]
    tauto

theorem frame_keeps_iff (hstep : (turns env).step s .frame = some s') :
    Keeps s .frame s' ↔ Delivers env s .frame := by
  obtain ⟨i, body, rest, hpending, _, _, hdispatched⟩ := turns_frame_cases hstep
  have hadmits : ∀ m, (env.codecs s.world.config.version).decode body = .ok m →
      ¬ s.world.Readies m → Delivers env s .frame := by
    intro m hdecode hready j body' rest' m' hpending' hdecode' hready'
    cases hpending.symm.trans hpending'
    cases hdecode.symm.trans hdecode'
    exact absurd hready' hready
  have hreceived : ∀ m, Dataless [.receivedFrame body, .receivedMessage m] :=
    fun m => dataless_cons (by simp) (dataless_cons (by simp) dataless_nil)
  have hlog : ∀ m, (s.world.log (.receivedFrame body)).log (.receivedMessage m) =
      s.world.logAll [.receivedFrame body, .receivedMessage m] :=
    fun m => s.world.logAll_logAll [.receivedFrame body] [.receivedMessage m]
  generalize hnext : s'.world = next at hdispatched
  cases hdispatched with
  | failed e hdecode =>
    refine iff_of_true ?_ ?_
    · apply keeps_of_dataless (.receivedFrame body :: called env.handlers.onError (.onError e))
      · rw [hnext]
        rfl
      · exact dataless_cons (by simp) (dataless_called _ (by simp))
      · rw [hnext]
        exact (List.append_nil _).symm
    · intro j body' rest' m hpending' hdecode' _
      cases hpending.symm.trans hpending'
      cases hdecode.symm.trans hdecode'
  | ready m hdecode hready =>
    have htrace : s'.world.trace = s.world.trace ++ ([.receivedFrame body, .receivedMessage m] ++
        ((s.world.log (.receivedFrame body)).readied m).dataWrites env
          (World.chunksOf s.world.messageQueue)) := by
      rw [hnext, World.processQueuedMessages_eq, World.logAll_trace, ← List.append_assoc]
      exact congrArg (· ++ _) (congrArg World.trace (hlog m))
    have hperm : (s.world.messageQueue ++ s'.world.messageQueue).Perm
        (s.world.messageQueue ++ Turn.frame.offered) := by
      rw [hnext, World.processQueuedMessages_eq]
      exact List.Perm.refl _
    rw [keeps_iff_of_dataWrites (w := (s.world.log (.receivedFrame body)).readied m) rfl rfl
      htrace (hreceived m) hperm]
    constructor
    · intro h j body' rest' m' _ _ _
      exact h
    · exact fun h => h i body rest m hpending hdecode hready
  | reset m hdecode htype =>
    refine iff_of_true ?_ (hadmits m hdecode (World.not_readies_of_reset htype))
    apply keeps_of_dataless ([.receivedFrame body, .receivedMessage m] ++
      World.controlWrites env s.world s.world.streamReset)
    · rw [hnext, hlog, World.disconnect_eq]
      exact List.append_assoc ..
    · exact (hreceived m).append World.dataless_streamReset
    · rw [hnext, World.disconnect_eq]
      exact (List.append_nil _).symm
  | passed m hdecode hready htype =>
    refine iff_of_true ?_ (hadmits m hdecode hready)
    apply keeps_of_dataless
      (.receivedFrame body :: .receivedMessage m :: forwarded env m)
    · rw [hnext]
      rfl
    · exact dataless_cons (by simp) (dataless_cons (by simp) (dataless_forwarded env m))
    · rw [hnext]
      exact (List.append_nil _).symm

/-- One turn keeps the data exactly if it delivers. -/
theorem step_keeps_iff (hstep : (turns env).step s a = some s') :
    Keeps s a s' ↔ Delivers env s a := by
  cases turns_cases hstep with
  | call c =>
    cases c with
    | connect constructs =>
      refine iff_of_true ?_ trivial
      apply keeps_of_dataless ([.connectCalled])
      · simp only [World.apiCall, World.connect]
        split_ifs <;> rfl
      · exact dataless_cons (by simp) dataless_nil
      · simp only [World.apiCall, World.connect]
        split_ifs <;> exact (List.append_nil _).symm
    | send data => exact send_keeps_iff hstep
    | disconnect =>
      refine iff_of_true ?_ trivial
      apply keeps_of_dataless (s.world.controlWrites env s.world.streamReset)
      · rw [World.apiCall, World.disconnect_eq]
        rfl
      · exact World.dataless_streamReset
      · rw [World.apiCall, World.disconnect_eq]
        exact (List.append_nil _).symm
  | frame => exact frame_keeps_iff hstep
  | «open» i =>
    refine iff_of_true ?_ trivial
    exact keeps_of_dataless _ rfl (World.dataless_opening _ _) (List.append_nil _).symm
  | message i data =>
    refine iff_of_true ?_ trivial
    exact keeps_of_dataless [] (List.append_nil _).symm dataless_nil (List.append_nil _).symm
  | error i =>
    refine iff_of_true ?_ trivial
    exact keeps_of_dataless _ rfl (dataless_called _ (by simp)) (List.append_nil _).symm
  | closing i =>
    refine iff_of_true ?_ trivial
    exact keeps_of_dataless [] (List.append_nil _).symm dataless_nil (List.append_nil _).symm
  | close i =>
    refine iff_of_true ?_ trivial
    exact keeps_of_dataless _ rfl (dataless_called _ (by simp)) (List.append_nil _).symm

/-- In every run of the tunnel, with calls from inside the callbacks as well, `send` and the
queue lose nothing exactly if the socket is open whenever they do not queue. -/
theorem steps_keep_iff (env : Env) (config : SecureTunnelConfig) (labels : List Turn)
    (s : Handling) (hrun : (turns env).run (Receiver.fresh config).idle labels = some s) :
    (turns env).Steps Keeps (Receiver.fresh config).idle labels ↔
      (turns env).Admits (Delivers env) (Receiver.fresh config).idle labels := by
  apply (turns env).steps_iff_admits (I := fun _ => True) (fun _ _ _ _ _ => trivial) ?_
    labels _ s trivial hrun
  intro s a t _ hstep
  exact step_keeps_iff hstep

/-- A source that queues an array, becomes ready, and whose socket then starts to close. -/
def closingSource : List Turn :=
  [.call (.send [1]), .call (.connect true), .open 0, .message 0 [0, 2, 8, 5], .frame, .closing 0]

/-- While the socket is open, the queue is sent. -/
theorem steps_keep_iff_closingSource :
    let env : Env := ⟨ProtobufMessages.codec, .passive⟩
    let start := (Receiver.fresh ⟨"eu-west-1", "token", .source, none, none⟩).idle
    (∃ s, (turns env).run start closingSource = some s ∧ sentPayloads s.world.trace = [[1]] ∧
      s.world.messageQueue = []) ∧ (turns env).Steps Keeps start closingSource := by
  intro env start
  refine ⟨⟨_, rfl, rfl, rfl⟩, (steps_keep_iff env _ closingSource _ rfl).mpr ?_⟩
  refine (Machine.admits_cons _ rfl).mpr ⟨Or.inr (Or.inr (Or.inl rfl)), ?_⟩
  refine (Machine.admits_cons _ rfl).mpr ⟨trivial, ?_⟩
  refine (Machine.admits_cons _ rfl).mpr ⟨trivial, ?_⟩
  refine (Machine.admits_cons _ rfl).mpr ⟨trivial, ?_⟩
  refine (Machine.admits_cons _ rfl).mpr ⟨?_, ?_⟩
  · exact fun _ _ _ _ _ _ _ => Or.inl (Option.some_ne_none 0)
  · exact (Machine.admits_cons _ rfl).mpr ⟨trivial, trivial⟩

theorem run_dropped :
    ((turns ⟨ProtobufMessages.codec, .passive⟩).run
        (Receiver.fresh ⟨"eu-west-1", "token", .source, none, none⟩).idle
        (closingSource ++ [.call (.send [2])])).map
      (fun s => (sentPayloads s.world.trace, s.world.messageQueue)) = some ([[1]], []) := by
  decide +kernel

/-- An array behind it is dropped: `send` resolves, and the array is neither queued nor
written. -/
theorem steps_keep_dropped :
    let env : Env := ⟨ProtobufMessages.codec, .passive⟩
    let start := (Receiver.fresh ⟨"eu-west-1", "token", .source, none, none⟩).idle
    (∃ s, (turns env).run start (closingSource ++ [.call (.send [2])]) = some s ∧
      sentPayloads s.world.trace = [[1]] ∧ s.world.messageQueue = []) ∧
    ¬ (turns env).Steps Keeps start (closingSource ++ [.call (.send [2])]) := by
  intro env start
  obtain ⟨s, hrun, hs⟩ := Option.map_eq_some_iff.mp run_dropped
  obtain ⟨hsent, hqueue⟩ := Prod.mk.inj hs
  refine ⟨⟨s, hrun, hsent, hqueue⟩, ?_⟩
  intro hsteps
  have hlast := (((((((hsteps _ rfl).2 _ rfl).2 _ rfl).2 _ rfl).2 _ rfl).2 _ rfl).2 _ rfl).1
  have hdelivers : Delivers env _ (.call (.send [2])) := (step_keeps_iff rfl).mp hlast
  rcases hdelivers with h | h | h | h | h
  · cases h
  · exact h rfl
  · cases h
  · cases h
  · cases h

end SshClientWasm.Tunnel
