import SshClientWasm.Tunnel.Session

/-!
# Turns of the event loop

The session once more, in smaller steps: the frames that a chunk completes are handled
one at a time, and what a callback calls is a call like any other, made between two of
these steps. Every run of the session is a run of this machine.
-/
namespace SshClientWasm.Tunnel

open Library

/-- The callbacks, each of which calls nothing. -/
def Env.quiet (env : Env) : Env where
  codecs := env.codecs
  handlers :=
    { onData := env.handlers.onData.map fun _ _ => []
      onError := env.handlers.onError.map fun _ _ => []
      onClose := env.handlers.onClose.map fun _ _ => [] }

/-- The transport with the frames that are cut and not yet handled, each with the socket
whose handler they are in. Of `receiveBuffer` they are no longer part. -/
structure Handling where
  world : World
  receiveBuffer : Bytes
  pending : List (ℕ × Bytes)

/-- Between two events. -/
def Receiver.idle (r : Receiver) : Handling := ⟨r.world, r.receiveBuffer, []⟩

/-- A call, the next pending frame, or an event of socket `i`. -/
inductive Turn
  | call (c : ApiCall)
  | frame
  | open (i : ℕ)
  | message (i : ℕ) (data : Bytes)
  | error (i : ℕ)
  | closing (i : ℕ)
  | close (i : ℕ)
  deriving DecidableEq, Repr

/-- A handler runs to its end before the next event. -/
def turns (env : Env) : Machine Handling Turn where
  step s
    | .call c => some { s with world := s.world.apiCall env c }
    | .frame =>
      match s.pending with
      | [] => none
      | (_, body) :: rest =>
        some { s with world := s.world.dispatch env.quiet body, pending := rest }
    | .open i =>
      if s.pending = [] ∧ s.world.sockets[i]? = some .connecting then
        some { s with world := (s.world.setSocket i .open).onopen env }
      else none
    | .message i data =>
      if s.pending = [] ∧ s.world.sockets[i]? = some .open then
        some { s with
          receiveBuffer := (frameCutter.cut (s.receiveBuffer ++ data)).2
          pending := (frameCutter.cut (s.receiveBuffer ++ data)).1.map (i, ·) }
      else none
    | .error i =>
      if s.pending = [] ∧ s.world.Unclosed i then
        some { s with world := s.world.onerror env.quiet }
      else none
    | .closing i =>
      if s.pending = [] ∧ s.world.Unclosed i then
        some { s with world := s.world.setSocket i .closing }
      else none
    | .close i =>
      if s.pending = [] ∧ s.world.Unclosed i then
        some { s with world := (s.world.setSocket i .closed).onclose env.quiet }
      else none

/-- What is recorded of a callback: nothing unless it is installed. -/
def called (callback : Option (List Event → List ApiCall)) (e : Event) : List Event :=
  if callback.isSome then [e] else []

/-- The callback that a message is handed to. -/
def forwarded (env : Env) (m : TunnelMessage) : List Event :=
  if m.type = TunnelMessageType.data then called env.handlers.onData (.onData m.payload)
  else if m.type = TunnelMessageType.streamReset then called env.handlers.onClose .onClose
  else []

namespace World

variable {env : Env} {w : World} {body : Bytes}

theorem invoke_quiet (callback : Option (List Event → List ApiCall)) (e : Event) :
    w.invoke env.quiet (callback.map fun _ _ => []) e = w.logAll (called callback e) := by
  cases callback with
  | none => exact w.logAll_nil.symm
  | some react => rfl

theorem onerror_quiet :
    w.onerror env.quiet = w.logAll (called env.handlers.onError
      (.onError "WebSocket error connecting to AWS IoT Secure Tunnel")) :=
  invoke_quiet _ _

theorem onclose_quiet :
    w.onclose env.quiet = { w with isConnected := false, tunnelReady := false }.logAll
      (called env.handlers.onClose .onClose) :=
  invoke_quiet _ _

theorem invoke_calls (env : Env) (callback : Option (List Event → List ApiCall)) (e : Event) :
    ∃ calls : List ApiCall, w.invoke env callback e =
      calls.foldl (apiCall env) (w.invoke env.quiet (callback.map fun _ _ => []) e) := by
  cases callback with
  | none => exact ⟨[], rfl⟩
  | some react => exact ⟨react (w.trace ++ [e]), rfl⟩

theorem processQueuedMessages_quiet :
    w.processQueuedMessages env.quiet = w.processQueuedMessages env := by
  rw [processQueuedMessages_eq, processQueuedMessages_eq]
  rfl

/-- At most one callback is invoked for a message, and nothing is done behind it. -/
theorem handleMessage_calls (m : TunnelMessage) :
    ∃ calls : List ApiCall,
      w.handleMessage env m = calls.foldl (apiCall env) (w.handleMessage env.quiet m) := by
  unfold handleMessage
  dsimp only
  split_ifs
  · exact invoke_calls env _ _
  · exact ⟨[], processQueuedMessages_quiet.symm⟩
  · exact ⟨[], rfl⟩
  · exact invoke_calls env _ _
  · exact ⟨[], rfl⟩
  · exact ⟨[], processQueuedMessages_quiet.symm⟩
  · exact ⟨[], rfl⟩
  · exact ⟨[], rfl⟩

theorem dispatch_calls (env : Env) (body : Bytes) :
    ∃ calls : List ApiCall,
      w.dispatch env body = calls.foldl (apiCall env) (w.dispatch env.quiet body) := by
  unfold dispatch
  dsimp only
  have hcodecs : env.quiet.codecs = env.codecs := rfl
  rw [hcodecs]
  cases (env.codecs (w.log (.receivedFrame body)).config.version).decode body with
  | ok m => exact handleMessage_calls m
  | error e => exact invoke_calls env _ _

theorem handleMessage_reset {m : TunnelMessage} (htype : m.type = TunnelMessageType.sessionReset) :
    w.handleMessage env.quiet m = (w.log (.receivedMessage m)).disconnect env := by
  simp [handleMessage, htype, TunnelMessageType.sessionReset, TunnelMessageType.data,
    TunnelMessageType.streamStart, TunnelMessageType.streamReset]
  rfl

theorem handleMessage_passed {m : TunnelMessage} (hready : ¬ w.Readies m)
    (htype : m.type ≠ TunnelMessageType.sessionReset) :
    w.handleMessage env.quiet m = w.logAll (.receivedMessage m :: forwarded env m) := by
  have hcall : ∀ (callback : Option (List Event → List ApiCall)) (e : Event),
      (w.log (.receivedMessage m)).invoke env.quiet (callback.map fun _ _ => []) e =
        w.logAll (.receivedMessage m :: called callback e) := by
    intro callback e
    rw [invoke_quiet]
    exact w.logAll_logAll [.receivedMessage m] _
  have hlog : w.log (.receivedMessage m) = w.logAll [.receivedMessage m] := rfl
  unfold handleMessage forwarded
  dsimp only
  by_cases hdata : m.type = TunnelMessageType.data
  · rw [if_pos hdata, if_pos hdata]
    exact hcall _ _
  rw [if_neg hdata, if_neg hdata]
  by_cases hstart : m.type = TunnelMessageType.streamStart
  · have hreset : m.type ≠ TunnelMessageType.streamReset := by
      rw [hstart]
      decide
    rw [if_pos hstart, if_neg hreset, log_config,
      if_neg fun hmode => hready (Or.inl ⟨hstart, hmode⟩)]
    exact hlog
  rw [if_neg hstart]
  by_cases hreset : m.type = TunnelMessageType.streamReset
  · rw [if_pos hreset, if_pos hreset]
    exact hcall _ _
  rw [if_neg hreset, if_neg hreset, if_neg htype]
  by_cases hids : m.type = TunnelMessageType.serviceIds
  · rw [if_pos hids, log_config, if_neg fun hmode => hready (Or.inr ⟨hids, hmode⟩)]
    exact hlog
  · rw [if_neg hids]
    exact hlog

theorem not_readies_of_reset {m : TunnelMessage} (htype : m.type = TunnelMessageType.sessionReset) :
    ¬ w.Readies m := by
  rintro (⟨hm, _⟩ | ⟨hm, _⟩)
  · exact absurd (hm.symm.trans htype) (by decide)
  · exact absurd (hm.symm.trans htype) (by decide)

/-- The four things that become of a frame. -/
inductive Dispatched (env : Env) (w : World) (body : Bytes) : World → Prop
  | failed (e : String) (hdecode : (env.codecs w.config.version).decode body = .error e) :
      Dispatched env w body
        (w.logAll (.receivedFrame body :: called env.handlers.onError (.onError e)))
  | ready (m : TunnelMessage) (hdecode : (env.codecs w.config.version).decode body = .ok m)
      (hready : w.Readies m) :
      Dispatched env w body
        (((w.log (.receivedFrame body)).readied m).processQueuedMessages env)
  | reset (m : TunnelMessage) (hdecode : (env.codecs w.config.version).decode body = .ok m)
      (htype : m.type = TunnelMessageType.sessionReset) :
      Dispatched env w body
        (((w.log (.receivedFrame body)).log (.receivedMessage m)).disconnect env)
  | passed (m : TunnelMessage) (hdecode : (env.codecs w.config.version).decode body = .ok m)
      (hready : ¬ w.Readies m) (htype : m.type ≠ TunnelMessageType.sessionReset) :
      Dispatched env w body
        (w.logAll (.receivedFrame body :: .receivedMessage m :: forwarded env m))

theorem dispatch_quiet (env : Env) (w : World) (body : Bytes) :
    Dispatched env w body (w.dispatch env.quiet body) := by
  cases hdecode : (env.codecs w.config.version).decode body with
  | error e =>
    have heq : w.dispatch env.quiet body =
        w.logAll (.receivedFrame body :: called env.handlers.onError (.onError e)) := by
      have hdecode' : (env.quiet.codecs w.config.version).decode body = .error e := hdecode
      unfold dispatch
      dsimp only
      rw [log_config, hdecode']
      exact (invoke_quiet _ _).trans (w.logAll_logAll [.receivedFrame body] _)
    rw [heq]
    exact .failed e hdecode
  | ok m =>
    have heq : w.dispatch env.quiet body =
        (w.log (.receivedFrame body)).handleMessage env.quiet m := by
      have hdecode' : (env.quiet.codecs w.config.version).decode body = .ok m := hdecode
      unfold dispatch
      dsimp only
      rw [log_config, hdecode']
    rw [heq]
    by_cases hready : w.Readies m
    · have hready' : (w.log (.receivedFrame body)).Readies m := hready
      rw [handleMessage_ready hready', processQueuedMessages_quiet]
      exact .ready m hdecode hready
    by_cases hreset : m.type = TunnelMessageType.sessionReset
    · rw [handleMessage_reset hreset]
      exact .reset m hdecode hreset
    · have hready' : ¬ (w.log (.receivedFrame body)).Readies m := hready
      have hlog : (w.log (.receivedFrame body)).logAll (.receivedMessage m :: forwarded env m) =
          w.logAll (.receivedFrame body :: .receivedMessage m :: forwarded env m) :=
        w.logAll_logAll [.receivedFrame body] _
      rw [handleMessage_passed hready' hreset, hlog]
      exact .passed m hdecode hready hreset

end World

variable {env : Env} {s s' : Handling} {r r' : Receiver}

theorem turns_frame_cases (hstep : (turns env).step s .frame = some s') :
    ∃ i body rest, s.pending = (i, body) :: rest ∧ s'.pending = rest ∧
      s'.receiveBuffer = s.receiveBuffer ∧ s.world.Dispatched env body s'.world := by
  obtain ⟨w, buffer, pending⟩ := s
  cases pending with
  | nil => cases hstep
  | cons p rest =>
    cases hstep
    exact ⟨p.1, p.2, rest, rfl, rfl, rfl, w.dispatch_quiet env p.2⟩

/-- What a turn does: a call, what becomes of a frame, or an event of a socket. -/
inductive Taken (env : Env) (s : Handling) : Turn → Handling → Prop
  | call (c) : Taken env s (.call c) { s with world := s.world.apiCall env c }
  | frame {t : Handling} (hframe : (turns env).step s .frame = some t) : Taken env s .frame t
  | open (i) : Taken env s (.open i) { s with
      world := { s.world.setSocket i .open with isConnected := true }.logAll
        ((s.world.setSocket i .open).opening.flatMap
          ((s.world.setSocket i .open).controlWrites env)) }
  | message (i data) : Taken env s (.message i data) { s with
      receiveBuffer := (frameCutter.cut (s.receiveBuffer ++ data)).2
      pending := (frameCutter.cut (s.receiveBuffer ++ data)).1.map (i, ·) }
  | error (i) : Taken env s (.error i) { s with
      world := s.world.logAll (called env.handlers.onError
        (.onError "WebSocket error connecting to AWS IoT Secure Tunnel")) }
  | closing (i) : Taken env s (.closing i) { s with world := s.world.setSocket i .closing }
  | close (i) : Taken env s (.close i) { s with
      world := { s.world.setSocket i .closed with isConnected := false, tunnelReady := false }.logAll
        (called env.handlers.onClose .onClose) }

theorem turns_cases {a : Turn} (hstep : (turns env).step s a = some s') : Taken env s a s' := by
  cases a with
  | call c =>
    cases hstep
    exact .call c
  | frame => exact .frame hstep
  | «open» i =>
    obtain ⟨_, heq⟩ := Option.ite_none_right_eq_some.mp hstep
    cases heq
    rw [World.onopen_eq]
    exact .open i
  | message i data =>
    obtain ⟨_, heq⟩ := Option.ite_none_right_eq_some.mp hstep
    cases heq
    exact .message i data
  | error i =>
    obtain ⟨_, heq⟩ := Option.ite_none_right_eq_some.mp hstep
    cases heq
    rw [World.onerror_quiet]
    exact .error i
  | closing i =>
    obtain ⟨_, heq⟩ := Option.ite_none_right_eq_some.mp hstep
    cases heq
    exact .closing i
  | close i =>
    obtain ⟨_, heq⟩ := Option.ite_none_right_eq_some.mp hstep
    cases heq
    rw [World.onclose_quiet]
    exact .close i

theorem turns_calls (calls : List ApiCall) (s : Handling) :
    (turns env).run s (calls.map .call) =
      some { s with world := calls.foldl (World.apiCall env) s.world } := by
  induction calls generalizing s with
  | nil => rfl
  | cons c calls ih => exact ih _

theorem turns_frames (env : Env) (pending : List (ℕ × Bytes)) (w : World) (buffer : Bytes) :
    ∃ labels, (turns env).run ⟨w, buffer, pending⟩ labels =
      some ⟨(pending.map Prod.snd).foldl (World.dispatch env) w, buffer, []⟩ := by
  induction pending generalizing w with
  | nil => exact ⟨[], rfl⟩
  | cons p pending ih =>
    obtain ⟨i, body⟩ := p
    obtain ⟨calls, hcalls⟩ := w.dispatch_calls env body
    obtain ⟨labels, hlabels⟩ := ih (w.dispatch env body)
    refine ⟨.frame :: (calls.map .call ++ labels), ?_⟩
    rw [Machine.run_cons_eq_some]
    refine ⟨_, rfl, ?_⟩
    rw [Machine.run_append, turns_calls, Option.bind_some, ← hcalls]
    exact hlabels

theorem turns_invoke (env : Env) (callback : Option (List Event → List ApiCall)) (e : Event)
    (w : World) (buffer : Bytes) :
    ∃ labels, (turns env).run
      ⟨w.invoke env.quiet (callback.map fun _ _ => []) e, buffer, []⟩ labels =
        some ⟨w.invoke env callback e, buffer, []⟩ := by
  obtain ⟨calls, hcalls⟩ := w.invoke_calls env callback e
  refine ⟨calls.map .call, ?_⟩
  rw [turns_calls, hcalls]

theorem session_step_turns {a : Input} (h : (session env).step r a = some r') :
    ∃ labels, (turns env).run r.idle labels = some r'.idle := by
  cases a with
  | call c =>
    cases h
    exact ⟨[.call c], rfl⟩
  | «open» i =>
    obtain ⟨hi, hr⟩ := Option.ite_none_right_eq_some.mp h
    cases hr
    refine ⟨[.open i], ?_⟩
    rw [Machine.run_cons_eq_some]
    exact ⟨_, if_pos ⟨rfl, hi⟩, rfl⟩
  | message i data =>
    obtain ⟨hi, hr⟩ := Option.ite_none_right_eq_some.mp h
    cases hr
    cases data with
    | none => exact ⟨[], rfl⟩
    | some data =>
      obtain ⟨labels, hlabels⟩ := turns_frames env
        ((frameCutter.cut (r.receiveBuffer ++ data)).1.map (i, ·)) r.world
        (frameCutter.cut (r.receiveBuffer ++ data)).2
      refine ⟨.message i data :: labels, ?_⟩
      rw [Machine.run_cons_eq_some]
      refine ⟨_, if_pos ⟨rfl, hi⟩, ?_⟩
      have hbodies : ∀ bodies : List Bytes, (bodies.map (i, ·)).map Prod.snd = bodies := by
        intro bodies
        rw [List.map_map]
        exact List.map_id bodies
      rw [hbodies] at hlabels
      rw [Option.elim_some, Receiver.handleIncomingData_eq]
      exact hlabels
  | error i =>
    obtain ⟨hi, hr⟩ := Option.ite_none_right_eq_some.mp h
    cases hr
    obtain ⟨labels, hlabels⟩ := turns_invoke env env.handlers.onError
      (.onError "WebSocket error connecting to AWS IoT Secure Tunnel") r.world r.receiveBuffer
    refine ⟨.error i :: labels, ?_⟩
    rw [Machine.run_cons_eq_some]
    exact ⟨_, if_pos ⟨rfl, hi⟩, hlabels⟩
  | closing i =>
    obtain ⟨hi, hr⟩ := Option.ite_none_right_eq_some.mp h
    cases hr
    refine ⟨[.closing i], ?_⟩
    rw [Machine.run_cons_eq_some]
    exact ⟨_, if_pos ⟨rfl, hi⟩, rfl⟩
  | close i =>
    obtain ⟨hi, hr⟩ := Option.ite_none_right_eq_some.mp h
    cases hr
    obtain ⟨labels, hlabels⟩ := turns_invoke env env.handlers.onClose .onClose
      (r.world.closed i) r.receiveBuffer
    refine ⟨.close i :: labels, ?_⟩
    rw [Machine.run_cons_eq_some]
    exact ⟨_, if_pos ⟨rfl, hi⟩, hlabels⟩

/-- Every run of the session, with whatever its callbacks call, is a run of turns. -/
theorem session_run_turns : ∀ (inputs : List Input) (r r' : Receiver),
    (session env).run r inputs = some r' →
      ∃ labels, (turns env).run r.idle labels = some r'.idle := by
  intro inputs
  induction inputs with
  | nil =>
    intro r r' h
    cases h
    exact ⟨[], rfl⟩
  | cons a inputs ih =>
    intro r r' h
    obtain ⟨t, hstep, hrest⟩ := ((session env).run_cons_eq_some).mp h
    obtain ⟨front, hfront⟩ := session_step_turns hstep
    obtain ⟨back, hback⟩ := ih t r' hrest
    refine ⟨front ++ back, ?_⟩
    rw [Machine.run_append, hfront]
    exact hback

end SshClientWasm.Tunnel
