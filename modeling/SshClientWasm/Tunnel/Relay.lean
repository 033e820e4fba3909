import SshClientWasm.Tunnel.Exchange

/-!
# Two clients of one tunnel

The service between a source and a destination takes the frames that each client has
written, one after the other. It passes DATA frames on as they are, may keep control
frames, and may send control messages of its own. The socket of the other client hands
the bytes over in pieces of any size. Nothing else is assumed: the clients may be called,
and their sockets may fail, at any point in between. The generated classes are any that
understand each other.
-/
namespace SshClientWasm.Tunnel

open Library ProtobufMessages

/-- The other end of the tunnel. -/
def ClientMode.peer : ClientMode → ClientMode
  | .source => .destination
  | .destination => .source

@[simp] theorem ClientMode.peer_peer (e : ClientMode) : e.peer.peer = e := by
  cases e <;> rfl

theorem ClientMode.peer_ne (e : ClientMode) : e.peer ≠ e := by
  cases e <;> decide

theorem ClientMode.eq_or_peer (e d : ClientMode) : d = e ∨ d = e.peer := by
  cases e <;> cases d <;> decide

/-- The two clients and what the service has done: how many frames of each client it has
taken, the bodies it has sent to each, and the bytes of these still on the way. -/
structure Relay where
  ends : ClientMode → Receiver
  taken : ClientMode → ℕ
  posted : ClientMode → List Bytes
  inbound : ClientMode → Bytes

/-- A call or a socket event of a client; the service passes on or keeps the next frame
of a client, or sends a client a message of its own; a socket hands over some bytes. -/
inductive Move
  | act (e : ClientMode) (a : Input)
  | forward (e : ClientMode)
  | keep (e : ClientMode)
  | post (e : ClientMode) (body : Bytes)
  | deliver (e : ClientMode) (i n : ℕ)

namespace Relay

/-- The service sends a frame to a client: a prefix of two bytes and the body. -/
def send (s : Relay) (e : ClientMode) (f : Bytes) : Relay :=
  { s with
    posted := Function.update s.posted e (s.posted e ++ [f.drop 2])
    inbound := Function.update s.inbound e (s.inbound e ++ f) }

/-- The service has taken one more frame of a client. -/
def take (s : Relay) (e : ClientMode) : Relay :=
  { s with taken := Function.update s.taken e (s.taken e + 1) }

/-- A client in its next state. -/
def move (s : Relay) (e : ClientMode) (r : Receiver) : Relay :=
  { s with ends := Function.update s.ends e r }

@[simp] theorem send_ends (s : Relay) (e : ClientMode) (f : Bytes) : (s.send e f).ends = s.ends := rfl

@[simp] theorem take_ends (s : Relay) (e : ClientMode) : (s.take e).ends = s.ends := rfl

variable (codecs : ProtocolVersion → Codec) (handlers : ClientMode → Handlers)

def env (e : ClientMode) : Env := ⟨codecs, handlers e⟩

def step (s : Relay) : Move → Option Relay
  | .act e a =>
    if a.Silent then ((session (env codecs handlers e)).step (s.ends e) a).map (s.move e) else none
  | .forward e =>
    (writtenFrames (s.ends e).world.trace)[s.taken e]?.map fun f => (s.take e).send e.peer f
  | .keep e =>
    (writtenMessages (s.ends e).world.trace)[s.taken e]?.bind fun m =>
      if m.type = TunnelMessageType.data then none else some (s.take e)
  | .post e body =>
    if body.length < 65536 ∧ dataOf (codecs (s.ends e).world.config.version) body = none then
      some (s.send e (frame body))
    else none
  | .deliver e i n =>
    ((session (env codecs handlers e)).step (s.ends e) (.message i (some ((s.inbound e).take n)))).map
      fun r => { s.move e r with
        inbound := Function.update s.inbound e ((s.inbound e).drop n) }

def machine : Machine Relay Move := ⟨step codecs handlers⟩

def start (config : ClientMode → SecureTunnelConfig) : Relay where
  ends := fun e => .fresh (config e)
  taken := fun _ => 0
  posted := fun _ => []
  inbound := fun _ => []

/-- What holds of each end in every state. -/
structure Sound (config : ClientMode → SecureTunnelConfig) (s : Relay) (e : ClientMode) : Prop where
  runs : ∃ inputs, (session (env codecs handlers e)).run (.fresh (config e)) inputs = some (s.ends e)
  arrives : ∃ rest, s.posted e = receivedFrames (s.ends e).world.trace ++ rest ∧
    (s.ends e).receiveBuffer ++ s.inbound e = rest.flatMap frame ∧ ∀ body ∈ rest, body.length < 65536
  taken_le : s.taken e ≤ (writtenMessages (s.ends e).world.trace).length
  passes : ((s.posted e.peer).filterMap (dataOf (codecs (config e.peer).version))).flatten =
    (dataPayloads ((writtenMessages (s.ends e).world.trace).take (s.taken e))).flatten

variable {codecs} {handlers} {config : ClientMode → SecureTunnelConfig} {s t : Relay} {e : ClientMode}

theorem sound_start (config : ClientMode → SecureTunnelConfig) (e : ClientMode) :
    (start config).Sound codecs handlers config e where
  runs := ⟨[], rfl⟩
  arrives := ⟨[], rfl, rfl, by simp⟩
  taken_le := Nat.zero_le _
  passes := rfl

theorem trace_grows {env : Env} {r r' : Receiver} {a : Input}
    (h : (session env).step r a = some r') : r.world.trace <+: r'.world.trace :=
  (session_step_effects env h).invariant (I := fun w => r.world.trace <+: w.trace)
    (fun _ _ heffect hw => hw.trans heffect.trace_grows) List.prefix_rfl

theorem step_trace_grows {m : Move} (h : step codecs handlers s m = some t) (e : ClientMode) :
    (s.ends e).world.trace <+: (t.ends e).world.trace := by
  have hmove : ∀ {d : ClientMode} {a : Input} {r : Receiver},
      (session (env codecs handlers d)).step (s.ends d) a = some r →
        (s.ends e).world.trace <+: (Function.update s.ends d r e).world.trace := by
    intro d a r hr
    by_cases he : e = d
    · subst he
      rw [Function.update_self]
      exact trace_grows hr
    · rw [Function.update_of_ne he]
  cases m with
  | act d a =>
    obtain ⟨-, h⟩ := Option.ite_none_right_eq_some.mp h
    obtain ⟨r, hr, rfl⟩ := Option.map_eq_some_iff.mp h
    exact hmove hr
  | forward d =>
    obtain ⟨f, -, rfl⟩ := Option.map_eq_some_iff.mp h
    exact List.prefix_rfl
  | keep d =>
    obtain ⟨m, -, h⟩ := Option.bind_eq_some_iff.mp h
    obtain ⟨-, h⟩ := Option.ite_none_left_eq_some.mp h
    cases h
    exact List.prefix_rfl
  | post d body =>
    obtain ⟨-, h⟩ := Option.ite_none_right_eq_some.mp h
    cases h
    exact List.prefix_rfl
  | deliver d i n =>
    obtain ⟨r, hr, rfl⟩ := Option.map_eq_some_iff.mp h
    exact hmove hr

theorem take_of_prefix {front back : List Event} {n : ℕ} (h : front <+: back)
    (hn : n ≤ (writtenMessages front).length) :
    n ≤ (writtenMessages back).length ∧
      (writtenMessages back).take n = (writtenMessages front).take n := by
  obtain ⟨events, rfl⟩ := h
  rw [writtenMessages_append, List.length_append, List.take_append_of_le_length hn]
  exact ⟨by omega, rfl⟩

theorem Sound.config_eq (h : s.Sound codecs handlers config e) :
    (s.ends e).world.config = config e := by
  obtain ⟨inputs, hrun⟩ := h.runs
  exact (session_onData hrun).1

theorem Sound.move (h : s.Sound codecs handlers config e) {a : Input} {r : Receiver}
    (hstep : (session (env codecs handlers e)).step (s.ends e) a = some r)
    (hends : t.ends e = r) (htaken : t.taken e = s.taken e)
    (hposted : ∀ e, t.posted e = s.posted e)
    (harrives : ∃ rest, s.posted e = receivedFrames r.world.trace ++ rest ∧
      r.receiveBuffer ++ t.inbound e = rest.flatMap frame ∧ ∀ body ∈ rest, body.length < 65536) :
    t.Sound codecs handlers config e := by
  obtain ⟨inputs, hrun⟩ := h.runs
  obtain ⟨hle, htake⟩ := take_of_prefix (trace_grows hstep) h.taken_le
  constructor
  case runs =>
    refine ⟨inputs ++ [a], ?_⟩
    rw [Machine.run_append, hrun, Option.bind_some, Machine.run_cons, hstep, hends]
    rfl
  case arrives =>
    rw [hends, hposted]
    exact harrives
  case taken_le =>
    rw [hends, htaken]
    exact hle
  case passes =>
    rw [hends, htaken, hposted, htake]
    exact h.passes

theorem Sound.other (h : s.Sound codecs handlers config e) (hends : t.ends e = s.ends e)
    (htaken : t.taken e = s.taken e) (hposted : t.posted e = s.posted e)
    (hpeer : ((t.posted e.peer).filterMap (dataOf (codecs (config e.peer).version))).flatten =
      ((s.posted e.peer).filterMap (dataOf (codecs (config e.peer).version))).flatten)
    (hinbound : t.inbound e = s.inbound e) : t.Sound codecs handlers config e := by
  constructor
  case runs =>
    rw [hends]
    exact h.runs
  case arrives =>
    rw [hends, hposted, hinbound]
    exact h.arrives
  case taken_le =>
    rw [hends, htaken]
    exact h.taken_le
  case passes =>
    rw [hends, htaken, hpeer]
    exact h.passes

theorem Sound.arrives_send (h : s.Sound codecs handlers config e) {body : Bytes}
    (hbody : body.length < 65536) :
    ∃ rest, s.posted e ++ [body] = receivedFrames (s.ends e).world.trace ++ rest ∧
      (s.ends e).receiveBuffer ++ (s.inbound e ++ frame body) = rest.flatMap frame ∧
      ∀ b ∈ rest, b.length < 65536 := by
  obtain ⟨rest, hposted, hbytes, hshort⟩ := h.arrives
  refine ⟨rest ++ [body], ?_, ?_, ?_⟩
  · rw [hposted, List.append_assoc]
  · rw [← List.append_assoc, hbytes, List.flatMap_append, List.flatMap_singleton]
  · intro b hb
    rcases List.mem_append.mp hb with hb | hb
    · exact hshort b hb
    · rw [List.mem_singleton.mp hb]
      exact hbody

/-- However many bytes the socket hands over, the frames that are complete are cut off and
the rest is waited for. -/
theorem Sound.arrives_deliver (h : s.Sound codecs handlers config e) (n : ℕ) {env : Env} :
    ∃ rest, s.posted e =
        receivedFrames ((s.ends e).handleIncomingData env ((s.inbound e).take n)).world.trace ++ rest ∧
      ((s.ends e).handleIncomingData env ((s.inbound e).take n)).receiveBuffer ++
        (s.inbound e).drop n = rest.flatMap frame ∧
      ∀ b ∈ rest, b.length < 65536 := by
  obtain ⟨rest, hposted, hbytes, hshort⟩ := h.arrives
  have hcut : frameCutter.cut (rest.flatMap frame) = (rest, []) := by
    have hput := frameCutter.cut_flatMap frame [] rest fun b hb => frameCutter_frame (hshort b hb)
    rw [frameCutter.cut_of_none (s := []) rfl, List.append_nil, List.append_nil] at hput
    exact hput
  have hsplit : (s.ends e).receiveBuffer ++ (s.inbound e).take n ++ (s.inbound e).drop n =
      rest.flatMap frame := by
    rw [List.append_assoc, List.take_append_drop, hbytes]
  have happend := frameCutter.cut_append ((s.ends e).receiveBuffer ++ (s.inbound e).take n)
    ((s.inbound e).drop n)
  rw [hsplit, hcut] at happend
  obtain ⟨hunits, hrest⟩ := Prod.mk.inj happend
  have hback := eq_of_cutsTo (frameCutter.cutsTo_cut
    ((frameCutter.cut ((s.ends e).receiveBuffer ++ (s.inbound e).take n)).2 ++ (s.inbound e).drop n))
  rw [← hrest, List.append_nil] at hback
  rw [Receiver.handleIncomingData_eq]
  refine ⟨_, ?_, hback, fun b hb => hshort b ?_⟩
  · rw [(World.foldl_dispatch_received env _ _).1, List.append_assoc, ← hunits]
    exact hposted
  · rw [hunits]
    exact List.mem_append_right _ hb

theorem dataOf_encode (hcodecs : Interoperate codecs) (v v' : ProtocolVersion) (m : MessageFields)
    (hlen : ((codecs v').encode m).length ≤ 65535) :
    (dataOf (codecs v) ((codecs v').encode m)).toList.flatten = (dataPayloads [m]).flatten := by
  have hdecode := hcodecs.decode_encode v v' m hlen
  rw [dataOf, hdecode, dataPayloads, List.filterMap_cons]
  by_cases hdata : m.type = TunnelMessageType.data
  · simp only [hdata, MessageFields.read, if_true]
    cases m.payload <;> rfl
  · simp only [hdata, MessageFields.read, if_false]
    rfl

theorem Sound.next (hcodecs : Interoperate codecs) (h : s.Sound codecs handlers config e)
    (hroomy : (config e).Roomy) {f : Bytes}
    (hf : (writtenFrames (s.ends e).world.trace)[s.taken e]? = some f) :
    ∃ m, (writtenMessages (s.ends e).world.trace)[s.taken e]? = some m ∧
      f = frame ((codecs (config e).version).encode m) ∧
      ((codecs (config e).version).encode m).length < 65536 := by
  obtain ⟨inputs, hrun⟩ := h.runs
  have hframes := session_framing hrun
  rw [hframes, List.getElem?_map, Option.map_eq_some_iff] at hf
  obtain ⟨m, hm, rfl⟩ := hf
  refine ⟨m, hm, rfl, ?_⟩
  have hframed := World.Framed.session_counts hcodecs.encode_length (config e) hroomy
    (handlers e) inputs (s.ends e) hrun
  have hwritten :
      frame ((codecs (config e).version).encode m) ∈ writtenFrames (s.ends e).world.trace := by
    rw [hframes]
    exact List.mem_map_of_mem (List.mem_of_getElem? hm)
  obtain ⟨event, hevent, hwrote⟩ := List.mem_filterMap.mp hwritten
  cases event with
  | wrote i m' f =>
    cases hwrote
    exact Nat.lt_succ_of_le (prefixCounts_frame.mp (hframed.counts i m' _ hevent))
  | _ => cases hwrote

theorem Sound.act (h : ∀ d, s.Sound codecs handlers config d) {a : Input} {r : Receiver}
    (ha : a.Silent) (hstep : (session (env codecs handlers e)).step (s.ends e) a = some r) :
    ∀ d, (s.move e r).Sound codecs handlers config d := by
  intro d
  by_cases hd : d = e
  · subst hd
    obtain ⟨hbuffer, hextends⟩ := session_step_silent ha hstep
    refine (h d).move hstep (Function.update_self ..) rfl (fun _ => rfl) ?_
    rw [hbuffer, (received_of_extends hextends).1]
    exact (h d).arrives
  · exact (h d).other (Function.update_of_ne hd ..) rfl rfl rfl rfl

theorem Sound.deliver (h : ∀ d, s.Sound codecs handlers config d) {i n : ℕ} {r : Receiver}
    (hstep : (session (env codecs handlers e)).step (s.ends e)
      (.message i (some ((s.inbound e).take n))) = some r) :
    ∀ d, Sound codecs handlers config { s.move e r with
      inbound := Function.update s.inbound e ((s.inbound e).drop n) } d := by
  intro d
  by_cases hd : d = e
  · subst hd
    refine (h d).move hstep (Function.update_self ..) rfl (fun _ => rfl) ?_
    obtain ⟨-, hr⟩ := Option.ite_none_right_eq_some.mp hstep
    cases hr
    simp only [Function.update_self, Option.elim_some]
    exact (h d).arrives_deliver n
  · exact (h d).other (Function.update_of_ne hd ..) rfl rfl rfl (Function.update_of_ne hd ..)

theorem Sound.keep (h : ∀ d, s.Sound codecs handlers config d) {m : MessageFields}
    (hm : (writtenMessages (s.ends e).world.trace)[s.taken e]? = some m)
    (hdata : m.type ≠ TunnelMessageType.data) : ∀ d, (s.take e).Sound codecs handlers config d := by
  intro d
  by_cases hd : d = e
  · subst hd
    have htaken : (s.take d).taken d = s.taken d + 1 := Function.update_self ..
    constructor
    case runs => exact (h d).runs
    case arrives => exact (h d).arrives
    case taken_le =>
      rw [htaken]
      exact (List.getElem?_eq_some_iff.mp hm).1
    case passes =>
      have hnone : dataPayloads (some m).toList = [] := List.filterMap_cons_none (if_neg hdata)
      rw [htaken, take_ends, List.take_add_one, hm, dataPayloads_append, hnone, List.append_nil]
      exact (h d).passes
  · exact (h d).other rfl (Function.update_of_ne hd ..) rfl rfl rfl

theorem Sound.post (h : ∀ d, s.Sound codecs handlers config d) {body : Bytes}
    (hbody : body.length < 65536)
    (hdata : dataOf (codecs (config e).version) body = none) :
    ∀ d, (s.send e (frame body)).Sound codecs handlers config d := by
  have hposted : (s.send e (frame body)).posted e = s.posted e ++ [body] := Function.update_self ..
  intro d
  rcases e.eq_or_peer d with rfl | rfl
  · constructor
    case runs => exact (h d).runs
    case arrives =>
      rw [hposted, show (s.send d (frame body)).inbound d = s.inbound d ++ frame body from
        Function.update_self ..]
      exact (h d).arrives_send hbody
    case taken_le => exact (h d).taken_le
    case passes =>
      rw [show (s.send d (frame body)).posted d.peer = s.posted d.peer from
        Function.update_of_ne d.peer_ne ..]
      exact (h d).passes
  · refine (h e.peer).other rfl rfl (Function.update_of_ne e.peer_ne ..) ?_
      (Function.update_of_ne e.peer_ne ..)
    rw [e.peer_peer, hposted, List.filterMap_append, List.filterMap_cons_none hdata,
      List.filterMap_nil, List.append_nil]

theorem Sound.forward (hcodecs : Interoperate codecs)
    (h : ∀ d, s.Sound codecs handlers config d) (hroomy : (config e).Roomy) {f : Bytes}
    (hf : (writtenFrames (s.ends e).world.trace)[s.taken e]? = some f) :
    ∀ d, ((s.take e).send e.peer f).Sound codecs handlers config d := by
  obtain ⟨m, hm, rfl, hshort⟩ := (h e).next hcodecs hroomy hf
  set body := (codecs (config e).version).encode m with hbody
  have hposted : ((s.take e).send e.peer (frame body)).posted e.peer =
      s.posted e.peer ++ [body] := Function.update_self ..
  have htaken : ((s.take e).send e.peer (frame body)).taken e = s.taken e + 1 :=
    Function.update_self ..
  intro d
  rcases e.eq_or_peer d with rfl | rfl
  · constructor
    case runs => exact (h d).runs
    case arrives =>
      rw [show ((s.take d).send d.peer (frame body)).posted d = s.posted d from
          Function.update_of_ne d.peer_ne.symm ..,
        show ((s.take d).send d.peer (frame body)).inbound d = s.inbound d from
          Function.update_of_ne d.peer_ne.symm ..]
      exact (h d).arrives
    case taken_le =>
      rw [htaken]
      exact (List.getElem?_eq_some_iff.mp hm).1
    case passes =>
      have hlast : ([body].filterMap (dataOf (codecs (config d.peer).version))).flatten =
          (dataPayloads [m]).flatten := by
        rw [← dataOf_encode hcodecs (config d.peer).version (config d).version m
          (Nat.le_of_lt_succ hshort), List.filterMap_cons]
        cases dataOf (codecs (config d.peer).version) body <;> rfl
      rw [hposted, htaken, send_ends, take_ends, List.filterMap_append, List.flatten_append, hlast,
        (h d).passes, List.take_add_one, hm, dataPayloads_append, List.flatten_append]
      rfl
  · constructor
    case runs => exact (h e.peer).runs
    case arrives =>
      rw [hposted, show ((s.take e).send e.peer (frame body)).inbound e.peer =
        s.inbound e.peer ++ frame body from Function.update_self ..]
      exact (h e.peer).arrives_send hshort
    case taken_le =>
      rw [show ((s.take e).send e.peer (frame body)).taken e.peer = s.taken e.peer from
        Function.update_of_ne e.peer_ne ..]
      exact (h e.peer).taken_le
    case passes =>
      rw [show ((s.take e).send e.peer (frame body)).taken e.peer = s.taken e.peer from
          Function.update_of_ne e.peer_ne ..,
        show ((s.take e).send e.peer (frame body)).posted e.peer.peer = s.posted e.peer.peer from
          Function.update_of_ne (e.peer.peer_ne) ..]
      exact (h e.peer).passes

/-- Every move keeps the two ends sound. -/
theorem Sound.step (hcodecs : Interoperate codecs) (hroomy : ∀ d, (config d).Roomy)
    (h : ∀ d, s.Sound codecs handlers config d) {m : Move}
    (hstep : step codecs handlers s m = some t) : ∀ d, t.Sound codecs handlers config d := by
  cases m with
  | act e a =>
    obtain ⟨ha, hmove⟩ := Option.ite_none_right_eq_some.mp hstep
    obtain ⟨r, hr, rfl⟩ := Option.map_eq_some_iff.mp hmove
    exact Sound.act h ha hr
  | forward e =>
    obtain ⟨f, hf, rfl⟩ := Option.map_eq_some_iff.mp hstep
    exact Sound.forward hcodecs h (hroomy e) hf
  | keep e =>
    obtain ⟨m, hm, hkeep⟩ := Option.bind_eq_some_iff.mp hstep
    split_ifs at hkeep with hdata
    cases hkeep
    exact Sound.keep h hm hdata
  | post e body =>
    obtain ⟨⟨hshort, hdata⟩, hpost⟩ := Option.ite_none_right_eq_some.mp hstep
    cases hpost
    rw [(h e).config_eq] at hdata
    exact Sound.post h hshort hdata
  | deliver e i n =>
    obtain ⟨r, hr, rfl⟩ := Option.map_eq_some_iff.mp hstep
    exact Sound.deliver h hr

theorem sound_run (hcodecs : Interoperate codecs) (hroomy : ∀ d, (config d).Roomy)
    {moves : List Move}
    (hrun : (machine codecs handlers).run (start config) moves = some s) :
    ∀ d, s.Sound codecs handlers config d :=
  (machine codecs handlers).run_invariant (I := fun s => ∀ d, s.Sound codecs handlers config d)
    (fun _ _ _ h hstep => Sound.step hcodecs hroomy h hstep) moves (start config) s
    (sound_start config) hrun

theorem Sound.onData_isPrefix (h : ∀ d, s.Sound codecs handlers config d) (e : ClientMode) :
    (onDataPayloads (s.ends e.peer).world.trace).flatten <+:
      (dataPayloads ((writtenMessages (s.ends e).world.trace).take (s.taken e))).flatten := by
  obtain ⟨inputs, hrun⟩ := (h e.peer).runs
  obtain ⟨rest, hposted, -, -⟩ := (h e.peer).arrives
  rw [(session_onData hrun).2, ← (h e).passes, hposted, List.filterMap_append, List.flatten_append]
  split_ifs
  · exact List.prefix_append _ _
  · exact List.nil_prefix

/-- With nothing on the way, it is all of what the service has passed on. -/
theorem Sound.onData_rest (h : ∀ d, s.Sound codecs handlers config d)
    (hdata : (handlers e.peer).onData.isSome)
    (hbytes : (s.ends e.peer).receiveBuffer ++ s.inbound e.peer = []) :
    (onDataPayloads (s.ends e.peer).world.trace).flatten =
      (dataPayloads ((writtenMessages (s.ends e).world.trace).take (s.taken e))).flatten := by
  obtain ⟨inputs, hrun⟩ := (h e.peer).runs
  obtain ⟨rest, hposted, hrest, -⟩ := (h e.peer).arrives
  have hnil : rest = [] := by
    rw [hbytes] at hrest
    cases rest with
    | nil => rfl
    | cons body rest =>
      have hlength := congrArg List.length hrest
      simp [frame, setUint16] at hlength
  rw [(session_onData hrun).2, ← (h e).passes, hposted, hnil, List.append_nil]
  exact congrArg List.flatten (if_pos hdata)

theorem Sound.taken_isPrefix (h : s.Sound codecs handlers config e)
    (hsingle : connectCalls (s.ends e).world.trace ≤ 1) :
    (dataPayloads ((writtenMessages (s.ends e).world.trace).take (s.taken e))).flatten <+:
      (sendCalls (s.ends e).world.trace).flatten := by
  obtain ⟨inputs, hinputs⟩ := h.runs
  obtain ⟨p, -, hp⟩ := session_refines_pipe hinputs hsingle
  have htaken : (dataPayloads ((writtenMessages (s.ends e).world.trace).take (s.taken e))).flatten <+:
      (sentPayloads (s.ends e).world.trace).flatten := by
    have hsplit := congrArg dataPayloads
      (List.take_append_drop (s.taken e) (writtenMessages (s.ends e).world.trace))
    rw [sentPayloads, ← hsplit, dataPayloads_append, List.flatten_append]
    exact List.prefix_append _ _
  refine htaken.trans ?_
  rw [← hp.delivered, ← hp.offered]
  exact p.delivered_prefix

theorem Sound.sent_all (h : s.Sound codecs handlers config e)
    (hsingle : connectCalls (s.ends e).world.trace ≤ 1)
    (hphase : (s.ends e).world.phase ≠ .ended) (hqueue : (s.ends e).world.messageQueue = []) :
    (sentPayloads (s.ends e).world.trace).flatten = (sendCalls (s.ends e).world.trace).flatten := by
  obtain ⟨inputs, hinputs⟩ := h.runs
  obtain ⟨p, -, hp⟩ := session_refines_pipe hinputs hsingle
  obtain ⟨hgapless, hpending⟩ := hp.live hphase
  rw [← hp.delivered, ← hp.offered, ← show p.delivered ++ p.pending = p.offered from hgapless,
    hpending, hqueue, List.flatten_nil, List.append_nil]

/-- Whatever the two clients do and however the service and the sockets cut and delay the
bytes, what `onData` gets at one end is a prefix of what was passed to `send` at the
other. -/
theorem onData_of_send (codecs : ProtocolVersion → Codec) (hcodecs : Interoperate codecs)
    (handlers : ClientMode → Handlers) (config : ClientMode → SecureTunnelConfig)
    (hroomy : ∀ e, (config e).Roomy) (moves : List Move) (s : Relay)
    (hrun : (machine codecs handlers).run (start config) moves = some s) (e : ClientMode)
    (hsingle : connectCalls (s.ends e).world.trace ≤ 1) :
    (onDataPayloads (s.ends e.peer).world.trace).flatten <+:
      (sendCalls (s.ends e).world.trace).flatten := by
  have hsound := sound_run hcodecs hroomy hrun
  exact (Sound.onData_isPrefix hsound e).trans ((hsound e).taken_isPrefix hsingle)

/-- A source of version 3 and a destination of version 1. -/
def mixed (e : ClientMode) : SecureTunnelConfig :=
  ⟨"eu-west-1", "token", e, none, some (if e = .source then .v3 else .v1)⟩

theorem mixed_roomy (e : ClientMode) : (mixed e).Roomy :=
  Or.inr (Or.inr (by simp [mixed]))

/-- Both connect, the source sends before it is ready, and frames arrive in pieces. -/
def opening : List Move :=
  [.act .source (.call (.connect true)), .act .destination (.call (.connect true)),
    .act .source (.call (.send [7, 8, 9])), .act .destination (.open 0), .act .source (.open 0),
    .forward .source, .deliver .destination 0 3, .post .source [8, 5], .deliver .source 0 9,
    .deliver .destination 0 2, .forward .source, .deliver .destination 0 100]

/-- The socket closes on the source while it still sends. -/
theorem onData_of_send_closed :
    ∃ s, (machine codec fun _ => .passive).run (start mixed)
        (opening ++ [.act .source (.closing 0), .act .source (.call (.send [1])),
          .act .source (.close 0)]) = some s ∧
      (sendCalls (s.ends .source).world.trace).flatten = [7, 8, 9, 1] ∧
      (onDataPayloads (s.ends .destination).world.trace).flatten <+:
        (sendCalls (s.ends .source).world.trace).flatten := by
  have hrun : ((machine codec fun _ => .passive).run (start mixed)
      (opening ++ [.act .source (.closing 0), .act .source (.call (.send [1])),
        .act .source (.close 0)])).map (fun s =>
          ((sendCalls (s.ends .source).world.trace).flatten,
            connectCalls (s.ends .source).world.trace)) = some ([7, 8, 9, 1], 1) := by
    decide +kernel
  obtain ⟨s, hs, hvalues⟩ := Option.map_eq_some_iff.mp hrun
  obtain ⟨hsent, hconnects⟩ := Prod.mk.inj hvalues
  exact ⟨s, hs, hsent, onData_of_send codec interoperate_codec _ mixed mixed_roomy _ s hs .source
    hconnects.le⟩

/-- Once the service has taken every frame and no byte is on the way, `onData` has got the
payload of every DATA frame, over all the connections of the sender; with a single
connection that is still up and nothing queued, every byte passed to `send`. -/
theorem onData_complete (codecs : ProtocolVersion → Codec) (hcodecs : Interoperate codecs)
    (handlers : ClientMode → Handlers) (config : ClientMode → SecureTunnelConfig)
    (hroomy : ∀ e, (config e).Roomy) (moves : List Move) (s : Relay)
    (hrun : (machine codecs handlers).run (start config) moves = some s) (e : ClientMode)
    (hdata : (handlers e.peer).onData.isSome)
    (htaken : s.taken e = (writtenMessages (s.ends e).world.trace).length)
    (hbytes : (s.ends e.peer).receiveBuffer ++ s.inbound e.peer = []) :
    (onDataPayloads (s.ends e.peer).world.trace).flatten =
        (sentPayloads (s.ends e).world.trace).flatten ∧
      (connectCalls (s.ends e).world.trace ≤ 1 → (s.ends e).world.phase ≠ .ended →
        (s.ends e).world.messageQueue = [] →
          (onDataPayloads (s.ends e.peer).world.trace).flatten =
            (sendCalls (s.ends e).world.trace).flatten) := by
  have hsound := sound_run hcodecs hroomy hrun
  have hsent : (onDataPayloads (s.ends e.peer).world.trace).flatten =
      (sentPayloads (s.ends e).world.trace).flatten := by
    rw [Sound.onData_rest hsound hdata hbytes, htaken, List.take_length]
    rfl
  exact ⟨hsent, fun hsingle hphase hqueue => hsent.trans ((hsound e).sent_all hsingle hphase hqueue)⟩

/-- All that the source has sent has arrived. -/
theorem onData_complete_opening :
    ∃ s, (machine codec fun _ => .passive).run (start mixed) opening = some s ∧
      (onDataPayloads (s.ends .destination).world.trace).flatten =
        (sentPayloads (s.ends .source).world.trace).flatten ∧
      (onDataPayloads (s.ends .destination).world.trace).flatten = [7, 8, 9] := by
  have hrun : ((machine codec fun _ => .passive).run (start mixed) opening).map (fun s =>
      ((s.taken .source, (writtenMessages (s.ends .source).world.trace).length),
        (s.ends .destination).receiveBuffer ++ s.inbound .destination,
        (sentPayloads (s.ends .source).world.trace).flatten)) =
      some ((2, 2), [], [7, 8, 9]) := by
    decide +kernel
  obtain ⟨s, hs, hvalues⟩ := Option.map_eq_some_iff.mp hrun
  obtain ⟨htaken, hrest⟩ := Prod.mk.inj hvalues
  obtain ⟨htaken, hwritten⟩ := Prod.mk.inj htaken
  obtain ⟨hbytes, hsent⟩ := Prod.mk.inj hrest
  have hall := (onData_complete codec interoperate_codec _ mixed mixed_roomy opening s hs .source rfl
    (htaken.trans hwritten.symm) hbytes).1
  exact ⟨s, hs, hall, hall.trans hsent⟩

end Relay
end SshClientWasm.Tunnel
