import SshClientWasm.Library.History
import SshClientWasm.Tunnel.Order

/-!
# The language spoken on the socket

What a client writes over a single connection is a sentence of its mode: an
opening, DATA frames, and at most one STREAM_RESET at the end. No DATA frame is
written before the peer has made the tunnel ready.
-/
namespace SshClientWasm.Tunnel

open Library

/-- The types of the messages whose frames were written, in order. -/
def writtenTypes (trace : List Event) : List Int32 := (writtenMessages trace).map (·.type)

@[simp] theorem writtenTypes_append (front back : List Event) :
    writtenTypes (front ++ back) = writtenTypes front ++ writtenTypes back := by
  simp [writtenTypes]

/-- How a client of a mode may open. -/
def Opening : ClientMode → List Int32 → Prop
  | .source, types => types = [TunnelMessageType.streamStart]
  | .destination, types => types = [] ∨ types = [TunnelMessageType.serviceIds]

/-- The sentences of a mode: nothing, or an opening, then any number of DATA,
then possibly one STREAM_RESET. -/
def Sentence (mode : ClientMode) (types : List Int32) : Prop :=
  types = [] ∨ ∃ opening n reset,
    types = opening ++ List.replicate n TunnelMessageType.data ++ reset ∧
      Opening mode opening ∧ (reset = [] ∨ reset = [TunnelMessageType.streamReset])

/-- The stream ids of the STREAM_START messages, in order. -/
def streamStarts (received : List TunnelMessage) : List Int32 :=
  (received.filter (·.type = TunnelMessageType.streamStart)).map (·.streamId)

/-- A DATA message that the received messages entitle a client to write. -/
def Entitled : ClientMode → List TunnelMessage → MessageFields → Prop
  | .source, received, m =>
    m.streamId = some 1 ∧ ∃ s ∈ received, s.type = TunnelMessageType.serviceIds
  | .destination, received, m =>
    ∃ id, m.streamId = some id ∧ (streamStarts received).getLast? = some id

/-- A written frame holds its message, and a DATA frame was in order when written. -/
def FrameInOrder (env : Env) (config : SecureTunnelConfig) (front : List Event) (e : Event) :
    Prop :=
  ∀ i m f, e = .wrote i m f → f = frame ((env.codecs config.version).encode m) ∧
    (m.type = TunnelMessageType.data →
      Entitled config.clientMode (receivedMessages front) m)

namespace World

variable {env : Env} {w w' : World}

/-- What the opening of the configured mode consists of. -/
def openingTypes (w : World) : List Int32 := w.opening.map (·.type)

theorem opening_types : Opening w.config.clientMode w.openingTypes := by
  unfold openingTypes opening
  cases w.config.clientMode with
  | destination =>
    cases w.config.truthyServiceId with
    | none => exact Or.inl rfl
    | some id => exact Or.inr rfl
  | source => rfl

theorem openingTypes_congr (h : w'.config = w.config) : w'.openingTypes = w.openingTypes := by
  unfold openingTypes opening
  rw [h]
  cases w.config.clientMode <;> rfl

theorem opening_types_ne_data {m : MessageFields} (hm : m ∈ w.opening) :
    m.type ≠ TunnelMessageType.data := by
  unfold opening at hm
  cases hmode : w.config.clientMode with
  | destination =>
    rw [hmode] at hm
    obtain ⟨id, _, rfl⟩ := List.mem_map.mp hm
    exact (by decide : TunnelMessageType.serviceIds ≠ TunnelMessageType.data)
  | source =>
    rw [hmode] at hm
    rw [List.mem_singleton.mp hm]
    exact (by decide : TunnelMessageType.streamStart ≠ TunnelMessageType.data)

theorem writtenTypes_writes (messages : List MessageFields) :
    writtenTypes (w.writes env messages) = messages.map (·.type) := by
  rw [writtenTypes, writtenMessages_writes]

theorem map_dataMessage_types (chunks : List Bytes) :
    (chunks.map w.dataMessage).map (·.type) =
      List.replicate chunks.length TunnelMessageType.data := by
  induction chunks with
  | nil => rfl
  | cons chunk chunks ih => exact congrArg (TunnelMessageType.data :: ·) ih

/-- The transport, as a speaker of the language of its mode. -/
structure Speaks (env : Env) (config : SecureTunnelConfig) (w : World) : Prop where
  config_eq : w.config = config
  silent : w.phase = .idle ∨ w.phase = .connecting → writtenTypes w.trace = []
  speaking : w.phase = .active → ∃ n,
    writtenTypes w.trace = w.openingTypes ++ List.replicate n TunnelMessageType.data
  spoken : w.phase = .ended → Sentence config.clientMode (writtenTypes w.trace)
  streamId : config.clientMode = .source → w.phase ≠ .ended → w.streamId = 1
  entitled : w.phase = .active → w.tunnelReady = true → ∀ chunk,
    Entitled config.clientMode (receivedMessages w.trace) (w.dataMessage chunk)
  inOrder : AtEach (FrameInOrder env config) w.trace

theorem fresh_speaks (config : SecureTunnelConfig) : (fresh config).Speaks env config where
  config_eq := rfl
  silent := fun _ => rfl
  speaking := by simp [fresh, phase]
  spoken := by simp [fresh, phase]
  streamId := fun _ _ => rfl
  entitled := by simp [fresh, phase]
  inOrder := atEach_nil

theorem Speaks.sentence {config : SecureTunnelConfig} (h : w.Speaks env config) :
    Sentence config.clientMode (writtenTypes w.trace) := by
  cases hphase : w.phase with
  | idle => exact Or.inl (h.silent (Or.inl hphase))
  | connecting => exact Or.inl (h.silent (Or.inr hphase))
  | active =>
    obtain ⟨n, hn⟩ := h.speaking hphase
    refine Or.inr ⟨w.openingTypes, n, [], ?_, ?_, Or.inl rfl⟩
    · rw [hn, List.append_nil]
    · exact h.config_eq ▸ opening_types
  | ended => exact h.spoken hphase

theorem inOrder_quiet {config : SecureTunnelConfig} {history events : List Event}
    (h : AtEach (FrameInOrder env config) history) (hquiet : writtenMessages events = []) :
    AtEach (FrameInOrder env config) (history ++ events) := by
  apply h.append
  rintro front e back rfl i m f rfl
  simp [writtenMessages] at hquiet

theorem inOrder_writes {config : SecureTunnelConfig} {history : List Event}
    {messages : List MessageFields} (h : AtEach (FrameInOrder env config) history)
    (hconfig : w.config = config)
    (hentitled : ∀ m ∈ messages, m.type = TunnelMessageType.data →
      Entitled config.clientMode (receivedMessages history) m) :
    AtEach (FrameInOrder env config) (history ++ w.writes env messages) := by
  apply h.append
  rintro front e back hsplit i m f rfl
  obtain ⟨before, after, rfl, hbefore, hafter⟩ := List.map_eq_append_iff.mp hsplit
  obtain ⟨m', rest, rfl, hm', _⟩ := List.map_eq_cons_iff.mp hafter
  obtain ⟨-, rfl, rfl⟩ := Event.wrote.inj hm'
  have hsame : receivedMessages (history ++ front) = receivedMessages history := by
    have hnone : receivedMessages (w.writes env before) = [] := receivedMessages_writes before
    rw [receivedMessages_append, ← hbefore]
    exact (congrArg _ hnone).trans (List.append_nil _)
  rw [hsame, hconfig]
  exact ⟨rfl, hentitled m' (by simp)⟩

theorem passive_writes {e : Event} (h : w.Passive e) : writtenMessages [e] = [] := by
  cases e <;> first | rfl | exact absurd h (by simp [Passive])

theorem entitled_note {mode : ClientMode} {received : List TunnelMessage} {m : MessageFields}
    {e : Event} (h : Entitled mode received m) (hmode : w.config.clientMode = mode)
    (hpassive : w.Passive e) : Entitled mode (received ++ receivedMessages [e]) m := by
  cases mode with
  | source =>
    obtain ⟨hid, s, hs, htype⟩ := h
    exact ⟨hid, s, List.mem_append_left _ hs, htype⟩
  | destination =>
    obtain ⟨id, hid, hlast⟩ := h
    refine ⟨id, hid, ?_⟩
    have hnone : streamStarts (receivedMessages [e]) = [] := by
      cases e <;> first | rfl | skip
      rename_i m'
      have hne : m'.type ≠ TunnelMessageType.streamStart := fun htype =>
        hpassive (Or.inl ⟨htype, hmode⟩)
      simp [receivedMessages, streamStarts, hne]
    have happ : streamStarts (received ++ receivedMessages [e]) =
        streamStarts received ++ streamStarts (receivedMessages [e]) := by
      simp [streamStarts]
    rw [happ, hnone, List.append_nil]
    exact hlast

theorem entitled_ready {m : TunnelMessage} (hm : w.Readies m)
    (hid : w.config.clientMode = .source → w.streamId = 1) (chunk : Bytes) :
    Entitled w.config.clientMode (receivedMessages (w.readied m).trace)
      ((w.readied m).dataMessage chunk) := by
  rcases hm with ⟨htype, hmode⟩ | ⟨htype, hmode⟩
  · rw [hmode]
    refine ⟨m.streamId, ?_, ?_⟩
    · simp [dataMessage, readied, hmode]
    · simp [readied, streamStarts, receivedMessages, htype]
  · rw [hmode]
    refine ⟨?_, m, ?_, htype⟩
    · simp [dataMessage, readied, hmode, hid hmode]
    · simp [readied, receivedMessages]

theorem Speaks.quiet {config : SecureTunnelConfig} (hs : w.Speaks env config) (w' : World)
    (events : List Event) (htrace : w'.trace = w.trace ++ events) (hwrites : writtenMessages events = [])
    (hphase : w'.phase = w.phase) (hconfig : w'.config = w.config)
    (hid : config.clientMode = .source → w'.phase ≠ .ended → w'.streamId = w.streamId)
    (hentitled : w'.phase = .active → w'.tunnelReady = true → ∀ chunk,
      Entitled config.clientMode (receivedMessages w'.trace) (w'.dataMessage chunk)) :
    w'.Speaks env config := by
  have htypes : writtenTypes w'.trace = writtenTypes w.trace := by
    rw [htrace, writtenTypes_append, writtenTypes, writtenTypes, hwrites]
    exact List.append_nil _
  refine ⟨hconfig.trans hs.config_eq, ?_, ?_, ?_, ?_, hentitled, ?_⟩
  · rw [hphase, htypes]
    exact hs.silent
  · rw [hphase, htypes, openingTypes_congr hconfig]
    exact hs.speaking
  · rw [hphase, htypes]
    exact hs.spoken
  · exact fun hmode hlive => (hid hmode hlive).trans (hs.streamId hmode (hphase ▸ hlive))
  · rw [htrace]
    exact inOrder_quiet hs.inOrder hwrites

theorem Speaks.write_data {config : SecureTunnelConfig} (hs : w.Speaks env config)
    (hactive : w.phase = .active) (hready : w.tunnelReady = true) (chunks : List Bytes) :
    (w.logAll (w.writes env (chunks.map w.dataMessage))).Speaks env config := by
  refine ⟨hs.config_eq, ?_, ?_, ?_, hs.streamId, ?_, ?_⟩
  · simp [hactive]
  · intro _
    obtain ⟨n, hn⟩ := hs.speaking hactive
    refine ⟨n + chunks.length, ?_⟩
    rw [logAll_trace, writtenTypes_append, hn, writtenTypes_writes, map_dataMessage_types,
      List.append_assoc, List.replicate_append_replicate]
    rfl
  · simp [hactive]
  · intro _ _ chunk
    rw [logAll_trace, receivedMessages_append, receivedMessages_writes, List.append_nil]
    exact hs.entitled hactive hready chunk
  · apply inOrder_writes hs.inOrder hs.config_eq
    intro m hm _
    obtain ⟨chunk, _, rfl⟩ := List.mem_map.mp hm
    exact hs.entitled hactive hready chunk

/-- Every transition keeps to the language. -/
theorem Transition.speaks {config : SecureTunnelConfig} (h : Transition env w w')
    (hsteady : w.Steady) (hs : w.Speaks env config) : w'.Speaks env config := by
  cases h with
  | stutter => exact hs
  | note e hpassive =>
    apply hs.quiet (w.log e) [e] rfl (passive_writes hpassive) rfl rfl (fun _ _ => rfl)
    intro hactive hready chunk
    rw [log_trace, receivedMessages_append]
    exact entitled_note (hs.entitled hactive hready chunk) (congrArg _ hs.config_eq) hpassive
  | connect w' hidle hphase htrace hsame =>
    have htypes : writtenTypes w'.trace = [] := by
      rw [htrace, writtenTypes_append, hs.silent (Or.inl hidle)]
      rfl
    have hactive : w'.phase ≠ .active := by
      rcases hphase with hphase | hphase <;> simp [hphase]
    refine ⟨hsame.config.trans hs.config_eq, fun _ => htypes, fun h => absurd h hactive,
      fun _ => Or.inl htypes, ?_, fun h => absurd h hactive, ?_⟩
    · intro hmode _
      exact hsame.streamId.trans (hs.streamId hmode (by simp [hidle]))
    · rw [htrace]
      exact inOrder_quiet hs.inOrder rfl
  | queue data hphase hwait =>
    apply hs.quiet { w.log (.sendCalled data) with messageQueue := w.messageQueue ++ [data] }
      [.sendCalled data] rfl rfl rfl rfl (fun _ _ => rfl)
    intro hactive hready
    exact absurd ⟨hactive, hready⟩ hwait
  | transmit data hactive hready =>
    have hlogged : (w.log (.sendCalled data)).Speaks env config := by
      apply hs.quiet (w.log (.sendCalled data)) [.sendCalled data] rfl rfl rfl rfl (fun _ _ => rfl)
      intro _ _ chunk
      rw [log_trace, receivedMessages_append]
      exact (List.append_nil (receivedMessages w.trace)).symm ▸ hs.entitled hactive hready chunk
    exact hlogged.write_data hactive hready _
  | ready m hactive hm =>
    have hid : w.config.clientMode = .source → w.streamId = 1 := by
      intro hmode
      exact hs.streamId (hs.config_eq ▸ hmode) (by simp [hactive])
    have hreadied : ({ w.readied m with messageQueue := [] } : World).Speaks env config := by
      apply hs.quiet { w.readied m with messageQueue := [] } [.receivedMessage m] rfl rfl rfl rfl
      · intro hmode _
        rw [← hs.config_eq] at hmode
        simp [readied, hmode]
      · intro _ _ chunk
        exact hs.config_eq ▸ entitled_ready hm hid chunk
    exact hreadied.write_data hactive rfl _
  | opened w' hphase hphase' htrace hsame =>
    have hbefore := hs.silent (Or.inr hphase)
    refine ⟨hsame.config.trans hs.config_eq, ?_, ?_, ?_, ?_, ?_, ?_⟩
    · simp [hphase']
    · intro _
      refine ⟨0, ?_⟩
      rw [htrace, writtenTypes_append, hbefore, writtenTypes_writes, openingTypes_congr hsame.config]
      exact (List.append_nil _).symm
    · simp [hphase']
    · intro hmode _
      exact hsame.streamId.trans (hs.streamId hmode (by simp [hphase]))
    · intro _ hready
      rw [hsame.tunnelReady, (hsteady.quiet (Or.inr hphase)).2] at hready
      cases hready
    · rw [htrace]
      apply inOrder_writes hs.inOrder hs.config_eq
      intro m hm hdata
      exact absurd hdata (opening_types_ne_data hm)
  | ends w' messages hphase hphase' hmessages htrace hconfig =>
    refine ⟨hconfig.trans hs.config_eq, ?_, ?_, ?_, ?_, ?_, ?_⟩
    · simp [hphase']
    · simp [hphase']
    · intro _
      rw [htrace, writtenTypes_append, writtenTypes_writes]
      rcases hmessages with rfl | ⟨hactive, rfl⟩
      · rw [List.map_nil, List.append_nil]
        exact hs.sentence
      · obtain ⟨n, hn⟩ := hs.speaking hactive
        refine Or.inr ⟨w.openingTypes, n, [TunnelMessageType.streamReset], ?_, ?_, Or.inr rfl⟩
        · rw [hn]
          rfl
        · exact hs.config_eq ▸ opening_types
    · exact fun _ h => absurd hphase' h
    · simp [hphase']
    · rw [htrace]
      apply inOrder_writes hs.inOrder hs.config_eq
      intro m hm hdata
      rcases hmessages with rfl | ⟨_, rfl⟩
      · cases hm
      · rw [List.mem_singleton.mp hm] at hdata
        have hne : TunnelMessageType.streamReset ≠ TunnelMessageType.data := by decide
        exact absurd hdata hne
  | ended w' events hphase hphase' htrace hwrites hconfig =>
    apply hs.quiet w' events htrace hwrites (hphase'.trans hphase.symm) hconfig
    · exact fun _ hlive => absurd hphase' hlive
    · simp [hphase']

end World

theorem Opening.no_reset {mode : ClientMode} {types : List Int32} (h : Opening mode types) :
    TunnelMessageType.streamReset ∉ types := by
  cases mode with
  | source =>
    rw [show types = _ from h]
    decide
  | destination =>
    rcases h with rfl | rfl
    · decide
    · decide

/-- In a sentence STREAM_RESET comes once, at the end. -/
theorem Sentence.reset_last {mode : ClientMode} {types : List Int32} (h : Sentence mode types) :
    types.count TunnelMessageType.streamReset ≤ 1 ∧
      ∀ front back, types = front ++ TunnelMessageType.streamReset :: back → back = [] := by
  rcases h with rfl | ⟨opening, n, reset, rfl, hopening, hreset⟩
  · simp
  · have hbody : TunnelMessageType.streamReset ∉
        opening ++ List.replicate n TunnelMessageType.data := by
      rw [List.mem_append, List.mem_replicate]
      rintro (hmem | ⟨_, hdata⟩)
      · exact hopening.no_reset hmem
      · exact absurd hdata (by decide)
    constructor
    · rw [List.count_append, List.count_eq_zero_of_not_mem hbody, Nat.zero_add]
      rcases hreset with rfl | rfl
      · decide
      · decide
    · intro front back hsplit
      have hlen : reset.length ≤ 1 := by
        rcases hreset with rfl | rfl <;> decide
      rcases List.append_eq_append_iff.mp hsplit with ⟨middle, _, hback⟩ | ⟨middle, hfront, hback⟩
      · have hcount := congrArg List.length hback
        rw [List.length_append, List.length_cons] at hcount
        exact List.length_eq_zero_iff.mp (by omega)
      · cases middle with
        | nil =>
          have hcount := congrArg List.length hback
          rw [List.length_cons, List.nil_append] at hcount
          exact List.length_eq_zero_iff.mp (by omega)
        | cons x middle =>
          obtain ⟨rfl, _⟩ := List.cons.inj hback
          exact absurd (by rw [hfront]; simp) hbody

/-- With a single `connect()`, what is written is a sentence of the client's
mode; every frame holds its message, and every DATA message was in order when it
was written; STREAM_RESET comes at most once, and nothing follows it. -/
theorem session_grammar (env : Env) (config : SecureTunnelConfig) (labels : List Input)
    (r : Receiver) (hrun : (session env).run (.fresh config) labels = some r)
    (hsingle : connectCalls r.world.trace ≤ 1) :
    Sentence config.clientMode (writtenTypes r.world.trace) ∧
    AtEach (FrameInOrder env config) r.world.trace ∧
    (writtenTypes r.world.trace).count TunnelMessageType.streamReset ≤ 1 ∧
    ∀ front back, writtenTypes r.world.trace = front ++ TunnelMessageType.streamReset :: back →
      back = [] := by
  obtain ⟨_, hspeaks⟩ := session_single_invariant (J := World.Speaks env config)
    (fun _ _ htransition hsteady hs => htransition.speaks hsteady hs) hrun hsingle
    (World.fresh_speaks config)
  have hsentence := hspeaks.sentence
  exact ⟨hsentence, hspeaks.inOrder, hsentence.reset_last⟩

/-- A destination that is started twice: DATA on the first stream, then on the
second, one STREAM_RESET for two calls of `disconnect()`, and nothing after it. -/
theorem session_grammar_restart :
    let config : SecureTunnelConfig := ⟨"eu-west-1", "token", .destination, some "ssh", none⟩
    let env : Env := ⟨ProtobufMessages.codec, .passive⟩
    ∃ r, (session env).run (.fresh config)
        [.call (.connect true), .open 0, .call (.send [1]),
          .message 0 (some [0, 4, 8, 2, 16, 7]), .call (.send [2]),
          .message 0 (some [0, 4, 8, 2, 16, 9]), .call (.send [3]), .call .disconnect,
          .call .disconnect, .call (.send [4])] = some r ∧
      writtenTypes r.world.trace = [5, 1, 1, 1, 3] ∧
      Sentence .destination (writtenTypes r.world.trace) ∧
      AtEach (FrameInOrder env config) r.world.trace := by
  intro config env
  have hrun : ((session env).run (.fresh config)
      [.call (.connect true), .open 0, .call (.send [1]),
        .message 0 (some [0, 4, 8, 2, 16, 7]), .call (.send [2]),
        .message 0 (some [0, 4, 8, 2, 16, 9]), .call (.send [3]), .call .disconnect,
        .call .disconnect, .call (.send [4])]).map (fun r =>
          (writtenTypes r.world.trace, connectCalls r.world.trace)) =
      some ([5, 1, 1, 1, 3], 1) := by
    decide +kernel
  obtain ⟨r, hr, hvalues⟩ := Option.map_eq_some_iff.mp hrun
  obtain ⟨htypes, hconnects⟩ := Prod.mk.inj hvalues
  have hall := session_grammar env config _ r hr hconnects.le
  exact ⟨r, hr, htypes, hall.1, hall.2.1⟩

end SshClientWasm.Tunnel
