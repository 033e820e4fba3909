import SshClientWasm.Library.Journal
import SshClientWasm.Ssh.Shell

/-!
# What the shell gets

The arrays that `Send` is given pass through the channel and the hands of the goroutine for
stdin, in the order in which the channel has accepted them. A journal says which `Send` had its
array accepted, and what `onPacketSend` was called with for it.
-/
namespace SshClientWasm.Ssh.Shell

open Library Interceptor

/-- The `select` of a `Send` puts its array into the channel; the `Send` calls
`onPacketSend`. -/
inductive Event
  | accepted (data : Bytes)
  | packet (p : Packet)
  deriving DecidableEq, Repr

/-- What `Send` calls `onPacketSend` with. -/
def sendPacket (data : Bytes) (now : ℤ) : Packet :=
  ⟨data, ⟨now, some "data", "send", data.length⟩⟩

variable {τ κ Conn : Type*}

/-- What a goroutine calls `onPacketSend` with. -/
def packets (now : ℤ) : Point → List Event
  | .packetSend data => [.packet (sendPacket data now)]
  | _ => []

def event (s : Console τ κ Conn) : Moment τ → List (τ × Event)
  | .turn (.go t _) _ =>
    ((accepts s.loop.data (s.loop.pc t)).map .accepted).map (t, ·)
  | .turn (.callOut t) now => (packets now (s.loop.pc t)).map (t, ·)
  | _ => []

/-- The arrays in the order in which the channel has accepted them. -/
def acceptedOf : List (τ × Event) → List Bytes :=
  List.filterMap fun e =>
    match e.2 with
    | .accepted data => some data
    | .packet _ => none

/-- The event without its time. -/
def Event.untimed : Event → Event
  | accepted data => accepted data
  | packet p => packet { p with metadata.timestamp := 0 }

/-- What a `Send` has done when it gets to a point. -/
def did (callbacks : GoCallbacks) : Point → List Event
  | .packetSend data => [.accepted data]
  | .sent data (.ok ()) | .stage (.done (.send data) (.ok ())) =>
    .accepted data :: if callbacks.onPacketSend then [.packet (sendPacket data 0)] else []
  | _ => []

section Did

variable {callbacks : GoCallbacks} {x x' : Shared κ Conn} {p p' q : Point}

theorem did_returned (caller : Option Bytes) (err : Option String) :
    did callbacks (.stage (returned caller err)) = [] := by
  cases caller <;> rfl

theorem did_sent (data : Bytes) (result : Except String Unit) :
    did callbacks (.stage (.done (.send data) result)) = did callbacks (.sent data result) := by
  cases result <;> rfl

theorem did_going (h : Point.Going callbacks x p x' p') :
    did callbacks p' = did callbacks p ++ (accepts x p).map .accepted := by
  cases h with
  | accepted data hresult hcallback => simp [did, accepts, hresult]
  | selected data h =>
    cases hresult : (x.select data).2 with
    | ok u => simp [did, accepts, hresult, h hresult]
    | error err => simp [did, accepts, hresult]
  | sent data result => exact (did_sent data result).trans (List.append_nil _).symm
  | answered remote caller err h =>
    cases h with
    | remoteNext => rfl
    | remoteFailed | remoteDone => exact did_returned _ _
  | stage hplain h =>
    cases h with
    | enterStartShell | enterDisconnect | startLock | select | unregister => cases hplain
    | startAgain | startGone | remoteFailed | remoteDone => exact did_returned _ _
    | _ => rfl
  | _ => rfl

theorem did_callOut (hpacket : ∀ data, p = .packetSend data → callbacks.onPacketSend = true)
    (h : Point.callOut callbacks x p = some q) :
    did callbacks q = did callbacks p ++ packets 0 p := by
  rcases Point.callOut_cases h with ⟨rfl, rfl⟩ | ⟨data, rfl, rfl⟩ | ⟨rfl, rfl⟩ | ⟨s, rfl, rfl⟩
  · rfl
  · simp [did, packets, hpacket data rfl]
  · rfl
  · exact (List.append_nil _).symm

theorem did_answer {err : Option String} (h : p.answer err = some q) :
    did callbacks q = did callbacks p := by
  obtain ⟨op, caller, _, rfl, rfl⟩ := Point.answered_spec h
  rfl

theorem did_fresh (h : p.fresh = true) : did callbacks p = [] := by
  rw [Point.eq_of_fresh h]
  rfl

theorem did_spawn (c : Call) : did callbacks (Point.spawn c) = [] := by
  cases c <;> rfl

theorem did_handle (c : Static) : did callbacks (Point.handle x c) = [] := by
  rcases Point.handle_cases x c with h | ⟨err, h⟩
  · rw [h, did_spawn]
  · rw [h]
    cases c <;> rfl

end Did

section Packing

variable {callbacks : GoCallbacks} {x x' : Shared κ Conn} {p p' q : Point}

/-- A goroutine is about to call `onPacketSend` only if there is one. -/
def Packing (callbacks : GoCallbacks) (p : Point) : Prop :=
  ∀ data, p = .packetSend data → callbacks.onPacketSend = true

theorem packing_going (h : Point.Going callbacks x p x' p') : Packing callbacks p' := by
  intro data hp
  cases h with
  | accepted _ _ hcallback => exact hcallback
  | _ => cases hp

theorem packing_callOut (h : Point.callOut callbacks x p = some q) : Packing callbacks q := by
  intro data hq
  rcases Point.callOut_cases h with ⟨rfl, rfl⟩ | ⟨data, rfl, rfl⟩ | ⟨rfl, rfl⟩ | ⟨s, rfl, rfl⟩
  all_goals cases hq

theorem packing_spawn (c : Call) : Packing callbacks (Point.spawn c) := by
  intro data hp
  cases c <;> cases hp

theorem packing_handle (c : Static) : Packing callbacks (Point.handle x c) := by
  rcases Point.handle_cases x c with h | ⟨err, h⟩
  · rw [h]
    exact packing_spawn c.call
  · rw [h]
    exact fun _ hp => nomatch hp

end Packing

/-- What the shell has got of the arrays that were received: a beginning of each, and of the one
in hand all but what is left of it. -/
inductive Pieces : List Bytes → Option Bytes → Bytes → Prop
  | between {arrays pieces : List Bytes} (h : List.Forall₂ (· <+: ·) pieces arrays) :
      Pieces arrays none pieces.flatten
  | within {arrays pieces : List Bytes} (got rest : Bytes)
      (h : List.Forall₂ (· <+: ·) pieces arrays) :
      Pieces (arrays ++ [got ++ rest]) (some rest) (pieces.flatten ++ got)

namespace Pieces

variable {arrays : List Bytes} {rest stdin : Bytes}

theorem receive (h : Pieces arrays none stdin) (data : Bytes) :
    Pieces (arrays ++ [data]) (some data) stdin := by
  cases h with
  | between h => simpa using within [] data h

theorem puts (h : Pieces arrays (some rest) stdin) (n : ℕ) :
    Pieces arrays (some (rest.drop n)) (stdin ++ rest.take n) := by
  cases h with
  | within got _ h =>
    have hnext := within (got ++ rest.take n) (rest.drop n) h
    rwa [List.append_assoc, List.take_append_drop, ← List.append_assoc] at hnext

theorem wrote (h : Pieces arrays (some rest) stdin) : Pieces arrays none stdin := by
  cases h with
  | within got _ h =>
    have hnext := between (List.rel_append h (.cons (List.prefix_append got rest) .nil))
    rwa [List.flatten_append, List.flatten_singleton] at hnext

theorem beginnings {hand : Option Bytes} (h : Pieces arrays hand stdin) :
    ∃ pieces, stdin = pieces.flatten ∧ List.Forall₂ (· <+: ·) pieces arrays := by
  have hbetween : Pieces arrays none stdin := by
    cases hand with
    | none => exact h
    | some rest => exact h.wrote
  cases hbetween with
  | between hpieces => exact ⟨_, rfl, hpieces⟩

end Pieces

/-- What holds of the client and its shell, with the journal, at every moment. -/
structure Conserved [DecidableEq τ] (callbacks : GoCallbacks)
    (s : Console τ κ Conn × List (τ × Event)) : Prop where
  valid : (client callbacks).Valid s.1.loop
  single : Single s.1.loop
  packing : ∀ t, Packing callbacks (s.1.loop.pc t)
  journaled : Journaled (did callbacks) s.1.loop.pc (s.2.map (Prod.map id Event.untimed))
  accepted : acceptedOf s.2 =
    s.1.loop.data.written ++ s.1.loop.data.channel.buffer.items
  hands : ∀ i, i ≠ 0 → s.1.hands i = none
  /-- Until a `Write` fails, what was received is with the shell or still in hand. -/
  stdin : s.1.failed = false →
    s.1.stray = [] ∧ s.1.stdin ++ (s.1.hands 0).getD [] = s.1.loop.data.written.flatten
  /-- What has come up to the first failure is a beginning of it, -/
  short : ∃ front, s.1.stdin = front ++ s.1.stray ∧ front <+: s.1.loop.data.written.flatten
  /-- and whatever has come is made of beginnings of the arrays. -/
  pieces : Pieces s.1.loop.data.written (s.1.hands 0) s.1.stdin

/-- The console with its journal. -/
abbrev journaling [DecidableEq τ] (callbacks : GoCallbacks) :
    Machine (Console τ κ Conn × List (τ × Event)) (Moment τ) :=
  (console callbacks).recorded event

variable [DecidableEq τ] {callbacks : GoCallbacks} {s s' : Console τ κ Conn × List (τ × Event)}
  {a : Turn τ Call Static (Option String) ℕ} {m : Moment τ}

section Events

omit [DecidableEq τ]

variable {t : τ} {p : Point}

theorem acceptedOf_append (front back : List (τ × Event)) :
    acceptedOf (front ++ back) = acceptedOf front ++ acceptedOf back :=
  List.filterMap_append

theorem acceptedOf_accepted (datas : List Bytes) :
    acceptedOf ((datas.map Event.accepted).map (t, ·)) = datas := by
  rw [acceptedOf, List.map_map, List.filterMap_map]
  exact List.filterMap_some

theorem acceptedOf_packets (now : ℤ) (p : Point) :
    acceptedOf ((packets now p).map (t, ·)) = [] := by
  cases p <;> rfl

theorem untimed_accepted (datas : List Bytes) :
    ((datas.map Event.accepted).map (t, ·)).map (Prod.map id Event.untimed) =
      (datas.map Event.accepted).map (t, ·) := by
  simp [Function.comp_def, Event.untimed]

theorem untimed_packets (now : ℤ) (p : Point) :
    ((packets now p).map (t, ·)).map (Prod.map id Event.untimed) =
      (packets 0 p).map (t, ·) := by
  cases p <;> rfl

end Events

theorem journaled_turn {now : ℤ} {loop : Loop τ (Shared κ Conn) Point}
    (h : (client callbacks).machine.step s.1.loop a = some loop)
    (hpacking : ∀ t, Packing callbacks (s.1.loop.pc t))
    (hs : Journaled (did callbacks) s.1.loop.pc (s.2.map (Prod.map id Event.untimed))) :
    Journaled (did callbacks) loop.pc
      ((s.2 ++ event s.1 (.turn a now)).map (Prod.map id Event.untimed)) := by
  rw [List.map_append]
  cases Guest.step_cases h with
  | spawn t c hfresh => exact hs.quiet ((did_spawn c).trans (did_fresh hfresh).symm)
  | handle t c hhost hfresh => exact hs.quiet ((did_handle c).trans (did_fresh hfresh).symm)
  | go t err hfree hadvance hlock =>
    rw [event, untimed_accepted]
    exact hs.move (did_going (Point.advance_going hadvance))
  | callOut t hfree hcall =>
    rw [event, untimed_packets]
    exact hs.move (did_callOut (hpacking t) hcall)
  | answer t err hstack hanswer => exact hs.quiet (did_answer hanswer)
  | external | guest | host | leave => simpa [event] using hs

theorem packing_turn {loop loop' : Loop τ (Shared κ Conn) Point}
    (h : (client callbacks).machine.step loop a = some loop')
    (hs : ∀ t, Packing callbacks (loop.pc t)) : ∀ t, Packing callbacks (loop'.pc t) := by
  have hmove : ∀ t q, Packing callbacks q →
      ∀ u, Packing callbacks (Function.update loop.pc t q u) := by
    intro t q hq
    exact (Function.forall_update_iff loop.pc fun _ p => Packing callbacks p).mpr
      ⟨hq, fun u _ => hs u⟩
  cases Guest.step_cases h with
  | spawn t c hfresh => exact hmove t _ (packing_spawn c)
  | handle t c hhost hfresh => exact hmove t _ (packing_handle c)
  | go t err hfree hadvance hlock => exact hmove t _ (packing_going (Point.advance_going hadvance))
  | callOut t hfree hcall => exact hmove t _ (packing_callOut hcall)
  | answer t err hstack hanswer =>
    obtain ⟨op, caller, _, _, rfl⟩ := Point.answered_spec hanswer
    exact hmove t _ fun _ hp => nomatch hp
  | external | guest | host | leave => exact hs

/-- What a turn does to the queue: what is accepted comes last into the channel, and what a
goroutine for stdin receives has been first there. -/
theorem turn_items (now : ℤ) {loop : Loop τ (Shared κ Conn) Point}
    (h : (client callbacks).machine.step s.1.loop a = some loop) :
    ∃ taken : Option Bytes,
      loop.data.written = s.1.loop.data.written ++ taken.toList ∧
      s.1.loop.data.channel.buffer.items ++ acceptedOf (event s.1 (.turn a now)) =
        taken.toList ++ loop.data.channel.buffer.items ∧
      (taken = none ∧ s.1.receive a = s.1.hands ∨
        ∃ i, a = .external i ∧ s.1.receive a = Function.update s.1.hands i taken ∧
          (taken ≠ none → i < s.1.loop.data.writers.length)) := by
  cases Guest.step_cases h with
  | go t err hfree hadvance hlock =>
    obtain ⟨hwritten, hitems⟩ := Going.items (Point.advance_going hadvance)
    refine ⟨none, by simpa using hwritten, ?_, Or.inl ⟨rfl, rfl⟩⟩
    rw [event, acceptedOf_accepted, hitems]
    rfl
  | callOut t hfree hcall =>
    refine ⟨none, by simp, ?_, Or.inl ⟨rfl, rfl⟩⟩
    rw [event, acceptedOf_packets, List.append_nil]
    rfl
  | external i hexternal =>
    obtain ⟨hwritten, hitems, hlt⟩ := write_items hexternal
    refine ⟨received s.1.loop.data i, hwritten, ?_, Or.inr ⟨i, rfl, rfl, hlt⟩⟩
    exact (List.append_nil _).trans hitems
  | _ => exact ⟨none, by simp, List.append_nil _, Or.inl ⟨rfl, rfl⟩⟩

theorem Conserved.turn (hs : Conserved callbacks s) {now : ℤ}
    {loop : Loop τ (Shared κ Conn) Point} (hready : s.1.Ready a)
    (h : (client callbacks).machine.step s.1.loop a = some loop) :
    Conserved callbacks
      ({ s.1 with
          loop := loop
          hands := s.1.receive a }, s.2 ++ event s.1 (.turn a now)) := by
  obtain ⟨taken, hwritten, hitems, hhands⟩ := turn_items now h
  -- a goroutine for stdin that receives is the only one, and has nothing in hand
  have hreceive : taken = none ∧ s.1.receive a = s.1.hands ∨ ∃ data, taken = some data ∧
      s.1.hands 0 = none ∧ s.1.receive a = Function.update s.1.hands 0 (some data) := by
    rcases hhands with ⟨rfl, hsame⟩ | ⟨i, rfl, hupdate, hlt⟩
    · exact Or.inl ⟨rfl, hsame⟩
    · have hempty : s.1.hands i = none := hready
      cases taken with
      | none =>
        refine Or.inl ⟨rfl, ?_⟩
        rw [hupdate, ← hempty, Function.update_eq_self]
      | some data =>
        have hfew := hs.single.few
        have hwriter := hlt (by simp)
        obtain rfl : i = 0 := by omega
        exact Or.inr ⟨data, rfl, hempty, hupdate⟩
  have haccepted : acceptedOf (s.2 ++ event s.1 (.turn a now)) =
      loop.data.written ++ loop.data.channel.buffer.items := by
    rw [acceptedOf_append, hs.accepted, List.append_assoc, hitems, hwritten, List.append_assoc]
  have hflatten : loop.data.written.flatten =
      s.1.loop.data.written.flatten ++ taken.getD [] := by
    rw [hwritten, List.flatten_append]
    cases taken <;> simp
  obtain ⟨front, hfront, hprefix⟩ := hs.short
  refine ⟨hs.valid.step (Guest.step_cases h), hs.single.step hs.valid h,
    packing_turn h hs.packing, journaled_turn h hs.packing hs.journaled, haccepted, ?_,
    fun hfailed => ⟨(hs.stdin hfailed).1, ?_⟩, ⟨front, hfront, ?_⟩, ?_⟩
  · dsimp only
    rcases hreceive with ⟨_, hsame⟩ | ⟨data, _, _, hupdate⟩
    · rw [hsame]
      exact hs.hands
    · intro i hi
      rw [hupdate, Function.update_of_ne hi]
      exact hs.hands i hi
  · have hstdin := (hs.stdin hfailed).2
    dsimp only
    rw [hflatten, ← hstdin]
    rcases hreceive with ⟨rfl, hsame⟩ | ⟨data, rfl, hempty, hupdate⟩
    · rw [hsame]
      simp
    · rw [hupdate, hempty]
      simp
  · dsimp only
    rw [hflatten]
    exact hprefix.trans (List.prefix_append ..)
  · have hpieces := hs.pieces
    dsimp only
    rw [hwritten]
    rcases hreceive with ⟨rfl, hsame⟩ | ⟨data, rfl, hempty, hupdate⟩
    · rw [hsame]
      simpa using hpieces
    · rw [hempty] at hpieces
      rw [hupdate, Function.update_self]
      exact hpieces.receive data

theorem Conserved.hand (hs : Conserved callbacks s) {i : ℕ} {rest : Bytes}
    (h : s.1.hands i = some rest) : i = 0 := by
  by_contra hne
  rw [hs.hands i hne] at h
  cases h

theorem Conserved.shell (hs : Conserved callbacks s) {hand : Option Bytes} {stdin stray : Bytes}
    {failed : Bool} (ended : Output → Bool)
    (hstdin : failed = false →
      stray = [] ∧ stdin ++ hand.getD [] = s.1.loop.data.written.flatten)
    (hshort : ∃ front, stdin = front ++ stray ∧ front <+: s.1.loop.data.written.flatten)
    (hpieces : Pieces s.1.loop.data.written hand stdin) :
    Conserved callbacks
      (⟨s.1.loop, Function.update s.1.hands 0 hand, stdin, stray, failed, ended⟩,
        s.2 ++ []) := by
  rw [List.append_nil]
  refine ⟨hs.valid, hs.single, hs.packing, hs.journaled, hs.accepted, fun i hi => ?_, hstdin,
    hshort, ?_⟩
  · exact (Function.update_of_ne hi ..).trans (hs.hands i hi)
  · dsimp only
    rwa [Function.update_self]

/-- Every moment keeps everything. -/
theorem Conserved.step (hs : Conserved callbacks s)
    (h : (journaling callbacks).step s m = some s') : Conserved callbacks s' := by
  obtain ⟨console, journal⟩ := s'
  obtain ⟨hstep, hjournal⟩ := (Machine.recorded_step _).mp h
  dsimp only at hstep hjournal
  subst hjournal
  cases step_cases hstep with
  | turn a now hready hturn => exact hs.turn hready hturn
  | puts i n rest hhand =>
    obtain rfl := hs.hand hhand
    have hpieces := hs.pieces
    rw [hhand] at hpieces
    obtain ⟨front, hfront, hprefix⟩ := hs.short
    cases hfailed : s.1.failed with
    | true =>
      -- what comes now is stray
      refine hs.shell s.1.ended (fun h => absurd h (by simp)) ⟨front, ?_, hprefix⟩
        (hpieces.puts n)
      rw [if_pos rfl, hfront, List.append_assoc]
    | false =>
      obtain ⟨hstray, hstdin⟩ := hs.stdin hfailed
      rw [hhand, Option.getD_some] at hstdin
      rw [if_neg (by simp), hstray]
      refine hs.shell s.1.ended (fun _ => ⟨rfl, ?_⟩) ⟨_, (List.append_nil _).symm, ?_⟩
        (hpieces.puts n)
      · rw [Option.getD_some, List.append_assoc, List.take_append_drop, hstdin]
      · rw [← hstdin]
        exact (List.prefix_append_right_inj _).mpr (List.take_prefix n rest)
  | wrote i failed rest hhand hreturns =>
    obtain rfl := hs.hand hhand
    have hpieces := hs.pieces
    rw [hhand] at hpieces
    refine hs.shell s.1.ended (fun hboth => ?_) hs.short hpieces.wrote
    obtain ⟨hfailed, hok⟩ := Bool.or_eq_false_iff.mp hboth
    obtain ⟨hstray, hstdin⟩ := hs.stdin hfailed
    have hrest : rest = [] := hreturns.resolve_left (by simp [hok])
    rw [hhand, hrest] at hstdin
    exact ⟨hstray, hstdin⟩
  | ends o hstarted =>
    have hsame := hs.shell (Function.update s.1.ended o true) hs.stdin hs.short hs.pieces
    rwa [Function.update_eq_self] at hsame

theorem Conserved.connected (sessionID : String) (conn : Conn) (sessions : String → Option κ)
    (this : κ) :
    Conserved callbacks
      ((Console.connected sessionID conn sessions this, []) : Console τ κ Conn × List (τ × Event)) where
  valid := (connected_calm sessionID conn sessions this).valid
  single := Single.connected sessionID conn sessions this
  packing := fun _ _ hp => nomatch hp
  journaled := Journaled.start rfl
  accepted := rfl
  hands := fun _ _ => rfl
  stdin := fun _ => ⟨rfl, rfl⟩
  short := ⟨[], rfl, List.nil_prefix⟩
  pieces := .between .nil

section Senders

omit [DecidableEq τ]

theorem untimed_eq_accepted {e : Event} {data : Bytes} (h : e.untimed = .accepted data) :
    e = .accepted data := by
  cases e with
  | accepted data' => exact h
  | packet p => cases h

theorem untimed_eq_packet {e : Event} {data : Bytes}
    (h : e.untimed = .packet (sendPacket data 0)) : ∃ now, e = .packet (sendPacket data now) := by
  cases e with
  | accepted data' => cases h
  | packet p =>
    obtain ⟨data', metadata⟩ := p
    obtain ⟨now, type, direction, size⟩ := metadata
    simp only [Event.untimed, sendPacket, Event.packet.injEq, Packet.mk.injEq,
      Metadata.mk.injEq] at h
    obtain ⟨rfl, _, rfl, rfl, rfl⟩ := h
    exact ⟨now, rfl⟩

theorem mem_did {p : Point} {e : Event} (h : e ∈ did callbacks p) :
    ∃ data, .accepted data ∈ did callbacks p ∧
      (p = .packetSend data ∨ p = .sent data (.ok ()) ∨ p = .stage (.done (.send data) (.ok ()))) ∧
      (e = .accepted data ∨ e = .packet (sendPacket data 0)) := by
  have hsent : ∀ data, (e ∈ Event.accepted data :: if callbacks.onPacketSend
      then [.packet (sendPacket data 0)] else []) →
      e = .accepted data ∨ e = .packet (sendPacket data 0) := by
    intro data h
    split at h
    · simpa using h
    · exact Or.inl (List.mem_singleton.mp h)
  unfold did at h ⊢
  split at h
  next data => exact ⟨data, List.mem_cons_self, Or.inl rfl, Or.inl (List.mem_singleton.mp h)⟩
  next data => exact ⟨data, List.mem_cons_self, Or.inr (Or.inl rfl), hsent data h⟩
  next data => exact ⟨data, List.mem_cons_self, Or.inr (Or.inr rfl), hsent data h⟩
  next => cases h

end Senders

/-- Shell input is first in, first out. -/
structure Fifo (callbacks : GoCallbacks) (s : Console τ κ Conn × List (τ × Event)) : Prop where
  /-- What the shell has got, up to and with the first `Write` that fails, is a beginning of
  what the channel has accepted, -/
  stdin : ∃ front, s.1.stdin = front ++ s.1.stray ∧ front <+: (acceptedOf s.2).flatten
  /-- and, as long as no `Write` has failed, the rest of it is on its way. -/
  underway : s.1.failed = false → s.1.stray = [] ∧ s.1.stdin ++ (s.1.hands 0).getD [] ++
    s.1.loop.data.channel.buffer.items.flatten = (acceptedOf s.2).flatten
  /-- Whatever it has got, also from a `Write` behind a failed one, is made of beginnings of the
  arrays that the channel has accepted, one of each and in their order. -/
  pieces : ∃ pieces arrays, s.1.stdin = pieces.flatten ∧
    List.Forall₂ (· <+: ·) pieces arrays ∧ arrays <+: acceptedOf s.2
  /-- A `Send` that has returned nil had its array accepted once, and has called
  `onPacketSend` once, if there is one. -/
  resolved : ∀ t data, s.1.loop.pc t = .stage (.done (.send data) (.ok ())) →
    ∃ now, entries t s.2 =
      .accepted data :: if callbacks.onPacketSend then [.packet (sendPacket data now)] else []
  /-- One that has returned an error has done neither. -/
  rejected : ∀ t data err, s.1.loop.pc t = .stage (.done (.send data) (.error err)) →
    entries t s.2 = []
  /-- Whatever is accepted comes from a `Send` that has returned nil, or will, -/
  accepted : ∀ t data, (t, .accepted data) ∈ s.2 → s.1.loop.pc t = .packetSend data ∨
    s.1.loop.pc t = .sent data (.ok ()) ∨ s.1.loop.pc t = .stage (.done (.send data) (.ok ()))
  /-- and `onPacketSend` is called for nothing else. -/
  packets : ∀ t p, (t, .packet p) ∈ s.2 → ∃ data now, p = sendPacket data now ∧
    (t, .accepted data) ∈ s.2

theorem Conserved.entries (hs : Conserved callbacks s) (t : τ) :
    (entries t s.2).map Event.untimed = did callbacks (s.1.loop.pc t) := by
  rw [← entries_map]
  exact hs.journaled t

theorem Conserved.fifo (hs : Conserved callbacks s) : Fifo callbacks s where
  stdin := by
    obtain ⟨front, hfront, hprefix⟩ := hs.short
    refine ⟨front, hfront, ?_⟩
    rw [hs.accepted, List.flatten_append]
    exact hprefix.trans (List.prefix_append ..)
  underway := by
    intro hfailed
    obtain ⟨hstray, hstdin⟩ := hs.stdin hfailed
    rw [hstdin, hs.accepted, List.flatten_append]
    exact ⟨hstray, rfl⟩
  pieces := by
    obtain ⟨pieces, hstdin, hpieces⟩ := hs.pieces.beginnings
    refine ⟨pieces, _, hstdin, hpieces, ?_⟩
    rw [hs.accepted]
    exact List.prefix_append ..
  resolved := by
    intro t data ht
    have hentries := hs.entries t
    rw [ht, did] at hentries
    obtain ⟨e, rest, hsplit, he, hrest⟩ := List.map_eq_cons_iff.mp hentries
    rw [hsplit, untimed_eq_accepted he]
    cases hcallback : callbacks.onPacketSend with
    | true =>
      rw [hcallback, if_pos rfl] at hrest
      obtain ⟨e', rest', hsplit', he', hnil⟩ := List.map_eq_cons_iff.mp hrest
      obtain ⟨now, rfl⟩ := untimed_eq_packet he'
      obtain rfl := List.map_eq_nil_iff.mp hnil
      exact ⟨now, by rw [hsplit', if_pos rfl]⟩
    | false =>
      rw [hcallback, if_neg (by simp)] at hrest
      obtain rfl := List.map_eq_nil_iff.mp hrest
      exact ⟨0, by rw [if_neg (by simp)]⟩
  rejected := by
    intro t data err ht
    have hentries := hs.entries t
    rw [ht] at hentries
    exact List.map_eq_nil_iff.mp hentries
  accepted := by
    intro t data hmem
    have hdid := List.mem_map_of_mem (f := Event.untimed) (mem_entries.mpr hmem)
    rw [hs.entries t] at hdid
    obtain ⟨data', _, hpoint, heq | heq⟩ := mem_did hdid
    · cases heq
      exact hpoint
    · cases heq
  packets := by
    intro t p hmem
    have hdid := List.mem_map_of_mem (f := Event.untimed) (mem_entries.mpr hmem)
    rw [hs.entries t] at hdid
    obtain ⟨data, haccepted, _, heq | heq⟩ := mem_did hdid
    · cases heq
    · obtain ⟨now, hp⟩ := untimed_eq_packet heq
      rw [← hs.entries t] at haccepted
      obtain ⟨e, he, hdata⟩ := List.mem_map.mp haccepted
      rw [untimed_eq_accepted hdata] at he
      cases hp
      exact ⟨data, now, rfl, mem_entries.mp he⟩

/-- In every interleaving of any number of calls of a connected client, of its goroutine for
stdin and of what becomes of the `Write`s, shell input is first in, first out. -/
theorem shell_fifo (callbacks : GoCallbacks) (sessionID : String) (conn : Conn)
    (sessions : String → Option κ) (this : κ) (labels : List (Moment τ))
    (s : Console τ κ Conn × List (τ × Event))
    (hrun : (journaling callbacks).run (.connected sessionID conn sessions this, []) labels =
      some s) : Fifo callbacks s :=
  ((journaling callbacks).run_invariant (I := Conserved callbacks)
    (fun _ _ _ hs h => hs.step h) labels _ s (Conserved.connected sessionID conn sessions this)
    hrun).fifo

/-- A `Send` that starts the shell, and one that comes while it runs. -/
def firstSend (t : τ) (data : Bytes) : List (Moment τ) :=
  ([.spawn t (.send data), .go t none, .go t none, .go t none, .go t none,
    .go t none, .answer t none, .go t none, .go t none, .go t none,
    .go t none, .answer t none, .go t none, .answer t none, .go t none,
    .go t none, .go t none, .callOut t, .leave, .go t none] :
    List (Turn τ Call Static (Option String) ℕ)).map (.turn · 7)

def laterSend (t : τ) (data : Bytes) : List (Moment τ) :=
  ([.spawn t (.send data), .go t none, .go t none, .go t none, .callOut t, .leave,
    .go t none] : List (Turn τ Call Static (Option String) ℕ)).map (.turn · 8)

/-- The goroutine for stdin receives, and its `Write` fails behind a part of the array. -/
def brokenWrite : List (Moment τ) :=
  [.turn (.external 0) 9, .turn (.external 0) 9, .puts 0 1, .wrote 0 true]

theorem shell_fifo_brokenWrite :
    ∃ s, (journaling ⟨false, true, false⟩).run
        ((Console.connected "ssh-1" () (fun _ => none) () : Console Bool Unit Unit), [])
        (firstSend false [1, 2] ++ laterSend true [3] ++ brokenWrite) = some s ∧
      s.1.stdin = [1] ∧ s.1.stray = [] ∧ acceptedOf s.2 = [[1, 2], [3]] ∧
      Fifo ⟨false, true, false⟩ s := by
  refine ⟨_, rfl, rfl, rfl, rfl, ?_⟩
  exact shell_fifo ⟨false, true, false⟩ "ssh-1" () (fun _ => none) ()
    (firstSend false [1, 2] ++ laterSend true [3] ++ brokenWrite) _ rfl

end SshClientWasm.Ssh.Shell
