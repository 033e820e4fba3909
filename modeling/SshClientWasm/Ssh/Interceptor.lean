import SshClientWasm.Library.Bytes
import SshClientWasm.Library.Machine
import SshClientWasm.Library.Spawn

/-!
# Packet interception

`InterceptedTransport` copies what passes through it and hands each copy to a callback, in a
goroutine of its own. When the callback is invoked is up to the scheduler.
-/
namespace SshClientWasm.Ssh.Interceptor

open Library

/-- The map that goes with a packet; only the shell gives it a `type`. -/
structure Metadata where
  timestamp : ℤ
  type : Option String
  direction : String
  size : ℕ
  deriving DecidableEq, Repr

/-- The arguments of a `PacketCallback`. -/
structure Packet where
  data : Bytes
  metadata : Metadata
  deriving DecidableEq, Repr

/-- What a `Read` of the transport returns: `data` is `p[:n]`. -/
structure ReadResult where
  data : Bytes
  err : Option String
  deriving DecidableEq, Repr

structure WriteResult where
  n : ℕ
  err : Option String
  deriving DecidableEq, Repr

inductive Direction
  | receive
  | send
  deriving DecidableEq, Repr

/-- `interceptReader.Read`, with the goroutine that it starts. -/
def interceptRead (onReceive : Bool) (r : ReadResult) (now : ℤ) : ReadResult × Option Packet :=
  (r, if 0 < r.data.length ∧ onReceive then
    some ⟨r.data, ⟨now, none, "receive", r.data.length⟩⟩ else none)

/-- `interceptWriter.Write`, which starts the goroutine before it writes. -/
def interceptWrite (onSend : Bool) (p : Bytes) (r : WriteResult) (now : ℤ) :
    WriteResult × Option Packet :=
  (r, if onSend then some ⟨p, ⟨now, none, "send", p.length⟩⟩ else none)

/-- The bytes that passed in one direction, and the goroutines that report them. -/
structure Lane where
  stream : Bytes
  packets : Spawned Packet

/-- The data that the callback has been invoked with. -/
def Lane.reported (l : Lane) : Bytes := (l.packets.ran.map Packet.data).flatten

def Lane.pass (l : Lane) (data : Bytes) (packet : Option Packet) : Lane where
  stream := l.stream ++ data
  packets := packet.elim l.packets l.packets.start

abbrev Traffic := Direction → Lane

def untouched : Traffic := fun _ => ⟨[], .none⟩

/-- A call of the transport and what it returns. -/
inductive Transfer
  | read (r : ReadResult) (now : ℤ)
  | write (p : Bytes) (r : WriteResult) (now : ℤ)
  deriving DecidableEq, Repr

def Transfer.direction : Transfer → Direction
  | .read _ _ => .receive
  | .write _ _ _ => .send

def Transfer.data : Transfer → Bytes
  | .read r _ => r.data
  | .write p _ _ => p

/-- The goroutine that it starts. -/
def Transfer.packet (hooked : Direction → Bool) : Transfer → Option Packet
  | .read r now => (interceptRead (hooked .receive) r now).2
  | .write p r now => (interceptWrite (hooked .send) p r now).2

/-- A `Read` or a `Write` returns, or the goroutine with number `k` among the waiting ones
of a direction runs. -/
inductive Label
  | pass (x : Transfer)
  | run (d : Direction) (k : ℕ)
  deriving DecidableEq, Repr

/-- The transport with the callbacks of `hooked`. -/
def intercepted (hooked : Direction → Bool) : Machine Traffic Label where
  step s
    | .pass x =>
      some (Function.update s x.direction ((s x.direction).pass x.data (x.packet hooked)))
    | .run d k =>
      ((s d).packets.pick k).map fun packets =>
        Function.update s d { s d with packets := packets }

/-- The `Read`s and `Write`s of a schedule. -/
def transfers (labels : List Label) : List Transfer :=
  labels.filterMap fun
    | .pass x => some x
    | .run _ _ => none

/-- The arrays that pass in one direction. -/
def arrays (d : Direction) (xs : List Transfer) : List Bytes :=
  (xs.filter (·.direction = d)).map Transfer.data

/-- What has been reported is the beginning of what has passed. -/
def InOrder (s : Traffic) : Prop := ∀ d, (s d).reported <+: (s d).stream

variable {hooked : Direction → Bool} {s t : Traffic} {labels : List Label} {d : Direction} {k : ℕ}

theorem transfers_isPrefix {front : List Label} (h : front <+: labels) :
    transfers front <+: transfers labels :=
  h.filterMap _

theorem transfers_map_pass (xs : List Transfer) : transfers (xs.map .pass) = xs := by
  induction xs with
  | nil => rfl
  | cons x xs ih => exact congrArg (x :: ·) ih

section Goroutines

/-- The arrays that are not empty. -/
def filled (words : List Bytes) : List Bytes := words.filter (· ≠ [])

theorem filled_append (front back : List Bytes) :
    filled (front ++ back) = filled front ++ filled back :=
  List.filter_append _ _

theorem flatten_filled (words : List Bytes) : (filled words).flatten = words.flatten :=
  List.flatten_filter_ne_nil

def Commute (x y : Bytes) : Prop := x ++ y = y ++ x

theorem pairwise_filled {words : List Bytes} :
    (filled words).Pairwise Commute ↔ words.Pairwise Commute := by
  rw [filled, List.pairwise_filter]
  constructor
  · intro h
    refine h.imp fun {x y} hxy => ?_
    by_cases hx : x = []
    · simp [Commute, hx]
    by_cases hy : y = []
    · simp [Commute, hy]
    exact hxy (decide_eq_true hx) (decide_eq_true hy)
  · exact fun h => h.imp fun hxy _ _ => hxy

/-- What the goroutines of a lane carry, those that ran in front. -/
def Lane.carried (l : Lane) : List Bytes := l.packets.all.map Packet.data

/-- The arrays of `words` have passed. With a callback there is a goroutine for each that is
not empty, and these stand in an order that `R` allows. -/
structure Lane.Recorded (R : List Bytes → List Bytes → Prop) (hook : Bool) (words : List Bytes)
    (l : Lane) : Prop where
  stream : l.stream = words.flatten
  carried : hook = true → R (filled l.carried) (filled words)
  idle : hook = false → l.carried = []

variable {R : List Bytes → List Bytes → Prop} {words : Direction → List Bytes}

theorem carried_pass (l : Lane) (data : Bytes) (packet : Option Packet) :
    (l.pass data packet).carried = l.carried ++ (packet.map Packet.data).toList := by
  cases packet with
  | none => simp [Lane.pass, Lane.carried]
  | some p => simp [Lane.pass, Lane.carried, Spawned.start, Spawned.all]

theorem filled_packet (x : Transfer) (h : hooked x.direction = true) :
    filled ((x.packet hooked).map Packet.data).toList = filled [x.data] := by
  cases x with
  | read r now =>
    have hhooked : hooked .receive = true := h
    by_cases hdata : r.data = []
    · simp [Transfer.packet, interceptRead, Transfer.data, hdata, filled]
    · have hpos : 0 < r.data.length := List.length_pos_iff.mpr hdata
      simp [Transfer.packet, interceptRead, Transfer.data, hpos, hhooked]
  | write p r now =>
    have hhooked : hooked .send = true := h
    simp [Transfer.packet, interceptWrite, Transfer.data, hhooked]

theorem packet_eq_none (x : Transfer) (h : hooked x.direction = false) :
    x.packet hooked = none := by
  cases x with
  | read r now =>
    have hhooked : hooked .receive = false := h
    simp [Transfer.packet, interceptRead, hhooked]
  | write p r now =>
    have hhooked : hooked .send = false := h
    simp [Transfer.packet, interceptWrite, hhooked]

theorem recorded_pass (happend : ∀ {l l'} (m : List Bytes), R l l' → R (l ++ m) (l' ++ m))
    (h : ∀ d, (s d).Recorded R (hooked d) (words d)) {x : Transfer}
    (hstep : (intercepted hooked).step s (.pass x) = some t) :
    ∀ d, (t d).Recorded R (hooked d) (words d ++ arrays d [x]) := by
  intro d
  cases hstep
  by_cases hd : d = x.direction
  · subst hd
    obtain ⟨hstream, hcarried, hidle⟩ := h x.direction
    have hself : arrays x.direction [x] = [x.data] := by simp [arrays]
    rw [Function.update_self, hself]
    refine ⟨?_, fun hhook => ?_, fun hhook => ?_⟩
    · rw [List.flatten_append, List.flatten_singleton, ← hstream]
      rfl
    · rw [carried_pass, filled_append, filled_append, filled_packet x hhook]
      exact happend _ (hcarried hhook)
    · rw [carried_pass, packet_eq_none x hhook, hidle hhook]
      rfl
  · have hother : arrays d [x] = [] := by simp [arrays, Ne.symm hd]
    rw [Function.update_of_ne hd, hother, List.append_nil]
    exact h d

/-- A goroutine that runs stays where `R` allows. -/
def Keeps (R : List Bytes → List Bytes → Prop) : Label → Prop
  | .pass _ => True
  | .run _ k => ∀ (l : Lane) packets words, l.packets.pick k = some packets →
      R (filled l.carried) words → R (filled { l with packets := packets : Lane }.carried) words

theorem recorded_run (hkeeps : Keeps R (.run d k))
    (h : ∀ d, (s d).Recorded R (hooked d) (words d))
    (hstep : (intercepted hooked).step s (.run d k) = some t) :
    ∀ d, (t d).Recorded R (hooked d) (words d) := by
  obtain ⟨packets, hpick, rfl⟩ := Option.map_eq_some_iff.mp hstep
  intro e
  by_cases he : e = d
  · subst he
    obtain ⟨hstream, hcarried, hidle⟩ := h e
    rw [Function.update_self]
    refine ⟨hstream, fun hhook => hkeeps _ _ _ hpick (hcarried hhook), fun hhook => ?_⟩
    have hall : packets.all = [] := by
      have hnone := List.map_eq_nil_iff.mp (hidle hhook)
      exact List.Perm.eq_nil (hnone ▸ Spawned.pick_perm hpick)
    exact List.map_eq_nil_iff.mpr hall
  · rw [Function.update_of_ne he]
    exact h e

theorem recorded_of_run (happend : ∀ {l l'} (m : List Bytes), R l l' → R (l ++ m) (l' ++ m)) :
    ∀ (labels : List Label) (s t : Traffic) (words : Direction → List Bytes),
      (∀ a ∈ labels, Keeps R a) → (∀ d, (s d).Recorded R (hooked d) (words d)) →
        (intercepted hooked).run s labels = some t →
          ∀ d, (t d).Recorded R (hooked d) (words d ++ arrays d (transfers labels)) := by
  intro labels
  induction labels with
  | nil =>
    intro s t words _ h hrun d
    cases hrun
    exact (List.append_nil (words d)).symm ▸ h d
  | cons a labels ih =>
    intro s t words hkeeps h hrun d
    obtain ⟨u, hstep, hrest⟩ := (Machine.run_cons_eq_some _).mp hrun
    obtain ⟨ha, hlabels⟩ := List.forall_mem_cons.mp hkeeps
    cases a with
    | pass x =>
      have hpassed := ih u t _ hlabels (recorded_pass happend h hstep) hrest d
      rw [List.append_assoc] at hpassed
      have hcons : arrays d (transfers (.pass x :: labels)) =
          arrays d [x] ++ arrays d (transfers labels) := by
        rw [arrays, arrays, arrays, ← List.map_append, ← List.filter_append]
        rfl
      rwa [hcons]
    | run e k => exact ih u t _ hlabels (recorded_run ha h hstep) hrest d

theorem recorded_untouched (hR : R [] []) (d : Direction) :
    (untouched d).Recorded R (hooked d) [] :=
  ⟨rfl, fun _ => hR, fun _ => rfl⟩

theorem perm_of_run (hrun : (intercepted hooked).run untouched labels = some t) :
    ∀ d, (t d).Recorded List.Perm (hooked d) (arrays d (transfers labels)) := by
  refine recorded_of_run (fun m h => h.append_right m) labels _ t (fun _ => []) ?_
    (recorded_untouched (List.Perm.refl _)) hrun
  rintro (x | ⟨d, k⟩) _
  · trivial
  · intro l packets words hpick h
    exact (((Spawned.pick_perm hpick).map Packet.data).filter _).trans h

theorem eq_of_run (hfirst : ∀ d k, .run d k ∈ labels → k = 0)
    (hrun : (intercepted hooked).run untouched labels = some t) :
    ∀ d, (t d).Recorded Eq (hooked d) (arrays d (transfers labels)) := by
  refine recorded_of_run (fun m h => congrArg (· ++ m) h) labels _ t (fun _ => []) ?_
    (recorded_untouched rfl) hrun
  rintro (x | ⟨d, k⟩) hmem
  · trivial
  · obtain rfl := hfirst d k hmem
    intro l packets words hpick h
    rw [Lane.carried, Spawned.pick_zero hpick]
    exact h

/-- What has been reported is in front of what has passed if the goroutines carry that. -/
theorem Lane.Recorded.reported_prefix {hook : Bool} {words : List Bytes} {l : Lane}
    (h : l.Recorded R hook words)
    (hflatten : hook = true → (filled l.carried).flatten = (filled words).flatten) :
    l.reported <+: l.stream := by
  have hsplit : l.carried.flatten = l.reported ++ (l.packets.waiting.map Packet.data).flatten := by
    rw [Lane.carried, Spawned.all, List.map_append, List.flatten_append]
    rfl
  cases hook with
  | false =>
    rw [h.idle rfl] at hsplit
    rw [(List.append_eq_nil_iff.mp hsplit.symm).1]
    exact List.nil_prefix
  | true =>
    have hall := hflatten rfl
    rw [flatten_filled, flatten_filled, ← h.stream, hsplit] at hall
    exact ⟨_, hall⟩

/-- The goroutines of each direction run in the order of their start. -/
def InTurn (labels : List Label) : Prop := ∀ d k, .run d k ∈ labels → k = 0

theorem always_inOrder_of_inTurn (hooked : Direction → Bool) (hturn : InTurn labels) :
    (intercepted hooked).Always InOrder untouched labels := by
  refine (Machine.always_iff_prefix _).mpr fun front t hfront hrun d => ?_
  have hrecorded := eq_of_run (fun d k hk => hturn d k (hfront.mem hk)) hrun d
  exact hrecorded.reported_prefix fun hhook => congrArg List.flatten (hrecorded.carried hhook)

end Goroutines

section Schedules

theorem run_passes (hooked : Direction → Bool) : ∀ (xs : List Transfer) (s : Traffic), ∃ t,
    (intercepted hooked).run s (xs.map .pass) = some t ∧
      ∀ d, (t d).packets.ran = (s d).packets.ran := by
  intro xs
  induction xs with
  | nil => exact fun s => ⟨s, rfl, fun _ => rfl⟩
  | cons x xs ih =>
    intro s
    obtain ⟨t, hrun, hran⟩ :=
      ih (Function.update s x.direction ((s x.direction).pass x.data (x.packet hooked)))
    refine ⟨t, hrun, fun d => (hran d).trans ?_⟩
    by_cases hd : d = x.direction
    · subst hd
      rw [Function.update_self]
      cases x.packet hooked with
      | none => rfl
      | some p => rfl
    · rw [Function.update_of_ne hd]

theorem run_pair (hooked : Direction → Bool) {i j : ℕ} {p q : Packet}
    (hran : (s d).packets.ran = []) (hp : (s d).packets.waiting[i]? = some p)
    (hq : ((s d).packets.waiting.eraseIdx i)[j]? = some q) :
    ∃ t, (intercepted hooked).run s [.run d i, .run d j] = some t ∧
      (t d).reported = p.data ++ q.data ∧ (t d).stream = (s d).stream := by
  let first : Spawned Packet := ⟨(s d).packets.waiting.eraseIdx i, [p]⟩
  let u : Traffic := Function.update s d { s d with packets := first }
  have hfirst : (intercepted hooked).step s (.run d i) = some u := by
    simp only [intercepted, Spawned.pick, hp, hran, Option.map_some]
    rfl
  have hu : u d = { s d with packets := first } := Function.update_self ..
  let second : Spawned Packet := ⟨first.waiting.eraseIdx j, [p, q]⟩
  have hsecond : (intercepted hooked).step u (.run d j) =
      some (Function.update u d { s d with packets := second }) := by
    simp only [intercepted, Spawned.pick, hu, first, hq, Option.map_some]
    rfl
  refine ⟨_, (Machine.run_cons_eq_some _).mpr ⟨u, hfirst,
    (Machine.run_cons_eq_some _).mpr ⟨_, hsecond, rfl⟩⟩, ?_, ?_⟩
  · rw [Function.update_self]
    simp [Lane.reported, second]
  · rw [Function.update_self]

/-- Two goroutines that wait can run in either order, so their arrays commute if each order
reports what has passed. -/
theorem commute_of_picks (hooked : Direction → Bool) (hran : (s d).packets.ran = [])
    (h : ∀ i j t, (intercepted hooked).run s [.run d i, .run d j] = some t → InOrder t) :
    ((s d).packets.waiting.map Packet.data).Pairwise Commute := by
  refine List.pairwise_map.mpr (List.pairwise_iff_getElem.mpr fun i j hi hj hij => ?_)
  have hp := List.getElem?_eq_getElem hi
  have hq := List.getElem?_eq_getElem hj
  have hbehind : ((s d).packets.waiting.eraseIdx i)[j - 1]? = (s d).packets.waiting[j]? := by
    rw [List.getElem?_eraseIdx_of_ge (by omega), Nat.sub_add_cancel (by omega)]
  have hbefore : ((s d).packets.waiting.eraseIdx j)[i]? = (s d).packets.waiting[i]? :=
    List.getElem?_eraseIdx_of_lt hij
  obtain ⟨t, hrun, hreported, hstream⟩ := run_pair hooked hran hp (hbehind.trans hq)
  obtain ⟨t', hrun', hreported', hstream'⟩ := run_pair hooked hran hq (hbefore.trans hp)
  have hinOrder := h _ _ t hrun d
  have hinOrder' := h _ _ t' hrun' d
  rw [hreported, hstream] at hinOrder
  rw [hreported', hstream'] at hinOrder'
  refine List.IsPrefix.eq_of_length (List.prefix_of_prefix_length_le hinOrder hinOrder' ?_) ?_
  · rw [List.length_append, List.length_append, Nat.add_comm]
  · rw [List.length_append, List.length_append, Nat.add_comm]

/-- A sequence of `Read`s and `Write`s is reported in order by every schedule, wherever
goroutines run in between, exactly if in each direction that has a callback any two of the
arrays commute. -/
theorem every_schedule_inOrder_iff (hooked : Direction → Bool) (xs : List Transfer) :
    (∀ labels, transfers labels = xs → (intercepted hooked).Always InOrder untouched labels) ↔
      ∀ d, hooked d = true → (arrays d xs).Pairwise Commute := by
  constructor
  · intro h d hhook
    obtain ⟨s, hrun, hran⟩ := run_passes hooked xs untouched
    have hrecorded := eq_of_run (fun d k hk => by simp at hk) hrun d
    rw [transfers_map_pass] at hrecorded
    refine pairwise_filled.mp (hrecorded.carried hhook ▸ pairwise_filled.mpr ?_)
    rw [Lane.carried, Spawned.all, hran d, untouched, Spawned.none, List.nil_append]
    refine commute_of_picks hooked (hran d) fun i j t ht => ?_
    refine Machine.always_run _ (xs.map .pass ++ [.run d i, .run d j]) _ t (h _ ?_) ?_
    · rw [transfers, List.filterMap_append, ← transfers, transfers_map_pass]
      exact List.append_nil xs
    · rw [Machine.run_append, hrun]
      exact ht
  · rintro h labels rfl
    refine (Machine.always_iff_prefix _).mpr fun front t hfront hrun d => ?_
    have hrecorded := perm_of_run hrun d
    refine hrecorded.reported_prefix fun hhook => ?_
    have hpart : (arrays d (transfers front)).Sublist (arrays d (transfers labels)) :=
      ((transfers_isPrefix hfront).sublist.filter _).map _
    have hcommute : (filled (arrays d (transfers front))).Pairwise Commute :=
      pairwise_filled.mpr ((h d hhook).sublist hpart)
    exact (flatten_eq_of_perm (hrecorded.carried hhook).symm hcommute).symm

/-- `[1]` and `[1, 1]` commute. -/
theorem every_schedule_inOrder_commuting :
    (intercepted fun _ => true).Always InOrder untouched
      [.pass (.read ⟨[1], none⟩ 0), .pass (.write [5] ⟨1, none⟩ 0),
        .pass (.read ⟨[1, 1], none⟩ 0), .run .receive 1, .run .send 0, .run .receive 0] := by
  refine (every_schedule_inOrder_iff _ _).mpr (fun d _ => ?_) _ rfl
  cases d with
  | receive => exact List.pairwise_pair.mpr rfl
  | send => exact List.pairwise_singleton _ _

end Schedules

/-- The goroutine of the second `Read` runs first. -/
theorem overtaken : ¬ (intercepted fun _ => true).Always InOrder untouched
    [.pass (.read ⟨[1], none⟩ 0), .pass (.read ⟨[2], none⟩ 0), .run .receive 1] := by
  intro hall
  have hlast := (intercepted fun _ => true).always_run _ _ _ hall rfl .receive
  exact absurd hlast (by decide)

end SshClientWasm.Ssh.Interceptor
