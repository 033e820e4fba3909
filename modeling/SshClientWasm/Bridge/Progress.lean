import SshClientWasm.Bridge.Calls
import SshClientWasm.Bridge.Inbound
import SshClientWasm.Bridge.Objects

/-!
# Whether `Read` makes progress

A chunk may be empty: nobody on the way from the socket to the channel looks at its length.
`Read` checks the length of its own buffer, and not that of a chunk from the channel, so
that an empty chunk makes it return no bytes and no error.
-/
namespace SshClientWasm.Bridge

open Library

/-- A `Read` with room that has returned without an error has returned something. -/
def Point.Progress : Point → Prop
  | .read len bytes none => 0 < len → bytes ≠ []
  | _ => True

/-- What a `Read` with room has returned. -/
def Point.Reads (r : Bytes × Option String) : Point → Prop
  | .read len bytes err => 0 < len ∧ r = (bytes, err)
  | .refused (.read len) => 0 < len ∧ r = ([], some "EOF")
  | _ => False

/-- A step with room finds no empty chunk at the front of the channel. -/
def Point.Fed (x : JSTransport) (arm : Arm) (p : Point) : Prop :=
  arm = .readChan → ∀ len, p = .selecting len → 0 < len → x.readChan.items.head? ≠ some []

section Going

variable {f : Callbacks} {x x' : JSTransport} {p p' : Point} {es : List Effect}

theorem Point.Going.progress (h : Going f x p x' p' es) (hp : ∀ len, p ≠ .selecting len) :
    p'.Progress := by
  cases h with
  | buffered len hbuffer =>
    intro hlen hempty
    exact (List.take_eq_nil_iff.mp hempty).elim hlen.ne' hbuffer
  | received len | ended len => exact absurd rfl (hp len)
  | _ => trivial

theorem Point.progress_iff_fed {arm : Arm} {err : Option String}
    (h : p.advance f x arm err = .proceeds (x', p')) : p'.Progress ↔ p.Fed x arm := by
  by_cases hp : ∃ len, p = .selecting len
  · obtain ⟨len, rfl⟩ := hp
    cases arm with
    | closeChan =>
      simp only [advance, JSTransport.select] at h
      split at h
      next hended =>
        obtain ⟨_, hread⟩ := Option.ite_none_right_eq_some.mp hended
        cases hread
        cases h
        exact iff_of_true trivial fun harm => absurd harm (by decide)
      · cases h
    | readChan =>
      simp only [advance, JSTransport.select] at h
      split at h
      next hreceived =>
        obtain ⟨⟨data, rest⟩, hrecv, hread⟩ := Option.map_eq_some_iff.mp hreceived
        cases hread
        cases h
        have hitems := BoundedQueue.recv_eq_some hrecv
        simp only [Progress, Fed, hitems, List.head?_cons, Point.selecting.injEq, forall_eq']
        rw [ne_eq, List.take_eq_nil_iff, ne_eq, Option.some.injEq]
        constructor
        · exact fun hprogress _ hlen hdata => hprogress hlen (Or.inr hdata)
        · exact fun hfed hlen hempty => hempty.elim hlen.ne' (hfed trivial hlen)
      · cases h
  · rw [not_exists] at hp
    exact iff_of_true ((advance_going h).progress hp) fun _ len hlen => absurd hlen (hp len)

/-- A call does not bring an empty chunk to the channel. -/
def Point.Carries (p : Point) : Prop := p ≠ .called (.injectData []) ∧ p ≠ .injecting []

theorem Point.Going.carries (h : Going f x p x' p' es) (hx : ∀ data ∈ x.readChan.items, data ≠ [])
    (hp : p.Carries) : (∀ data ∈ x'.readChan.items, data ≠ []) ∧ p'.Carries := by
  cases h with
  | injecting data =>
    refine ⟨hx, by simp, fun hdata => hp.1 ?_⟩
    rw [Point.injecting.inj hdata]
  | received len hrecv =>
    refine ⟨fun data hdata => hx data ?_, by simp, by simp⟩
    rw [BoundedQueue.recv_eq_some hrecv]
    exact List.mem_cons_of_mem _ hdata
  | injected data hsend =>
    refine ⟨fun data' hdata' => ?_, by simp, by simp⟩
    rw [(BoundedQueue.trySend_eq_some hsend).2] at hdata'
    rcases List.mem_append.mp hdata' with hbefore | hlast
    · exact hx data' hbefore
    · rintro rfl
      rw [← List.mem_singleton.mp hlast] at hp
      exact hp.2 rfl
  | _ => exact ⟨hx, by simp, by simp⟩

end Going

/-- What `fill` of a buffered reader comes to. -/
inductive Filled
  | waits
  | returned (bytes : Bytes) (err : Option String)
  /-- "multiple Read calls return no data or error" -/
  | errNoProgress
  deriving DecidableEq, Repr

/-- The loop of `fill` over what the `Read` calls return. -/
def fillFrom : ℕ → List (Bytes × Option String) → Filled
  | 0, _ => .errNoProgress
  | _ + 1, [] => .waits
  | i + 1, (bytes, err) :: results =>
    if bytes = [] ∧ err = none then fillFrom i results else .returned bytes err

/-- `bufio.Reader.fill`, with `maxConsecutiveEmptyReads`. -/
def fill (results : List (Bytes × Option String)) : Filled := fillFrom 100 results

/-- The loop gives up exactly after as many results with nothing in them. -/
theorem fillFrom_eq_errNoProgress (i : ℕ) (results : List (Bytes × Option String)) :
    fillFrom i results = .errNoProgress ↔ results.take i = List.replicate i ([], none) := by
  induction i generalizing results with
  | zero => simp [fillFrom]
  | succ i ih =>
    cases results with
    | nil => simp [fillFrom, List.replicate_succ]
    | cons r results =>
      obtain ⟨bytes, err⟩ := r
      rw [fillFrom, List.take_succ_cons, List.replicate_succ, List.cons.injEq, Prod.mk.injEq, ← ih]
      split_ifs with hempty
      · simp [hempty]
      · simp [hempty]

theorem fill_ne_errNoProgress {results : List (Bytes × Option String)}
    (h : ∀ r ∈ results, r.2 = none → r.1 ≠ []) : fill results ≠ .errNoProgress := by
  intro hfill
  rw [fill, fillFrom_eq_errNoProgress] at hfill
  have hmem : (([], none) : Bytes × Option String) ∈ results.take 100 := by
    rw [hfill]
    exact List.mem_replicate.mpr ⟨by simp, rfl⟩
  exact h _ (List.mem_of_mem_take hmem) rfl rfl

namespace Calls

variable {τ : Type*} {f : Callbacks} {s s' : Calls τ}

/-- Every `Read` with room that has returned without an error has returned something. -/
def Progress (s : Calls τ) : Prop := ∀ t, (s.pc t).Progress

/-- A step does not take an empty chunk off the channel for a `Read` with room. -/
def Fed (s : Calls τ) : CallStep τ → Prop
  | .call _ _ => True
  | .go t arm _ => (s.pc t).Fed s.transport arm

theorem Progress.of_reads (hs : Progress s) {t : τ} {r : Bytes × Option String}
    (hr : (s.pc t).Reads r) (herr : r.2 = none) : r.1 ≠ [] := by
  have hpoint := hs t
  cases hpc : s.pc t with
  | read len bytes err =>
    rw [hpc] at hr hpoint
    obtain ⟨hlen, rfl⟩ := hr
    cases herr
    exact hpoint hlen
  | refused m =>
    rw [hpc] at hr
    cases m with
    | read len =>
      obtain ⟨_, rfl⟩ := hr
      cases herr
    | _ => exact hr.elim
  | _ =>
    rw [hpc] at hr
    exact hr.elim

/-- No empty chunk is in the channel or on the way there. -/
structure NoneEmpty (s : Calls τ) : Prop where
  items : ∀ data ∈ s.transport.readChan.items, data ≠ []
  calls : ∀ t, (s.pc t).Carries

theorem NoneEmpty.fed (hs : NoneEmpty s) (a : CallStep τ) : Fed s a := by
  cases a with
  | call t m => trivial
  | go t arm err =>
    intro _ len _ _ hempty
    exact hs.items [] (List.mem_of_mem_head? hempty) rfl

variable [DecidableEq τ]

theorem Progress.step_iff {a : CallStep τ} (hs : Progress s)
    (h : (machine f).step s a = some s') : Progress s' ↔ Fed s a := by
  cases step_stepped h with
  | called =>
    exact iff_of_true ((Function.forall_update_iff s.pc fun _ p => p.Progress).mpr
      ⟨trivial, fun u _ => hs u⟩) trivial
  | panics hadvance =>
    refine iff_of_true hs fun _ len hlen => ?_
    rw [(Point.advance_panics hadvance).1] at hlen
    cases hlen
  | goes hadvance =>
    rw [Fed, ← Point.progress_iff_fed hadvance]
    constructor
    · exact fun hs' => ((Function.forall_update_iff s.pc fun _ p => p.Progress).mp hs').1
    · exact fun hp => (Function.forall_update_iff s.pc fun _ p => p.Progress).mpr
        ⟨hp, fun u _ => hs u⟩

/-- `Read` makes progress in all states of a run exactly if no `Read` with room takes an empty
chunk off the channel; a buffered reader over it never gives up then. -/
theorem reads_progress_iff (f : Callbacks) (id : String) (labels : List (CallStep τ))
    (h : (machine f).run (fresh id) labels = some s) :
    ((machine f).Always Progress (fresh id) labels ↔ (machine f).Admits Fed (fresh id) labels) ∧
      ((machine f).Admits Fed (fresh id) labels →
        ∀ results : List (Bytes × Option String),
          (∀ r ∈ results, ∃ t, (s.pc t).Reads r) → fill results ≠ .errNoProgress) := by
  have hfresh : Progress (fresh id : Calls τ) := fun _ => trivial
  have hiff : (machine f).Always Progress (fresh id) labels ↔
      (machine f).Admits Fed (fresh id) labels :=
    (machine f).always_iff_admits (I := fun _ => True) (fun _ _ _ _ _ => trivial)
      (fun _ _ _ _ hs hstep => hs.step_iff hstep) labels _ s trivial hfresh h
  refine ⟨hiff, fun hfed results hresults => ?_⟩
  have hs : Progress s := (machine f).always_run labels _ s (hiff.mpr hfed) h
  refine fill_ne_errNoProgress fun r hr => ?_
  obtain ⟨t, ht⟩ := hresults r hr
  exact hs.of_reads ht

/-- Two reads of one chunk. -/
def readingTwice : List (CallStep ℕ) :=
  [.call 0 (.injectData [1, 2, 3]), .go 0 .readChan none, .go 0 .readChan none,
    .call 1 (.read 2), .go 1 .readChan none, .go 1 .readChan none, .go 1 .readChan none,
    .call 2 (.read 2), .go 2 .readChan none, .go 2 .readChan none]

theorem reads_progress_iff_readingTwice :
    ∃ s, (machine ⟨true, true⟩).run (fresh "t") readingTwice = some s ∧
      s.pc 1 = .read 2 [1, 2] none ∧ s.pc 2 = .read 2 [3] none ∧
      ((machine ⟨true, true⟩).Always Progress (fresh "t") readingTwice ↔
        (machine ⟨true, true⟩).Admits Fed (fresh "t") readingTwice) :=
  ⟨_, rfl, rfl, rfl, (reads_progress_iff ⟨true, true⟩ "t" readingTwice rfl).1⟩

/-- An empty chunk is injected and read. -/
def starvingRound (k : ℕ) : List (CallStep ℕ) :=
  [.call (2 * k) (.injectData []), .go (2 * k) .readChan none, .go (2 * k) .readChan none,
    .call (2 * k + 1) (.read 4096), .go (2 * k + 1) .readChan none,
    .go (2 * k + 1) .readChan none, .go (2 * k + 1) .readChan none]

def starving : ℕ → List (CallStep ℕ)
  | 0 => []
  | k + 1 => starving k ++ starvingRound k

/-- The reads of so many rounds have returned nothing. -/
structure Starved (k : ℕ) (s : Calls ℕ) : Prop where
  panicked : s.panicked = false
  transport : s.transport = .new "t"
  idle : ∀ t, 2 * k ≤ t → s.pc t = .idle
  nothing : ∀ i < k, s.pc (2 * i + 1) = .read 4096 [] none

theorem Starved.round {k : ℕ} {s : Calls ℕ} (hs : Starved k s) :
    ∃ s', (machine f).run s (starvingRound k) = some s' ∧ Starved (k + 1) s' := by
  obtain ⟨transport, pc, late, panicked⟩ := s
  obtain ⟨rfl, rfl, hidle, hnothing⟩ := hs
  dsimp only at hidle hnothing
  have hinject := hidle (2 * k) le_rfl
  have hread := hidle (2 * k + 1) (by omega)
  refine ⟨⟨.new "t",
    Function.update (Function.update pc (2 * k) (.injected [] none)) (2 * k + 1)
      (.read 4096 [] none),
    Function.update (Function.update late (2 * k) false) (2 * k + 1) false, false⟩, ?_, ?_⟩
  · simp [starvingRound, Machine.run, machine, hinject, hread, Point.advance, JSTransport.enter,
      JSTransport.check, JSTransport.new, JSTransport.injectUnlocked, JSTransport.select,
      BoundedQueue.trySend, BoundedQueue.recv, BoundedQueue.empty]
  · refine ⟨rfl, rfl, fun t ht => ?_, fun i hi => ?_⟩
    · dsimp only
      rw [Function.update_of_ne (by omega), Function.update_of_ne (by omega)]
      exact hidle t (by omega)
    · dsimp only
      by_cases hik : i = k
      · rw [hik, Function.update_self]
      · rw [Function.update_of_ne (by omega), Function.update_of_ne (by omega)]
        exact hnothing i (by omega)

theorem starved (f : Callbacks) (k : ℕ) :
    ∃ s, (machine f).run (fresh "t") (starving k) = some s ∧ Starved k s := by
  induction k with
  | zero => exact ⟨fresh "t", rfl, rfl, rfl, fun _ _ => rfl, by simp⟩
  | succ k ih =>
    obtain ⟨s, hrun, hs⟩ := ih
    obtain ⟨s', hround, hs'⟩ := hs.round (f := f)
    refine ⟨s', ?_, hs'⟩
    rw [starving, Machine.run_append, hrun, Option.bind_some, hround]

/-- An empty message of a WebSocket is put into the channel as an empty chunk, and after 100 of
them a buffered reader gives up. -/
theorem starving_errNoProgress :
    ((WebSocketTransport.mk (some 0) [.open]).event (.message 0 (some []))).bind (·.data) =
        some [] ∧
      ((onData (Wasm.empty.createTransport "t") "t" []).getTransport "t").map
        (fun p => p.2.readChan.items) = some [[]] ∧
      ∃ s, (machine ⟨true, true⟩).run (fresh "t") (starving 100) = some s ∧
        ¬Progress s ∧ (∀ i < 100, (s.pc (2 * i + 1)).Reads ([], none)) ∧
        fill (List.replicate 100 ([], none)) = .errNoProgress := by
  obtain ⟨s, hrun, hs⟩ := starved ⟨true, true⟩ 100
  refine ⟨rfl, rfl, s, hrun, fun hprogress => ?_, fun i hi => ?_, ?_⟩
  · have hpoint := hprogress (2 * 0 + 1)
    rw [hs.nothing 0 (by decide)] at hpoint
    exact hpoint (by decide) rfl
  · rw [hs.nothing i hi]
    exact ⟨by decide, rfl⟩
  · rw [fill, fillFrom_eq_errNoProgress]
    rfl

theorem NoneEmpty.step {a : CallStep τ} (hs : NoneEmpty s) (ha : ∀ t, a ≠ .call t (.injectData []))
    (h : (machine f).step s a = some s') : NoneEmpty s' := by
  cases step_stepped h with
  | @called t m =>
    have hm : (Point.called m).Carries := ⟨fun hm => ha t (by rw [Point.called.inj hm]), by simp⟩
    exact ⟨hs.items, (Function.forall_update_iff s.pc fun _ p => p.Carries).mpr
      ⟨hm, fun u _ => hs.calls u⟩⟩
  | panics => exact ⟨hs.items, hs.calls⟩
  | goes hadvance =>
    obtain ⟨hitems, hp⟩ := (Point.advance_going hadvance).carries hs.items (hs.calls _)
    exact ⟨hitems, (Function.forall_update_iff s.pc fun _ p => p.Carries).mpr
      ⟨hp, fun u _ => hs.calls u⟩⟩

theorem fed_of_none_empty (f : Callbacks) (id : String) (labels : List (CallStep τ))
    (h : ∀ t, .call t (.injectData []) ∉ labels) :
    (machine f).Admits Fed (fresh id) labels := by
  have hfresh : NoneEmpty (fresh id : Calls τ) := ⟨fun _ hdata => absurd hdata (by simp [fresh,
    JSTransport.new, BoundedQueue.empty]), fun _ => ⟨by simp [fresh], by simp [fresh]⟩⟩
  refine (machine f).admits_of_invariant (p := fun a => ∀ t, a ≠ .call t (.injectData []))
    (fun _ _ _ hs ha hstep => hs.step ha hstep) (fun _ a hs => hs.fed a) labels _ hfresh ?_
  rintro a ha t rfl
  exact h t ha

end Calls
end SshClientWasm.Bridge
