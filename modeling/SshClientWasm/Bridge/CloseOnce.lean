import SshClientWasm.Bridge.Calls

/-!
# Closing once

`Close` sets the flag with the mutex held and does the rest without it. The call that sets
the flag is the only one to get behind it, so that the channel is closed and `onClose` is
called once; whoever comes later finds the flag and turns back.
-/
namespace SshClientWasm.Bridge

open Library

/-- A call of `Close` that has set the flag. -/
def Closer : Point → Prop
  | .closing | .announcing | .inOnClose | .closed _ => True
  | _ => False

/-- What it has done when it gets to a point. -/
def closingDone : Point → List Effect
  | .announcing | .closed none => [.closes .closeChan]
  | .inOnClose => [.closes .closeChan, .onClose]
  | .closed (some err) => [.closes .closeChan, .onClose, .onCloseReturned err]
  | _ => []

/-- A call of `Close`. -/
def Point.OfClose : Point → Prop
  | .called .close | .refused .close => True
  | p => Closer p

/-- What belongs to a closing. -/
def Effect.ofClosing : Effect → Bool
  | closes _ | onClose | onCloseReturned _ => true
  | _ => false

/-- The channel for data is sent on, and the other one is closed. -/
def Effect.OnItsChannel : Effect → Prop
  | sends ch _ => ch = .readChan
  | closes ch => ch = .closeChan
  | _ => True

variable {τ : Type*}

/-- All that belongs to a closing, with the calls that did it. -/
def closings (journal : List (τ × Effect)) : List (τ × Effect) :=
  journal.filter fun e => e.2.ofClosing

section Going

variable {f : Callbacks} {x x' : JSTransport} {p p' : Point} {es : List Effect} {m : Method}

/-- What a step has to do with closing: nothing, or it sets the flag, or the closer goes on. -/
inductive Closes (f : Callbacks) (x : JSTransport) (p : Point) (x' : JSTransport) (p' : Point)
    (es : List Effect) : Prop
  | aside (hshut : x'.shut = x.shut) (hes : es.filter (·.ofClosing) = []) (hp : ¬Closer p)
      (hp' : ¬Closer p') (hrefused : ∀ m, p' = .refused m → x.closed = true)
  | sets (hp : p = .called .close) (hclosed : x.closed = false)
      (hx : x' = { x with closed := true }) (hp' : p' = .closing) (hes : es = [])
  | goes (hp : Closer p) (hp' : Closer p' ∧ p' ≠ .closing)
      (hx : p = .closing ∧ x' = x.closeChan ∨ p ≠ .closing ∧ x' = x)
      (hdone : closingDone p' = closingDone p ++ es) (hes : es.filter (·.ofClosing) = es)
      (hclosed : p' = .closed none → f.onClose = false)

theorem Point.Going.closes (h : Going f x p x' p' es) : Closes f x p x' p' es := by
  cases h with
  | refused m h => exact .aside rfl rfl id id fun _ _ => h
  | closing h => exact .sets rfl h rfl rfl rfl
  | closesChan => exact .goes trivial ⟨trivial, by simp⟩ (Or.inl ⟨rfl, rfl⟩) rfl rfl (by simp)
  | onClose => exact .goes trivial ⟨trivial, by simp⟩ (Or.inr ⟨by simp, rfl⟩) rfl rfl (by simp)
  | noOnClose h =>
    exact .goes trivial ⟨trivial, by simp⟩ (Or.inr ⟨by simp, rfl⟩) rfl rfl fun _ => h
  | closed => exact .goes trivial ⟨trivial, by simp⟩ (Or.inr ⟨by simp, rfl⟩) rfl rfl (by simp)
  | _ => exact .aside rfl rfl id id (by simp)

theorem Point.Going.onItsChannel (h : Going f x p x' p' es) : ∀ e ∈ es, e.OnItsChannel := by
  cases h with
  | buffered | received | onWrite | injected | closesChan | onClose | closed =>
    intro e he
    rw [List.mem_singleton.mp he]
    trivial
  | _ => simp

theorem Point.Going.turnsBack (h : Going f x (.called m) x' p' es) (hclosed : x.closed = true) :
    x' = x ∧ p' = .refused m ∧ es = [] := by
  cases h with
  | refused => exact ⟨rfl, rfl, rfl⟩
  | reading _ h | writing _ h | injecting _ h | closing h =>
    rw [hclosed] at h
    cases h

theorem Point.Going.closed_mono (h : Going f x p x' p' es) (hclosed : x.closed = true) :
    x'.closed = true := by
  rcases h.closes with ⟨hshut, _⟩ | ⟨_, _, rfl, _⟩ | ⟨_, _, ⟨_, rfl⟩ | ⟨_, rfl⟩, _⟩
  · exact (congrArg Prod.fst hshut).trans hclosed
  · rfl
  · exact hclosed
  · exact hclosed

/-- A call that has done nothing, and does nothing if it finds the flag set. -/
def Point.Idle : Point → Prop
  | .idle | .called _ | .refused _ => True
  | _ => False

theorem Point.Going.idle (h : Going f x p x' p' es) (hidle : p'.Idle) : p.Idle ∧ es = [] := by
  cases h with
  | refused => exact ⟨trivial, rfl⟩
  | _ => exact hidle.elim

theorem Point.OfClose.advances {arm : Arm} {err : Option String} (hp : p.OfClose)
    (hreturned : p.returned = none) : p.advance f x arm err ≠ .blocks := by
  cases p with
  | called | announcing | inOnClose =>
    intro hblocks
    cases hblocks
  | closing =>
    intro hblocks
    simp only [advance] at hblocks
    split at hblocks <;> cases hblocks
  | refused | closed => cases hreturned
  | _ => exact hp.elim

theorem Point.OfClose.of_returned (hp : p.OfClose) (hreturned : p.returned ≠ none) :
    (∃ result, p = .closed result) ∨ p = .refused .close := by
  cases p with
  | closed result => exact Or.inl ⟨result, rfl⟩
  | refused m =>
    cases m with
    | close => exact Or.inr rfl
    | _ => exact hp.elim
  | called | closing | announcing | inOnClose => exact absurd rfl hreturned
  | _ => exact hp.elim

end Going

theorem closings_append [DecidableEq τ] (journal : List (τ × Effect)) (t : τ) (es : List Effect) :
    closings (journal ++ es.map (t, ·)) =
      closings journal ++ (es.filter (·.ofClosing)).map (t, ·) := by
  rw [closings, List.filter_append, List.filter_map]
  rfl

namespace Calls

variable [DecidableEq τ] {f : Callbacks} {s s' : Calls τ × List (τ × Effect)} {t : τ}

/-- The call is the closer, and the only one. -/
structure ClosedBy (f : Callbacks) (s : Calls τ × List (τ × Effect)) (t : τ) : Prop where
  closer : Closer (s.1.pc t)
  only : ∀ u, u ≠ t → ¬Closer (s.1.pc u)
  closings : closings s.2 = (closingDone (s.1.pc t)).map (t, ·)
  closeChan : s.1.transport.closeChanClosed = true ↔ s.1.pc t ≠ .closing
  onClose : s.1.pc t = .closed none → f.onClose = false

/-- What holds at every moment. -/
structure Sound (f : Callbacks) (s : Calls τ × List (τ × Effect)) : Prop where
  panicked : s.1.panicked = false
  channels : ∀ e ∈ s.2, e.2.OnItsChannel
  unset : s.1.transport.closed = false → s.1.transport.closeChanClosed = false ∧
    Bridge.closings s.2 = [] ∧ ∀ t, ¬Closer (s.1.pc t) ∧ ∀ m, s.1.pc t ≠ .refused m
  set : s.1.transport.closed = true → ∃ t, ClosedBy f s t
  late : ∀ t, s.1.late t = true → s.1.transport.closed = true ∧
    ∃ m, s.1.pc t = .called m ∨ s.1.pc t = .refused m
  idle : ∀ t, (s.1.pc t).Idle → entries t s.2 = []

theorem Sound.fresh (id : String) : Sound f ((Calls.fresh id, []) : Calls τ × List (τ × Effect)) where
  panicked := rfl
  channels := fun _ he => absurd he (by simp)
  unset := fun _ => ⟨rfl, rfl, fun _ => ⟨fun h => h, by simp [Calls.fresh]⟩⟩
  set := fun h => absurd h (by simp [Calls.fresh, JSTransport.new])
  late := fun _ h => absurd h (by simp [Calls.fresh])
  idle := fun _ _ => rfl

theorem ClosedBy.aside {u : τ} (h : ClosedBy f s u) (htu : t ≠ u) (hp : ¬Closer (s'.1.pc t))
    (hchan : s'.1.transport.closeChanClosed = s.1.transport.closeChanClosed)
    (hpc : ∀ v, v ≠ t → s'.1.pc v = s.1.pc v) (hclosings : Bridge.closings s'.2 = Bridge.closings s.2) :
    ClosedBy f s' u := by
  have hsame := hpc u htu.symm
  refine ⟨?_, fun v hvu => ?_, ?_, ?_, ?_⟩
  · rw [hsame]
    exact h.closer
  · by_cases hvt : v = t
    · rwa [hvt]
    · rw [hpc v hvt]
      exact h.only v hvu
  · rw [hsame, hclosings, h.closings]
  · rw [hsame, hchan, h.closeChan]
  · rw [hsame]
    exact h.onClose

theorem Sound.call (hs : Sound f s) {m : Method} (hidle : s.1.pc t = .idle) :
    Sound f
      ({ s.1 with
          pc := Function.update s.1.pc t (.called m)
          late := Function.update s.1.late t s.1.transport.closed }, s.2 ++ []) := by
  have hself : Function.update s.1.pc t (.called m) t = .called m := Function.update_self ..
  have hpc : ∀ v, v ≠ t → Function.update s.1.pc t (.called m) v = s.1.pc v :=
    fun v hv => Function.update_of_ne hv ..
  have hquiet : entries t s.2 = [] := by
    refine hs.idle t ?_
    rw [hidle]
    trivial
  rw [List.append_nil]
  refine ⟨hs.panicked, hs.channels, fun hunset => ?_, fun hset => ?_, fun u hu => ?_, fun u hu => ?_⟩
  · obtain ⟨hchan, hclosings, hnone⟩ := hs.unset hunset
    refine ⟨hchan, hclosings, ?_⟩
    exact (Function.forall_update_iff s.1.pc fun _ p => ¬Closer p ∧ ∀ m, p ≠ .refused m).mpr
      ⟨⟨fun h => h, by simp⟩, fun u _ => hnone u⟩
  · obtain ⟨u, hu⟩ := hs.set hset
    have htu : t ≠ u := by
      rintro rfl
      have hcloser := hu.closer
      rw [hidle] at hcloser
      exact hcloser
    refine ⟨u, hu.aside htu ?_ rfl hpc rfl⟩
    dsimp only
    rw [hself]
    exact fun h => h
  · dsimp only at hu ⊢
    by_cases hut : u = t
    · subst hut
      rw [Function.update_self] at hu
      exact ⟨hu, m, Or.inl hself⟩
    · rw [Function.update_of_ne hut] at hu
      rw [hpc u hut]
      exact hs.late u hu
  · by_cases hut : u = t
    · rw [hut]
      exact hquiet
    · dsimp only at hu
      rw [hpc u hut] at hu
      exact hs.idle u hu

section Go

variable {x : JSTransport} {p : Point} {es : List Effect}

/-- A call gets to a point, with what it does on the way. -/
abbrev gone (s : Calls τ × List (τ × Effect)) (t : τ) (x : JSTransport) (p : Point)
    (es : List Effect) : Calls τ × List (τ × Effect) :=
  ({ s.1 with transport := x, pc := Function.update s.1.pc t p }, s.2 ++ es.map (t, ·))

theorem gone_self : (gone s t x p es).1.pc t = p := Function.update_self ..

theorem gone_other {u : τ} (hut : u ≠ t) : (gone s t x p es).1.pc u = s.1.pc u :=
  Function.update_of_ne hut ..

theorem Sound.gone_channels (hs : Sound f s)
    (h : (s.1.pc t).Going f s.1.transport x p es) :
    ∀ e ∈ (gone s t x p es).2, e.2.OnItsChannel := by
  intro e he
  rcases List.mem_append.mp he with he | he
  · exact hs.channels e he
  · obtain ⟨e', he', rfl⟩ := List.mem_map.mp he
    exact h.onItsChannel e' he'

theorem Sound.gone_late (hs : Sound f s) (h : (s.1.pc t).Going f s.1.transport x p es) {u : τ}
    (hu : s.1.late u = true) : x.closed = true ∧
      ∃ m, (gone s t x p es).1.pc u = .called m ∨ (gone s t x p es).1.pc u = .refused m := by
  obtain ⟨hclosed, m, hm⟩ := hs.late u hu
  refine ⟨h.closed_mono hclosed, m, ?_⟩
  by_cases hut : u = t
  · subst hut
    rcases hm with hm | hm
    · rw [hm] at h
      rw [gone_self]
      exact Or.inr (h.turnsBack hclosed).2.1
    · rw [hm] at h
      cases h
  · rwa [gone_other hut]

theorem Sound.gone_idle (hs : Sound f s) (h : (s.1.pc t).Going f s.1.transport x p es) {u : τ}
    (hu : ((gone s t x p es).1.pc u).Idle) : entries u (gone s t x p es).2 = [] := by
  rw [entries_append]
  by_cases hut : u = t
  · subst hut
    rw [gone_self] at hu
    obtain ⟨hbefore, rfl⟩ := h.idle hu
    rw [hs.idle u hbefore, List.map_nil]
    rfl
  · rw [gone_other hut] at hu
    rw [hs.idle u hu, entries_other hut]
    rfl

theorem ClosedBy.sets (hopen : s.1.transport.closeChanClosed = false)
    (hempty : Bridge.closings s.2 = []) (hothers : ∀ u, ¬Closer (s.1.pc u)) :
    ClosedBy f (gone s t { s.1.transport with closed := true } .closing []) t := by
  refine ⟨?_, fun u hut => ?_, ?_, ?_, ?_⟩
  · rw [gone_self]
    trivial
  · rw [gone_other hut]
    exact hothers u
  · rw [gone_self, closings_append, hempty]
    rfl
  · rw [gone_self]
    exact iff_of_false (by simp [hopen]) (by simp)
  · rw [gone_self]
    exact fun h => absurd h (by simp)

theorem ClosedBy.goes (ht : ClosedBy f s t) (hp : Closer p) (hpast : p ≠ .closing)
    (hchan : x.closeChanClosed = true) (hdone : closingDone p = closingDone (s.1.pc t) ++ es)
    (hes : es.filter (·.ofClosing) = es) (hnone : p = .closed none → f.onClose = false) :
    ClosedBy f (gone s t x p es) t := by
  refine ⟨?_, fun u hut => ?_, ?_, ?_, ?_⟩
  · rwa [gone_self]
  · rw [gone_other hut]
    exact ht.only u hut
  · rw [gone_self, closings_append, ht.closings, hes, hdone, List.map_append]
  · rw [gone_self]
    exact iff_of_true hchan hpast
  · rwa [gone_self]

theorem Sound.closedBy (hs : Sound f s) (ht : Closer (s.1.pc t)) :
    s.1.transport.closed = true ∧ ClosedBy f s t := by
  have hclosed : s.1.transport.closed = true := by
    by_contra hunset
    exact ((hs.unset (by simpa using hunset)).2.2 t).1 ht
  obtain ⟨u, hu⟩ := hs.set hclosed
  obtain rfl : t = u := by
    by_contra htu
    exact hu.only t htu ht
  exact ⟨hclosed, hu⟩

theorem Sound.go (hs : Sound f s) (h : (s.1.pc t).Going f s.1.transport x p es) :
    Sound f (gone s t x p es) := by
  have hchannels := hs.gone_channels h
  have hlate := fun u => hs.gone_late h (u := u)
  have hidle := fun u => hs.gone_idle h (u := u)
  rcases h.closes with ⟨hshut, hes, hp, hp', hrefused⟩ | ⟨hp, hclosed, rfl, rfl, rfl⟩ |
    ⟨hp, hp', hx, hdone, hes, hnone⟩
  · obtain ⟨hclosed, hchan⟩ := Prod.mk.inj hshut
    have hclosings : Bridge.closings (gone s t x p es).2 = Bridge.closings s.2 := by
      rw [closings_append, hes, List.map_nil, List.append_nil]
    refine ⟨hs.panicked, hchannels, fun hunset => ?_, fun hset => ?_, hlate, hidle⟩
    · have hunset : s.1.transport.closed = false := hclosed.symm.trans hunset
      obtain ⟨hopen, hempty, hothers⟩ := hs.unset hunset
      refine ⟨hchan.trans hopen, hclosings.trans hempty, ?_⟩
      refine (Function.forall_update_iff s.1.pc fun _ p => ¬Closer p ∧ ∀ m, p ≠ .refused m).mpr
        ⟨⟨hp', fun m hm => ?_⟩, fun u _ => hothers u⟩
      rw [hrefused m hm] at hunset
      cases hunset
    · obtain ⟨u, hu⟩ := hs.set (hclosed.symm.trans hset)
      have htu : t ≠ u := by
        rintro rfl
        exact hp hu.closer
      refine ⟨u, hu.aside htu ?_ hchan (fun v hv => gone_other hv) hclosings⟩
      rwa [gone_self]
  · obtain ⟨hopen, hempty, hothers⟩ := hs.unset hclosed
    exact ⟨hs.panicked, hchannels, fun hunset => absurd hunset (by simp),
      fun _ => ⟨t, .sets hopen hempty fun u => (hothers u).1⟩, hlate, hidle⟩
  · obtain ⟨hclosed, ht⟩ := hs.closedBy hp
    have hset : x.closed = true := h.closed_mono hclosed
    have hchan : x.closeChanClosed = true := by
      rcases hx with ⟨_, rfl⟩ | ⟨hnot, rfl⟩
      · rfl
      · exact ht.closeChan.mpr hnot
    refine ⟨hs.panicked, hchannels, fun hunset => ?_,
      fun _ => ⟨t, ht.goes hp'.1 hp'.2 hchan hdone hes hnone⟩, hlate, hidle⟩
    rw [hset] at hunset
    cases hunset

end Go

theorem Sound.step {a : CallStep τ} (hs : Sound f s) (h : (journaling f).step s a = some s') :
    Sound f s' := by
  obtain ⟨hstep, hjournal⟩ := (machine f).recorded_step.mp h
  obtain ⟨s', journal⟩ := s'
  dsimp only at hstep hjournal
  subst hjournal
  cases step_stepped hstep with
  | called hidle => exact hs.call hidle
  | panics hadvance =>
    -- the call that is about to close the channel is the closer, and finds it open
    rename_i t arm err
    obtain ⟨hpc, hchan⟩ := Point.advance_panics hadvance
    have hcloser : Closer (s.1.pc t) := by
      rw [hpc]
      trivial
    exact absurd hpc ((hs.closedBy hcloser).2.closeChan.mp hchan)
  | goes hadvance => exact hs.go (Point.advance_going hadvance)

/-- What is asked of every moment. -/
structure ClosesOnce (f : Callbacks) (s : Calls τ × List (τ × Effect)) : Prop where
  panicked : s.1.panicked = false
  sends : ∀ front t ch data back, s.2 = front ++ (t, .sends ch data) :: back →
    ∀ u, (u, Effect.closes ch) ∉ front
  proceeds : ∀ t, (s.1.pc t).OfClose → (s.1.pc t).returned = none →
    ∀ arm err, ((journaling f).step s (.go t arm err)).isSome
  unset : s.1.transport.closed = false → Bridge.closings s.2 = []
  /-- One call does what belongs to the closing, and no other call of `Close` returns an error. -/
  set : s.1.transport.closed = true → ∃ t, Closer (s.1.pc t) ∧
    Bridge.closings s.2 = (closingDone (s.1.pc t)).map (t, ·) ∧
    ∀ u, u ≠ t → (s.1.pc u).OfClose → ∀ err, (s.1.pc u).returned = some err → err = none
  /-- All that belongs to it is done when all calls of `Close` have returned. -/
  finished : (∃ u, (s.1.pc u).OfClose) →
    (∀ u, (s.1.pc u).OfClose → (s.1.pc u).returned ≠ none) →
    ∃ t result, s.1.pc t = .closed result ∧ (f.onClose = true → result.isSome = true) ∧
      Bridge.closings s.2 = (closingDone (.closed result)).map (t, ·)
  /-- A call that comes when the flag is set does nothing, and its only step leads back. -/
  late : ∀ t, s.1.late t = true → entries t s.2 = [] ∧ ∃ m, s.1.pc t = .refused m ∨
    s.1.pc t = .called m ∧ ∀ arm err, (journaling f).step s (.go t arm err) =
      some ({ s.1 with pc := Function.update s.1.pc t (.refused m) }, s.2)

theorem Sound.sends (hs : Sound f s) {front back : List (τ × Effect)} {ch : Arm} {data : Bytes}
    (h : s.2 = front ++ (t, .sends ch data) :: back) (u : τ) : (u, Effect.closes ch) ∉ front := by
  intro hcloses
  have hsends := hs.channels (t, .sends ch data) (by simp [h])
  have hcloses := hs.channels (u, .closes ch) (by simp [h, hcloses])
  cases hsends.symm.trans hcloses

theorem Sound.proceeds (hs : Sound f s) (hpc : (s.1.pc t).OfClose)
    (hreturned : (s.1.pc t).returned = none) (arm : Arm) (err : Option String) :
    ((journaling f).step s (.go t arm err)).isSome := by
  simp only [Machine.recorded, machine, Option.isSome_map]
  rw [if_neg (by simp [hs.panicked])]
  split
  next h => exact absurd h (hpc.advances hreturned)
  · rfl
  · rfl

/-- Some `Close` has returned, so the flag is set. -/
theorem Sound.closed_of_returned (hs : Sound f s) (hpc : (s.1.pc t).OfClose)
    (hreturned : (s.1.pc t).returned ≠ none) : s.1.transport.closed = true := by
  by_contra hunset
  obtain ⟨_, _, hnone⟩ := hs.unset (by simpa using hunset)
  rcases hpc.of_returned hreturned with ⟨result, hclosed⟩ | hrefused
  · refine (hnone t).1 ?_
    rw [hclosed]
    trivial
  · exact (hnone t).2 .close hrefused

theorem Sound.finished (hs : Sound f s) (hpc : (s.1.pc t).OfClose)
    (hall : ∀ u, (s.1.pc u).OfClose → (s.1.pc u).returned ≠ none) :
    ∃ u result, s.1.pc u = .closed result ∧ (f.onClose = true → result.isSome = true) ∧
      Bridge.closings s.2 = (closingDone (.closed result)).map (u, ·) := by
  obtain ⟨u, hu⟩ := hs.set (hs.closed_of_returned hpc (hall t hpc))
  have hcloser := hu.closer
  obtain ⟨result, hclosed⟩ : ∃ result, s.1.pc u = .closed result := by
    cases hp : s.1.pc u with
    | closed result => exact ⟨result, rfl⟩
    | closing | announcing | inOnClose =>
      refine absurd ?_ (hall u ?_) <;> rw [hp]
      · rfl
      · trivial
    | _ =>
      rw [hp] at hcloser
      exact hcloser.elim
  refine ⟨u, result, hclosed, fun honClose => ?_, ?_⟩
  · cases result with
    | none =>
      have hnone := hu.onClose hclosed
      rw [honClose] at hnone
      cases hnone
    | some _ => rfl
  · rw [hu.closings, hclosed]

theorem Sound.late_step (hs : Sound f s) {m : Method} (hclosed : s.1.transport.closed = true)
    (hpc : s.1.pc t = .called m) (arm : Arm) (err : Option String) :
    (journaling f).step s (.go t arm err) =
      some ({ s.1 with pc := Function.update s.1.pc t (.refused m) }, s.2) := by
  have hadvance : (s.1.pc t).advance f s.1.transport arm err =
      .proceeds (s.1.transport, .refused m) := by
    rw [hpc, Point.advance, JSTransport.enter_closed hclosed]
  rw [(machine f).recorded_step]
  refine ⟨?_, ?_⟩
  · simp only [machine, hadvance]
    rw [if_neg (by simp [hs.panicked])]
  · rw [events, hpc]
    exact (List.append_nil s.2).symm

theorem Sound.closesOnce (hs : Sound f s) : ClosesOnce f s where
  panicked := hs.panicked
  sends := fun _ _ _ _ _ h => hs.sends h
  proceeds := fun _ hpc hreturned => hs.proceeds hpc hreturned
  unset := fun hunset => (hs.unset hunset).2.1
  set := by
    intro hset
    obtain ⟨t, ht⟩ := hs.set hset
    refine ⟨t, ht.closer, ht.closings, fun u hut hpc err herr => ?_⟩
    rcases hpc.of_returned (by simp [herr]) with ⟨result, hclosed⟩ | hrefused
    · refine absurd ?_ (ht.only u hut)
      rw [hclosed]
      trivial
    · rw [hrefused] at herr
      exact (Option.some.inj herr).symm
  finished := fun ⟨_, hpc⟩ hall => hs.finished hpc hall
  late := by
    intro t ht
    obtain ⟨hclosed, m, hm⟩ := hs.late t ht
    refine ⟨hs.idle t ?_, m, ?_⟩
    · rcases hm with hm | hm <;> rw [hm] <;> trivial
    · exact hm.symm.imp_right fun hpc => ⟨hpc, hs.late_step hclosed hpc⟩

/-- Whatever is called, and in whatever order the calls go on, the transport is closed once. -/
theorem closes_once (f : Callbacks) (id : String) (labels : List (CallStep τ))
    (h : (journaling f).run (fresh id, []) labels = some s) : ClosesOnce f s :=
  ((journaling f).run_invariant (fun _ _ _ hs hstep => Sound.step hs hstep) labels _ _
    (Sound.fresh id) h).closesOnce

/-- `Close` is called again in `onClose`, and a `Read` comes then. -/
def reentering : List (CallStep ℕ) :=
  [.call 0 .close, .go 0 .closeChan none, .go 0 .closeChan none, .go 0 .closeChan none,
    .call 1 .close, .go 1 .closeChan none, .call 2 (.read 8), .go 2 .readChan none,
    .go 0 .closeChan (some "failed")]

theorem closes_once_reentering :
    ∃ s, (journaling ⟨true, true⟩).run (fresh "t", []) reentering = some s ∧
      s.2 = [(0, .closes .closeChan), (0, .onClose), (0, .onCloseReturned (some "failed"))] ∧
      (s.1.pc 0).returned = some (some "failed") ∧ (s.1.pc 1).returned = some none ∧
      (s.1.pc 2).returned = some (some "EOF") ∧ ClosesOnce ⟨true, true⟩ s :=
  ⟨_, rfl, rfl, rfl, rfl, rfl, closes_once ⟨true, true⟩ "t" reentering rfl⟩

end Calls
end SshClientWasm.Bridge
