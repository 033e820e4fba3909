import SshClientWasm.React.Quiescence

/-!
# In what state the connection comes to rest

Every report but "connected" makes the hook show 'connecting', also those of a `Disconnect`.
A pending `disconnect()` sets that right when it settles. The cleanup disconnects the session
once more, with nothing behind it.
-/
namespace SshClientWasm.React

open Library

variable {w w' : World} {a : Event} {i : ℕ} {c c' : Call} {p : Call → Bool}

/-- A `disconnect()` for a session is pending, which will leave no session and 'disconnected'. -/
def World.Covered (w : World) : Prop := w.calls.any Call.covers = true

def World.Connecting (w : World) : Prop := w.calls.any Call.connects = true

instance (w : World) : Decidable w.Covered := inferInstanceAs (Decidable (_ = _))

instance (w : World) : Decidable w.Connecting := inferInstanceAs (Decidable (_ = _))

/-- What is asked of a state. -/
structure Right (w : World) : Prop where
  shut : Quiescent w → w.down = true → w.rendered.Shut
  connecting : Settled w → w.rendered.connectionState = .connecting → w.Connecting

/-- A step does not leave behind what no call sets right. -/
def Guard (w : World) : Event → Prop
  | .report _ _ => w.Covered ∨ w.down = false ∧ w.Connecting
  | .settle i _ => (w.calls[i]?).any Call.connects = true → w.Covered ∨ w.down = false
  | .disconnect none => w.Covered ∨ w.hook.Shut
  | _ => True

instance : ∀ (w : World) (a : Event), Decidable (Guard w a)
  | _, .report _ _ => inferInstanceAs (Decidable (_ ∨ _ ∧ _))
  | _, .settle _ _ => inferInstanceAs (Decidable (_ → _ ∨ _))
  | _, .disconnect none => inferInstanceAs (Decidable (_ ∨ _))
  | _, .disconnect (some _) | _, .connect | _, .sessionDisconnect _ | _, .commit | _, .flush =>
    inferInstanceAs (Decidable True)

/-- What steps within the guard keep. -/
structure Inv (w : World) : Prop where
  connecting : w.hook.connectionState = .connecting → w.Covered ∨ w.Connecting
  down : w.down = true → w.Covered ∨ w.hook.Shut

section Calls

theorem any_set {calls : List Call} (hc : calls[i]? = some c) (hp : p c' = p c) :
    (calls.set i c').any p = calls.any p := by
  induction calls generalizing i with
  | nil => rfl
  | cons d calls ih =>
    cases i with
    | zero =>
      cases hc
      rw [List.set_cons_zero, List.any_cons, List.any_cons, hp]
    | succ i => rw [List.set_cons_succ, List.any_cons, List.any_cons, ih hc]

theorem any_of_getElem? (hc : w.calls[i]? = some c) (hp : p c = true) : w.calls.any p = true :=
  List.any_eq_true.mpr ⟨c, List.mem_of_getElem? hc, hp⟩

theorem any_sessionDisconnect (hp : p (Call.disconnect none []) = false) :
    w.sessionDisconnect.calls.any p = w.calls.any p := by
  rw [World.sessionDisconnect, List.any_append, List.any_cons, hp]
  exact Bool.or_false _

theorem any_report {state : String} (hc : w.calls[i]? = some c)
    (hp : p (c.reporting state) = p c) : (w.report i c state).calls.any p = w.calls.any p :=
  any_set hc hp

theorem any_settle {result : Except String Unit} (hc : w.calls[i]? = some c)
    (hp : p .settled = p c) : (w.settle i c result).calls.any p = w.calls.any p :=
  any_set hc hp

theorem any_flush (hp : p (Call.disconnect none []) = false) :
    w.flush.calls.any p = w.calls.any p := by
  unfold World.flush
  dsimp only
  split
  · exact any_sessionDisconnect hp
  · rfl

end Calls

theorem Inv.keep (hw : Inv w) (hhook : w'.hook = w.hook) (hdown : w'.down = w.down)
    (hcovered : w.Covered → w'.Covered) (hconnecting : w.Connecting → w'.Connecting) : Inv w' := by
  refine ⟨fun hstate => ?_, fun hdown' => ?_⟩
  · rw [hhook] at hstate
    exact (hw.connecting hstate).imp hcovered hconnecting
  · rw [hdown] at hdown'
    rw [hhook]
    exact (hw.down hdown').imp_left hcovered

theorem Inv.of_pending (h : w.Covered ∨ w.down = false ∧ w.Connecting) : Inv w := by
  rcases h with hcovered | ⟨hup, hconnecting⟩
  · exact ⟨fun _ => Or.inl hcovered, fun _ => Or.inl hcovered⟩
  · refine ⟨fun _ => Or.inr hconnecting, fun hdown => ?_⟩
    rw [hup] at hdown
    cases hdown

theorem Inv.settle {result : Except String Unit} (hw : Inv w) (hc : w.calls[i]? = some c)
    (hguard : Guard w (.settle i result)) (h : c.MaySettle result) :
    Inv (w.settle i c result) := by
  cases c with
  | connect reported =>
    have hcovered : w.Covered → (w.settle i (.connect reported) result).Covered := by
      intro hcovered
      exact (any_settle hc rfl).trans hcovered
    have hstate : (w.settle i (.connect reported) result).hook.connectionState ≠ .connecting := by
      cases result <;> exact fun h => (nomatch h)
    refine ⟨fun hconnecting => absurd hconnecting hstate, fun hdown => ?_⟩
    rcases hguard (by rw [hc]; rfl) with hbefore | hup
    · exact Or.inl (hcovered hbefore)
    · have hsame : (w.settle i (.connect reported) result).down = w.down := by
        cases result <;> rfl
      rw [hsame, hup] at hdown
      cases hdown
  | disconnect byHook reported =>
    cases result with
    | error => exact h.elim
    | ok =>
      cases byHook with
      | some n => exact ⟨fun h => (nomatch h), fun _ => Or.inr ⟨rfl, rfl⟩⟩
      | none =>
        exact hw.keep rfl rfl (any_settle hc rfl).trans (any_settle hc rfl).trans
  | settled => cases result <;> exact h.elim

theorem Inv.step (hw : Inv w) (hguard : Guard w a) (h : machine.step w a = some w') :
    Inv w' := by
  cases step_stepped h with
  | connect =>
    have hconnecting : w.connect.Connecting := by
      simp [World.connect, World.Connecting, Call.connects]
    exact .of_pending (Or.inr ⟨rfl, hconnecting⟩)
  | disconnect session =>
    cases session with
    | none => exact ⟨hw.connecting, fun _ => hguard⟩
    | some session =>
      have hcovered : (w.disconnect (some session)).Covered := by
        simp [World.disconnect, World.Covered, Call.covers]
      exact .of_pending (Or.inl hcovered)
  | sessionDisconnect =>
    exact hw.keep rfl rfl (any_sessionDisconnect rfl).trans (any_sessionDisconnect rfl).trans
  | @report i c state hc =>
    have hcovers : w.Covered → (w.report i c state).Covered :=
      (any_report hc Call.covers_reporting).trans
    have hconnects : w.Connecting → (w.report i c state).Connecting :=
      (any_report hc Call.connects_reporting).trans
    exact .of_pending (hguard.imp hcovers (And.imp_right hconnects))
  | settle hc hsettle => exact hw.settle hc hguard hsettle
  | commit => exact hw.keep rfl rfl id id
  | flush => exact hw.keep rfl rfl (any_flush rfl).trans (any_flush rfl).trans

/-- A report makes the hook show anything but 'disconnected', and a `Disconnect` reports nothing
but what makes it show 'connecting'. -/
theorem report_state {state : String} (h : c.MayReport state) :
    ¬(w.report i c state).hook.Shut ∧
      (c.connects = false → (w.report i c state).hook.connectionState = .connecting) := by
  by_cases hstate : state = "connected"
  · refine ⟨fun hshut => ?_, fun hconnects => ?_⟩
    · have hshown := hshut.2
      rw [World.report, Hook.onStateChange, if_pos hstate] at hshown
      cases hshown
    · cases c with
      | connect => cases hconnects
      | disconnect byHook reported =>
        have hmem : state ∈ ["disconnecting", "disconnected"] := h.subset (by simp)
        rw [hstate] at hmem
        exact absurd hmem (by decide)
      | settled => exact h.elim
  · have hshown : (w.report i c state).hook.connectionState = .connecting := if_neg hstate
    exact ⟨fun hshut => (nomatch hshown.symm.trans hshut.2), fun _ => hshown⟩

theorem Inv.guard_settle {result : Except String Unit} (hc : w.calls[i]? = some c)
    (hw' : Inv (w.settle i c result)) : Guard w (.settle i result) := by
  intro hconnects
  rw [hc] at hconnects
  cases c with
  | connect reported =>
    have hdown : (w.settle i (.connect reported) result).down = w.down := by
      cases result <;> rfl
    have hshut : ¬(w.settle i (.connect reported) result).hook.Shut := by
      cases result <;> exact fun h => (nomatch h.2)
    by_cases hup : w.down = false
    · exact Or.inr hup
    · have hcovered := (hw'.down (by simpa [hdown] using hup)).resolve_right hshut
      exact Or.inl ((any_settle hc rfl).symm.trans hcovered)
  | disconnect | settled => cases hconnects

theorem Inv.guard (hw' : Inv w') (h : machine.step w a = some w') : Guard w a := by
  cases step_stepped h with
  | @report i c state hc hreport =>
    obtain ⟨hshut, hshown⟩ := report_state (w := w) (i := i) hreport
    by_cases hcovered : w.Covered
    · exact Or.inl hcovered
    have hnot : ¬(w.report i c state).Covered := by
      rwa [World.Covered, any_report hc Call.covers_reporting]
    refine Or.inr ⟨?_, ?_⟩
    · by_contra hdown
      have hdown' : (w.report i c state).down = true := eq_true_of_ne_false hdown
      exact (hw'.down hdown').elim hnot hshut
    · cases hconnects : c.connects with
      | true => exact any_of_getElem? hc hconnects
      | false =>
        have hconnecting := (hw'.connecting (hshown hconnects)).resolve_left hnot
        exact (any_report hc Call.connects_reporting).symm.trans hconnecting
  | settle hc => exact hw'.guard_settle hc
  | disconnect session =>
    cases session with
    | none => exact hw'.down rfl
    | some => trivial
  | _ => trivial

theorem Inv.before (hw' : Inv w') (ha : ¬a.IsCall) (h : machine.step w a = some w') : Inv w := by
  have hguard := hw'.guard h
  cases step_stepped h with
  | connect | disconnect => exact absurd trivial ha
  | sessionDisconnect =>
    exact hw'.keep rfl rfl (any_sessionDisconnect rfl).symm.trans
      (any_sessionDisconnect rfl).symm.trans
  | report => exact .of_pending hguard
  | @settle i c result hc hsettle =>
    cases c with
    | connect reported =>
      have hconnecting : w.Connecting := any_of_getElem? hc rfl
      exact .of_pending ((hguard (by rw [hc]; rfl)).imp_right (⟨·, hconnecting⟩))
    | disconnect byHook reported =>
      cases byHook with
      | some n =>
        have hcovered : w.Covered := any_of_getElem? hc rfl
        exact .of_pending (Or.inl hcovered)
      | none =>
        cases result with
        | error => exact hsettle.elim
        | ok =>
          exact hw'.keep rfl rfl (any_settle hc rfl).symm.trans (any_settle hc rfl).symm.trans
    | settled => cases result <;> exact hsettle.elim
  | commit => exact hw'.keep rfl rfl (fun h => h) (fun h => h)
  | flush => exact hw'.keep rfl rfl (any_flush rfl).symm.trans (any_flush rfl).symm.trans

theorem Settled.not_covered (hw : Settled w) : ¬w.Covered := by
  intro hcovered
  obtain ⟨c, hc, hcovers⟩ := List.any_eq_true.mp hcovered
  rcases hw.calls c hc with rfl | hconnects
  · cases hcovers
  · cases c with
    | connect => cases hcovers
    | disconnect | settled => cases hconnects

theorem Inv.right (hw : Inv w) : Right w := by
  refine ⟨fun hquiet hdown => ?_, fun hquiet hstate => ?_⟩
  · rw [hquiet.rendered]
    exact (hw.down hdown).resolve_left hquiet.settled.not_covered
  · rw [hquiet.rendered] at hstate
    exact (hw.connecting hstate).resolve_left hquiet.not_covered

theorem Right.inv (hw : Right w) (hquiet : Quiescent w) : Inv w := by
  refine ⟨fun hstate => Or.inr ?_, fun hdown => Or.inr ?_⟩
  · rw [← hquiet.rendered] at hstate
    exact hw.connecting hquiet.settled hstate
  · rw [← hquiet.rendered]
    exact hw.shut hquiet hdown

/-- Nothing but a call sets right what has gone wrong. -/
theorem Inv.of_leads (hw' : Inv w') (h : Leads w w') : Inv w := by
  obtain ⟨rest, hcalls, hrun⟩ := h
  induction rest generalizing w with
  | nil =>
    cases hrun
    exact hw'
  | cons a rest ih =>
    obtain ⟨ha, hrest⟩ := List.forall_mem_cons.mp hcalls
    obtain ⟨u, hu, hrun⟩ := machine.run_cons_eq_some.mp hrun
    exact (ih hrest hrun).before ha hu

theorem Inv.start : Inv .start := ⟨fun h => (nomatch h), fun h => (nomatch h)⟩

theorem always_inv_iff {events : List Event} (h : machine.run .start events = some w) :
    machine.Always Inv .start events ↔ machine.Admits Guard .start events :=
  machine.always_iff_admits (I := fun _ => True) (fun _ _ _ _ _ => trivial)
    (fun _ _ _ _ hw hstep => ⟨fun hw' => hw'.guard hstep, fun hguard => hw.step hguard hstep⟩)
    events .start w trivial .start h

/-- In a run within the guard the hook is right whenever it comes to rest. In a run out of it
there is a point from which it comes to rest without another call, and is wrong then. -/
theorem settles_right (events : List Event) (h : machine.run .start events = some w) :
    (machine.Admits Guard .start events → machine.Always Right .start events) ∧
      (¬machine.Admits Guard .start events →
        ∃ front u, front <+: events ∧ machine.run .start front = some u ∧
          (∃ v, Leads u v ∧ Quiescent v) ∧ ∀ v, Leads u v → Quiescent v → ¬Right v) := by
  refine ⟨fun hadm => ?_, fun hadm => ?_⟩
  · exact machine.always_of_admits (fun _ => Inv.right) (fun _ _ _ hw hguard => hw.step hguard)
      events .start .start hadm
  · rw [← always_inv_iff h, machine.always_iff_prefix] at hadm
    simp only [not_forall] at hadm
    obtain ⟨front, u, hfront, hu, hwrong⟩ := hadm
    have hvalid : ∀ c ∈ u.calls, c.Valid :=
      machine.run_invariant (I := fun w => ∀ c ∈ w.calls, c.Valid)
        (fun _ _ _ hw hstep => valid_step hw hstep) front .start u (by simp [World.start]) hu
    refine ⟨front, u, hfront, hu, leads_quiescent hvalid, fun v hv hquiet hright => ?_⟩
    exact hwrong ((hright.inv hquiet).of_leads hv)

/-- A session is connected, and `disconnect()` is called twice; the one is pending when the
cleanup behind the other disconnects the session again. -/
def disconnectingTwice : List Event :=
  [.connect, .report 0 "connecting", .report 0 "connected", .settle 0 (.ok ()), .commit, .flush,
    .disconnect (some 0), .disconnect (some 0), .report 1 "disconnecting",
    .report 1 "disconnected", .report 2 "disconnecting", .report 2 "disconnected",
    .settle 1 (.ok ()), .commit, .flush, .report 3 "disconnecting", .report 3 "disconnected",
    .settle 2 (.ok ()), .settle 3 (.ok ()), .commit]

theorem settles_right_disconnectingTwice :
    ∃ w, machine.run .start disconnectingTwice = some w ∧ Quiescent w ∧
      w.rendered = ⟨none, .disconnected, none⟩ ∧ w.down = true ∧
      machine.Always Right .start disconnectingTwice :=
  ⟨_, rfl, ⟨by decide, rfl, rfl⟩, rfl, rfl,
    (settles_right disconnectingTwice rfl).1 (by decide)⟩

/-- A session is connected and disconnected. -/
def disconnecting : List Event :=
  [.connect, .report 0 "connecting", .report 0 "connected", .settle 0 (.ok ()), .commit, .flush,
    .disconnect (some 0), .report 1 "disconnecting", .report 1 "disconnected",
    .settle 1 (.ok ()), .commit, .flush, .report 2 "disconnecting", .report 2 "disconnected",
    .settle 2 (.ok ()), .commit]

/-- The hook shows 'connecting' and has no session when all is done. -/
theorem disconnecting_not_right :
    ∃ w, machine.run .start disconnecting = some w ∧ Quiescent w ∧ w.down = true ∧
      ¬w.Connecting ∧ w.rendered = ⟨none, .connecting, none⟩ ∧ ¬Right w := by
  refine ⟨_, rfl, ⟨by decide, rfl, rfl⟩, rfl, by decide, rfl, fun hright => ?_⟩
  have hshut := hright.shut ⟨by decide, rfl, rfl⟩ rfl
  exact absurd hshut.2 (by decide)

end SshClientWasm.React
