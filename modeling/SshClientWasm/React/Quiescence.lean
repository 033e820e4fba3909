import SshClientWasm.React.Connection

/-!
# The connection comes to rest

Go reports two states in each call, and then it settles. Only a `connect()` or a `disconnect()`
changes the session, so that the cleanups that follow a commit are followed by no more of them.
-/
namespace SshClientWasm.React

open Library

variable {w w' : World} {a : Event} {i : ℕ} {c c' : Call}

/-- No call, update or effect is pending, but for calls of `connect`. -/
structure Settled (w : World) : Prop where
  calls : ∀ c ∈ w.calls, c = .settled ∨ c.connects = true
  rendered : w.rendered = w.hook
  effect : w.effect = w.rendered.session

/-- Nothing is pending. -/
structure Quiescent (w : World) : Prop where
  calls : ∀ c ∈ w.calls, c = .settled
  rendered : w.rendered = w.hook
  effect : w.effect = w.rendered.session

theorem Quiescent.settled (hw : Quiescent w) : Settled w :=
  ⟨fun c hc => Or.inl (hw.calls c hc), hw.rendered, hw.effect⟩

/-- A call of one of the callbacks of the hook. -/
def Event.IsCall : Event → Prop
  | .connect | .disconnect _ => True
  | _ => False

/-- What becomes of the world without another call. -/
def Leads (w w' : World) : Prop :=
  ∃ rest, (∀ a ∈ rest, ¬Event.IsCall a) ∧ machine.run w rest = some w'

theorem Leads.refl (w : World) : Leads w w := ⟨[], by simp, rfl⟩

theorem Leads.head {w'' : World} (hrest : Leads w' w'') (ha : ¬a.IsCall)
    (h : machine.step w a = some w') : Leads w w'' := by
  obtain ⟨rest, hcalls, hrun⟩ := hrest
  exact ⟨a :: rest, List.forall_mem_cons.mpr ⟨ha, hcalls⟩,
    machine.run_cons_eq_some.mpr ⟨w', h, hrun⟩⟩

theorem Leads.trans {w'' : World} (h : Leads w w') (h' : Leads w' w'') : Leads w w'' := by
  obtain ⟨front, hfront, hrun⟩ := h
  obtain ⟨back, hback, hrun'⟩ := h'
  refine ⟨front ++ back, fun a ha => (List.mem_append.mp ha).elim (hfront a) (hback a), ?_⟩
  rw [machine.run_append, hrun, Option.bind_some, hrun']

namespace Call

/-- What Go has reported in a call is the beginning of what it reports there. -/
def Valid : Call → Prop
  | connect reported =>
    reported <+: ["connecting", "connected"] ∨ reported <+: ["connecting", "error"]
  | disconnect _ reported => reported <+: ["disconnecting", "disconnected"]
  | settled => True

/-- How many steps it takes to settle at most. -/
def steps : Call → ℕ
  | connect reported | disconnect _ reported => 3 - reported.length
  | settled => 0

/-- Does not change the session any more. -/
def Aside : Call → Prop
  | disconnect none _ | settled => True
  | _ => False

theorem Valid.reporting {state : String} (h : c.MayReport state) : (c.reporting state).Valid := by
  cases c with
  | settled => trivial
  | _ => exact h

theorem Aside.reporting {state : String} (h : c.Aside) : (c.reporting state).Aside := by
  cases c with
  | connect => exact h.elim
  | disconnect byHook =>
    cases byHook with
    | none => trivial
    | some => exact h.elim
  | settled => trivial

theorem prefix_pair {reported : List String} {x y : String} (h : reported <+: [x, y]) :
    reported = [] ∨ reported = [x] ∨ reported = [x, y] := by
  have hmem := (List.mem_inits reported [x, y]).mpr h
  simpa using hmem

theorem Valid.goes (hc : c.Valid) (h : c ≠ .settled) :
    (∃ state, c.MayReport state ∧ (c.reporting state).steps < c.steps) ∨
      ∃ result, c.MaySettle result ∧ 0 < c.steps := by
  cases c with
  | connect reported =>
    rcases hc with hc | hc <;> rcases prefix_pair hc with rfl | rfl | rfl
    · exact Or.inr ⟨.error "", Or.inl rfl, by decide⟩
    · exact Or.inl ⟨"connected", by decide, by decide⟩
    · exact Or.inr ⟨.ok (), rfl, by decide⟩
    · exact Or.inr ⟨.error "", Or.inl rfl, by decide⟩
    · exact Or.inl ⟨"error", by decide, by decide⟩
    · exact Or.inr ⟨.error "", Or.inr rfl, by decide⟩
  | disconnect byHook reported =>
    rcases prefix_pair hc with rfl | rfl | rfl
    · exact Or.inl ⟨"disconnecting", by simp [MayReport], by simp [steps, Call.reporting]⟩
    · exact Or.inl ⟨"disconnected", by simp [MayReport], by simp [steps, Call.reporting]⟩
    · exact Or.inr ⟨.ok (), rfl, by simp [steps]⟩
  | settled => exact absurd rfl h

end Call

theorem steps_set {calls : List Call} (hc : calls[i]? = some c) (h : c'.steps < c.steps) :
    ((calls.set i c').map Call.steps).sum < (calls.map Call.steps).sum := by
  induction calls generalizing i with
  | nil => cases hc
  | cons d calls ih =>
    cases i with
    | zero =>
      cases hc
      simpa using h
    | succ i => simpa using ih hc

/-- What the calls do on their own. -/
structure Onward (w w' : World) : Prop where
  leads : Leads w w'
  effect : w'.effect = w.effect
  rendered : w'.rendered = w.rendered
  session : (∀ c ∈ w.calls, c.Aside) → w'.hook.session = w.hook.session

theorem Onward.refl (w : World) : Onward w w := ⟨.refl w, rfl, rfl, fun _ => rfl⟩

theorem Onward.head {w'' : World} (hrest : Onward w' w'') (ha : ¬a.IsCall)
    (h : machine.step w a = some w') (heffect : w'.effect = w.effect)
    (hrendered : w'.rendered = w.rendered)
    (hsession : (∀ c ∈ w.calls, c.Aside) →
      w'.hook.session = w.hook.session ∧ ∀ c ∈ w'.calls, c.Aside) : Onward w w'' where
  leads := hrest.leads.head ha h
  effect := hrest.effect.trans heffect
  rendered := hrest.rendered.trans hrendered
  session := by
    intro haside
    obtain ⟨hsame, haside'⟩ := hsession haside
    exact (hrest.session haside').trans hsame

theorem forall_set {P : Call → Prop} {calls : List Call} (h : ∀ d ∈ calls, P d) (hc : P c) :
    ∀ d ∈ calls.set i c, P d := by
  intro d hd
  rcases List.mem_or_eq_of_mem_set hd with hmem | rfl
  · exact h d hmem
  · exact hc

theorem World.settle_frame (w : World) (i : ℕ) (c : Call) (result : Except String Unit) :
    (w.settle i c result).effect = w.effect ∧ (w.settle i c result).rendered = w.rendered ∧
      (c.Aside → (w.settle i c result).hook.session = w.hook.session) := by
  cases c with
  | connect => cases result <;> exact ⟨rfl, rfl, False.elim⟩
  | disconnect byHook =>
    cases byHook with
    | none => cases result <;> exact ⟨rfl, rfl, fun _ => rfl⟩
    | some => cases result <;> exact ⟨rfl, rfl, False.elim⟩
  | settled => cases result <;> exact ⟨rfl, rfl, fun _ => rfl⟩

theorem calls_settle (n : ℕ) : ∀ w : World, (∀ c ∈ w.calls, c.Valid) →
    (w.calls.map Call.steps).sum < n → ∃ w', Onward w w' ∧ ∀ c ∈ w'.calls, c = .settled := by
  induction n with
  | zero => exact fun w _ hn => absurd hn (Nat.not_lt_zero _)
  | succ n ih =>
    intro w hvalid hn
    by_cases hsettled : ∀ c ∈ w.calls, c = .settled
    · exact ⟨w, .refl w, hsettled⟩
    · simp only [not_forall] at hsettled
      obtain ⟨c, hmem, hc⟩ := hsettled
      obtain ⟨i, hi⟩ := List.mem_iff_getElem?.mp hmem
      rcases (hvalid c hmem).goes hc with ⟨state, hreport, hless⟩ | ⟨result, hsettle, hpos⟩
      · have hstep : machine.step w (.report i state) = some (w.report i c state) := by
          simp [machine, hi, hreport]
        have hsum := steps_set hi hless
        obtain ⟨w', hw', hdone⟩ := ih (w.report i c state)
          (forall_set hvalid (Call.Valid.reporting hreport)) (hsum.trans_le (Nat.le_of_lt_succ hn))
        refine ⟨w', hw'.head id hstep rfl rfl fun haside => ⟨rfl, ?_⟩, hdone⟩
        exact forall_set haside (haside c hmem).reporting
      · have hstep : machine.step w (.settle i result) = some (w.settle i c result) := by
          simp [machine, hi, hsettle]
        have hsum : ((w.calls.set i .settled).map Call.steps).sum < _ := steps_set hi hpos
        obtain ⟨w', hw', hdone⟩ := ih (w.settle i c result) (forall_set hvalid trivial)
          (hsum.trans_le (Nat.le_of_lt_succ hn))
        obtain ⟨heffect, hrendered, hsession⟩ := w.settle_frame i c result
        refine ⟨w', hw'.head id hstep heffect hrendered fun haside => ⟨?_, ?_⟩, hdone⟩
        · exact hsession (haside c hmem)
        · exact forall_set haside trivial

theorem effects_settle (hw : ∀ c ∈ w.calls, c = .settled) :
    ∃ w', Leads w w' ∧ (∀ c ∈ w'.calls, c = .settled) ∧ w'.effect = w'.rendered.session ∧
      w'.rendered = w.rendered ∧ w'.hook.session = w.hook.session := by
  by_cases heffect : w.effect = w.rendered.session
  · exact ⟨w, .refl w, hw, heffect, rfl, rfl⟩
  · have hstep : machine.step w .flush = some w.flush := if_neg heffect
    have hcalls : ∀ c ∈ w.flush.calls, c.Aside ∧ c.Valid := by
      unfold World.flush
      dsimp only
      split
      · intro c hc
        rcases List.mem_append.mp hc with hc | hc
        · rw [hw c hc]
          exact ⟨trivial, trivial⟩
        · rw [List.mem_singleton.mp hc]
          exact ⟨trivial, List.nil_prefix⟩
      · intro c hc
        rw [hw c hc]
        exact ⟨trivial, trivial⟩
    obtain ⟨w', hw', hdone⟩ := calls_settle _ w.flush (fun c hc => (hcalls c hc).2)
      (Nat.lt_succ_self _)
    refine ⟨w', hw'.leads.head id hstep, hdone, ?_, hw'.rendered, ?_⟩
    · rw [hw'.effect, hw'.rendered]
      rfl
    · exact hw'.session fun c hc => (hcalls c hc).1

theorem leads_commit (h : w.effect = w.rendered.session) : Leads w w.commit := by
  have hstep : machine.step w .commit = some w.commit := if_pos h
  exact (Leads.refl w.commit).head id hstep

/-- The hook comes to rest, if it is not called again. -/
theorem leads_quiescent (hw : ∀ c ∈ w.calls, c.Valid) : ∃ w', Leads w w' ∧ Quiescent w' := by
  obtain ⟨w₁, h₁, hdone₁⟩ := calls_settle _ w hw (Nat.lt_succ_self _)
  obtain ⟨w₂, h₂, hdone₂, heffect₂, _, _⟩ := effects_settle hdone₁
  -- the updates of all that are seen now, and the session does not change any more
  obtain ⟨w₃, h₃, hdone₃, heffect₃, hrendered₃, hsession₃⟩ :=
    effects_settle (show ∀ c ∈ w₂.commit.calls, c = .settled from hdone₂)
  refine ⟨w₃.commit, ?_, hdone₃, rfl, ?_⟩
  · exact h₁.leads.trans (h₂.trans ((leads_commit heffect₂).trans
      (h₃.trans (leads_commit heffect₃))))
  · exact heffect₃.trans ((congrArg Hook.session hrendered₃).trans hsession₃.symm)

theorem valid_step (hw : ∀ c ∈ w.calls, c.Valid) (h : machine.step w a = some w') :
    ∀ c ∈ w'.calls, c.Valid := by
  have happend : ∀ {d : Call}, d.Valid → ∀ c ∈ w.calls ++ [d], c.Valid := by
    intro d hd c hc
    rcases List.mem_append.mp hc with hc | hc
    · exact hw c hc
    · rwa [List.mem_singleton.mp hc]
  cases step_stepped h with
  | connect => exact happend (Or.inl List.nil_prefix)
  | disconnect session =>
    cases session with
    | none => exact hw
    | some => exact happend List.nil_prefix
  | sessionDisconnect => exact happend List.nil_prefix
  | report hc hreport => exact forall_set hw (Call.Valid.reporting hreport)
  | settle => exact forall_set hw trivial
  | commit => exact hw
  | flush =>
    unfold World.flush
    dsimp only
    split
    · exact happend List.nil_prefix
    · exact hw

end SshClientWasm.React
