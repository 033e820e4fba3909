import SshClientWasm.Bridge.Transports
import SshClientWasm.Library.History

/-!
# How often a transport is torn down

Three ways lead to `disconnect()` of a transport: `closeTransport` of the manager, the
closing of a `JSTransport` in Go, which the rest of `closeTransport` does as well, and
the call by anybody who has the object. None looks at what the others have done. Of
every object it is recorded when its `connect()` has resolved and when one of the three
has used it.
-/
namespace SshClientWasm.Bridge

open Library

namespace Transports

variable {ι : Type*} {idOf : ι → String} [DecidableEq ι]

/-- A connection of an object has been made, or one of the three ways has used it. -/
inductive Event (ι : Type*)
  | connected (i : ι)
  | used (i : ι)
  deriving DecidableEq, Repr

/-- What is recorded of a step. -/
def events (s : Transports ι idOf) : Move ι → List (Event ι)
  | .connect i => [.connected i]
  | a => ((s.used a).map .used).toList

/-- The transports with what has happened to their connections. -/
abbrev recording : Machine (Transports ι idOf × List (Event ι)) (Move ι) :=
  machine.recorded events

/-- Every notification, and every `disconnect()` that may still notify, has had its
teardown. -/
def Owed (s : Transports ι idOf) : Prop :=
  ∀ i, s.notified i + s.pending.countP (·.object = i) ≤ s.teardowns i

/-- Connections and teardowns are what was recorded, and notifications come from
teardowns. -/
structure Ledger (s : Transports ι idOf × List (Event ι)) : Prop where
  connects : ∀ i, s.1.connects i = s.2.countP (· = .connected i)
  teardowns : ∀ i, s.1.teardowns i = s.2.countP (· = .used i)
  owed : s.1.Owed

variable {s s' : Transports ι idOf} {a : Move ι} {i : ι}

theorem bump_apply (f : ι → ℕ) (i j : ι) : bump f i j = f j + if i = j then 1 else 0 := by
  by_cases hj : i = j
  · subst hj
    simp [bump]
  · simp [bump, hj, Ne.symm hj]

theorem disconnect_teardowns (s : Transports ι idOf) (i j : ι) (awaits : Option Closing) :
    (s.disconnect i awaits).teardowns j = s.teardowns j + if i = j then 1 else 0 :=
  bump_apply ..

theorem released_teardowns (s : Transports ι idOf) (p : Manager ι idOf × Option ι) (i : ι) :
    (s.released p).teardowns i = s.teardowns i + if p.2 = some i then 1 else 0 := by
  obtain ⟨m, _ | j⟩ := p
  · rfl
  · simp [released, disconnect_teardowns]

theorem released_connects (s : Transports ι idOf) (p : Manager ι idOf × Option ι) :
    (s.released p).connects = s.connects := by
  obtain ⟨m, _ | i⟩ := p <;> rfl

theorem disconnected_counts {c : ℕ} {d : Teardown ι} (hd : s.pending[c]? = some d) (i : ι) :
    ({ s with pending := s.pending.eraseIdx c }.disconnected d).connects = s.connects ∧
      ({ s with pending := s.pending.eraseIdx c }.disconnected d).teardowns i =
        s.teardowns i + if s.used (.settle c true) = some i then 1 else 0 := by
  unfold disconnected
  cases hawaits : d.awaits with
  | none => simp [used, hd, hawaits]
  | some call =>
    have hused : s.used (.settle c true) = (s.manager.closeTransport call.id).2 := by
      rw [(s.manager.closeTransport_spec call.id).2]
      simp only [used, hd, hawaits, Option.bind_some]
      rfl
    refine ⟨released_connects .., ?_⟩
    rw [hused]
    exact released_teardowns ..

theorem Step.counts (h : Step s a s') (i : ι) :
    s'.connects i = s.connects i + (events s a).countP (· = .connected i) ∧
      s'.teardowns i = s.teardowns i + (events s a).countP (· = .used i) := by
  -- Of the steps that connect nothing only the used object is recorded.
  have hevents : (∀ j, a ≠ .connect j) → s'.connects i = s.connects i →
      s'.teardowns i = s.teardowns i + (if s.used a = some i then 1 else 0) →
      s'.connects i = s.connects i + (events s a).countP (· = .connected i) ∧
        s'.teardowns i = s.teardowns i + (events s a).countP (· = .used i) := by
    intro hconnect hconnects hteardowns
    have hrecorded : events s a = ((s.used a).map .used).toList := by
      cases a with
      | connect j => exact absurd rfl (hconnect j)
      | _ => rfl
    rw [hrecorded, hconnects, hteardowns]
    cases s.used a <;> simp [List.countP_cons]
  cases h with
  | quiet _ _ _ hconnect hused hq =>
    exact hevents hconnect (congrFun hq.connects i) (by rw [hused, hq.teardowns]; simp)
  | createTransport j => exact hevents (by simp) rfl rfl
  | connect j =>
    simp [events, bump_apply, List.countP_cons]
  | close k m o hclose =>
    obtain ⟨_, _, _, _, ho⟩ := Manager.close_eq_some hclose
    have hused : s.used (.close k) = o := ho.symm
    refine hevents (by simp) (congrFun (released_connects ..) i) ?_
    rw [hused]
    exact released_teardowns ..
  | closeTransport id j hfound =>
    refine hevents (by simp) rfl ?_
    simp [used, hfound, disconnect_teardowns]
  | disconnect j =>
    refine hevents (by simp) rfl ?_
    simp [used, disconnect_teardowns]
  | rejected c d _ => exact hevents (by simp) rfl rfl
  | resolved c d hd =>
    obtain ⟨hconnects, hteardowns⟩ := disconnected_counts hd i
    exact hevents (by simp) (congrFun hconnects i) hteardowns

theorem Owed.disconnect (h : s.Owed) (j : ι) (awaits : Option Closing) :
    (s.disconnect j awaits).Owed := by
  intro i
  have hi := h i
  by_cases hj : j = i
  · subst hj
    simp [Transports.disconnect, bump]
    omega
  · simp [Transports.disconnect, bump, hj, Ne.symm hj]
    exact hi

theorem Owed.released (h : s.Owed) (p : Manager ι idOf × Option ι) : (s.released p).Owed := by
  obtain ⟨m, _ | j⟩ := p
  · exact h
  · exact Owed.disconnect (s := { s with manager := m }) h j none

theorem Owed.disconnected (h : s.Owed) {c : ℕ} {d : Teardown ι} (hd : s.pending[c]? = some d) :
    ({ s with pending := s.pending.eraseIdx c }.disconnected d).Owed := by
  obtain ⟨hlt, hget⟩ := List.getElem?_eq_some_iff.mp hd
  let t : Transports ι idOf := { s with
    pending := s.pending.eraseIdx c
    isConnected := Function.update s.isConnected d.object false
    notified := bump s.notified d.object }
  have ht : t.Owed := by
    intro i
    have hi := h i
    have hcount := (List.getElem_cons_eraseIdx_perm hlt).countP_eq (·.object = i)
    rw [hget, List.countP_cons] at hcount
    by_cases hobject : d.object = i
    · subst hobject
      simp [t, bump] at hcount ⊢
      omega
    · simp [t, bump, hobject, Ne.symm hobject] at hcount ⊢
      omega
  unfold Transports.disconnected
  cases d.awaits with
  | none => exact ht
  | some call => exact ht.released _

theorem Owed.step (h : s.Owed) (hstep : Step s a s') : s'.Owed := by
  cases hstep with
  | quiet _ _ _ _ _ hq =>
    intro i
    rw [hq.notified, hq.pending, hq.teardowns]
    exact h i
  | createTransport j => exact h
  | connect j => exact h
  | close k m o _ => exact h.released _
  | closeTransport id j _ => exact h.disconnect j _
  | disconnect j => exact h.disconnect j none
  | rejected c d _ =>
    intro i
    have hsub : (s.pending.eraseIdx c).countP (·.object = i) ≤
        s.pending.countP (·.object = i) := (List.eraseIdx_sublist s.pending c).countP_le
    exact (Nat.add_le_add_left hsub _).trans (h i)
  | resolved c d hd => exact h.disconnected hd

section Recording

variable {s s' : Transports ι idOf × List (Event ι)}

theorem Ledger.step (h : Ledger s) (hstep : recording.step s a = some s') : Ledger s' := by
  obtain ⟨hmove, hlog⟩ := (Machine.recorded_step _).mp hstep
  have hcases := step_cases hmove
  constructor
  · intro i
    rw [(hcases.counts i).1, hlog, List.countP_append, h.connects i]
  · intro i
    rw [(hcases.counts i).2, hlog, List.countP_append, h.teardowns i]
  · exact h.owed.step hcases

end Recording

end Transports
end SshClientWasm.Bridge
