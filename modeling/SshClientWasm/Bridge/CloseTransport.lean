import SshClientWasm.Bridge.Transports

/-!
# Closing one transport

`closeTransport` of the manager reads its map, awaits `disconnect()` of the object it
has found, and then closes and removes by id whatever has that id by now.
-/
namespace SshClientWasm.Bridge

open Library

namespace Transports

variable {ι : Type*} {idOf : ι → String}

/-- An object is closed, with the `JSTransport` it had at the call, and neither registry
refers to it any more; every other object is left as it was. -/
structure ClosedExactly (s s' : Transports ι idOf) (i : ι) (place : Option ℕ) : Prop where
  closed : ∃ k, place = some k ∧ s'.manager.isClosed k = true
  unmapped : ∀ id, s'.manager.transports id ≠ some i
  unregistered : ∀ id k, s'.manager.wasm.transports id = some k →
    s'.manager.owners[k]? ≠ some i
  others : ∀ j k, j ≠ i → s.manager.owners[k]? = some j →
    s'.manager.isClosed k = s.manager.isClosed k ∧
      ∀ id, s.manager.wasm.transports id = some k → s'.manager.wasm.transports id = some k
  othersMapped : ∀ j id, j ≠ i → s.manager.transports id = some j →
    s'.manager.transports id = some j

/-- A `closeTransport` that settles has closed the object it was called for. -/
def Exact (s : Transports ι idOf) (a : Move ι) (s' : Transports ι idOf) : Prop :=
  ∀ c resolves d call, a = .settle c resolves → s.pending[c]? = some d →
    d.awaits = some call → ClosedExactly s s' d.object call.place

/-- When `disconnect()` resolves, no other object has the id of the call, and the
`JSTransport` of the call has it or is closed already. When `disconnect()` rejects,
another call has closed and removed the object already. -/
def Undisturbed (s : Transports ι idOf) : Move ι → Prop
  | .settle c true => ∀ d call, s.pending[c]? = some d → d.awaits = some call →
      (∀ k, s.manager.wasm.transports call.id = some k → s.manager.owners[k]? = some d.object) ∧
        ∀ k, call.place = some k →
          s.manager.isClosed k = true ∨ s.manager.wasm.transports call.id = some k
  | .settle c false => ∀ d call, s.pending[c]? = some d → d.awaits = some call →
      (∀ k, s.manager.wasm.transports call.id = some k → s.manager.owners[k]? ≠ some d.object) ∧
        ∀ k, call.place = some k → s.manager.isClosed k = true
  | _ => True

/-- A pending `closeTransport` knows the id of its object and a `JSTransport` of it. -/
def Recorded (s : Transports ι idOf) : Prop :=
  ∀ d ∈ s.pending, ∀ call, d.awaits = some call →
    idOf d.object = call.id ∧ ∃ k, call.place = some k ∧ s.manager.owners[k]? = some d.object

variable {s s' : Transports ι idOf} {a : Move ι} {d : Teardown ι} {call : Closing} {i : ι}

theorem Recorded.mono (h : s.Recorded)
    (howners : ∀ (k : ℕ) (i : ι), s.manager.owners[k]? = some i → s'.manager.owners[k]? = some i)
    (hpending : ∀ d ∈ s'.pending, d ∈ s.pending ∨ d.awaits = none) : s'.Recorded := by
  intro d hd call hcall
  rcases hpending d hd with hd | hnone
  · obtain ⟨hid, k, hk, howner⟩ := h d hd call hcall
    exact ⟨hid, k, hk, howners k _ howner⟩
  · rw [hnone] at hcall
    cases hcall

theorem released_pending [DecidableEq ι] (s : Transports ι idOf) (p : Manager ι idOf × Option ι) :
    ∀ d ∈ (s.released p).pending, d ∈ s.pending ∨ d.awaits = none := by
  obtain ⟨m, _ | i⟩ := p
  · exact fun d hd => Or.inl hd
  · intro d hd
    rcases List.mem_append.mp hd with hd | hd
    · exact Or.inl hd
    · rw [List.mem_singleton.mp hd]
      exact Or.inr rfl

theorem Recorded.step [DecidableEq ι] (h : s.Recorded) (hstep : Step s a s') : s'.Recorded := by
  have howners : ∀ (k : ℕ) (i : ι), s.manager.owners[k]? = some i → s'.manager.owners[k]? = some i :=
    fun k i hk => hstep.owners hk
  cases hstep with
  | quiet _ _ _ _ _ hq =>
    refine h.mono howners (fun d hd => Or.inl ?_)
    rwa [hq.pending] at hd
  | createTransport i => exact h.mono howners (fun d hd => Or.inl hd)
  | connect i => exact h.mono howners (fun d hd => Or.inl hd)
  | close k m o hclose => exact h.mono howners (s.released_pending _)
  | closeTransport id i hfound =>
    obtain ⟨k, _, howner, hid, hplace⟩ := Manager.registered_of_mapped hfound
    intro d hd call hcall
    rcases List.mem_append.mp hd with hd | hd
    · exact h d hd call hcall
    · rw [List.mem_singleton.mp hd] at hcall ⊢
      cases hcall
      exact ⟨hid, k, hplace, howner⟩
  | disconnect i =>
    refine h.mono howners (fun d hd => ?_)
    rcases List.mem_append.mp hd with hd | hd
    · exact Or.inl hd
    · rw [List.mem_singleton.mp hd]
      exact Or.inr rfl
  | rejected c d hd =>
    exact h.mono howners (fun d hd => Or.inl (List.mem_of_mem_eraseIdx hd))
  | resolved c d hd =>
    refine h.mono howners (fun d' hd' => ?_)
    unfold disconnected at hd'
    cases hawaits : d.awaits with
    | none =>
      rw [hawaits] at hd'
      exact Or.inl (List.mem_of_mem_eraseIdx hd')
    | some call =>
      rw [hawaits] at hd'
      exact (released_pending _ _ d' hd').imp_left List.mem_of_mem_eraseIdx

theorem rejected_closedExactly_iff (h : s.Recorded) (hd : d ∈ s.pending)
    (hcall : d.awaits = some call) (hsame : s'.manager = s.manager) :
    ClosedExactly s s' d.object call.place ↔
      (∀ k, s.manager.wasm.transports call.id = some k → s.manager.owners[k]? ≠ some d.object) ∧
        ∀ k, call.place = some k → s.manager.isClosed k = true := by
  obtain ⟨hid, k, hplace, _⟩ := h d hd call hcall
  constructor
  · rintro ⟨⟨k', hk', hclosed⟩, _, hunregistered, _, _⟩
    rw [hsame] at hclosed hunregistered
    refine ⟨hunregistered call.id, fun j hj => ?_⟩
    cases hk'.symm.trans hj
    exact hclosed
  · rintro ⟨hgone, hclosed⟩
    have hunregistered : ∀ id k, s.manager.wasm.transports id = some k →
        s.manager.owners[k]? ≠ some d.object := by
      intro id k hk howner
      obtain ⟨hname, _⟩ := s.manager.current id k d.object hk howner
      exact hgone k (by rwa [← hid, hname]) howner
    refine ⟨⟨k, hplace, ?_⟩, ?_, ?_, ?_, ?_⟩
    · rw [hsame]
      exact hclosed k hplace
    · intro id hmapped
      rw [hsame] at hmapped
      obtain ⟨k, hk, howner, _⟩ := Manager.registered_of_mapped hmapped
      exact hunregistered id k hk howner
    · rw [hsame]
      exact hunregistered
    · rw [hsame]
      exact fun _ _ _ _ => ⟨rfl, fun _ hk => hk⟩
    · rw [hsame]
      exact fun _ _ _ hmapped => hmapped

theorem resolved_closedExactly_iff (h : s.Recorded) (hd : d ∈ s.pending)
    (hcall : d.awaits = some call)
    (hclose : s'.manager = (s.manager.closeTransport call.id).1) :
    ClosedExactly s s' d.object call.place ↔
      (∀ k, s.manager.wasm.transports call.id = some k → s.manager.owners[k]? = some d.object) ∧
        ∀ k, call.place = some k →
          s.manager.isClosed k = true ∨ s.manager.wasm.transports call.id = some k := by
  obtain ⟨hid, k, hplace, _⟩ := h d hd call hcall
  have hclosed : ∀ j, s'.manager.isClosed j =
      (s.manager.isClosed j || decide (s.manager.wasm.transports call.id = some j)) := by
    rw [hclose]
    exact (s.manager.closeTransport_spec call.id).1
  have hregistered : ∀ id, s'.manager.wasm.transports id =
      if id = call.id then none else s.manager.wasm.transports id := by
    rw [hclose]
    exact congrFun (s.manager.wasm.closeTransport_frame call.id).1
  have hmapped : s'.manager.transports = Function.update s.manager.transports call.id none := by
    rw [hclose]
    rfl
  have howners : s'.manager.owners = s.manager.owners := by
    rw [hclose]
    rfl
  constructor
  · rintro ⟨⟨k', hk', hclosed'⟩, _, _, hothers, _⟩
    constructor
    · intro j hj
      obtain ⟨i, howner, _⟩ := Manager.owner_of_registered hj
      by_cases hi : i = d.object
      · rwa [← hi]
      · -- Another object that has the id loses its registration.
        have hkept := (hothers i j hi howner).2 call.id hj
        rw [hregistered, if_pos rfl] at hkept
        cases hkept
    · intro j hj
      cases hk'.symm.trans hj
      rw [hclosed] at hclosed'
      simpa using hclosed'
  · rintro ⟨hown, hreached⟩
    refine ⟨⟨k, hplace, ?_⟩, ?_, ?_, ?_, ?_⟩
    · rw [hclosed]
      simpa using hreached k hplace
    · intro id hmap
      have hne : id ≠ call.id := by
        rintro rfl
        rw [hmapped, Function.update_self] at hmap
        cases hmap
      rw [hmapped, Function.update_of_ne hne] at hmap
      obtain ⟨_, _, _, hname, _⟩ := Manager.registered_of_mapped hmap
      exact hne (hname.symm.trans hid)
    · intro id j hj howner
      rw [hregistered] at hj
      rw [howners] at howner
      split_ifs at hj with hne
      exact hne ((s.manager.current id j d.object hj howner).1.symm.trans hid)
    · intro i j hi howner
      have hother : s.manager.wasm.transports call.id ≠ some j := by
        intro hj
        exact hi (Option.some.inj (howner.symm.trans (hown j hj)))
      refine ⟨?_, fun id hj => ?_⟩
      · rw [hclosed]
        simp [hother]
      · rw [hregistered, if_neg, hj]
        rintro rfl
        exact hother hj
    · intro i id hi hmap
      obtain ⟨j, hj, howner, _⟩ := Manager.registered_of_mapped hmap
      have hne : id ≠ call.id := by
        rintro rfl
        exact hi (Option.some.inj (howner.symm.trans (hown j hj)))
      rw [hmapped, Function.update_of_ne hne]
      exact hmap

variable [DecidableEq ι]

/-- A `closeTransport` closes exactly its object if and only if it is undisturbed. -/
theorem step_exact_iff (h : s.Recorded) (hstep : Step s a s') : s.Exact a s' ↔ s.Undisturbed a := by
  cases hstep with
  | rejected c d hd =>
    have hiff : ∀ call, d.awaits = some call →
        (ClosedExactly s { s with pending := s.pending.eraseIdx c } d.object call.place ↔ _) :=
      fun call hcall => rejected_closedExactly_iff h (List.mem_of_getElem? hd) hcall rfl
    constructor
    · intro hexact d' call hd' hcall
      cases hd.symm.trans hd'
      exact (hiff call hcall).mp (hexact c false d call rfl hd hcall)
    · intro hundisturbed c' resolves d' call ha hd' hcall
      cases ha
      cases hd.symm.trans hd'
      exact (hiff call hcall).mpr (hundisturbed d call hd hcall)
  | resolved c d hd =>
    have hmanager : ∀ call, d.awaits = some call →
        ({ s with pending := s.pending.eraseIdx c }.disconnected d).manager =
          (s.manager.closeTransport call.id).1 := by
      intro call hcall
      rw [disconnected_manager, hcall]
      rfl
    have hiff : ∀ call, d.awaits = some call →
        (ClosedExactly s ({ s with pending := s.pending.eraseIdx c }.disconnected d) d.object
          call.place ↔ _) :=
      fun call hcall =>
        resolved_closedExactly_iff h (List.mem_of_getElem? hd) hcall (hmanager call hcall)
    constructor
    · intro hexact d' call hd' hcall
      cases hd.symm.trans hd'
      exact (hiff call hcall).mp (hexact c true d call rfl hd hcall)
    · intro hundisturbed c' resolves d' call ha hd' hcall
      cases ha
      cases hd.symm.trans hd'
      exact (hiff call hcall).mpr (hundisturbed d call hd hcall)
  | quiet _ _ hsettle _ _ _ =>
    refine iff_of_true ?_ ?_
    · intro c resolves d call ha
      exact absurd ha (hsettle c resolves)
    · cases a with
      | settle c resolves => exact absurd rfl (hsettle c resolves)
      | _ => trivial
  | createTransport | connect | close | closeTransport | disconnect =>
    refine iff_of_true ?_ trivial
    intro c resolves d call ha
    cases ha

/-- In every run, every `closeTransport` that settles has closed its object and left all
others alone exactly if none was disturbed at its `await`. -/
theorem steps_exact_iff (labels : List (Move ι)) (s : Transports ι idOf)
    (hrun : machine.run (start : Transports ι idOf) labels = some s) :
    machine.Steps Exact (start : Transports ι idOf) labels ↔
      machine.Admits Undisturbed (start : Transports ι idOf) labels := by
  apply machine.steps_iff_admits (I := Recorded) _ _ labels start s _ hrun
  · exact fun _ _ _ hs h => hs.step (step_cases h)
  · exact fun _ _ _ hs h => step_exact_iff hs (step_cases h)
  · intro d hd
    cases hd

/-- Two objects with ids of their own; a second one is registered during the `await`. -/
theorem steps_exact_ownIds :
    machine.Steps Exact (start : Transports Bool fun b => if b then "b" else "a")
      [.createTransport false, .connect false, .closeTransport "a", .createTransport true,
        .settle 0 true] := by
  apply (steps_exact_iff _ _ rfl).mpr
  iterate 4 refine (machine.admits_cons rfl).mpr ⟨trivial, ?_⟩
  refine (machine.admits_cons rfl).mpr ⟨?_, trivial⟩
  intro d call hd hcall
  cases hd
  cases hcall
  refine ⟨fun k hk => ?_, fun k hk => ?_⟩
  · cases hk
    rfl
  · cases hk
    exact Or.inr rfl

/-- A `disconnect()` that rejects leaves the `JSTransport` open; and an object that takes
over the id during the `await` is closed in place of the one that was to be closed. -/
theorem closeTransport_not_exact :
    ¬ machine.Steps Exact (start : Transports Bool fun _ => "t")
        [.createTransport false, .connect false, .closeTransport "t", .settle 0 false] ∧
      ¬ machine.Steps Exact (start : Transports Bool fun _ => "t")
        [.createTransport false, .connect false, .closeTransport "t", .createTransport true,
          .settle 0 true] := by
  constructor
  · intro hsteps
    have hsettle := ((((hsteps _ rfl).2 _ rfl).2 _ rfl).2 _ rfl).1
    obtain ⟨k, hk, hclosed⟩ := (hsettle 0 false _ _ rfl rfl rfl).closed
    cases hk
    cases hclosed
  · intro hsteps
    have hsettle := (((((hsteps _ rfl).2 _ rfl).2 _ rfl).2 _ rfl).2 _ rfl).1
    have hexact := hsettle 0 true _ _ rfl rfl rfl
    obtain ⟨k, hk, hclosed⟩ := hexact.closed
    cases hk
    cases hclosed

end Transports
end SshClientWasm.Bridge
