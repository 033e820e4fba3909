import SshClientWasm.Bridge.Transports

/-!
# Isolation of the byte streams of transports

`onWrite` is bound to a transport object by its closure, `onData` finds the
`JSTransport` by the object's id. What keeps the streams of two objects apart is
that no other object was registered under the same id.
-/
namespace SshClientWasm.Bridge

open Library

namespace Transports

variable {ι : Type*} {idOf : ι → String}

/-- A chunk that arrives at an object is offered to the `JSTransport` that
`createTransport` has made for it and to no other, and what is written to a
`JSTransport` is sent by the object it was made for and by no other. -/
def Isolated (s : Transports ι idOf) (a : Move ι) (s' : Transports ι idOf) : Prop :=
  match a with
  | .onData i data =>
    s'.sent = s.sent ∧
      s'.manager.wasm.heap =
        (s.manager.place i).elim s.manager.wasm.heap
          (s.manager.wasm.heap.modify · fun t => (t.injectData data).1)
  | .write k _ =>
    s'.manager = s.manager ∧ ∀ i, s.manager.owners[k]? ≠ some i → s'.sent i = s.sent i
  | _ => s'.sent = s.sent

/-- Whether the `JSTransport` at a place takes a chunk now. -/
def Takes (s : Transports ι idOf) (k : ℕ) : Prop :=
  ∃ t, s.manager.wasm.heap[k]? = some t ∧ t.Takes

/-- When a chunk arrives at an object, its own `JSTransport` is the one registered
under its id, or neither of the two takes the chunk. -/
def Direct (s : Transports ι idOf) : Move ι → Prop
  | .onData i _ => ∀ k, s.manager.place i = some k →
      s.manager.wasm.transports (idOf i) = some k ∨
        ¬ s.Takes k ∧ ∀ k', s.manager.wasm.transports (idOf i) = some k' → ¬ s.Takes k'
  | _ => True

variable {s s' : Transports ι idOf} {a : Move ι} {i : ι} {k k' : ℕ} {data : Bytes}

theorem not_takes_iff : ¬ s.Takes k ↔
    ∀ t, s.manager.wasm.heap[k]? = some t → (t.injectData data).1 = t := by
  simp [Takes, JSTransport.injectData_eq_self]

theorem modify_eq_self_iff {α : Type*} (l : List α) (f : α → α) (k : ℕ) :
    l.modify k f = l ↔ ∀ t, l[k]? = some t → f t = t := by
  constructor
  · intro heq t ht
    have hat := congrArg (·[k]?) heq
    simpa [List.getElem?_modify, ht] using hat
  · intro hfixed
    apply List.ext_getElem?
    intro j
    by_cases hj : k = j
    · subst hj
      cases ht : l[k]? with
      | none => simp [ht]
      | some t => simp [ht, hfixed t ht]
    · simp [hj]

theorem modify_eq_modify_iff {α : Type*} (l : List α) (f : α → α) (hne : k' ≠ k) :
    l.modify k' f = l.modify k f ↔
      (∀ t, l[k]? = some t → f t = t) ∧ ∀ t, l[k']? = some t → f t = t := by
  constructor
  · intro heq
    constructor
    · intro t ht
      have hat := congrArg (·[k]?) heq
      simpa [List.getElem?_modify, hne, ht, eq_comm] using hat
    · intro t ht
      have hat := congrArg (·[k']?) heq
      simpa [List.getElem?_modify, hne.symm, ht] using hat
  · rintro ⟨hk, hk'⟩
    rw [(modify_eq_self_iff l f k).mpr hk, (modify_eq_self_iff l f k').mpr hk']

theorem onData_heap (m : Manager ι idOf) (h : m.place i = some k) :
    (m.onData i data).wasm.heap = (m.wasm.transports (idOf i)).elim m.wasm.heap
      (m.wasm.heap.modify · fun t => (t.injectData data).1) := by
  unfold Manager.onData
  rw [h]
  dsimp only
  cases hk : m.wasm.transports (idOf i) with
  | none => simp [Wasm.getTransport, hk]
  | some k' =>
    have hlt : k' < m.wasm.heap.length := m.wasm.valid _ _ hk
    have hget : m.wasm.getTransport (idOf i) = some (k', m.wasm.heap[k']) :=
      Wasm.getTransport_eq_some.mpr ⟨hk, List.getElem?_eq_getElem hlt⟩
    have hmodify : m.wasm.heap.modify k' (fun t => (t.injectData data).1) =
        m.wasm.heap.set k' (m.wasm.heap[k'].injectData data).1 := by
      rw [List.modify_eq_set_getElem?]
      simp [hlt]
    rw [hget]
    exact hmodify.symm

theorem onData_isolated_iff (s : Transports ι idOf) (i : ι) (data : Bytes) :
    s.Isolated (.onData i data) { s with manager := s.manager.onData i data } ↔
      s.Direct (.onData i data) := by
  cases hplace : s.manager.place i with
  | none => simp [Isolated, Direct, hplace, Manager.onData]
  | some k =>
    have hheap : (s.manager.onData i data).wasm.heap = _ := onData_heap s.manager hplace
    simp only [Isolated, Direct, hplace, true_and, Option.elim_some, Option.some.injEq,
      forall_eq', hheap]
    cases hk : s.manager.wasm.transports (idOf i) with
    | none =>
      have hfixed := modify_eq_self_iff s.manager.wasm.heap (fun t => (t.injectData data).1) k
      rw [← not_takes_iff] at hfixed
      simpa [eq_comm] using hfixed
    | some k' =>
      by_cases hsame : k' = k
      · subst hsame
        simp
      · simp only [Option.elim_some, Option.some.injEq, hsame, false_or, forall_eq']
        rw [modify_eq_modify_iff _ _ hsame, ← not_takes_iff, ← not_takes_iff]

/-- A `JSTransport` is registered under its object's id until it is closed. -/
def Reachable (s : Transports ι idOf) : Prop :=
  ∀ i k, s.manager.place i = some k →
    s.manager.wasm.transports (idOf i) = some k ∨ s.manager.isClosed k = true

theorem Reachable.mono (h : s.Reachable) (hplace : s'.manager.place = s.manager.place)
    (hkept : ∀ id k, s.manager.wasm.transports id = some k →
      s'.manager.wasm.transports id = some k ∨ s'.manager.isClosed k = true)
    (hclosed : ∀ k, s.manager.isClosed k = true → s'.manager.isClosed k = true) :
    s'.Reachable := by
  intro i k hk
  rw [hplace] at hk
  rcases h i k hk with hregistered | hshut
  · exact hkept _ k hregistered
  · exact Or.inr (hclosed k hshut)

theorem Reachable.direct (hinj : Function.Injective idOf) (h : s.Reachable) (a : Move ι) :
    s.Direct a := by
  cases a with
  | onData i data =>
    intro k hk
    rcases h i k hk with hregistered | hclosed
    · exact Or.inl hregistered
    · have hshut : ¬ s.Takes k := by
        rintro ⟨t, ht, hopen, _⟩
        simp [Manager.isClosed, ht, hopen] at hclosed
      refine Or.inr ⟨hshut, fun k' hk' => ?_⟩
      obtain ⟨j, howner, _⟩ := Manager.owner_of_registered hk'
      obtain ⟨hname, hplace⟩ := s.manager.current _ k' j hk' howner
      rw [hinj hname] at hplace
      cases hk.symm.trans hplace
      exact hshut
  | _ => trivial

variable [DecidableEq ι]

/-- A step keeps the streams apart exactly if it directs a chunk to where it belongs. -/
theorem step_isolated_iff (h : machine.step s a = some s') : s.Isolated a s' ↔ s.Direct a := by
  cases a with
  | onData i data =>
    cases h
    exact s.onData_isolated_iff i data
  | write k p =>
    refine iff_of_true ?_ trivial
    obtain ⟨t, _, h⟩ := Option.bind_eq_some_iff.mp h
    obtain ⟨j, hj, rfl⟩ := Option.map_eq_some_iff.mp h
    split_ifs
    · exact ⟨rfl, fun _ _ => rfl⟩
    · refine ⟨rfl, fun i hi => ?_⟩
      have hne : i ≠ j := by
        rintro rfl
        exact hi hj
      exact Function.update_of_ne hne ..
  | createTransport i =>
    cases h
    exact iff_of_true rfl trivial
  | connect i =>
    cases h
    exact iff_of_true rfl trivial
  | read k len arm =>
    refine iff_of_true ?_ trivial
    obtain ⟨t, _, h⟩ := Option.bind_eq_some_iff.mp h
    split_ifs at h
    · cases h
      rfl
    · obtain ⟨r, _, rfl⟩ := Option.map_eq_some_iff.mp h
      rfl
  | close k =>
    obtain ⟨p, _, rfl⟩ := Option.map_eq_some_iff.mp h
    exact iff_of_true (released_sent ..) trivial
  | closeTransport id =>
    refine iff_of_true ?_ trivial
    simp only [machine] at h
    split at h <;> (cases h; rfl)
  | disconnect i =>
    cases h
    exact iff_of_true rfl trivial
  | settle c resolves =>
    refine iff_of_true ?_ trivial
    obtain ⟨d, _, rfl⟩ := Option.map_eq_some_iff.mp h
    cases resolves with
    | true => exact disconnected_sent ..
    | false => rfl

/-- In every run of creations, closings and traffic, over any number of objects, the
streams are kept apart in every step exactly if every chunk that is taken arrives
while its object's own `JSTransport` is registered under its id. -/
theorem steps_isolated_iff (labels : List (Move ι)) (s : Transports ι idOf)
    (hrun : machine.run (start : Transports ι idOf) labels = some s) :
    machine.Steps Isolated (start : Transports ι idOf) labels ↔
      machine.Admits Direct (start : Transports ι idOf) labels := by
  apply machine.steps_iff_admits (I := fun _ => True) _ _ labels start s trivial hrun
  · exact fun _ _ _ _ _ => trivial
  · exact fun _ _ _ _ h => step_isolated_iff h

theorem Reachable.step (hinj : Function.Injective idOf) (h : s.Reachable) (hstep : Step s a s') :
    s'.Reachable := by
  cases hstep with
  | quiet _ _ _ _ _ hq =>
    refine h.mono hq.place (fun id k hk => Or.inl ?_) (fun k hk => ?_)
    · rwa [hq.registered]
    · rwa [hq.closed]
  | createTransport i =>
    intro j k hk
    by_cases hj : j = i
    · subst hj
      have hnew : Function.update s.manager.place j (some s.manager.wasm.heap.length) j = some k := hk
      rw [Function.update_self] at hnew
      cases hnew
      exact Or.inl (if_pos rfl)
    · have hold : s.manager.place j = some k := (Function.update_of_ne hj ..).symm.trans hk
      have hid : idOf j ≠ idOf i := fun heq => hj (hinj heq)
      rw [Manager.createTransport_isClosed]
      refine (h j k hold).imp_left fun hregistered => ?_
      simpa [Manager.createTransport, Wasm.createTransport, hid] using hregistered
  | close k m o hclose =>
    obtain ⟨_, hplace, hregistered, hclosed, _⟩ := Manager.close_eq_some hclose
    refine h.mono ?_ (fun id j hj => Or.inl ?_) (fun j hj => ?_)
    · rw [released_manager, hplace]
    · rw [released_manager, hregistered, hj]
    · rw [released_manager, hclosed, hj, Bool.true_or]
  | connect i => exact h
  | closeTransport id i hfound => exact h
  | disconnect i => exact h
  | rejected c d hd => exact h
  | resolved c d hd =>
    cases hawaits : d.awaits with
    | none =>
      have hmanager : ({ s with pending := s.pending.eraseIdx c }.disconnected d).manager =
          s.manager := by
        rw [disconnected_manager, hawaits]
        rfl
      refine h.mono (congrArg Manager.place hmanager) (fun id j hj => Or.inl ?_) (fun j hj => ?_)
      · rwa [hmanager]
      · rwa [hmanager]
    | some call =>
      have hmanager : ({ s with pending := s.pending.eraseIdx c }.disconnected d).manager =
          (s.manager.closeTransport call.id).1 := by
        rw [disconnected_manager, hawaits]
        rfl
      obtain ⟨hclosed, _⟩ := s.manager.closeTransport_spec call.id
      have hframe := congrFun (s.manager.wasm.closeTransport_frame call.id).1
      refine h.mono ?_ (fun id j hj => ?_) (fun j hj => ?_)
      · rw [hmanager]
        rfl
      · rw [hmanager]
        by_cases hid : id = call.id
        · right
          subst hid
          exact (hclosed j).trans (by simp [hj])
        · left
          exact (hframe id).trans ((if_neg hid).trans hj)
      · rw [hmanager]
        exact (hclosed j).trans (by simp [hj])

/-- Objects with ids of their own are isolated in every run. -/
theorem steps_isolated_of_injective (hinj : Function.Injective idOf) (labels : List (Move ι)) :
    machine.Steps Isolated (start : Transports ι idOf) labels := by
  apply machine.steps_of_invariant (I := Reachable)
  · exact fun _ _ _ h hstep => h.step hinj (step_cases hstep)
  · exact fun _ a _ h hstep => (step_isolated_iff hstep).mpr (h.direct hinj a)
  · intro i k hk
    cases hk

/-- Two objects with ids of their own receive and send. -/
theorem steps_isolated_ownIds :
    machine.Steps Isolated (start : Transports Bool fun b => if b then "b" else "a")
      [.createTransport false, .createTransport true, .onData false [1], .write 1 [2],
        .onData true [3]] := by
  apply (steps_isolated_iff _ _ rfl).mpr
  iterate 2 refine (machine.admits_cons rfl).mpr ⟨trivial, ?_⟩
  refine (machine.admits_cons rfl).mpr ⟨?_, (machine.admits_cons rfl).mpr ⟨trivial, ?_⟩⟩
  · intro k hk
    cases hk
    exact Or.inl rfl
  refine (machine.admits_cons rfl).mpr ⟨?_, trivial⟩
  intro k hk
  cases hk
  exact Or.inl rfl

/-- An object that is registered under the id of an open one gets its bytes. -/
theorem sharedId_not_isolated :
    ∃ s, machine.run (start : Transports Bool fun _ => "t")
        [.createTransport false, .createTransport true, .onData false [1]] = some s ∧
      s.manager.wasm.heap.map (·.pending) = [[], [1]] ∧
      s.manager.owners = [false, true] ∧
      ¬ machine.Steps Isolated (start : Transports Bool fun _ => "t")
        [.createTransport false, .createTransport true, .onData false [1]] := by
  refine ⟨_, rfl, rfl, rfl, ?_⟩
  intro hsteps
  obtain ⟨_, hheap⟩ := (((hsteps _ rfl).2 _ rfl).2 _ rfl).1
  have hpending := congrArg (List.map (·.pending)) hheap
  exact absurd hpending (by decide)

end Transports
end SshClientWasm.Bridge
