import SshClientWasm.Ssh.Initialize

/-!
# A page that has been initialized

A call of `initialize` that fails takes the flag back, also the flag that another call
has raised in the meantime.
-/
namespace SshClientWasm.Ssh.Page

open Library

variable {s s' : Page} {a : PageEvent}

/-- Once a call of `initialize` has resolved, `connect` gets past its test. -/
def Usable (s : Page) : Prop := .resolved ∈ s.calls → s.initialized = true

/-- A call fails only while none has resolved. -/
def InTime (s : Page) : PageEvent → Prop
  | .settle c ok =>
    (s.calls[c]?.bind (s.resume ok)).map Prod.snd = some .rejected → .resolved ∉ s.calls
  | _ => True

instance (s : Page) : ∀ a, Decidable (s.InTime a)
  | .settle _ _ => inferInstanceAs (Decidable (_ → _))
  | .initializeCalled _ | .executorRuns | .connect | .inbound _ => isTrue trivial

/-- Where the flag is up, a call has resolved, and `SSHClient` and the manager refer to one
program. -/
def Loaded (s : Page) : Prop :=
  s.initialized = true →
    .resolved ∈ s.calls ∧ ∃ p, s.wasmInstance = some p ∧ s.managerInstance = some p

theorem resume_flag {ok : Bool} {l : Loading} {next : Page × Loading}
    (h : s.resume ok l = some next) :
    (next.2 = .rejected ∧ next.1.initialized = false) ∨
      (next.2 = .resolved ∧ next.1.initialized = true ∧
        ∃ p, next.1.wasmInstance = some p ∧ next.1.managerInstance = some p) ∨
      next.2 ≠ .rejected ∧ next.2 ≠ .resolved ∧ next.1.initialized = s.initialized ∧
        next.1.wasmInstance = s.wasmInstance ∧ next.1.managerInstance = s.managerInstance := by
  cases l with
  | assets | fetch | buffer | instantiate =>
    cases ok with
    | true =>
      cases h
      exact Or.inr (Or.inr ⟨by simp, by simp, rfl, rfl, rfl⟩)
    | false =>
      cases h
      exact Or.inl ⟨rfl, rfl⟩
  | executor present =>
    cases ok with
    | true =>
      cases hexecutor : s.executor with
      | true =>
        simp only [resume, hexecutor, if_true] at h
        cases h
        exact Or.inr (Or.inr ⟨by simp, by simp, rfl, rfl, rfl⟩)
      | false =>
        simp only [resume, hexecutor, if_true] at h
        cases h
        exact Or.inl ⟨rfl, rfl⟩
    | false =>
      cases present with
      | true => cases h
      | false =>
        cases h
        exact Or.inl ⟨rfl, rfl⟩
  | sleep =>
    cases ok with
    | false => cases h
    | true =>
      cases hexported : s.exported with
      | none =>
        simp only [resume, hexported, if_true] at h
        cases h
        exact Or.inl ⟨rfl, rfl⟩
      | some p =>
        simp only [resume, hexported, if_true] at h
        cases h
        exact Or.inr (Or.inl ⟨rfl, rfl, p, rfl, rfl⟩)
  | resolved | rejected => cases h

theorem resume_ne_resolved {ok : Bool} {l : Loading} {next : Page × Loading}
    (h : s.resume ok l = some next) : l ≠ .resolved := by
  rintro rfl
  cases h

theorem settle_cases {c : ℕ} {ok : Bool} (h : machine.step s (.settle c ok) = some s') :
    ∃ l next, s.calls[c]? = some l ∧ s.resume ok l = some next ∧
      s'.calls = s.calls.set c next.2 ∧ s'.initialized = next.1.initialized ∧
      s'.wasmInstance = next.1.wasmInstance ∧ s'.managerInstance = next.1.managerInstance := by
  obtain ⟨l, hl, h⟩ := Option.bind_eq_some_iff.mp h
  obtain ⟨next, hnext, rfl⟩ := Option.map_eq_some_iff.mp h
  exact ⟨l, next, hl, hnext, rfl, rfl, rfl, rfl⟩

/-- Of the other steps only a call of `initialize` that finds the flag down is noticed. -/
theorem other_cases (hstep : machine.step s a = some s') (ha : ∀ c ok, a ≠ .settle c ok) :
    (s'.initialized = s.initialized ∧ s'.programs = s.programs ∧ s'.exported = s.exported ∧
      s'.wasmInstance = s.wasmInstance ∧ s'.managerInstance = s.managerInstance) ∧
    (s'.calls = s.calls ∨ ∃ autoDetect l, a = .initializeCalled autoDetect ∧
      s.initialized = false ∧ l ≠ .sleep ∧ l ≠ .resolved ∧ s'.calls = s.calls ++ [l]) := by
  cases a with
  | settle c ok => exact absurd rfl (ha c ok)
  | initializeCalled autoDetect =>
    cases hinit : s.initialized with
    | true =>
      simp only [machine, hinit, if_true] at hstep
      cases hstep
      exact ⟨⟨hinit, rfl, rfl, rfl, rfl⟩, Or.inl rfl⟩
    | false =>
      simp only [machine, hinit, Bool.false_eq_true, if_false] at hstep
      cases hstep
      refine ⟨⟨rfl, rfl, rfl, rfl, rfl⟩, Or.inr ⟨autoDetect, _, rfl, rfl, ?_, ?_, rfl⟩⟩
      all_goals split <;> simp
  | executorRuns =>
    cases hstep
    exact ⟨⟨rfl, rfl, rfl, rfl, rfl⟩, Or.inl rfl⟩
  | connect =>
    cases hstep
    split
    · split <;> exact ⟨⟨rfl, rfl, rfl, rfl, rfl⟩, Or.inl rfl⟩
    · exact ⟨⟨rfl, rfl, rfl, rfl, rfl⟩, Or.inl rfl⟩
  | inbound t =>
    obtain ⟨p, -, h⟩ := Option.bind_eq_some_iff.mp hstep
    obtain ⟨q, -, rfl⟩ := Option.map_eq_some_iff.mp h
    exact ⟨⟨rfl, rfl, rfl, rfl, rfl⟩, Or.inl rfl⟩

theorem other_resolved (hstep : machine.step s a = some s') (ha : ∀ c ok, a ≠ .settle c ok) :
    .resolved ∈ s'.calls ↔ .resolved ∈ s.calls := by
  obtain ⟨-, hcalls | ⟨_, l, -, -, -, hl, hcalls⟩⟩ := other_cases hstep ha
  · rw [hcalls]
  · rw [hcalls, List.mem_append, List.mem_singleton, or_iff_left hl.symm]

theorem resolved_step (hresolved : .resolved ∈ s.calls) (hstep : machine.step s a = some s') :
    .resolved ∈ s'.calls := by
  by_cases ha : ∃ c ok, a = .settle c ok
  · obtain ⟨c, ok, rfl⟩ := ha
    obtain ⟨l, next, hl, hnext, hcalls, -⟩ := settle_cases hstep
    obtain ⟨d, hd⟩ := List.mem_iff_getElem?.mp hresolved
    have hne : c ≠ d := by
      rintro rfl
      exact resume_ne_resolved hnext (Option.some.inj (hl.symm.trans hd))
    rw [hcalls]
    exact List.mem_iff_getElem?.mpr ⟨d, (List.getElem?_set_ne hne).trans hd⟩
  · exact (other_resolved hstep (by simpa using ha)).mpr hresolved

theorem Loaded.step (h : s.Loaded) (hstep : machine.step s a = some s') : s'.Loaded := by
  intro hflag
  by_cases ha : ∃ c ok, a = .settle c ok
  · obtain ⟨c, ok, rfl⟩ := ha
    obtain ⟨l, next, hl, hnext, hcalls, hinit, hwasm, hmanager⟩ := settle_cases hstep
    rw [hinit] at hflag
    rw [hwasm, hmanager]
    rcases resume_flag hnext with ⟨-, hdown⟩ | ⟨hresolved, -, hprogram⟩ | ⟨-, -, hsame, hw, hm⟩
    · rw [hdown] at hflag
      cases hflag
    · refine ⟨?_, hprogram⟩
      rw [hcalls, hresolved]
      exact List.mem_set (List.getElem?_eq_some_iff.mp hl).1 _
    · rw [hsame] at hflag
      rw [hw, hm]
      exact ⟨resolved_step (h hflag).1 hstep, (h hflag).2⟩
  · have hother : ∀ c ok, a ≠ .settle c ok := by simpa using ha
    obtain ⟨⟨hinit, -, -, hwasm, hmanager⟩, -⟩ := other_cases hstep hother
    rw [hinit] at hflag
    rw [hwasm, hmanager, other_resolved hstep hother]
    exact h hflag

theorem start_loaded : start.Loaded := by simp [Loaded, start]

/-- A step keeps a page usable exactly if it is no failure behind a success. -/
theorem step_usable_iff (h : s.Usable) (hstep : machine.step s a = some s') :
    s'.Usable ↔ s.InTime a := by
  by_cases ha : ∃ c ok, a = .settle c ok
  · obtain ⟨c, ok, rfl⟩ := ha
    obtain ⟨l, next, hl, hnext, hcalls, hinit, -⟩ := settle_cases hstep
    have htime : s.InTime (.settle c ok) ↔ (next.2 = .rejected → .resolved ∉ s.calls) := by
      simp [InTime, hl, hnext]
    rw [htime]
    have hset : .resolved ∈ s.calls → .resolved ∈ s'.calls := fun h => resolved_step h hstep
    rcases resume_flag hnext with ⟨hrejected, hdown⟩ | ⟨hresolved, hup, -⟩ |
      ⟨hrejected, hresolved, hsame, -⟩
    · rw [Usable, hinit, hdown, hrejected]
      have hback : .resolved ∈ s'.calls → .resolved ∈ s.calls := by
        rw [hcalls, hrejected]
        intro hmem
        rcases List.mem_or_eq_of_mem_set hmem with hmem | hmem
        · exact hmem
        · cases hmem
      simp only [Bool.false_eq_true, imp_false, forall_const]
      exact not_congr ⟨hback, hset⟩
    · rw [hresolved]
      exact iff_of_true (fun _ => hinit.trans hup) (by simp)
    · refine iff_of_true (fun hmem => ?_) (fun h => absurd h hrejected)
      rw [hcalls] at hmem
      rw [hinit, hsame]
      rcases List.mem_or_eq_of_mem_set hmem with hmem | hmem
      · exact h hmem
      · exact absurd hmem.symm hresolved
  · have hother : ∀ c ok, a ≠ .settle c ok := by simpa using ha
    obtain ⟨⟨hinit, -⟩, -⟩ := other_cases hstep hother
    have htime : s.InTime a := by
      cases a with
      | settle c ok => exact absurd ⟨c, ok, rfl⟩ ha
      | _ => trivial
    rw [Usable, hinit, other_resolved hstep hother]
    exact iff_of_true h htime

/-- In every interleaving, whatever fails: in every state in which a call of `initialize` has
resolved `connect` finds the page initialized, exactly if no call fails behind one that has
resolved. -/
theorem always_usable_iff (labels : List PageEvent) (s : Page)
    (hrun : machine.run start labels = some s) :
    machine.Always Usable start labels ↔ machine.Admits InTime start labels :=
  machine.always_iff_admits (I := fun _ => True) (fun _ _ _ _ _ => trivial)
    (fun _ _ _ _ h hstep => step_usable_iff h hstep) labels start s trivial
    (by simp [Usable, start]) hrun

/-- Two calls overlap: the one that fails does harm only if it is the later one. -/
theorem always_usable_overlapping :
    machine.Always Usable start ([.initializeCalled false, .executorRuns, .initializeCalled false,
        .settle 1 true, .settle 1 false] ++ List.replicate 5 (.settle 0 true) ++ [.connect]) ∧
      ¬ machine.Always Usable start ([.initializeCalled false, .executorRuns,
        .initializeCalled false, .settle 1 true] ++ List.replicate 5 (.settle 0 true) ++
          [.settle 1 false, .connect]) :=
  ⟨(always_usable_iff _ _ rfl).mpr (by decide), fun h =>
    absurd ((always_usable_iff _ _ rfl).mp h) (by decide)⟩

end SshClientWasm.Ssh.Page
