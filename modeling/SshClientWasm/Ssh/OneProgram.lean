import SshClientWasm.Ssh.Loaded

/-!
# One Go program

The flag keeps a call of `initialize` from `go.run` once another one has resolved. It
does not while the other one is pending, and not when a failure has taken it back. Of the
calls it is recorded which pass the test of the flag while others are pending.
-/
namespace SshClientWasm.Ssh.Page

open Library

variable {s s' : Page} {a : PageEvent} {c d : ℕ} {ok : Bool} {l : Loading} {next : Page × Loading}

/-- A call has got to `go.run`. -/
def Ran (s : Page) (c : ℕ) : Prop := s.calls[c]? = some .sleep ∨ s.calls[c]? = some .resolved

instance (s : Page) (c : ℕ) : Decidable (s.Ran c) := inferInstanceAs (Decidable (_ ∨ _))

/-- The calls that are pending when another one passes the test of the flag, with that one. -/
def overlaps (s : Page) : PageEvent → List (ℕ × ℕ)
  | .initializeCalled _ =>
    if s.initialized then []
    else ((List.range s.calls.length).filter fun c =>
      s.calls[c]? ≠ some .resolved ∧ s.calls[c]? ≠ some .rejected).map (·, s.calls.length)
  | _ => []

/-- A page with the pairs of calls that overlap. -/
abbrev overlapping : Machine (Page × List (ℕ × ℕ)) PageEvent := machine.recorded overlaps

/-- A call gets to `go.run` only if none that overlaps with it has. -/
def Apart (s : Page × List (ℕ × ℕ)) : PageEvent → Prop
  | .settle c true => s.1.calls[c]? = some .instantiate →
      ∀ p ∈ s.2, (p.1 = c → ¬ s.1.Ran p.2) ∧ (p.2 = c → ¬ s.1.Ran p.1)
  | _ => True

instance (s : Page × List (ℕ × ℕ)) : ∀ a, Decidable (Apart s a)
  | .settle _ true => inferInstanceAs (Decidable (_ → _))
  | .settle _ false | .initializeCalled _ | .executorRuns | .connect | .inbound _ => isTrue trivial

/-- Programs are started by the calls that get to `go.run`, and then exported. -/
structure Counted (s : Page) : Prop extends s.Started where
  ran : 0 < s.programs ↔ ∃ c, s.Ran c
  exports : 0 < s.programs → s.exported ≠ none

theorem resume_ran (hexports : l = .sleep → s.exported ≠ none) (h : s.resume ok l = some next) :
    (next.2 = .sleep ∨ next.2 = .resolved) ↔ l = .sleep ∨ l = .instantiate ∧ ok = true := by
  cases l with
  | assets | fetch | buffer | instantiate => cases ok <;> cases h <;> simp [failed]
  | executor present =>
    cases ok with
    | true => cases hexecutor : s.executor <;> simp [resume, hexecutor] at h <;> simp [← h, failed]
    | false =>
      cases present <;> simp [resume] at h
      simp [← h, failed]
  | sleep =>
    obtain ⟨p, hp⟩ := Option.ne_none_iff_exists'.mp (hexports rfl)
    cases ok <;> simp [resume, hp] at h
    simp [← h]
  | resolved | rejected => cases h

theorem Counted.ran_settle (h : s.Counted) (hl : s.calls[c]? = some l)
    (hresume : s.resume ok l = some next) (hcalls : s'.calls = s.calls.set c next.2) (d : ℕ) :
    s'.Ran d ↔ s.Ran d ∨ d = c ∧ l = .instantiate ∧ ok = true := by
  have hexports : l = .sleep → s.exported ≠ none := by
    rintro rfl
    exact h.exports (h.ran.mpr ⟨c, Or.inl hl⟩)
  have hran := resume_ran hexports hresume
  unfold Ran
  by_cases hd : d = c
  · subst hd
    have hlt := (List.getElem?_eq_some_iff.mp hl).1
    have hne := resume_ne_resolved hresume
    rw [hcalls, List.getElem?_set_self hlt, hl]
    simp only [Option.some.injEq, hran, hne, or_false, true_and]
  · simp [hcalls, List.getElem?_set_ne (Ne.symm hd), hd]

theorem ran_step (hstep : machine.step s a = some s') (ha : ∀ c ok, a ≠ .settle c ok) (d : ℕ) :
    s'.Ran d ↔ s.Ran d := by
  unfold Ran
  obtain ⟨-, hcalls | ⟨_, l, -, -, hsleep, hresolved, hcalls⟩⟩ := other_cases hstep ha
  · rw [hcalls]
  · rw [hcalls]
    rcases Nat.lt_trichotomy d s.calls.length with hlt | rfl | hlt
    · rw [List.getElem?_append_left hlt]
    · simp [hsleep, hresolved]
    · simp [List.getElem?_eq_none hlt.le, hlt]

theorem Counted.step_cases (h : s.Counted) (hstep : machine.step s a = some s') :
    (∃ c, a = .settle c true ∧ s.calls[c]? = some .instantiate ∧
      s'.programs = s.programs + 1 ∧ s'.exported ≠ none ∧ ∀ d, s'.Ran d ↔ s.Ran d ∨ d = c) ∨
    (∀ c, a = .settle c true → s.calls[c]? ≠ some .instantiate) ∧ s'.programs = s.programs ∧
      s'.exported = s.exported ∧ ∀ d, s'.Ran d ↔ s.Ran d := by
  by_cases ha : ∃ c ok, a = .settle c ok
  · obtain ⟨c, ok, rfl⟩ := ha
    obtain ⟨l, hl, hstep⟩ := Option.bind_eq_some_iff.mp hstep
    obtain ⟨next, hresume, rfl⟩ := Option.map_eq_some_iff.mp hstep
    have hran : ∀ d, Ran { next.1 with calls := s.calls.set c next.2 } d ↔
        s.Ran d ∨ d = c ∧ l = .instantiate ∧ ok = true := h.ran_settle hl hresume rfl
    rcases resume_cases hresume with ⟨rfl, rfl, hrun⟩ | ⟨hnot, hprograms, hexported, _⟩
    · left
      refine ⟨c, rfl, hl, ?_, ?_, by simpa using hran⟩
      · rw [hrun, run]
      · rw [hrun, run]
        simp
    · right
      refine ⟨?_, hprograms, hexported, fun d => (hran d).trans (or_iff_left ?_)⟩
      · rintro d ⟨⟩ hinstantiate
        cases hl.symm.trans hinstantiate
        simp at hnot
      · rintro ⟨_, rfl, rfl⟩
        simp at hnot
  · have hother : ∀ c ok, a ≠ .settle c ok := by simpa using ha
    obtain ⟨⟨-, hprograms, hexported, -⟩, -⟩ := other_cases hstep hother
    exact Or.inr ⟨fun c hc => absurd ⟨c, true, hc⟩ ha, hprograms, hexported, ran_step hstep hother⟩

theorem Counted.step (h : s.Counted) (hstep : machine.step s a = some s') : s'.Counted := by
  refine ⟨h.toStarted.step hstep, ?_, ?_⟩
  all_goals
    rcases h.step_cases hstep with
      ⟨c, -, -, hprograms, hexported, hran⟩ | ⟨-, hprograms, hexported, hran⟩
  · simp [hprograms, hran]
  · simp [hprograms, hran, h.ran]
  · exact fun _ => hexported
  · rw [hprograms, hexported]
    exact h.exports

theorem start_counted : start.Counted :=
  ⟨start_started, by simp [start, Ran], by simp [start]⟩

theorem mem_overlaps {autoDetect : Bool} (hinit : s.initialized = false) (hc : c < s.calls.length)
    (hresolved : s.calls[c]? ≠ some .resolved) (hrejected : s.calls[c]? ≠ some .rejected) :
    (c, s.calls.length) ∈ s.overlaps (.initializeCalled autoDetect) := by
  rw [overlaps, if_neg (by simp [hinit])]
  refine List.mem_map_of_mem (List.mem_filter.mpr ⟨List.mem_range.mpr hc, ?_⟩)
  exact decide_eq_true ⟨hresolved, hrejected⟩

/-- Two calls overlap, unless the earlier one has failed before the later one begins. -/
def Related (s : Page × List (ℕ × ℕ)) : Prop :=
  ∀ c d, c < d → d < s.1.calls.length → (c, d) ∈ s.2 ∨ s.1.calls[c]? = some .rejected

theorem Related.settle {log : List (ℕ × ℕ)} {e : ℕ} (h : Related (s, log))
    (hmove : machine.step s (.settle e ok) = some s') : Related (s', log) := by
  obtain ⟨l, next, hl, hresume, hcalls, -⟩ := settle_cases hmove
  intro c d hcd hd
  dsimp only at hd ⊢
  rw [hcalls, List.length_set] at hd
  rcases h c d hcd hd with hover | hrejected
  · exact Or.inl hover
  · right
    have hne : e ≠ c := by
      rintro rfl
      cases hl.symm.trans hrejected
      cases hresume
    rw [hcalls, List.getElem?_set_ne hne]
    exact hrejected

/-- A call that passes the test of a flag that is not taken back finds the earlier ones
pending or failed. -/
theorem Related.step {s s' : Page × List (ℕ × ℕ)} (h : Related s) (husable : s.1.Usable)
    (hstep : overlapping.step s a = some s') : Related s' := by
  obtain ⟨s, log⟩ := s
  obtain ⟨s', log'⟩ := s'
  obtain ⟨hmove, hlog⟩ := (Machine.recorded_step _).mp hstep
  dsimp only at hmove hlog husable
  by_cases ha : ∃ e ok, a = .settle e ok
  · obtain ⟨e, ok, rfl⟩ := ha
    rw [hlog, show s.overlaps (.settle e ok) = [] from rfl, List.append_nil]
    exact h.settle hmove
  intro c d hcd hd
  dsimp only at hd ⊢
  rw [hlog, List.mem_append]
  obtain ⟨-, hcalls | ⟨_, l, rfl, hinit, -, -, hcalls⟩⟩ := other_cases hmove (by simpa using ha)
  · rw [hcalls] at hd ⊢
    exact (h c d hcd hd).imp_left Or.inl
  · rw [hcalls, List.length_append, List.length_singleton] at hd
    rcases Nat.lt_succ_iff_lt_or_eq.mp hd with hlt | rfl
    · rw [hcalls, List.getElem?_append_left (hcd.trans hlt)]
      exact (h c d hcd hlt).imp_left Or.inl
    · -- the new call; the flag is down, so that no earlier one has resolved
      have hresolved : s.calls[c]? ≠ some .resolved := by
        intro hc
        have hup := husable (List.mem_of_getElem? hc)
        rw [hinit] at hup
        cases hup
      rw [hcalls, List.getElem?_append_left hcd]
      by_cases hrejected : s.calls[c]? = some .rejected
      · exact Or.inr hrejected
      · exact Or.inl (Or.inr (mem_overlaps hinit hcd hresolved hrejected))

/-- Where the calls are related, one that gets to `go.run` apart from those it overlaps with
is the first one there. -/
theorem Related.first {s : Page × List (ℕ × ℕ)} (h : Related s) (hcounted : s.1.Counted)
    (hc : s.1.calls[c]? = some .instantiate) (hapart : Apart s (.settle c true)) :
    s.1.programs = 0 := by
  by_contra hprograms
  obtain ⟨d, hd⟩ := hcounted.ran.mp (Nat.pos_of_ne_zero hprograms)
  have hclt := (List.getElem?_eq_some_iff.mp hc).1
  have hdlt : d < s.1.calls.length := by
    rcases hd with hd | hd <;> exact (List.getElem?_eq_some_iff.mp hd).1
  rcases Nat.lt_trichotomy c d with hlt | rfl | hlt
  · rcases h c d hlt hdlt with hover | hrejected
    · exact (hapart hc (c, d) hover).1 rfl hd
    · cases hc.symm.trans hrejected
  · rcases hd with hd | hd <;> cases hc.symm.trans hd
  · rcases h d c hlt hclt with hover | hrejected
    · exact (hapart hc (d, c) hover).2 rfl hd
    · rcases hd with hd | hd <;> cases hrejected.symm.trans hd

/-- What a run keeps in which calls that overlap do not both get to `go.run`, and none fails
behind one that has resolved. -/
structure OneProgram (s : Page × List (ℕ × ℕ)) : Prop where
  counted : s.1.Counted
  usable : s.1.Usable
  related : Related s
  single : s.1.Single

theorem OneProgram.step {s s' : Page × List (ℕ × ℕ)} (h : OneProgram s) (hapart : Apart s a)
    (htime : s.1.InTime a) (hstep : overlapping.step s a = some s') : OneProgram s' := by
  have hmove := ((Machine.recorded_step _).mp hstep).1
  refine ⟨h.counted.step hmove, (step_usable_iff h.usable hmove).mpr htime,
    h.related.step h.usable hstep, (h.counted.step hmove).single_iff.mpr ?_⟩
  rcases h.counted.step_cases hmove with ⟨c, rfl, hc, hprograms, -⟩ | ⟨-, hprograms, -⟩
  · rw [hprograms, h.related.first h.counted hc hapart]
  · rw [hprograms]
    exact h.single.programs

/-- If of two calls that overlap at most one gets to `go.run`, and no call fails behind one
that has resolved, then in every state of the run there is at most one Go program, and
everything goes to it. In any run there is at most one only if of two calls that overlap at
most one gets to `go.run`. -/
theorem always_single_of_apart (labels : List PageEvent) (t : Page × List (ℕ × ℕ))
    (hrun : overlapping.run (start, []) labels = some t) :
    (overlapping.Admits (fun s a => Apart s a ∧ s.1.InTime a) (start, []) labels →
      overlapping.Always (fun s => s.1.Single) (start, []) labels) ∧
    (overlapping.Always (fun s => s.1.Single) (start, []) labels →
      overlapping.Admits Apart (start, []) labels) := by
  constructor
  · refine overlapping.always_of_admits (I := OneProgram) (fun _ h => h.single) ?_ labels _ ?_
    · exact fun _ _ _ h hguard hstep => h.step hguard.1 hguard.2 hstep
    · refine ⟨start_counted, by simp [Usable, start], ?_, ?_⟩
      · intro c d _ hd
        simp [start] at hd
      · exact start_started.single_iff.mpr (by decide)
  · intro hall
    refine overlapping.admits_of_always (I := fun s => s.1.Counted) ?_ ?_ labels _ t start_counted hrun
      (overlapping.admits_of_forall (fun _ _ _ => trivial) _ : overlapping.Admits (fun _ _ => True) _ _)
      hall
    · exact fun _ _ _ h _ hstep => h.step ((Machine.recorded_step _).mp hstep).1
    · intro s a s' hcounted _ hstep hsingle
      have hmove := ((Machine.recorded_step _).mp hstep).1
      rcases hcounted.step_cases hmove with ⟨c, rfl, hc, hprograms, -⟩ | ⟨hnot, -⟩
      · have hnone : ∀ d, ¬ s.1.Ran d := by
          intro d hd
          have hone := hsingle.programs
          have hpos := hcounted.ran.mpr ⟨d, hd⟩
          omega
        exact fun _ p _ => ⟨fun _ => hnone p.2, fun _ => hnone p.1⟩
      · cases a with
        | settle c ok =>
          cases ok with
          | true => exact fun hc => absurd hc (hnot c rfl)
          | false => trivial
        | _ => trivial

/-- Two calls overlap, of which one fails before it gets to `go.run`. -/
theorem always_single_overlapping :
    overlapping.Always (fun s => s.1.Single) (start, [])
      ([.initializeCalled false, .executorRuns, .initializeCalled false, .settle 1 true,
        .settle 1 false] ++ List.replicate 5 (.settle 0 true) ++ [.connect, .inbound 0]) :=
  (always_single_of_apart _ _ rfl).1 (by decide)

/-- A second call that has begun before the first has ended starts a second program, and
takes over the chunks of the session that was opened in between. -/
theorem overlapping_not_single :
    ∃ s, machine.run start ([.initializeCalled false, .executorRuns, .initializeCalled false] ++
        List.replicate 5 (.settle 0 true) ++ [.connect] ++ List.replicate 5 (.settle 1 true) ++
        [.inbound 0]) = some s ∧
      s.programs = 2 ∧ s.registered = [0] ∧ s.managerInstance = some 1 ∧ s.injected = [(0, 1)] ∧
      ¬ s.Single := by
  refine ⟨_, rfl, rfl, rfl, rfl, rfl, ?_⟩
  intro hsingle
  exact absurd hsingle.programs (by decide)

end SshClientWasm.Ssh.Page
