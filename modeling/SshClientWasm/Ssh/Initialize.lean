import SshClientWasm.Library.Machine

/-!
# Loading the Go program

`SSHClient.initialize` tests a flag, awaits up to six promises, and sets the flag at the
end. Calls that overlap each start a Go program. Each program has its own exports and
its own registry of transports; `window.SSHClient` refers to the exports of the last.
-/
namespace SshClientWasm.Ssh

open Library

/-- What a call of `initialize` awaits, or what became of it. The executor may have been
there already when it was asked for. -/
inductive Loading
  | assets
  | executor (present : Bool)
  | fetch
  | buffer
  | instantiate
  | sleep
  | resolved
  | rejected
  deriving DecidableEq, Repr

/-- A page with its Go programs, which are known by their number, and the calls of
`initialize`. For each registered transport the program that has it is kept, and for
each chunk that has arrived also the one that it was injected into. -/
structure Page where
  initialized : Bool
  executor : Bool
  programs : ℕ
  exported : Option ℕ
  wasmInstance : Option ℕ
  managerInstance : Option ℕ
  calls : List Loading
  registered : List ℕ
  injected : List (ℕ × ℕ)

/-- Calls, the promises they await, the script of the executor when it runs, sessions
that are opened, and chunks that arrive for a transport. -/
inductive PageEvent
  | initializeCalled (autoDetect : Bool)
  | settle (c : ℕ) (ok : Bool)
  | executorRuns
  | connect
  | inbound (t : ℕ)
  deriving DecidableEq, Repr

namespace Page

def start : Page := ⟨false, false, 0, none, none, none, [], [], []⟩

variable (s : Page)

/-- The `catch` of `initialize`. -/
def failed : Page × Loading := ({ s with initialized := false }, .rejected)

/-- `go.run`, which runs `main` up to its `select`. -/
def run : Page := { s with programs := s.programs + 1, exported := some s.programs }

/-- What `initialize` does when the promise that it awaits has settled. -/
def resume (ok : Bool) : Loading → Option (Page × Loading)
  | .assets => some (if ok then (s, .executor s.executor) else s.failed)
  | .executor present =>
    if ok then some (if s.executor then (s, .fetch) else s.failed)
    else if present then none else some s.failed
  | .fetch => some (if ok then (s, .buffer) else s.failed)
  | .buffer => some (if ok then (s, .instantiate) else s.failed)
  | .instantiate => some (if ok then (s.run, .sleep) else s.failed)
  | .sleep =>
    if ok then
      match s.exported with
      | none => some ({ s with wasmInstance := none }).failed
      | some p =>
        some ({ s with
          initialized := true
          wasmInstance := some p
          managerInstance := some p }, .resolved)
    else none
  | .resolved | .rejected => none

def machine : Machine Page PageEvent where
  step s
    | .initializeCalled autoDetect =>
      some (if s.initialized then s
        else { s with calls := s.calls ++ [if autoDetect then .assets else .executor s.executor] })
    | .settle c ok =>
      (s.calls[c]?).bind fun l =>
        (s.resume ok l).map fun next => { next.1 with calls := s.calls.set c next.2 }
    | .executorRuns => some { s with executor := true }
    | .connect =>
      some (if s.initialized then
          match s.managerInstance with
          | none => s
          | some p => { s with registered := s.registered ++ [p] }
        else s)
    | .inbound t =>
      (s.registered[t]?).bind fun p =>
        s.managerInstance.map fun q => { s with injected := s.injected ++ [(p, q)] }

/-- At most one Go program runs, the manager refers to the program of every registered
transport, and every chunk went to the program that has its transport. -/
structure Single (s : Page) : Prop where
  programs : s.programs ≤ 1
  registered : ∀ p ∈ s.registered, s.managerInstance = some p
  injected : ∀ chunk ∈ s.injected, chunk.2 = chunk.1

/-- Every program that is referred to was started, and the manager has one if a
transport is registered. -/
structure Started (s : Page) : Prop where
  exported : ∀ p, s.exported = some p → p < s.programs
  managerInstance : ∀ p, s.managerInstance = some p → p < s.programs
  registered : ∀ p ∈ s.registered, p < s.programs ∧ s.managerInstance ≠ none
  injected : ∀ chunk ∈ s.injected, chunk.1 < s.programs ∧ chunk.2 < s.programs

variable {s} {s' : Page} {a : PageEvent} {ok : Bool} {l : Loading} {next : Page × Loading}

theorem Started.single_iff (h : s.Started) : s.Single ↔ s.programs ≤ 1 := by
  constructor
  · exact fun hsingle => hsingle.programs
  · intro hprograms
    refine ⟨hprograms, ?_, ?_⟩
    · intro p hp
      obtain ⟨hlt, hset⟩ := h.registered p hp
      obtain ⟨q, hq⟩ := Option.ne_none_iff_exists'.mp hset
      have hqlt := h.managerInstance q hq
      rw [hq]
      congr 1
      omega
    · intro chunk hchunk
      obtain ⟨hleft, hright⟩ := h.injected chunk hchunk
      omega

/-- Only `go.run` starts a program; the manager may get the one that is exported. -/
theorem resume_cases (h : s.resume ok l = some next) :
    (l = .instantiate ∧ ok = true ∧ next.1 = s.run) ∨
      (l ≠ .instantiate ∨ ok = false) ∧ next.1.programs = s.programs ∧
        next.1.exported = s.exported ∧ next.1.registered = s.registered ∧
        next.1.injected = s.injected ∧
        (next.1.managerInstance = s.managerInstance ∨
          next.1.managerInstance = s.exported ∧ s.exported ≠ none) := by
  cases l with
  | instantiate =>
    cases ok with
    | true =>
      cases h
      exact Or.inl ⟨rfl, rfl, rfl⟩
    | false =>
      cases h
      exact Or.inr ⟨Or.inr rfl, rfl, rfl, rfl, rfl, Or.inl rfl⟩
  | assets | fetch | buffer =>
    cases ok <;> cases h <;> exact Or.inr ⟨Or.inl (by simp), rfl, rfl, rfl, rfl, Or.inl rfl⟩
  | executor present =>
    right
    cases ok with
    | true =>
      cases hexecutor : s.executor <;> simp only [resume, hexecutor, if_true] at h <;> cases h <;>
        exact ⟨Or.inl (by simp), rfl, rfl, rfl, rfl, Or.inl rfl⟩
    | false =>
      cases present with
      | true => cases h
      | false =>
        cases h
        exact ⟨Or.inr rfl, rfl, rfl, rfl, rfl, Or.inl rfl⟩
  | sleep =>
    right
    cases ok with
    | false => cases h
    | true =>
      cases hexported : s.exported with
      | none =>
        simp only [resume, hexported, if_true] at h
        cases h
        rw [← hexported]
        exact ⟨Or.inl (by simp), rfl, rfl, rfl, rfl, Or.inl rfl⟩
      | some p =>
        simp only [resume, hexported, if_true] at h
        cases h
        rw [← hexported]
        exact ⟨Or.inl (by simp), rfl, rfl, rfl, rfl, Or.inr ⟨rfl, by simp [hexported]⟩⟩
  | resolved | rejected => cases h

theorem Started.step (h : s.Started) (hstep : machine.step s a = some s') : s'.Started := by
  cases a with
  | initializeCalled autoDetect =>
    cases hstep
    split <;> exact { h with }
  | executorRuns =>
    cases hstep
    exact { h with }
  | connect =>
    cases hstep
    split
    · split
      next => exact h
      next p hmanager =>
        refine { h with registered := ?_ }
        intro q hq
        rcases List.mem_append.mp hq with hq | hq
        · exact h.registered q hq
        · rw [List.mem_singleton.mp hq]
          exact ⟨h.managerInstance p hmanager, by simp [hmanager]⟩
    · exact h
  | inbound t =>
    obtain ⟨p, hp, hstep⟩ := Option.bind_eq_some_iff.mp hstep
    obtain ⟨q, hq, rfl⟩ := Option.map_eq_some_iff.mp hstep
    refine { h with injected := ?_ }
    intro chunk hchunk
    rcases List.mem_append.mp hchunk with hchunk | hchunk
    · exact h.injected chunk hchunk
    · rw [List.mem_singleton.mp hchunk]
      exact ⟨(h.registered p (List.mem_of_getElem? hp)).1, h.managerInstance q hq⟩
  | settle c ok =>
    obtain ⟨l, _, hstep⟩ := Option.bind_eq_some_iff.mp hstep
    obtain ⟨next, hresume, rfl⟩ := Option.map_eq_some_iff.mp hstep
    rcases resume_cases hresume with ⟨_, _, hrun⟩ | ⟨_, hprograms, hexported, hreg, hinj, hman⟩
    · constructor
      all_goals simp only [hrun, run]
      · rintro p ⟨⟩
        omega
      · exact fun p hp => (h.managerInstance p hp).trans (Nat.lt_succ_self _)
      · intro p hp
        obtain ⟨hlt, hset⟩ := h.registered p hp
        exact ⟨hlt.trans (Nat.lt_succ_self _), hset⟩
      · intro chunk hchunk
        obtain ⟨hleft, hright⟩ := h.injected chunk hchunk
        omega
    · constructor
      all_goals simp only [hprograms, hexported, hreg, hinj]
      · exact h.exported
      · intro p hp
        rcases hman with hman | ⟨hman, _⟩
        · exact h.managerInstance p (hman ▸ hp)
        · exact h.exported p (hman ▸ hp)
      · intro p hp
        obtain ⟨hlt, hset⟩ := h.registered p hp
        rcases hman with hman | ⟨hman, hexports⟩
        · exact ⟨hlt, hman ▸ hset⟩
        · exact ⟨hlt, hman ▸ hexports⟩
      · exact h.injected

theorem start_started : start.Started := by
  constructor <;> simp [start]

end Page
end SshClientWasm.Ssh
