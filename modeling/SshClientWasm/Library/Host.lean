import SshClientWasm.Library.Machine

/-!
# Parts of one process

The parts of a process move one at a time. A step of a part may end with a call of a
foreign function; that can throw, and may then end the whole process. A step of one part
never touches another one.
-/
namespace SshClientWasm.Library

/-- A part moves, and may call a foreign function at the end. -/
structure Part (σ α φ : Type*) where
  step : σ → α → Option (σ × Option φ)

/-- What a foreign function does: it returns, it throws, or what it returns fails later. -/
inductive Reaction
  | returns
  | throws
  | rejects
  deriving DecidableEq, Repr

/-- A process, which ends when a call was fatal. -/
structure Host (ι σ : Type*) where
  running : Bool
  parts : ι → σ

namespace Host

variable {ι σ α φ : Type*} [DecidableEq ι] (P : Part σ α φ) (fatal : φ → Reaction → Bool)

def machine : Machine (Host ι σ) (ι × α × Reaction) where
  step s label :=
    if s.running then
      (P.step (s.parts label.1) label.2.1).map fun next =>
        ⟨!next.2.any fun f => fatal f label.2.2, Function.update s.parts label.1 next.1⟩
    else none

/-- The part calls a function in its step, which throws. -/
def Throws (s : Host ι σ) (label : ι × α × Reaction) (f : φ) : Prop :=
  label.2.2 = .throws ∧ ∃ next, P.step (s.parts label.1) label.2.1 = some (next, some f)

/-- If a function throws in a step, the process goes on and the other parts are as before. -/
def Contained (s : Host ι σ) (label : ι × α × Reaction) (s' : Host ι σ) : Prop :=
  (∃ f, Throws P s label f) → s'.running = true ∧ ∀ j, j ≠ label.1 → s'.parts j = s.parts j

/-- A function that throws in a step is not fatal. -/
def Survived (s : Host ι σ) (label : ι × α × Reaction) : Prop :=
  ∀ f, Throws P s label f → fatal f .throws = false

variable {P} {fatal} {s s' : Host ι σ} {label : ι × α × Reaction}

theorem step_eq_some (h : (machine P fatal).step s label = some s') :
    ∃ next, P.step (s.parts label.1) label.2.1 = some next ∧
      s'.running = (!next.2.any fun f => fatal f label.2.2) ∧
      s'.parts = Function.update s.parts label.1 next.1 := by
  obtain ⟨_, h⟩ := Option.ite_none_right_eq_some.mp h
  obtain ⟨next, hnext, rfl⟩ := Option.map_eq_some_iff.mp h
  exact ⟨next, hnext, rfl, rfl⟩

theorem step_other (h : (machine P fatal).step s label = some s') {j : ι} (hj : j ≠ label.1) :
    s'.parts j = s.parts j := by
  obtain ⟨next, _, _, hparts⟩ := step_eq_some h
  rw [hparts, Function.update_of_ne hj]

theorem step_contained_iff (h : (machine P fatal).step s label = some s') :
    Contained P s label s' ↔ Survived P fatal s label := by
  obtain ⟨next, hnext, hrunning, _⟩ := step_eq_some h
  have hcall : ∀ f, Throws P s label f → s'.running = !fatal f .throws := by
    rintro f ⟨hthrows, t, ht⟩
    cases hnext.symm.trans ht
    rw [hrunning, hthrows]
    rfl
  constructor
  · intro hcontained f hf
    have hgoes := (hcontained ⟨f, hf⟩).1
    rw [hcall f hf] at hgoes
    simpa using hgoes
  · rintro hsurvived ⟨f, hf⟩
    refine ⟨?_, fun j hj => step_other h hj⟩
    rw [hcall f hf, hsurvived f hf]
    rfl

/-- Every throw of a run is contained exactly if every one is survived. -/
theorem steps_contained_iff (labels : List (ι × α × Reaction)) (s s' : Host ι σ)
    (hrun : (machine P fatal).run s labels = some s') :
    (machine P fatal).Steps (Contained P) s labels ↔
      (machine P fatal).Admits (Survived P fatal) s labels := by
  apply (machine P fatal).steps_iff_admits (I := fun _ => True) _ _ labels s s' trivial hrun
  · exact fun _ _ _ _ _ => trivial
  · exact fun _ _ _ _ h => step_contained_iff h

end Host
end SshClientWasm.Library
