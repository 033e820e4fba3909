import Mathlib.Logic.Relation
import Mathlib.Tactic

/-!
# Machines whose choices are labels

A machine is a deterministic, partial step function. Whatever the environment
decides (which party moves, what a peer answers, which call fails) is part of
the label, so that a run is a list of labels and can be executed. A label that
is not enabled in a state has no successor there. The rules below carry a fact
about one step to whole runs: plain invariants, invariants of runs whose every
step satisfies a guard, and forward simulations.
-/
namespace SshClientWasm.Library

/-- A partial step function; `none` means that the label is not enabled. -/
structure Machine (σ α : Type*) where
  step : σ → α → Option σ

namespace Machine

variable {σ α τ : Type*} (M : Machine σ α)

/-- Take the labels in order; the run fails as soon as one is not enabled. -/
def run (s : σ) (labels : List α) : Option σ := labels.foldlM M.step s

@[simp] theorem run_cons (s : σ) (a : α) (labels : List α) :
    M.run s (a :: labels) = (M.step s a).bind fun t => M.run t labels := rfl

theorem run_cons_eq_some {s u : σ} {a : α} {labels : List α} :
    M.run s (a :: labels) = some u ↔ ∃ t, M.step s a = some t ∧ M.run t labels = some u := by
  rw [run_cons, Option.bind_eq_some_iff]

theorem run_append (s : σ) (front back : List α) :
    M.run s (front ++ back) = (M.run s front).bind fun t => M.run t back :=
  List.foldlM_append

/-- A predicate that every step preserves holds after every run. -/
theorem run_invariant {I : σ → Prop} (hstep : ∀ s a t, I s → M.step s a = some t → I t) :
    ∀ (labels : List α) (s t : σ), I s → M.run s labels = some t → I t := by
  intro labels
  induction labels with
  | nil =>
    intro s t hs ht
    cases ht
    exact hs
  | cons a labels ih =>
    intro s t hs ht
    obtain ⟨u, hu, hrest⟩ := (M.run_cons_eq_some).mp ht
    exact ih u t (hstep s a u hs hu) hrest

/-- Every label of the run is taken in a state whose guard admits it. -/
def Admits (guard : σ → α → Prop) : σ → List α → Prop
  | _, [] => True
  | s, a :: labels => guard s a ∧ ∀ t, M.step s a = some t → Admits guard t labels

theorem admits_cons {guard : σ → α → Prop} {s t : σ} {a : α} {labels : List α}
    (h : M.step s a = some t) :
    M.Admits guard s (a :: labels) ↔ guard s a ∧ M.Admits guard t labels := by
  constructor
  · exact fun hadm => ⟨hadm.1, hadm.2 t h⟩
  · rintro ⟨hguard, hadm⟩
    refine ⟨hguard, fun u hu => ?_⟩
    cases h.symm.trans hu
    exact hadm

/-- Whether a run is admitted is found out by running it. -/
instance Admits.decidable {guard : σ → α → Prop} [∀ s a, Decidable (guard s a)] :
    ∀ (s : σ) (labels : List α), Decidable (M.Admits guard s labels)
  | _, [] => .isTrue trivial
  | s, a :: labels =>
    match h : M.step s a with
    | none => decidable_of_iff (guard s a)
      ⟨fun hguard => ⟨hguard, fun _ ht => nomatch h.symm.trans ht⟩, And.left⟩
    | some t =>
      have : Decidable (M.Admits guard t labels) := Admits.decidable t labels
      decidable_of_iff (guard s a ∧ M.Admits guard t labels) (M.admits_cons h).symm

theorem admits_of_forall {guard : σ → α → Prop} : ∀ {labels : List α},
    (∀ a ∈ labels, ∀ s, guard s a) → ∀ s, M.Admits guard s labels := by
  intro labels
  induction labels with
  | nil => exact fun _ _ => trivial
  | cons a labels ih =>
    intro h s
    exact ⟨h a List.mem_cons_self s, fun t _ => ih (fun b hb => h b (List.mem_cons_of_mem a hb)) t⟩

theorem admits_of_invariant {I : σ → Prop} {p : α → Prop} {guard : σ → α → Prop}
    (hinv : ∀ s a t, I s → p a → M.step s a = some t → I t) (hguard : ∀ s a, I s → guard s a) :
    ∀ (labels : List α) (s : σ), I s → (∀ a ∈ labels, p a) → M.Admits guard s labels := by
  intro labels
  induction labels with
  | nil => exact fun _ _ _ => trivial
  | cons a labels ih =>
    intro s hs hlabels
    obtain ⟨ha, hrest⟩ := List.forall_mem_cons.mp hlabels
    exact ⟨hguard s a hs, fun t ht => ih t (hinv s a t hs ha ht) hrest⟩

/-- The predicate holds in the first state and in every state the run visits. -/
def Always (P : σ → Prop) : σ → List α → Prop
  | s, [] => P s
  | s, a :: labels => P s ∧ ∀ t, M.step s a = some t → Always P t labels

theorem always_run {P : σ → Prop} : ∀ (labels : List α) (s t : σ), M.Always P s labels →
    M.run s labels = some t → P t := by
  intro labels
  induction labels with
  | nil =>
    intro s t hall ht
    cases ht
    exact hall
  | cons a labels ih =>
    intro s t hall ht
    obtain ⟨u, hu, hrest⟩ := (M.run_cons_eq_some).mp ht
    exact ih u t (hall.2 u hu) hrest

theorem always_iff_prefix {P : σ → Prop} : ∀ {labels : List α} {s : σ},
    M.Always P s labels ↔ ∀ front t, front <+: labels → M.run s front = some t → P t := by
  intro labels
  induction labels with
  | nil =>
    intro s
    constructor
    · intro hs front t hfront ht
      rw [List.prefix_nil.mp hfront] at ht
      cases ht
      exact hs
    · exact fun h => h [] s List.prefix_rfl rfl
  | cons a labels ih =>
    intro s
    constructor
    · rintro ⟨hs, hall⟩ front t hfront ht
      cases front with
      | nil =>
        cases ht
        exact hs
      | cons b front =>
        obtain ⟨rfl, hrest⟩ := List.cons_prefix_cons.mp hfront
        obtain ⟨u, hu, ht⟩ := (M.run_cons_eq_some).mp ht
        exact ih.mp (hall u hu) front t hrest ht
    · intro h
      refine ⟨h [] s (List.nil_prefix) rfl, fun u hu => ih.mpr fun front t hfront ht => ?_⟩
      refine h (a :: front) t (List.cons_prefix_cons.mpr ⟨rfl, hfront⟩) ?_
      exact (M.run_cons_eq_some).mpr ⟨u, hu, ht⟩

theorem always_of_admits {I P : σ → Prop} {guard : σ → α → Prop} (hP : ∀ s, I s → P s)
    (hstep : ∀ s a t, I s → guard s a → M.step s a = some t → I t) :
    ∀ (labels : List α) (s : σ), I s → M.Admits guard s labels → M.Always P s labels := by
  intro labels
  induction labels with
  | nil => exact fun s hs _ => hP s hs
  | cons a labels ih =>
    intro s hs hadm
    exact ⟨hP s hs, fun t ht => ih t (hstep s a t hs hadm.1 ht) (hadm.2 t ht)⟩

/-- A run that visits only states in which `P` holds is admitted, if that `P` holds on both
sides of a step admits it. -/
theorem admits_of_always {I P : σ → Prop} {assumed guard : σ → α → Prop}
    (hinv : ∀ s a t, I s → assumed s a → M.step s a = some t → I t)
    (hguard : ∀ s a t, I s → P s → M.step s a = some t → P t → guard s a) :
    ∀ (labels : List α) (s t : σ), I s → M.run s labels = some t → M.Admits assumed s labels →
      M.Always P s labels → M.Admits guard s labels := by
  intro labels
  induction labels with
  | nil => exact fun _ _ _ _ _ _ => trivial
  | cons a labels ih =>
    intro s t hI ht hassumed hall
    obtain ⟨u, hu, hrest⟩ := (M.run_cons_eq_some).mp ht
    have hPu : P u := by
      have h := hall.2 u hu
      cases labels with
      | nil => exact h
      | cons b rest => exact h.1
    refine ⟨hguard s a u hI hall.1 hu hPu, fun v hv => ?_⟩
    cases hu.symm.trans hv
    exact ih u t (hinv s a u hI hassumed.1 hu) hrest (hassumed.2 u hu) (hall.2 u hu)

/-- Where one step keeps `P` exactly when its guard holds, a run keeps `P`
throughout exactly when it is admitted. The invariant `I` may be used on the way. -/
theorem always_iff_admits {I P : σ → Prop} {guard : σ → α → Prop}
    (hinv : ∀ s a t, I s → M.step s a = some t → I t)
    (hstep : ∀ s a t, I s → P s → M.step s a = some t → (P t ↔ guard s a)) :
    ∀ (labels : List α) (s t : σ), I s → P s → M.run s labels = some t →
      (M.Always P s labels ↔ M.Admits guard s labels) := by
  intro labels
  induction labels with
  | nil =>
    intro s t _ hP _
    exact iff_of_true hP trivial
  | cons a labels ih =>
    intro s t hI hP ht
    obtain ⟨u, hu, hrest⟩ := (M.run_cons_eq_some).mp ht
    have hsucc := hstep s a u hI hP hu
    constructor
    · rintro ⟨_, hall⟩
      have hPu : P u := by
        have h := hall u hu
        cases labels with
        | nil => exact h
        | cons b rest => exact h.1
      refine ⟨hsucc.mp hPu, fun v hv => ?_⟩
      cases hu.symm.trans hv
      exact (ih u t (hinv s a u hI hu) hPu hrest).mp (hall u hu)
    · rintro ⟨hguard, hadm⟩
      have hPu : P u := hsucc.mpr hguard
      refine ⟨hP, fun v hv => ?_⟩
      cases hu.symm.trans hv
      exact (ih u t (hinv s a u hI hu) hPu hrest).mpr (hadm u hu)

/-- Where each step keeps `P`, and cannot restore it, exactly if its label is admitted, a run
ends in `P` exactly if all its labels are. -/
theorem run_iff_forall {I P : σ → Prop} {guard : α → Prop}
    (hinv : ∀ s a t, I s → M.step s a = some t → I t)
    (hstep : ∀ s a t, I s → M.step s a = some t → (P t ↔ P s ∧ guard a)) :
    ∀ (labels : List α) (s t : σ), I s → M.run s labels = some t →
      (P t ↔ P s ∧ ∀ a ∈ labels, guard a) := by
  intro labels
  induction labels with
  | nil =>
    intro s t _ ht
    cases ht
    simp
  | cons a labels ih =>
    intro s t hI ht
    obtain ⟨u, hu, hrest⟩ := (M.run_cons_eq_some).mp ht
    rw [ih u t (hinv s a u hI hu) hrest, hstep s a u hI hu, List.forall_mem_cons, and_assoc]

/-- Every step of the run is as `P` says of the states around it. -/
def Steps (P : σ → α → σ → Prop) : σ → List α → Prop
  | _, [] => True
  | s, a :: labels => ∀ t, M.step s a = some t → P s a t ∧ Steps P t labels

theorem steps_append {P : σ → α → σ → Prop} : ∀ {front back : List α} {s t : σ},
    M.Steps P s (front ++ back) → M.run s front = some t → M.Steps P t back := by
  intro front
  induction front with
  | nil =>
    intro back s t hsteps ht
    cases ht
    exact hsteps
  | cons a front ih =>
    intro back s t hsteps ht
    obtain ⟨u, hu, hrest⟩ := (M.run_cons_eq_some).mp ht
    exact ih (hsteps u hu).2 hrest

/-- Where a step is as `P` says exactly when its guard holds, all steps of a run are
exactly when the run is admitted. -/
theorem steps_iff_admits {I : σ → Prop} {P : σ → α → σ → Prop} {guard : σ → α → Prop}
    (hinv : ∀ s a t, I s → M.step s a = some t → I t)
    (hstep : ∀ s a t, I s → M.step s a = some t → (P s a t ↔ guard s a)) :
    ∀ (labels : List α) (s t : σ), I s → M.run s labels = some t →
      (M.Steps P s labels ↔ M.Admits guard s labels) := by
  intro labels
  induction labels with
  | nil =>
    intro s t _ _
    exact Iff.rfl
  | cons a labels ih =>
    intro s t hI ht
    obtain ⟨u, hu, hrest⟩ := (M.run_cons_eq_some).mp ht
    have hrun := ih u t (hinv s a u hI hu) hrest
    constructor
    · intro hall
      obtain ⟨hP, hsteps⟩ := hall u hu
      refine ⟨(hstep s a u hI hu).mp hP, fun v hv => ?_⟩
      cases hu.symm.trans hv
      exact hrun.mp hsteps
    · rintro ⟨hguard, hadm⟩ v hv
      cases hu.symm.trans hv
      exact ⟨(hstep s a u hI hu).mpr hguard, hrun.mpr (hadm u hu)⟩

theorem steps_of_invariant {I : σ → Prop} {P : σ → α → σ → Prop}
    (hinv : ∀ s a t, I s → M.step s a = some t → I t)
    (hstep : ∀ s a t, I s → M.step s a = some t → P s a t) :
    ∀ (labels : List α) (s : σ), I s → M.Steps P s labels := by
  intro labels
  induction labels with
  | nil => exact fun s _ => trivial
  | cons a labels ih =>
    intro s hI t ht
    exact ⟨hstep s a t hI ht, ih t (hinv s a t hI ht)⟩

/-- The machine with a log of events: what a label means in the state where it is taken. -/
def recorded {β : Type*} (events : σ → α → List β) : Machine (σ × List β) α where
  step s a := (M.step s.1 a).map fun t => (t, s.2 ++ events s.1 a)

theorem recorded_step {β : Type*} {events : σ → α → List β} {s t : σ × List β} {a : α} :
    (M.recorded events).step s a = some t ↔
      M.step s.1 a = some t.1 ∧ t.2 = s.2 ++ events s.1 a := by
  constructor
  · intro h
    obtain ⟨u, hu, rfl⟩ := Option.map_eq_some_iff.mp h
    exact ⟨hu, rfl⟩
  · rintro ⟨hstep, hlog⟩
    simp only [recorded, hstep, Option.map_some, ← hlog]

/-- Every step of the machine is matched, between related states, by finitely
many steps of the specification `N`. -/
def Simulates (N : τ → τ → Prop) (R : σ → τ → Prop) : Prop :=
  ∀ s t a s', R s t → M.step s a = some s' → ∃ t', Relation.ReflTransGen N t t' ∧ R s' t'

theorem Simulates.run {M : Machine σ α} {N : τ → τ → Prop} {R : σ → τ → Prop}
    (h : M.Simulates N R) : ∀ (labels : List α) (s s' : σ) (t : τ), R s t →
      M.run s labels = some s' → ∃ t', Relation.ReflTransGen N t t' ∧ R s' t' := by
  intro labels
  induction labels with
  | nil =>
    intro s s' t hR hs
    cases hs
    exact ⟨t, .refl, hR⟩
  | cons a labels ih =>
    intro s s' t hR hs
    obtain ⟨u, hu, hrest⟩ := (M.run_cons_eq_some).mp hs
    obtain ⟨v, hv, hRu⟩ := h s t a u hR hu
    obtain ⟨w, hw, hRw⟩ := ih u s' v hRu hrest
    exact ⟨w, hv.trans hw, hRw⟩

/-- Related states take matching labels to related states, or take neither. -/
def Matches {β : Type*} (M : Machine σ α) (N : Machine τ β) (f : β → α) (R : σ → τ → Prop) : Prop :=
  ∀ s t b, R s t → Option.Rel R (M.step s (f b)) (N.step t b)

/-- Matching steps make matching runs. -/
theorem Matches.run {β : Type*} {M : Machine σ α} {N : Machine τ β} {f : β → α} {R : σ → τ → Prop}
    (h : M.Matches N f R) : ∀ (labels : List β) (s : σ) (t : τ), R s t →
      Option.Rel R (M.run s (labels.map f)) (N.run t labels) := by
  intro labels
  induction labels with
  | nil => exact fun s t hR => .some hR
  | cons b labels ih =>
    intro s t hR
    have hnext := h s t b hR
    rw [List.map_cons, run_cons, run_cons]
    cases hs : M.step s (f b) with
    | none =>
      rw [hs] at hnext
      cases ht : N.step t b with
      | none => exact .none
      | some t' =>
        rw [ht] at hnext
        cases hnext
    | some s' =>
      rw [hs] at hnext
      cases ht : N.step t b with
      | none =>
        rw [ht] at hnext
        cases hnext
      | some t' =>
        rw [ht] at hnext
        cases hnext with
        | some hR' => exact ih s' t' hR'

end Machine
end SshClientWasm.Library
