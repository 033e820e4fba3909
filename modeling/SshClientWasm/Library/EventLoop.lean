import SshClientWasm.Library.Machine
import SshClientWasm.Library.WriterFirst

/-!
# Handlers on an event loop

A host with one event loop calls handlers of a guest program, whose threads share data
behind a lock and call back into the host. What the host waits for is a stack: while a
handler or a callback has not returned, nothing below it goes on, and no answer comes
in from outside. A handler is stuck if it waits for an answer, or for the lock while a
holder waits for an answer or for that handler. A stuck handler never returns; one that
is not stuck can go on, or somebody can whom it waits for.
-/
namespace SshClientWasm.Library

/-- What the host waits for: a handler or another function of the guest, or a function of
the host that a thread has called, or somebody else. -/
inductive Frame (τ : Type*)
  | handler (t : τ)
  | guest
  | callback (t : τ)
  | host
  deriving DecidableEq

/-- A program of threads at points `π` around data `σ`. A thread starts with a call `χ`, or
as a handler called with `η`; it moves as `ω` says, or calls the host and goes on behind.
Some points wait for an answer. The data also change by events `ε` of no thread. -/
structure Guest (σ π χ η ω ε : Type*) where
  fresh : π → Bool
  done : π → Bool
  claim : π → Claim
  /-- The lock operation that a point has to wait for. -/
  wants : π → Option ClaimOp
  spawn : χ → π
  handle : σ → η → π
  advance : σ → π → ω → Option (ClaimOp × σ × π)
  callOut : σ → π → Option π
  answer : π → ω → Option π
  external : σ → ε → Option σ
  /-- Before its call and after it, a thread wants nothing. -/
  resting : ∀ {p}, fresh p = true ∨ done p = true →
    claim p = .none ∧ wants p = none ∧ ∀ w, answer p w = none
  spawned : ∀ c, claim (spawn c) = .none ∧ fresh (spawn c) = false
  handled : ∀ x c, claim (handle x c) = .none ∧ fresh (handle x c) = false
  disciplined : ∀ {x p w op x' p'}, advance x p w = some (op, x', p') →
    op.Moves (claim p) (claim p') ∧ fresh p' = false
  advance_wants : ∀ {x p w op x' p'}, advance x p w = some (op, x', p') →
    wants p = (if op.blocking then some op else none) ∧ ∀ w', answer p w' = none
  wants_claim : ∀ {p op}, wants p = some op →
    claim p = if op = .acquire then .announced else .none
  called : ∀ {x p q}, callOut x p = some q → claim q = claim p ∧ fresh q = false ∧ wants p = none ∧
    claim p ≠ .announced ∧ ((∃ w r, answer p w = some r) → q = p)
  answered : ∀ {p w q}, answer p w = some q →
    claim q = claim p ∧ fresh q = false ∧ claim p ≠ .announced
  /-- A thread that does not wait for an answer goes on or calls the host. -/
  ready : ∀ x {p}, fresh p = false → done p = false → (∀ w, answer p w = none) →
    callOut x p ≠ none ∨ ∃ w next, advance x p w = some next

/-- The stack, innermost first, the lock, the data, and where every thread is. -/
structure Loop (τ σ π : Type*) where
  stack : List (Frame τ)
  lock : WriterFirst τ
  data : σ
  pc : τ → π

/-- What happens next. -/
inductive Turn (τ χ η ω ε : Type*)
  | spawn (t : τ) (c : χ)
  | handle (t : τ) (c : η)
  | go (t : τ) (w : ω)
  | callOut (t : τ)
  | answer (t : τ) (w : ω)
  | external (e : ε)
  | guest
  | host
  | leave

/-- The host runs: it calls handlers, and returns from what it was called for. -/
def hostRuns {τ : Type*} : List (Frame τ) → Bool
  | [] | .callback _ :: _ | .host :: _ => true
  | _ => false

/-- The threads of the guest run. -/
def guestRuns {τ : Type*} : List (Frame τ) → Bool
  | .callback _ :: _ | .host :: _ => false
  | _ => true

/-- The handler `t` was called, directly or not, by a function that `u` has called. -/
def Within {τ : Type*} (t u : τ) : List (Frame τ) → Prop
  | [] => False
  | f :: below => f = .handler t ∧ .callback u ∈ below ∨ Within t u below

theorem Within.mem {t u : τ} {stack : List (Frame τ)} (h : Within t u stack) :
    .handler t ∈ stack ∧ .callback u ∈ stack := by
  induction stack with
  | nil => exact h.elim
  | cons f below ih =>
    rcases h with ⟨rfl, hu⟩ | h
    · exact ⟨List.mem_cons_self, List.mem_cons_of_mem _ hu⟩
    · obtain ⟨ht, hu⟩ := ih h
      exact ⟨List.mem_cons_of_mem _ ht, List.mem_cons_of_mem _ hu⟩

namespace Guest

variable {τ σ π χ η ω ε : Type*} (G : Guest σ π χ η ω ε)

/-- Everything at one point, and nothing on the stack. -/
def start (x : σ) (p : π) : Loop τ σ π := ⟨[], .free, x, fun _ => p⟩

/-- The point waits for an answer. -/
def Waits (p : π) : Prop := ∃ w q, G.answer p w = some q

/-- The thread has the lock, alone or with others. -/
def Holds (s : Loop τ σ π) (t : τ) : Prop :=
  G.claim (s.pc t) = .read ∨ G.claim (s.pc t) = .write

/-- The lock agrees with the threads; who is on the stack has been called, waits for no
reader, and is in no function of the host that called it. -/
structure Valid (s : Loop τ σ π) : Prop where
  agrees : s.lock.Agrees fun t => G.claim (s.pc t)
  handlers : ∀ t, .handler t ∈ s.stack → G.fresh (s.pc t) = false
  callbacks : ∀ t, .callback t ∈ s.stack →
    G.fresh (s.pc t) = false ∧ G.claim (s.pc t) ≠ .announced
  within : ∀ t, ¬Within t t s.stack

theorem start_valid {x : σ} {p : π} (hclaim : G.claim p = .none) :
    G.Valid (start x p : Loop τ σ π) where
  agrees := by
    simpa only [start, hclaim] using WriterFirst.free_agrees
  handlers := by simp [start]
  callbacks := by simp [start]
  within := fun t h => h

section Frames

variable {G} {s : Loop τ σ π}

theorem Valid.push (hs : G.Valid s) {f : Frame τ}
    (hhandler : ∀ t, f = .handler t → G.fresh (s.pc t) = false ∧ .callback t ∉ s.stack)
    (hcallback : ∀ t, f = .callback t →
      G.fresh (s.pc t) = false ∧ G.claim (s.pc t) ≠ .announced) :
    G.Valid { s with stack := f :: s.stack } := by
  refine ⟨hs.agrees, fun u hu => ?_, fun u hu => ?_, fun u hu => ?_⟩
  · rcases List.mem_cons.mp hu with hf | hu
    · exact (hhandler u hf.symm).1
    · exact hs.handlers u hu
  · rcases List.mem_cons.mp hu with hf | hu
    · exact hcallback u hf.symm
    · exact hs.callbacks u hu
  · rcases hu with ⟨hf, hu⟩ | hu
    · exact (hhandler u hf).2 hu
    · exact hs.within u hu

theorem Valid.pop (hs : G.Valid s) {f : Frame τ} {below : List (Frame τ)}
    (hstack : s.stack = f :: below) : G.Valid { s with stack := below } := by
  have hmem : ∀ g ∈ below, g ∈ s.stack := by
    intro g hg
    rw [hstack]
    exact List.mem_cons_of_mem _ hg
  refine ⟨hs.agrees, fun u hu => hs.handlers u (hmem _ hu),
    fun u hu => hs.callbacks u (hmem _ hu), fun u hu => hs.within u ?_⟩
  rw [hstack]
  exact Or.inr hu

end Frames

section Machine

variable [DecidableEq τ]

/-- A thread goes on if the guest runs and it is in no function of the host. -/
def Free (s : Loop τ σ π) (t : τ) : Prop := guestRuns s.stack = true ∧ .callback t ∉ s.stack

instance (s : Loop τ σ π) (t : τ) : Decidable (Free s t) :=
  inferInstanceAs (Decidable (guestRuns s.stack = true ∧ .callback t ∉ s.stack))

/-- An innermost frame of the host ends, or a handler that is done. -/
def leave (s : Loop τ σ π) : Option (Loop τ σ π) :=
  match s.stack with
  | [] => none
  | .handler t :: below => if G.done (s.pc t) then some { s with stack := below } else none
  | _ :: below => some { s with stack := below }

def machine : Machine (Loop τ σ π) (Turn τ χ η ω ε) where
  step s a :=
    match a with
    | .spawn t c =>
      if G.fresh (s.pc t) then some { s with pc := Function.update s.pc t (G.spawn c) } else none
    | .handle t c =>
      if hostRuns s.stack ∧ G.fresh (s.pc t) then
        some { s with
          stack := .handler t :: s.stack
          pc := Function.update s.pc t (G.handle s.data c) }
      else none
    | .go t w =>
      if Free s t then
        (G.advance s.data (s.pc t) w).bind fun next =>
          (s.lock.perform t next.1).map fun lock =>
            { s with
              lock := lock
              data := next.2.1
              pc := Function.update s.pc t next.2.2 }
      else none
    | .callOut t =>
      if Free s t then
        (G.callOut s.data (s.pc t)).map fun p =>
          { s with
            stack := .callback t :: s.stack
            pc := Function.update s.pc t p }
      else none
    | .answer t w =>
      if s.stack = [] then
        (G.answer (s.pc t) w).map fun p => { s with pc := Function.update s.pc t p }
      else none
    | .external e =>
      if guestRuns s.stack then (G.external s.data e).map fun x => { s with data := x } else none
    | .guest => if hostRuns s.stack then some { s with stack := .guest :: s.stack } else none
    | .host => if guestRuns s.stack then some { s with stack := .host :: s.stack } else none
    | .leave => G.leave s

/-- The next operation of the thread has to wait for the lock. -/
def Blocked (s : Loop τ σ π) (t : τ) : Prop :=
  ∃ op, G.wants (s.pc t) = some op ∧ s.lock.perform t op = none

/-- A handler has not returned and never will. -/
def Stuck (s : Loop τ σ π) : Prop :=
  ∃ t, .handler t ∈ s.stack ∧
    (G.Waits (s.pc t) ∨
      G.Blocked s t ∧ ∃ u, G.Holds s u ∧ (G.Waits (s.pc u) ∨ Within t u s.stack))

/-- The thread goes on or calls the host. -/
def CanGo (s : Loop τ σ π) (t : τ) : Prop :=
  G.machine.step s (.callOut t) ≠ none ∨ ∃ w, G.machine.step s (.go t w) ≠ none

/-- What a step can do. -/
inductive Step (s : Loop τ σ π) : Turn τ χ η ω ε → Loop τ σ π → Prop
  | spawn (t c) (hfresh : G.fresh (s.pc t) = true) :
      Step s (.spawn t c) { s with pc := Function.update s.pc t (G.spawn c) }
  | handle (t c) (hhost : hostRuns s.stack = true) (hfresh : G.fresh (s.pc t) = true) :
      Step s (.handle t c)
        { s with
          stack := .handler t :: s.stack
          pc := Function.update s.pc t (G.handle s.data c) }
  | go (t w) {op x' p' lock} (hfree : Free s t)
      (hadvance : G.advance s.data (s.pc t) w = some (op, x', p'))
      (hlock : s.lock.perform t op = some lock) :
      Step s (.go t w)
        { s with
          lock := lock
          data := x'
          pc := Function.update s.pc t p' }
  | callOut (t) {p'} (hfree : Free s t) (hcall : G.callOut s.data (s.pc t) = some p') :
      Step s (.callOut t)
        { s with
          stack := .callback t :: s.stack
          pc := Function.update s.pc t p' }
  | answer (t w) {p'} (hstack : s.stack = []) (hanswer : G.answer (s.pc t) w = some p') :
      Step s (.answer t w) { s with pc := Function.update s.pc t p' }
  | external (e) {x'} (hexternal : G.external s.data e = some x') :
      Step s (.external e) { s with data := x' }
  | guest : Step s .guest { s with stack := .guest :: s.stack }
  | host : Step s .host { s with stack := .host :: s.stack }
  | leave (f below) (hstack : s.stack = f :: below)
      (hdone : ∀ t, f = .handler t → G.done (s.pc t) = true) :
      Step s .leave { s with stack := below }

variable {G} {s s' : Loop τ σ π} {a : Turn τ χ η ω ε}

theorem step_cases (h : G.machine.step s a = some s') : G.Step s a s' := by
  cases a with
  | spawn t c =>
    obtain ⟨hfresh, h⟩ := Option.ite_none_right_eq_some.mp h
    cases h
    exact .spawn t c hfresh
  | handle t c =>
    obtain ⟨⟨hhost, hfresh⟩, h⟩ := Option.ite_none_right_eq_some.mp h
    cases h
    exact .handle t c hhost hfresh
  | go t w =>
    obtain ⟨hfree, h⟩ := Option.ite_none_right_eq_some.mp h
    obtain ⟨⟨op, x', p'⟩, hadvance, h⟩ := Option.bind_eq_some_iff.mp h
    obtain ⟨lock, hlock, rfl⟩ := Option.map_eq_some_iff.mp h
    exact .go t w hfree hadvance hlock
  | callOut t =>
    obtain ⟨hfree, h⟩ := Option.ite_none_right_eq_some.mp h
    obtain ⟨p', hcall, rfl⟩ := Option.map_eq_some_iff.mp h
    exact .callOut t hfree hcall
  | answer t w =>
    obtain ⟨hstack, h⟩ := Option.ite_none_right_eq_some.mp h
    obtain ⟨p', hanswer, rfl⟩ := Option.map_eq_some_iff.mp h
    exact .answer t w hstack hanswer
  | external e =>
    obtain ⟨_, h⟩ := Option.ite_none_right_eq_some.mp h
    obtain ⟨x', hexternal, rfl⟩ := Option.map_eq_some_iff.mp h
    exact .external e hexternal
  | guest =>
    obtain ⟨_, h⟩ := Option.ite_none_right_eq_some.mp h
    cases h
    exact .guest
  | host =>
    obtain ⟨_, h⟩ := Option.ite_none_right_eq_some.mp h
    cases h
    exact .host
  | leave =>
    simp only [machine, Guest.leave] at h
    split at h
    next => cases h
    next t below hstack =>
      obtain ⟨hdone, h⟩ := Option.ite_none_right_eq_some.mp h
      cases h
      refine .leave _ below hstack fun u hu => ?_
      cases hu
      exact hdone
    next f below hother hstack =>
      cases h
      exact .leave f below hstack fun u hu => absurd hu (hother u)

theorem claim_update {pc : τ → π} {t : τ} {p : π} :
    (fun u => G.claim (Function.update pc t p u)) =
      Function.update (fun u => G.claim (pc u)) t (G.claim p) := by
  funext u
  by_cases hu : u = t
  · subst hu
    simp
  · simp [hu]

theorem agrees_of_claim {lock : WriterFirst τ} {pc : τ → π} {t : τ} {p : π}
    (h : lock.Agrees fun u => G.claim (pc u)) (hclaim : G.claim p = G.claim (pc t)) :
    lock.Agrees fun u => G.claim (Function.update pc t p u) := by
  rwa [claim_update, hclaim, Function.update_eq_self]

theorem Valid.move (hs : G.Valid s) {lock : WriterFirst τ} {x : σ} {t : τ} {p : π}
    (hagrees : lock.Agrees fun u => G.claim (Function.update s.pc t p u))
    (hfresh : G.fresh p = false) (hclaim : .callback t ∈ s.stack → G.claim p ≠ .announced) :
    G.Valid (⟨s.stack, lock, x, Function.update s.pc t p⟩ : Loop τ σ π) := by
  refine ⟨hagrees, fun u hu => ?_, fun u hu => ?_, hs.within⟩
  all_goals by_cases hut : u = t
  · subst hut
    simpa using hfresh
  · simpa [hut] using hs.handlers u hu
  · subst hut
    simpa using ⟨hfresh, hclaim hu⟩
  · simpa [hut] using hs.callbacks u hu

theorem Valid.step (hs : G.Valid s) (h : G.Step s a s') : G.Valid s' := by
  cases h with
  | spawn t c hfresh =>
    obtain ⟨hclaim, hstale⟩ := G.spawned c
    have hbefore := (G.resting (Or.inl hfresh)).1
    exact hs.move (agrees_of_claim hs.agrees (hclaim.trans hbefore.symm)) hstale
      fun _ => by simp [hclaim]
  | handle t c hhost hfresh =>
    obtain ⟨hclaim, hstale⟩ := G.handled s.data c
    have hbefore := (G.resting (Or.inl hfresh)).1
    have hmoved := hs.move (x := s.data)
      (agrees_of_claim hs.agrees (hclaim.trans hbefore.symm)) hstale fun _ => by simp [hclaim]
    refine hmoved.push (fun u hu => ?_) (fun u hu => by cases hu)
    cases hu
    refine ⟨by simpa using hstale, fun hmem => ?_⟩
    simp [(hs.callbacks t hmem).1] at hfresh
  | go t w hfree hadvance hlock =>
    obtain ⟨hmoves, hstale⟩ := G.disciplined hadvance
    refine hs.move ?_ hstale fun hmem => absurd hmem hfree.2
    rw [claim_update]
    exact hs.agrees.perform hmoves hlock
  | callOut t hfree hcall =>
    obtain ⟨hclaim, hstale, _, hannounced, _⟩ := G.called hcall
    have hmoved := hs.move (x := s.data) (agrees_of_claim hs.agrees hclaim) hstale
      fun _ => by rwa [hclaim]
    refine hmoved.push (fun u hu => by cases hu) (fun u hu => ?_)
    cases hu
    simpa [hclaim] using ⟨hstale, hannounced⟩
  | answer t w hstack hanswer =>
    obtain ⟨hclaim, hstale, _⟩ := G.answered hanswer
    refine hs.move (agrees_of_claim hs.agrees hclaim) hstale fun hmem => ?_
    simp [hstack] at hmem
  | external e hexternal => exact ⟨hs.agrees, hs.handlers, hs.callbacks, hs.within⟩
  | guest | host => exact hs.push (fun _ hu => by cases hu) (fun _ hu => by cases hu)
  | leave f below hstack hdone => exact hs.pop hstack

theorem Step.stays {t : τ} (h : G.Step s a s') (hstack : s.stack ≠ [])
    (hstale : G.fresh (s.pc t) = false)
    (ht : G.Waits (s.pc t) ∨ .callback t ∈ s.stack ∨ G.Blocked s t) : s'.pc t = s.pc t := by
  cases h with
  | spawn u c hfresh | handle u c _ hfresh =>
    have hne : t ≠ u := by
      rintro rfl
      simp [hstale] at hfresh
    exact Function.update_of_ne hne ..
  | go u w hfree hadvance hlock =>
    have hne : t ≠ u := by
      rintro rfl
      obtain ⟨hwants, hanswer⟩ := G.advance_wants hadvance
      rcases ht with ⟨w', q, hwaits⟩ | hmem | ⟨op, hop, hnone⟩
      · simp [hanswer w'] at hwaits
      · exact hfree.2 hmem
      · rw [hwants] at hop
        obtain ⟨_, heq⟩ := Option.ite_none_right_eq_some.mp hop
        cases heq
        simp [hnone] at hlock
    exact Function.update_of_ne hne ..
  | callOut u hfree hcall =>
    by_cases hne : t = u
    · subst hne
      obtain ⟨_, _, hwants, _, hwaits⟩ := G.called hcall
      rcases ht with hw | hmem | ⟨op, hop, _⟩
      · simp [hwaits hw]
      · exact absurd hmem hfree.2
      · simp [hwants] at hop
    · exact Function.update_of_ne hne ..
  | answer u w hempty => exact absurd hempty hstack
  | external | guest | host | leave => rfl

theorem Step.handler_mem {t : τ} (h : G.Step s a s') (hmem : .handler t ∈ s.stack)
    (hdone : G.done (s.pc t) = false) : .handler t ∈ s'.stack := by
  cases h with
  | leave f below hstack hpopped =>
    rw [hstack] at hmem
    rcases List.mem_cons.mp hmem with hf | hmem
    · simp [hpopped t hf.symm] at hdone
    · exact hmem
  | handle | callOut | guest | host => exact List.mem_cons_of_mem _ hmem
  | _ => exact hmem

theorem Step.within {t u : τ} (h : G.Step s a s') (hwithin : Within t u s.stack)
    (hdone : G.done (s.pc t) = false) : Within t u s'.stack := by
  cases h with
  | leave f below hstack hpopped =>
    rw [hstack] at hwithin
    rcases hwithin with ⟨hf, _⟩ | hwithin
    · simp [hpopped t hf] at hdone
    · exact hwithin
  | handle | callOut | guest | host => exact Or.inr hwithin
  | _ => exact hwithin

theorem Step.blocked {t u : τ} (hs : G.Valid s) (h : G.Step s a s') (ht : G.Blocked s t)
    (hu : G.Holds s u) (htpc : s'.pc t = s.pc t) (hupc : s'.pc u = s.pc u) : G.Blocked s' t := by
  have hs' := hs.step h
  obtain ⟨op, hwants, hnone⟩ := ht
  refine ⟨op, by rwa [htpc], ?_⟩
  by_cases hop : op = .acquire
  · subst hop
    -- The holder reads, since the thread that waits is the writer.
    have hannounced : G.claim (s.pc t) = .announced := G.wants_claim hwants
    have hread : G.claim (s.pc u) = .read := by
      refine hu.resolve_right fun hwrite => ?_
      have heq := hs.agrees.eq_of_writer (Or.inl hannounced) (Or.inr hwrite)
      subst heq
      simp [hannounced] at hwrite
    rw [WriterFirst.perform_acquire_eq_none]
    refine Finset.ne_empty_of_mem ((hs'.agrees.reader u).mpr ?_)
    rwa [hupc]
  · obtain ⟨hblocking, hwriter⟩ := (WriterFirst.perform_eq_none hop).mp hnone
    refine (WriterFirst.perform_eq_none hop).mpr ⟨hblocking, ?_⟩
    cases h with
    | go v w hfree hadvance hlock =>
      refine WriterFirst.writer_ne_none hwriter ?_ hlock
      rintro rfl
      obtain ⟨⟨hwrite, hafter⟩, _⟩ := G.disciplined hadvance
      rcases hu with hread | hu
      · exact hs.agrees.ne_read hwrite u hread
      · have heq := hs.agrees.eq_of_writer (Or.inr hwrite) (Or.inr hu)
        subst heq
        simp only [Function.update_self] at hupc
        simp [hupc, hu] at hafter
    | _ => exact hwriter

theorem Stuck.step (hs : G.Valid s) (hstuck : G.Stuck s) (h : G.Step s a s') : G.Stuck s' := by
  obtain ⟨t, hmem, hwhy⟩ := hstuck
  have hstack : s.stack ≠ [] := List.ne_nil_of_mem hmem
  have hstale := hs.handlers t hmem
  have hdone : G.done (s.pc t) = false := by
    by_contra hnot
    obtain ⟨_, hwants, hanswer⟩ := G.resting (Or.inr (by simpa using hnot))
    rcases hwhy with ⟨w, q, hwaits⟩ | ⟨⟨op, hop, _⟩, _⟩
    · simp [hanswer w] at hwaits
    · simp [hwants] at hop
  refine ⟨t, h.handler_mem hmem hdone, ?_⟩
  rcases hwhy with hwaits | ⟨hblocked, u, hholds, hu⟩
  · left
    rwa [h.stays hstack hstale (Or.inl hwaits)]
  · right
    have hstaleU : G.fresh (s.pc u) = false := by
      by_contra hnot
      have hnone := (G.resting (Or.inl (by simpa using hnot))).1
      rcases hholds with hread | hwrite
      · simp [hnone] at hread
      · simp [hnone] at hwrite
    have htpc := h.stays hstack hstale (Or.inr (Or.inr hblocked))
    have hupc : s'.pc u = s.pc u := by
      apply h.stays hstack hstaleU
      rcases hu with hwaits | hwithin
      · exact Or.inl hwaits
      · exact Or.inr (Or.inl hwithin.mem.2)
    refine ⟨h.blocked hs hblocked hholds htpc hupc, u, by rwa [Holds, hupc], ?_⟩
    rcases hu with hwaits | hwithin
    · left
      rwa [hupc]
    · exact Or.inr (h.within hwithin hdone)

/-- From a stuck handler on, every run is stuck. -/
theorem Stuck.run (labels : List (Turn τ χ η ω ε)) (s s' : Loop τ σ π) (hs : G.Valid s)
    (hstuck : G.Stuck s) (h : G.machine.run s labels = some s') : G.Stuck s' := by
  have hinv : G.Valid s' ∧ G.Stuck s' :=
    G.machine.run_invariant (I := fun s => G.Valid s ∧ G.Stuck s)
      (fun _ _ _ ht hstep => ⟨ht.1.step (step_cases hstep), ht.2.step ht.1 (step_cases hstep)⟩)
      labels s s' ⟨hs, hstuck⟩ h
  exact hinv.2

/-- Every run keeps the loop valid. -/
theorem Valid.run (labels : List (Turn τ χ η ω ε)) (s s' : Loop τ σ π) (hs : G.Valid s)
    (h : G.machine.run s labels = some s') : G.Valid s' :=
  G.machine.run_invariant (fun _ _ _ ht hstep => ht.step (step_cases hstep)) labels s s' hs h

theorem moves_of_free {t : τ} (hfree : Free s t) (hstale : G.fresh (s.pc t) = false)
    (hdone : G.done (s.pc t) = false) (hwaits : ¬G.Waits (s.pc t)) (hblocked : ¬G.Blocked s t) :
    G.CanGo s t := by
  have hanswer : ∀ w, G.answer (s.pc t) w = none := by
    intro w
    by_contra hnot
    obtain ⟨q, hq⟩ := Option.ne_none_iff_exists'.mp hnot
    exact hwaits ⟨w, q, hq⟩
  rcases G.ready s.data hstale hdone hanswer with hcall | ⟨w, ⟨op, x', p'⟩, hadvance⟩
  · obtain ⟨q, hq⟩ := Option.ne_none_iff_exists'.mp hcall
    left
    simp [machine, hfree, hq]
  · have hlock : ∃ lock, s.lock.perform t op = some lock := by
      by_contra hnot
      have hnone : s.lock.perform t op = none := by
        by_contra hsome
        exact hnot (Option.ne_none_iff_exists'.mp hsome)
      have hblocking : op.blocking = true := by
        by_contra hnot
        have hsome := WriterFirst.isSome_perform (m := s.lock) (t := t) (by simpa using hnot)
        simp [hnone] at hsome
      refine hblocked ⟨op, ?_, hnone⟩
      rw [(G.advance_wants hadvance).1, if_pos hblocking]
    obtain ⟨lock, hlock⟩ := hlock
    refine Or.inr ⟨w, ?_⟩
    simp [machine, hfree, hadvance, hlock]

theorem calling_of_claim {p : π} (h : G.claim p ≠ .none) : G.fresh p = false ∧ G.done p = false := by
  by_contra hnot
  rw [not_and_or, Bool.not_eq_false, Bool.not_eq_false] at hnot
  exact h (G.resting hnot).1

theorem holder_can_go {t : τ} (hfree : Free s t) (ht : G.Holds s t)
    (hwaits : ¬G.Waits (s.pc t)) : G.CanGo s t := by
  have hclaim : G.claim (s.pc t) ≠ .none ∧ G.claim (s.pc t) ≠ .announced := by
    rcases ht with hread | hwrite
    · simp [hread]
    · simp [hwrite]
  obtain ⟨hstale, hdone⟩ := calling_of_claim hclaim.1
  apply moves_of_free hfree hstale hdone hwaits
  rintro ⟨op, hwants, _⟩
  have hop := G.wants_claim hwants
  split_ifs at hop
  · exact hclaim.2 hop
  · exact hclaim.1 hop

theorem writer_can_go {t : τ} (hs : G.Valid s) (hruns : guestRuns s.stack = true)
    (ht : G.claim (s.pc t) = .announced) (hreaders : s.lock.readers = ∅) : G.CanGo s t := by
  obtain ⟨hstale, hdone⟩ := calling_of_claim (G := G) (p := s.pc t) (by simp [ht])
  refine moves_of_free ⟨hruns, fun hmem => (hs.callbacks t hmem).2 ht⟩ hstale hdone ?_ ?_
  · rintro ⟨w, q, hq⟩
    exact (G.answered hq).2.2 ht
  · rintro ⟨op, hwants, hnone⟩
    have hop := G.wants_claim hwants
    rw [ht] at hop
    split_ifs at hop with heq
    subst heq
    exact WriterFirst.perform_acquire_eq_none.mp hnone hreaders

/-- An innermost handler that is not done and not stuck can go on, or a thread can that it
waits for. -/
theorem handler_progress {t : τ} {below : List (Frame τ)} (hs : G.Valid s)
    (hstuck : ¬G.Stuck s) (hstack : s.stack = .handler t :: below)
    (hdone : G.done (s.pc t) = false) :
    ∃ u, (u = t ∨ u ∈ s.lock.readers ∨ s.lock.writer = some u) ∧ G.CanGo s u := by
  have hmem : .handler t ∈ s.stack := by simp [hstack]
  have hruns : guestRuns s.stack = true := by simp [hstack, guestRuns]
  -- What is in a function of the host has called the handler.
  have hwithin : ∀ u, .callback u ∈ s.stack → Within t u s.stack := by
    intro u hu
    rw [hstack] at hu ⊢
    exact Or.inl ⟨rfl, (List.mem_cons.mp hu).resolve_left (by simp)⟩
  by_cases hblocked : G.Blocked s t
  · have hholder : ∀ u, G.Holds s u → G.CanGo s u := by
      intro u hu
      refine holder_can_go ⟨hruns, fun hin => ?_⟩ hu fun hwaits => ?_
      · exact hstuck ⟨t, hmem, Or.inr ⟨hblocked, u, hu, Or.inr (hwithin u hin)⟩⟩
      · exact hstuck ⟨t, hmem, Or.inr ⟨hblocked, u, hu, Or.inl hwaits⟩⟩
    by_cases hreaders : s.lock.readers = ∅
    · obtain ⟨op, hwants, hnone⟩ := hblocked
      have hop : op ≠ .acquire := by
        rintro rfl
        exact WriterFirst.perform_acquire_eq_none.mp hnone hreaders
      obtain ⟨v, hv⟩ := Option.ne_none_iff_exists'.mp ((WriterFirst.perform_eq_none hop).mp hnone).2
      refine ⟨v, Or.inr (Or.inr hv), ?_⟩
      rcases (hs.agrees.writer v).mp hv with hannounced | hwrite
      · exact writer_can_go hs hruns hannounced hreaders
      · exact hholder v (Or.inr hwrite)
    · obtain ⟨r, hr⟩ := Finset.nonempty_iff_ne_empty.mpr hreaders
      exact ⟨r, Or.inr (Or.inl hr), hholder r (Or.inl ((hs.agrees.reader r).mp hr))⟩
  · refine ⟨t, Or.inl rfl, moves_of_free ⟨hruns, fun hin => ?_⟩ (hs.handlers t hmem) hdone
      (fun hwaits => ?_) hblocked⟩
    · exact hs.within t (hwithin t hin)
    · exact hstuck ⟨t, hmem, Or.inl hwaits⟩

end Machine

end Guest
end SshClientWasm.Library
