import SshClientWasm.Ssh.Loaded

/-!
# The React hook of the client

`useSSHClient` starts `SSHClient.initialize` in an effect that runs again whenever its
options change, and `withSSHClient` renders what the hook says. What is behind the promise
runs in three turns, and components come, change and go in between. An effect whose
cleanup has run writes nothing any more.
-/
namespace SshClientWasm.React

open Library Ssh

/-- The state of `useSSHClient`. -/
structure ClientHook where
  isInitialized : Bool
  initError : Option String
  isLoading : Bool
  deriving DecidableEq, Repr

/-- What `withSSHClient` renders. -/
inductive View
  | loading
  | error (message : String)
  | notInitialized
  | component
  deriving DecidableEq, Repr

namespace ClientHook

def initial : ClientHook := ⟨false, none, true⟩

variable (h : ClientHook)

/-- The callback of `then`. -/
def onResolved : ClientHook := { h with isInitialized := true, initError := none }

/-- The callback of `catch`. -/
def onRejected (error : String) : ClientHook :=
  { h with initError := some error, isInitialized := false }

/-- The callback of `finally`. -/
def onSettled : ClientHook := { h with isLoading := false }

/-- `withSSHClient`. -/
def view : View :=
  if h.isLoading then .loading
  else
    match h.initError with
    | some error => .error error
    | none => if h.isInitialized then .component else .notInitialized

/-- The hook tells how an initialization has ended. -/
def Tells (error : Option String) : Prop :=
  h.isInitialized = error.isNone ∧ h.initError = error

end ClientHook

/-- What an effect waits for: its promise, and then the turns of `catch` and of `finally`. -/
inductive Stage
  | promise
  | catches (error : Option String)
  | finishes (error : Option String)
  | over (error : Option String)
  deriving DecidableEq, Repr

/-- A run of the effect of a component. There is no call where `initialize` has returned
without one. -/
structure ClientEffect where
  component : ℕ
  mounted : Bool
  call : Option ℕ
  stage : Stage

/-- A component with the effect that is installed in it. -/
structure Component where
  hook : ClientHook
  effect : Option ℕ

/-- All components that use the hook on one page, and the effects so far. -/
structure App where
  page : Page
  components : ℕ → Component
  effects : ℕ → ClientEffect
  installed : ℕ

/-- Something else happens on the page; a component is mounted or its options have changed,
or it is unmounted; an effect takes a turn. -/
inductive AppEvent
  | page (a : PageEvent)
  | effect (k : ℕ) (autoDetect : Bool)
  | unmount (k : ℕ)
  | settled (e : ℕ) (error : Option String)
  | catches (e : ℕ)
  | finishes (e : ℕ)
  deriving DecidableEq, Repr

namespace App

def start : App where
  page := .start
  components := fun _ => ⟨.initial, none⟩
  effects := fun _ => ⟨0, false, none, .promise⟩
  installed := 0

variable (s : App)

/-- The cleanup of the effect that is installed in a component, if there is one. -/
def cleanup (k : ℕ) : App :=
  match (s.components k).effect with
  | none => s
  | some e =>
    { s with
      components := Function.update s.components k { s.components k with effect := none }
      effects := Function.update s.effects e { s.effects e with mounted := false } }

/-- The effect calls `initialize`. -/
def install (k : ℕ) (autoDetect : Bool) : Option App :=
  (Page.machine.step s.page (.initializeCalled autoDetect)).map fun page =>
    { page := page
      components := Function.update s.components k
        { s.components k with effect := some s.installed }
      effects := Function.update s.effects s.installed
        ⟨k, true, if s.page.initialized then none else some s.page.calls.length, .promise⟩
      installed := s.installed + 1 }

/-- How the promise of an effect has settled. -/
def Settled (call : Option ℕ) (error : Option String) : Prop :=
  match call, error with
  | none, none => True
  | none, some _ => False
  | some c, none => s.page.calls[c]? = some .resolved
  | some c, some _ => s.page.calls[c]? = some .rejected

instance (call : Option ℕ) (error : Option String) : Decidable (s.Settled call error) :=
  match call, error with
  | none, none => isTrue trivial
  | none, some _ => isFalse id
  | some _, none => inferInstanceAs (Decidable (_ = _))
  | some _, some _ => inferInstanceAs (Decidable (_ = _))

/-- A callback of an effect looks at `mounted` first. -/
def turn (e : ℕ) (stage : Stage) (callback : ClientHook → ClientHook) : App :=
  { s with
    effects := Function.update s.effects e { s.effects e with stage := stage }
    components :=
      if (s.effects e).mounted then
        Function.update s.components (s.effects e).component
          { s.components (s.effects e).component with
            hook := callback (s.components (s.effects e).component).hook }
      else s.components }

def machine : Machine App AppEvent where
  step s
    | .page a => (Page.machine.step s.page a).map fun page => { s with page := page }
    | .effect k autoDetect => (s.cleanup k).install k autoDetect
    | .unmount k => some (s.cleanup k)
    | .settled e error =>
      if e < s.installed ∧ (s.effects e).stage = .promise ∧ s.Settled (s.effects e).call error then
        some (s.turn e (.catches error) (if error = none then ClientHook.onResolved else id))
      else none
    | .catches e =>
      match (s.effects e).stage with
      | .catches error =>
        some (s.turn e (.finishes error) (error.elim id fun e h => h.onRejected e))
      | _ => none
    | .finishes e =>
      match (s.effects e).stage with
      | .finishes error => some (s.turn e (.over error) ClientHook.onSettled)
      | _ => none

end App

namespace ClientHook

variable {h : ClientHook}

/-- Not both a client and an error, and one of them once nothing is loading. -/
structure Consistent (h : ClientHook) : Prop where
  exclusive : h.isInitialized = true → h.initError = none
  settled : h.isLoading = false → h.isInitialized = false → h.initError ≠ none

/-- What the hook owes to the turns that an effect has taken. -/
def Shows (h : ClientHook) : Stage → Prop
  | .promise | .catches (some _) => True
  | .catches none => h.Tells none
  | .finishes error => h.Tells error
  | .over error => h.Tells error ∧ h.isLoading = false

theorem Consistent.view_ne (hc : h.Consistent) : h.view ≠ .notInitialized := by
  cases hloading : h.isLoading with
  | true => simp [view, hloading]
  | false =>
    cases herror : h.initError with
    | some error => simp [view, hloading, herror]
    | none =>
      cases hinit : h.isInitialized with
      | true => simp [view, hloading, herror, hinit]
      | false => exact absurd herror (hc.settled hloading hinit)

theorem Tells.view {error : Option String} (ht : h.Tells error) (hloading : h.isLoading = false) :
    h.view = error.elim .component .error := by
  obtain ⟨hinit, herror⟩ := ht
  cases error with
  | none => simp [ClientHook.view, hloading, hinit, herror]
  | some e => simp [ClientHook.view, hloading, herror]

theorem initialized_of_view (hv : h.view = .component) : h.isInitialized = true := by
  cases hinit : h.isInitialized with
  | true => rfl
  | false =>
    exfalso
    cases hloading : h.isLoading with
    | true => simp [view, hloading] at hv
    | false => cases herror : h.initError <;> simp [view, hloading, herror, hinit] at hv

theorem initial_consistent : initial.Consistent where
  exclusive := fun h => Bool.noConfusion h
  settled := fun h => Bool.noConfusion h

theorem Tells.consistent {error : Option String} (ht : h.Tells error) : h.Consistent where
  exclusive := by
    intro hinit
    rw [ht.1] at hinit
    rw [ht.2]
    exact Option.isNone_iff_eq_none.mp hinit
  settled := by
    intro _ hinit
    rw [ht.1] at hinit
    rw [ht.2]
    rintro rfl
    cases hinit

end ClientHook

namespace App

open ClientHook

/-- An effect is mounted exactly while it is the one that is installed in its component, and
the hook of a component shows what the installed effect has found. -/
structure Sound (s : App) : Prop where
  current : ∀ k e, (s.components k).effect = some e →
    e < s.installed ∧ (s.effects e).component = k
  owned : ∀ e, (s.effects e).mounted = true ↔
    (s.components (s.effects e).component).effect = some e
  consistent : ∀ k, (s.components k).hook.Consistent
  shows : ∀ e, (s.effects e).mounted = true →
    (s.components (s.effects e).component).hook.Shows (s.effects e).stage

variable {s t : App}

theorem start_sound : start.Sound where
  current := by simp [start]
  owned := by simp [start]
  consistent := fun _ => initial_consistent
  shows := by simp [start]

theorem Sound.not_mounted (h : s.Sound) {k e : ℕ} (hk : (s.components k).effect = none)
    (he : (s.effects e).component = k) : (s.effects e).mounted = false := by
  rw [← Bool.not_eq_true, h.owned, he, hk]
  simp

theorem cleanup_effect (s : App) (k : ℕ) : ((s.cleanup k).components k).effect = none := by
  unfold cleanup
  split
  · assumption
  · simp

theorem Sound.cleanup (h : s.Sound) (k : ℕ) : (s.cleanup k).Sound := by
  cases hk : (s.components k).effect with
  | none =>
    rw [App.cleanup, hk]
    exact h
  | some e =>
    have hcomponent : (s.effects e).component = k := (h.current k e hk).2
    have hother : ∀ d, d ≠ e → (s.effects d).component = k → (s.effects d).mounted = false := by
      intro d hd hdk
      rw [← Bool.not_eq_true, h.owned, hdk, hk]
      exact fun heq => hd (Option.some.inj heq).symm
    rw [App.cleanup, hk]
    dsimp only
    constructor
    case current =>
      intro j d hj
      by_cases hjk : j = k
      · subst hjk
        simp at hj
      · simp only [Function.update_of_ne hjk] at hj
        obtain ⟨hlt, hdj⟩ := h.current j d hj
        have hde : d ≠ e := fun heq => hjk (hdj.symm.trans (heq ▸ hcomponent))
        simp only [Function.update_of_ne hde]
        exact ⟨hlt, hdj⟩
    case owned =>
      intro d
      by_cases hde : d = e
      · subst hde
        simp [hcomponent]
      · simp only [Function.update_of_ne hde]
        by_cases hdk : (s.effects d).component = k
        · simp [hdk, hother d hde hdk]
        · simp only [Function.update_of_ne hdk]
          exact h.owned d
    case consistent =>
      intro j
      by_cases hjk : j = k
      · subst hjk
        simp only [Function.update_self]
        exact h.consistent j
      · simp only [Function.update_of_ne hjk]
        exact h.consistent j
    case shows =>
      intro d hd
      by_cases hde : d = e
      · subst hde
        simp at hd
      · simp only [Function.update_of_ne hde] at hd ⊢
        by_cases hdk : (s.effects d).component = k
        · rw [hother d hde hdk] at hd
          cases hd
        · simp only [Function.update_of_ne hdk]
          exact h.shows d hd

theorem Sound.install (h : s.Sound) {k : ℕ} {autoDetect : Bool}
    (hk : (s.components k).effect = none) (hstep : s.install k autoDetect = some t) : t.Sound := by
  obtain ⟨page, -, rfl⟩ := Option.map_eq_some_iff.mp hstep
  constructor
  case current =>
    intro j d hj
    by_cases hjk : j = k
    · subst hjk
      simp only [Function.update_self] at hj
      cases hj
      simp
    · simp only [Function.update_of_ne hjk] at hj
      obtain ⟨hlt, hdj⟩ := h.current j d hj
      have hnew : d ≠ s.installed := by omega
      simp only [Function.update_of_ne hnew]
      exact ⟨by omega, hdj⟩
  case owned =>
    intro d
    by_cases hnew : d = s.installed
    · subst hnew
      simp
    · simp only [Function.update_of_ne hnew]
      by_cases hdk : (s.effects d).component = k
      · rw [h.not_mounted hk hdk, hdk]
        simp only [Function.update_self]
        simp [Ne.symm hnew]
      · simp only [Function.update_of_ne hdk]
        exact h.owned d
  case consistent =>
    intro j
    by_cases hjk : j = k
    · subst hjk
      simp only [Function.update_self]
      exact h.consistent j
    · simp only [Function.update_of_ne hjk]
      exact h.consistent j
  case shows =>
    intro d hd
    by_cases hnew : d = s.installed
    · subst hnew
      simp [Shows]
    · simp only [Function.update_of_ne hnew] at hd ⊢
      have hdk : (s.effects d).component ≠ k := by
        intro hdk
        rw [h.not_mounted hk hdk] at hd
        cases hd
      simp only [Function.update_of_ne hdk]
      exact h.shows d hd

/-- A turn of a mounted effect is one of its component, any other changes no hook. -/
theorem Sound.turn (h : s.Sound) {e : ℕ} {stage : Stage} {callback : ClientHook → ClientHook}
    (hturn : (s.effects e).mounted = true → ∀ hook : ClientHook, hook.Consistent →
      hook.Shows (s.effects e).stage → (callback hook).Consistent ∧ (callback hook).Shows stage) :
    (s.turn e stage callback).Sound := by
  have hcomponent : ∀ d, ((s.turn e stage callback).effects d).component = (s.effects d).component ∧
      ((s.turn e stage callback).effects d).mounted = (s.effects d).mounted := by
    intro d
    by_cases hde : d = e
    · subst hde
      simp [App.turn]
    · simp [App.turn, Function.update_of_ne hde]
  have heffect : ∀ k, ((s.turn e stage callback).components k).effect = (s.components k).effect := by
    intro k
    cases hmounted : (s.effects e).mounted with
    | false => simp [App.turn, hmounted]
    | true =>
      by_cases hk : k = (s.effects e).component
      · subst hk
        simp [App.turn, hmounted]
      · simp [App.turn, hmounted, Function.update_of_ne hk]
  constructor
  case current =>
    intro k d hk
    rw [heffect] at hk
    rw [(hcomponent d).1]
    exact h.current k d hk
  case owned =>
    intro d
    rw [(hcomponent d).1, (hcomponent d).2, heffect]
    exact h.owned d
  case consistent =>
    intro k
    cases hmounted : (s.effects e).mounted with
    | false =>
      simp only [App.turn, hmounted, Bool.false_eq_true, if_false]
      exact h.consistent k
    | true =>
      by_cases hk : k = (s.effects e).component
      · subst hk
        simp only [App.turn, hmounted, if_true, Function.update_self]
        exact (hturn hmounted _ (h.consistent _) (h.shows e hmounted)).1
      · simp only [App.turn, hmounted, if_true, Function.update_of_ne hk]
        exact h.consistent k
  case shows =>
    intro d hd
    rw [(hcomponent d).2] at hd
    rw [(hcomponent d).1]
    by_cases hde : d = e
    · subst hde
      simp only [App.turn, hd, if_true, Function.update_self]
      exact (hturn hd _ (h.consistent _) (h.shows d hd)).2
    · have hown := (h.owned d).mp hd
      have hstage : ((s.turn e stage callback).effects d).stage = (s.effects d).stage := by
        simp [App.turn, Function.update_of_ne hde]
      rw [hstage]
      cases hmounted : (s.effects e).mounted with
      | false =>
        simp only [App.turn, hmounted, Bool.false_eq_true, if_false]
        exact h.shows d hd
      | true =>
        -- two mounted effects are installed in two components
        have hne : (s.effects d).component ≠ (s.effects e).component := by
          intro heq
          rw [heq, (h.owned e).mp hmounted] at hown
          exact hde (Option.some.inj hown).symm
        simp only [App.turn, hmounted, if_true, Function.update_of_ne hne]
        exact h.shows d hd

theorem Sound.step {a : AppEvent} (h : s.Sound) (hstep : machine.step s a = some t) : t.Sound := by
  cases a with
  | page a =>
    obtain ⟨page, -, rfl⟩ := Option.map_eq_some_iff.mp hstep
    exact ⟨h.current, h.owned, h.consistent, h.shows⟩
  | effect k autoDetect => exact (h.cleanup k).install (cleanup_effect s k) hstep
  | unmount k =>
    cases hstep
    exact h.cleanup k
  | settled e error =>
    obtain ⟨-, hturn⟩ := Option.ite_none_right_eq_some.mp hstep
    cases hturn
    apply h.turn
    intro _ hook hconsistent _
    cases error with
    | none => exact ⟨(show Tells _ none from ⟨rfl, rfl⟩).consistent, rfl, rfl⟩
    | some error => exact ⟨hconsistent, trivial⟩
  | catches e =>
    simp only [machine] at hstep
    split at hstep
    next error hstage =>
      cases hstep
      apply h.turn
      rw [hstage]
      intro _ hook hconsistent hshows
      cases error with
      | none => exact ⟨hconsistent, hshows⟩
      | some error => exact ⟨(show Tells _ (some error) from ⟨rfl, rfl⟩).consistent, rfl, rfl⟩
    next => cases hstep
  | finishes e =>
    simp only [machine] at hstep
    split at hstep
    next error hstage =>
      cases hstep
      apply h.turn
      rw [hstage]
      intro _ hook _ hshows
      have htells : hook.onSettled.Tells error := hshows
      exact ⟨htells.consistent, htells, rfl⟩
    next => cases hstep

theorem sound_run {labels : List AppEvent} (hrun : machine.run start labels = some s) : s.Sound :=
  machine.run_invariant (I := Sound) (fun _ _ _ h hstep => h.step hstep) labels start s start_sound hrun

/-- In every interleaving of pages, components, effects and turns, `withSSHClient` never
renders that nothing is initialized; and once the effect that is installed in a component
has taken its last turn, it renders what became of that effect's own `initialize`. -/
theorem view_right (labels : List AppEvent) (s : App) (hrun : machine.run start labels = some s)
    (k : ℕ) :
    (s.components k).hook.view ≠ .notInitialized ∧
      ∀ e error, (s.components k).effect = some e → (s.effects e).stage = .over error →
        (s.components k).hook.view = error.elim .component .error := by
  have hsound := sound_run hrun
  refine ⟨(hsound.consistent k).view_ne, fun e error hk hover => ?_⟩
  have hcomponent := (hsound.current k e hk).2
  have hshows := hsound.shows e ((hsound.owned e).mpr (hcomponent.symm ▸ hk))
  rw [hover, hcomponent] at hshows
  exact hshows.1.view hshows.2

/-- One component fails, and works after a change of its options; meanwhile another one is
unmounted before its turn. -/
def retried : List AppEvent :=
  [.effect 0 false, .effect 1 false, .page (.settle 0 false), .settled 0 (some "timeout"),
    .catches 0, .finishes 0, .unmount 1, .page .executorRuns, .effect 0 false] ++
    List.replicate 5 (.page (.settle 2 true)) ++ [.settled 2 none, .catches 2, .finishes 2]

theorem view_right_retried :
    ∃ s, machine.run start retried = some s ∧ (s.components 0).hook.view = .component ∧
      (s.components 1).hook.view = .loading := by
  obtain ⟨s, hs, hvalues⟩ := Option.map_eq_some_iff.mp
    (by rfl : (machine.run start retried).map (fun s =>
      ((s.components 0).effect, (s.effects 2).stage, (s.components 1).hook.view)) =
        some (some 2, .over none, .loading))
  obtain ⟨heffect, hstage, hother⟩ := by simpa only [Prod.mk.injEq] using hvalues
  exact ⟨s, hs, (view_right retried s hs 0).2 2 none heffect hstage, hother⟩

/-- What a component that is rendered rests on. -/
structure Backed (s : App) : Prop where
  started : s.page.Started
  loaded : s.page.Loaded
  usable : s.page.Usable
  returned : ∀ e, e < s.installed → (s.effects e).call = none → .resolved ∈ s.page.calls
  initialized : ∀ k, (s.components k).hook.isInitialized = true → .resolved ∈ s.page.calls

/-- No call of `initialize` fails behind one that has resolved. -/
def InTime (s : App) : AppEvent → Prop
  | .page a => s.page.InTime a
  | _ => True

instance (s : App) : ∀ a, Decidable (s.InTime a)
  | .page _ => inferInstanceAs (Decidable (Page.InTime _ _))
  | .effect _ _ | .unmount _ | .settled _ _ | .catches _ | .finishes _ => isTrue trivial

theorem start_backed : start.Backed where
  started := Page.start_started
  loaded := Page.start_loaded
  usable := by simp [Page.Usable, start, Page.start]
  returned := by simp [start]
  initialized := by simp [start, initial]

theorem Backed.cleanup (h : s.Backed) (k : ℕ) : (s.cleanup k).Backed := by
  cases hk : (s.components k).effect with
  | none =>
    rw [App.cleanup, hk]
    exact h
  | some e =>
    rw [App.cleanup, hk]
    refine ⟨h.started, h.loaded, h.usable, fun d hd hcall => ?_, fun j hj => ?_⟩
    · by_cases hde : d = e
      · subst hde
        simp only [Function.update_self] at hcall
        exact h.returned d hd hcall
      · simp only [Function.update_of_ne hde] at hcall
        exact h.returned d hd hcall
    · by_cases hjk : j = k
      · subst hjk
        simp only [Function.update_self] at hj
        exact h.initialized j hj
      · simp only [Function.update_of_ne hjk] at hj
        exact h.initialized j hj

theorem Backed.install (h : s.Backed) {k : ℕ} {autoDetect : Bool}
    (hstep : s.install k autoDetect = some t) : t.Backed := by
  obtain ⟨page, hpage, rfl⟩ := Option.map_eq_some_iff.mp hstep
  have hresolved : .resolved ∈ s.page.calls → .resolved ∈ page.calls :=
    fun hmem => Page.resolved_step hmem hpage
  refine ⟨h.started.step hpage, h.loaded.step hpage,
    (Page.step_usable_iff h.usable hpage).mpr trivial, fun d hd hcall => ?_, fun j hj => ?_⟩
  · by_cases hnew : d = s.installed
    · subst hnew
      simp only [Function.update_self] at hcall
      split_ifs at hcall with hinit
      exact hresolved (h.loaded hinit).1
    · simp only [Function.update_of_ne hnew] at hcall
      exact hresolved (h.returned d (by dsimp only at hd; omega) hcall)
  · by_cases hjk : j = k
    · subst hjk
      simp only [Function.update_self] at hj
      exact hresolved (h.initialized j hj)
    · simp only [Function.update_of_ne hjk] at hj
      exact hresolved (h.initialized j hj)

/-- A turn makes a hook say that it is initialized only where a call has resolved. -/
theorem Backed.turn (h : s.Backed) {e : ℕ} {stage : Stage} {callback : ClientHook → ClientHook}
    (hturn : ∀ hook : ClientHook, (callback hook).isInitialized = true →
      hook.isInitialized = true ∨ .resolved ∈ s.page.calls) : (s.turn e stage callback).Backed := by
  refine ⟨h.started, h.loaded, h.usable, fun d hd hcall => h.returned d hd ?_, fun k hk => ?_⟩
  · by_cases hde : d = e
    · subst hde
      simpa [App.turn] using hcall
    · simpa [App.turn, Function.update_of_ne hde] using hcall
  · cases hmounted : (s.effects e).mounted with
    | false =>
      simp only [App.turn, hmounted, Bool.false_eq_true, if_false] at hk
      exact h.initialized k hk
    | true =>
      by_cases hke : k = (s.effects e).component
      · subst hke
        simp only [App.turn, hmounted, if_true, Function.update_self] at hk
        exact (hturn _ hk).elim (h.initialized _) id
      · simp only [App.turn, hmounted, if_true, Function.update_of_ne hke] at hk
        exact h.initialized k hk

theorem Backed.step {a : AppEvent} (h : s.Backed) (hguard : s.InTime a)
    (hstep : machine.step s a = some t) : t.Backed := by
  cases a with
  | page a =>
    obtain ⟨page, hpage, rfl⟩ := Option.map_eq_some_iff.mp hstep
    exact ⟨h.started.step hpage, h.loaded.step hpage, (Page.step_usable_iff h.usable hpage).mpr hguard,
      fun e he hcall => Page.resolved_step (h.returned e he hcall) hpage,
      fun k hk => Page.resolved_step (h.initialized k hk) hpage⟩
  | effect k autoDetect => exact (h.cleanup k).install hstep
  | unmount k =>
    cases hstep
    exact h.cleanup k
  | settled e error =>
    obtain ⟨⟨he, -, hsettled⟩, hturn⟩ := Option.ite_none_right_eq_some.mp hstep
    cases hturn
    apply h.turn
    intro hook hinit
    cases error with
    | some error => exact Or.inl hinit
    | none =>
      right
      cases hcall : (s.effects e).call with
      | none => exact h.returned e he hcall
      | some c =>
        rw [hcall] at hsettled
        exact List.mem_of_getElem? hsettled
  | catches e =>
    simp only [machine] at hstep
    split at hstep
    next error hstage =>
      cases hstep
      apply h.turn
      intro hook hinit
      cases error with
      | none => exact Or.inl hinit
      | some error => cases hinit
    next => cases hstep
  | finishes e =>
    simp only [machine] at hstep
    split at hstep
    next error hstage =>
      cases hstep
      exact h.turn fun hook hinit => Or.inl hinit
    next => cases hstep

/-- As long as no call of `initialize` fails behind one that has resolved, a component that
`withSSHClient` renders can connect: the flag is up, and `SSHClient` and the manager refer
to one Go program that was started. -/
theorem component_usable (labels : List AppEvent) (s : App)
    (hadmits : machine.Admits InTime start labels) (hrun : machine.run start labels = some s) (k : ℕ)
    (hview : (s.components k).hook.view = .component) :
    s.page.initialized = true ∧
      ∃ p < s.page.programs, s.page.wasmInstance = some p ∧
        s.page.managerInstance = some p := by
  have hbacked := machine.always_run labels start s
    (machine.always_of_admits (I := Backed) (fun _ h => h)
      (fun _ _ _ h hguard hstep => h.step hguard hstep) labels start start_backed hadmits) hrun
  have hflag := hbacked.usable (hbacked.initialized k (initialized_of_view hview))
  obtain ⟨p, hwasm, hmanager⟩ := (hbacked.loaded hflag).2
  exact ⟨hflag, p, hbacked.started.managerInstance p hmanager, hwasm, hmanager⟩

theorem component_usable_retried :
    ∃ s, machine.run start retried = some s ∧ s.page.initialized = true ∧
      ∃ p < s.page.programs, s.page.wasmInstance = some p ∧
        s.page.managerInstance = some p := by
  obtain ⟨s, hs, hview⟩ := Option.map_eq_some_iff.mp
    (by rfl : (machine.run start retried).map (fun s => (s.components 0).hook.view) =
      some .component)
  exact ⟨s, hs, component_usable retried s (by decide) hs 0 hview⟩

end App
end SshClientWasm.React
