import SshClientWasm.Library.AtomicStore
import SshClientWasm.Library.Hex
import SshClientWasm.Library.Machine

/-!
# Concurrent uploads

Any number of `PutFile` calls run on one server. A call is at one of the server
operations of `PutFile` or has returned, and every step is the next operation of
one call with an outcome that the server chooses. A failing operation may have
taken effect all the same; a rename without a source fails without effect.
-/
namespace SshClientWasm.Sftp

open Library

/-- The contents of the paths that exist. -/
abbrev Files := String → Option Bytes

/-- The arguments of a call, and the eight random bytes behind its temp suffix. -/
structure Upload where
  remotePath : String
  data : Bytes
  random : { b : Bytes // b.length = 8 }

namespace Upload

def suffix (u : Upload) : String := hexEncode u.random.val

def tmpPath (u : Upload) : String := u.remotePath ++ ".tmp-" ++ u.suffix

theorem suffix_eq_of_tmpPath_eq {u v : Upload} (h : u.tmpPath = v.tmpPath) :
    u.suffix = v.suffix := by
  have hlen : u.random.val.length = v.random.val.length := by
    rw [u.random.property, v.random.property]
  exact congrArg hexEncode (append_hexEncode_inj hlen h)

end Upload

/-- How an operation ends: a failure may hide that it took effect. -/
inductive Outcome
  | ok
  | failed (effect : Bool) (err : String)
  deriving DecidableEq, Repr

/-- The next operation of a call, with what the call remembers for it. -/
inductive Stage
  | suffix
  | create
  | write (stored : ℕ)
  | close (n : ℕ) (writeErr : Option String)
  | posixRename
  | rename (posixErr : String)
  | remove (err : String)
  | done (result : Except String Unit)

/-- An operation with its outcome. `store` is progress inside `Write`. -/
inductive Action
  | suffix (err : Option String)
  | create (o : Outcome)
  | store (stored : ℕ)
  | write (n : ℕ) (err : Option String)
  | close (err : Option String)
  | posixRename (o : Outcome)
  | rename (o : Outcome)
  | remove (effect : Bool)
  deriving DecidableEq, Repr

/-- The server, the stage of every call, and the calls whose rename took effect. -/
structure Uploads (ι : Type*) where
  files : Files
  stage : ι → Stage
  renamed : List ι

/-- An atomic replacement of `dst`; without a source there is none. -/
def Files.move (files : Files) (src dst : String) : Option Files :=
  (files src).map fun content =>
    Function.update (Function.update files dst (some content)) src none

namespace Uploads

variable {ι : Type*} (u : ι → Upload)

/-- No call has begun. -/
def start (files : Files) : Uploads ι := ⟨files, fun _ => .suffix, []⟩

def setFile (s : Uploads ι) (path : String) (content : Option Bytes) : Uploads ι :=
  { s with files := Function.update s.files path content }

/-- A rename of a call's temp file to its target that takes effect. -/
def moved (s : Uploads ι) (i : ι) : Option (Uploads ι) :=
  (s.files.move (u i).tmpPath (u i).remotePath).map fun files =>
    { s with files := files, renamed := s.renamed ++ [i] }

section Calls

variable [DecidableEq ι]

def goto (s : Uploads ι) (i : ι) (stage : Stage) : Uploads ι :=
  { s with stage := Function.update s.stage i stage }

/-- A rename with its outcome, going on to one of two stages. -/
def tryRename (s : Uploads ι) (i : ι) (o : Outcome) (failure : String → Stage) :
    Option (Uploads ι) :=
  match o with
  | .ok => (s.moved u i).map (·.goto i (.done (.ok ())))
  | .failed true err => (s.moved u i).map (·.goto i (failure err))
  | .failed false err => some (s.goto i (failure err))

/-- Behind `Close`, the first thing that went wrong in writing, if anything did. -/
def afterClose (u : Upload) (n : ℕ) (writeErr closeErr : Option String) : Stage :=
  match writeErr with
  | some err => .remove ("write " ++ u.tmpPath ++ ": " ++ err)
  | none =>
    if n ≠ u.data.length then
      .remove ("short write to " ++ u.tmpPath ++ ": " ++ toString n ++ " of " ++
        toString u.data.length ++ " bytes")
    else
      match closeErr with
      | some err => .remove ("close " ++ u.tmpPath ++ ": " ++ err)
      | none => .posixRename

/-- `PutFile`, one operation of one call at a time. -/
def machine : Machine (Uploads ι) (ι × Action) where
  step s a :=
    let (i, action) := a
    match s.stage i, action with
    | .suffix, .suffix none => some (s.goto i .create)
    | .suffix, .suffix (some err) =>
      some (s.goto i (.done (.error ("generate temp suffix: " ++ err))))
    | .create, .create .ok => some ((s.setFile (u i).tmpPath (some [])).goto i (.write 0))
    | .create, .create (.failed effect err) =>
      some ((if effect then s.setFile (u i).tmpPath (some []) else s).goto i
        (.done (.error ("create " ++ (u i).tmpPath ++ ": " ++ err))))
    | .write stored, .store stored' =>
      if stored < stored' ∧ stored' ≤ (u i).data.length then
        some ((s.setFile (u i).tmpPath (some ((u i).data.take stored'))).goto i (.write stored'))
      else none
    | .write stored, .write n err =>
      if err = none ∧ n ≠ stored then none else some (s.goto i (.close n err))
    | .close n writeErr, .close closeErr => some (s.goto i (afterClose (u i) n writeErr closeErr))
    | .posixRename, .posixRename o => s.tryRename u i o .rename
    | .rename posixErr, .rename o =>
      s.tryRename u i o fun err =>
        .remove ("rename " ++ (u i).tmpPath ++ " -> " ++ (u i).remotePath ++ ": " ++ err ++
          " (posix attempt: " ++ posixErr ++ ")")
    | .remove err, .remove effect =>
      some ((if effect then s.setFile (u i).tmpPath none else s).goto i (.done (.error err)))
    | _, _ => none

end Calls

/-- Temp suffixes that differ from call to call, and no target that is a temp path. -/
structure Separate (u : ι → Upload) : Prop where
  suffix_inj : ∀ i j, (u i).suffix = (u j).suffix → i = j
  target_ne_tmpPath : ∀ i j, (u i).remotePath ≠ (u j).tmpPath

variable {u} {s s' : Uploads ι} {i j : ι} {files : Files}

theorem Separate.tmpPath_ne (h : Separate u) (hij : i ≠ j) : (u i).tmpPath ≠ (u j).tmpPath := by
  intro heq
  exact hij (h.suffix_inj i j (Upload.suffix_eq_of_tmpPath_eq heq))

/-- The whole-file puts that the effective renames amount to. -/
def commits (u : ι → Upload) (renamed : List ι) : List (String × Bytes) :=
  renamed.map fun i => ((u i).remotePath, (u i).data)

/-- The renames of a call are to come with the payload in its temp file, or the
first of them took effect and left no temp file for the second. -/
def Complete (u : ι → Upload) (s : Uploads ι) (i : ι) : Prop :=
  i ∉ s.renamed ∧ s.files (u i).tmpPath = some (u i).data ∨
    i ∈ s.renamed ∧ s.files (u i).tmpPath = none

/-- What the stage of a call says about its temp file and its rename. -/
def Holds (u : ι → Upload) (s : Uploads ι) (i : ι) : Stage → Prop
  | .suffix | .create | .close _ (some _) => i ∉ s.renamed
  | .write n | .close n none =>
    i ∉ s.renamed ∧ n ≤ (u i).data.length ∧
      s.files (u i).tmpPath = some ((u i).data.take n)
  | .posixRename | .rename _ => Complete u s i
  | .done (.ok _) => i ∈ s.renamed
  | .remove _ | .done (.error _) => True

theorem Holds.frame {stage : Stage} (h : Holds u s i stage)
    (hfile : s'.files (u i).tmpPath = s.files (u i).tmpPath)
    (hrenamed : i ∈ s'.renamed ↔ i ∈ s.renamed) : Holds u s' i stage := by
  unfold Holds at h ⊢
  split at h <;> simp_all [Complete]

/-- Outside of the temp paths the server is the atomic store after the effective
renames, of which each call has at most one. -/
structure Refines (u : ι → Upload) (files : Files) (s : Uploads ι) : Prop where
  nodup : s.renamed.Nodup
  files_eq : ∀ path, (∀ j, path ≠ (u j).tmpPath) →
    s.files path = puts files (commits u s.renamed) path

/-- Every call is where its stage says. -/
structure Inv (u : ι → Upload) (files : Files) (s : Uploads ι) : Prop
    extends Refines u files s where
  stages : ∀ i, Holds u s i (s.stage i)

/-- Every call but one, which is about to move, is where its stage says. -/
structure Others (u : ι → Upload) (files : Files) (i : ι) (s : Uploads ι) : Prop
    extends Refines u files s where
  stages : ∀ j, j ≠ i → Holds u s j (s.stage j)

theorem Inv.others (h : Inv u files s) (i : ι) : Others u files i s :=
  ⟨h.toRefines, fun j _ => h.stages j⟩

theorem start_inv (u : ι → Upload) (files : Files) : Inv u files (start files) where
  nodup := List.nodup_nil
  files_eq := fun _ _ => rfl
  stages := fun _ => List.not_mem_nil

theorem Others.setFile (hsep : Separate u) (h : Others u files i s) (content : Option Bytes) :
    Others u files i (s.setFile (u i).tmpPath content) := by
  refine ⟨⟨h.nodup, ?_⟩, ?_⟩
  · intro path hpath
    have hfile : (s.setFile (u i).tmpPath content).files path = s.files path :=
      Function.update_of_ne (hpath i) ..
    rw [hfile]
    exact h.files_eq path hpath
  · intro j hj
    have hfile : (s.setFile (u i).tmpPath content).files (u j).tmpPath =
        s.files (u j).tmpPath := Function.update_of_ne (hsep.tmpPath_ne hj) ..
    exact (h.stages j hj).frame hfile Iff.rfl

theorem moved_eq_some (hmoved : s.moved u i = some s') :
    ∃ content, s.files (u i).tmpPath = some content ∧
      s'.files = Function.update (Function.update s.files (u i).remotePath (some content))
        (u i).tmpPath none ∧
      s'.stage = s.stage ∧ s'.renamed = s.renamed ++ [i] := by
  obtain ⟨files', hfiles, rfl⟩ := Option.map_eq_some_iff.mp hmoved
  obtain ⟨content, hcontent, rfl⟩ := Option.map_eq_some_iff.mp hfiles
  exact ⟨content, hcontent, rfl, rfl, rfl⟩

theorem Others.moved (hsep : Separate u) (h : Others u files i s) (hnot : i ∉ s.renamed)
    (hfile : s.files (u i).tmpPath = some (u i).data) (hmoved : s.moved u i = some s') :
    Others u files i s' ∧ i ∈ s'.renamed ∧ s'.files (u i).tmpPath = none := by
  obtain ⟨content, hcontent, hfiles, hstage, hrenamed⟩ := moved_eq_some hmoved
  cases hfile.symm.trans hcontent
  have hmem : i ∈ s'.renamed := by simp [hrenamed]
  have hgone : s'.files (u i).tmpPath = none := by rw [hfiles, Function.update_self]
  refine ⟨⟨⟨?_, ?_⟩, ?_⟩, hmem, hgone⟩
  · rw [hrenamed, ← List.concat_eq_append]
    exact h.nodup.concat hnot
  · intro path hpath
    have hcommits : commits u s'.renamed =
        commits u s.renamed ++ [((u i).remotePath, (u i).data)] := by
      rw [hrenamed, commits, List.map_append]
      rfl
    rw [hfiles, Function.update_of_ne (hpath i), hcommits, puts_concat]
    by_cases hp : path = (u i).remotePath
    · subst hp
      rw [Function.update_self, Function.update_self]
    · rw [Function.update_of_ne hp, Function.update_of_ne hp]
      exact h.files_eq path hpath
  · intro j hj
    rw [hstage]
    apply (h.stages j hj).frame
    · rw [hfiles, Function.update_of_ne (hsep.tmpPath_ne hj),
        Function.update_of_ne (hsep.target_ne_tmpPath i j).symm]
    · simp [hrenamed, hj]

theorem holds_afterClose {n : ℕ} {writeErr closeErr : Option String}
    (h : Holds u s i (.close n writeErr)) : Holds u s i (afterClose (u i) n writeErr closeErr) := by
  unfold afterClose
  cases writeErr with
  | some err => trivial
  | none =>
    obtain ⟨hnot, _, hfile⟩ := h
    by_cases hn : n = (u i).data.length
    · cases closeErr with
      | some err => simp [hn, Holds]
      | none =>
        subst hn
        rw [List.take_length] at hfile
        simp only [ne_eq, not_true_eq_false, if_false]
        exact Or.inl ⟨hnot, hfile⟩
    · simp [hn, Holds]

variable [DecidableEq ι]

theorem Others.goto {stage : Stage} (h : Others u files i s) (hstage : Holds u s i stage) :
    Inv u files (s.goto i stage) := by
  refine ⟨⟨h.nodup, h.files_eq⟩, ?_⟩
  intro j
  by_cases hj : j = i
  · subst hj
    have hself : (s.goto j stage).stage j = stage := Function.update_self ..
    rw [hself]
    exact hstage.frame rfl Iff.rfl
  · have hother : (s.goto i stage).stage j = s.stage j := Function.update_of_ne hj ..
    rw [hother]
    exact (h.stages j hj).frame rfl Iff.rfl

theorem Inv.tryRename {o : Outcome} {failure : String → Stage} (hsep : Separate u)
    (h : Inv u files s) (hhere : Complete u s i)
    (hfailure : ∀ t err, Complete u t i → Holds u t i (failure err))
    (hstep : s.tryRename u i o failure = some s') : Inv u files s' := by
  have heffect : ∀ t, s.moved u i = some t →
      Others u files i t ∧ i ∈ t.renamed ∧ t.files (u i).tmpPath = none := by
    intro t ht
    rcases hhere with ⟨hnot, hfile⟩ | ⟨_, hgone⟩
    · exact (h.others i).moved hsep hnot hfile ht
    · obtain ⟨content, hcontent, _⟩ := moved_eq_some ht
      cases hgone.symm.trans hcontent
  unfold Uploads.tryRename at hstep
  split at hstep
  · obtain ⟨t, ht, rfl⟩ := Option.map_eq_some_iff.mp hstep
    obtain ⟨hothers, hmem, _⟩ := heffect t ht
    exact hothers.goto hmem
  · obtain ⟨t, ht, rfl⟩ := Option.map_eq_some_iff.mp hstep
    obtain ⟨hothers, hmem, hgone⟩ := heffect t ht
    exact hothers.goto (hfailure t _ (Or.inr ⟨hmem, hgone⟩))
  · cases hstep
    exact (h.others i).goto (hfailure s _ hhere)

/-- What an operation of a call at a stage leads to. -/
inductive Performs (u : ι → Upload) (s : Uploads ι) (i : ι) : Stage → Action → Uploads ι → Prop
  | suffix : Performs u s i .suffix (.suffix none) (s.goto i .create)
  | suffixFailed (err : String) :
    Performs u s i .suffix (.suffix (some err))
      (s.goto i (.done (.error ("generate temp suffix: " ++ err))))
  | create :
    Performs u s i .create (.create .ok)
      ((s.setFile (u i).tmpPath (some [])).goto i (.write 0))
  | createFailed (effect : Bool) (err : String) :
    Performs u s i .create (.create (.failed effect err))
      ((if effect then s.setFile (u i).tmpPath (some []) else s).goto i
        (.done (.error ("create " ++ (u i).tmpPath ++ ": " ++ err))))
  | store (stored stored' : ℕ) (hle : stored' ≤ (u i).data.length) :
    Performs u s i (.write stored) (.store stored')
      ((s.setFile (u i).tmpPath (some ((u i).data.take stored'))).goto i (.write stored'))
  | written (stored : ℕ) : Performs u s i (.write stored) (.write stored none)
      (s.goto i (.close stored none))
  | writeFailed (stored n : ℕ) (err : String) :
    Performs u s i (.write stored) (.write n (some err)) (s.goto i (.close n (some err)))
  | close (n : ℕ) (writeErr closeErr : Option String) :
    Performs u s i (.close n writeErr) (.close closeErr)
      (s.goto i (afterClose (u i) n writeErr closeErr))
  | posixRename (o : Outcome) (s' : Uploads ι) (h : s.tryRename u i o .rename = some s') :
    Performs u s i .posixRename (.posixRename o) s'
  | rename (posixErr : String) (o : Outcome) (failure : String → String) (s' : Uploads ι)
      (h : s.tryRename u i o (fun err => .remove (failure err)) = some s') :
    Performs u s i (.rename posixErr) (.rename o) s'
  | remove (err : String) (effect : Bool) :
    Performs u s i (.remove err) (.remove effect)
      ((if effect then s.setFile (u i).tmpPath none else s).goto i (.done (.error err)))

theorem step_performs {action : Action} (hstep : (machine u).step s (i, action) = some s') :
    Performs u s i (s.stage i) action s' := by
  simp only [machine] at hstep
  split at hstep
  all_goals rename_i hstage
  all_goals try rw [hstage]
  case h_1 =>
    cases hstep
    exact .suffix
  case h_2 =>
    cases hstep
    exact .suffixFailed _
  case h_3 =>
    cases hstep
    exact .create
  case h_4 effect err =>
    cases hstep
    exact .createFailed effect err
  case h_5 stored stored' =>
    obtain ⟨⟨_, hle⟩, heq⟩ := Option.ite_none_right_eq_some.mp hstep
    cases heq
    exact .store stored stored' hle
  case h_6 stored n err =>
    obtain ⟨hreported, heq⟩ := Option.ite_none_left_eq_some.mp hstep
    cases heq
    cases err with
    | some err => exact .writeFailed stored n err
    | none =>
      obtain rfl : n = stored := by simpa using hreported
      exact .written n
  case h_7 =>
    cases hstep
    exact .close _ _ _
  case h_8 => exact .posixRename _ _ hstep
  case h_9 => exact .rename _ _ _ _ hstep
  case h_10 err effect =>
    cases hstep
    exact .remove err effect
  case h_11 => cases hstep

theorem tryRename_frame (hsep : Separate u) {o : Outcome} {failure : String → Stage}
    (hstep : s.tryRename u i o failure = some s') :
    (∀ j, j ≠ i → s'.stage j = s.stage j ∧ s'.files (u j).tmpPath = s.files (u j).tmpPath) ∧
      (s'.renamed = s.renamed ∨ s'.renamed = s.renamed ++ [i]) := by
  have hmoved : ∀ t stage, s.moved u i = some t →
      (∀ j, j ≠ i → (t.goto i stage).stage j = s.stage j ∧
          (t.goto i stage).files (u j).tmpPath = s.files (u j).tmpPath) ∧
        ((t.goto i stage).renamed = s.renamed ∨ (t.goto i stage).renamed = s.renamed ++ [i]) := by
    intro t stage ht
    obtain ⟨content, -, hfiles, hstage, hrenamed⟩ := moved_eq_some ht
    refine ⟨fun j hj => ⟨?_, ?_⟩, Or.inr hrenamed⟩
    · exact (Function.update_of_ne hj ..).trans (congrFun hstage j)
    · refine (congrFun hfiles _).trans ?_
      rw [Function.update_of_ne (hsep.tmpPath_ne hj),
        Function.update_of_ne (hsep.target_ne_tmpPath i j).symm]
  unfold tryRename at hstep
  split at hstep
  · obtain ⟨t, ht, rfl⟩ := Option.map_eq_some_iff.mp hstep
    exact hmoved t _ ht
  · obtain ⟨t, ht, rfl⟩ := Option.map_eq_some_iff.mp hstep
    exact hmoved t _ ht
  · cases hstep
    exact ⟨fun j hj => ⟨Function.update_of_ne hj .., rfl⟩, Or.inl rfl⟩

/-- A step of a call concerns no temp file and no stage of another one, and a rename is
appended to what has been renamed. -/
theorem step_frame (hsep : Separate u) {a : Action}
    (hstep : (machine u).step s (i, a) = some s') :
    (∀ j, j ≠ i → s'.stage j = s.stage j ∧ s'.files (u j).tmpPath = s.files (u j).tmpPath) ∧
      (s'.renamed = s.renamed ∨ s'.renamed = s.renamed ++ [i]) := by
  have hgoto : ∀ stage, ∀ j, j ≠ i → (s.goto i stage).stage j = s.stage j ∧
      (s.goto i stage).files (u j).tmpPath = s.files (u j).tmpPath :=
    fun stage j hj => ⟨Function.update_of_ne hj .., rfl⟩
  have hset : ∀ content stage, ∀ j, j ≠ i →
      ((s.setFile (u i).tmpPath content).goto i stage).stage j = s.stage j ∧
        ((s.setFile (u i).tmpPath content).goto i stage).files (u j).tmpPath =
          s.files (u j).tmpPath :=
    fun content stage j hj => ⟨Function.update_of_ne hj .., Function.update_of_ne (hsep.tmpPath_ne hj) ..⟩
  have hperforms := step_performs hstep
  generalize s.stage i = stage at hperforms
  cases hperforms with
  | suffix => exact ⟨hgoto _, Or.inl rfl⟩
  | suffixFailed err => exact ⟨hgoto _, Or.inl rfl⟩
  | create => exact ⟨hset _ _, Or.inl rfl⟩
  | createFailed effect err =>
    cases effect with
    | true => exact ⟨hset _ _, Or.inl rfl⟩
    | false => exact ⟨hgoto _, Or.inl rfl⟩
  | store stored stored' hle => exact ⟨hset _ _, Or.inl rfl⟩
  | written stored => exact ⟨hgoto _, Or.inl rfl⟩
  | writeFailed stored n err => exact ⟨hgoto _, Or.inl rfl⟩
  | close n writeErr closeErr => exact ⟨hgoto _, Or.inl rfl⟩
  | posixRename o s' hrename => exact tryRename_frame hsep hrename
  | rename posixErr o failure s' hrename => exact tryRename_frame hsep hrename
  | remove err effect =>
    cases effect with
    | true => exact ⟨hset _ _, Or.inl rfl⟩
    | false => exact ⟨hgoto _, Or.inl rfl⟩

theorem step_not_done {a : Action} (hstep : (machine u).step s (i, a) = some s')
    (result : Except String Unit) : s.stage i ≠ .done result := by
  intro hdone
  have hperforms := step_performs hstep
  rw [hdone] at hperforms
  cases hperforms

theorem step_inv (hsep : Separate u) (s : Uploads ι) (a : ι × Action) (s' : Uploads ι)
    (h : Inv u files s) (hstep : (machine u).step s a = some s') : Inv u files s' := by
  obtain ⟨i, action⟩ := a
  have hhere := h.stages i
  have hothers := h.others i
  have hperforms := step_performs hstep
  generalize s.stage i = stage at hhere hperforms
  cases hperforms with
  | suffix => exact hothers.goto hhere
  | suffixFailed err => exact hothers.goto trivial
  | create => exact (hothers.setFile hsep _).goto ⟨hhere, Nat.zero_le _, Function.update_self ..⟩
  | createFailed effect err =>
    cases effect with
    | true => exact (hothers.setFile hsep _).goto trivial
    | false => exact hothers.goto trivial
  | store stored stored' hle =>
    exact (hothers.setFile hsep _).goto ⟨hhere.1, hle, Function.update_self ..⟩
  | written stored => exact hothers.goto hhere
  | writeFailed stored n err => exact hothers.goto hhere.1
  | close n writeErr closeErr => exact hothers.goto (holds_afterClose hhere)
  | posixRename o s' hrename =>
    refine h.tryRename hsep hhere ?_ hrename
    intro t err hcomplete
    exact hcomplete
  | rename posixErr o failure s' hrename =>
    refine h.tryRename hsep hhere ?_ hrename
    intro t err _
    trivial
  | remove err effect =>
    cases effect with
    | true => exact (hothers.setFile hsep _).goto trivial
    | false => exact hothers.goto trivial

/-- Every run keeps every call at its stage and refines the atomic store. -/
theorem run_inv (hsep : Separate u) (labels : List (ι × Action)) (s : Uploads ι)
    (hrun : (machine u).run (start files) labels = some s) : Inv u files s :=
  (machine u).run_invariant (step_inv hsep) labels _ s (start_inv u files) hrun

/-- At every moment of every interleaving, outside of the temp paths the server is
the atomic store after one put of the whole payload for each of some of the calls,
among them all that have succeeded. -/
theorem put_linearizes (hsep : Separate u) (labels : List (ι × Action)) (s : Uploads ι)
    (hrun : (machine u).run (start files) labels = some s) :
    s.renamed.Nodup ∧
      (∀ path, (∀ i, path ≠ (u i).tmpPath) → s.files path = puts files (commits u s.renamed) path) ∧
      ∀ i, s.stage i = .done (.ok ()) → i ∈ s.renamed := by
  have h := run_inv hsep labels s hrun
  refine ⟨h.nodup, h.files_eq, ?_⟩
  intro i hi
  have hhere := h.stages i
  rw [hi] at hhere
  exact hhere

/-- At every moment of every interleaving, with every pattern of failures, a target
has its initial content or the complete payload of one call for that path whose
rename took effect, and a path that is neither a target nor a temp path has its
initial content. -/
theorem putFile_atomic (hsep : Separate u) (labels : List (ι × Action)) (s : Uploads ι)
    (hrun : (machine u).run (start files) labels = some s) :
    (∀ i, s.files (u i).remotePath = files (u i).remotePath ∨
      ∃ j ∈ s.renamed, (u j).remotePath = (u i).remotePath ∧
        s.files (u i).remotePath = some (u j).data) ∧
    ∀ path, (∀ i, path ≠ (u i).remotePath ∧ path ≠ (u i).tmpPath) → s.files path = files path := by
  obtain ⟨_, hfiles, _⟩ := put_linearizes hsep labels s hrun
  constructor
  · intro i
    rw [hfiles _ fun j => hsep.target_ne_tmpPath i j]
    rcases puts_eq_or files (commits u s.renamed) (u i).remotePath with hinit | ⟨v, hmem, hv⟩
    · exact Or.inl hinit
    · obtain ⟨j, hj, heq⟩ := List.mem_map.mp hmem
      obtain ⟨hpath, hdata⟩ := Prod.mk.inj heq
      right
      refine ⟨j, hj, hpath, ?_⟩
      rw [hv, hdata]
  · intro path hpath
    rw [hfiles path fun j => (hpath j).2]
    apply puts_of_not_mem
    intro put hput heq
    obtain ⟨j, _, rfl⟩ := List.mem_map.mp hput
    exact (hpath j).1 heq.symm

/-- Two uploads of one report, under suffixes `00…` and `01…`. -/
def reports (b : Bool) : Upload where
  remotePath := "/elr/report.hl7"
  data := if b then [1, 1, 1] else [0]
  random := ⟨[if b then 1 else 0, 0, 0, 0, 0, 0, 0, 0], rfl⟩

theorem reports_separate : Separate reports where
  suffix_inj := by decide +kernel
  target_ne_tmpPath := by decide +kernel

/-- A rename that took effect and was reported as failed, beside a write that stops short. -/
theorem putFile_atomic_reports :
    ∃ s, (machine reports).run (start fun _ => none)
        [(false, .suffix none), (true, .suffix none), (false, .create .ok), (true, .create .ok),
          (false, .store 1), (true, .store 1), (false, .write 1 none), (true, .write 1 none),
          (false, .close none), (false, .posixRename (.failed true "EOF")),
          (true, .close none), (false, .rename (.failed false "no such file"))] = some s ∧
      (s.files "/elr/report.hl7" = none ∨
        ∃ j ∈ s.renamed, (reports j).remotePath = "/elr/report.hl7" ∧
          s.files "/elr/report.hl7" = some (reports j).data) := by
  obtain ⟨s, hrun⟩ := Option.isSome_iff_exists.mp (by decide +kernel :
    ((machine reports).run (start fun _ => none)
      [(false, .suffix none), (true, .suffix none), (false, .create .ok), (true, .create .ok),
        (false, .store 1), (true, .store 1), (false, .write 1 none), (true, .write 1 none),
        (false, .close none), (false, .posixRename (.failed true "EOF")),
        (true, .close none), (false, .rename (.failed false "no such file"))]).isSome = true)
  exact ⟨s, hrun, (putFile_atomic reports_separate _ s hrun).1 false⟩

end Uploads
end SshClientWasm.Sftp
