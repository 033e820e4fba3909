import SshClientWasm.Sftp.PutFile

/-!
# What an upload returns

A single `PutFile` on a server whose failing operations have no effect. Only `Write`
may have stored any part of the payload, and a failing `Remove` leaves the temp file.
-/
namespace SshClientWasm.Sftp

open Library

/-- An operation that fails without effect, if it fails. A failing `Remove` has none. -/
def Action.Atomic : Action → Prop
  | .create (.failed effect _) | .posixRename (.failed effect _) | .rename (.failed effect _) =>
    effect = false
  | _ => True

theorem Upload.tmpPath_ne_remotePath (u : Upload) : u.tmpPath ≠ u.remotePath := by
  intro h
  have hlen := congrArg String.length h
  rw [Upload.tmpPath, String.length_append, String.length_append] at hlen
  have htmp : ".tmp-".length = 5 := rfl
  omega

namespace Uploads

/-- The files at a stage of a call that found `files`. Where no `Remove` has failed,
the call is tidy. -/
def Leaves (tidy : Prop) (u : Upload) (files now : Files) : Stage → Prop
  | .suffix | .create => now = files
  | .write n | .close n none =>
    n ≤ u.data.length ∧ now = Function.update files u.tmpPath (some (u.data.take n))
  | .close _ (some _) | .remove _ =>
    ∃ content, now = Function.update files u.tmpPath (some content)
  | .posixRename | .rename _ => now = Function.update files u.tmpPath (some u.data)
  | .done (.ok _) => now = Function.update files u.remotePath (some u.data)
  | .done (.error _) =>
    now = files ∨ ¬tidy ∧ ∃ content, now = Function.update files u.tmpPath (some content)

variable {ι : Type*} {u : ι → Upload} {s s' : Uploads ι} {i : ι} {files : Files} {tidy : Prop}

theorem moved_leaves (hfresh : files (u i).tmpPath = none)
    (hfiles : s.files = Function.update files (u i).tmpPath (some (u i).data))
    (hmoved : s.moved u i = some s') :
    s'.files = Function.update files (u i).remotePath (some (u i).data) := by
  have hne := (u i).tmpPath_ne_remotePath
  obtain ⟨content, hcontent, hfiles', _⟩ := moved_eq_some hmoved
  have hdata : content = (u i).data := by
    rw [hfiles, Function.update_self] at hcontent
    exact (Option.some.inj hcontent).symm
  rw [hfiles', hfiles, hdata, Function.update_comm hne.symm, Function.update_idem,
    ← hfresh, Function.update_eq_self]

theorem leaves_afterClose {n : ℕ} {writeErr closeErr : Option String} {now : Files}
    (h : Leaves tidy (u i) files now (.close n writeErr)) :
    Leaves tidy (u i) files now (afterClose (u i) n writeErr closeErr) := by
  unfold afterClose
  cases writeErr with
  | some err => exact h
  | none =>
    obtain ⟨_, hnow⟩ := h
    by_cases hn : n = (u i).data.length
    · rw [if_neg (not_not.mpr hn)]
      cases closeErr with
      | some err => exact ⟨_, hnow⟩
      | none =>
        rw [hn, List.take_length] at hnow
        exact hnow
    · rw [if_pos hn]
      exact ⟨_, hnow⟩

variable [DecidableEq ι]

@[simp] theorem goto_files (stage : Stage) : (s.goto i stage).files = s.files := rfl

@[simp] theorem goto_stage (stage : Stage) : (s.goto i stage).stage i = stage :=
  Function.update_self ..

theorem tryRename_leaves {o : Outcome} {failure : String → Stage}
    (hfresh : files (u i).tmpPath = none)
    (hfiles : s.files = Function.update files (u i).tmpPath (some (u i).data))
    (hatomic : ∀ effect err, o = .failed effect err → effect = false)
    (hfailure : ∀ err, Leaves tidy (u i) files s.files (failure err))
    (hstep : s.tryRename u i o failure = some s') :
    Leaves tidy (u i) files s'.files (s'.stage i) := by
  cases o with
  | ok =>
    obtain ⟨t, ht, rfl⟩ := Option.map_eq_some_iff.mp hstep
    have hleaves := moved_leaves hfresh hfiles ht
    rw [goto_stage]
    exact hleaves
  | failed effect err =>
    obtain rfl := hatomic effect err rfl
    cases hstep
    rw [goto_stage]
    exact hfailure err

/-- An operation of the call leaves what its next stage says. -/
theorem step_leaves (hfresh : files (u i).tmpPath = none) {action : Action}
    (hatomic : action.Atomic) (htidy : tidy → action ≠ .remove false)
    (h : Leaves tidy (u i) files s.files (s.stage i))
    (hstep : (machine u).step s (i, action) = some s') :
    Leaves tidy (u i) files s'.files (s'.stage i) := by
  have hperforms := step_performs hstep
  generalize s.stage i = stage at h hperforms
  cases hperforms with
  | suffix =>
    rw [goto_stage]
    exact h
  | suffixFailed err =>
    rw [goto_stage]
    exact Or.inl h
  | create =>
    rw [goto_stage]
    refine ⟨Nat.zero_le _, ?_⟩
    rw [List.take_zero, ← show s.files = files from h]
    rfl
  | createFailed effect err =>
    obtain rfl : effect = false := hatomic
    rw [goto_stage]
    exact Or.inl h
  | store stored stored' hle =>
    rw [goto_stage]
    refine ⟨hle, ?_⟩
    rw [goto_files, setFile, h.2, Function.update_idem]
  | written stored =>
    rw [goto_stage]
    exact h
  | writeFailed stored n err =>
    rw [goto_stage]
    exact ⟨_, h.2⟩
  | close n writeErr closeErr =>
    rw [goto_stage]
    exact leaves_afterClose h
  | posixRename o s' hrename =>
    refine tryRename_leaves hfresh h ?_ ?_ hrename
    · rintro effect err rfl
      exact hatomic
    · exact fun _ => h
  | rename posixErr o failure s' hrename =>
    refine tryRename_leaves hfresh h ?_ ?_ hrename
    · rintro effect err rfl
      exact hatomic
    · exact fun _ => ⟨_, h⟩
  | remove err effect =>
    obtain ⟨content, hcontent⟩ := h
    rw [goto_stage]
    cases effect with
    | true =>
      left
      rw [goto_files, if_pos rfl, setFile, hcontent, Function.update_idem, ← hfresh,
        Function.update_eq_self]
    | false => exact Or.inr ⟨fun h => htidy h rfl, content, hcontent⟩

/-- The result of a `PutFile` tells the truth: on success the target holds exactly the
payload and there is no temp file; on failure the target is as before, and the temp
file is gone unless its removal has failed; all else is unchanged in both cases. -/
theorem putFile_truthful (u : ι → Upload) (i : ι) (files : Files)
    (hfresh : files (u i).tmpPath = none) (actions : List Action)
    (hatomic : ∀ a ∈ actions, a.Atomic) (s : Uploads ι)
    (hrun : (machine u).run (start files) (actions.map (i, ·)) = some s) :
    (s.stage i = .done (.ok ()) →
      s.files (u i).remotePath = some (u i).data ∧ s.files (u i).tmpPath = none) ∧
    (∀ err, s.stage i = .done (.error err) →
      s.files (u i).remotePath = files (u i).remotePath ∧
        (.remove false ∉ actions → s.files (u i).tmpPath = none)) ∧
    ((∃ result, s.stage i = .done result) →
      ∀ path, path ≠ (u i).remotePath → path ≠ (u i).tmpPath → s.files path = files path) := by
  have hne := (u i).tmpPath_ne_remotePath
  have hadmits : (machine u).Admits
      (fun _ a => a.1 = i ∧ a.2.Atomic ∧ (.remove false ∉ actions → a.2 ≠ .remove false))
      (start files) (actions.map (i, ·)) := by
    apply (machine u).admits_of_forall
    intro a ha _
    obtain ⟨action, hmem, rfl⟩ := List.mem_map.mp ha
    refine ⟨rfl, hatomic action hmem, ?_⟩
    rintro hnot rfl
    exact hnot hmem
  have hleaves : Leaves (.remove false ∉ actions) (u i) files s.files (s.stage i) := by
    have hstep : ∀ (s : Uploads ι) (a : ι × Action) (t : Uploads ι),
        Leaves (.remove false ∉ actions) (u i) files s.files (s.stage i) →
        (a.1 = i ∧ a.2.Atomic ∧ (.remove false ∉ actions → a.2 ≠ .remove false)) →
        (machine u).step s a = some t →
        Leaves (.remove false ∉ actions) (u i) files t.files (t.stage i) := by
      rintro s ⟨j, action⟩ t h ⟨rfl, haction, htidy⟩ hstep
      exact step_leaves hfresh haction htidy h hstep
    have halways := (machine u).always_of_admits (fun _ h => h) hstep _ (start files) rfl hadmits
    exact (machine u).always_run _ _ s halways hrun
  refine ⟨?_, ?_, ?_⟩
  · intro hdone
    rw [hdone] at hleaves
    rw [show s.files = _ from hleaves, Function.update_self, Function.update_of_ne hne]
    exact ⟨rfl, hfresh⟩
  · intro err hdone
    rw [hdone] at hleaves
    rcases hleaves with hsame | ⟨huntidy, content, hcontent⟩
    · rw [hsame]
      exact ⟨rfl, fun _ => hfresh⟩
    · rw [hcontent, Function.update_of_ne hne.symm]
      exact ⟨rfl, fun htidy => absurd htidy huntidy⟩
  · rintro ⟨result, hdone⟩ path htarget htmp
    rw [hdone] at hleaves
    cases result with
    | ok =>
      rw [show s.files = _ from hleaves]
      exact Function.update_of_ne htarget ..
    | error err =>
      rcases hleaves with hsame | ⟨_, content, hcontent⟩
      · rw [hsame]
      · rw [hcontent]
        exact Function.update_of_ne htmp ..

/-- A short write without an error, after which the removal fails as well. -/
theorem putFile_truthful_shortWrite :
    ∃ s, (machine fun _ : Unit => reports true).run (start fun _ => none)
        ([.suffix none, .create .ok, .store 1, .write 1 none, .close none, .remove false].map
          ((), ·)) = some s ∧
      ∃ err, s.stage () = .done (.error err) ∧ s.files "/elr/report.hl7" = none := by
  have hatomic : ∀ a ∈ ([.suffix none, .create .ok, .store 1, .write 1 none, .close none,
      .remove false] : List Action), a.Atomic := by simp [Action.Atomic]
  refine ⟨_, rfl, _, rfl, ?_⟩
  exact ((putFile_truthful (fun _ : Unit => reports true) () (fun _ => none) rfl _
    hatomic _ rfl).2.1 _ rfl).1

end Uploads
end SshClientWasm.Sftp
