import SshClientWasm.Sftp.Uploading

/-!
# Where uploads land

A `put` that resolves is one atomic write of the bytes that were passed to it, at a moment
between its call and its end, whatever else is going on.
-/
namespace SshClientWasm.Sftp.Uploading

open Library Ssh Ssh.Errors Ssh.Operations Handle

variable {κ ι : Type*} [DecidableEq κ] [DecidableEq ι] {js : Platform} {limit : ℕ}
  {p : ι → Put κ} {files : Files} {s s' t : Uploading κ ι} {x y : ι} {k : κ}

/-- In every interleaving of the page, the goroutines and the server, with every pattern of
failures: outside of the temp paths the server has the initial files after one whole put of
the bytes that were passed to some of the `put`s. All that have resolved are among these, and
no `put` that did not call `sftpPut`; that leaves its temp path alone as well. -/
theorem put_lands (js : Platform) (limit : ℕ) (hlimit : Payload.chunkSize ≤ limit) (p : ι → Put κ)
    (hsep : Uploads.Separate fun x => (p x).upload limit) (sftpSessionId : κ → String)
    (files : Files) (labels : List (UploadEvent κ ι)) (s : Uploading κ ι)
    (hrun : (machine js limit p).run (start sftpSessionId files) labels = some s) :
    (∀ path, (∀ x, path ≠ ((p x).upload limit).tmpPath) →
      s.server.files path =
        puts files (s.server.renamed.map fun x => ((p x).remotePath, (p x).data)) path) ∧
    s.server.renamed.Nodup ∧
    (∀ x ∈ s.server.renamed, ∃ c, s.call p x = some c ∧ .wasm "sftpPut" ∈ c.calls) ∧
    ∀ x c, s.call p x = some c →
      (c.result = some (.ok ()) → x ∈ s.server.renamed) ∧
      (.wasm "sftpPut" ∉ c.calls →
        s.server.files ((p x).upload limit).tmpPath = files ((p x).upload limit).tmpPath) := by
  have hsound := sound_run hsep hrun
  have hcommits : Uploads.commits (fun x => (p x).upload limit) s.server.renamed =
      s.server.renamed.map fun x => ((p x).remotePath, (p x).data) :=
    List.map_congr_left fun x _ => Prod.ext rfl ((p x).upload_data hlimit)
  refine ⟨fun path hpath => ?_, hsound.server.nodup, fun x => hsound.called_of_renamed, ?_⟩
  · rw [← hcommits]
    exact hsound.server.files_eq path hpath
  · intro x c hc
    have hconsistent := hsound.consistent x
    refine ⟨fun hok => ?_, fun hnot => ?_⟩
    · have hhere := hsound.server.stages x
      rw [(hconsistent.resolved c hc hok).2] at hhere
      exact hhere
    · refine (hconsistent.idle fun hg => hnot ?_).2
      obtain ⟨d, hd, hcalled⟩ := hconsistent.begun (hg ▸ Goroutine.noConfusion)
      rw [hc] at hd
      exact Option.mem_some_iff.mp hd ▸ hcalled

/-- Two uploads of one report on one handle. -/
def report (b : Bool) : Put Unit where
  handle := ()
  remotePath := "/elr/report.hl7"
  bytes := .uint8Array (if b then [1, 1, 1] else [0])
  random := ⟨[0, 0, 0, 0, 0, 0, 0, if b then 1 else 0], rfl⟩

theorem report_separate : Uploads.Separate fun b => (report b).upload 32768 where
  suffix_inj := by decide +kernel
  target_ne_tmpPath := by decide +kernel

/-- `sftpPut` up to the first rename. -/
def written (b : Bool) (n : ℕ) : List (UploadEvent Unit Bool) :=
  [.begins b "", .serves b (.suffix none), .serves b (.create .ok), .serves b (.store n),
    .serves b (.write n none), .serves b (.close none)]

/-- Both are on their way while the handle is closed and its session deleted. -/
theorem put_lands_overlapping :
    ∃ s, (machine plainPlatform 32768 report).run (start (fun _ => "sftp-1") fun _ => none)
        ([.put false none, .put true none, .close () none] ++ written false 1 ++ written true 3 ++
          [.deletes () 2, .serves true (.posixRename .ok), .serves false (.posixRename .ok),
            .settlePut true]) = some s ∧
      s.server.renamed = [true, false] ∧ s.server.files "/elr/report.hl7" = some [0] := by
  obtain ⟨s, hrun, hrenamed⟩ := Option.map_eq_some_iff.mp (by decide +kernel :
    ((machine plainPlatform 32768 report).run (start (fun _ => "sftp-1") fun _ => none)
      ([.put false none, .put true none, .close () none] ++ written false 1 ++ written true 3 ++
        [.deletes () 2, .serves true (.posixRename .ok), .serves false (.posixRename .ok),
          .settlePut true])).map (fun s => s.server.renamed) = some [true, false])
  have hlands := put_lands plainPlatform 32768 le_rfl report report_separate (fun _ => "sftp-1")
    (fun _ => none) _ s hrun
  refine ⟨s, hrun, hrenamed, ?_⟩
  rw [hlands.1 "/elr/report.hl7" (by decide +kernel), hrenamed]
  rfl

/-- The call of a `put` has settled. -/
def Settled (p : ι → Put κ) (s : Uploading κ ι) (x : ι) : Prop :=
  ∃ d, s.call p x = some d ∧ d.result ≠ none

omit [DecidableEq ι] in
theorem Settled.onHandle {a : Label} {h : Calls} (hx : s.Settled p x)
    (hstep : (Handle.machine js).step (s.handles k) a = some h) :
    Settled p { s with handles := Function.update s.handles k h } x := by
  obtain ⟨d, hd, hsettled⟩ := hx
  obtain ⟨i, hi, hget⟩ := Option.bind_eq_some_iff.mp hd
  refine ⟨d, Option.bind_eq_some_iff.mpr ⟨i, hi, ?_⟩, hsettled⟩
  by_cases hk : (p x).handle = k
  · subst hk
    simpa only [Function.update_self] using Handle.step_settled hstep hget hsettled
  · simpa only [Function.update_of_ne hk] using hget

/-- A step unsettles nothing, and only a `put` that has not settled is renamed. -/
theorem Sound.step_grows {a : UploadEvent κ ι} (hsound : s.Sound limit p files)
    (hsep : Uploads.Separate fun x => (p x).upload limit)
    (hstep : (machine js limit p).step s a = some t) :
    (∀ x, s.Settled p x → t.Settled p x) ∧
      (t.server.renamed = s.server.renamed ∨
        ∃ x, t.server.renamed = s.server.renamed ++ [x] ∧ ¬ s.Settled p x) := by
  have hsame : ∀ k a t, s.onHandle js k a = some t →
      (∀ x, s.Settled p x → t.Settled p x) ∧
        (t.server.renamed = s.server.renamed ∨
          ∃ x, t.server.renamed = s.server.renamed ++ [x] ∧ ¬ s.Settled p x) := by
    intro k a t honHandle
    obtain ⟨h, hhandle, rfl⟩ := Option.map_eq_some_iff.mp honHandle
    exact ⟨fun x hx => hx.onHandle hhandle, Or.inl rfl⟩
  cases a with
  | put x thrown =>
    obtain ⟨hnone, hstep⟩ := Option.ite_none_right_eq_some.mp hstep
    obtain ⟨t, hcalled, rfl⟩ := Option.map_eq_some_iff.mp hstep
    obtain ⟨hsettled, hrenamed⟩ := hsame _ _ t hcalled
    refine ⟨fun y hy => ?_, hrenamed⟩
    have hyx : y ≠ x := by
      rintro rfl
      obtain ⟨d, hd, -⟩ := hy
      rw [call, hnone, Option.bind_none] at hd
      cases hd
    obtain ⟨d, hd, hdone⟩ := hsettled y hy
    refine ⟨d, ?_, hdone⟩
    simpa only [call, Function.update_of_ne hyx] using hd
  | mkdir k thrown => exact hsame k (.call .mkdir thrown) t hstep
  | close k thrown => exact hsame k (.call .close thrown) t hstep
  | begins x corrupt =>
    obtain ⟨-, heq⟩ := Option.ite_none_right_eq_some.mp hstep
    cases heq
    exact ⟨fun y hy => hy, Or.inl rfl⟩
  | serves x a =>
    obtain ⟨hg, hstep⟩ := Option.ite_none_right_eq_some.mp hstep
    obtain ⟨server, hserver, rfl⟩ := Option.map_eq_some_iff.mp hstep
    refine ⟨fun y hy => hy, (Uploads.step_frame hsep hserver).2.imp id fun hrenamed => ?_⟩
    refine ⟨x, hrenamed, ?_⟩
    rintro ⟨d, hd, hsettled⟩
    obtain ⟨result, hdone⟩ := (hsound.consistent x).settled d hd hsettled hg
    exact Uploads.step_not_done hserver result hdone
  | deletes k i =>
    obtain ⟨-, heq⟩ := Option.ite_none_right_eq_some.mp hstep
    cases heq
    exact ⟨fun y hy => hy, Or.inl rfl⟩
  | settlePut x =>
    obtain ⟨i, -, hstep⟩ := Option.bind_eq_some_iff.mp hstep
    obtain ⟨result, -, hstep⟩ := Option.bind_eq_some_iff.mp hstep
    exact hsame _ _ t hstep
  | settleMkdir k i result =>
    obtain ⟨-, hstep⟩ := Option.ite_none_right_eq_some.mp hstep
    exact hsame _ _ t hstep
  | settleClose k i result =>
    obtain ⟨-, hstep⟩ := Option.ite_none_right_eq_some.mp hstep
    exact hsame _ _ t hstep

/-- Behind `s`, nothing is renamed that had settled in it. -/
structure Behind (p : ι → Put κ) (s t : Uploading κ ι) : Prop where
  settled : ∀ x, s.Settled p x → t.Settled p x
  renamed : ∃ rest, t.server.renamed = s.server.renamed ++ rest ∧ ∀ x ∈ rest, ¬ s.Settled p x

theorem Behind.run (hsound : s.Sound limit p files)
    (hsep : Uploads.Separate fun x => (p x).upload limit) {labels : List (UploadEvent κ ι)}
    (hrun : (machine js limit p).run s labels = some t) : t.Sound limit p files ∧ Behind p s t := by
  refine (machine js limit p).run_invariant
    (I := fun t => t.Sound limit p files ∧ Behind p s t) ?_ labels s t
    ⟨hsound, fun x hx => hx, [], (List.append_nil _).symm, fun x hx => absurd hx List.not_mem_nil⟩ hrun
  rintro r a r' ⟨hr, hsettled, rest, hrest, hunsettled⟩ hstep
  obtain ⟨hgrows, hrenamed⟩ := hr.step_grows hsep hstep
  refine ⟨hr.step hsep hstep, fun x hx => hgrows x (hsettled x hx), ?_⟩
  rcases hrenamed with hsame | ⟨y, hnew, hy⟩
  · exact ⟨rest, hsame.trans hrest, hunsettled⟩
  · refine ⟨rest ++ [y], by rw [hnew, hrest, List.append_assoc], fun x hx => ?_⟩
    rcases List.mem_append.mp hx with hx | hx
    · exact hunsettled x hx
    · rw [List.mem_singleton.mp hx]
      exact fun hs => hy (hsettled y hs)

/-- A `put` that has resolved is what a reader finds, if every other `put` for its path had
settled before it was called, whatever became of that, or has not been called. -/
theorem put_last (js : Platform) (limit : ℕ) (hlimit : Payload.chunkSize ≤ limit) (p : ι → Put κ)
    (hsep : Uploads.Separate fun x => (p x).upload limit) (sftpSessionId : κ → String)
    (files : Files) (front back : List (UploadEvent κ ι)) (s t : Uploading κ ι)
    (hfront : (machine js limit p).run (start sftpSessionId files) front = some s)
    (hback : (machine js limit p).run s back = some t) (x : ι) (hnew : s.place x = none) (c : Handle.Call)
    (hc : t.call p x = some c) (hok : c.result = some (.ok ()))
    (hothers : ∀ y, y ≠ x → (p y).remotePath = (p x).remotePath →
      s.Settled p y ∨ t.place y = none) :
    t.server.files (p x).remotePath = some (p x).data := by
  have hs := sound_run hsep hfront
  obtain ⟨ht, -, rest, hrest, hunsettled⟩ := Behind.run hs hsep hback
  have hrenamed : x ∈ t.server.renamed := by
    have hhere := ht.server.stages x
    rw [((ht.consistent x).resolved c hc hok).2] at hhere
    exact hhere
  have hmem : x ∈ rest := by
    rw [hrest] at hrenamed
    refine (List.mem_append.mp hrenamed).resolve_left fun hold => ?_
    obtain ⟨d, hd, -⟩ := hs.called_of_renamed hold
    rw [call, hnew, Option.bind_none] at hd
    cases hd
  obtain ⟨before, after, rfl⟩ := List.append_of_mem hmem
  have hafter : ∀ y ∈ after, (p y).remotePath ≠ (p x).remotePath := by
    intro y hy hpath
    have hyx : y ≠ x := by
      rintro rfl
      have hnodup := ht.server.nodup
      rw [hrest, List.nodup_append] at hnodup
      have hcons := (List.nodup_append.mp hnodup.2.1).2.1
      exact (List.nodup_cons.mp hcons).1 hy
    have hyrest : y ∈ before ++ x :: after :=
      List.mem_append_right _ (List.mem_cons_of_mem _ hy)
    rcases hothers y hyx hpath with hsettled | hnone
    · exact hunsettled y hyrest hsettled
    · obtain ⟨d, hd, -⟩ := ht.called_of_renamed (hrest ▸ List.mem_append_right _ hyrest)
      rw [call, hnone, Option.bind_none] at hd
      cases hd
  have hfile := ht.server.files_eq (p x).remotePath fun y => hsep.target_ne_tmpPath x y
  rw [hrest, Uploads.commits, List.map_append, List.map_append, List.map_cons,
    ← List.append_assoc] at hfile
  rw [hfile, ← (p x).upload_data hlimit]
  apply puts_last
  intro put hput
  obtain ⟨y, hy, rfl⟩ := List.mem_map.mp hput
  exact hafter y hy

/-- An upload that fails, with a rename that took effect all the same. -/
def failing : List (UploadEvent Unit Bool) :=
  [.put false none] ++ written false 1 ++ [.serves false (.posixRename (.failed true "EOF")),
    .serves false (.rename (.failed false "no such file")), .serves false (.remove false),
    .settlePut false]

/-- Another one behind it is what is found in the end. -/
theorem put_last_failing :
    ∃ s t, (machine plainPlatform 32768 report).run (start (fun _ => "sftp-1") fun _ => none)
        failing = some s ∧
      (machine plainPlatform 32768 report).run s ([.put true none] ++ written true 3 ++
        [.serves true (.posixRename .ok), .settlePut true]) = some t ∧
      t.server.files "/elr/report.hl7" = some [1, 1, 1] := by
  have hvalues : ((machine plainPlatform 32768 report).run
      (start (fun _ => "sftp-1") fun _ => none) failing).bind (fun s =>
        ((machine plainPlatform 32768 report).run s ([.put true none] ++ written true 3 ++
          [.serves true (.posixRename .ok), .settlePut true])).map fun t =>
            ((s.place true, (s.call report false).map fun d => d.result.isSome),
              ((t.call report true).bind Handle.Call.result).map Except.isOk)) =
      some ((none, some true), some true) := by
    decide +kernel
  obtain ⟨s, hfront, hvalues⟩ := Option.bind_eq_some_iff.mp hvalues
  obtain ⟨t, hback, hvalues⟩ := Option.map_eq_some_iff.mp hvalues
  obtain ⟨hs, ht⟩ := Prod.mk.inj hvalues
  obtain ⟨hnew, hsettled⟩ := Prod.mk.inj hs
  obtain ⟨d, hd, hdone⟩ := Option.map_eq_some_iff.mp hsettled
  obtain ⟨result, hresult, hok⟩ := Option.map_eq_some_iff.mp ht
  obtain ⟨c, hc, hresult⟩ := Option.bind_eq_some_iff.mp hresult
  cases result with
  | error e => cases hok
  | ok =>
    refine ⟨s, t, hfront, hback, put_last plainPlatform 32768 le_rfl report report_separate
      (fun _ => "sftp-1") (fun _ => none) failing _ s t hfront hback true hnew c hc hresult ?_⟩
    intro y hy _
    obtain rfl : y = false := by simpa using hy
    exact Or.inl ⟨d, hd, Option.ne_none_iff_isSome.mpr hdone⟩

end SshClientWasm.Sftp.Uploading
