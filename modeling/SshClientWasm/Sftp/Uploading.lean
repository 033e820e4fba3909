import SshClientWasm.Sftp.Handle
import SshClientWasm.Sftp.Payload
import SshClientWasm.Sftp.PutFile

/-!
# Uploads from the page to the server

Any number of handles of one page on one server. A `put` makes a text of its bytes and waits
for `sftpPut`; that decodes the text in a goroutine, looks its session up, and runs `PutFile`,
whose operations go to the server one by one. Meanwhile other calls of the page run, and a
`sftpClose` may take the session away.
-/
namespace SshClientWasm.Sftp

open Library Ssh Ssh.Errors Ssh.Operations Handle

/-- A call of `put`: its handle, its arguments, and the random bytes that its `PutFile` draws. -/
structure Put (κ : Type*) where
  handle : κ
  remotePath : String
  bytes : BytesArgument
  random : { b : Bytes // b.length = 8 }

namespace Put

variable {κ : Type*} (limit : ℕ) (p : Put κ)

/-- The elements that `toBase64` finds. -/
def data : Bytes :=
  match p.bytes with
  | .uint8Array bytes => bytes
  | .noElements | .unreadable => []

/-- The text that is passed to `sftpPut`. -/
def base64Data : String := (Payload.toBase64 limit p.data).getD ""

/-- What `PutFile` is called with. -/
def upload : Upload where
  remotePath := p.remotePath
  data := (Payload.decodeString (p.base64Data limit)).getD []
  random := p.random

variable {limit}

theorem decodeString_base64Data (hlimit : Payload.chunkSize ≤ limit) :
    Payload.decodeString (p.base64Data limit) = some p.data := by
  rw [base64Data, Payload.toBase64_eq ((min_le_right ..).trans hlimit), Payload.btoa_binaryString,
    Option.getD_some, Payload.decodeString, String.toList_ofList, Base64.decode_encode]

theorem upload_data (hlimit : Payload.chunkSize ≤ limit) : (p.upload limit).data = p.data := by
  rw [upload, p.decodeString_base64Data hlimit, Option.getD_some]

end Put

/-- `sftpPut` before `PutFile`. The decoder has an error text of its own. -/
def sftpPut (registered : String → Bool) (sftpSessionID b64 corrupt : String) :
    Except GoError Bytes :=
  match Payload.decodeString b64 with
  | none =>
    .error (.connectError (newConnectError .internal ("invalid base64 payload: " ++ corrupt)))
  | some data =>
    if registered sftpSessionID then .ok data
    else
      .error (.connectError (newConnectError .internal ("sftp session not found: " ++ sftpSessionID)))

/-- The goroutine of an `sftpPut`. -/
inductive Goroutine
  | waiting
  | failed (err : GoError)
  | putFile
  deriving DecidableEq, Repr

/-- What the goroutine settles its promise with, once it is through. -/
def Goroutine.result : Goroutine → Stage → Option (Except GoError Unit)
  | .failed err, _ => some (.error err)
  | .putFile, .done (.ok ()) => some (.ok ())
  | .putFile, .done (.error err) => some (.error (.connectError (newConnectError .internal err)))
  | _, _ => none

theorem Goroutine.done_of_result {stage : Stage} {result : Except GoError Unit}
    (h : Goroutine.putFile.result stage = some result) : ∃ result, stage = .done result := by
  cases stage with
  | done result => exact ⟨result, rfl⟩
  | _ => cases h

theorem Goroutine.result_eq_ok {g : Goroutine} {stage : Stage}
    (h : g.result stage = some (.ok ())) : g = .putFile ∧ stage = .done (.ok ()) := by
  unfold Goroutine.result at h
  split at h
  · cases h
  · exact ⟨rfl, rfl⟩
  · cases h
  · cases h

/-- The handles, which call of its handle each `put` is, the registry of sessions, the
goroutines, and the server. -/
structure Uploading (κ ι : Type*) where
  handles : κ → Calls
  place : ι → Option ℕ
  registered : String → Bool
  goroutine : ι → Goroutine
  server : Uploads ι

/-- A method is called, a goroutine begins or takes the next step of its `PutFile`, an
`sftpClose` deletes its session, or the promise of a call is settled. -/
inductive UploadEvent (κ ι : Type*)
  | put (x : ι) (thrown : Option JsError)
  | mkdir (k : κ) (thrown : Option JsError)
  | close (k : κ) (thrown : Option JsError)
  | begins (x : ι) (corrupt : String)
  | serves (x : ι) (a : Action)
  | deletes (k : κ) (i : ℕ)
  | settlePut (x : ι)
  | settleMkdir (k : κ) (i : ℕ) (result : Except GoError Unit)
  | settleClose (k : κ) (i : ℕ) (result : Except GoError Unit)

namespace Uploading

variable {κ ι : Type*}

/-- Every handle is open, and nothing has been called. -/
def start (sftpSessionId : κ → String) (files : Files) : Uploading κ ι where
  handles := fun k => opened (sftpSessionId k)
  place := fun _ => none
  registered := fun _ => true
  goroutine := fun _ => .waiting
  server := .start files

/-- The call that a `put` has become. -/
def call (p : ι → Put κ) (s : Uploading κ ι) (x : ι) : Option Handle.Call :=
  (s.place x).bind fun i => (s.handles (p x).handle).calls[i]?

/-- Call `i` of a handle is one of the method, and waits for its export. -/
def Waits (s : Uploading κ ι) (k : κ) (i : ℕ) (m : Method) : Prop :=
  ∃ c ∈ (s.handles k).calls[i]?, c.method = m ∧ c.result.isNone

instance (s : Uploading κ ι) (k : κ) (i : ℕ) (m : Method) : Decidable (s.Waits k i m) :=
  inferInstanceAs (Decidable (∃ c ∈ (s.handles k).calls[i]?, c.method = m ∧ c.result.isNone))

variable [DecidableEq κ] [DecidableEq ι]

/-- A step of one handle. -/
def onHandle (js : Platform) (s : Uploading κ ι) (k : κ) (a : Label) : Option (Uploading κ ι) :=
  ((Handle.machine js).step (s.handles k) a).map fun h =>
    { s with handles := Function.update s.handles k h }

def setGoroutine (s : Uploading κ ι) (x : ι) (g : Goroutine) : Uploading κ ι :=
  { s with goroutine := Function.update s.goroutine x g }

def machine (js : Platform) (limit : ℕ) (p : ι → Put κ) :
    Machine (Uploading κ ι) (UploadEvent κ ι) where
  step s
    | .put x thrown =>
      if s.place x = none then
        (s.onHandle js (p x).handle (.call (.put (p x).bytes) thrown)).map fun t =>
          { t with place := Function.update t.place x (some (s.handles (p x).handle).calls.length) }
      else none
    | .mkdir k thrown => s.onHandle js k (.call .mkdir thrown)
    | .close k thrown => s.onHandle js k (.call .close thrown)
    | .begins x corrupt =>
      if s.goroutine x = .waiting ∧ ∃ c ∈ s.call p x, c.result.isNone then
        some (s.setGoroutine x
          (match sftpPut s.registered (s.handles (p x).handle).handle.sftpSessionId
              ((p x).base64Data limit) corrupt with
          | .ok _ => .putFile
          | .error err => .failed err))
      else none
    | .serves x a =>
      if s.goroutine x = .putFile then
        ((Uploads.machine fun y => (p y).upload limit).step s.server (x, a)).map fun server =>
          { s with server := server }
      else none
    | .deletes k i =>
      if s.Waits k i .close then
        some { s with
          registered := Function.update s.registered (s.handles k).handle.sftpSessionId false }
      else none
    | .settlePut x =>
      (s.place x).bind fun i => ((s.goroutine x).result (s.server.stage x)).bind fun result =>
        s.onHandle js (p x).handle (.settle i result)
    | .settleMkdir k i result =>
      if s.Waits k i .mkdir then s.onHandle js k (.settle i result) else none
    | .settleClose k i result =>
      if s.Waits k i .close ∧ s.registered (s.handles k).handle.sftpSessionId = false then
        s.onHandle js k (.settle i result)
      else none

end Uploading

namespace Uploading

variable {κ ι : Type*}

/-- What a call, its goroutine, the stage of its `PutFile` and its temp file say together. -/
structure Consistent (before : Option Bytes) (c : Option Handle.Call) (g : Goroutine) (stage : Stage)
    (now : Option Bytes) : Prop where
  begun : g ≠ .waiting → ∃ d ∈ c, .wasm "sftpPut" ∈ d.calls
  idle : g ≠ .putFile → stage = .suffix ∧ now = before
  settled : ∀ d ∈ c, d.result ≠ none → g = .putFile → ∃ result, stage = .done result
  resolved : ∀ d ∈ c, d.result = some (.ok ()) → g = .putFile ∧ stage = .done (.ok ())

variable [DecidableEq κ] [DecidableEq ι]

/-- The server and the handles are sound, each `put` is a call of its own, and each is
consistent. -/
structure Sound (limit : ℕ) (p : ι → Put κ) (files : Files) (s : Uploading κ ι) : Prop where
  server : Uploads.Inv (fun x => (p x).upload limit) files s.server
  handles : ∀ k, Handle.Sound (s.handles k)
  placed : ∀ x i, s.place x = some i →
    ∃ c, (s.handles (p x).handle).calls[i]? = some c ∧ c.method = .put (p x).bytes
  apart : ∀ x y i, s.place x = some i → s.place y = some i → (p x).handle = (p y).handle → x = y
  consistent : ∀ x, Consistent (files ((p x).upload limit).tmpPath) (s.call p x) (s.goroutine x)
    (s.server.stage x) (s.server.files ((p x).upload limit).tmpPath)

variable {js : Platform} {limit : ℕ} {p : ι → Put κ} {files : Files} {s s' t : Uploading κ ι}
  {x y : ι} {k : κ}

omit [DecidableEq κ] [DecidableEq ι] in
theorem start_sound (sftpSessionId : κ → String) :
    (start sftpSessionId files : Uploading κ ι).Sound limit p files where
  server := Uploads.start_inv _ files
  handles k := ⟨fun c hc => absurd hc List.not_mem_nil, fun h => absurd h Bool.false_ne_true,
    fun _ c hc => absurd hc List.not_mem_nil⟩
  placed x i hi := by cases hi
  apart x y i hi := by cases hi
  consistent x := {
    begun := fun h => absurd rfl h
    idle := fun _ => ⟨rfl, rfl⟩
    settled := fun d hd => absurd hd (Option.not_mem_none d)
    resolved := fun d hd => absurd hd (Option.not_mem_none d) }

omit [DecidableEq ι] in
theorem call_update {h : Calls}
    (hsame : ∀ i, s.place y = some i → (p y).handle = k → h.calls[i]? = (s.handles k).calls[i]?) :
    call p { s with handles := Function.update s.handles k h } y = s.call p y := by
  unfold call
  cases hi : s.place y with
  | none => rfl
  | some i =>
    by_cases hk : (p y).handle = k
    · subst hk
      simpa only [Option.bind_some, Function.update_self] using hsame i hi rfl
    · simp only [Option.bind_some, Function.update_of_ne hk]

omit [DecidableEq κ] [DecidableEq ι] in
theorem Sound.not_waits {i : ℕ} {m : Method} (hsound : s.Sound limit p files)
    (hy : s.place y = some i) (hk : (p y).handle = k) (hm : m ≠ .put (p y).bytes) :
    ¬ s.Waits k i m := by
  rintro ⟨c, hc, rfl, -⟩
  obtain ⟨d, hd, hput⟩ := hsound.placed y i hy
  rw [hk, Option.mem_def.mp hc] at hd
  exact hm (Option.some.inj hd ▸ hput)

omit [DecidableEq ι] in
theorem Sound.onHandle {a : Label} (hsound : s.Sound limit p files) {h : Calls}
    (hstep : (Handle.machine js).step (s.handles k) a = some h)
    (hplaces : ∀ y i, s.place y = some i → (p y).handle = k →
      ∃ c, h.calls[i]? = some c ∧ c.method = .put (p y).bytes)
    (hconsistent : ∀ y, Consistent (files ((p y).upload limit).tmpPath)
      (call p { s with handles := Function.update s.handles k h } y) (s.goroutine y)
      (s.server.stage y) (s.server.files ((p y).upload limit).tmpPath)) :
    Sound limit p files { s with handles := Function.update s.handles k h } where
  server := hsound.server
  handles j := by
    by_cases hj : j = k
    · rw [hj]
      simpa only [Function.update_self] using step_sound (hsound.handles k) hstep
    · simpa only [Function.update_of_ne hj] using hsound.handles j
  placed y i hi := by
    by_cases hk : (p y).handle = k
    · subst hk
      simpa only [Function.update_self] using hplaces y i hi rfl
    · simpa only [Function.update_of_ne hk] using hsound.placed y i hi
  apart := hsound.apart
  consistent := hconsistent

omit [DecidableEq ι] in
theorem Sound.called {m : Method} {thrown : Option JsError} (hsound : s.Sound limit p files)
    {h : Calls} (hstep : (Handle.machine js).step (s.handles k) (.call m thrown) = some h) :
    Sound limit p files { s with handles := Function.update s.handles k h } := by
  obtain ⟨d, hcalls, -, -⟩ := Handle.step_call hstep
  have hold : ∀ y i, s.place y = some i → (p y).handle = k →
      h.calls[i]? = (s.handles k).calls[i]? := by
    rintro y i hi rfl
    obtain ⟨c, hc, -⟩ := hsound.placed y i hi
    rw [hcalls, List.getElem?_append_left (List.getElem?_eq_some_iff.mp hc).1]
  apply hsound.onHandle hstep
  · rintro y i hi rfl
    rw [hold y i hi rfl]
    exact hsound.placed y i hi
  · intro y
    rw [call_update (hold y)]
    exact hsound.consistent y

omit [DecidableEq κ] in
theorem Sound.place (hsound : s.Sound limit p files) (hx : s.place x = none) {n : ℕ} {c : Handle.Call}
    (hc : (s.handles (p x).handle).calls[n]? = some c) (hm : c.method = .put (p x).bytes)
    (hresult : c.result ≠ some (.ok ()))
    (hnew : ∀ y, s.place y = some n → (p y).handle ≠ (p x).handle) :
    Sound limit p files { s with place := Function.update s.place x (some n) } where
  server := hsound.server
  handles := hsound.handles
  placed y i hi := by
    by_cases hy : y = x
    · subst hy
      simp only [Function.update_self, Option.some.injEq] at hi
      exact ⟨c, hi ▸ hc, hm⟩
    · simp only [Function.update_of_ne hy] at hi
      exact hsound.placed y i hi
  apart y z i hy hz hk := by
    by_cases hyx : y = x <;> by_cases hzx : z = x
    · rw [hyx, hzx]
    · subst hyx
      simp only [Function.update_self, Function.update_of_ne hzx, Option.some.injEq] at hy hz
      exact absurd hk.symm (hnew z (hy ▸ hz))
    · subst hzx
      simp only [Function.update_self, Function.update_of_ne hyx, Option.some.injEq] at hy hz
      exact absurd hk (hnew y (hz ▸ hy))
    · simp only [Function.update_of_ne hyx, Function.update_of_ne hzx] at hy hz
      exact hsound.apart y z i hy hz hk
  consistent y := by
    by_cases hy : y = x
    · subst hy
      have hcall : call p { s with place := Function.update s.place y (some n) } y = some c := by
        simpa only [call, Function.update_self, Option.bind_some] using hc
      have hnone : s.call p y = none := by rw [call, hx, Option.bind_none]
      have hold := hsound.consistent y
      have hwaiting : s.goroutine y = .waiting := by
        by_contra hg
        obtain ⟨d, hd, -⟩ := hold.begun hg
        rw [hnone] at hd
        cases hd
      rw [hcall]
      refine ⟨fun hg => absurd hwaiting hg, hold.idle, fun d _ _ hg => ?_, fun d hd hok => ?_⟩
      · rw [hwaiting] at hg
        cases hg
      · rw [Option.mem_some_iff.mp hd] at hresult
        exact absurd hok hresult
    · have hcall : call p { s with place := Function.update s.place x (some n) } y = s.call p y := by
        simp only [call, Function.update_of_ne hy]
      rw [hcall]
      exact hsound.consistent y

omit [DecidableEq ι] in
/-- A promise is settled, that of a `put` with what its goroutine has come to. -/
theorem Sound.settle {i : ℕ} {result : Except GoError Unit} (hsound : s.Sound limit p files)
    {h : Calls} (hstep : (Handle.machine js).step (s.handles k) (.settle i result) = some h)
    (hresult : ∀ x, s.place x = some i → (p x).handle = k →
      (s.goroutine x).result (s.server.stage x) = some result) :
    Sound limit p files { s with handles := Function.update s.handles k h } := by
  obtain ⟨c, d, hc, hnone, hcalls, hm, hsettled, hok, -, hexport⟩ :=
    Handle.step_settle (hsound.handles k) hstep
  have hi : i < (s.handles k).calls.length := (List.getElem?_eq_some_iff.mp hc).1
  have hself : h.calls[i]? = some d := by rw [hcalls, List.getElem?_set_self hi]
  have hold : ∀ y j, s.place y = some j → (p y).handle = k → j ≠ i →
      h.calls[j]? = (s.handles k).calls[j]? := by
    rintro y j - - hj
    rw [hcalls, List.getElem?_set_ne (Ne.symm hj)]
  apply hsound.onHandle hstep
  · rintro y j hj rfl
    obtain ⟨e, he, hput⟩ := hsound.placed y j hj
    by_cases hji : j = i
    · subst hji
      rw [hc] at he
      exact ⟨d, hself, hm.trans (Option.some.inj he ▸ hput)⟩
    · rw [hold y j hj rfl hji]
      exact ⟨e, he, hput⟩
  · intro y
    by_cases hy : s.place y = some i ∧ (p y).handle = k
    · obtain ⟨hplace, rfl⟩ := hy
      obtain ⟨e, he, hput⟩ := hsound.placed y i hplace
      rw [hc] at he
      rw [← Option.some.inj he] at hput
      have hcall : call p { s with handles := Function.update s.handles (p y).handle h } y = some d := by
        simpa only [call, hplace, Option.bind_some, Function.update_self] using hself
      have hgoroutine := hresult y hplace rfl
      have hconsistent := hsound.consistent y
      rw [hput] at hexport
      rw [hcall]
      refine ⟨fun _ => ⟨d, rfl, hexport⟩, hconsistent.idle, fun _ _ _ hg => ?_, fun e he hresolved => ?_⟩
      · rw [hg] at hgoroutine
        exact Goroutine.done_of_result hgoroutine
      · rw [← Option.mem_some_iff.mp he, hok] at hresolved
        rw [hresolved] at hgoroutine
        exact Goroutine.result_eq_ok hgoroutine
    · rw [call_update fun j hj hk => hold y j hj hk fun hji => hy ⟨hji ▸ hj, hk⟩]
      exact hsound.consistent y

omit [DecidableEq κ] in
theorem Sound.begins {c : Handle.Call} {g : Goroutine} (hsound : s.Sound limit p files)
    (hg : s.goroutine x = .waiting) (hc : s.call p x = some c) (hnone : c.result = none) :
    (s.setGoroutine x g).Sound limit p files where
  server := hsound.server
  handles := hsound.handles
  placed := hsound.placed
  apart := hsound.apart
  consistent y := by
    have hcall : ∀ z, call p (s.setGoroutine x g) z = s.call p z := fun z => rfl
    rw [hcall]
    by_cases hy : y = x
    · subst hy
      have hself : (s.setGoroutine y g).goroutine y = g := Function.update_self ..
      have hold := hsound.consistent y
      obtain ⟨i, hi, hget⟩ := Option.bind_eq_some_iff.mp hc
      obtain ⟨d, hd, hput⟩ := hsound.placed y i hi
      rw [hget] at hd
      rw [← Option.some.inj hd] at hput
      have hpending :=
        ((hsound.handles _).honest c (List.mem_of_getElem? hget)).pending hnone
      rw [hself, hc]
      refine ⟨fun _ => ⟨c, rfl, ?_⟩, fun _ => hold.idle (hg ▸ Goroutine.noConfusion), ?_, ?_⟩
      · rw [hpending.2.2, hput]
        exact List.mem_singleton_self _
      · intro e he hsettled
        rw [← Option.mem_some_iff.mp he] at hsettled
        exact absurd hnone hsettled
      · intro e he hresolved
        rw [← Option.mem_some_iff.mp he, hnone] at hresolved
        cases hresolved
    · have hother : (s.setGoroutine x g).goroutine y = s.goroutine y := Function.update_of_ne hy ..
      rw [hother]
      exact hsound.consistent y

omit [DecidableEq κ] in
theorem Sound.serves {a : Action} {server : Uploads ι} (hsound : s.Sound limit p files)
    (hsep : Uploads.Separate fun x => (p x).upload limit) (hg : s.goroutine x = .putFile)
    (hstep : (Uploads.machine fun x => (p x).upload limit).step s.server (x, a) = some server) :
    Sound limit p files { s with server := server } where
  server := Uploads.step_inv hsep _ _ _ hsound.server hstep
  handles := hsound.handles
  placed := hsound.placed
  apart := hsound.apart
  consistent y := by
    have hcall : call p { s with server := server } y = s.call p y := rfl
    have hold := hsound.consistent y
    rw [hcall]
    by_cases hy : y = x
    · subst hy
      refine ⟨hold.begun, fun hidle => absurd hg hidle, fun d hd hsettled _ => ?_, fun d hd hok => ?_⟩
      · obtain ⟨result, hdone⟩ := hold.settled d hd hsettled hg
        exact absurd hdone (Uploads.step_not_done hstep result)
      · exact absurd (hold.resolved d hd hok).2 (Uploads.step_not_done hstep _)
    · obtain ⟨hstage, hfile⟩ := (Uploads.step_frame hsep hstep).1 y hy
      simp only [hstage, hfile]
      exact hold

theorem Sound.step {a : UploadEvent κ ι} (hsound : s.Sound limit p files)
    (hsep : Uploads.Separate fun x => (p x).upload limit)
    (hstep : (machine js limit p).step s a = some t) : t.Sound limit p files := by
  cases a with
  | put x thrown =>
    obtain ⟨hnone, hstep⟩ := Option.ite_none_right_eq_some.mp hstep
    obtain ⟨t, hcalled, rfl⟩ := Option.map_eq_some_iff.mp hstep
    obtain ⟨h, hhandle, rfl⟩ := Option.map_eq_some_iff.mp hcalled
    obtain ⟨d, hcalls, hm, hresult⟩ := Handle.step_call hhandle
    apply (hsound.called hhandle).place hnone (c := d)
    · simp only [Function.update_self, hcalls, List.getElem?_concat_length]
    · exact hm
    · exact hresult (by simp)
    · intro y hy hk
      obtain ⟨c, hc, -⟩ := hsound.placed y _ hy
      rw [hk] at hc
      exact absurd (List.getElem?_eq_some_iff.mp hc).1 (lt_irrefl _)
  | mkdir k thrown =>
    have honHandle : s.onHandle js k (.call .mkdir thrown) = some t := hstep
    obtain ⟨h, hhandle, rfl⟩ := Option.map_eq_some_iff.mp honHandle
    exact hsound.called hhandle
  | close k thrown =>
    have honHandle : s.onHandle js k (.call .close thrown) = some t := hstep
    obtain ⟨h, hhandle, rfl⟩ := Option.map_eq_some_iff.mp honHandle
    exact hsound.called hhandle
  | begins x corrupt =>
    obtain ⟨⟨hg, c, hc, hnone⟩, heq⟩ := Option.ite_none_right_eq_some.mp hstep
    cases heq
    exact hsound.begins hg hc (Option.isNone_iff_eq_none.mp hnone)
  | serves x a =>
    obtain ⟨hg, hstep⟩ := Option.ite_none_right_eq_some.mp hstep
    obtain ⟨server, hserver, rfl⟩ := Option.map_eq_some_iff.mp hstep
    exact hsound.serves hsep hg hserver
  | deletes k i =>
    obtain ⟨-, heq⟩ := Option.ite_none_right_eq_some.mp hstep
    cases heq
    exact ⟨hsound.server, hsound.handles, hsound.placed, hsound.apart, hsound.consistent⟩
  | settlePut x =>
    obtain ⟨i, hi, hstep⟩ := Option.bind_eq_some_iff.mp hstep
    obtain ⟨result, hresult, hstep⟩ := Option.bind_eq_some_iff.mp hstep
    obtain ⟨h, hhandle, rfl⟩ := Option.map_eq_some_iff.mp hstep
    apply hsound.settle hhandle
    intro y hy hk
    rw [hsound.apart y x i hy hi hk]
    exact hresult
  | settleMkdir k i result =>
    obtain ⟨hwaits, hstep⟩ := Option.ite_none_right_eq_some.mp hstep
    obtain ⟨h, hhandle, rfl⟩ := Option.map_eq_some_iff.mp hstep
    exact hsound.settle hhandle fun y hy hk => absurd hwaits (hsound.not_waits hy hk (by simp))
  | settleClose k i result =>
    obtain ⟨⟨hwaits, -⟩, hstep⟩ := Option.ite_none_right_eq_some.mp hstep
    obtain ⟨h, hhandle, rfl⟩ := Option.map_eq_some_iff.mp hstep
    exact hsound.settle hhandle fun y hy hk => absurd hwaits (hsound.not_waits hy hk (by simp))

theorem sound_run (hsep : Uploads.Separate fun x => (p x).upload limit)
    {sftpSessionId : κ → String} {labels : List (UploadEvent κ ι)}
    (hrun : (machine js limit p).run (start sftpSessionId files) labels = some s) :
    s.Sound limit p files :=
  (machine js limit p).run_invariant (I := Sound limit p files)
    (fun _ _ _ h hstep => h.step hsep hstep) labels _ s (start_sound sftpSessionId) hrun

omit [DecidableEq κ] [DecidableEq ι] in
theorem Sound.called_of_renamed (hsound : s.Sound limit p files) (hx : x ∈ s.server.renamed) :
    ∃ c, s.call p x = some c ∧ .wasm "sftpPut" ∈ c.calls := by
  have hconsistent := hsound.consistent x
  have hbegun : s.goroutine x ≠ .waiting := by
    intro hg
    have hhere := hsound.server.stages x
    rw [(hconsistent.idle (hg ▸ Goroutine.noConfusion)).1] at hhere
    exact hhere hx
  exact hconsistent.begun hbegun

end Uploading
end SshClientWasm.Sftp
