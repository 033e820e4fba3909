import SshClientWasm.Library.Machine
import SshClientWasm.Ssh.Operations

/-!
# Calls on one handle

Nobody has to await a call before the next one. Up to its first `await` a method runs at
once, on the handle as it is then; what is behind that runs when the export of Go has
settled, and other calls may come in between. `close` raises its flag behind its `await`.
-/
namespace SshClientWasm.Sftp.Handle

open Library Ssh Ssh.Errors Ssh.Operations

inductive Method
  | put (bytes : BytesArgument)
  | mkdir
  | close
  deriving DecidableEq, Repr

/-- The method as a whole, on the handle that it found. -/
def Method.run (js : Platform) (handle : SFTPHandle) (go : WasmCall Unit) :
    Method → Operation Unit
  | put bytes => Operations.put js handle bytes go
  | mkdir => Operations.mkdir js handle go
  | close => Operations.close js handle go

/-- A call with the handle that it found, what it has called, and its promise. -/
structure Call where
  method : Method
  handle : SFTPHandle
  calls : List HostCall
  result : Option (Except Unknown Unit)

/-- The handle, and all calls on it so far. -/
structure Calls where
  handle : SFTPHandle
  calls : List Call

/-- A method is called, and the export it calls may throw at once; or the export that call
`i` awaits has settled, and the rest of that call runs. -/
inductive Label
  | call (method : Method) (thrown : Option JsError)
  | settle (i : ℕ) (result : Except GoError Unit)

def setClosed (handle : SFTPHandle) (calls : List HostCall) : SFTPHandle :=
  { handle with closed := handle.closed || decide (.setClosed ∈ calls) }

def machine (js : Platform) : Machine Calls Label where
  step s
    | .call m thrown =>
      let op := m.run js s.handle (thrown.elim .pending .thrown)
      some ⟨setClosed s.handle op.calls, s.calls ++ [⟨m, s.handle, op.calls, op.settled⟩]⟩
    | .settle i result =>
      s.calls[i]?.bind fun c =>
        if c.result.isNone then
          let op := c.method.run js c.handle (.settled result)
          some ⟨setClosed s.handle op.calls,
            s.calls.set i { c with calls := op.calls, result := op.settled }⟩
        else none

/-- A handle as `sftpOpen` returns it. -/
def opened (sftpSessionId : String) : Calls := ⟨⟨sftpSessionId, false⟩, []⟩

/-- What all calls have called, one call after the other. -/
def Calls.hostCalls (s : Calls) : List HostCall := s.calls.flatMap Call.calls

def sftpClose : HostCall := .wasm "sftpClose"

/-- The call has rejected, and has reached nothing in Go. -/
def Call.Refused (c : Call) : Prop :=
  .wasm "sftpPut" ∉ c.calls ∧ .wasm "sftpMkdir" ∉ c.calls ∧ ∃ e, c.result = some (.error e)

/-- The handle is closed once, every `close()` learns if that succeeded, and what is called
behind the first `close()` reaches Go no more. -/
structure Disciplined (s : Calls) : Prop where
  once : s.hostCalls.count sftpClose ≤ 1
  resolves : ∀ c ∈ s.calls, sftpClose ∈ c.calls → c.result = some (.ok ()) →
    ∀ d ∈ s.calls, d.method = .close → d.result = some (.ok ())
  rejects : s.calls.Pairwise fun c d => c.method = .close → d.method ≠ .close → d.Refused

/-- A `close()` has been called and has not settled. -/
def Closing (s : Calls) : Prop := ∃ c ∈ s.calls, c.method = .close ∧ c.result = none

/-- While a `close()` is pending, nothing is called that would reach Go. -/
def Awaited (s : Calls) : Label → Prop
  | .call m _ => Closing s → m = .put .unreadable
  | .settle _ _ => True

variable {js : Platform} {handle : SFTPHandle} {go : WasmCall Unit} {m : Method}

/-- What the method calls of Go, if it gets so far. -/
def Method.export : Method → HostCall
  | put _ => .wasm "sftpPut"
  | mkdir => .wasm "sftpMkdir"
  | close => sftpClose

theorem run_closed (js : Platform) (go : WasmCall Unit) (m : Method)
    (hclosed : handle.closed = true) :
    (m.run js handle go).calls = [] ∧
      (m = .close → (m.run js handle go).settled = some (.ok ())) ∧
      (m ≠ .close → ∃ e, (m.run js handle go).settled = some (.error e)) := by
  have hensure : handle.ensureOpen =
      throw (nativeError ("SFTPHandle " ++ handle.sftpSessionId ++ " has been closed")) :=
    if_pos hclosed
  cases m with
  | put bytes =>
    simp only [Method.run, Operations.put, hensure]
    exact ⟨rfl, fun h => absurd h (by simp), fun _ => ⟨_, rfl⟩⟩
  | mkdir =>
    simp only [Method.run, Operations.mkdir, hensure]
    exact ⟨rfl, fun h => absurd h (by simp), fun _ => ⟨_, rfl⟩⟩
  | close =>
    simp only [Method.run, Operations.close, if_pos hclosed]
    exact ⟨rfl, fun _ => rfl, fun h => absurd rfl h⟩

theorem run_unreadable (js : Platform) (handle : SFTPHandle) (go : WasmCall Unit) :
    ((Method.put .unreadable).run js handle go).calls = [] ∧
    ∃ e, ((Method.put .unreadable).run js handle go).settled = some (.error e) := by
  cases hclosed : handle.closed with
  | true => exact ⟨(run_closed js go _ hclosed).1, (run_closed js go _ hclosed).2.2 (by simp)⟩
  | false =>
    have hensure : handle.ensureOpen = pure () := if_neg (by simp [hclosed])
    simp only [Method.run, Operations.put, hensure]
    exact ⟨rfl, _, rfl⟩

theorem caught_spec (js : Platform) (go : WasmCall Unit) (function : String) :
    (tryCatch (callWasm function [] go) (rethrow js)).calls = [.wasm function] ∧
      ((tryCatch (callWasm function [] go) (rethrow js)).settled = none ↔ go.promise = none) ∧
      ((tryCatch (callWasm function [] go) (rethrow js)).settled = some (.ok ()) ↔
        go.promise = some (.ok ())) := by
  have hthrow : ∀ e, ∃ e', (rethrow js e : Operation Unit) = ⟨[], some (.error e')⟩ := by
    intro e
    unfold rethrow
    cases Errors.wrapSSHError js e with
    | ok err => exact ⟨_, rfl⟩
    | error e => exact ⟨_, rfl⟩
  have hcatch : tryCatch (callWasm function [] go) (rethrow js) =
      Async.catchWith (callWasm function [] go) (rethrow js) := rfl
  rw [hcatch]
  unfold Async.catchWith callWasm
  rcases go.promise with _ | ⟨e | _⟩
  · simp
  · obtain ⟨e', he'⟩ := hthrow e
    simp [he']
  · simp

theorem run_open (js : Platform) (go : WasmCall Unit) (hopen : handle.closed = false)
    (hm : m ≠ .put .unreadable) :
    (m.run js handle go).calls =
        m.export :: (if m = .close ∧ go.promise ≠ none then [.setClosed] else []) ∧
      ((m.run js handle go).settled = none ↔ go.promise = none) ∧
      ((m.run js handle go).settled = some (.ok ()) ↔ go.promise = some (.ok ())) := by
  have hensure : handle.ensureOpen = pure () := if_neg (by simp [hopen])
  cases m with
  | put bytes =>
    have hbytes : toBase64 js bytes = pure () := by
      cases bytes with
      | unreadable => exact absurd rfl hm
      | uint8Array bytes => rfl
      | noElements => rfl
    have hrun : (Method.put bytes).run js handle go =
        tryCatch (callWasm "sftpPut" [] go) (rethrow js) := by
      simp only [Method.run, Operations.put, hensure, hbytes]
      rfl
    rw [hrun]
    exact caught_spec js go "sftpPut"
  | mkdir =>
    have hrun : Method.mkdir.run js handle go =
        tryCatch (callWasm "sftpMkdir" [] go) (rethrow js) := by
      simp only [Method.run, Operations.mkdir, hensure]
      rfl
    rw [hrun]
    exact caught_spec js go "sftpMkdir"
  | close =>
    have hrun : Method.close.run js handle go =
        (tryCatch (callWasm "sftpClose" [] go) (rethrow js)).finallyDo
          (Async.call .setClosed) := by
      simp only [Method.run, Operations.close, if_neg (Bool.eq_false_iff.mp hopen)]
    obtain ⟨hcalls, hwaits, hreturns⟩ := caught_spec js go "sftpClose"
    rw [hrun]
    unfold Async.finallyDo
    cases hsettled : (tryCatch (callWasm "sftpClose" [] go) (rethrow js)).settled with
    | none => simp_all [Method.export, sftpClose]
    | some ending => simp_all [Method.export, sftpClose, Async.call]

/-- What holds of a call in every run, whatever it came between. -/
structure Call.Honest (c : Call) : Prop where
  pending : c.result = none →
    c.handle.closed = false ∧ c.method ≠ .put .unreadable ∧ c.calls = [c.method.export]
  returned : c.method = .close → sftpClose ∉ c.calls → c.result = some (.ok ())
  other : c.method ≠ .close → sftpClose ∉ c.calls

/-- Of the calls and the flag together: it is up once a `close()` has settled. -/
structure Sound (s : Calls) : Prop where
  honest : ∀ c ∈ s.calls, c.Honest
  shut : s.handle.closed = true → ∃ c ∈ s.calls, sftpClose ∈ c.calls ∧ c.result ≠ none
  unshut : s.handle.closed = false → ∀ c ∈ s.calls, c.method = .close → c.result = none

theorem export_eq_sftpClose : m.export = sftpClose ↔ m = .close := by
  cases m <;> simp [Method.export, sftpClose]

theorem run_honest (m : Method) (go : WasmCall Unit) :
    Call.Honest ⟨m, handle, (m.run js handle go).calls, (m.run js handle go).settled⟩ := by
  cases hclosed : handle.closed with
  | true =>
    obtain ⟨hcalls, hreturns, hthrows⟩ := run_closed js go m hclosed
    refine ⟨fun hnone => ?_, fun hm _ => hreturns hm, fun _ => ?_⟩
    · dsimp only at hnone
      by_cases hm : m = .close
      · cases hnone.symm.trans (hreturns hm)
      · obtain ⟨e, he⟩ := hthrows hm
        cases hnone.symm.trans he
    · dsimp only
      rw [hcalls]
      exact List.not_mem_nil
  | false =>
    by_cases hm : m = .put .unreadable
    · subst hm
      obtain ⟨hcalls, e, he⟩ := run_unreadable js handle go
      refine ⟨fun hnone => ?_, fun hm => (nomatch hm), fun _ => ?_⟩
      · cases hnone.symm.trans he
      · dsimp only
        rw [hcalls]
        exact List.not_mem_nil
    · obtain ⟨hcalls, hwaits, _⟩ := run_open js go hclosed hm
      refine ⟨fun hnone => ⟨hclosed, hm, ?_⟩, fun hclose hnot => ?_, fun hother => ?_⟩
      · exact hcalls.trans (by rw [if_neg fun h => h.2 (hwaits.mp hnone)])
      · refine absurd ?_ hnot
        dsimp only
        rw [hcalls, export_eq_sftpClose.mpr hclose]
        exact List.mem_cons_self
      · dsimp only
        rw [hcalls, if_neg fun h => hother h.1, List.mem_singleton]
        exact fun h => hother (export_eq_sftpClose.mp h.symm)

theorem mem_setClosed_iff :
    .setClosed ∈ (m.run js handle go).calls ↔
      handle.closed = false ∧ m = .close ∧ go.promise ≠ none := by
  cases hclosed : handle.closed with
  | true =>
    rw [(run_closed js go _ hclosed).1]
    exact iff_of_false List.not_mem_nil fun h => absurd h.1 (by simp)
  | false =>
    by_cases hm : m = .put .unreadable
    · subst hm
      rw [(run_unreadable js handle go).1]
      exact iff_of_false List.not_mem_nil fun h => nomatch h.2.1
    · rw [(run_open js go hclosed hm).1, List.mem_cons]
      have hne : HostCall.setClosed ≠ m.export := by
        cases m <;> simp [Method.export, sftpClose]
      by_cases hcond : m = .close ∧ go.promise ≠ none
      · rw [if_pos hcond]
        exact iff_of_true (Or.inr (List.mem_singleton_self _)) ⟨rfl, hcond⟩
      · rw [if_neg hcond]
        exact iff_of_false (fun h => absurd (h.resolve_left hne) List.not_mem_nil) fun h => hcond h.2

section Steps

variable {s s' : Calls} {c d : Call} {i : ℕ}

theorem setClosed_closed (calls : List HostCall) :
    (setClosed handle calls).closed = true ↔ handle.closed = true ∨ .setClosed ∈ calls := by
  simp [setClosed]

theorem set_split (h : s.calls[i]? = some c) (d : Call) :
    s.calls = s.calls.take i ++ c :: s.calls.drop (i + 1) ∧
      s.calls.set i d = s.calls.take i ++ d :: s.calls.drop (i + 1) := by
  obtain ⟨hi, hget⟩ := List.getElem?_eq_some_iff.mp h
  constructor
  · rw [← hget, List.getElem_cons_drop, List.take_append_drop]
  · exact List.set_eq_take_append_cons_drop.trans (if_pos hi)

theorem call_cases {thrown : Option JsError}
    (h : (machine js).step s (.call m thrown) = some s') :
    ∃ go : WasmCall Unit, s' =
      ⟨setClosed s.handle (m.run js s.handle go).calls, s.calls ++
        [⟨m, s.handle, (m.run js s.handle go).calls, (m.run js s.handle go).settled⟩]⟩ := by
  cases h
  exact ⟨_, rfl⟩

/-- Only a call that waits can settle: it is run to its end, and its export is called no
second time. -/
theorem settle_cases (hsound : Sound s) {result : Except GoError Unit}
    (h : (machine js).step s (.settle i result) = some s') :
    ∃ c d, s.calls[i]? = some c ∧ c.result = none ∧ d.method = c.method ∧ d.Honest ∧
      d.result ≠ none ∧ c.calls = [c.method.export] ∧
      d.calls = c.method.export :: (if c.method = .close then [.setClosed] else []) ∧
      s' = ⟨setClosed s.handle d.calls, s.calls.set i d⟩ := by
  obtain ⟨c, hc, h⟩ := Option.bind_eq_some_iff.mp h
  obtain ⟨hnone, heq⟩ := Option.ite_none_right_eq_some.mp h
  rw [Option.isNone_iff_eq_none] at hnone
  cases heq
  obtain ⟨hopen, hm, hcalls⟩ := (hsound.honest c (List.mem_of_getElem? hc)).pending hnone
  have hpromise : (WasmCall.settled result).promise ≠ none := by
    cases result <;> exact Option.some_ne_none _
  obtain ⟨hrun, hwaits, _⟩ := run_open js (.settled result) hopen hm
  refine ⟨c, ⟨c.method, c.handle, (c.method.run js c.handle (.settled result)).calls,
    (c.method.run js c.handle (.settled result)).settled⟩, hc, hnone, rfl, run_honest c.method _,
    ?_, hcalls, ?_, rfl⟩
  · exact fun hsettled => hpromise (hwaits.mp hsettled)
  · dsimp only
    rw [hrun]
    simp only [hpromise, ne_eq, not_false_eq_true, and_true]

theorem Sound.call (h : Sound s) (m : Method) (go : WasmCall Unit) :
    Sound ⟨setClosed s.handle (m.run js s.handle go).calls, s.calls ++
      [⟨m, s.handle, (m.run js s.handle go).calls, (m.run js s.handle go).settled⟩]⟩ := by
  refine ⟨fun c hc => ?_, fun hclosed => ?_, fun hclosed c hc hclose => ?_⟩
  · rcases List.mem_append.mp hc with hc | hc
    · exact h.honest c hc
    · rw [List.mem_singleton.mp hc]
      exact run_honest m go
  · rcases (setClosed_closed _).mp hclosed with hclosed | hset
    · obtain ⟨c, hc, hcalled⟩ := h.shut hclosed
      exact ⟨c, List.mem_append_left _ hc, hcalled⟩
    · obtain ⟨hopen, hm, hpromise⟩ := mem_setClosed_iff.mp hset
      obtain ⟨hcalls, hwaits, _⟩ := run_open (m := m) js go hopen (by simp [hm])
      refine ⟨_, List.mem_append_right _ (List.mem_singleton_self _), ?_, ?_⟩
      · rw [hcalls, export_eq_sftpClose.mpr hm]
        exact List.mem_cons_self
      · exact fun hsettled => hpromise (hwaits.mp hsettled)
  · have hopen : ¬ (s.handle.closed = true ∨ .setClosed ∈ (m.run js s.handle go).calls) := by
      rw [← setClosed_closed, hclosed]
      exact Bool.false_ne_true
    obtain ⟨hopen, hset⟩ := not_or.mp hopen
    rw [Bool.not_eq_true] at hopen
    rcases List.mem_append.mp hc with hc | hc
    · exact h.unshut hopen c hc hclose
    · rw [List.mem_singleton.mp hc] at hclose ⊢
      rw [mem_setClosed_iff] at hset
      have hpromise : go.promise = none := by
        by_contra hsome
        exact hset ⟨hopen, hclose, hsome⟩
      exact (run_open js go hopen (by simp [show m = .close from hclose])).2.1.mpr hpromise

theorem Sound.settle (h : Sound s) (hc : s.calls[i]? = some c) (hnone : c.result = none)
    (hmethod : d.method = c.method) (hhonest : d.Honest) (hresult : d.result ≠ none)
    (hcalls : d.calls = c.method.export :: (if c.method = .close then [.setClosed] else [])) :
    Sound ⟨setClosed s.handle d.calls, s.calls.set i d⟩ := by
  obtain ⟨hbefore, hafter⟩ := set_split hc d
  have hkept : ∀ x ∈ s.calls, x.result ≠ none → x ∈ s.calls.set i d := by
    intro x hx hsome
    rw [hbefore] at hx
    rw [hafter]
    rcases List.mem_append.mp hx with hx | hx
    · exact List.mem_append_left _ hx
    · rcases List.mem_cons.mp hx with rfl | hx
      · exact absurd hnone hsome
      · exact List.mem_append_right _ (List.mem_cons_of_mem _ hx)
  have hself : d ∈ s.calls.set i d := by
    rw [hafter]
    exact List.mem_append_right _ List.mem_cons_self
  refine ⟨fun x hx => ?_, fun hclosed => ?_, fun hclosed x hx hclose => ?_⟩
  · rcases List.mem_or_eq_of_mem_set hx with hx | rfl
    · exact h.honest x hx
    · exact hhonest
  · by_cases hclose : c.method = .close
    · refine ⟨d, hself, ?_, hresult⟩
      rw [hcalls, export_eq_sftpClose.mpr hclose]
      exact List.mem_cons_self
    · rw [setClosed_closed, hcalls, if_neg hclose, List.mem_singleton] at hclosed
      have hne : HostCall.setClosed ≠ c.method.export := by
        cases c.method <;> simp [Method.export, sftpClose]
      obtain ⟨x, hx, hcalled, hsome⟩ := h.shut (hclosed.resolve_right hne)
      exact ⟨x, hkept x hx hsome, hcalled, hsome⟩
  · have hopen : ¬ (s.handle.closed = true ∨ .setClosed ∈ d.calls) := by
      rw [← setClosed_closed, hclosed]
      exact Bool.false_ne_true
    obtain ⟨hopen, hset⟩ := not_or.mp hopen
    rcases List.mem_or_eq_of_mem_set hx with hx | rfl
    · exact h.unshut (by simpa using hopen) x hx hclose
    · refine absurd ?_ hset
      rw [hcalls, if_pos (hmethod.symm.trans hclose)]
      exact List.mem_cons_of_mem _ (List.mem_singleton_self _)

theorem step_sound {a : Label} (h : Sound s) (hstep : (machine js).step s a = some s') :
    Sound s' := by
  cases a with
  | call m thrown =>
    obtain ⟨go, rfl⟩ := call_cases hstep
    exact h.call m go
  | settle i result =>
    obtain ⟨c, d, hc, hnone, hmethod, hhonest, hresult, _, hcalls, rfl⟩ := settle_cases h hstep
    exact h.settle hc hnone hmethod hhonest hresult hcalls

theorem step_call {thrown : Option JsError}
    (hstep : (machine js).step s (.call m thrown) = some s') :
    ∃ d : Call, s'.calls = s.calls ++ [d] ∧ d.method = m ∧
      (m ≠ .close → d.result ≠ some (.ok ())) := by
  cases hstep
  refine ⟨_, rfl, rfl, fun hm => ?_⟩
  dsimp only
  cases hclosed : s.handle.closed with
  | true =>
    obtain ⟨e, he⟩ := (run_closed js (thrown.elim .pending .thrown) m hclosed).2.2 hm
    rw [he]
    simp
  | false =>
    by_cases hbytes : m = .put .unreadable
    · subst hbytes
      obtain ⟨-, e, he⟩ := run_unreadable js s.handle (thrown.elim .pending .thrown)
      rw [he]
      simp
    · rw [ne_eq, (run_open js _ hclosed hbytes).2.2]
      cases thrown with
      | none => simp [WasmCall.promise]
      | some e => simp [WasmCall.promise]

theorem step_settle (hsound : Sound s) {i : ℕ} {result : Except GoError Unit}
    (hstep : (machine js).step s (.settle i result) = some s') :
    ∃ c d : Call, s.calls[i]? = some c ∧ c.result = none ∧ s'.calls = s.calls.set i d ∧
      d.method = c.method ∧ d.result ≠ none ∧ (d.result = some (.ok ()) ↔ result = .ok ()) ∧
      c.method.export ∈ c.calls ∧ c.method.export ∈ d.calls := by
  obtain ⟨c, hc, hstep⟩ := Option.bind_eq_some_iff.mp hstep
  obtain ⟨hnone, heq⟩ := Option.ite_none_right_eq_some.mp hstep
  rw [Option.isNone_iff_eq_none] at hnone
  cases heq
  obtain ⟨hopen, hm, hcalls⟩ := (hsound.honest c (List.mem_of_getElem? hc)).pending hnone
  obtain ⟨hrun, hwaits, hreturns⟩ := run_open js (.settled result) hopen hm
  refine ⟨c, _, hc, hnone, rfl, rfl, ?_, ?_, ?_, ?_⟩
  · dsimp only
    rw [ne_eq, hwaits]
    cases result <;> simp [WasmCall.promise]
  · dsimp only
    rw [hreturns]
    cases result <;> simp [WasmCall.promise]
  · rw [hcalls]
    exact List.mem_singleton_self _
  · dsimp only
    rw [hrun]
    exact List.mem_cons_self

theorem step_settled {a : Label} (hstep : (machine js).step s a = some s') {i : ℕ}
    {d : Call} (hd : s.calls[i]? = some d) (hsettled : d.result ≠ none) :
    s'.calls[i]? = some d := by
  cases a with
  | call m thrown =>
    cases hstep
    dsimp only
    rw [List.getElem?_append_left (List.getElem?_eq_some_iff.mp hd).1]
    exact hd
  | settle j result =>
    obtain ⟨c, hc, hstep⟩ := Option.bind_eq_some_iff.mp hstep
    obtain ⟨hnone, heq⟩ := Option.ite_none_right_eq_some.mp hstep
    cases heq
    have hji : j ≠ i := by
      rintro rfl
      rw [hd] at hc
      rw [← Option.some.inj hc] at hnone
      exact hsettled (Option.isNone_iff_eq_none.mp hnone)
    dsimp only
    rw [List.getElem?_set_ne hji]
    exact hd

theorem Disciplined.quiet (h : Disciplined s) (hcalls : d.calls = [])
    (hclose : d.method = .close → d.result = some (.ok ()))
    (hother : d.method ≠ .close → ∃ e, d.result = some (.error e)) (handle : SFTPHandle) :
    Disciplined ⟨handle, s.calls ++ [d]⟩ := by
  refine ⟨?_, fun x hx hcalled hok y hy hm => ?_, ?_⟩
  · have hsame : Calls.hostCalls ⟨handle, s.calls ++ [d]⟩ = s.hostCalls := by
      simp [Calls.hostCalls, hcalls]
    rw [hsame]
    exact h.once
  · have hold : x ∈ s.calls := by
      rcases List.mem_append.mp hx with hx | hx
      · exact hx
      · rw [List.mem_singleton.mp hx, hcalls] at hcalled
        exact absurd hcalled List.not_mem_nil
    rcases List.mem_append.mp hy with hy | hy
    · exact h.resolves x hold hcalled hok y hy hm
    · rw [List.mem_singleton.mp hy] at hm ⊢
      exact hclose hm
  · refine List.pairwise_append.mpr ⟨h.rejects, List.pairwise_singleton _ _, ?_⟩
    intro x _ y hy _ hne
    rw [List.mem_singleton.mp hy] at hne ⊢
    rw [Call.Refused, hcalls]
    exact ⟨List.not_mem_nil, List.not_mem_nil, hother hne⟩

theorem Sound.first (h : Sound s) (hnone : ∀ c ∈ s.calls, c.method ≠ .close)
    (hd : d.calls.count sftpClose ≤ 1) (handle : SFTPHandle) : Disciplined ⟨handle, s.calls ++ [d]⟩ := by
  have hold : ∀ c ∈ s.calls, sftpClose ∉ c.calls := fun c hc => (h.honest c hc).other (hnone c hc)
  refine ⟨?_, fun x hx hcalled hok y hy hm => ?_, ?_⟩
  · have hzero : s.hostCalls.count sftpClose = 0 := by
      refine List.count_eq_zero_of_not_mem fun hmem => ?_
      obtain ⟨c, hc, hcalled⟩ := List.mem_flatMap.mp hmem
      exact hold c hc hcalled
    have hcount : (Calls.hostCalls ⟨handle, s.calls ++ [d]⟩).count sftpClose =
        s.hostCalls.count sftpClose + d.calls.count sftpClose := by
      simp [Calls.hostCalls]
    omega
  · rcases List.mem_append.mp hx with hx | hx
    · exact absurd hcalled (hold x hx)
    · rcases List.mem_append.mp hy with hy | hy
      · exact absurd hm (hnone y hy)
      · rwa [List.mem_singleton.mp hy, ← List.mem_singleton.mp hx]
  · refine List.pairwise_append.mpr ⟨?_, List.pairwise_singleton _ _, ?_⟩
    · exact List.pairwise_of_forall_mem_list fun x hx y _ hm => absurd hm (hnone x hx)
    · exact fun x hx y _ hm => absurd hm (hnone x hx)

theorem two_le_count {front back : List Call} (hsplit : s.calls = front ++ c :: back)
    (hd : d ∈ front ++ back) (hc' : sftpClose ∈ c.calls) (hd' : sftpClose ∈ d.calls) :
    2 ≤ s.hostCalls.count sftpClose := by
  have hmem : sftpClose ∈ (front ++ back).flatMap Call.calls := List.mem_flatMap.mpr ⟨d, hd, hd'⟩
  have hcount : s.hostCalls.count sftpClose =
      c.calls.count sftpClose + ((front ++ back).flatMap Call.calls).count sftpClose := by
    rw [Calls.hostCalls, hsplit]
    simp only [List.flatMap_append, List.flatMap_cons, List.count_append]
    omega
  have hfirst := List.count_pos_iff.mpr hc'
  have hsecond := List.count_pos_iff.mpr hmem
  omega

theorem mem_middle {front back : List Call} : d ∈ front ++ c :: back ↔ d = c ∨ d ∈ front ++ back := by
  simp only [List.mem_append, List.mem_cons]
  tauto

theorem not_disciplined_call {go : WasmCall Unit} (hsound : Sound s) (h : Disciplined s)
    (hclosing : Closing s) (hm : m ≠ .put .unreadable) :
    ¬ Disciplined ⟨setClosed s.handle (m.run js s.handle go).calls, s.calls ++
      [⟨m, s.handle, (m.run js s.handle go).calls, (m.run js s.handle go).settled⟩]⟩ := by
  obtain ⟨c, hc, hclose, hnone⟩ := hclosing
  obtain ⟨_, _, hcalls⟩ := (hsound.honest c hc).pending hnone
  have hcalled : sftpClose ∈ c.calls := by
    rw [hcalls, export_eq_sftpClose.mpr hclose]
    exact List.mem_singleton_self _
  have hopen : s.handle.closed = false := by
    by_contra hclosed
    obtain ⟨d, hd, hd', hsome⟩ := hsound.shut (by simpa using hclosed)
    obtain ⟨front, back, hsplit⟩ := List.append_of_mem hc
    have hne : d ≠ c := by
      rintro rfl
      exact hsome hnone
    have hother := (mem_middle.mp (hsplit ▸ hd)).resolve_left hne
    have htwo := two_le_count hsplit hother hcalled hd'
    have := h.once
    omega
  have hexport : m.export ∈ (m.run js s.handle go).calls := by
    rw [(run_open js go hopen hm).1]
    exact List.mem_cons_self
  intro h'
  by_cases hmethod : m = .close
  · have hone : 1 ≤ s.hostCalls.count sftpClose :=
      List.count_pos_iff.mpr (List.mem_flatMap.mpr ⟨c, hc, hcalled⟩)
    have hnew : 1 ≤ (m.run js s.handle go).calls.count sftpClose :=
      List.count_pos_iff.mpr (export_eq_sftpClose.mpr hmethod ▸ hexport)
    have hcount := h'.once
    simp only [Calls.hostCalls, List.flatMap_append, List.flatMap_singleton,
      List.count_append] at hcount hone
    omega
  · obtain ⟨_, _, hlater⟩ := List.pairwise_append.mp h'.rejects
    obtain ⟨hput, hmkdir, _⟩ := hlater c hc _ (List.mem_singleton_self _) hclose hmethod
    cases m with
    | put bytes => exact hput hexport
    | mkdir => exact hmkdir hexport
    | close => exact hmethod rfl

theorem call_disciplined_iff {go : WasmCall Unit} (hsound : Sound s) (h : Disciplined s) :
    Disciplined ⟨setClosed s.handle (m.run js s.handle go).calls, s.calls ++
        [⟨m, s.handle, (m.run js s.handle go).calls, (m.run js s.handle go).settled⟩]⟩ ↔
      (Closing s → m = .put .unreadable) := by
  constructor
  · intro h' hclosing
    by_contra hm
    exact not_disciplined_call hsound h hclosing hm h'
  intro hawaited
  cases hclosed : s.handle.closed with
  | true =>
    obtain ⟨hcalls, hreturns, hthrows⟩ := run_closed js go m hclosed
    exact h.quiet hcalls hreturns hthrows _
  | false =>
    by_cases hm : m = .put .unreadable
    · subst hm
      obtain ⟨hcalls, hthrows⟩ := run_unreadable js s.handle go
      exact h.quiet hcalls (fun hclose => by cases hclose) (fun _ => hthrows) _
    · refine hsound.first (fun c hc hclose => ?_) ?_ _
      · exact hm (hawaited ⟨c, hc, hclose, hsound.unshut hclosed c hc hclose⟩)
      · dsimp only
        rw [(run_open js go hclosed hm).1, List.count_cons]
        have htail : List.count sftpClose
            (if m = .close ∧ go.promise ≠ none then [HostCall.setClosed] else []) = 0 := by
          refine List.count_eq_zero_of_not_mem ?_
          split_ifs <;> simp [sftpClose]
        rw [htail]
        split_ifs
        · exact le_rfl
        · exact Nat.zero_le _

/-- What a call does when it settles keeps the discipline. -/
theorem Disciplined.settle (h : Disciplined s) (hsound : Sound s) (hc : s.calls[i]? = some c)
    (hnone : c.result = none) (hmethod : d.method = c.method)
    (hcalled : c.calls = [c.method.export])
    (hcalls : d.calls = c.method.export :: (if c.method = .close then [.setClosed] else []))
    (handle : SFTPHandle) : Disciplined ⟨handle, s.calls.set i d⟩ := by
  obtain ⟨hbefore, hafter⟩ := set_split hc d
  have hcount : d.calls.count sftpClose = c.calls.count sftpClose := by
    rw [hcalls, hcalled]
    split_ifs
    · simp [List.count_cons, sftpClose]
    · rfl
  have hmem : sftpClose ∈ d.calls ↔ sftpClose ∈ c.calls := by
    rw [← List.count_pos_iff, ← List.count_pos_iff, hcount]
  have halone : ∀ x ∈ s.calls.take i ++ s.calls.drop (i + 1), sftpClose ∈ c.calls →
      sftpClose ∉ x.calls := by
    intro x hx hc' hx'
    have htwo := two_le_count hbefore hx hc' hx'
    have hone := h.once
    omega
  refine ⟨?_, fun x hx hx' hok y hy hm => ?_, ?_⟩
  · have hsame : (Calls.hostCalls ⟨handle, s.calls.set i d⟩).count sftpClose =
        s.hostCalls.count sftpClose := by
      rw [Calls.hostCalls, Calls.hostCalls, hafter]
      conv_rhs => rw [hbefore]
      simp only [List.flatMap_append, List.flatMap_cons, List.count_append, hcount]
    exact hsame ▸ h.once
  · rw [hafter] at hx hy
    rcases mem_middle.mp hy with rfl | hyold
    · -- the settled `close()` called `sftpClose`, so that no other call has succeeded in it
      have hown : sftpClose ∈ c.calls := by
        rw [hcalled, export_eq_sftpClose.mpr (hmethod.symm.trans hm)]
        exact List.mem_singleton_self _
      rcases mem_middle.mp hx with rfl | hxold
      · exact hok
      · exact absurd hx' (halone x hxold hown)
    · have hy' : y ∈ s.calls := hbefore ▸ mem_middle.mpr (Or.inr hyold)
      rcases mem_middle.mp hx with rfl | hxold
      · exact (hsound.honest y hy').returned hm (halone y hyold (hmem.mp hx'))
      · exact h.resolves x (hbefore ▸ mem_middle.mpr (Or.inr hxold)) hx' hok y hy' hm
  · have hpairs := h.rejects
    rw [hbefore] at hpairs
    dsimp only
    rw [hafter]
    obtain ⟨hfront, hback, hacross⟩ := List.pairwise_append.mp hpairs
    obtain ⟨hcback, hback⟩ := List.pairwise_cons.mp hback
    refine List.pairwise_append.mpr ⟨hfront, List.pairwise_cons.mpr ⟨fun y hy hm => ?_, hback⟩, ?_⟩
    · exact hcback y hy (hmethod.symm.trans hm)
    · intro x hx y hy hm hne
      rcases List.mem_cons.mp hy with rfl | hy
      · -- the call would have rejected at once, and could not have waited
        obtain ⟨_, _, e, he⟩ := hacross x hx c List.mem_cons_self hm (hmethod ▸ hne)
        cases hnone.symm.trans he
      · exact hacross x hx y (List.mem_cons_of_mem _ hy) hm hne

theorem step_disciplined_iff {a : Label} (hsound : Sound s) (h : Disciplined s)
    (hstep : (machine js).step s a = some s') : Disciplined s' ↔ Awaited s a := by
  cases a with
  | call m thrown =>
    obtain ⟨go, rfl⟩ := call_cases hstep
    exact call_disciplined_iff hsound h
  | settle i result =>
    obtain ⟨c, d, hc, hnone, hmethod, _, _, hcalled, hcalls, rfl⟩ := settle_cases hsound hstep
    exact iff_of_true (h.settle hsound hc hnone hmethod hcalled hcalls _) trivial

end Steps

/-- In every run of calls on one handle, whatever they meet, the discipline is kept
throughout exactly if nothing that reaches Go is called while a `close()` is pending. -/
theorem always_disciplined_iff (js : Platform) (sftpSessionId : String) (labels : List Label)
    (s : Calls) (hrun : (machine js).run (opened sftpSessionId) labels = some s) :
    (machine js).Always Disciplined (opened sftpSessionId) labels ↔
      (machine js).Admits Awaited (opened sftpSessionId) labels := by
  have hsound : Sound (opened sftpSessionId) :=
    ⟨fun c hc => absurd hc List.not_mem_nil, fun h => absurd h Bool.false_ne_true,
      fun _ c hc => absurd hc List.not_mem_nil⟩
  have hstart : Disciplined (opened sftpSessionId) :=
    ⟨Nat.zero_le _, fun c hc => absurd hc List.not_mem_nil, List.Pairwise.nil⟩
  exact (machine js).always_iff_admits (fun _ _ _ h hstep => step_sound h hstep)
    (fun _ _ _ hs h hstep => step_disciplined_iff hs h hstep) labels _ s hsound hstart hrun

theorem not_closing {s : Calls}
    (h : s.calls.all (fun c => c.method ≠ .close || c.result.isSome) = true) : ¬ Closing s := by
  rintro ⟨c, hc, hclose, hnone⟩
  have hall := List.all_eq_true.mp h c hc
  rw [hclose, hnone] at hall
  exact absurd hall (by decide)

/-- A handle that is closed once its upload is done, and used again behind that. -/
theorem always_disciplined_iff_awaited :
    (machine plainPlatform).Always Disciplined (opened "sftp-1")
      [.call (.put (.uint8Array [1])) none, .settle 0 (.ok ()), .call .close none,
        .settle 1 (.ok ()), .call .close none, .call .mkdir none] := by
  refine (always_disciplined_iff plainPlatform "sftp-1" _ _ rfl).mpr ?_
  refine (Machine.admits_cons _ rfl).mpr ⟨fun h => absurd h (not_closing rfl), ?_⟩
  refine (Machine.admits_cons _ rfl).mpr ⟨trivial, ?_⟩
  refine (Machine.admits_cons _ rfl).mpr ⟨fun h => absurd h (not_closing rfl), ?_⟩
  refine (Machine.admits_cons _ rfl).mpr ⟨trivial, ?_⟩
  refine (Machine.admits_cons _ rfl).mpr ⟨fun h => absurd h (not_closing rfl), ?_⟩
  exact (Machine.admits_cons _ rfl).mpr ⟨fun h => absurd h (not_closing rfl), trivial⟩

/-- Two calls of `close()` in a row both reach Go. -/
theorem close_twice :
    ¬ (machine plainPlatform).Always Disciplined (opened "sftp-1")
      [.call .close none, .call .close none] := by
  intro hall
  obtain ⟨s, hrun, htwo⟩ : ∃ s, (machine plainPlatform).run (opened "sftp-1")
      [.call .close none, .call .close none] = some s ∧ s.hostCalls = [sftpClose, sftpClose] :=
    ⟨_, rfl, rfl⟩
  have honce := ((machine plainPlatform).always_run _ _ s hall hrun).once
  rw [htwo] at honce
  exact absurd honce (by decide)

end SshClientWasm.Sftp.Handle
