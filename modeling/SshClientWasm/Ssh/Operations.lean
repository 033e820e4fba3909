import SshClientWasm.Library.Async
import SshClientWasm.Library.Bytes
import SshClientWasm.Ssh.Errors

/-!
# The operations and how they reject

The six operations of the TypeScript side, await by await. A call of an export of Go may
throw an error of its own, as it does when the Go program has ended; what Go itself rejects
with comes from `errorToJS`. Only what is inside a `try` goes through `wrapSSHError`, and
that returns an `Error` as it is.
-/
namespace SshClientWasm.Ssh.Operations

open Library Errors

/-- What an operation calls, and the flag that `SFTPHandle.close` sets. -/
inductive HostCall
  | createTransport
  | connect
  | wasm (function : String)
  | send (data : Bytes)
  | closeTransport
  | setClosed
  deriving DecidableEq, Repr

abbrev Operation (α : Type) := Async HostCall Unknown α

/-- `new Error(message)`. -/
def nativeError (message : String) : Unknown := .error (.native message .undefined)

/-- What a call of `connect` or `getServerFingerprint` meets: the options when the guard
reads them, and what becomes of `createTransport`, `transport.connect()` and
`closeTransport`. -/
structure Surroundings where
  initialized : Bool
  guardOptions : JsValue
  guardOptions' : JsValue
  created : Except String Unit
  connected : Option (Except Unknown Unit)
  closed : Option (Except Unknown Unit)

/-- A call of an export of Go: it throws, or its promise stays pending or is settled. -/
inductive WasmCall (α : Type)
  | thrown (e : JsError)
  | pending
  | settled (result : Except GoError α)

def WasmCall.promise {α : Type} : WasmCall α → Option (Except Unknown α)
  | thrown e => some (.error (.error e))
  | pending => none
  | settled (.ok a) => some (.ok a)
  | settled (.error err) => some (.error (.value (errorToJS err)))

/-- The export is called, and Go sends over the transport. -/
def callWasm {α : Type} (function : String) (sends : List Bytes) (go : WasmCall α) :
    Operation α :=
  ⟨.wasm function :: sends.map .send, go.promise⟩

namespace Surroundings

variable (s : Surroundings)

def createTransport : Operation Unit := do
  Async.call .createTransport
  Async.await (some (s.created.mapError nativeError))

def transportConnect : Operation Unit := do
  Async.call .connect
  Async.await s.connected

/-- `closeTransport(…).catch(() => {})`. -/
def closeTransport : Operation Unit := do
  Async.call .closeTransport
  try Async.await s.closed
  catch _ => pure ()

end Surroundings

variable (js : Platform)

/-- `throw wrapSSHError(e)`. -/
def rethrow {α : Type} (e : Unknown) : Operation α :=
  match Errors.wrapSSHError js e with
  | .ok err => throw (.error err)
  | .error e => throw e

/-- The guard of `connect`. -/
def requirePin (s : Surroundings) : Operation Unit :=
  match pinMissing s.guardOptions s.guardOptions' with
  | none => throw js.thrown
  | some true => throw (.error (.ssh
      { errorClass := .hostKeyPinRequired
        message :=
          "ConnectionOptions.hostKeyPin is required. Use SSHClient.getServerFingerprint() for TOFU capture." }))
  | some false => pure ()

def requireInitialized (s : Surroundings) : Operation Unit :=
  if s.initialized then pure ()
  else throw (nativeError "SSHClient not initialized. Call initialize() first.")

/-- `SSHClient.connect`, up to the session id. -/
def connect (s : Surroundings) (sends : List Bytes) (go : WasmCall String) : Operation String := do
  requireInitialized s
  requirePin js s
  s.createTransport
  s.transportConnect
  try callWasm "connect" sends go
  catch e => do
    s.closeTransport
    rethrow js e

/-- `SSHClient.getServerFingerprint`. -/
def getServerFingerprint (s : Surroundings) (sends : List Bytes) (go : WasmCall HostKeyPin) :
    Operation HostKeyPin := do
  requireInitialized s
  s.createTransport
  s.transportConnect
  let body : Operation HostKeyPin :=
    try callWasm "getServerFingerprint" sends go
    catch e => rethrow js e
  body.finallyDo s.closeTransport

/-- `sftpOpen` of a session, up to the id of the handle. -/
def sftpOpen (go : WasmCall String) : Operation String :=
  try callWasm "sftpOpen" [] go
  catch e => rethrow js e

structure SFTPHandle where
  sftpSessionId : String
  closed : Bool
  deriving DecidableEq, Repr

/-- An argument in the place of a `Uint8Array`: another value has no elements, or it is null
or without `subarray`. -/
inductive BytesArgument
  | uint8Array (bytes : Bytes)
  | noElements
  | unreadable
  deriving DecidableEq, Repr

/-- `toBase64`, up to the text that it makes. -/
def toBase64 (bytes : BytesArgument) : Operation Unit :=
  match bytes with
  | .uint8Array _ | .noElements => pure ()
  | .unreadable => throw js.thrown

def SFTPHandle.ensureOpen (handle : SFTPHandle) : Operation Unit :=
  if handle.closed then
    throw (nativeError ("SFTPHandle " ++ handle.sftpSessionId ++ " has been closed"))
  else pure ()

/-- `SFTPHandle.put`. -/
def put (handle : SFTPHandle) (bytes : BytesArgument) (go : WasmCall Unit) : Operation Unit := do
  handle.ensureOpen
  toBase64 js bytes
  try callWasm "sftpPut" [] go
  catch e => rethrow js e

/-- `SFTPHandle.mkdir`. -/
def mkdir (handle : SFTPHandle) (go : WasmCall Unit) : Operation Unit := do
  handle.ensureOpen
  try callWasm "sftpMkdir" [] go
  catch e => rethrow js e

/-- `SFTPHandle.close`. -/
def close (handle : SFTPHandle) (go : WasmCall Unit) : Operation Unit :=
  if handle.closed then pure ()
  else
    let body : Operation Unit :=
      try callWasm "sftpClose" [] go
      catch e => rethrow js e
    body.finallyDo (Async.call .setClosed)

/-- A call of one of the operations, with what it meets. -/
inductive Invocation
  | connect (s : Surroundings) (sends : List Bytes) (go : WasmCall String)
  | getServerFingerprint (s : Surroundings) (sends : List Bytes) (go : WasmCall HostKeyPin)
  | sftpOpen (go : WasmCall String)
  | put (handle : SFTPHandle) (bytes : BytesArgument) (go : WasmCall Unit)
  | mkdir (handle : SFTPHandle) (go : WasmCall Unit)
  | close (handle : SFTPHandle) (go : WasmCall Unit)

/-- What the operation rejects with, if it does. -/
def Invocation.rejection : Invocation → Option Unknown
  | connect s sends go => (Operations.connect js s sends go).rejection
  | getServerFingerprint s sends go => (Operations.getServerFingerprint js s sends go).rejection
  | sftpOpen go => (Operations.sftpOpen js go).rejection
  | put handle bytes go => (Operations.put js handle bytes go).rejection
  | mkdir handle go => (Operations.mkdir js handle go).rejection
  | close handle go => (Operations.close js handle go).rejection

/-- The `code` is one of the seven. -/
def Typed (e : Unknown) : Prop := ∃ c : SSHErrorClass, e.code = some (.string c.code)

/-- What the promise of an export is rejected with behind `wrapSSHError`. -/
def WasmCall.wrapped {α : Type} (go : WasmCall α) : Option Unknown :=
  match go.promise with
  | some (.error e) => (rethrow js e : Operation α).rejection
  | _ => none

/-- If the export throws, then an error with one of the seven codes. -/
def WasmCall.Tells {α : Type} (go : WasmCall α) : Prop :=
  ∀ e, go = .thrown e → Typed (.error e)

variable {js}

theorem WasmCall.wrapped_typed_iff {α : Type} (go : WasmCall α) :
    (∀ e, go.wrapped js = some e → Typed e) ↔ go.Tells := by
  cases go with
  | thrown e =>
    constructor
    · rintro h e' heq
      cases heq
      exact h _ rfl
    · rintro h e' heq
      cases heq
      exact h e rfl
  | pending => exact iff_of_true (fun e h => nomatch h) fun e h => nomatch h
  | settled result =>
    refine iff_of_true (fun e h => ?_) fun e h => nomatch h
    cases result with
    | ok a => cases h
    | error err =>
      have hwrapped : ∃ x : SSHError,
          Errors.wrapSSHError js (.value (errorToJS err)) = .ok (.ssh x) := by
        cases err with
        | connectError ce => exact ⟨_, wrapSSHError_connectError js ce⟩
        | text message => exact ⟨_, rfl⟩
        | wrap message inner => exact ⟨_, rfl⟩
      obtain ⟨x, hx⟩ := hwrapped
      simp only [wrapped, promise, rethrow, hx] at h
      cases h
      exact ⟨x.errorClass, rfl⟩

theorem requireInitialized_settled (s : Surroundings) : (requireInitialized s).settled =
    if s.initialized then some (.ok ())
    else some (.error (nativeError "SSHClient not initialized. Call initialize() first.")) := by
  unfold requireInitialized
  split_ifs <;> rfl

theorem Surroundings.createTransport_settled (s : Surroundings) :
    s.createTransport.settled = some (s.created.mapError nativeError) := by
  rw [createTransport, Async.bind_settled]
  rfl

theorem Surroundings.transportConnect_settled (s : Surroundings) :
    s.transportConnect.settled = s.connected := by
  rw [transportConnect, Async.bind_settled]
  rfl

theorem Surroundings.closeTransport_settled (s : Surroundings) :
    s.closeTransport.settled = s.closed.map fun _ => .ok () := by
  rw [closeTransport, Async.bind_settled]
  rcases s.closed with _ | ⟨_ | _⟩
  · rfl
  · rfl
  · rfl

theorem callWasm_rejection {α : Type} (function : String) (sends : List Bytes) (go : WasmCall α) :
    ((tryCatch (callWasm function sends go) (rethrow js)).rejection) = go.wrapped js := by
  rw [Async.tryCatch_rejection]
  unfold WasmCall.wrapped callWasm Async.rejection
  rcases go.promise with _ | ⟨_ | _⟩
  · rfl
  · rfl
  · rfl

/-- Behind a rejection of Go the transport is closed, and `connect` rejects if that ends. -/
theorem catchConnect_rejection (s : Surroundings) (sends : List Bytes) (go : WasmCall String) :
    (tryCatch (callWasm "connect" sends go) fun e => do
      s.closeTransport
      rethrow js e).rejection = if s.closed.isNone then none else go.wrapped js := by
  have hhandler : ∀ e : Unknown,
      (do s.closeTransport; rethrow js e : Operation String).rejection =
        if s.closed.isNone then none else (rethrow js e : Operation String).rejection := by
    intro e
    rw [Async.bind_rejection, s.closeTransport_settled]
    cases s.closed <;> rfl
  rw [Async.tryCatch_rejection]
  unfold WasmCall.wrapped callWasm
  rcases hpromise : go.promise with _ | ⟨e | a⟩
  · simp [Async.rejection]
  · exact hhandler e
  · simp [Async.rejection]

theorem opening_rejection {α : Type} (s : Surroundings) (rest : Operation α) :
    (do s.createTransport; s.transportConnect; rest).rejection =
      match s.created, s.connected with
      | .error message, _ => some (nativeError message)
      | .ok _, none => none
      | .ok _, some (.error e) => some e
      | .ok _, some (.ok _) => rest.rejection := by
  rw [Async.bind_rejection, s.createTransport_settled]
  cases s.created with
  | error message => rfl
  | ok _ =>
    dsimp only [Except.mapError]
    rw [Async.bind_rejection, s.transportConnect_settled]
    rcases s.connected with _ | ⟨e | _⟩
    · rfl
    · rfl
    · rfl

/-- What an operation rejects with that has passed its guards. -/
def Surroundings.rejection (s : Surroundings) (wrapped : Option Unknown) : Option Unknown :=
  match s.created, s.connected with
  | .error message, _ => some (nativeError message)
  | .ok _, none => none
  | .ok _, some (.error e) => some e
  | .ok _, some (.ok _) => if s.closed.isNone then none else wrapped

def notInitialized : Unknown := nativeError "SSHClient not initialized. Call initialize() first."

theorem connect_rejection (s : Surroundings) (sends : List Bytes) (go : WasmCall String) :
    (connect js s sends go).rejection =
      if s.initialized then
        match pinMissing s.guardOptions s.guardOptions' with
        | some false => s.rejection (go.wrapped js)
        | _ => (requirePin js s).rejection
      else some notInitialized := by
  rw [connect, Async.bind_rejection, requireInitialized_settled]
  by_cases hinitialized : s.initialized = true
  · rw [if_pos hinitialized, if_pos hinitialized]
    dsimp only
    rw [Async.bind_rejection, requirePin, opening_rejection, catchConnect_rejection]
    rcases pinMissing s.guardOptions s.guardOptions' with _ | _ | _
    · rfl
    · rfl
    · rfl
  · rw [if_neg hinitialized, if_neg hinitialized]
    rfl

theorem getServerFingerprint_rejection (s : Surroundings) (sends : List Bytes)
    (go : WasmCall HostKeyPin) :
    (getServerFingerprint js s sends go).rejection =
      if s.initialized then s.rejection (go.wrapped js) else some notInitialized := by
  have hclosed : s.closeTransport.rejection = none := by
    rw [Async.rejection, s.closeTransport_settled]
    cases s.closed <;> rfl
  have hbody : ∀ body : Operation HostKeyPin, body.rejection = go.wrapped js →
      (body.finallyDo s.closeTransport).rejection =
        if s.closed.isNone then none else go.wrapped js := by
    intro body hwrapped
    rw [Async.finallyDo_rejection _ _ hclosed, hwrapped, s.closeTransport_settled,
      Option.isNone_map]
  rw [getServerFingerprint, Async.bind_rejection, requireInitialized_settled]
  by_cases hinitialized : s.initialized = true
  · rw [if_pos hinitialized, if_pos hinitialized]
    dsimp only
    rw [opening_rejection, hbody _ (callWasm_rejection _ sends go)]
    rfl
  · rw [if_neg hinitialized, if_neg hinitialized]
    rfl

theorem ensureOpen_settled (handle : SFTPHandle) : handle.ensureOpen.settled =
    if handle.closed then
      some (.error (nativeError ("SFTPHandle " ++ handle.sftpSessionId ++ " has been closed")))
    else some (.ok ()) := by
  unfold SFTPHandle.ensureOpen
  split_ifs <;> rfl

theorem put_rejection (handle : SFTPHandle) (bytes : BytesArgument) (go : WasmCall Unit) :
    (put js handle bytes go).rejection =
      if handle.closed then
        some (nativeError ("SFTPHandle " ++ handle.sftpSessionId ++ " has been closed"))
      else if bytes = .unreadable then some js.thrown
      else go.wrapped js := by
  rw [put, Async.bind_rejection, ensureOpen_settled]
  by_cases hclosed : handle.closed = true
  · rw [if_pos hclosed, if_pos hclosed]
  · rw [if_neg hclosed, if_neg hclosed]
    dsimp only
    rw [Async.bind_rejection, callWasm_rejection]
    cases bytes <;> rfl

theorem mkdir_rejection (handle : SFTPHandle) (go : WasmCall Unit) :
    (mkdir js handle go).rejection =
      if handle.closed then
        some (nativeError ("SFTPHandle " ++ handle.sftpSessionId ++ " has been closed"))
      else go.wrapped js := by
  rw [mkdir, Async.bind_rejection, ensureOpen_settled]
  by_cases hclosed : handle.closed = true
  · rw [if_pos hclosed, if_pos hclosed]
  · rw [if_neg hclosed, if_neg hclosed]
    exact callWasm_rejection _ _ go

theorem close_rejection (handle : SFTPHandle) (go : WasmCall Unit) :
    (close js handle go).rejection = if handle.closed then none else go.wrapped js := by
  unfold close
  by_cases hclosed : handle.closed = true
  · rw [if_pos hclosed, if_pos hclosed]
    rfl
  · rw [if_neg hclosed, if_neg hclosed, Async.finallyDo_rejection _ _ rfl, callWasm_rejection]
    rfl

/-- The WebSocket or the bridge cannot be opened: `createTransport` throws or
`transport.connect()` rejects. -/
def Surroundings.FailsToOpen (s : Surroundings) : Prop :=
  match s.created, s.connected with
  | .error _, _ | .ok _, some (.error _) => True
  | .ok _, _ => False

/-- The same for an operation that comes to it. -/
def Invocation.FailsToOpen : Invocation → Prop
  | connect s _ _ =>
    s.initialized = true ∧ pinMissing s.guardOptions s.guardOptions' = some false ∧ s.FailsToOpen
  | getServerFingerprint s _ _ => s.initialized = true ∧ s.FailsToOpen
  | sftpOpen _ | put _ _ _ | mkdir _ _ | close _ _ => False

/-- A rejection is typed, and a failure to open has the code of a transport error. -/
def Conforms (rejection : Option Unknown) (failsToOpen : Prop) : Prop :=
  (∀ e, rejection = some e → Typed e) ∧
    (failsToOpen → ∃ e, rejection = some e ∧ e.code = some (.string "transport-error"))

/-- The transport can be created, and what `transport.connect()` rejects with has the code of
a transport error itself; an export that throws tells what it throws, unless closing the
transport takes forever. -/
def Surroundings.Sound (s : Surroundings) (tells : Prop) : Prop :=
  match s.created, s.connected with
  | .error _, _ => False
  | .ok _, none => True
  | .ok _, some (.error e) => e.code = some (.string "transport-error")
  | .ok _, some (.ok _) => s.closed = none ∨ tells

/-- The client is initialized, the guard can read its options, the handle is open and its
bytes can be encoded; and no untyped error is thrown where a call goes on. -/
def Invocation.Sound : Invocation → Prop
  | connect s _ go =>
    s.initialized = true ∧ match pinMissing s.guardOptions s.guardOptions' with
      | none => False
      | some true => True
      | some false => s.Sound go.Tells
  | getServerFingerprint s _ go => s.initialized = true ∧ s.Sound go.Tells
  | sftpOpen go => go.Tells
  | put handle bytes go => handle.closed = false ∧ bytes ≠ .unreadable ∧ go.Tells
  | mkdir handle go => handle.closed = false ∧ go.Tells
  | close handle go => handle.closed = true ∨ go.Tells

theorem not_typed_nativeError (message : String) : ¬ Typed (nativeError message) := by
  rintro ⟨c, hc⟩
  cases hc

theorem not_conforms_native (message : String) (failsToOpen : Prop) :
    ¬ Conforms (some (nativeError message)) failsToOpen :=
  fun h => not_typed_nativeError message (h.1 _ rfl)

/-- Where nothing was to be opened, only the rejection counts. -/
theorem conforms_iff {rejection : Option Unknown} {failsToOpen : Prop} (h : ¬ failsToOpen) :
    Conforms rejection failsToOpen ↔ ∀ e, rejection = some e → Typed e :=
  and_iff_left fun hfails => absurd hfails h

theorem Surroundings.conforms_iff (s : Surroundings) {wrapped : Option Unknown} {tells : Prop}
    (hwrapped : (∀ e, wrapped = some e → Typed e) ↔ tells) :
    Conforms (s.rejection wrapped) s.FailsToOpen ↔ s.Sound tells := by
  unfold Surroundings.rejection Surroundings.FailsToOpen Surroundings.Sound
  cases s.created with
  | error message => exact iff_of_false (not_conforms_native message _) id
  | ok _ =>
    rcases s.connected with _ | ⟨e | _⟩
    · exact iff_of_true ⟨fun e h => (nomatch h), fun h => h.elim⟩ trivial
    · constructor
      · intro h
        obtain ⟨e', he', hcode⟩ := h.2 trivial
        cases he'
        exact hcode
      · intro hcode
        refine ⟨?_, fun _ => ⟨e, rfl, hcode⟩⟩
        rintro e' he'
        cases he'
        exact ⟨.transport, hcode⟩
    · dsimp only
      rw [Operations.conforms_iff id, ← hwrapped]
      cases s.closed with
      | none => exact iff_of_true (fun e h => (nomatch h)) (Or.inl rfl)
      | some ending => simp

theorem WasmCall.conforms_iff {α : Type} (go : WasmCall α) :
    Conforms (go.wrapped js) False ↔ go.Tells :=
  (Operations.conforms_iff id).trans go.wrapped_typed_iff

/-- A rejection of one of the six operations is typed, and a failure to open is a transport
error, exactly where the operation is sound. -/
theorem rejection_conforms_iff (js : Platform) (i : Invocation) :
    Conforms (i.rejection js) i.FailsToOpen ↔ i.Sound := by
  cases i with
  | connect s sends go =>
    have hwrapped : (∀ e, go.wrapped js = some e → Typed e) ↔ go.Tells := go.wrapped_typed_iff
    have hopened := s.conforms_iff hwrapped
    simp only [Invocation.rejection, Invocation.FailsToOpen, Invocation.Sound, connect_rejection]
    cases s.initialized with
    | false => exact iff_of_false (not_conforms_native _ _) fun h => nomatch h.1
    | true =>
      simp only [if_true, true_and, requirePin]
      rcases pinMissing s.guardOptions s.guardOptions' with _ | _ | _
      · exact iff_of_false (not_conforms_native js.typeError _) id
      · simpa using hopened
      · refine iff_of_true ((conforms_iff (by simp)).mpr ?_) trivial
        intro e he
        cases he
        exact ⟨.hostKeyPinRequired, rfl⟩
  | getServerFingerprint s sends go =>
    have hwrapped : (∀ e, go.wrapped js = some e → Typed e) ↔ go.Tells := go.wrapped_typed_iff
    have hopened := s.conforms_iff hwrapped
    simp only [Invocation.rejection, Invocation.FailsToOpen, Invocation.Sound,
      getServerFingerprint_rejection]
    cases s.initialized with
    | false => exact iff_of_false (not_conforms_native _ _) fun h => nomatch h.1
    | true => simpa using hopened
  | sftpOpen go =>
    rw [Invocation.rejection, sftpOpen, callWasm_rejection]
    exact go.conforms_iff
  | put handle bytes go =>
    simp only [Invocation.rejection, Invocation.FailsToOpen, Invocation.Sound, put_rejection]
    cases handle.closed with
    | true => exact iff_of_false (not_conforms_native _ _) fun h => nomatch h.1
    | false =>
      by_cases hbytes : bytes = .unreadable
      · simp only [hbytes, if_true, ne_eq, not_true_eq_false, false_and, and_false, iff_false]
        exact not_conforms_native js.typeError _
      · simpa [hbytes] using go.conforms_iff
  | mkdir handle go =>
    simp only [Invocation.rejection, Invocation.FailsToOpen, Invocation.Sound, mkdir_rejection]
    cases handle.closed with
    | true => exact iff_of_false (not_conforms_native _ _) fun h => nomatch h.1
    | false => simpa using go.conforms_iff
  | close handle go =>
    simp only [Invocation.rejection, Invocation.FailsToOpen, Invocation.Sound, close_rejection]
    cases handle.closed with
    | true => exact iff_of_true ((conforms_iff id).mpr fun e h => nomatch h) (Or.inl rfl)
    | false => simpa using go.conforms_iff

/-- A client that is initialized and a WebSocket that cannot be opened. -/
def refusedSocket : Surroundings where
  initialized := true
  guardOptions := optionsObject "SHA256:key"
  guardOptions' := optionsObject "SHA256:key"
  created := .ok ()
  connected := some (.error (nativeError "WebSocket error"))
  closed := some (.ok ())

/-- `connect` rejects with the native error of the WebSocket, which has no code, and so does
an operation on a handle that has been closed. -/
theorem rejection_untyped :
    (Invocation.connect refusedSocket [] .pending).rejection plainPlatform =
        some (nativeError "WebSocket error") ∧
      (Invocation.connect refusedSocket [] .pending).FailsToOpen ∧
      (nativeError "WebSocket error").code = some .undefined ∧
      ¬ Conforms ((Invocation.connect refusedSocket [] .pending).rejection plainPlatform)
        (Invocation.connect refusedSocket [] .pending).FailsToOpen ∧
      ¬ Conforms ((Invocation.mkdir ⟨"sftp-00", true⟩ .pending).rejection plainPlatform)
        (Invocation.mkdir ⟨"sftp-00", true⟩ .pending).FailsToOpen := by
  refine ⟨rfl, ⟨rfl, by decide +kernel, trivial⟩, rfl, ?_, ?_⟩
  · exact not_conforms_native "WebSocket error" _
  · exact not_conforms_native "SFTPHandle sftp-00 has been closed" _

end SshClientWasm.Ssh.Operations
