import SshClientWasm.Runtime.Strings
import SshClientWasm.Ssh.Pinning

/-!
# Errors on their way to TypeScript

`errorToJS` makes a JavaScript value of a Go error, and `wrapSSHError` one of the typed
errors of that. A code always survives both; a message and the two pins of a mismatch do
unless a string of them begins with a byte order mark, which is lost on the way.
-/
namespace SshClientWasm.Ssh.Errors

open Library

/-- The subclasses of `SSHError`. -/
inductive SSHErrorClass
  | hostKeyPinRequired
  | hostKeyMismatch
  | ppkFormat
  | invalidPrivateKey
  | authFailed
  | transport
  | internalSSH
  deriving DecidableEq, Repr

namespace SSHErrorClass

def code : SSHErrorClass → String
  | hostKeyPinRequired => "host-key-pin-required"
  | hostKeyMismatch => "host-key-mismatch"
  | ppkFormat => "ppk-not-supported"
  | invalidPrivateKey => "invalid-private-key"
  | authFailed => "auth-failed"
  | transport => "transport-error"
  | internalSSH => "internal"

/-- The class of a code in Go. -/
def ofCode : ConnectErrorCode → SSHErrorClass
  | .hostKeyPinRequired => hostKeyPinRequired
  | .hostKeyMismatch => hostKeyMismatch
  | .ppkNotSupported => ppkFormat
  | .invalidPrivateKey => invalidPrivateKey
  | .authFailed => authFailed
  | .transportError => transport
  | .internal => internalSSH

end SSHErrorClass

/-- A typed error. Only a mismatch sets `expected` and `got`. -/
structure SSHError where
  errorClass : SSHErrorClass
  message : String
  expected : JsValue := .undefined
  got : JsValue := .undefined

/-- What `instanceof Error` accepts: a typed error, or any other with its `code`. -/
inductive JsError
  | native (message : String) (code : JsValue)
  | ssh (e : SSHError)

/-- The type `unknown`. -/
inductive Unknown
  | error (e : JsError)
  | value (v : JsValue)

/-- What the platform adds: the text of a value that is no string, for `String(v)` and in the
constructor of an error, and the message of the error where a property cannot be read. -/
structure Platform where
  string : JsValue → Except Unknown String
  message : JsValue → Except Unknown String
  typeError : String

namespace Platform

variable (js : Platform)

def toString : JsValue → Except Unknown String
  | .string s => .ok s
  | v => js.string v

def toMessage : JsValue → Except Unknown String
  | .string s => .ok s
  | v => js.message v

def thrown : Unknown := .error (.native js.typeError .undefined)

def read (v : JsValue) (name : String) : Except Unknown JsValue :=
  (v.property name).elim (.error js.thrown) .ok

end Platform

/-- `v ?? w` takes `w`. -/
def nullish : JsValue → Bool
  | .undefined | .null => true
  | _ => false

/-- The `switch` over the code. -/
def errorClass : JsValue → SSHErrorClass
  | .string "host-key-pin-required" => .hostKeyPinRequired
  | .string "host-key-mismatch" => .hostKeyMismatch
  | .string "ppk-not-supported" => .ppkFormat
  | .string "invalid-private-key" => .invalidPrivateKey
  | .string "auth-failed" => .authFailed
  | .string "transport-error" => .transport
  | _ => .internalSSH

/-- `wrapSSHError`. -/
def wrapSSHError (js : Platform) : Unknown → Except Unknown JsError
  | .error e => .ok e
  | .value (.string s) => .ok (.ssh { errorClass := .internalSSH, message := s })
  | .value (.object properties) => do
    let r : JsValue := .object properties
    let message ← js.read r "message"
    let msg ← if nullish message then do
        let code ← js.read r "code"
        let text ← js.toString (if nullish code then .string "unknown" else code)
        .ok (.string text)
      else .ok message
    let code ← js.read r "code"
    if errorClass code = .hostKeyMismatch then do
      let expected ← js.read r "expected"
      let got ← js.read r "got"
      let message ← js.toMessage msg
      .ok (.ssh ⟨.hostKeyMismatch, message, expected, got⟩)
    else do
      let message ← js.toMessage msg
      .ok (.ssh { errorClass := errorClass code, message := message })
  | .value v => do
    let text ← js.toString v
    .ok (.ssh { errorClass := .internalSSH, message := text })

section ValueOf

/-- `js.ValueOf` of a string. Its bytes are decoded, and the decoder takes a byte order mark
in front for no part of the text. -/
def valueOf (s : String) : String :=
  String.ofList (dropMark (Coding.utf8.decode (Coding.utf8.encode s.toList)))

def Unmarked (s : String) : Prop := s.toList.head? ≠ some byteOrderMark

instance : DecidablePred Unmarked := fun s =>
  inferInstanceAs (Decidable (s.toList.head? ≠ some byteOrderMark))

theorem valueOf_toList (s : String) : (valueOf s).toList = dropMark s.toList := by
  rw [valueOf, Coding.decode_encode, String.toList_ofList]

theorem valueOf_eq_self_iff {s : String} : valueOf s = s ↔ Unmarked s := by
  rw [← String.toList_inj, valueOf_toList]
  exact dropMark_eq_self_iff

theorem decode_encode_valueOf (s : String) :
    Runtime.TextDecoder.decode (Coding.utf8.encode s.toList) =
      Coding.utf16.encode (valueOf s).toList := by
  rw [Runtime.TextDecoder.decode, Coding.decode_encode, valueOf_toList]

theorem valueOf_code (c : ConnectErrorCode) : valueOf c.text = c.text := by
  refine valueOf_eq_self_iff.mpr ?_
  cases c <;> decide +kernel

def pinValueOf (pin : HostKeyPin) : HostKeyPin := ⟨valueOf pin.algorithm, valueOf pin.sha256⟩

end ValueOf

/-- An object with the fields of a pin. -/
def pinToJS (pin : HostKeyPin) : JsValue :=
  .object fun name => some <|
    if name = "algorithm" then .string pin.algorithm
    else if name = "sha256" then .string pin.sha256
    else .undefined

/-- A pin as `errorToJS` writes it, if there is one. -/
def pinField (pin : Option HostKeyPin) : JsValue :=
  pin.elim .undefined fun pin => pinToJS (pinValueOf pin)

/-- `errorToJS`: a `ConnectError` as an object, any other error as its text. -/
def errorToJS : GoError → JsValue
  | .connectError ce =>
    .object fun name => some <|
      if name = "code" then .string (valueOf ce.code.text)
      else if name = "message" then .string (valueOf ce.message)
      else if name = "expected" then pinField ce.expected
      else if name = "got" then pinField ce.got
      else .undefined
  | err => .string (valueOf err.message)

/-- The `code` of a value, as a caller reads it. -/
def Unknown.code : Unknown → Option JsValue
  | .error (.native _ code) => some code
  | .error (.ssh e) => some (.string e.errorClass.code)
  | .value v => v.property "code"

/-- An error wraps a `ConnectError` at some depth of its chain. -/
inductive Wraps (ce : ConnectError) : GoError → Prop
  | self : Wraps ce (.connectError ce)
  | wrap (message : String) {inner : GoError} (h : Wraps ce inner) : Wraps ce (.wrap message inner)

/-- The properties of a pin are those of Go; without a pin there is no object. -/
def Shows (v : JsValue) : Option HostKeyPin → Prop
  | none => v = .undefined
  | some pin =>
    v.property "algorithm" = some (.string pin.algorithm) ∧
      v.property "sha256" = some (.string pin.sha256)

/-- The typed error of a `ConnectError`. -/
def sshError (ce : ConnectError) : SSHError where
  errorClass := .ofCode ce.code
  message := valueOf ce.message
  expected := if ce.code = .hostKeyMismatch then pinField ce.expected else .undefined
  got := if ce.code = .hostKeyMismatch then pinField ce.got else .undefined

theorem wrapSSHError_connectError (js : Platform) (ce : ConnectError) :
    wrapSSHError js (.value (errorToJS (.connectError ce))) = .ok (.ssh (sshError ce)) := by
  obtain ⟨code, message, expected, got⟩ := ce
  simp only [errorToJS, valueOf_code]
  cases code <;> rfl

theorem wrapSSHError_agrees (js : Platform) (ce : ConnectError) :
    ∃ ce', Ssh.wrapSSHError (.connectError ce) = .ssh ce' ∧
      wrapSSHError js (.value (errorToJS (.connectError ce))) = .ok (.ssh (sshError ce')) := by
  rw [wrapSSHError_connectError]
  obtain ⟨code, message, expected, got⟩ := ce
  cases code <;> exact ⟨_, rfl, rfl⟩

theorem wrapSSHError_text_agrees (js : Platform) (text : String) :
    ∃ ce', Ssh.wrapSSHError (.text text) = .ssh ce' ∧
      wrapSSHError js (.value (errorToJS (.text text))) = .ok (.ssh (sshError ce')) :=
  ⟨_, rfl, rfl⟩

variable {Key Signer Conn : Type*}

/-- A platform that describes everything the same way. -/
def plainPlatform : Platform where
  string := fun _ => .ok "[object Object]"
  message := fun _ => .ok "[object Object]"
  typeError := "Cannot read properties of undefined"

end SshClientWasm.Ssh.Errors
