import SshClientWasm.Ssh.Options

/-!
# Errors of a connection attempt

A connection attempt fails with a `ConnectError`, either one made in place or
one that `classifyConnectError` finds in the chain of an error of the SSH
library or derives from its text.
-/
namespace SshClientWasm.Ssh

inductive ConnectErrorCode
  | hostKeyPinRequired
  | hostKeyMismatch
  | ppkNotSupported
  | invalidPrivateKey
  | authFailed
  | transportError
  | internal
  deriving DecidableEq, Repr

def ConnectErrorCode.text : ConnectErrorCode → String
  | hostKeyPinRequired => "host-key-pin-required"
  | hostKeyMismatch => "host-key-mismatch"
  | ppkNotSupported => "ppk-not-supported"
  | invalidPrivateKey => "invalid-private-key"
  | authFailed => "auth-failed"
  | transportError => "transport-error"
  | internal => "internal"

structure ConnectError where
  code : ConnectErrorCode
  message : String
  expected : Option HostKeyPin
  got : Option HostKeyPin
  deriving DecidableEq, Repr

def newConnectError (code : ConnectErrorCode) (message : String) : ConnectError :=
  ⟨code, message, none, none⟩

/-- `Error`. -/
def ConnectError.text (e : ConnectError) : String :=
  if e.message ≠ "" then e.code.text ++ ": " ++ e.message else e.code.text

/-- A Go error with what it wraps. -/
inductive GoError
  | connectError (e : ConnectError)
  | text (message : String)
  | wrap (message : String) (inner : GoError)
  deriving DecidableEq, Repr

namespace GoError

/-- `Error`. -/
def message : GoError → String
  | connectError e => e.text
  | text message => message
  | wrap message _ => message

/-- `errors.As` for a `ConnectError`: the first one in the chain. -/
def asConnectError : GoError → Option ConnectError
  | connectError e => some e
  | text _ => none
  | wrap _ inner => inner.asConnectError

end GoError

def containsAny (haystack : String) (needles : List String) : Bool :=
  needles.any fun n => decide (n.toList <:+: haystack.toList)

/-- `classifyConnectError`, for an error that is not nil. -/
def classifyConnectError (err : GoError) : ConnectError :=
  match err.asConnectError with
  | some ce => ce
  | none =>
    if containsAny err.message
        ["unable to authenticate", "ssh: handshake failed: ssh: unable to authenticate",
          "no supported methods remain", "permission denied"] then
      newConnectError .authFailed err.message
    else newConnectError .transportError err.message

/-- `looksLikePPK`. -/
def looksLikePPK (data : String) : Bool :=
  "PuTTY-User-Key-File".toList.isPrefixOf
    (data.toList.dropWhile fun c => c ∈ [' ', '\t', '\r', '\n'])

end SshClientWasm.Ssh
