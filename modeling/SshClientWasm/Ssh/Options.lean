import SshClientWasm.Ssh.JsValue

/-!
# Connection options

The options of a connection as Go has them, read from a JavaScript value. Each
property is read once. A pin is taken over only with a fingerprint that is a
nonempty string; everything else counts as no pin.
-/
namespace SshClientWasm.Ssh

/-- A server host key the caller is willing to trust. -/
structure HostKeyPin where
  algorithm : String
  sha256 : String
  deriving DecidableEq, Repr

structure ConnectionOptions where
  host : String
  port : ℤ
  user : String
  password : String
  privateKey : String
  timeout : ℤ
  hostKeyPin : Option HostKeyPin
  deriving DecidableEq, Repr

/-- A text, empty where the property is missing. -/
def stringField (jsObj : JsValue) (name : String) : Option String := do
  let v ← jsObj.get name
  let type ← v.type
  if type = .undefined then some "" else v.str

/-- A number, zero where the property is missing. -/
def intField (jsObj : JsValue) (name : String) : Option ℤ := do
  let v ← jsObj.get name
  let type ← v.type
  if type = .undefined then some 0 else v.int

/-- The algorithm of a pin, empty where it is no string. -/
def algorithmField (v : JsValue) : Option String := do
  let a ← v.get "algorithm"
  let type ← a.type
  if type = .string then a.str else some ""

/-- `parseHostKeyPin`; the inner `none` is "no pin supplied". -/
def parseHostKeyPin (v : JsValue) : Option (Option HostKeyPin) := do
  let type ← v.type
  if type ≠ .object then some none
  else
    let sha ← v.get "sha256"
    let shaType ← sha.type
    if shaType ≠ .string then some none
    else
      let sha256 ← sha.str
      if sha256 = "" then some none
      else
        let algo ← algorithmField v
        some (some ⟨algo, sha256⟩)

/-- The pin of the options. -/
def hostKeyPinField (jsObj : JsValue) : Option (Option HostKeyPin) := do
  let pin ← jsObj.get "hostKeyPin"
  let type ← pin.type
  if type = .object then parseHostKeyPin pin else some none

/-- `parseConnectionOptions`. -/
def parseConnectionOptions (jsObj : JsValue) : Option ConnectionOptions := do
  let host ← stringField jsObj "host"
  let port ← intField jsObj "port"
  let user ← stringField jsObj "user"
  let password ← stringField jsObj "password"
  let privateKey ← stringField jsObj "privateKey"
  let timeout ← intField jsObj "timeout"
  let hostKeyPin ← hostKeyPinField jsObj
  some ⟨host, port, user, password, privateKey, timeout, hostKeyPin⟩

variable {v jsObj : JsValue} {pin : HostKeyPin} {options : ConnectionOptions}

theorem parseHostKeyPin_eq_some (h : parseHostKeyPin v = some (some pin)) :
    pin.sha256 ≠ "" ∧ v.get "sha256" = some (.string pin.sha256) := by
  obtain ⟨type, _, h⟩ := Option.bind_eq_some_iff.mp h
  split_ifs at h
  · cases h
  obtain ⟨sha, hsha, h⟩ := Option.bind_eq_some_iff.mp h
  obtain ⟨shaType, hshaType, h⟩ := Option.bind_eq_some_iff.mp h
  split_ifs at h with hstring
  · cases h
  obtain ⟨sha256, hsha256, h⟩ := Option.bind_eq_some_iff.mp h
  split_ifs at h with hempty
  · cases h
  obtain ⟨algo, _, h⟩ := Option.bind_eq_some_iff.mp h
  cases h
  have hvalue := JsValue.eq_string_of_type (hshaType.trans (congrArg some (not_not.mp hstring)))
    hsha256
  exact ⟨hempty, hvalue ▸ hsha⟩

theorem parseConnectionOptions_pin (h : parseConnectionOptions jsObj = some options)
    (hpin : options.hostKeyPin = some pin) :
    ∃ v, jsObj.get "hostKeyPin" = some v ∧ parseHostKeyPin v = some (some pin) := by
  obtain ⟨host, _, h⟩ := Option.bind_eq_some_iff.mp h
  obtain ⟨port, _, h⟩ := Option.bind_eq_some_iff.mp h
  obtain ⟨user, _, h⟩ := Option.bind_eq_some_iff.mp h
  obtain ⟨password, _, h⟩ := Option.bind_eq_some_iff.mp h
  obtain ⟨privateKey, _, h⟩ := Option.bind_eq_some_iff.mp h
  obtain ⟨timeout, _, h⟩ := Option.bind_eq_some_iff.mp h
  obtain ⟨hostKeyPin, hfield, h⟩ := Option.bind_eq_some_iff.mp h
  cases h
  subst hpin
  obtain ⟨v, hv, hfield⟩ := Option.bind_eq_some_iff.mp hfield
  obtain ⟨type, _, hparse⟩ := Option.bind_eq_some_iff.mp hfield
  split_ifs at hparse
  · exact ⟨v, hv, hparse⟩
  · cases hparse

end SshClientWasm.Ssh
