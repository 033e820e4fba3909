import Mathlib.Tactic

/-!
# JavaScript values

The values that options are made of, as TypeScript reads their properties and as
the accessors of `syscall/js` read them. Those panic on values of the wrong type;
`none` stands for a panic, and for a property whose getter throws.
-/
namespace SshClientWasm.Ssh

/-- The types that `Value.Type` tells apart. -/
inductive JsType
  | undefined
  | null
  | boolean
  | number
  | string
  | symbol
  | object
  | function
  deriving DecidableEq, Repr

/-- What is read of a number: its truth value, its text, and the integer Go makes of it. -/
structure JsNumber where
  truthy : Bool
  text : String
  int : ℤ
  deriving DecidableEq, Repr

/-- A value. An object is known by its properties; without one it has `undefined` there. -/
inductive JsValue
  | undefined
  | null
  | boolean (b : Bool)
  | number (n : JsNumber)
  | bigint (truthy : Bool)
  | string (s : String)
  | symbol
  | object (properties : String → Option JsValue)
  | function (properties : String → Option JsValue)

namespace JsValue

/-- `Value.Type`, which does not know big integers. -/
def type : JsValue → Option JsType
  | undefined => some .undefined
  | null => some .null
  | boolean _ => some .boolean
  | number _ => some .number
  | bigint _ => none
  | string _ => some .string
  | symbol => some .symbol
  | object _ => some .object
  | function _ => some .function

/-- `Value.Get`. -/
def get (v : JsValue) (name : String) : Option JsValue :=
  match v with
  | object properties | function properties => properties name
  | _ => none

/-- `Value.String`, which describes what is no string. -/
def str : JsValue → Option String
  | undefined => some "<undefined>"
  | null => some "<null>"
  | boolean b => some ("<boolean: " ++ toString b ++ ">")
  | number n => some ("<number: " ++ n.text ++ ">")
  | bigint _ => none
  | string s => some s
  | symbol => some "<symbol>"
  | object _ => some "<object>"
  | function _ => some "<function>"

/-- `Value.Int`. -/
def int : JsValue → Option ℤ
  | number n => some n.int
  | _ => none

def truthy : JsValue → Bool
  | undefined | null => false
  | boolean b => b
  | number n => n.truthy
  | bigint b => b
  | string s => s ≠ ""
  | symbol | object _ | function _ => true

/-- A property as TypeScript reads it. -/
def property (v : JsValue) (name : String) : Option JsValue :=
  match v with
  | undefined | null => none
  | object properties | function properties => properties name
  | _ => some undefined

theorem eq_string_of_type {v : JsValue} {s : String} (htype : v.type = some .string)
    (hstr : v.str = some s) : v = .string s := by
  cases v <;> simp_all [type, str]

end JsValue
end SshClientWasm.Ssh
