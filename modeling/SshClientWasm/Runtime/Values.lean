import SshClientWasm.Library.Handles
import SshClientWasm.Library.Memory

/-!
# Values in the memory of the Go program

`wasm_exec.js` writes a JavaScript value into eight bytes of the memory: a number as
itself, anything else as a NaN whose low half is an id into a table of values. The
predefined values have the first ids. What is kept outside of the table, the event
loop and the exit of the program, is left out.
-/
namespace SshClientWasm.Runtime

open Library

def nanHead : ℕ := 0x7FF80000

/-- A double by its bits: the exponent is all ones and there is a fraction. -/
def IsNaN (bits : ℕ) : Prop := bits / 2 ^ 52 % 2 ^ 11 = 2047 ∧ bits % 2 ^ 52 ≠ 0

instance : DecidablePred IsNaN := fun _ => inferInstanceAs (Decidable (_ ∧ _))

/-- A JavaScript number. Its NaNs cannot be told apart: there is one. -/
structure Number where
  bits : ℕ
  lt : bits < 2 ^ 64
  canonical : IsNaN bits → bits = nanHead * 2 ^ 32
deriving DecidableEq

namespace Number

/-- The number that a double of these bits is read as. -/
def ofBits (bits : ℕ) : Number :=
  if h : IsNaN (bits % 2 ^ 64) then ⟨nanHead * 2 ^ 32, by decide, fun _ => rfl⟩
  else ⟨bits % 2 ^ 64, Nat.mod_lt _ (by decide), fun hnan => absurd hnan h⟩

def nan : Number := ofBits (nanHead * 2 ^ 32)

def zero : Number := ofBits 0

/-- `=== 0`, which `-0` is too. -/
def IsZero (x : Number) : Prop := x.bits % 2 ^ 63 = 0

instance : DecidablePred IsZero := fun x => inferInstanceAs (Decidable (x.bits % 2 ^ 63 = 0))

@[simp] theorem ofBits_bits (x : Number) : ofBits x.bits = x := by
  obtain ⟨bits, hlt, hcanonical⟩ := x
  have hmod : bits % 2 ^ 64 = bits := Nat.mod_eq_of_lt hlt
  by_cases h : IsNaN (bits % 2 ^ 64)
  · simp only [ofBits, dif_pos h, Number.mk.injEq]
    exact (hcanonical (hmod ▸ h)).symm
  · simp only [ofBits, dif_neg h]
    simp only [hmod]

theorem isZero_zero : zero.IsZero := by decide

end Number

/-- A JavaScript value; objects, functions and symbols by their identity. -/
inductive Value
  | undefined
  | null
  | boolean (b : Bool)
  | number (x : Number)
  | bigint (z : ℤ)
  | string (units : List UInt16)
  | symbol (n : ℕ)
  | object (n : ℕ)
  | function (n : ℕ)
deriving DecidableEq

namespace Value

def globalThis : Value := .object 0

/-- The instance of the class `Go`. -/
def go : Value := .object 1

/-- The value as a key of a `Map`, where `-0` is the same as `0`. -/
def mapKey : Value → Value
  | .number x => if x.IsZero then .number .zero else .number x
  | v => v

/-- Values that are stored as an id: all but numbers other than zero, and `undefined`. -/
def IsRef : Value → Prop
  | .undefined => False
  | .number x => x.IsZero
  | _ => True

instance : DecidablePred IsRef
  | .undefined => inferInstanceAs (Decidable False)
  | .number x => inferInstanceAs (Decidable x.IsZero)
  | .null | .boolean _ | .bigint _ | .string _ | .symbol _ | .object _ | .function _ =>
    inferInstanceAs (Decidable True)

/-- The kind of a value that its reference tells. -/
def typeFlag : Value → ℕ
  | .object _ => 1
  | .string _ => 2
  | .symbol _ => 3
  | .function _ => 4
  | _ => 0

theorem typeFlag_lt (v : Value) : v.typeFlag < 5 := by
  cases v <;> simp [typeFlag]

theorem mapKey_of_not_isRef {v : Value} (h : ¬v.IsRef) : v.mapKey = v := by
  cases v with
  | number x => exact if_neg h
  | _ => rfl

theorem isRef_mapKey (v : Value) : v.mapKey.IsRef ↔ v.IsRef := by
  cases v with
  | number x =>
    by_cases hx : x.IsZero
    · rw [mapKey, if_pos hx]
      exact iff_of_true Number.isZero_zero hx
    · rw [mapKey, if_neg hx]
  | _ => exact Iff.rfl

theorem typeFlag_mapKey (v : Value) : v.mapKey.typeFlag = v.typeFlag := by
  cases v with
  | number x =>
    by_cases hx : x.IsZero
    · rw [mapKey, if_pos hx]
      rfl
    · rw [mapKey, if_neg hx]
  | _ => rfl

theorem isRef_iff_of_mapKey {v v' : Value} (h : v.mapKey = v'.mapKey) : v.IsRef ↔ v'.IsRef := by
  rw [← isRef_mapKey v, h, isRef_mapKey]

theorem typeFlag_of_mapKey {v v' : Value} (h : v.mapKey = v'.mapKey) :
    v.typeFlag = v'.typeFlag := by
  rw [← typeFlag_mapKey v, h, typeFlag_mapKey]

end Value

/-- `setInt64`. -/
def setInt64 (mem : Memory) (addr : ℕ) (v : ℤ) : Memory :=
  ((mem.setUint 4 addr (v % 4294967296).toNat).setUint 4 (addr + 4)
    (v / 4294967296 % 4294967296).toNat)

/-- `DataView.getInt32`. -/
def getInt32 (mem : Memory) (addr : ℕ) : ℤ :=
  let n := mem.getUint 4 addr
  if n < 2 ^ 31 then n else (n : ℤ) - 4294967296

/-- `getInt64`. -/
def getInt64 (mem : Memory) (addr : ℕ) : ℤ :=
  mem.getUint 4 addr + getInt32 mem (addr + 4) * 4294967296

/-- The parts of the class `Go` that values are passed through: the memory, and
`_values`, `_goRefCounts`, `_ids` and `_idPool`. -/
structure Go where
  mem : Memory
  table : Handles Value

/-- The values that `run` starts with. -/
def predefined : List Value :=
  [.number .nan, .number .zero, .null, .boolean true, .boolean false, .globalThis, .go]

/-- Their ids; `NaN` is never looked up. -/
def predefinedIds : List (Value × ℕ) :=
  [(.number .zero, 1), (.null, 2), (.boolean true, 3), (.boolean false, 4), (.globalThis, 5),
    (.go, 6)]

theorem predefined_of_id {v : Value} {id : ℕ} (h : predefinedIds.lookup v = some id) :
    predefined[id]? = some v ∧ id < predefined.length := by
  have hall : ∀ e ∈ predefinedIds, predefined[e.2]? = some e.1 ∧ e.2 < predefined.length := by
    decide
  obtain ⟨front, back, heq, -⟩ := List.lookup_eq_some_iff.mp h
  exact hall (v, id) (heq ▸ List.mem_append_right front List.mem_cons_self)

namespace Go

/-- What `run` initializes. -/
def start (mem : Memory) : Go where
  mem := mem
  table :=
    { values := predefined
      refCounts := predefined.map fun _ => ⊤
      ids := fun v => predefinedIds.lookup v
      idPool := [] }

/-- `loadValue`. -/
def loadValue (s : Go) (addr : ℕ) : Value :=
  let f := Number.ofBits (s.mem.getUint 8 addr)
  if f.IsZero then .undefined
  else if ¬IsNaN f.bits then .number f
  else (s.table.values[s.mem.getUint 4 addr]?).getD .undefined

/-- `storeValue` where it looks the value up in `_ids`. Only `-0` is not its own key
there, and `0` always has an id. -/
def storeRef (s : Go) (addr : ℕ) (v : Value) : Go :=
  let (table, id) := s.table.acquire v.mapKey
  { mem := (s.mem.setUint 4 (addr + 4) (nanHead ||| v.typeFlag)).setUint 4 addr id
    table := table }

/-- `storeValue`. -/
def storeValue (s : Go) (addr : ℕ) (v : Value) : Go :=
  match v with
  | .number x =>
    if ¬x.IsZero then
      if IsNaN x.bits then
        { s with mem := (s.mem.setUint 4 (addr + 4) nanHead).setUint 4 addr 0 }
      else { s with mem := s.mem.setUint 8 addr x.bits }
    else s.storeRef addr v
  | .undefined => { s with mem := s.mem.setUint 8 addr 0 }
  | _ => s.storeRef addr v

/-- `finalizeRef`: the reference is at `sp + 8`. -/
def finalizeRef (s : Go) (sp : ℕ) : Go :=
  { s with table := s.table.release .null (s.mem.getUint 4 (sp + 8)) }

end Go

/-- The eight bytes that stand for a value, given its id. -/
def word (v : Value) (id : ℕ) : ℕ :=
  match v with
  | .undefined => 0
  | .number x => if x.IsZero then id % 2 ^ 32 + nanHead * 2 ^ 32 else x.bits
  | _ => id % 2 ^ 32 + (nanHead + v.typeFlag) * 2 ^ 32

theorem word_of_isRef {v : Value} (h : v.IsRef) (id : ℕ) :
    word v id = id % 2 ^ 32 + (nanHead + v.typeFlag) * 2 ^ 32 := by
  cases v with
  | undefined => exact h.elim
  | number x => exact if_pos h
  | _ => rfl

theorem word_of_not_isRef {v : Value} (h : ¬v.IsRef) (id id' : ℕ) : word v id = word v id' := by
  cases v with
  | undefined => rfl
  | number x =>
    have hx : ¬x.IsZero := h
    rw [word, word, if_neg hx, if_neg hx]
  | _ => exact absurd trivial h

theorem word_lt (v : Value) (id : ℕ) : word v id < 256 ^ 8 := by
  have hflag := v.typeFlag_lt
  by_cases h : v.IsRef
  · rw [word_of_isRef h]
    unfold nanHead
    omega
  · cases v with
    | undefined => exact Nat.pow_pos (by decide)
    | number x =>
      have hx : ¬x.IsZero := h
      rw [word, if_neg hx]
      exact x.lt
    | _ => exact absurd trivial h

theorem nanHead_or_typeFlag (v : Value) : nanHead ||| v.typeFlag = nanHead + v.typeFlag := by
  have hor : ∀ flag < 5, nanHead ||| flag = nanHead + flag := by decide
  exact hor _ v.typeFlag_lt

theorem getUint_halves (mem : Memory) (addr lo hi : ℕ) :
    ((mem.setUint 4 (addr + 4) hi).setUint 4 addr lo).getUint 8 addr =
      lo % 2 ^ 32 + hi % 2 ^ 32 * 2 ^ 32 := by
  rw [Memory.getUint_add 4 4, Memory.getUint_setUint,
    Memory.getUint_setUint_apart (Or.inr le_rfl), Memory.getUint_setUint]
  norm_num
  ring

theorem getUint_low (mem : Memory) (addr : ℕ) :
    mem.getUint 4 addr = mem.getUint 8 addr % 2 ^ 32 := by
  have hlt := Memory.getUint_lt 4 mem addr
  rw [Memory.getUint_add 4 4]
  norm_num at hlt ⊢
  omega

namespace Go

variable {s : Go} {addr : ℕ} {v : Value}

theorem storeValue_of_isRef (h : v.IsRef) : s.storeValue addr v = s.storeRef addr v := by
  cases v with
  | undefined => exact h.elim
  | number x => exact if_neg (not_not.mpr h)
  | _ => rfl

theorem storeValue_table_of_not_isRef (h : ¬v.IsRef) : (s.storeValue addr v).table = s.table := by
  cases v with
  | undefined => rfl
  | number x =>
    have hx : ¬x.IsZero := h
    simp only [storeValue]
    rw [if_pos hx]
    split_ifs <;> rfl
  | _ => exact absurd trivial h

theorem storeRef_word (h : v.IsRef) : (s.storeRef addr v).mem.getUint 8 addr =
    word v (s.table.acquire v.mapKey).2 := by
  have hflag := v.typeFlag_lt
  have hmod : (nanHead + v.typeFlag) % 2 ^ 32 = nanHead + v.typeFlag :=
    Nat.mod_eq_of_lt (by unfold nanHead; omega)
  rw [word_of_isRef h]
  simp only [storeRef]
  rw [getUint_halves, nanHead_or_typeFlag, hmod]

theorem storeValue_word_of_not_isRef (h : ¬v.IsRef) (id : ℕ) :
    (s.storeValue addr v).mem.getUint 8 addr = word v id := by
  cases v with
  | undefined => exact Memory.getUint_setUint 8 s.mem addr 0
  | number x =>
    have hx : ¬x.IsZero := h
    simp only [storeValue, word]
    rw [if_pos hx, if_neg hx]
    split_ifs with hnan
    · rw [getUint_halves, x.canonical hnan]
      rfl
    · exact (Memory.getUint_setUint 8 s.mem addr x.bits).trans (Nat.mod_eq_of_lt x.lt)
  | _ => exact absurd trivial h

/-- What a word means, given the table. -/
def denote (table : Handles Value) (w : ℕ) : Value :=
  let f := Number.ofBits w
  if f.IsZero then .undefined
  else if ¬IsNaN f.bits then .number f
  else (table.values[w % 2 ^ 32]?).getD .undefined

theorem loadValue_eq : s.loadValue addr = denote s.table (s.mem.getUint 8 addr) := by
  rw [loadValue, denote, getUint_low]

end Go

theorem isNaN_head {lo flag : ℕ} (hlo : lo < 2 ^ 32) (hflag : flag < 5) :
    IsNaN (lo + (nanHead + flag) * 2 ^ 32) := by
  unfold IsNaN nanHead at *
  omega

theorem denote_ref {table : Handles Value} {v k : Value} {id : ℕ} (h : v.IsRef)
    (hid : id < 2 ^ 32) (hval : table.values[id]? = some k) :
    Go.denote table (word v id) = k := by
  have hflag := v.typeFlag_lt
  rw [word_of_isRef h, Nat.mod_eq_of_lt hid]
  have hlt : id + (nanHead + v.typeFlag) * 2 ^ 32 < 2 ^ 64 := by
    unfold nanHead
    omega
  have hnan : IsNaN (id + (nanHead + v.typeFlag) * 2 ^ 32) :=
    isNaN_head hid hflag
  have hbits : (Number.ofBits (id + (nanHead + v.typeFlag) * 2 ^ 32)).bits = nanHead * 2 ^ 32 := by
    unfold Number.ofBits
    rw [dif_pos ((Nat.mod_eq_of_lt hlt).symm ▸ hnan)]
  unfold Go.denote
  simp only [Number.IsZero, hbits]
  rw [if_neg (by decide), if_neg (by decide),
    show (id + (nanHead + v.typeFlag) * 2 ^ 32) % 2 ^ 32 = id by omega, hval, Option.getD_some]

theorem denote_plain {table : Handles Value} {v : Value} (h : ¬v.IsRef) (id : ℕ)
    (hnan : table.values[0]? = some (.number .nan)) : Go.denote table (word v id) = v := by
  cases v with
  | undefined => exact if_pos Number.isZero_zero
  | number x =>
    have hx : ¬x.IsZero := h
    rw [word, if_neg hx, Go.denote, Number.ofBits_bits]
    simp only [if_neg hx]
    split_ifs with hbits
    · have hbits' : x.bits = Number.nan.bits := x.canonical hbits
      have heq : x = Number.nan := by
        rw [← Number.ofBits_bits x, hbits', Number.ofBits_bits]
      rw [hbits', show Number.nan.bits % 2 ^ 32 = 0 by decide, hnan, heq, Option.getD_some]
    · rfl
  | _ => exact absurd trivial h

end SshClientWasm.Runtime
