import SshClientWasm.Library.Bytes

/-!
# A linear memory

A memory has a byte at every address. Byte strings are stored and loaded at an
address; numbers are stored with their least significant byte first, modulo the
width. What is loaded from where nothing was stored stays as it was.
-/
namespace SshClientWasm.Library

/-- The lowest `w` bytes of a number, the least significant one first. -/
def leBytes : ℕ → ℕ → Bytes
  | 0, _ => []
  | w + 1, n => UInt8.ofNat n :: leBytes w (n / 256)

/-- The number that bytes stand for, the least significant one first. -/
def leNat : Bytes → ℕ
  | [] => 0
  | b :: bytes => b.toNat + 256 * leNat bytes

@[simp] theorem leBytes_length : ∀ (w n : ℕ), (leBytes w n).length = w := by
  intro w
  induction w with
  | zero => exact fun _ => rfl
  | succ w ih =>
    intro n
    rw [leBytes, List.length_cons, ih]

theorem leNat_leBytes : ∀ (w n : ℕ), leNat (leBytes w n) = n % 256 ^ w := by
  intro w
  induction w with
  | zero => exact fun n => (Nat.mod_one n).symm
  | succ w ih =>
    intro n
    have hpow : n % 256 ^ (w + 1) = n % 256 + 256 * (n / 256 % 256 ^ w) := by
      rw [pow_succ', Nat.mod_mul]
    rw [leBytes, leNat, ih, UInt8.toNat_ofNat', hpow]

theorem leNat_lt : ∀ bytes : Bytes, leNat bytes < 256 ^ bytes.length := by
  intro bytes
  induction bytes with
  | nil => exact Nat.one_pos
  | cons b bytes ih =>
    have hb := b.toNat_lt
    rw [leNat, List.length_cons, pow_succ']
    omega

theorem leNat_append (front back : Bytes) :
    leNat (front ++ back) = leNat front + 256 ^ front.length * leNat back := by
  induction front with
  | nil => simp [leNat]
  | cons b front ih =>
    rw [List.cons_append, leNat, leNat, ih, List.length_cons, pow_succ']
    ring

abbrev Memory := ℕ → UInt8

namespace Memory

/-- The memory with bytes stored from an address on. -/
def store (mem : Memory) (addr : ℕ) (bytes : Bytes) : Memory :=
  fun a => if addr ≤ a then (bytes[a - addr]?).getD (mem a) else mem a

/-- The bytes from an address on. -/
def load (mem : Memory) (addr n : ℕ) : Bytes := (List.range' addr n).map mem

@[simp] theorem load_length (mem : Memory) (addr n : ℕ) : (mem.load addr n).length = n := by
  rw [load, List.length_map, List.length_range']

theorem store_outside {mem : Memory} {addr a : ℕ} {bytes : Bytes}
    (h : a < addr ∨ addr + bytes.length ≤ a) : mem.store addr bytes a = mem a := by
  unfold store
  split_ifs with hle
  · rw [List.getElem?_eq_none (by omega), Option.getD_none]
  · rfl

theorem load_congr {mem mem' : Memory} {addr n : ℕ}
    (h : ∀ a, addr ≤ a → a < addr + n → mem a = mem' a) : mem.load addr n = mem'.load addr n := by
  refine List.map_congr_left fun a ha => ?_
  obtain ⟨hge, hlt⟩ := List.mem_range'_1.mp ha
  exact h a hge hlt

/-- What is stored is what is loaded. -/
theorem load_store (mem : Memory) (addr : ℕ) (bytes : Bytes) :
    (mem.store addr bytes).load addr bytes.length = bytes := by
  refine List.ext_getElem (load_length ..) fun i hi hlt => ?_
  simp only [load, List.getElem_map, List.getElem_range', store]
  rw [if_pos (by omega), show addr + 1 * i - addr = i by omega, List.getElem?_eq_getElem hlt,
    Option.getD_some]

theorem load_store_apart {mem : Memory} {addr addr' n : ℕ} {bytes : Bytes}
    (h : addr' + n ≤ addr ∨ addr + bytes.length ≤ addr') :
    (mem.store addr bytes).load addr' n = mem.load addr' n :=
  load_congr fun _ _ _ => store_outside (by omega)

theorem load_add (mem : Memory) (addr m n : ℕ) :
    mem.load addr (m + n) = mem.load addr m ++ mem.load (addr + m) n := by
  simp only [load]
  rw [← List.map_append, List.range'_append_1]

theorem store_append (mem : Memory) (addr : ℕ) (front back : Bytes) :
    (mem.store addr front).store (addr + front.length) back = mem.store addr (front ++ back) := by
  funext a
  unfold store
  by_cases hback : addr + front.length ≤ a
  · rw [if_pos hback, if_pos (by omega), if_pos (by omega), List.getElem?_append_right (by omega),
      List.getElem?_eq_none (l := front) (by omega), Option.getD_none,
      show a - addr - front.length = a - (addr + front.length) by omega]
  · rw [if_neg hback]
    split_ifs with hfront
    · rw [List.getElem?_append_left (by omega)]
    · rfl

/-- A number of `w` bytes. -/
def setUint (w : ℕ) (mem : Memory) (addr n : ℕ) : Memory := mem.store addr (leBytes w n)

def getUint (w : ℕ) (mem : Memory) (addr : ℕ) : ℕ := leNat (mem.load addr w)

/-- A number comes back modulo the width. -/
theorem getUint_setUint (w : ℕ) (mem : Memory) (addr n : ℕ) :
    getUint w (setUint w mem addr n) addr = n % 256 ^ w := by
  have h := load_store mem addr (leBytes w n)
  rw [leBytes_length] at h
  rw [getUint, setUint, h, leNat_leBytes]

theorem getUint_setUint_apart {w w' : ℕ} {mem : Memory} {addr addr' n : ℕ}
    (h : addr' + w' ≤ addr ∨ addr + w ≤ addr') :
    getUint w' (setUint w mem addr n) addr' = getUint w' mem addr' := by
  rw [getUint, setUint, load_store_apart (by rwa [leBytes_length]), getUint]

theorem getUint_lt (w : ℕ) (mem : Memory) (addr : ℕ) : getUint w mem addr < 256 ^ w := by
  have h := leNat_lt (mem.load addr w)
  rwa [load_length] at h

theorem getUint_add (v w : ℕ) (mem : Memory) (addr : ℕ) :
    getUint (v + w) mem addr = getUint v mem addr + 256 ^ v * getUint w mem (addr + v) := by
  rw [getUint, load_add, leNat_append, load_length]
  rfl

theorem setUint_outside {w : ℕ} {mem : Memory} {addr a n : ℕ} (h : a < addr ∨ addr + w ≤ a) :
    setUint w mem addr n a = mem a :=
  store_outside (by rwa [leBytes_length])

/-- The bytes up to the first that is zero, where one is within reach. -/
def cstring (mem : Memory) : ℕ → ℕ → Bytes
  | 0, _ => []
  | fuel + 1, addr => if mem addr = 0 then [] else mem addr :: cstring mem fuel (addr + 1)

theorem cstring_of_load {mem : Memory} : ∀ {bytes : Bytes} {addr fuel : ℕ},
    mem.load addr (bytes.length + 1) = bytes ++ [0] → bytes.length < fuel →
      mem.cstring fuel addr = bytes.takeWhile (· ≠ 0) := by
  intro bytes
  induction bytes with
  | nil =>
    intro addr fuel hload hfuel
    obtain ⟨fuel, rfl⟩ := Nat.exists_eq_succ_of_ne_zero (Nat.ne_of_gt hfuel)
    have hzero : mem addr = 0 := (List.cons.inj hload).1
    rw [cstring, if_pos hzero, List.takeWhile_nil]
  | cons b bytes ih =>
    intro addr fuel hload hfuel
    obtain ⟨fuel, rfl⟩ := Nat.exists_eq_succ_of_ne_zero (Nat.ne_of_gt (Nat.zero_lt_of_lt hfuel))
    obtain ⟨hb, hrest⟩ := List.cons.inj hload
    rw [cstring, hb]
    by_cases hzero : b = 0
    · rw [if_pos hzero, List.takeWhile_cons_of_neg (by simpa using hzero)]
    · rw [if_neg hzero, List.takeWhile_cons_of_pos (by simpa using hzero)]
      exact congrArg (b :: ·) (ih hrest (Nat.lt_of_succ_lt_succ hfuel))

end Memory
end SshClientWasm.Library
