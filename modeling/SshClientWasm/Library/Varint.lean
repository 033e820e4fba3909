import SshClientWasm.Library.Bytes

/-!
# Base 128 varints and delimited byte strings

Seven bits a byte, least significant group first, the high bit set on every byte
but the last. A delimited byte string is its length as a varint and the bytes.
Reading back what was written consumes exactly that much of the input.
-/
namespace SshClientWasm.Library

def putVarintFrom : ℕ → ℕ → Bytes
  | 0, n => [UInt8.ofNat n]
  | fuel + 1, n =>
    if n < 128 then [UInt8.ofNat n]
    else UInt8.ofNat (n % 128 + 128) :: putVarintFrom fuel (n / 128)

def putVarint (n : ℕ) : Bytes := putVarintFrom n n

/-- Read one varint; `none` when the input ends inside it. -/
def getVarint : Bytes → Option (ℕ × Bytes)
  | [] => none
  | b :: rest =>
    if b.toNat < 128 then some (b.toNat, rest)
    else (getVarint rest).map fun p => (b.toNat - 128 + 128 * p.1, p.2)

theorem getVarint_putVarintFrom : ∀ (fuel n : ℕ) (rest : Bytes), n ≤ fuel →
    getVarint (putVarintFrom fuel n ++ rest) = some (n, rest) := by
  intro fuel
  induction fuel with
  | zero =>
    intro n rest h
    have hn : n = 0 := Nat.le_zero.mp h
    subst hn
    rfl
  | succ fuel ih =>
    intro n rest h
    rw [putVarintFrom]
    by_cases hn : n < 128
    · have hbyte : (UInt8.ofNat n).toNat = n := by
        rw [UInt8.toNat_ofNat']
        omega
      rw [if_pos hn, List.singleton_append, getVarint, hbyte, if_pos hn]
    · have hbyte : (UInt8.ofNat (n % 128 + 128)).toNat = n % 128 + 128 := by
        rw [UInt8.toNat_ofNat']
        omega
      have hrest : getVarint (putVarintFrom fuel (n / 128) ++ rest) = some (n / 128, rest) :=
        ih _ rest (by omega)
      rw [if_neg hn, List.cons_append, getVarint, hbyte, if_neg (by omega), hrest]
      simp only [Option.map_some, Option.some.injEq, Prod.mk.injEq, and_true]
      omega

/-- A written varint is read back, whatever follows it. -/
theorem getVarint_putVarint (n : ℕ) (rest : Bytes) :
    getVarint (putVarint n ++ rest) = some (n, rest) :=
  getVarint_putVarintFrom n n rest le_rfl

theorem putVarint_ne_nil (n : ℕ) : putVarint n ≠ [] := by
  intro h
  have hread := getVarint_putVarint n []
  rw [h] at hread
  cases hread

/-- The number of bytes of a varint. -/
def varintSize (n : ℕ) : ℕ := Nat.log 128 n + 1

theorem putVarintFrom_length : ∀ (fuel n : ℕ), n ≤ fuel →
    (putVarintFrom fuel n).length = varintSize n := by
  intro fuel
  induction fuel with
  | zero =>
    intro n h
    rw [Nat.le_zero.mp h]
    rfl
  | succ fuel ih =>
    intro n h
    rw [putVarintFrom, varintSize]
    by_cases hn : n < 128
    · rw [if_pos hn, Nat.log_of_lt hn]
      rfl
    · rw [if_neg hn, List.length_cons, ih _ (by omega),
        Nat.log_of_one_lt_of_le (by omega) (Nat.le_of_not_lt hn), varintSize]

@[simp] theorem putVarint_length (n : ℕ) : (putVarint n).length = varintSize n :=
  putVarintFrom_length n n le_rfl

theorem varintSize_mono {m n : ℕ} (h : m ≤ n) : varintSize m ≤ varintSize n :=
  Nat.add_le_add_right (Nat.log_mono_right h) 1

theorem varintSize_eq_one {n : ℕ} (h : n < 128) : varintSize n = 1 :=
  congrArg (· + 1) (Nat.log_of_lt h)

theorem varintSize_eq {n k : ℕ} (hlow : 128 ^ k ≤ n) (hhigh : n < 128 ^ (k + 1)) :
    varintSize n = k + 1 :=
  congrArg (· + 1) (Nat.log_eq_of_pow_le_of_lt_pow hlow hhigh)

/-- A byte string behind its length. -/
def putDelimited (b : Bytes) : Bytes := putVarint b.length ++ b

/-- The number of bytes of a delimited string of `n` bytes. -/
def delimitedSize (n : ℕ) : ℕ := varintSize n + n

@[simp] theorem putDelimited_length (b : Bytes) : (putDelimited b).length = delimitedSize b.length := by
  rw [putDelimited, List.length_append, putVarint_length, delimitedSize]

theorem delimitedSize_mono {m n : ℕ} (h : m ≤ n) : delimitedSize m ≤ delimitedSize n :=
  Nat.add_le_add (varintSize_mono h) h

def getDelimited (s : Bytes) : Option (Bytes × Bytes) :=
  (getVarint s).bind fun p =>
    if p.2.length < p.1 then none else some (p.2.take p.1, p.2.drop p.1)

theorem getDelimited_putDelimited (b rest : Bytes) :
    getDelimited (putDelimited b ++ rest) = some (b, rest) := by
  rw [getDelimited, putDelimited, List.append_assoc, getVarint_putVarint, Option.bind_some]
  dsimp only
  rw [if_neg (by simp), List.take_left, List.drop_left]

end SshClientWasm.Library
