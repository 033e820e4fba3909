import Mathlib.Data.List.Basic
import Mathlib.Tactic

/-!
# Byte strings

Sixteen bit big-endian numbers as `DataView.getUint16` and `setUint16` read and
write them, and the slices of fixed size that a loop stepping through an array
visits. Writing a number that does not fit wraps modulo `2 ^ 16`.
-/
namespace SshClientWasm.Library

abbrev Bytes := List UInt8

/-- Read two bytes as a big-endian number. -/
def getUint16 (hi lo : UInt8) : ℕ := 256 * hi.toNat + lo.toNat

/-- Write a number as two big-endian bytes, modulo `2 ^ 16`. -/
def setUint16 (n : ℕ) : Bytes := [UInt8.ofNat (n / 256), UInt8.ofNat n]

theorem getUint16_setUint16 {n : ℕ} (h : n < 65536) :
    getUint16 (UInt8.ofNat (n / 256)) (UInt8.ofNat n) = n := by
  unfold getUint16
  rw [UInt8.toNat_ofNat', UInt8.toNat_ofNat']
  omega

section Slices

variable {α : Type*}

/-- Slices of size `n` from the front; the first argument bounds their number. -/
def slicesFrom (n : ℕ) : ℕ → List α → List (List α)
  | 0, _ => []
  | _ + 1, [] => []
  | fuel + 1, x :: xs => (x :: xs).take n :: slicesFrom n fuel ((x :: xs).drop n)

/-- The slices visited by a loop over the offsets `0, n, 2n, …` below the length. -/
def slices (n : ℕ) (xs : List α) : List (List α) := slicesFrom n xs.length xs

theorem slicesFrom_flatten {n : ℕ} (hn : 0 < n) :
    ∀ (fuel : ℕ) (xs : List α), xs.length ≤ fuel → (slicesFrom n fuel xs).flatten = xs := by
  intro fuel
  induction fuel with
  | zero =>
    intro xs h
    rw [List.length_eq_zero_iff.mp (Nat.le_zero.mp h)]
    rfl
  | succ fuel ih =>
    intro xs h
    cases xs with
    | nil => rfl
    | cons x xs =>
      have hdrop : ((x :: xs).drop n).length ≤ fuel := by
        rw [List.length_drop]
        simp only [List.length_cons] at h ⊢
        omega
      rw [slicesFrom, List.flatten_cons, ih _ hdrop, List.take_append_drop]

theorem slices_flatten {n : ℕ} (hn : 0 < n) (xs : List α) : (slices n xs).flatten = xs :=
  slicesFrom_flatten hn xs.length xs le_rfl

theorem slicesFrom_bounds {n : ℕ} (hn : 0 < n) :
    ∀ (fuel : ℕ) (xs s : List α), s ∈ slicesFrom n fuel xs → s ≠ [] ∧ s.length ≤ n := by
  intro fuel
  induction fuel with
  | zero =>
    intro xs s hs
    cases hs
  | succ fuel ih =>
    intro xs s hs
    cases xs with
    | nil => cases hs
    | cons x xs =>
      rcases List.mem_cons.mp hs with rfl | hs
      · refine ⟨?_, List.length_take_le _ _⟩
        obtain ⟨m, rfl⟩ := Nat.exists_eq_succ_of_ne_zero hn.ne'
        exact List.cons_ne_nil _ _
      · exact ih _ s hs

theorem slices_bounds {n : ℕ} (hn : 0 < n) {xs s : List α} (hs : s ∈ slices n xs) :
    s ≠ [] ∧ s.length ≤ n :=
  slicesFrom_bounds hn xs.length xs s hs

theorem slices_single {n : ℕ} {xs : List α} (hne : xs ≠ []) (hlen : xs.length ≤ n) :
    slices n xs = [xs] := by
  cases xs with
  | nil => exact absurd rfl hne
  | cons x xs =>
    rw [slices, List.length_cons, slicesFrom, List.take_of_length_le hlen,
      List.drop_eq_nil_of_le hlen]
    cases xs.length <;> rfl

end Slices
end SshClientWasm.Library
