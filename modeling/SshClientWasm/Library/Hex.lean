import SshClientWasm.Library.Bytes

/-!
# Hexadecimal text

Two lower case digits for each byte, the high one first. Texts that end in the
hexadecimal form of equally long byte strings are equal only if those are.
-/
namespace SshClientWasm.Library

def hexDigits (b : UInt8) : List Char :=
  [Nat.digitChar (b.toNat / 16), Nat.digitChar (b.toNat % 16)]

/-- The hexadecimal form of a byte string. -/
def hexEncode (s : Bytes) : String := String.ofList (s.flatMap hexDigits)

theorem digitChar_inj {m n : ℕ} (hm : m < 16) (hn : n < 16)
    (h : Nat.digitChar m = Nat.digitChar n) : m = n := by
  have hall : ∀ a b : Fin 16, Nat.digitChar a = Nat.digitChar b → a = b := by decide
  exact congrArg Fin.val (hall ⟨m, hm⟩ ⟨n, hn⟩ h)

theorem hexDigits_inj {a b : UInt8} (h : hexDigits a = hexDigits b) : a = b := by
  have ha := a.toNat_lt
  have hb := b.toNat_lt
  simp only [hexDigits, List.cons.injEq, and_true] at h
  have hhigh := digitChar_inj (by omega) (by omega) h.1
  have hlow := digitChar_inj (by omega) (by omega) h.2
  apply UInt8.toNat_inj.mp
  omega

theorem hexEncode_length (s : Bytes) : (hexEncode s).toList.length = 2 * s.length := by
  rw [hexEncode, String.toList_ofList]
  induction s with
  | nil => rfl
  | cons b s ih =>
    rw [List.flatMap_cons, List.length_append, ih, List.length_cons]
    simp only [hexDigits, List.length_cons, List.length_nil]
    omega

theorem hexEncode_inj {s t : Bytes} (h : hexEncode s = hexEncode t) : s = t := by
  have hlist : s.flatMap hexDigits = t.flatMap hexDigits := by
    simpa [hexEncode] using congrArg String.toList h
  clear h
  induction s generalizing t with
  | nil =>
    cases t with
    | nil => rfl
    | cons b t => simp [hexDigits] at hlist
  | cons a s ih =>
    cases t with
    | nil => simp [hexDigits] at hlist
    | cons b t =>
      rw [List.flatMap_cons, List.flatMap_cons] at hlist
      obtain ⟨hab, hst⟩ := List.append_inj hlist rfl
      rw [hexDigits_inj hab, ih hst]

/-- Texts that end in different byte strings of one length are different. -/
theorem append_hexEncode_inj {front front' : String} {s t : Bytes} (hlen : s.length = t.length)
    (h : front ++ hexEncode s = front' ++ hexEncode t) : s = t := by
  have hlist := congrArg String.toList h
  rw [String.toList_append, String.toList_append] at hlist
  have hend := (List.append_inj' hlist (by rw [hexEncode_length, hexEncode_length, hlen])).2
  exact hexEncode_inj (String.toList_inj.mp hend)

end SshClientWasm.Library
