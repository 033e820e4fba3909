import SshClientWasm.Library.Bytes

/-!
# Texts as bytes and as code units

A text is a list of characters. UTF-8 makes bytes of it, UTF-16 makes 16-bit code units.
The decoders read every list of bytes and every list of code units: what stands for no
character is read as a replacement character.
-/
namespace SshClientWasm.Library

/-- Read in the place of what stands for no character. -/
def replacement : Char := '\uFFFD'

/-- The character that marks the order of bytes at the beginning of a text. -/
def byteOrderMark : Char := '\uFEFF'

/-- The text behind its mark. -/
def dropMark : List Char → List Char
  | [] => []
  | c :: text => if c = byteOrderMark then text else c :: text

theorem dropMark_eq_self_iff {text : List Char} :
    dropMark text = text ↔ text.head? ≠ some byteOrderMark := by
  cases text with
  | nil => exact iff_of_true rfl (by simp)
  | cons c text =>
    rw [dropMark, List.head?_cons, ne_eq, Option.some_inj]
    split_ifs with h
    · exact iff_of_false (fun heq => List.cons_ne_self c text heq.symm) (not_not.mpr h)
    · exact iff_of_true rfl h

/-- A way to write characters as lists, which is read back however it goes on. -/
structure Coding (β : Type*) where
  encodeChar : Char → List β
  decode : List β → List Char
  decode_nil : decode [] = []
  decode_encodeChar : ∀ c x, decode (encodeChar c ++ x) = c :: decode x

namespace Coding

variable {β : Type*} (C : Coding β)

def encode (text : List Char) : List β := text.flatMap C.encodeChar

theorem encode_cons (c : Char) (text : List Char) :
    C.encode (c :: text) = C.encodeChar c ++ C.encode text := by
  rw [encode, encode, List.flatMap_cons]

theorem encode_append (text rest : List Char) :
    C.encode (text ++ rest) = C.encode text ++ C.encode rest := List.flatMap_append

theorem decode_encode_append (text : List Char) (x : List β) :
    C.decode (C.encode text ++ x) = text ++ C.decode x := by
  induction text with
  | nil => rfl
  | cons c text ih => rw [encode_cons, List.append_assoc, decode_encodeChar, ih, List.cons_append]

theorem decode_encode (text : List Char) : C.decode (C.encode text) = text := by
  have happend := C.decode_encode_append text []
  rwa [List.append_nil, decode_nil, List.append_nil] at happend

theorem encode_injective : Function.Injective C.encode :=
  Function.LeftInverse.injective C.decode_encode

/-- What is written is the form of a text. -/
def IsText (x : List β) : Prop := ∃ text, C.encode text = x

theorem isText_iff {x : List β} : C.IsText x ↔ C.encode (C.decode x) = x := by
  constructor
  · rintro ⟨text, rfl⟩
    rw [decode_encode]
  · exact fun h => ⟨C.decode x, h⟩

instance [DecidableEq β] : DecidablePred C.IsText := fun _ => decidable_of_iff _ C.isText_iff.symm

/-- The form of the mark. -/
def mark : List β := C.encodeChar byteOrderMark

theorem mark_isPrefix_iff (text : List Char) :
    C.mark <+: C.encode text ↔ text.head? = some byteOrderMark := by
  constructor
  · rintro ⟨rest, heq⟩
    have hdecode : byteOrderMark :: C.decode rest = text := by
      rw [← C.decode_encodeChar, ← C.decode_encode text, ← heq]
      rfl
    rw [← hdecode, List.head?_cons]
  · intro hhead
    obtain ⟨rest, rfl⟩ := List.head?_eq_some_iff.mp hhead
    exact ⟨C.encode rest, (C.encode_cons byteOrderMark rest).symm⟩

/-- What is read without a mark and written again is the same for texts that have none. -/
theorem encode_dropMark_iff {x : List β} :
    C.encode (dropMark (C.decode x)) = x ↔ C.IsText x ∧ ¬C.mark <+: x := by
  constructor
  · intro heq
    have htext : C.IsText x := ⟨_, heq⟩
    have hself : dropMark (C.decode x) = C.decode x :=
      C.encode_injective (heq.trans (C.isText_iff.mp htext).symm)
    refine ⟨htext, fun hmark => dropMark_eq_self_iff.mp hself ?_⟩
    rw [← C.isText_iff.mp htext] at hmark
    exact (C.mark_isPrefix_iff _).mp hmark
  · rintro ⟨⟨text, rfl⟩, hmark⟩
    have hhead : text.head? ≠ some byteOrderMark :=
      fun hhead => hmark ((C.mark_isPrefix_iff text).mpr hhead)
    rw [decode_encode, dropMark_eq_self_iff.mpr hhead]

end Coding

namespace Utf8

/-- Where a decoder is between two bytes: how many more the character needs, what it comes
to so far and the range of the next byte. -/
structure State where
  needed : ℕ
  codePoint : ℕ
  lower : ℕ
  upper : ℕ

/-- Between two characters. -/
def State.idle : State := ⟨0, 0, 0x80, 0xBF⟩

/-- A byte at the beginning of a character. -/
def first (b : UInt8) : State × List Char :=
  let n := b.toNat
  if n ≤ 0x7F then (.idle, [Char.ofNat n])
  else if 0xC2 ≤ n ∧ n ≤ 0xDF then (⟨1, n - 0xC0, 0x80, 0xBF⟩, [])
  else if 0xE0 ≤ n ∧ n ≤ 0xEF then
    (⟨2, n - 0xE0, if n = 0xE0 then 0xA0 else 0x80, if n = 0xED then 0x9F else 0xBF⟩, [])
  else if 0xF0 ≤ n ∧ n ≤ 0xF4 then
    (⟨3, n - 0xF0, if n = 0xF0 then 0x90 else 0x80, if n = 0xF4 then 0x8F else 0xBF⟩, [])
  else (.idle, [replacement])

/-- One byte: where the decoder is then, and what it has read. -/
def step (s : State) (b : UInt8) : State × List Char :=
  if s.needed = 0 then first b
  else if s.lower ≤ b.toNat ∧ b.toNat ≤ s.upper then
    let codePoint := s.codePoint * 0x40 + (b.toNat - 0x80)
    if s.needed = 1 then (.idle, [Char.ofNat codePoint])
    else (⟨s.needed - 1, codePoint, 0x80, 0xBF⟩, [])
  else
    -- the byte is not part of this character, but it may begin another one
    let (t, read) := first b
    (t, replacement :: read)

def decodeFrom (s : State) : Bytes → List Char
  | [] => if s.needed = 0 then [] else [replacement]
  | b :: bytes => (step s b).2 ++ decodeFrom (step s b).1 bytes

def decode (bytes : Bytes) : List Char := decodeFrom .idle bytes

theorem first_one {n : ℕ} (h : n ≤ 0x7F) : first (UInt8.ofNat n) = (.idle, [Char.ofNat n]) := by
  have hn : (UInt8.ofNat n).toNat = n := by
    rw [UInt8.toNat_ofNat']
    omega
  simp only [first, hn]
  rw [if_pos h]

theorem first_two {n : ℕ} (hlow : 2 ≤ n) (hhigh : n < 0x20) :
    first (UInt8.ofNat (n + 0xC0)) = (⟨1, n, 0x80, 0xBF⟩, []) := by
  have hn : (UInt8.ofNat (n + 0xC0)).toNat = n + 0xC0 := by
    rw [UInt8.toNat_ofNat']
    omega
  simp only [first, hn]
  rw [if_neg (by omega), if_pos (by omega), Nat.add_sub_cancel]

theorem first_three {n : ℕ} (hhigh : n < 0x10) :
    first (UInt8.ofNat (n + 0xE0)) =
      (⟨2, n, if n = 0 then 0xA0 else 0x80, if n = 0xD then 0x9F else 0xBF⟩, []) := by
  have hn : (UInt8.ofNat (n + 0xE0)).toNat = n + 0xE0 := by
    rw [UInt8.toNat_ofNat']
    omega
  simp only [first, hn]
  rw [if_neg (by omega), if_neg (by omega), if_pos (by omega), Nat.add_sub_cancel]
  simp only [show n + 0xE0 = 0xE0 ↔ n = 0 by omega, show n + 0xE0 = 0xED ↔ n = 0xD by omega]

theorem first_four {n : ℕ} (hhigh : n ≤ 4) :
    first (UInt8.ofNat (n + 0xF0)) =
      (⟨3, n, if n = 0 then 0x90 else 0x80, if n = 4 then 0x8F else 0xBF⟩, []) := by
  have hn : (UInt8.ofNat (n + 0xF0)).toNat = n + 0xF0 := by
    rw [UInt8.toNat_ofNat']
    omega
  simp only [first, hn]
  rw [if_neg (by omega), if_neg (by omega), if_neg (by omega), if_pos (by omega),
    Nat.add_sub_cancel]
  simp only [show n + 0xF0 = 0xF0 ↔ n = 0 by omega, show n + 0xF0 = 0xF4 ↔ n = 4 by omega]

theorem step_next {k codePoint lower upper n : ℕ} (hn : n < 0x40) (hlower : lower ≤ n + 0x80)
    (hupper : n + 0x80 ≤ upper) :
    step ⟨k + 2, codePoint, lower, upper⟩ (UInt8.ofNat (n + 0x80)) =
      (⟨k + 1, codePoint * 0x40 + n, 0x80, 0xBF⟩, []) := by
  have hbyte : (UInt8.ofNat (n + 0x80)).toNat = n + 0x80 := by
    rw [UInt8.toNat_ofNat']
    omega
  simp only [step, hbyte]
  rw [if_neg (by omega), if_pos ⟨hlower, hupper⟩, if_neg (by omega), Nat.add_sub_cancel]
  rfl

theorem step_last {codePoint lower upper n : ℕ} (hn : n < 0x40) (hlower : lower ≤ n + 0x80)
    (hupper : n + 0x80 ≤ upper) :
    step ⟨1, codePoint, lower, upper⟩ (UInt8.ofNat (n + 0x80)) =
      (.idle, [Char.ofNat (codePoint * 0x40 + n)]) := by
  have hbyte : (UInt8.ofNat (n + 0x80)).toNat = n + 0x80 := by
    rw [UInt8.toNat_ofNat']
    omega
  simp only [step, hbyte]
  rw [if_neg (by decide), if_pos ⟨hlower, hupper⟩, if_pos trivial, Nat.add_sub_cancel]

theorem decodeFrom_of_step {s t : State} {b : UInt8} {read : List Char} (h : step s b = (t, read))
    (bytes : Bytes) : decodeFrom s (b :: bytes) = read ++ decodeFrom t bytes := by
  rw [decodeFrom, h]

theorem decodeFrom_of_first {t : State} {b : UInt8} {read : List Char} (h : first b = (t, read))
    (bytes : Bytes) : decodeFrom .idle (b :: bytes) = read ++ decodeFrom t bytes :=
  decodeFrom_of_step (show step .idle b = (t, read) from (if_pos rfl).trans h) bytes

/-- The bytes of a character are read as the character. -/
theorem decodeFrom_encodeChar (c : Char) (bytes : Bytes) :
    decodeFrom .idle (String.utf8EncodeChar c ++ bytes) = c :: decodeFrom .idle bytes := by
  have hvalid : c.toNat < 0xD800 ∨ 0xDFFF < c.toNat ∧ c.toNat < 0x110000 := c.valid
  have hc : Char.ofNat c.toNat = c := Char.ofNat_toNat c
  generalize hn : c.toNat = n at hvalid hc
  have hval : c.val.toNat = n := hn
  unfold String.utf8EncodeChar
  simp only [hval]
  split_ifs with h1 h2 h3
  · rw [List.cons_append, decodeFrom_of_first (first_one h1), hc]
    rfl
  · simp only [List.cons_append, List.nil_append]
    rw [decodeFrom_of_first (first_two (by omega) (by omega)),
      decodeFrom_of_step (step_last (by omega) (by omega) (by omega)),
      show n / 64 % 0x20 * 0x40 + n % 0x40 = n by omega, hc]
    rfl
  · simp only [List.cons_append, List.nil_append]
    rw [decodeFrom_of_first (first_three (by omega)),
      decodeFrom_of_step (step_next (k := 0) (by omega) (by split_ifs <;> omega)
        (by split_ifs <;> omega)),
      decodeFrom_of_step (step_last (by omega) (by omega) (by omega)),
      show (n / 4096 % 0x10 * 0x40 + n / 64 % 0x40) * 0x40 + n % 0x40 = n by omega, hc]
    rfl
  · simp only [List.cons_append, List.nil_append]
    rw [decodeFrom_of_first (first_four (by omega)),
      decodeFrom_of_step (step_next (k := 1) (by omega) (by split_ifs <;> omega)
        (by split_ifs <;> omega)),
      decodeFrom_of_step (step_next (k := 0) (by omega) (by omega) (by omega)),
      decodeFrom_of_step (step_last (by omega) (by omega) (by omega)),
      show ((n / 262144 % 0x08 * 0x40 + n / 4096 % 0x40) * 0x40 + n / 64 % 0x40) * 0x40 +
        n % 0x40 = n by omega, hc]
    rfl

/-- A character that is cut off, and the byte behind it. -/
example : decode [0xE2, 0x82, 0x41] = [replacement, 'A'] := by decide

end Utf8

namespace Utf16

/-- A character beyond `0xFFFF` is a pair of surrogates. -/
def encodeChar (c : Char) : List UInt16 :=
  if c.toNat < 0x10000 then [UInt16.ofNat c.toNat]
  else
    [UInt16.ofNat (0xD800 + (c.toNat - 0x10000) / 0x400),
      UInt16.ofNat (0xDC00 + (c.toNat - 0x10000) % 0x400)]

/-- The first half of a pair. -/
def IsHigh (u : UInt16) : Prop := 0xD800 ≤ u.toNat ∧ u.toNat < 0xDC00

instance : DecidablePred IsHigh := fun _ => inferInstanceAs (Decidable (_ ∧ _))

/-- The second half. -/
def IsLow (u : UInt16) : Prop := 0xDC00 ≤ u.toNat ∧ u.toNat < 0xE000

instance : DecidablePred IsLow := fun _ => inferInstanceAs (Decidable (_ ∧ _))

/-- A code unit outside of a pair. -/
def single (u : UInt16) : Char := if IsHigh u ∨ IsLow u then replacement else Char.ofNat u.toNat

def decode : List UInt16 → List Char
  | [] => []
  | [u] => [single u]
  | u :: v :: units =>
    if IsHigh u ∧ IsLow v then
      Char.ofNat (0x10000 + (u.toNat - 0xD800) * 0x400 + (v.toNat - 0xDC00)) :: decode units
    else single u :: decode (v :: units)

theorem decode_cons_of_not_isHigh {u : UInt16} (h : ¬IsHigh u) (units : List UInt16) :
    decode (u :: units) = single u :: decode units := by
  cases units with
  | nil => rfl
  | cons v units =>
    rw [decode, if_neg fun hpair => h hpair.1]

theorem decode_encodeChar (c : Char) (units : List UInt16) :
    decode (encodeChar c ++ units) = c :: decode units := by
  have hvalid : c.toNat < 0xD800 ∨ 0xDFFF < c.toNat ∧ c.toNat < 0x110000 := c.valid
  have hc : Char.ofNat c.toNat = c := Char.ofNat_toNat c
  by_cases h : c.toNat < 0x10000
  · have hu : (UInt16.ofNat c.toNat).toNat = c.toNat := by
      rw [UInt16.toNat_ofNat']
      omega
    have hhigh : ¬IsHigh (UInt16.ofNat c.toNat) := by
      rw [IsHigh, hu]
      omega
    have hlow : ¬IsLow (UInt16.ofNat c.toNat) := by
      rw [IsLow, hu]
      omega
    rw [encodeChar, if_pos h, List.cons_append, List.nil_append,
      decode_cons_of_not_isHigh hhigh, single, if_neg (not_or.mpr ⟨hhigh, hlow⟩), hu, hc]
  · have hu : (UInt16.ofNat (0xD800 + (c.toNat - 0x10000) / 0x400)).toNat =
        0xD800 + (c.toNat - 0x10000) / 0x400 := by
      rw [UInt16.toNat_ofNat']
      omega
    have hv : (UInt16.ofNat (0xDC00 + (c.toNat - 0x10000) % 0x400)).toNat =
        0xDC00 + (c.toNat - 0x10000) % 0x400 := by
      rw [UInt16.toNat_ofNat']
      omega
    rw [encodeChar, if_neg h, List.cons_append, List.cons_append, List.nil_append, decode,
      if_pos (by rw [IsHigh, IsLow, hu, hv]; omega), hu, hv,
      show 0x10000 + (0xD800 + (c.toNat - 0x10000) / 0x400 - 0xD800) * 0x400 +
        (0xDC00 + (c.toNat - 0x10000) % 0x400 - 0xDC00) = c.toNat by omega, hc]

/-- The first half of a pair that is not completed. -/
example : decode [0xD83D, 0x41] = [replacement, 'A'] := by decide

end Utf16

namespace Coding

def utf8 : Coding UInt8 where
  encodeChar := String.utf8EncodeChar
  decode := Utf8.decode
  decode_nil := rfl
  decode_encodeChar := Utf8.decodeFrom_encodeChar

def utf16 : Coding UInt16 where
  encodeChar := Utf16.encodeChar
  decode := Utf16.decode
  decode_nil := rfl
  decode_encodeChar := Utf16.decode_encodeChar

end Coding
end SshClientWasm.Library
