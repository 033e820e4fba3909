import SshClientWasm.Library.Bytes

/-!
# Base64

Three bytes make four digits of six bits each, and one or two bytes at the end make two or
three digits with padding behind them. The strict decoder takes a text quantum by quantum
and wants the padding; the forgiving one looks at the padding first and does without it.
Both skip some white space.
-/
namespace SshClientWasm.Library.Base64

def alphabet : List Char :=
  "ABCDEFGHIJKLMNOPQRSTUVWXYZabcdefghijklmnopqrstuvwxyz0123456789+/".toList

def pad : Char := '='

/-- The digit for six bits. -/
def digit (n : ℕ) : Char := alphabet.getD n pad

/-- The six bits of a digit. -/
def value (c : Char) : Option ℕ := alphabet.idxOf? c

/-- The bits of the bytes, six at a time; zeros fill up the last six. -/
def sextets : Bytes → List ℕ
  | a :: b :: c :: rest =>
    [a.toNat / 4, a.toNat % 4 * 16 + b.toNat / 16, b.toNat % 16 * 4 + c.toNat / 64,
      c.toNat % 64] ++ sextets rest
  | [a, b] => [a.toNat / 4, a.toNat % 4 * 16 + b.toNat / 16, b.toNat % 16 * 4]
  | [a] => [a.toNat / 4, a.toNat % 4 * 16]
  | [] => []

/-- The bits eight at a time; what is left over is dropped. -/
def octets : List ℕ → Bytes
  | a :: b :: c :: d :: rest =>
    [UInt8.ofNat (a * 4 + b / 16), UInt8.ofNat (b * 16 + c / 4), UInt8.ofNat (c * 64 + d)] ++
      octets rest
  | [a, b, c] => [UInt8.ofNat (a * 4 + b / 16), UInt8.ofNat (b * 16 + c / 4)]
  | [a, b] => [UInt8.ofNat (a * 4 + b / 16)]
  | _ => []

/-- The number of padding characters behind the digits of so many bytes. -/
def padding (n : ℕ) : ℕ := (3 - n % 3) % 3

def encode (bytes : Bytes) : List Char :=
  (sextets bytes).map digit ++ List.replicate (padding bytes.length) pad

/-- The quanta of four characters, of which only the last may be padded. -/
def quanta : List Char → Option (List ℕ)
  | [] => some []
  | a :: b :: c :: d :: rest =>
    if d = pad then
      if rest ≠ [] then none
      else if c = pad then [a, b].mapM value
      else [a, b, c].mapM value
    else do
      let front ← [a, b, c, d].mapM value
      let back ← quanta rest
      some (front ++ back)
  | _ => none

/-- The strict decoder. It does not see line ends. -/
def decode (text : List Char) : Option Bytes :=
  (quanta (text.filter fun c => c ∉ ['\n', '\r'])).map octets

/-- Without the last character, if that is padding. -/
def unpad (text : List Char) : List Char :=
  if text.getLast? = some pad then text.dropLast else text

/-- The forgiving decoder. -/
def decodeForgiving (text : List Char) : Option Bytes :=
  let data := text.filter fun c => c ∉ ['\t', '\n', '\x0c', '\r', ' ']
  let data := if data.length % 4 = 0 then unpad (unpad data) else data
  if data.length % 4 = 1 then none else (data.mapM value).map octets

theorem value_digit {n : ℕ} (h : n < 64) : value (digit n) = some n := by
  have hall : ∀ i : Fin 64, value (digit i) = some i.val := by decide +kernel
  exact hall ⟨n, h⟩

theorem digit_not_mem {n : ℕ} (h : n < 64) :
    digit n ≠ pad ∧ digit n ∉ ['\t', '\n', '\x0c', '\r', ' '] := by
  have hall : ∀ i : Fin 64, digit i ≠ pad ∧ digit i ∉ ['\t', '\n', '\x0c', '\r', ' '] := by
    decide +kernel
  exact hall ⟨n, h⟩

theorem sextets_lt (bytes : Bytes) : ∀ n ∈ sextets bytes, n < 64 := by
  induction bytes using sextets.induct with
  | case1 a b c rest ih =>
    have ha := a.toNat_lt
    have hb := b.toNat_lt
    have hc := c.toNat_lt
    intro n hn
    rw [sextets, List.mem_append] at hn
    rcases hn with hn | hn
    · simp only [List.mem_cons, List.not_mem_nil, or_false] at hn
      omega
    · exact ih n hn
  | case2 a b =>
    have ha := a.toNat_lt
    have hb := b.toNat_lt
    intro n hn
    simp only [sextets, List.mem_cons, List.not_mem_nil, or_false] at hn
    omega
  | case3 a =>
    have ha := a.toNat_lt
    intro n hn
    simp only [sextets, List.mem_cons, List.not_mem_nil, or_false] at hn
    omega
  | case4 => simp [sextets]

theorem sextets_length (bytes : Bytes) :
    (sextets bytes).length + padding bytes.length = 4 * ((bytes.length + 2) / 3) := by
  induction bytes using sextets.induct with
  | case1 a b c rest ih =>
    simp only [sextets, padding, List.length_append, List.length_cons, List.length_nil] at ih ⊢
    omega
  | case2 | case3 | case4 => simp [sextets, padding]

theorem octets_sextets (bytes : Bytes) : octets (sextets bytes) = bytes := by
  have hoctet : ∀ (n : ℕ) (b : UInt8), n % 256 = b.toNat → UInt8.ofNat n = b := by
    intro n b h
    apply UInt8.toNat_inj.mp
    rw [UInt8.toNat_ofNat']
    exact h
  induction bytes using sextets.induct with
  | case1 a b c rest ih =>
    have ha := a.toNat_lt
    have hb := b.toNat_lt
    have hc := c.toNat_lt
    rw [sextets, List.cons_append, List.cons_append, List.cons_append, List.cons_append,
      List.nil_append, octets, ih, hoctet _ a (by omega), hoctet _ b (by omega),
      hoctet _ c (by omega)]
    rfl
  | case2 a b =>
    have ha := a.toNat_lt
    have hb := b.toNat_lt
    rw [sextets, octets, hoctet _ a (by omega), hoctet _ b (by omega)]
  | case3 a =>
    have ha := a.toNat_lt
    rw [sextets, octets, hoctet _ a (by omega)]
  | case4 => rfl

theorem mapM_value {ns : List ℕ} (h : ∀ n ∈ ns, n < 64) : (ns.map digit).mapM value = some ns := by
  induction ns with
  | nil => rfl
  | cons n ns ih =>
    rw [List.map_cons, List.mapM_cons, value_digit (h n List.mem_cons_self),
      ih fun m hm => h m (List.mem_cons_of_mem n hm)]
    rfl

theorem encode_filter (bytes : Bytes) {space : List Char} (hpad : pad ∉ space)
    (hspace : space ⊆ ['\t', '\n', '\x0c', '\r', ' ']) :
    (encode bytes).filter (fun c => c ∉ space) = encode bytes := by
  apply List.filter_eq_self.mpr
  intro c hc
  rw [decide_eq_true_eq]
  rcases List.mem_append.mp hc with hc | hc
  · obtain ⟨n, hn, rfl⟩ := List.mem_map.mp hc
    exact fun hmem => (digit_not_mem (sextets_lt bytes n hn)).2 (hspace hmem)
  · rw [List.eq_of_mem_replicate hc]
    exact hpad

theorem quanta_encode (bytes : Bytes) : quanta (encode bytes) = some (sextets bytes) := by
  induction bytes using sextets.induct with
  | case1 a b c rest ih =>
    have hlt := sextets_lt (a :: b :: c :: rest)
    have hencode : encode (a :: b :: c :: rest) =
        ([a.toNat / 4, a.toNat % 4 * 16 + b.toNat / 16, b.toNat % 16 * 4 + c.toNat / 64,
          c.toNat % 64].map digit) ++ encode rest := by
      have hpadding : padding (a :: b :: c :: rest).length = padding rest.length := by
        simp only [padding, List.length_cons]
        omega
      rw [encode, encode, hpadding, sextets, List.map_append, List.append_assoc]
    have hdigit : digit (c.toNat % 64) ≠ pad := (digit_not_mem (by omega)).1
    have hfront := @mapM_value [a.toNat / 4, a.toNat % 4 * 16 + b.toNat / 16,
      b.toNat % 16 * 4 + c.toNat / 64, c.toNat % 64] fun n hn =>
        hlt n (List.mem_append_left _ hn)
    rw [hencode]
    simp only [List.map_cons, List.map_nil, List.cons_append, List.nil_append] at hfront ⊢
    rw [quanta, if_neg hdigit, hfront, ih]
    rfl
  | case2 a b =>
    have hlt := sextets_lt [a, b]
    have hvalues := mapM_value hlt
    have hdigit : digit (b.toNat % 16 * 4) ≠ pad := (digit_not_mem (by omega)).1
    simp only [sextets, List.map_cons, List.map_nil] at hvalues
    have hencode : encode [a, b] = [digit (a.toNat / 4),
        digit (a.toNat % 4 * 16 + b.toNat / 16), digit (b.toNat % 16 * 4), pad] := rfl
    rw [hencode, quanta, if_pos rfl, if_neg (by simp), if_neg hdigit, hvalues, sextets]
  | case3 a =>
    have hvalues := mapM_value (sextets_lt [a])
    simp only [sextets, List.map_cons, List.map_nil] at hvalues
    have hencode : encode [a] = [digit (a.toNat / 4), digit (a.toNat % 4 * 16), pad, pad] := rfl
    rw [hencode, quanta, if_pos rfl, if_neg (by simp), if_pos rfl, hvalues, sextets]
  | case4 => rfl

/-- The strict decoder gives back what was encoded. -/
theorem decode_encode (bytes : Bytes) : decode (encode bytes) = some bytes := by
  rw [decode, encode_filter bytes (by decide) (by decide), quanta_encode, Option.map_some,
    octets_sextets]

theorem unpad_concat (text : List Char) : unpad (text ++ [pad]) = text := by
  rw [unpad, List.getLast?_concat, if_pos rfl, List.dropLast_concat]

theorem unpad_of_not_mem {text : List Char} (h : pad ∉ text) : unpad text = text := by
  rw [unpad, if_neg]
  exact fun hlast => h (List.mem_of_getLast? hlast)

theorem unpad_encode (bytes : Bytes) : unpad (unpad (encode bytes)) = (sextets bytes).map digit := by
  have hdigits : pad ∉ (sextets bytes).map digit := by
    intro hmem
    obtain ⟨n, hn, hpad⟩ := List.mem_map.mp hmem
    exact (digit_not_mem (sextets_lt bytes n hn)).1 hpad
  have hfew : padding bytes.length ≤ 2 := by
    unfold padding
    omega
  rw [encode]
  match hn : padding bytes.length, hfew with
  | 0, _ => rw [List.replicate_zero, List.append_nil, unpad_of_not_mem hdigits,
      unpad_of_not_mem hdigits]
  | 1, _ => rw [List.replicate_one, unpad_concat, unpad_of_not_mem hdigits]
  | 2, _ =>
    have htwo : (sextets bytes).map digit ++ List.replicate 2 pad =
        ((sextets bytes).map digit ++ [pad]) ++ [pad] := by
      rw [List.append_assoc]
      rfl
    rw [htwo, unpad_concat, unpad_concat]

theorem decodeForgiving_encode (bytes : Bytes) : decodeForgiving (encode bytes) = some bytes := by
  have hlength : (encode bytes).length = 4 * ((bytes.length + 2) / 3) := by
    rw [encode, List.length_append, List.length_map, List.length_replicate, sextets_length]
  have hdigits : ((sextets bytes).map digit).length % 4 ≠ 1 := by
    have h := sextets_length bytes
    rw [List.length_map]
    unfold padding at h
    omega
  have hdata : (if (encode bytes).length % 4 = 0 then unpad (unpad (encode bytes))
      else encode bytes) = (sextets bytes).map digit := by
    rw [if_pos (by omega), unpad_encode]
  simp only [decodeForgiving]
  rw [encode_filter bytes (by decide) (by decide), hdata, if_neg hdigits,
    mapM_value (sextets_lt bytes), Option.map_some, octets_sextets]

end SshClientWasm.Library.Base64
