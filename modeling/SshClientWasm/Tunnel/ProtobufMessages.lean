import SshClientWasm.Library.Varint
import SshClientWasm.Tunnel.Messages

/-!
# The generated message classes

`encode` writes each present property behind its tag, in field order; `decode` reads tags
until the input ends and switches on the field number, skipping the fields its schema does
not have. Both follow the generated file. The `Reader` that `decode` calls comes with the
library and is a parameter; the one at the end is for runs on given inputs.
-/
namespace SshClientWasm.Tunnel.ProtobufMessages

open Library

/-- The varint of an `int32`: negative numbers are sign extended to 64 bits. -/
def int32ToNat (x : Int32) : ℕ := (x.toInt % 2 ^ 64).toNat

theorem int32ToNat_lt (x : Int32) : int32ToNat x < 2 ^ 64 := by
  rw [int32ToNat]
  omega

theorem ofNat_int32ToNat (x : Int32) : Int32.ofNat (int32ToNat x) = x := by
  apply Int32.toInt_inj.mp
  have hlo := x.le_toInt
  have hhi := x.toInt_lt
  rw [Int32.toInt_ofNat', int32ToNat, Int.bmod]
  simp only [Int32.size]
  omega

def utf8 (s : String) : Bytes := s.toByteArray.data.toList

def ofUtf8 (b : Bytes) : Option String := String.fromUTF8? ⟨b.toArray⟩

theorem ofUtf8_utf8 (s : String) : ofUtf8 (utf8 s) = some s := by
  have harray : (⟨s.toByteArray.data.toList.toArray⟩ : ByteArray) = s.toByteArray := by
    rw [Array.toArray_toList]
  have hvalid := s.isValidUTF8
  simp only [ofUtf8, utf8, harray, String.fromUTF8?, dif_pos hvalid]
  rfl

/-- `encode`; the tag is the field number times eight plus the wire type. -/
def encode (v : ProtocolVersion) (m : MessageFields) : Bytes :=
  putVarint 8 ++ putVarint (int32ToNat m.type) ++
  m.streamId.elim [] (fun x => putVarint 16 ++ putVarint (int32ToNat x)) ++
  m.ignorable.elim [] (fun x => putVarint 24 ++ putVarint x.toNat) ++
  m.payload.elim [] (fun x => putVarint 34 ++ putDelimited x) ++
  (if v = .v1 then [] else
    m.serviceId.elim [] (fun x => putVarint 42 ++ putDelimited (utf8 x)) ++
    m.availableServiceIds.flatMap fun x => putVarint 50 ++ putDelimited (utf8 x)) ++
  if v = .v3 then m.connectionId.elim [] (fun x => putVarint 56 ++ putVarint x.toNat) else []

/-- The bytes that `encode` writes: for each present property its tag and its value. -/
def encodedSize (v : ProtocolVersion) (m : MessageFields) : ℕ :=
  1 + varintSize (int32ToNat m.type) +
  m.streamId.elim 0 (fun x => 1 + varintSize (int32ToNat x)) +
  m.ignorable.elim 0 (fun x => 1 + varintSize x.toNat) +
  m.payload.elim 0 (fun x => 1 + delimitedSize x.length) +
  (if v = .v1 then 0 else
    m.serviceId.elim 0 (fun x => 1 + delimitedSize (utf8 x).length) +
    (m.availableServiceIds.map fun x => 1 + delimitedSize (utf8 x).length).sum) +
  if v = .v3 then m.connectionId.elim 0 (fun x => 1 + varintSize x.toNat) else 0

theorem encode_length (v : ProtocolVersion) (m : MessageFields) :
    (encode v m).length = encodedSize v m := by
  have htag : ∀ n < 128, varintSize n = 1 := fun n hn => varintSize_eq_one hn
  have hoptional : ∀ {α : Type} (x : Option α) (put : α → Bytes),
      (x.elim [] put).length = x.elim 0 fun a => (put a).length := by
    intro α x put
    cases x <;> rfl
  simp only [encode, encodedSize, List.length_append, hoptional, putVarint_length,
    putDelimited_length, htag 8 (by decide), htag 16 (by decide), htag 24 (by decide),
    htag 34 (by decide), apply_ite List.length, List.length_nil, List.length_flatMap,
    htag 42 (by decide), htag 50 (by decide), htag 56 (by decide)]

theorem varintSize_int32 (x : Int32) :
    varintSize (int32ToNat x) = if x.toInt < 0 then 10 else varintSize x.toInt.toNat := by
  have hlo := x.le_toInt
  have hhi := x.toInt_lt
  rw [int32ToNat]
  by_cases hx : x.toInt < 0
  · rw [if_pos hx]
    exact varintSize_eq (k := 9) (by omega) (by omega)
  · rw [if_neg hx, Int.emod_eq_of_lt (by omega) (by omega)]

theorem varintSize_int32_le (x : Int32) : varintSize (int32ToNat x) ≤ 10 := by
  have hhi := x.toInt_lt
  have hmax : varintSize (2 ^ 31) = 5 := varintSize_eq (k := 4) (by decide) (by decide)
  rw [varintSize_int32]
  split_ifs
  · exact le_rfl
  · have hle : varintSize x.toInt.toNat ≤ varintSize (2 ^ 31) := varintSize_mono (by omega)
    omega

/-- A message none of whose fields has been read yet. -/
def empty : TunnelMessage := ({ type := 0 } : MessageFields).read .v3

/-- `$protobuf.Reader`, by the bytes that it has before it: what a call returns with the
bytes behind, or the error that it throws. -/
structure Reader where
  uint32 : Bytes → Except String (UInt32 × Bytes)
  int32 : Bytes → Except String (Int32 × Bytes)
  bool : Bytes → Except String (Bool × Bytes)
  bytes : Bytes → Except String (Bytes × Bytes)
  string : Bytes → Except String (String × Bytes)
  skipType : ℕ → Bytes → Except String Bytes

section Decode

variable (R : Reader) (v : ProtocolVersion)

/-- The `switch` over the field number. -/
def readField (number wireType : ℕ) (s : Bytes) (m : TunnelMessage) :
    Except String (TunnelMessage × Bytes) :=
  if number = 1 then do
    let (x, s) ← R.int32 s
    .ok ({ m with type := x }, s)
  else if number = 2 then do
    let (x, s) ← R.int32 s
    .ok ({ m with streamId := x }, s)
  else if number = 3 then do
    let (x, s) ← R.bool s
    .ok ({ m with ignorable := x }, s)
  else if number = 4 then do
    let (x, s) ← R.bytes s
    .ok ({ m with payload := x }, s)
  else if number = 5 ∧ v ≠ .v1 then do
    let (x, s) ← R.string s
    .ok ({ m with serviceId := x }, s)
  else if number = 6 ∧ v ≠ .v1 then do
    let (x, s) ← R.string s
    .ok ({ m with availableServiceIds := m.availableServiceIds ++ [x] }, s)
  else if number = 7 ∧ v = .v3 then do
    let (x, s) ← R.uint32 s
    .ok ({ m with connectionId := x }, s)
  else do
    let s ← R.skipType wireType s
    .ok (m, s)

/-- The loop of `decode`, for at most the given number of fields. -/
def decodeFrom : ℕ → Bytes → TunnelMessage → Except String TunnelMessage
  | 0, _, m => .ok m
  | fuel + 1, s, m =>
    if s = [] then .ok m
    else do
      let (tag, s) ← R.uint32 s
      let (m, s) ← readField R v (tag.toNat / 8) (tag.toNat % 8) s m
      decodeFrom fuel s m

/-- `decode`: every field takes at least one byte. -/
def decode (s : Bytes) : Except String TunnelMessage := decodeFrom R v s.length s empty

/-- The generated class of a protocol version. -/
def codecOf : Codec := ⟨encode v, decode R v⟩

end Decode

def readVarint (s : Bytes) : Except String (ℕ × Bytes) :=
  (getVarint s).elim (.error "index out of range") .ok

def readBytes (s : Bytes) : Except String (Bytes × Bytes) :=
  (getDelimited s).elim (.error "index out of range") .ok

def readString (s : Bytes) : Except String (String × Bytes) := do
  let (b, s) ← readBytes s
  match ofUtf8 b with
  | some x => .ok (x, s)
  | none => .error "invalid UTF-8"

/-- A reader of what is well formed. -/
def wireReader : Reader where
  uint32 s := (fun (n, s) => (UInt32.ofNat n, s)) <$> readVarint s
  int32 s := (fun (n, s) => (Int32.ofNat n, s)) <$> readVarint s
  bool s := (fun (n, s) => (decide (n % 2 ^ 32 ≠ 0), s)) <$> readVarint s
  bytes := readBytes
  string := readString
  skipType wireType s :=
    match wireType with
    | 0 => Prod.snd <$> readVarint s
    | 1 => if s.length < 8 then .error "index out of range" else .ok (s.drop 8)
    | 2 => Prod.snd <$> readBytes s
    | 5 => if s.length < 4 then .error "index out of range" else .ok (s.drop 4)
    | _ => .error "invalid wire type"

def codec (v : ProtocolVersion) : Codec := codecOf wireReader v

end SshClientWasm.Tunnel.ProtobufMessages
