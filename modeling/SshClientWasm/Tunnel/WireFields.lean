import SshClientWasm.Tunnel.ProtobufMessages

/-!
# What the generated decoders make of any fields

The peer may be newer or older than this client, may write the fields in another order,
more than once, or with fields of its own between them. With a reader that reads back what
is written, the loop of `decode` takes the last value of each field of its schema, all
values of the repeated one, and nothing else. So each version reads what any other writes
as far as both schemas go.
-/
namespace SshClientWasm.Tunnel.ProtobufMessages

open Library

/-- A value of one of the wire types that stand alone, as it is written. -/
inductive WireValue
  | varint (n : {n : ℕ // n < 2 ^ 64})
  | fixed64 (b : {b : Bytes // b.length = 8})
  | delimited (b : Bytes)
  | fixed32 (b : {b : Bytes // b.length = 4})

namespace WireValue

def wireType : WireValue → ℕ
  | .varint _ => 0
  | .fixed64 _ => 1
  | .delimited _ => 2
  | .fixed32 _ => 5

def bytes : WireValue → Bytes
  | .varint n => putVarint n.val
  | .fixed64 b => b.val
  | .delimited b => putDelimited b
  | .fixed32 b => b.val

theorem wireType_lt (x : WireValue) : x.wireType < 8 := by
  cases x <;> simp [wireType]

end WireValue

/-- What is relied on of the reader: it reads back what is written, and skips it as a
whole. -/
structure Reader.ReadsBack (R : Reader) : Prop where
  uint32 : ∀ x rest, R.uint32 (putVarint x.toNat ++ rest) = .ok (x, rest)
  int32 : ∀ x rest, R.int32 (putVarint (int32ToNat x) ++ rest) = .ok (x, rest)
  bool : ∀ x rest, R.bool (putVarint x.toNat ++ rest) = .ok (x, rest)
  bytes : ∀ x rest, (putDelimited x).length < 2 ^ 32 →
    R.bytes (putDelimited x ++ rest) = .ok (x, rest)
  string : ∀ x rest, (putDelimited (utf8 x)).length < 2 ^ 32 →
    R.string (putDelimited (utf8 x) ++ rest) = .ok (x, rest)
  skipType : ∀ (x : WireValue) rest, x.bytes.length < 2 ^ 32 →
    R.skipType x.wireType (x.bytes ++ rest) = .ok rest

theorem readVarint_put (n : ℕ) (rest : Bytes) :
    readVarint (putVarint n ++ rest) = .ok (n, rest) := by
  rw [readVarint, getVarint_putVarint]
  rfl

theorem readBytes_put (b rest : Bytes) : readBytes (putDelimited b ++ rest) = .ok (b, rest) := by
  rw [readBytes, getDelimited_putDelimited]
  rfl

theorem wireReader_readsBack : wireReader.ReadsBack where
  uint32 x rest := by
    simp only [wireReader, readVarint_put, Functor.map, Except.map, UInt32.ofNat_toNat]
  int32 x rest := by
    simp only [wireReader, readVarint_put, Functor.map, Except.map, ofNat_int32ToNat]
  bool x rest := by
    cases x <;> simp [wireReader, readVarint_put, Functor.map, Except.map]
  bytes x rest _ := readBytes_put x rest
  string x rest _ := by
    simp only [wireReader, readString, readBytes_put, bind, Except.bind, ofUtf8_utf8]
  skipType x rest _ := by
    cases x with
    | varint n =>
      simp only [wireReader, WireValue.wireType, WireValue.bytes, readVarint_put, Functor.map,
        Except.map]
    | fixed64 b =>
      have hlen : ¬(b.val ++ rest).length < 8 := by
        rw [List.length_append, b.property]
        omega
      exact (if_neg hlen).trans (congrArg Except.ok (List.drop_left' b.property))
    | delimited b =>
      simp only [wireReader, WireValue.wireType, WireValue.bytes, readBytes_put, Functor.map,
        Except.map]
    | fixed32 b =>
      have hlen : ¬(b.val ++ rest).length < 4 := by
        rw [List.length_append, b.property]
        omega
      exact (if_neg hlen).trans (congrArg Except.ok (List.drop_left' b.property))

/-- One field on the wire: of one of the schemas, or with a number that none of them has. -/
inductive Field
  | type (x : Int32)
  | streamId (x : Int32)
  | ignorable (x : Bool)
  | payload (x : Bytes)
  | serviceId (x : String)
  | availableServiceId (x : String)
  | connectionId (x : UInt32)
  | unknown (number : {n : ℕ // 7 < n ∧ n < 2 ^ 29}) (x : WireValue)

namespace Field

def number : Field → ℕ
  | .type _ => 1
  | .streamId _ => 2
  | .ignorable _ => 3
  | .payload _ => 4
  | .serviceId _ => 5
  | .availableServiceId _ => 6
  | .connectionId _ => 7
  | .unknown n _ => n.val

def value : Field → WireValue
  | .type x | .streamId x => .varint ⟨int32ToNat x, int32ToNat_lt x⟩
  | .ignorable x => .varint ⟨x.toNat, lt_of_le_of_lt x.toNat_le (by decide)⟩
  | .payload x => .delimited x
  | .serviceId x | .availableServiceId x => .delimited (utf8 x)
  | .connectionId x => .varint ⟨x.toNat, x.toNat_lt.trans (by decide)⟩
  | .unknown _ x => x

/-- The tag, which is the number times eight plus the wire type, and the value. -/
def bytes (f : Field) : Bytes := putVarint (8 * f.number + f.value.wireType) ++ f.value.bytes

/-- The field as a version's schema takes it. -/
def apply (v : ProtocolVersion) (f : Field) (m : TunnelMessage) : TunnelMessage :=
  match f with
  | .type x => { m with type := x }
  | .streamId x => { m with streamId := x }
  | .ignorable x => { m with ignorable := x }
  | .payload x => { m with payload := x }
  | .serviceId x => if v = .v1 then m else { m with serviceId := x }
  | .availableServiceId x =>
    if v = .v1 then m else { m with availableServiceIds := m.availableServiceIds ++ [x] }
  | .connectionId x => if v = .v3 then { m with connectionId := x } else m
  | .unknown _ _ => m

theorem tag_lt (f : Field) : 8 * f.number + f.value.wireType < 2 ^ 32 := by
  have hwire := f.value.wireType_lt
  have hnumber : f.number < 2 ^ 29 := by
    cases f with
    | unknown n _ => exact n.property.2
    | _ => simp [number]
  omega

variable {R : Reader}

theorem readField_skip (hR : R.ReadsBack) {v : ProtocolVersion} {f : Field} {m : TunnelMessage}
    {rest : Bytes} (hlen : f.value.bytes.length < 2 ^ 32)
    (h : ∀ s, readField R v f.number f.value.wireType s m =
      (R.skipType f.value.wireType s >>= fun s => .ok (m, s))) :
    readField R v f.number f.value.wireType (f.value.bytes ++ rest) m = .ok (m, rest) := by
  rw [h, hR.skipType f.value rest hlen]
  rfl

theorem readField_bytes (hR : R.ReadsBack) (v : ProtocolVersion) (f : Field) (m : TunnelMessage)
    (rest : Bytes) (hlen : f.value.bytes.length < 2 ^ 32) :
    readField R v f.number f.value.wireType (f.value.bytes ++ rest) m =
      .ok (f.apply v m, rest) := by
  cases f with
  | type x =>
    have hread := hR.int32 x rest
    simp [readField, number, value, apply, WireValue.bytes, hread, bind, Except.bind]
  | streamId x =>
    have hread := hR.int32 x rest
    simp [readField, number, value, apply, WireValue.bytes, hread, bind, Except.bind]
  | ignorable x =>
    have hread := hR.bool x rest
    simp [readField, number, value, apply, WireValue.bytes, hread, bind, Except.bind]
  | payload x =>
    have hread := hR.bytes x rest hlen
    simp [readField, number, value, apply, WireValue.bytes, hread, bind, Except.bind]
  | serviceId x =>
    by_cases hv : v = .v1
    · rw [apply, if_pos hv]
      exact readField_skip hR hlen fun s => by simp [readField, number, hv]
    · have hread := hR.string x rest hlen
      simp [readField, number, value, apply, WireValue.bytes, hread, hv, bind, Except.bind]
  | availableServiceId x =>
    by_cases hv : v = .v1
    · rw [apply, if_pos hv]
      exact readField_skip hR hlen fun s => by simp [readField, number, hv]
    · have hread := hR.string x rest hlen
      simp [readField, number, value, apply, WireValue.bytes, hread, hv, bind, Except.bind]
  | connectionId x =>
    by_cases hv : v = .v3
    · have hread := hR.uint32 x rest
      simp [readField, number, value, apply, WireValue.bytes, hread, hv, bind, Except.bind]
    · rw [apply, if_neg hv]
      exact readField_skip hR hlen fun s => by simp [readField, number, hv]
  | unknown n x =>
    have hn := n.property.1
    exact readField_skip hR hlen fun s => by
      simp [readField, number, show n.val ≠ 1 by omega, show n.val ≠ 2 by omega,
        show n.val ≠ 3 by omega, show n.val ≠ 4 by omega, show n.val ≠ 5 by omega,
        show n.val ≠ 6 by omega, show n.val ≠ 7 by omega]

theorem decodeFrom_bytes (hR : R.ReadsBack) (v : ProtocolVersion) (f : Field) (m : TunnelMessage)
    (rest : Bytes) (fuel : ℕ) (hlen : f.bytes.length < 2 ^ 32) :
    decodeFrom R v (fuel + 1) (f.bytes ++ rest) m = decodeFrom R v fuel rest (f.apply v m) := by
  have hwire := f.value.wireType_lt
  have htag : (UInt32.ofNat (8 * f.number + f.value.wireType)).toNat =
      8 * f.number + f.value.wireType := UInt32.toNat_ofNat_of_lt' f.tag_lt
  have hread := hR.uint32 (UInt32.ofNat (8 * f.number + f.value.wireType)) (f.value.bytes ++ rest)
  have hne : f.bytes ++ rest ≠ [] := by simp [bytes, putVarint_ne_nil]
  have hvalue : f.value.bytes.length < 2 ^ 32 := by
    rw [bytes, List.length_append] at hlen
    omega
  rw [htag] at hread
  rw [decodeFrom, if_neg hne, bytes, List.append_assoc, hread]
  simp only [bind, Except.bind, htag]
  rw [show (8 * f.number + f.value.wireType) / 8 = f.number by omega,
    show (8 * f.number + f.value.wireType) % 8 = f.value.wireType by omega,
    readField_bytes hR v f m rest hvalue]

/-- Fields are taken one after the other. -/
theorem decodeFrom_fields (hR : R.ReadsBack) (v : ProtocolVersion) :
    ∀ (fields : List Field) (m : TunnelMessage) (fuel : ℕ),
      (fields.flatMap bytes).length < 2 ^ 32 → (fields.flatMap bytes).length ≤ fuel →
        decodeFrom R v fuel (fields.flatMap bytes) m =
          .ok (fields.foldl (fun m f => f.apply v m) m) := by
  intro fields
  induction fields with
  | nil =>
    intro m fuel _ _
    cases fuel <;> simp [decodeFrom]
  | cons f fields ih =>
    intro m fuel hlen hfuel
    rw [List.flatMap_cons, List.length_append] at hlen hfuel
    have hpos : 0 < f.bytes.length := by
      rw [List.length_pos_iff, bytes]
      simp [putVarint_ne_nil]
    obtain ⟨turns, rfl⟩ := Nat.exists_eq_succ_of_ne_zero (show fuel ≠ 0 by omega)
    rw [List.flatMap_cons, List.foldl_cons, decodeFrom_bytes hR v f m _ turns (by omega)]
    exact ih _ turns (by omega) (by omega)

def type? : Field → Option Int32
  | .type x => some x
  | _ => none

def streamId? : Field → Option Int32
  | .streamId x => some x
  | _ => none

def ignorable? : Field → Option Bool
  | .ignorable x => some x
  | _ => none

def payload? : Field → Option Bytes
  | .payload x => some x
  | _ => none

def serviceId? : Field → Option String
  | .serviceId x => some x
  | _ => none

def availableServiceId? : Field → Option String
  | .availableServiceId x => some x
  | _ => none

def connectionId? : Field → Option UInt32
  | .connectionId x => some x
  | _ => none

end Field

/-- The last of the values that a field has. -/
def lastOf {α : Type*} (get : Field → Option α) (fields : List Field) : Option α :=
  (fields.filterMap get).getLast?

theorem lastOf_concat {α : Type*} (get : Field → Option α) (fields : List Field) (f : Field) :
    lastOf get (fields ++ [f]) = (get f).or (lastOf get fields) := by
  rw [lastOf, List.filterMap_append, List.getLast?_append, lastOf]
  cases h : get f <;> simp [h]

/-- What fields say, read with the schema of a version: of each the last value or the
default, of the repeated one all values. -/
def meaning (v : ProtocolVersion) (fields : List Field) : TunnelMessage where
  type := (lastOf Field.type? fields).getD 0
  streamId := (lastOf Field.streamId? fields).getD 0
  ignorable := (lastOf Field.ignorable? fields).getD false
  payload := (lastOf Field.payload? fields).getD []
  serviceId := if v = .v1 then "" else (lastOf Field.serviceId? fields).getD ""
  availableServiceIds := if v = .v1 then [] else fields.filterMap Field.availableServiceId?
  connectionId := if v = .v3 then (lastOf Field.connectionId? fields).getD 0 else 0

theorem meaning_concat (v : ProtocolVersion) (fields : List Field) (f : Field) :
    meaning v (fields ++ [f]) = f.apply v (meaning v fields) := by
  have hids : [f].filterMap Field.availableServiceId? = f.availableServiceId?.toList := by
    cases f <;> rfl
  simp only [meaning, lastOf_concat, List.filterMap_append, hids]
  cases f <;> cases v <;>
    simp [Field.type?, Field.streamId?, Field.ignorable?, Field.payload?, Field.serviceId?,
      Field.availableServiceId?, Field.connectionId?, Field.apply]

theorem foldl_apply (v : ProtocolVersion) (fields : List Field) :
    fields.foldl (fun m f => f.apply v m) empty = meaning v fields := by
  induction fields using List.reverseRecOn with
  | nil => cases v <;> rfl
  | append_singleton fields f ih =>
    rw [List.foldl_append, ih, List.foldl_cons, List.foldl_nil, meaning_concat]

/-- Whatever fields are on the wire, in whatever order and number, the decoder of every
version ends with their meaning. -/
theorem decode_fields {R : Reader} (hR : R.ReadsBack) (v : ProtocolVersion) (fields : List Field)
    (hlen : (fields.flatMap Field.bytes).length < 2 ^ 32) :
    decode R v (fields.flatMap Field.bytes) = .ok (meaning v fields) := by
  rw [← foldl_apply]
  exact Field.decodeFrom_fields hR v fields empty _ hlen le_rfl

/-- A type that is written twice, around a field that no schema has. -/
theorem decode_fields_twice :
    decode wireReader .v1 ([.type 1, .unknown ⟨9, by decide⟩ (.delimited [7]), .payload [5],
      .type 4].flatMap Field.bytes) =
      .ok (meaning .v1 [.type 1, .unknown ⟨9, by decide⟩ (.delimited [7]), .payload [5], .type 4]) :=
  decode_fields wireReader_readsBack .v1
    [.type 1, .unknown ⟨9, by decide⟩ (.delimited [7]), .payload [5], .type 4] (by decide +kernel)

/-- The fields that `encode` writes. -/
def fieldsOf (v : ProtocolVersion) (m : MessageFields) : List Field :=
  .type m.type :: (m.streamId.toList.map .streamId ++ m.ignorable.toList.map .ignorable ++
    m.payload.toList.map .payload ++
    (if v = .v1 then [] else
      m.serviceId.toList.map .serviceId ++ m.availableServiceIds.map .availableServiceId) ++
    if v = .v3 then m.connectionId.toList.map .connectionId else [])

theorem encode_eq (v : ProtocolVersion) (m : MessageFields) :
    encode v m = (fieldsOf v m).flatMap Field.bytes := by
  have hoption : ∀ {α : Type} (x : Option α) (f : α → Field),
      (x.toList.map f).flatMap Field.bytes = x.elim [] fun a => (f a).bytes := by
    intro α x f
    cases x <;> simp
  have hite : ∀ (p : Prop) [Decidable p] (xs ys : List Field),
      (if p then xs else ys).flatMap Field.bytes =
        if p then xs.flatMap Field.bytes else ys.flatMap Field.bytes := by
    intro p _ xs ys
    split_ifs <;> rfl
  rw [fieldsOf, List.flatMap_cons]
  simp only [List.flatMap_append, hoption, hite, List.flatMap_nil, List.flatMap_map]
  simp only [Field.bytes, Field.number, Field.value, WireValue.wireType, WireValue.bytes, encode,
    List.append_assoc]

/-- The schema that two versions have in common. -/
def common : ProtocolVersion → ProtocolVersion → ProtocolVersion
  | .v1, _ => .v1
  | _, .v1 => .v1
  | .v2, _ => .v2
  | _, .v2 => .v2
  | .v3, .v3 => .v3

theorem filterMap_fieldsOf {α : Type} (get : Field → Option α) (v : ProtocolVersion)
    (m : MessageFields) :
    (fieldsOf v m).filterMap get = (get (.type m.type)).toList ++
      ((m.streamId.bind fun x => get (.streamId x)).toList ++
      (m.ignorable.bind fun x => get (.ignorable x)).toList ++
      (m.payload.bind fun x => get (.payload x)).toList ++
      (if v = .v1 then [] else
        (m.serviceId.bind fun x => get (.serviceId x)).toList ++
        m.availableServiceIds.filterMap fun x => get (.availableServiceId x)) ++
      if v = .v3 then (m.connectionId.bind fun x => get (.connectionId x)).toList else []) := by
  have hoption : ∀ {β : Type} (x : Option β) (f : β → Field),
      (x.toList.map f).filterMap get = (x.bind fun a => get (f a)).toList := by
    intro β x f
    cases x with
    | none => rfl
    | some a => cases h : get (f a) <;> simp [h]
  have hhead : ∀ (f : Field) (fields : List Field),
      (f :: fields).filterMap get = (get f).toList ++ fields.filterMap get := by
    intro f fields
    cases h : get f <;> simp [h]
  have hite : ∀ (p : Prop) [Decidable p] (xs ys : List Field),
      (if p then xs else ys).filterMap get = if p then xs.filterMap get else ys.filterMap get :=
    fun p _ xs ys => apply_ite (List.filterMap get) p xs ys
  rw [fieldsOf, hhead]
  simp only [List.filterMap_append, hoption, hite, List.filterMap_nil, List.filterMap_map,
    Function.comp_def]

theorem getLast?_toList {α : Type} (x : Option α) : x.toList.getLast? = x := by
  cases x <;> rfl

/-- What a message says in the schema of one version, read with another's. -/
theorem meaning_fieldsOf (v v' : ProtocolVersion) (m : MessageFields) :
    meaning v (fieldsOf v' m) = m.read (common v v') := by
  simp only [meaning, lastOf, filterMap_fieldsOf, MessageFields.read]
  cases v <;> cases v' <;>
    simp [Field.type?, Field.streamId?, Field.ignorable?, Field.payload?, Field.serviceId?,
      Field.availableServiceId?, Field.connectionId?, common, getLast?_toList]

theorem decode_encode_common {R : Reader} (hR : R.ReadsBack) (v v' : ProtocolVersion)
    (m : MessageFields) (hlen : (encode v' m).length < 2 ^ 32) :
    decode R v (encode v' m) = .ok (m.read (common v v')) := by
  rw [encode_eq] at hlen ⊢
  rw [decode_fields hR v _ hlen, meaning_fieldsOf]

/-- What is relied on of the classes: each writes as many bytes as its message takes on the
wire, and reads what any of them has written as far as both schemas go. -/
structure Interoperate (codecs : ProtocolVersion → Codec) : Prop where
  encode_length : ∀ v m, ((codecs v).encode m).length = encodedSize v m
  decode_encode : ∀ v v' m, ((codecs v').encode m).length ≤ 65535 →
    (codecs v).decode ((codecs v').encode m) = .ok (m.read (common v v'))

theorem interoperate_codecOf {R : Reader} (hR : R.ReadsBack) : Interoperate (codecOf R) where
  encode_length := encode_length
  decode_encode v v' m hlen := decode_encode_common hR v v' m (lt_of_le_of_lt hlen (by decide))

theorem interoperate_codec : Interoperate codec := interoperate_codecOf wireReader_readsBack

theorem common_self (v : ProtocolVersion) : common v v = v := by
  cases v <;> rfl

theorem Interoperate.roundTrips {codecs : ProtocolVersion → Codec} (h : Interoperate codecs)
    (v : ProtocolVersion) : (codecs v).RoundTrips v := by
  intro m hlen
  rw [h.decode_encode v v m hlen, common_self]

end SshClientWasm.Tunnel.ProtobufMessages
