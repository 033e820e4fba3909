import SshClientWasm.Library.Base64

/-!
# The payload of an upload as text

`toBase64` makes a binary string of the bytes, a chunk at a time, and encodes it as a whole;
`PacketTransformer.toBase64` does so in one call. An engine takes only so many arguments in a
call of `fromCharCode`, and throws otherwise. On the Go side `sftpPut` decodes the text.
-/
namespace SshClientWasm.Sftp.Payload

open Library

/-- The string whose code units are the bytes. -/
def binaryString (bytes : Bytes) : String :=
  String.ofList (bytes.map fun b => Char.ofNat b.toNat)

/-- `charCodeAt` at every place, as an element of a `Uint8Array` keeps it. -/
def charCodes (binary : String) : Bytes := binary.toList.map fun c => UInt8.ofNat c.toNat

/-- `String.fromCharCode`, where the engine takes at most `limit` arguments. -/
def fromCharCode (limit : ℕ) (codes : Bytes) : Option String :=
  if codes.length ≤ limit then some (binaryString codes) else none

/-- `btoa`, which throws at a code unit that is no byte. -/
def btoa (binary : String) : Option String :=
  if binary.toList.all fun c => c.toNat < 256 then
    some (String.ofList (Base64.encode (charCodes binary)))
  else none

/-- `atob`, which throws at a text that does not decode. -/
def atob (text : String) : Option String :=
  (Base64.decodeForgiving text.toList).map binaryString

def chunkSize : ℕ := 0x8000

/-- `toBase64`. -/
def toBase64 (limit : ℕ) (bytes : Bytes) : Option String := do
  let binary ← (slices chunkSize bytes).foldlM
    (fun binary chunk => (fromCharCode limit chunk).map fun s => binary ++ s) ""
  btoa binary

/-- `PacketTransformer.toBase64`. -/
def PacketTransformer.toBase64 (limit : ℕ) (data : Bytes) : Option String := do
  let binary ← fromCharCode limit data
  btoa binary

/-- `PacketTransformer.fromBase64`. -/
def PacketTransformer.fromBase64 (base64 : String) : Option Bytes := (atob base64).map charCodes

/-- `base64.StdEncoding.DecodeString`, with which `sftpPut` reads its argument. -/
def decodeString (b64 : String) : Option Bytes := Base64.decode b64.toList

variable {limit : ℕ} {bytes : Bytes}

theorem charCode_lt (b : UInt8) : (Char.ofNat b.toNat).toNat = b.toNat := by
  have hall : ∀ i : Fin 256, (Char.ofNat i).toNat = i := by decide +kernel
  exact hall ⟨b.toNat, b.toNat_lt⟩

theorem charCodes_binaryString (bytes : Bytes) : charCodes (binaryString bytes) = bytes := by
  rw [charCodes, binaryString, String.toList_ofList, List.map_map]
  conv_rhs => rw [← List.map_id bytes]
  refine List.map_congr_left fun b _ => ?_
  rw [Function.comp_apply, charCode_lt, UInt8.ofNat_toNat, id]

theorem binaryString_append (front back : Bytes) :
    binaryString (front ++ back) = binaryString front ++ binaryString back := by
  rw [binaryString, List.map_append, String.ofList_append, binaryString, binaryString]

theorem btoa_binaryString (bytes : Bytes) :
    btoa (binaryString bytes) = some (String.ofList (Base64.encode bytes)) := by
  rw [btoa, charCodes_binaryString, if_pos]
  rw [List.all_eq_true]
  intro c hc
  rw [decide_eq_true_eq]
  rw [binaryString, String.toList_ofList] at hc
  obtain ⟨b, _, rfl⟩ := List.mem_map.mp hc
  rw [charCode_lt]
  exact b.toNat_lt

theorem foldlM_fromCharCode (binary : String) (chunks : List Bytes)
    (hlimit : ∀ chunk ∈ chunks, chunk.length ≤ limit) :
    chunks.foldlM (fun binary chunk => (fromCharCode limit chunk).map fun s => binary ++ s) binary =
      some (binary ++ binaryString chunks.flatten) := by
  induction chunks generalizing binary with
  | nil =>
    rw [List.flatten_nil, binaryString, List.map_nil, String.ofList_nil, String.append_empty]
    rfl
  | cons chunk chunks ih =>
    have hrest := ih (binary ++ binaryString chunk) fun c hc =>
      hlimit c (List.mem_cons_of_mem chunk hc)
    rw [List.foldlM_cons, fromCharCode, if_pos (hlimit chunk List.mem_cons_self), Option.map_some,
      List.flatten_cons, binaryString_append, ← String.append_assoc]
    exact hrest

/-- The chunking does not show in the text. -/
theorem toBase64_eq (h : min bytes.length chunkSize ≤ limit) :
    toBase64 limit bytes = btoa (binaryString bytes) := by
  have hflatten : (slices chunkSize bytes).flatten = bytes := slices_flatten (by decide) bytes
  have hlimit : ∀ chunk ∈ slices chunkSize bytes, chunk.length ≤ limit := by
    intro chunk hchunk
    have hsize := (slices_bounds (by decide) hchunk).2
    have hwhole : chunk.length ≤ bytes.length := by
      rw [← hflatten]
      exact (List.sublist_flatten_of_mem hchunk).length_le
    exact (le_min hwhole hsize).trans h
  rw [toBase64, foldlM_fromCharCode "" _ hlimit, hflatten, String.empty_append,
    Option.bind_eq_bind, Option.bind_some]

theorem packetTransformer_toBase64_eq (h : bytes.length ≤ limit) :
    PacketTransformer.toBase64 limit bytes = btoa (binaryString bytes) := by
  rw [PacketTransformer.toBase64, fromCharCode, if_pos h, Option.bind_eq_bind, Option.bind_some]

/-- What is uploaded comes out of `sftpPut` as it was, whatever its length, and the two
encoders agree wherever both can be used. -/
theorem upload_codec (limit : ℕ) (bytes : Bytes) :
    (∀ chunk ∈ slices chunkSize bytes, chunk.length ≤ 32768) ∧
    (min bytes.length 32768 ≤ limit → ∃ text, toBase64 limit bytes = some text ∧
      btoa (binaryString bytes) = some text ∧ decodeString text = some bytes) ∧
    (bytes.length ≤ limit → ∃ text, PacketTransformer.toBase64 limit bytes = some text ∧
      toBase64 limit bytes = some text ∧ PacketTransformer.fromBase64 text = some bytes) := by
  have hencode := btoa_binaryString bytes
  refine ⟨fun chunk hchunk => (slices_bounds (by decide) hchunk).2, fun h => ?_, fun h => ?_⟩
  · refine ⟨_, (toBase64_eq h).trans hencode, hencode, ?_⟩
    rw [decodeString, String.toList_ofList, Base64.decode_encode]
  · refine ⟨_, (packetTransformer_toBase64_eq h).trans hencode,
      (toBase64_eq (le_trans (min_le_left ..) h)).trans hencode, ?_⟩
    rw [PacketTransformer.fromBase64, atob, String.toList_ofList, Base64.decodeForgiving_encode,
      Option.map_some, Option.map_some, charCodes_binaryString]

/-- Four bytes, for an engine with room for the largest chunk. -/
theorem upload_codec_fourBytes :
    (∃ text, toBase64 32768 [0, 255, 16, 7] = some text ∧ decodeString text = some [0, 255, 16, 7]) ∧
      ∃ text, PacketTransformer.toBase64 32768 [0, 255, 16, 7] = some text ∧
        PacketTransformer.fromBase64 text = some [0, 255, 16, 7] := by
  obtain ⟨_, hupload, hpacket⟩ := upload_codec 32768 [0, 255, 16, 7]
  obtain ⟨text, htext, _, hdecode⟩ := hupload (by decide)
  obtain ⟨text', htext', _, hback⟩ := hpacket (by decide)
  exact ⟨⟨text, htext, hdecode⟩, text', htext', hback⟩

end SshClientWasm.Sftp.Payload
