import SshClientWasm.Library.Unicode
import SshClientWasm.Runtime.Copying

/-!
# Strings across the boundary

A string of JavaScript is code units, a string of Go is bytes. `js.ValueOf` decodes the
bytes; `js.Value.String` has them encoded into an array, whose length it is told, and
copies the array in a second call. Go may run on between the calls.
-/
namespace SshClientWasm.Runtime

open Library

/-- `encoder.encode`. -/
def TextEncoder.encode (units : List UInt16) : Bytes :=
  Coding.utf8.encode (Coding.utf16.decode units)

/-- `decoder.decode`: a byte order mark at the beginning is not part of the text. -/
def TextDecoder.decode (bytes : Bytes) : List UInt16 :=
  Coding.utf16.encode (dropMark (Coding.utf8.decode bytes))

/-- Through Go and back, a string of JavaScript stays the same exactly if all of its surrogates
are in pairs and it does not begin with the mark. -/
theorem TextDecoder.decode_encode_iff {units : List UInt16} :
    decode (TextEncoder.encode units) = units ↔
      Coding.utf16.IsText units ∧ ¬Coding.utf16.mark <+: units := by
  rw [decode, TextEncoder.encode, Coding.decode_encode]
  exact Coding.utf16.encode_dropMark_iff

/-- Through JavaScript and back, a string of Go stays the same exactly if it is UTF-8 and does
not begin with the mark. -/
theorem TextEncoder.encode_decode_iff {bytes : Bytes} :
    encode (TextDecoder.decode bytes) = bytes ↔
      Coding.utf8.IsText bytes ∧ ¬Coding.utf8.mark <+: bytes := by
  rw [encode, TextDecoder.decode, Coding.decode_encode]
  exact Coding.utf8.encode_dropMark_iff

/-- `loadString`. -/
def loadString (mem : Memory) (addr : ℕ) : List UInt16 :=
  let s := loadSlice mem addr
  TextDecoder.decode (mem.load s.array s.len)

/-- `stringVal`. -/
def stringVal (s : Go) (sp : ℕ) : Go :=
  s.storeValue (sp + 24) (.string (loadString s.mem (sp + 8)))

/-- `String`, which other values than strings are converted by. -/
def stringOf (convert : Value → List UInt16) : Value → List UInt16
  | .string units => units
  | v => convert v

/-- `valuePrepareString`, where `n` is the array that `encode` makes, and its buffer. -/
def valuePrepareString (convert : Value → List UInt16) (s : Go) (arrays : Arrays) (sp n : ℕ) :
    Go × Arrays :=
  let str := TextEncoder.encode (stringOf convert (s.loadValue (sp + 8)))
  let go := s.storeValue (sp + 16) (.object n)
  ({ go with mem := setInt64 go.mem (sp + 24) str.length }, arrays.add n str)

/-- `valueLoadString`. `set` throws if the array is longer than the slice. -/
def valueLoadString (s : Go) (arrays : Arrays) (sp : ℕ) : Option Go :=
  (arrays.viewOf (s.loadValue (sp + 8))).bind fun str =>
    let dst := loadSlice s.mem (sp + 16)
    if str.length ≤ dst.len then some { s with mem := s.mem.store dst.array (arrays.bytes str) }
    else none

/-- The stack as Go calls `stringVal`. -/
def argsString (mem : Memory) (sp : ℕ) (src : Slice) : Memory :=
  setInt64 (setInt64 mem (sp + 8) src.array) (sp + 16) src.len

theorem argsString_outside {mem : Memory} {sp a : ℕ} {d : Slice} (h : a < sp ∨ sp + 56 ≤ a) :
    argsString mem sp d a = mem a := by
  rw [argsString, setInt64_outside (by omega), setInt64_outside (by omega)]

theorem Value.mapKey_string (units : List UInt16) : (Value.string units).mapKey = .string units :=
  rfl

theorem loadSlice_congr {mem mem' : Memory} {addr : ℕ}
    (h : ∀ a, addr ≤ a → a < addr + 16 → mem a = mem' a) :
    loadSlice mem addr = loadSlice mem' addr := by
  have harray : getInt64 mem addr = getInt64 mem' addr :=
    getInt64_congr fun a ha hlt => h a ha (by omega)
  have hlen : getInt64 mem (addr + 8) = getInt64 mem' (addr + 8) :=
    getInt64_congr fun a ha hlt => h a (by omega) (by omega)
  rw [loadSlice, harray, hlen, loadSlice]

theorem loadSlice_argsString {mem : Memory} {sp : ℕ} {d : Slice} (h : d.Apart sp) :
    loadSlice (argsString mem sp d) (sp + 8) = d := by
  have hslice : loadSlice (argsToGo mem sp d 0) (sp + 8) = d := loadSlice_argsToGo h
  refine Eq.trans (loadSlice_congr fun a ha hlt => ?_) hslice
  exact (Memory.setUint_outside (Or.inl (by omega))).symm

namespace Refs

variable {s t : Refs} {N sp w n : ℕ} {units : List UInt16} {arrays : Arrays} {bytes : Bytes}
  {convert : Value → List UInt16} {d : Slice}

theorem Within.of_table (h : s.Within N) {go : Go} (ht : go.table = s.go.table) :
    Within N { s with go := go } :=
  ⟨h.1.of_table ht, ht ▸ h.2⟩

/-- Go has passed the string in a slice of its memory, and holds the word of the value. -/
def passed (s : Refs) (sp : ℕ) (src : Slice) : Refs :=
  let go := stringVal { s.go with mem := argsString s.go.mem sp src } sp
  { s with
    go := go
    held := (go.mem.getUint 8 (sp + 24),
      .string (TextDecoder.decode (s.go.mem.load src.array src.len))) :: s.held }

/-- Go has asked for the bytes of a string that it holds the word of, and holds the word of the
array that they are in. -/
def asked (convert : Value → List UInt16) (s : Refs) (arrays : Arrays) (sp n w : ℕ) : Refs :=
  let go := (valuePrepareString convert { s.go with mem := s.go.mem.setUint 8 (sp + 8) w } arrays
    sp n).1
  { s with go := go, held := (go.mem.getUint 8 (sp + 16), .object n) :: s.held }

theorem Within.passed (hN : predefined.length + N ≤ 2 ^ 32) (h : s.Within N)
    (hroom : s.account.length < N) (hd : d.Apart sp) : (s.passed sp d).Within N := by
  have hload : loadString (argsString s.go.mem sp d) (sp + 8) =
      TextDecoder.decode (s.go.mem.load d.array d.len) := by
    obtain ⟨-, hapart⟩ := id hd
    have hsame : (argsString s.go.mem sp d).load d.array d.len = s.go.mem.load d.array d.len :=
      Memory.load_congr fun a ha hlt => argsString_outside (by omega)
    simp only [loadString]
    rw [loadSlice_argsString hd, hsame]
  have hargs : Within N { s with go := { s.go with mem := argsString s.go.mem sp d } } :=
    h.of_table rfl
  have hstep := hargs.step hN hroom (a := .receive (sp + 24)
    (.string (loadString (argsString s.go.mem sp d) (sp + 8)))) rfl
  rw [hload] at hstep
  simp only [Refs.passed, stringVal, hload]
  exact hstep

theorem Within.asked (hN : predefined.length + N ≤ 2 ^ 32) (h : s.Within N)
    (hroom : s.account.length < N) : (s.asked convert arrays sp n w).Within N := by
  have hargs : Within N { s with go := { s.go with mem := s.go.mem.setUint 8 (sp + 8) w } } :=
    h.of_table rfl
  have hstep := hargs.step hN hroom (a := .receive (sp + 16) (.object n)) rfl
  have hword : (s.asked convert arrays sp n w).go.mem.getUint 8 (sp + 16) =
      (Go.storeValue { s.go with mem := s.go.mem.setUint 8 (sp + 8) w } (sp + 16)
        (.object n)).mem.getUint 8 (sp + 16) :=
    congrArg leNat (Memory.load_congr fun a ha hlt => setInt64_outside (Or.inl (by omega)))
  rw [← hword] at hstep
  exact hstep.of_table rfl

theorem Sound.asked (h : s.Sound) (convert : Value → List UInt16) (arrays : Arrays) (sp n : ℕ)
    (he : (w, .string units) ∈ s.held)
    (hlen : (TextEncoder.encode units).length ≤ 2 ^ 53) :
    (valuePrepareString convert { s.go with mem := s.go.mem.setUint 8 (sp + 8) w } arrays sp n).2 =
        arrays.add n (TextEncoder.encode units) ∧
      getInt64 (s.asked convert arrays sp n w).go.mem (sp + 24) =
        (TextEncoder.encode units).length := by
  have hload := h.resolve he (sp + 8)
  have hstring : stringOf convert (Go.loadValue
      { s.go with mem := s.go.mem.setUint 8 (sp + 8) w } (sp + 8)) = units := by
    rw [hload]
    rfl
  simp only [Refs.asked, valuePrepareString, hstring]
  exact ⟨trivial, getInt64_setInt64 _ _ (by omega)⟩

theorem Sound.valueLoadString (h : t.Sound) (arrays : Arrays) (he : (w, .object n) ∈ t.held)
    (hd : d.Apart sp) (hlen : d.len = bytes.length) :
    ∃ go, Runtime.valueLoadString { t.go with mem := argsToJS t.go.mem sp w d } (arrays.add n bytes)
        sp = some go ∧
      go.mem.load d.array d.len = bytes ∧ go.table = t.go.table := by
  have hload : Go.loadValue { t.go with mem := argsToJS t.go.mem sp w d } (sp + 8) = .object n := by
    rw [Go.loadValue_eq, getUint_argsToJS, h.word_mod he]
    exact h.denote he
  have hview : (arrays.add n bytes).viewOf (.object n) = some ⟨n, 0, bytes.length⟩ :=
    Function.update_self ..
  have hgo : Runtime.valueLoadString { t.go with mem := argsToJS t.go.mem sp w d }
      (arrays.add n bytes) sp =
        some { t.go with mem := (argsToJS t.go.mem sp w d).store d.array bytes } := by
    simp only [Runtime.valueLoadString, hload, hview, Option.bind_some, loadSlice_argsToJS hd,
      arrays.bytes_add]
    rw [if_pos hlen.ge]
  refine ⟨_, hgo, ?_, rfl⟩
  rw [hlen]
  exact Memory.load_store _ _ _

/-- Go reads a string that it holds the word `w` of: it asks for the bytes, runs on, and has
them copied to where it has made room for as many as it was told. -/
structure Reading (N : ℕ) (convert : Value → List UInt16) (arrays : Arrays) (s : Refs) (w : ℕ) where
  sp : ℕ
  n : ℕ
  inner : List Action
  between : Refs
  sp' : ℕ
  array : ℕ
  room : s.account.length < N
  admits : machine.Admits (Below N) (s.asked convert arrays sp n w) inner
  run : machine.run (s.asked convert arrays sp n w) inner = some between
  kept : ((s.asked convert arrays sp n w).go.mem.getUint 8 (sp + 16), .object n) ∈ between.held
  apart : Slice.Apart ⟨array, (getInt64 (s.asked convert arrays sp n w).go.mem (sp + 24)).toNat⟩ sp'

namespace Reading

variable (k : Reading N convert arrays s w)

/-- The word of the array. -/
def str : ℕ := (s.asked convert arrays k.sp k.n w).go.mem.getUint 8 (k.sp + 16)

/-- Where the bytes are copied to. -/
def dst : Slice := ⟨k.array, (getInt64 (s.asked convert arrays k.sp k.n w).go.mem (k.sp + 24)).toNat⟩

/-- The program behind the second call. -/
def result : Option Go :=
  let args := argsToJS k.between.go.mem k.sp' k.str k.dst
  let prepared := valuePrepareString convert
    { s.go with mem := s.go.mem.setUint 8 (k.sp + 8) w } arrays k.sp k.n
  valueLoadString { k.between.go with mem := args } prepared.2 k.sp'

theorem eq_bytes (hN : predefined.length + N ≤ 2 ^ 32) (h : s.Within N)
    (he : (w, .string units) ∈ s.held) (hlen : (TextEncoder.encode units).length ≤ 2 ^ 53) :
    ∃ go, k.result = some go ∧
      go.mem.load k.dst.array k.dst.len = TextEncoder.encode units ∧
      Within N { k.between with go := go } := by
  obtain ⟨hadded, hcount⟩ := h.1.asked convert arrays k.sp k.n he hlen
  have hbetween := (h.asked hN k.room).run hN k.admits k.run
  have hdlen : k.dst.len = (TextEncoder.encode units).length := by
    rw [dst, hcount, Int.toNat_natCast]
  obtain ⟨go, hgo, hbytes, htable⟩ :=
    hbetween.1.valueLoadString arrays k.kept k.apart hdlen
  refine ⟨go, ?_, hbytes, hbetween.of_table htable⟩
  rw [← hgo, ← hadded]
  rfl

end Reading

theorem Within.loadValue_passed (hN : predefined.length + N ≤ 2 ^ 32) (h : s.Within N)
    (hroom : s.account.length < N) (hd : d.Apart sp) :
    (s.passed sp d).go.loadValue (sp + 24) =
      .string (TextDecoder.decode (s.go.mem.load d.array d.len)) := by
  have hheld : ((s.passed sp d).go.mem.getUint 8 (sp + 24),
      .string (TextDecoder.decode (s.go.mem.load d.array d.len))) ∈ (s.passed sp d).held :=
    List.mem_cons_self
  rw [Go.loadValue_eq, (h.passed hN hroom hd).1.denote hheld]
  exact Value.mapKey_string _

/-- In every state that a program reaches, Go finds the bytes of a string that it holds the
word of, whatever it does between its two calls. If it passes these bytes again, from
wherever they are by then, JavaScript finds the string exactly if all of its surrogates are
in pairs and it does not begin with a byte order mark. -/
theorem string_survives_iff (hN : predefined.length + N ≤ 2 ^ 32) {mem : Memory}
    {labels : List Action} (hroom : machine.Admits (Below N) (start mem) labels)
    (hs : machine.run (start mem) labels = some s) (he : (w, .string units) ∈ s.held)
    (hlen : (TextEncoder.encode units).length ≤ 2 ^ 53) (k : Reading N convert arrays s w) :
    ∃ go, k.result = some go ∧
      go.mem.load k.dst.array k.dst.len = TextEncoder.encode units ∧
      ∀ back r, machine.Admits (Below N) { k.between with go := go } back →
        machine.run { k.between with go := go } back = some r → r.account.length < N →
        ∀ sp (src : Slice), src.Apart sp →
          r.go.mem.load src.array src.len = go.mem.load k.dst.array k.dst.len →
          ((r.passed sp src).go.loadValue (sp + 24) = .string units ↔
            Coding.utf16.IsText units ∧ ¬Coding.utf16.mark <+: units) := by
  obtain ⟨go, hgo, hbytes, hwithin⟩ :=
    k.eq_bytes hN ((within_start N mem).run hN hroom hs) he hlen
  refine ⟨go, hgo, hbytes, fun back r hadmits hback hheld sp src hsrc hcopied => ?_⟩
  have hr := hwithin.run hN hadmits hback
  rw [hr.loadValue_passed hN hheld hsrc, hcopied, hbytes, Value.string.injEq]
  exact TextDecoder.decode_encode_iff

/-- A program that asks for the bytes and copies them at once. -/
def Reading.atOnce (convert : Value → List UInt16) (arrays : Arrays) (s : Refs) (w sp n array : ℕ)
    (hroom : s.account.length < N)
    (hapart : Slice.Apart ⟨array, (getInt64 (s.asked convert arrays sp n w).go.mem (sp + 24)).toNat⟩
      sp) : Reading N convert arrays s w where
  sp := sp
  n := n
  inner := []
  between := s.asked convert arrays sp n w
  sp' := sp
  array := array
  room := hroom
  admits := trivial
  run := rfl
  kept := List.mem_cons_self
  apart := hapart

/-- No arrays, as long as none is made. -/
def noArrays : Arrays := ⟨fun _ => none, fun _ _ => 0⟩

theorem string_survives_iff_pair :
    ∃ s w, machine.run (start fun _ => 0) [.receive 64 (.string [0xD83D, 0xDE00])] = some s ∧
      ∃ k : Reading 3 (fun _ => []) noArrays s w, ∃ go, k.result = some go ∧
        go.mem.load k.dst.array k.dst.len = [0xF0, 0x9F, 0x98, 0x80] ∧
        (Refs.passed { k.between with go := go } 2000 k.dst).go.loadValue 2024 =
          .string [0xD83D, 0xDE00] := by
  have hencode : TextEncoder.encode [0xD83D, 0xDE00] = [0xF0, 0x9F, 0x98, 0x80] := by
    decide +kernel
  have hadmits : machine.Admits (Below 3) (start fun _ => 0)
      [.receive 64 (.string [0xD83D, 0xDE00])] := by decide
  obtain ⟨s, hs, w, hheld, hdropped⟩ : ∃ s, machine.run (start fun _ => 0)
      [.receive 64 (.string [0xD83D, 0xDE00])] = some s ∧ ∃ w,
        s.held = [(w, .string [0xD83D, 0xDE00])] ∧ s.dropped = [] :=
    ⟨_, rfl, _, rfl, rfl⟩
  have he : (w, .string [0xD83D, 0xDE00]) ∈ s.held := hheld ▸ List.mem_cons_self
  have hlen : (TextEncoder.encode [0xD83D, 0xDE00]).length ≤ 2 ^ 53 := by
    rw [hencode]
    decide
  have hwithin := (within_start 3 _).run (by decide) hadmits hs
  have hcount := (hwithin.1.asked (fun _ => []) noArrays 1000 9 he hlen).2
  rw [hencode] at hcount
  have haccount : s.account.length = 1 := by
    rw [account, hheld, hdropped]
    rfl
  have hroom : s.account.length < 3 := by
    rw [haccount]
    decide
  have hapart : Slice.Apart ⟨200, (getInt64 (s.asked (fun _ => []) noArrays 1000 9 w).go.mem
      (1000 + 24)).toNat⟩ 1000 := by
    rw [hcount]
    decide
  let k : Reading 3 (fun _ => []) noArrays s w :=
    .atOnce (fun _ => []) noArrays s w 1000 9 200 hroom hapart
  obtain ⟨go, hgo, hbytes, hback⟩ := string_survives_iff (by decide) hadmits hs he hlen k
  have hbetween : k.between.account.length < 3 := by
    show s.account.length + 1 < 3
    rw [haccount]
    decide
  have hdst : k.dst.Apart 2000 := by
    show Slice.Apart ⟨200, (getInt64 (s.asked (fun _ => []) noArrays 1000 9 w).go.mem
      (1000 + 24)).toNat⟩ 2000
    rw [hcount]
    decide
  refine ⟨s, w, hs, k, go, hgo, hbytes.trans hencode, ?_⟩
  exact (hback [] _ trivial rfl hbetween 2000 k.dst hdst rfl).mpr (by decide +kernel)

/-- In every state that a program reaches, JavaScript finds the text of the bytes that Go
passes, for as long as Go holds the word. If Go reads the string again, at any later time,
it finds its bytes exactly if they are UTF-8 and do not begin with a byte order mark. -/
theorem bytes_survive_iff (hN : predefined.length + N ≤ 2 ^ 32) {mem : Memory}
    {labels : List Action} (hroom : machine.Admits (Below N) (start mem) labels)
    (hs : machine.run (start mem) labels = some s) (hheld : s.account.length < N)
    {src : Slice} (hsrc : src.Apart sp) (hbytes : s.go.mem.load src.array src.len = bytes)
    {later : List Action} (hroom' : machine.Admits (Below N) (s.passed sp src) later)
    (hlater : machine.run (s.passed sp src) later = some t)
    (he : (w, .string (TextDecoder.decode bytes)) ∈ t.held)
    (hlen : (TextEncoder.encode (TextDecoder.decode bytes)).length ≤ 2 ^ 53)
    (k : Reading N convert arrays t w) :
    (s.passed sp src).go.loadValue (sp + 24) = .string (TextDecoder.decode bytes) ∧
      ∃ go, k.result = some go ∧
        (go.mem.load k.dst.array k.dst.len = bytes ↔
          Coding.utf8.IsText bytes ∧ ¬Coding.utf8.mark <+: bytes) := by
  have hstart := (within_start N mem).run hN hroom hs
  have hload := hstart.loadValue_passed hN hheld hsrc
  obtain ⟨go, hgo, hread, -⟩ :=
    k.eq_bytes hN ((hstart.passed hN hheld hsrc).run hN hroom' hlater) he hlen
  rw [hbytes] at hload
  refine ⟨hload, go, hgo, ?_⟩
  rw [hread]
  exact TextEncoder.encode_decode_iff

theorem bytes_survive_iff_mark :
    let mem : Memory := Memory.store (fun _ => 0) 100 [0xEF, 0xBB, 0xBF, 0x68]
    let t := (start mem).passed 1000 ⟨100, 4⟩
    t.go.loadValue 1024 = .string [0x68] ∧
      ∃ w, ∃ k : Reading 2 (fun _ => []) noArrays t w, ∃ go, k.result = some go ∧
        go.mem.load k.dst.array k.dst.len ≠ [0xEF, 0xBB, 0xBF, 0x68] := by
  intro mem t
  have hdecode : TextDecoder.decode [0xEF, 0xBB, 0xBF, 0x68] = [0x68] := by decide +kernel
  have hencode : TextEncoder.encode [0x68] = [0x68] := by decide +kernel
  have hbytes : (start mem).go.mem.load 100 4 = [0xEF, 0xBB, 0xBF, 0x68] :=
    Memory.load_store _ _ _
  have hsrc : Slice.Apart ⟨100, 4⟩ 1000 := by decide
  have ht : t.Within 2 := (within_start 2 mem).passed (by decide) (by decide) hsrc
  have he : (t.go.mem.getUint 8 1024, .string (TextDecoder.decode [0xEF, 0xBB, 0xBF, 0x68])) ∈
      t.held := hbytes ▸ List.mem_cons_self
  have hlen : (TextEncoder.encode (TextDecoder.decode [0xEF, 0xBB, 0xBF, 0x68])).length ≤
      2 ^ 53 := by
    rw [hdecode, hencode]
    decide
  have hcount := (ht.1.asked (fun _ => []) noArrays 3000 9 he hlen).2
  rw [hdecode, hencode] at hcount
  have hapart : Slice.Apart ⟨200, (getInt64 (t.asked (fun _ => []) noArrays 3000 9
      (t.go.mem.getUint 8 1024)).go.mem (3000 + 24)).toNat⟩ 3000 := by
    rw [hcount]
    decide
  have hroom : t.account.length < 2 := by decide
  have hadmits : machine.Admits (Below 2) (start mem) [] := trivial
  have hadmits' : machine.Admits (Below 2) t [] := trivial
  obtain ⟨hload, go, hgo, hiff⟩ := bytes_survive_iff (by decide) hadmits rfl (by decide) hsrc
    hbytes hadmits' rfl he hlen
    (.atOnce (fun _ => []) noArrays t _ 3000 9 200 hroom hapart)
  rw [hdecode] at hload
  exact ⟨hload, _, _, go, hgo, fun heq => (hiff.mp heq).2 (by decide)⟩

end Refs
end SshClientWasm.Runtime
