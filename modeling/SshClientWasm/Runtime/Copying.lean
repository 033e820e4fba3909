import SshClientWasm.Runtime.References

/-!
# Byte slices across the boundary

`js.CopyBytesToGo` and `js.CopyBytesToJS` are how every packet crosses: Go puts a
slice and the word of an array on its stack, the imported function copies as many
bytes as both have and leaves their number and a flag behind the arguments. An array
shows a part of a buffer, which other arrays may show as well.
-/
namespace SshClientWasm.Runtime

open Library

theorem getInt32_setUint (mem : Memory) (addr : ℕ) {v : ℤ} (hlow : -2 ^ 31 ≤ v) (hhigh : v < 2 ^ 31) :
    getInt32 (mem.setUint 4 addr (v % 4294967296).toNat) addr = v := by
  simp only [getInt32]
  rw [Memory.getUint_setUint]
  norm_num at hlow hhigh ⊢
  split_ifs <;> omega

theorem getInt64_setInt64 (mem : Memory) (addr : ℕ) {v : ℤ} (hv : v.natAbs ≤ 2 ^ 53) :
    getInt64 (setInt64 mem addr v) addr = v := by
  have hbounds : -2 ^ 53 ≤ v ∧ v ≤ 2 ^ 53 := by
    norm_num at hv ⊢
    omega
  have hhigh := getInt32_setUint (mem.setUint 4 addr (v % 4294967296).toNat) (addr + 4)
    (v := v / 4294967296) (by norm_num at hbounds ⊢; omega) (by norm_num at hbounds ⊢; omega)
  rw [getInt64, setInt64, hhigh, Memory.getUint_setUint_apart (Or.inl le_rfl), Memory.getUint_setUint]
  norm_num
  omega

theorem setInt64_outside {mem : Memory} {addr a : ℕ} {v : ℤ} (h : a < addr ∨ addr + 8 ≤ a) :
    setInt64 mem addr v a = mem a := by
  rw [setInt64, Memory.setUint_outside (by omega), Memory.setUint_outside (by omega)]

theorem getInt64_congr {mem mem' : Memory} {addr : ℕ}
    (h : ∀ a, addr ≤ a → a < addr + 8 → mem a = mem' a) : getInt64 mem addr = getInt64 mem' addr := by
  have hlow : mem.getUint 4 addr = mem'.getUint 4 addr :=
    congrArg leNat (Memory.load_congr fun a ha hlt => h a ha (by omega))
  have hhigh : mem.getUint 4 (addr + 4) = mem'.getUint 4 (addr + 4) :=
    congrArg leNat (Memory.load_congr fun a ha hlt => h a (by omega) (by omega))
  simp only [getInt64, getInt32, hlow, hhigh]

/-- A slice of the memory. -/
structure Slice where
  array : ℕ
  len : ℕ

/-- `loadSlice`. -/
def loadSlice (mem : Memory) (addr : ℕ) : Slice :=
  ⟨(getInt64 mem addr).toNat, (getInt64 mem (addr + 8)).toNat⟩

/-- What an array shows of its buffer. -/
structure View where
  buffer : ℕ
  byteOffset : ℕ
  length : ℕ

/-- The objects that are a `Uint8Array` or a `Uint8ClampedArray`, and the buffers. Arrays of
the memory that Go runs in, and such as have lost their buffer or have a `length` of their
own, are not among them. -/
structure Arrays where
  views : ℕ → Option View
  buffers : ℕ → Memory

namespace Arrays

def viewOf (arrays : Arrays) : Value → Option View
  | .object n => arrays.views n
  | _ => none

def bytes (arrays : Arrays) (v : View) : Bytes :=
  (arrays.buffers v.buffer).load v.byteOffset v.length

/-- `set`, of no more bytes than the array has. -/
def set (arrays : Arrays) (v : View) (bytes : Bytes) : Arrays :=
  { arrays with
    buffers := Function.update arrays.buffers v.buffer
      ((arrays.buffers v.buffer).store v.byteOffset bytes) }

/-- An array with a buffer of its own. -/
def add (arrays : Arrays) (n : ℕ) (bytes : Bytes) : Arrays where
  views := Function.update arrays.views n (some ⟨n, 0, bytes.length⟩)
  buffers := Function.update arrays.buffers n (Memory.store (fun _ => 0) 0 bytes)

@[simp] theorem bytes_length (arrays : Arrays) (v : View) : (arrays.bytes v).length = v.length :=
  Memory.load_length ..

theorem buffers_set (arrays : Arrays) (v : View) (bytes : Bytes) : (arrays.set v bytes).buffers =
    Function.update arrays.buffers v.buffer
      ((arrays.buffers v.buffer).store v.byteOffset bytes) := rfl

theorem bytes_set {arrays : Arrays} {v : View} {bytes : Bytes} (h : bytes.length = v.length) :
    (arrays.set v bytes).bytes v = bytes := by
  rw [Arrays.bytes, buffers_set, Function.update_self, ← h]
  exact Memory.load_store _ _ _

/-- Writing an array writes what it shows, whoever shows it too, and nothing else. -/
theorem set_outside {arrays : Arrays} {v : View} {bytes : Bytes} (h : bytes.length ≤ v.length)
    {b a : ℕ} (hout : b ≠ v.buffer ∨ a < v.byteOffset ∨ v.byteOffset + v.length ≤ a) :
    (arrays.set v bytes).buffers b a = arrays.buffers b a := by
  by_cases hb : b = v.buffer
  · have ha : a < v.byteOffset ∨ v.byteOffset + v.length ≤ a := hout.resolve_left (not_not.mpr hb)
    rw [buffers_set, hb, Function.update_self]
    exact Memory.store_outside (by omega)
  · rw [buffers_set, Function.update_of_ne hb]

theorem bytes_add (arrays : Arrays) (n : ℕ) (bytes : Bytes) :
    (arrays.add n bytes).bytes ⟨n, 0, bytes.length⟩ = bytes := by
  have hbuffer : (arrays.add n bytes).buffers n = Memory.store (fun _ => 0) 0 bytes :=
    Function.update_self ..
  rw [Arrays.bytes, hbuffer]
  exact Memory.load_store _ _ _

end Arrays

/-- `copyBytesToGo`. -/
def copyBytesToGo (s : Go) (arrays : Arrays) (sp : ℕ) : Go :=
  let dst := loadSlice s.mem (sp + 8)
  match arrays.viewOf (s.loadValue (sp + 32)) with
  | none => { s with mem := s.mem.setUint 1 (sp + 48) 0 }
  | some src =>
    let toCopy := (arrays.bytes src).take dst.len
    let mem := setInt64 (s.mem.store dst.array toCopy) (sp + 40) toCopy.length
    { s with mem := mem.setUint 1 (sp + 48) 1 }

/-- `copyBytesToJS`. -/
def copyBytesToJS (s : Go) (arrays : Arrays) (sp : ℕ) : Go × Arrays :=
  let src := loadSlice s.mem (sp + 16)
  match arrays.viewOf (s.loadValue (sp + 8)) with
  | none => ({ s with mem := s.mem.setUint 1 (sp + 48) 0 }, arrays)
  | some dst =>
    let toCopy := (s.mem.load src.array src.len).take dst.length
    let mem := setInt64 s.mem (sp + 40) toCopy.length
    ({ s with mem := mem.setUint 1 (sp + 48) 1 }, arrays.set dst toCopy)

/-- The stack as Go calls `copyBytesToGo`. -/
def argsToGo (mem : Memory) (sp : ℕ) (dst : Slice) (src : ℕ) : Memory :=
  ((setInt64 (setInt64 mem (sp + 8) dst.array) (sp + 16) dst.len).setUint 8 (sp + 32) src)

/-- The stack as Go calls `copyBytesToJS`. -/
def argsToJS (mem : Memory) (sp : ℕ) (dst : ℕ) (src : Slice) : Memory :=
  setInt64 (setInt64 (mem.setUint 8 (sp + 8) dst) (sp + 16) src.array) (sp + 24) src.len

/-- A slice in the part of the memory that numbers reach, apart from the stack frame. -/
def Slice.Apart (d : Slice) (sp : ℕ) : Prop :=
  d.array + d.len ≤ 2 ^ 53 ∧ (d.array + d.len ≤ sp ∨ sp + 56 ≤ d.array)

instance (d : Slice) (sp : ℕ) : Decidable (d.Apart sp) := inferInstanceAs (Decidable (_ ∧ _))

section Frames

variable {mem : Memory} {sp w : ℕ} {d : Slice}

theorem argsToGo_outside {a : ℕ} (h : a < sp ∨ sp + 56 ≤ a) : argsToGo mem sp d w a = mem a := by
  rw [argsToGo, Memory.setUint_outside (by omega), setInt64_outside (by omega),
    setInt64_outside (by omega)]

theorem argsToJS_outside {a : ℕ} (h : a < sp ∨ sp + 56 ≤ a) : argsToJS mem sp w d a = mem a := by
  rw [argsToJS, setInt64_outside (by omega), setInt64_outside (by omega),
    Memory.setUint_outside (by omega)]

theorem loadSlice_argsToGo (h : d.Apart sp) : loadSlice (argsToGo mem sp d w) (sp + 8) = d := by
  have hbound := h.1
  have harray : getInt64 (argsToGo mem sp d w) (sp + 8) = d.array := by
    rw [← getInt64_setInt64 mem (sp + 8) (v := (d.array : ℤ)) (by omega)]
    refine getInt64_congr fun a ha hlt => ?_
    rw [argsToGo, Memory.setUint_outside (by omega), setInt64_outside (by omega)]
  have hlen : getInt64 (argsToGo mem sp d w) (sp + 16) = d.len := by
    rw [← getInt64_setInt64 (setInt64 mem (sp + 8) d.array) (sp + 16) (v := (d.len : ℤ)) (by omega)]
    refine getInt64_congr fun a ha hlt => ?_
    rw [argsToGo, Memory.setUint_outside (by omega)]
  rw [loadSlice, harray, hlen, Int.toNat_natCast, Int.toNat_natCast]

theorem loadSlice_argsToJS (h : d.Apart sp) : loadSlice (argsToJS mem sp w d) (sp + 16) = d := by
  have hbound := h.1
  have harray : getInt64 (argsToJS mem sp w d) (sp + 16) = d.array := by
    rw [← getInt64_setInt64 (mem.setUint 8 (sp + 8) w) (sp + 16) (v := (d.array : ℤ)) (by omega)]
    refine getInt64_congr fun a ha hlt => ?_
    rw [argsToJS, setInt64_outside (by omega)]
  have hlen : getInt64 (argsToJS mem sp w d) (sp + 24) = d.len :=
    getInt64_setInt64 _ (sp + 24) (by omega)
  rw [loadSlice, harray, hlen, Int.toNat_natCast, Int.toNat_natCast]

theorem getUint_argsToGo : (argsToGo mem sp d w).getUint 8 (sp + 32) = w % 256 ^ 8 :=
  Memory.getUint_setUint 8 _ (sp + 32) w

theorem getUint_argsToJS : (argsToJS mem sp w d).getUint 8 (sp + 8) = w % 256 ^ 8 := by
  rw [← Memory.getUint_setUint 8 mem (sp + 8) w]
  refine congrArg leNat (Memory.load_congr fun a ha hlt => ?_)
  rw [argsToJS, setInt64_outside (by omega), setInt64_outside (by omega)]

theorem getInt64_results {n : ℕ} (hn : n ≤ 2 ^ 53) :
    getInt64 ((setInt64 mem (sp + 40) n).setUint 1 (sp + 48) 1) (sp + 40) = n := by
  refine Eq.trans (getInt64_congr fun a ha hlt => ?_)
    (getInt64_setInt64 mem (sp + 40) (v := (n : ℤ)) (by omega))
  rw [Memory.setUint_outside (by omega)]

theorem getUint_results : (mem.setUint 1 (sp + 48) 1).getUint 1 (sp + 48) = 1 := by
  rw [Memory.getUint_setUint]
  rfl

theorem results_outside {n : ℤ} {a : ℕ} (h : a < sp ∨ sp + 56 ≤ a) :
    (setInt64 mem (sp + 40) n).setUint 1 (sp + 48) 1 a = mem a := by
  rw [Memory.setUint_outside (by omega), setInt64_outside (by omega)]

end Frames

namespace Refs

variable {s : Refs} {arrays : Arrays} {n w : ℕ} {v : View} {sp : ℕ} {d : Slice}

theorem Sound.word_mod (h : s.Sound) {e : ℕ × Value} (he : e ∈ s.held) : e.1 % 256 ^ 8 = e.1 := by
  rw [h.words e (mem_account he)]
  exact Nat.mod_eq_of_lt (word_lt e.2 _)

/-- The array behind a word that Go holds is copied into the slice, as far as both go.
The count and the flag are where Go reads them, and no other byte changes. -/
theorem Sound.copyBytesToGo (h : s.Sound) (he : (w, .object n) ∈ s.held)
    (hview : arrays.views n = some v) (hd : d.Apart sp) :
    let t := Runtime.copyBytesToGo { s.go with mem := argsToGo s.go.mem sp d w } arrays sp
    getInt64 t.mem (sp + 40) = min d.len v.length ∧ t.mem.getUint 1 (sp + 48) = 1 ∧
      t.mem.load d.array (min d.len v.length) = (arrays.bytes v).take d.len ∧
      t.table = s.go.table ∧
      ∀ a, (a < sp ∨ sp + 56 ≤ a) → (a < d.array ∨ d.array + d.len ≤ a) → t.mem a = s.go.mem a := by
  have hload : Go.loadValue { s.go with mem := argsToGo s.go.mem sp d w } (sp + 32) = .object n := by
    rw [Go.loadValue_eq, getUint_argsToGo, h.word_mod he]
    exact h.denote he
  have hlen : ((arrays.bytes v).take d.len).length = min d.len v.length := by
    rw [List.length_take, arrays.bytes_length]
  obtain ⟨hbound, hapart⟩ := hd
  simp only [Runtime.copyBytesToGo, hload, Arrays.viewOf, hview, loadSlice_argsToGo ⟨hbound, hapart⟩]
  refine ⟨?_, getUint_results, ?_, trivial, fun a hframe hslice => ?_⟩
  · rw [hlen]
    exact getInt64_results (by omega)
  · rw [← hlen]
    refine Eq.trans (Memory.load_congr fun a ha hlt => ?_)
      (Memory.load_store (argsToGo s.go.mem sp d w) d.array ((arrays.bytes v).take d.len))
    rw [results_outside (by omega)]
  · rw [results_outside hframe, Memory.store_outside (by omega), argsToGo_outside hframe]

theorem Sound.copyBytesToJS (h : s.Sound) (he : (w, .object n) ∈ s.held)
    (hview : arrays.views n = some v) (hd : d.Apart sp) :
    let t := Runtime.copyBytesToJS { s.go with mem := argsToJS s.go.mem sp w d } arrays sp
    getInt64 t.1.mem (sp + 40) = min d.len v.length ∧ t.1.mem.getUint 1 (sp + 48) = 1 ∧
      t.2 = arrays.set v ((s.go.mem.load d.array d.len).take v.length) ∧
      t.1.table = s.go.table ∧ ∀ a, (a < sp ∨ sp + 56 ≤ a) → t.1.mem a = s.go.mem a := by
  have hload : Go.loadValue { s.go with mem := argsToJS s.go.mem sp w d } (sp + 8) = .object n := by
    rw [Go.loadValue_eq, getUint_argsToJS, h.word_mod he]
    exact h.denote he
  obtain ⟨hbound, hapart⟩ := hd
  have hsrc : (argsToJS s.go.mem sp w d).load d.array d.len = s.go.mem.load d.array d.len :=
    Memory.load_congr fun a ha hlt => argsToJS_outside (by omega)
  have hlen : ((s.go.mem.load d.array d.len).take v.length).length = min d.len v.length := by
    rw [List.length_take, Memory.load_length, min_comm]
  simp only [Runtime.copyBytesToJS, hload, Arrays.viewOf, hview,
    loadSlice_argsToJS ⟨hbound, hapart⟩, hsrc, hlen]
  refine ⟨getInt64_results (by omega), getUint_results, trivial, trivial, fun a hframe => ?_⟩
  rw [results_outside hframe, argsToJS_outside hframe]

theorem Sound.of_table (h : s.Sound) {go : Go} (ht : go.table = s.go.table) :
    Sound { s with go := go } :=
  ⟨ht ▸ h.lends, ht ▸ h.cleared, h.words, h.dropped⟩

/-- In every state that a program reaches, the bytes of a slice go into an array of the
same length and from there into any other slice as they are. Of the buffers only the bytes
that the array shows change, for all arrays that show them, and in the memory only the
second slice and the two stack frames. -/
theorem bytes_cross {N : ℕ} (hN : predefined.length + N ≤ 2 ^ 32) {mem : Memory}
    {labels : List Action} (hroom : machine.Admits (Below N) (start mem) labels)
    (hs : machine.run (start mem) labels = some s) (he : (w, .object n) ∈ s.held)
    (hview : arrays.views n = some v) {sp' : ℕ} {src dst : Slice} (hsrc : src.Apart sp)
    (hdst : dst.Apart sp') (hlen : src.len = v.length) (hlen' : dst.len = v.length) :
    let sent := Runtime.copyBytesToJS { s.go with mem := argsToJS s.go.mem sp w src } arrays sp
    let back := Runtime.copyBytesToGo
      { sent.1 with mem := argsToGo sent.1.mem sp' dst w } sent.2 sp'
    sent.2.views = arrays.views ∧ sent.2.bytes v = s.go.mem.load src.array src.len ∧
      (∀ b a, (b ≠ v.buffer ∨ a < v.byteOffset ∨ v.byteOffset + v.length ≤ a) →
        sent.2.buffers b a = arrays.buffers b a) ∧
      back.mem.load dst.array dst.len = s.go.mem.load src.array src.len ∧
      back.table = s.go.table ∧
      ∀ a, (a < sp ∨ sp + 56 ≤ a) → (a < sp' ∨ sp' + 56 ≤ a) →
        (a < dst.array ∨ dst.array + dst.len ≤ a) → back.mem a = s.go.mem a := by
  intro sent back
  have hsound := ((within_start N mem).run hN hroom hs).1
  obtain ⟨-, -, harrays, htable, hframe⟩ := hsound.copyBytesToJS he hview hsrc
  have hload : (s.go.mem.load src.array src.len).length = v.length := by
    rw [Memory.load_length, hlen]
  rw [List.take_of_length_le hload.le] at harrays
  have hsent : sent.2 = arrays.set v (s.go.mem.load src.array src.len) := harrays
  have hviews : sent.2.views = arrays.views := by
    rw [hsent]
    rfl
  have hbytes : sent.2.bytes v = s.go.mem.load src.array src.len := by
    rw [hsent]
    exact Arrays.bytes_set hload
  have hview' : sent.2.views n = some v := hviews ▸ hview
  obtain ⟨-, -, hcopied, htable', hframe'⟩ :=
    (hsound.of_table htable).copyBytesToGo he hview' hdst
  rw [hlen', min_self, hbytes, List.take_of_length_le hload.le, ← hlen'] at hcopied
  refine ⟨hviews, hbytes, fun b a hout => ?_, hcopied, htable'.trans htable, fun a ha ha' hout => ?_⟩
  · rw [hsent]
    exact Arrays.set_outside hload.le hout
  · exact (hframe' a ha' hout).trans (hframe a ha)

/-- Two arrays of one buffer, which have a byte in common. -/
def overlappingViews : Arrays where
  views := fun n => if n = 7 then some ⟨0, 0, 3⟩ else if n = 8 then some ⟨0, 2, 2⟩ else none
  buffers := fun _ _ => 0

/-- Three bytes go from address 100 by way of an array to address 200. -/
theorem bytes_cross_three :
    let mem : Memory := Memory.store (fun _ => 0) 100 [1, 2, 3]
    ∃ s w, machine.run (start mem) [.receive 64 (.object 7)] = some s ∧
      (w, .object 7) ∈ s.held ∧
      let sent := Runtime.copyBytesToJS
        { s.go with mem := argsToJS s.go.mem 1000 w ⟨100, 3⟩ } overlappingViews 1000
      let back := Runtime.copyBytesToGo
        { sent.1 with mem := argsToGo sent.1.mem 2000 ⟨200, 3⟩ w } sent.2 2000
      sent.2.views = overlappingViews.views ∧
        sent.2.bytes ⟨0, 0, 3⟩ = s.go.mem.load 100 3 ∧
        (∀ b a, (b ≠ 0 ∨ a < 0 ∨ 0 + 3 ≤ a) →
          sent.2.buffers b a = overlappingViews.buffers b a) ∧
        back.mem.load 200 3 = s.go.mem.load 100 3 ∧ back.table = s.go.table ∧
        ∀ a, (a < 1000 ∨ 1000 + 56 ≤ a) → (a < 2000 ∨ 2000 + 56 ≤ a) →
          (a < 200 ∨ 200 + 3 ≤ a) → back.mem a = s.go.mem a :=
  ⟨_, _, rfl, List.mem_cons_self, bytes_cross (N := 1) (v := ⟨0, 0, 3⟩) (by decide)
    (by decide : machine.Admits (Below 1) (start _) [.receive 64 (.object 7)]) rfl
    List.mem_cons_self rfl (by decide : Slice.Apart ⟨100, 3⟩ 1000)
    (by decide : Slice.Apart ⟨200, 3⟩ 2000) rfl rfl⟩

end Refs
end SshClientWasm.Runtime
