import SshClientWasm.Library.Memory

/-!
# Writing a block of records

A cursor moves over a memory from below. Each record is stored where the cursor is, and the
cursor goes on to the next aligned address behind it, so that records never touch each
other and nothing outside of the block changes.
-/
namespace SshClientWasm.Library

/-- The next multiple of an alignment, if it is not one already. -/
def alignUp (align n : ℕ) : ℕ := if n % align = 0 then n else n + (align - n % align)

theorem le_alignUp (align n : ℕ) : n ≤ alignUp align n := by
  unfold alignUp
  split_ifs <;> omega

theorem alignUp_mod {align : ℕ} (h : 0 < align) (n : ℕ) : alignUp align n % align = 0 := by
  unfold alignUp
  split_ifs with hn
  · exact hn
  · have hlt := Nat.mod_lt n h
    have hdiv := Nat.div_add_mod n align
    have hsum : n + (align - n % align) = align * (n / align + 1) := by
      rw [Nat.mul_add, Nat.mul_one]
      omega
    rw [hsum, Nat.mul_mod_right]

theorem alignUp_add {align base : ℕ} (h : base % align = 0) (n : ℕ) :
    alignUp align (base + n) = base + alignUp align n := by
  have hmod : (base + n) % align = n % align := by
    rw [Nat.add_mod, h, Nat.zero_add, Nat.mod_mod]
  unfold alignUp
  rw [hmod]
  split_ifs <;> omega

/-- A memory, and where the next record goes. -/
structure Cursor where
  mem : Memory
  offset : ℕ

namespace Cursor

variable (align : ℕ)

/-- The cursor behind a record, and the address of the record. -/
def put (c : Cursor) (bytes : Bytes) : Cursor × ℕ :=
  (⟨c.mem.store c.offset bytes, alignUp align (c.offset + bytes.length)⟩, c.offset)

/-- Records in a row, and their addresses. -/
def puts : List Bytes → Cursor → Cursor × List ℕ
  | [], c => (c, [])
  | bytes :: records, c =>
    let (c', addr) := c.put align bytes
    let (c'', addrs) := puts records c'
    (c'', addr :: addrs)

/-- How far records in a row take a cursor. -/
def size (records : List Bytes) : ℕ := (records.map fun bytes => alignUp align bytes.length).sum

variable {align} {c : Cursor} {records : List Bytes}

theorem le_offset : ∀ (records : List Bytes) (c : Cursor),
    c.offset ≤ (puts align records c).1.offset := by
  intro records
  induction records with
  | nil => exact fun _ => le_rfl
  | cons bytes records ih =>
    intro c
    have hfirst := le_alignUp align (c.offset + bytes.length)
    exact (Nat.le_add_right ..).trans (hfirst.trans (ih (c.put align bytes).1))

theorem puts_outside : ∀ {records : List Bytes} {c : Cursor} {a : ℕ},
    a < c.offset ∨ (puts align records c).1.offset ≤ a → (puts align records c).1.mem a = c.mem a := by
  intro records
  induction records with
  | nil => exact fun _ => rfl
  | cons bytes records ih =>
    intro c a ha
    have hfirst := le_alignUp align (c.offset + bytes.length)
    have hrest := @le_offset align records (c.put align bytes).1
    change (puts align records (c.put align bytes).1).1.mem a = c.mem a
    rw [ih]
    · exact Memory.store_outside (by simp only [puts, put] at *; omega)
    · simp only [puts, put] at *
      omega

theorem load_puts {addr n : ℕ} (h : addr + n ≤ c.offset) :
    (puts align records c).1.mem.load addr n = c.mem.load addr n :=
  Memory.load_congr fun _ _ hlt => puts_outside (Or.inl (by omega))

/-- Every record is found whole at its address, in the block. -/
theorem puts_load : ∀ {records : List Bytes} {c : Cursor},
    List.Forall₂ (fun bytes addr => c.offset ≤ addr ∧
        addr + bytes.length ≤ (puts align records c).1.offset ∧
        (puts align records c).1.mem.load addr bytes.length = bytes) records
      (puts align records c).2 := by
  intro records
  induction records with
  | nil => exact fun {c} => .nil
  | cons bytes records ih =>
    intro c
    have hfirst := le_alignUp align (c.offset + bytes.length)
    have hrest := @le_offset align records (c.put align bytes).1
    simp only [puts]
    refine .cons ⟨le_rfl, ?_, ?_⟩ (ih.imp fun bytes' addr h => ⟨?_, h.2⟩)
    · simp only [put] at *
      omega
    · -- the records behind leave the first as it was stored
      exact (load_puts (c := (c.put align bytes).1) hfirst).trans (Memory.load_store ..)
    · have hbehind := h.1
      simp only [put] at *
      omega

theorem puts_length : ∀ {records : List Bytes} {c : Cursor},
    (puts align records c).2.length = records.length := by
  intro records
  induction records with
  | nil => exact rfl
  | cons bytes records ih =>
    intro c
    exact congrArg (· + 1) ih

theorem puts_aligned (h : 0 < align) : ∀ (records : List Bytes) (c : Cursor),
    c.offset % align = 0 → (puts align records c).1.offset = c.offset + size align records ∧
      (puts align records c).1.offset % align = 0 := by
  intro records
  induction records with
  | nil => exact fun _ hc => ⟨rfl, hc⟩
  | cons bytes records ih =>
    intro c hc
    obtain ⟨hoffset, hmod⟩ := ih (c.put align bytes).1 (alignUp_mod h _)
    refine ⟨hoffset.trans ?_, hmod⟩
    rw [size, size, List.map_cons, List.sum_cons, ← Nat.add_assoc]
    exact congrArg (· + _) (alignUp_add hc _)

theorem size_table : ∀ {records : List Bytes}, (∀ bytes ∈ records, bytes.length = align) →
    size align records = align * records.length := by
  intro records
  induction records with
  | nil => exact fun _ => rfl
  | cons bytes records ih =>
    intro hlen
    obtain ⟨hbytes, hrest⟩ := List.forall_mem_cons.mp hlen
    have hsize := ih hrest
    rw [size] at hsize ⊢
    rw [List.map_cons, List.sum_cons, hsize, hbytes, alignUp, if_pos (Nat.mod_self align),
      List.length_cons, Nat.mul_succ, Nat.add_comm]

theorem puts_table (h : 0 < align) : ∀ {records : List Bytes} {c : Cursor},
    (∀ bytes ∈ records, bytes.length = align) → c.offset % align = 0 →
      (puts align records c).2 = (List.range records.length).map fun i => c.offset + align * i := by
  intro records
  induction records with
  | nil => exact fun _ _ => rfl
  | cons bytes records ih =>
    intro c hlen hc
    obtain ⟨hbytes, hrest⟩ := List.forall_mem_cons.mp hlen
    have hnext : (c.put align bytes).1.offset = c.offset + align := by
      change alignUp align (c.offset + bytes.length) = _
      rw [alignUp_add hc, hbytes, alignUp, if_pos (Nat.mod_self align)]
    have htable := @ih (c.put align bytes).1 hrest (alignUp_mod h _)
    rw [hnext] at htable
    change c.offset :: (puts align records (c.put align bytes).1).2 = _
    rw [htable, List.length_cons, List.range_succ_eq_map, List.map_cons, List.map_map, Nat.mul_zero]
    refine congrArg (c.offset :: ·) (List.map_congr_left fun i _ => ?_)
    rw [Function.comp_apply, Nat.mul_succ]
    omega

end Cursor
end SshClientWasm.Library
