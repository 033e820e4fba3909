import SshClientWasm.Library.Cursor
import SshClientWasm.Library.Unicode

/-!
# The arguments of a Go program

`Go.run` passes the command line and the environment in the linear memory: the strings one
after the other from address 4096 on, and behind them a table of pointers to them, which is
what the program gets. The data of the program may begin 8192 bytes further on.
-/
namespace SshClientWasm.Runtime

open Library

/-- `encoder.encode`. -/
def encode (s : String) : Bytes := Coding.utf8.encode s.toList

/-- A string with the zero byte that closes it. -/
def terminated (s : String) : Bytes := encode (s ++ "\x00")

/-- The UTF-16 code units of a string. -/
def codeUnits (s : String) : List UInt16 := Coding.utf16.encode s.toList

/-- The entries of an object, its keys as `sort` orders them. -/
def sorted (env : List (String × String)) : List (String × String) :=
  env.mergeSort fun x y => !decide (codeUnits y.1 < codeUnits x.1)

/-- The lines of the environment. -/
def environ (env : List (String × String)) : List String :=
  (sorted env).map fun (key, value) => key ++ "=" ++ value

/-- `strPtr`, for one string after the other. -/
def strPtrs (strs : List String) (c : Cursor) : Cursor × List ℕ := c.puts 8 (strs.map terminated)

/-- A pointer of the table. -/
def writePtr (c : Cursor) (ptr : ℕ) : Cursor :=
  ⟨(c.mem.setUint 4 c.offset ptr).setUint 4 (c.offset + 4) 0, c.offset + 8⟩

def wasmMinDataAddr : ℕ := 4096 + 8192

/-- `Go.run`, up to the call of the program: the memory, `argc` and `argv`. -/
def run (mem : Memory) (argv : List String) (env : List (String × String)) :
    Except String (Memory × ℕ × ℕ) :=
  let (c, args) := strPtrs argv ⟨mem, 4096⟩
  let (c, vars) := strPtrs (environ env) c
  let block := (args ++ [0] ++ vars ++ [0]).foldl writePtr c
  if wasmMinDataAddr ≤ block.offset then
    .error "total length of command line and environment variables exceeds limit"
  else .ok (block.mem, argv.length, c.offset)

/-- A table of pointers to strings in the block, closed with a null pointer. A string with
a zero character is read up to there. -/
def Reads (mem : Memory) (table : ℕ) (strs : List String) : Prop :=
  (∀ i (hi : i < strs.length),
    4096 ≤ mem.getUint 8 (table + 8 * i) ∧ mem.getUint 8 (table + 8 * i) < wasmMinDataAddr ∧
      mem.cstring wasmMinDataAddr (mem.getUint 8 (table + 8 * i)) =
        (encode strs[i]).takeWhile (· ≠ 0)) ∧
    mem.getUint 8 (table + 8 * strs.length) = 0

/-- How much of the memory strings take up. -/
def stringsSize (strs : List String) : ℕ := Cursor.size 8 (strs.map terminated)

theorem terminated_eq (s : String) : terminated s = encode s ++ [0] := by
  rw [terminated, encode, encode, String.toList_append, Coding.encode_append]
  rfl

/-- The eight bytes of a pointer. -/
def ptrBytes (ptr : ℕ) : Bytes := leBytes 4 ptr ++ leBytes 4 0

theorem ptrBytes_length (ptr : ℕ) : (ptrBytes ptr).length = 8 := by
  rw [ptrBytes, List.length_append, leBytes_length, leBytes_length]

theorem leNat_ptrBytes {ptr : ℕ} (h : ptr < 2 ^ 32) : leNat (ptrBytes ptr) = ptr := by
  rw [ptrBytes, leNat_append, leNat_leBytes, leNat_leBytes]
  norm_num at h ⊢
  omega

theorem writePtr_eq {c : Cursor} (hc : c.offset % 8 = 0) (ptr : ℕ) :
    writePtr c ptr = (c.put 8 (ptrBytes ptr)).1 := by
  have hstore := Memory.store_append c.mem c.offset (leBytes 4 ptr) (leBytes 4 0)
  rw [leBytes_length] at hstore
  rw [writePtr, Memory.setUint, Memory.setUint, hstore, Cursor.put, ptrBytes_length, alignUp_add hc]
  rfl

theorem foldl_writePtr : ∀ {ptrs : List ℕ} {c : Cursor}, c.offset % 8 = 0 →
    ptrs.foldl writePtr c = (c.puts 8 (ptrs.map ptrBytes)).1 := by
  intro ptrs
  induction ptrs with
  | nil => exact fun _ => rfl
  | cons ptr ptrs ih =>
    intro c hc
    rw [List.foldl_cons, writePtr_eq hc, ih (alignUp_mod (by decide) _)]
    rfl

theorem getUint_table {ptrs : List ℕ} {c : Cursor} {i ptr : ℕ} (hc : c.offset % 8 = 0)
    (hi : ptrs[i]? = some ptr) (hptr : ptr < 2 ^ 32) :
    (c.puts 8 (ptrs.map ptrBytes)).1.mem.getUint 8 (c.offset + 8 * i) = ptr := by
  have hlen : ∀ bytes ∈ ptrs.map ptrBytes, bytes.length = 8 := by
    intro bytes hbytes
    obtain ⟨p, -, rfl⟩ := List.mem_map.mp hbytes
    exact ptrBytes_length p
  have hload := @Cursor.puts_load 8 (ptrs.map ptrBytes) c
  rw [Cursor.puts_table (by decide) hlen hc, List.length_map] at hload
  obtain ⟨hlt, hget⟩ := List.getElem?_eq_some_iff.mp hi
  have hrecord := (List.forall₂_iff_get.mp hload).2 i (by simpa using hlt) (by simpa using hlt)
  simp only [List.get_eq_getElem, List.getElem_map, List.getElem_range, hget, ptrBytes_length] at hrecord
  rw [Memory.getUint, hrecord.2.2, leNat_ptrBytes hptr]

/-- Strings that lie in the block at their pointers. -/
def Placed (mem : Memory) : List String → List ℕ → Prop :=
  List.Forall₂ fun s ptr => 4096 ≤ ptr ∧ ptr + (terminated s).length ≤ wasmMinDataAddr ∧
    mem.load ptr (terminated s).length = terminated s

theorem Placed.lt {mem : Memory} {strs : List String} {ptrs : List ℕ} (h : Placed mem strs ptrs)
    {ptr : ℕ} (hptr : ptr ∈ ptrs) : ptr < 2 ^ 32 := by
  obtain ⟨i, hi, rfl⟩ := List.getElem_of_mem hptr
  have hplace := (List.forall₂_iff_get.mp h).2 i (h.length_eq ▸ hi) hi
  simp only [List.get_eq_getElem, wasmMinDataAddr] at hplace
  omega

theorem placed_strPtrs {strs : List String} {c : Cursor} {mem : Memory} (hlow : 4096 ≤ c.offset)
    (hhigh : (strPtrs strs c).1.offset ≤ wasmMinDataAddr)
    (hmem : ∀ a n, a + n ≤ (strPtrs strs c).1.offset → mem.load a n = (strPtrs strs c).1.mem.load a n) :
    Placed mem strs (strPtrs strs c).2 := by
  refine (List.forall₂_map_left_iff.mp Cursor.puts_load).imp ?_
  rintro s ptr ⟨hge, hle, hload⟩
  exact ⟨hlow.trans hge, hle.trans hhigh, (hmem ptr _ hle).trans hload⟩

theorem Placed.reads {mem : Memory} {strs : List String} {ptrs : List ℕ} {table : ℕ}
    (h : Placed mem strs ptrs)
    (htable : ∀ i ptr, (ptrs ++ [0])[i]? = some ptr → mem.getUint 8 (table + 8 * i) = ptr) :
    Reads mem table strs := by
  have hlen : strs.length = ptrs.length := h.length_eq
  constructor
  · intro i hi
    have hplace := (List.forall₂_iff_get.mp h).2 i hi (hlen ▸ hi)
    simp only [List.get_eq_getElem] at hplace
    obtain ⟨hge, hle, hload⟩ := hplace
    have hi' : i < ptrs.length := hlen ▸ hi
    have hptr := htable i ptrs[i] (by
      rw [List.getElem?_append_left hi', List.getElem?_eq_getElem hi'])
    rw [hptr]
    rw [terminated_eq, List.length_append] at hload hle
    refine ⟨hge, lt_of_lt_of_le (Nat.lt_add_of_pos_right (Nat.succ_pos _)) hle, ?_⟩
    exact Memory.cstring_of_load hload (by simp [wasmMinDataAddr] at *; omega)
  · refine htable strs.length 0 ?_
    rw [hlen, List.getElem?_append_right le_rfl, Nat.sub_self]
    rfl

theorem environ_perm (env : List (String × String)) :
    (environ env).Perm (env.map fun (key, value) => key ++ "=" ++ value) :=
  (List.mergeSort_perm env _).map _

theorem environ_length (env : List (String × String)) : (environ env).length = env.length := by
  rw [(environ_perm env).length_eq, List.length_map]

/-- The pointers that `Go.run` collects. -/
def pointers (mem : Memory) (argv vars : List String) : List ℕ :=
  let (c, args) := strPtrs argv ⟨mem, 4096⟩
  args ++ [0] ++ (strPtrs vars c).2 ++ [0]

/-- The block, record by record, and how far it goes. -/
theorem block_eq (mem : Memory) (argv vars : List String) :
    let c := (strPtrs vars (strPtrs argv ⟨mem, 4096⟩).1).1
    let block := c.puts 8 ((pointers mem argv vars).map ptrBytes)
    (pointers mem argv vars).foldl writePtr c = block.1 ∧
      c.offset = 4096 + stringsSize argv + stringsSize vars ∧ c.offset % 8 = 0 ∧
      block.1.offset = c.offset + 8 * (argv.length + vars.length + 2) := by
  intro c block
  have haligned : 0 < 8 := by decide
  obtain ⟨hfirst, hfirst8⟩ := Cursor.puts_aligned haligned (argv.map terminated) ⟨mem, 4096⟩
    (by simp)
  obtain ⟨hsecond, hsecond8⟩ := Cursor.puts_aligned haligned (vars.map terminated) _ hfirst8
  obtain ⟨hthird, -⟩ :=
    Cursor.puts_aligned haligned ((pointers mem argv vars).map ptrBytes) _ hsecond8
  refine ⟨foldl_writePtr hsecond8, ?_, hsecond8, hthird.trans ?_⟩
  · exact hsecond.trans (congrArg (· + stringsSize vars) hfirst)
  · rw [Cursor.size_table]
    · simp [pointers, strPtrs, Cursor.puts_length, c]
      omega
    · intro bytes hbytes
      obtain ⟨ptr, -, rfl⟩ := List.mem_map.mp hbytes
      exact ptrBytes_length ptr

/-- For every command line and environment: if they take up less than 8192 bytes with their
table, the program gets tables from which it reads each string back, and nothing changes
outside of these bytes; otherwise it is not started. -/
theorem run_arguments (mem : Memory) (argv : List String) (env : List (String × String)) :
    if stringsSize argv + stringsSize (environ env) + 8 * (argv.length + env.length + 2) < 8192 then
      ∃ mem' table, run mem argv env = .ok (mem', argv.length, table) ∧ table % 8 = 0 ∧
        Reads mem' table argv ∧ Reads mem' (table + 8 * (argv.length + 1)) (environ env) ∧
        ∀ a, a < 4096 ∨ wasmMinDataAddr ≤ a → mem' a = mem a
    else
      run mem argv env =
        .error "total length of command line and environment variables exceeds limit" := by
  obtain ⟨hblock, hoffset, haligned, hend⟩ := block_eq mem argv (environ env)
  have hrun : run mem argv env = if wasmMinDataAddr ≤
        ((strPtrs (environ env) (strPtrs argv ⟨mem, 4096⟩).1).1.puts 8
          ((pointers mem argv (environ env)).map ptrBytes)).1.offset then
      .error "total length of command line and environment variables exceeds limit"
    else .ok (((strPtrs (environ env) (strPtrs argv ⟨mem, 4096⟩).1).1.puts 8
        ((pointers mem argv (environ env)).map ptrBytes)).1.mem, argv.length,
      (strPtrs (environ env) (strPtrs argv ⟨mem, 4096⟩).1).1.offset) := by
    rw [← hblock]
    rfl
  rw [hrun]
  set c₁ := (strPtrs argv ⟨mem, 4096⟩).1 with hc₁
  set c₂ := (strPtrs (environ env) c₁).1 with hc₂
  set c₃ := (c₂.puts 8 ((pointers mem argv (environ env)).map ptrBytes)).1 with hc₃
  rw [environ_length] at hend
  have hstrings : 4096 ≤ c₁.offset ∧ c₁.offset ≤ c₂.offset :=
    ⟨Cursor.le_offset _ ⟨mem, 4096⟩, Cursor.le_offset _ c₁⟩
  have hlow : ∀ a n, a + n ≤ c₂.offset → c₃.mem.load a n = c₂.mem.load a n :=
    fun a n h => Cursor.load_puts h
  have hmin : wasmMinDataAddr = 12288 := rfl
  split_ifs with hsize hlimit hlimit
  · omega
  · have hhigh : c₂.offset ≤ wasmMinDataAddr := by omega
    have hargs : Placed c₃.mem argv (strPtrs argv ⟨mem, 4096⟩).2 :=
      placed_strPtrs le_rfl (hstrings.2.trans hhigh)
        fun a n h => (hlow a n (h.trans hstrings.2)).trans (Cursor.load_puts h)
    have hvars : Placed c₃.mem (environ env) (strPtrs (environ env) c₁).2 :=
      placed_strPtrs hstrings.1 hhigh hlow
    have hpointers : pointers mem argv (environ env) =
        (strPtrs argv ⟨mem, 4096⟩).2 ++ [0] ++ ((strPtrs (environ env) c₁).2 ++ [0]) := by
      simp [pointers, hc₁]
    have hlt : ∀ ptr ∈ pointers mem argv (environ env), ptr < 2 ^ 32 := by
      intro ptr hptr
      rw [hpointers] at hptr
      simp only [List.mem_append, List.mem_singleton] at hptr
      rcases hptr with (hptr | rfl) | hptr | rfl
      · exact hargs.lt hptr
      · exact Nat.pow_pos (by decide)
      · exact hvars.lt hptr
      · exact Nat.pow_pos (by decide)
    have hentry : ∀ i ptr, (pointers mem argv (environ env))[i]? = some ptr →
        c₃.mem.getUint 8 (c₂.offset + 8 * i) = ptr :=
      fun i ptr hi => getUint_table haligned hi (hlt ptr (List.mem_of_getElem? hi))
    have hlen : ((strPtrs argv ⟨mem, 4096⟩).2 ++ [0]).length = argv.length + 1 := by
      rw [List.length_append, hargs.length_eq]
      rfl
    refine ⟨c₃.mem, c₂.offset, rfl, haligned, hargs.reads ?_, hvars.reads ?_, ?_⟩
    · intro i ptr hi
      refine hentry i ptr ?_
      rw [hpointers, List.getElem?_append_left (List.getElem?_eq_some_iff.mp hi).1]
      exact hi
    · intro i ptr hi
      have hshift := hentry (argv.length + 1 + i) ptr (by
        rw [hpointers, List.getElem?_append_right (by omega), hlen, Nat.add_sub_cancel_left]
        exact hi)
      rwa [Nat.mul_add, ← Nat.add_assoc] at hshift
    · intro a ha
      calc c₃.mem a
        _ = c₂.mem a := Cursor.puts_outside (show a < c₂.offset ∨ c₃.offset ≤ a by omega)
        _ = c₁.mem a := Cursor.puts_outside (show a < c₁.offset ∨ c₂.offset ≤ a by omega)
        _ = mem a := Cursor.puts_outside (show a < 4096 ∨ c₁.offset ≤ a by omega)
  · rfl
  · omega

end SshClientWasm.Runtime
