import SshClientWasm.Library.Machine
import SshClientWasm.Runtime.Values

/-!
# The references of the Go program

Whatever an imported function returns is stored as a word that Go keeps. Go's runtime
runs one finalizer for each word with a type flag once nothing in Go uses it; it
attaches none to the others, so that a word without a flag just goes, and the table
counts it for ever if it is the word of a bigint. Along a run the words that Go has
not given up are remembered with the values they were stored for, and so are the
words that only the table still counts.
-/
namespace SshClientWasm.Runtime

open Library

/-- The program with the words it holds, and those it has dropped without a finalizer. -/
structure Refs where
  go : Go
  held : List (ℕ × Value)
  dropped : List (ℕ × Value)

inductive Action
  /-- Go's own code writes its memory. -/
  | write (addr : ℕ) (b : UInt8)
  /-- An imported function stores a result, which Go takes over. -/
  | receive (addr : ℕ) (v : Value)
  /-- The finalizer of a word runs. -/
  | finalize (sp i : ℕ)
  /-- Go forgets a word without a finalizer. -/
  | forget (i : ℕ)

/-- Go attaches a finalizer to a NaN with a type flag. -/
def Finalizable (w : ℕ) : Prop := IsNaN w ∧ w / 2 ^ 32 % 8 ≠ 0

instance : DecidablePred Finalizable := fun _ => inferInstanceAs (Decidable (_ ∧ _))

/-- Numbers, `undefined` and the predefined values are not counted. -/
def Uncounted (e : ℕ × Value) : Prop := ¬e.2.IsRef ∨ e.1 % 2 ^ 32 < predefined.length

instance : DecidablePred Uncounted := fun _ => inferInstanceAs (Decidable (_ ∨ _))

namespace Refs

def step (s : Refs) : Action → Option Refs
  | .write addr b => some { s with go := { s.go with mem := Function.update s.go.mem addr b } }
  | .receive addr v =>
    let go := s.go.storeValue addr v
    some { s with go := go, held := (go.mem.getUint 8 addr, v) :: s.held }
  | .finalize sp i =>
    match s.held[i]? with
    | some e =>
      if Finalizable e.1 then
        let go := { s.go with mem := s.go.mem.setUint 8 (sp + 8) e.1 }
        some { s with go := go.finalizeRef sp, held := s.held.eraseIdx i }
      else none
    | none => none
  | .forget i =>
    match s.held[i]? with
    | some e =>
      if Uncounted e then some { s with held := s.held.eraseIdx i }
      else if ¬Finalizable e.1 then
        some { s with held := s.held.eraseIdx i, dropped := e :: s.dropped }
      else none
    | none => none

def machine : Machine Refs Action := ⟨step⟩

/-- The program as `run` starts it. -/
def start (mem : Memory) : Refs := ⟨.start mem, [], []⟩

/-- All words that the table counts. -/
def account (s : Refs) : List (ℕ × Value) := s.held ++ s.dropped

/-- The entries of the table that words stand for. -/
def lent (held : List (ℕ × Value)) : List (ℕ × Value) :=
  held.filterMap fun e => if e.2.IsRef then some (e.1 % 2 ^ 32, e.2.mapKey) else none

theorem lent_cons_of_isRef {w : ℕ} {v : Value} (h : v.IsRef) (held : List (ℕ × Value)) :
    lent ((w, v) :: held) = (w % 2 ^ 32, v.mapKey) :: lent held := by
  simp only [lent, List.filterMap_cons, if_pos h]

theorem lent_cons_of_not_isRef {w : ℕ} {v : Value} (h : ¬v.IsRef) (held : List (ℕ × Value)) :
    lent ((w, v) :: held) = lent held := by
  simp only [lent, List.filterMap_cons, if_neg h]

theorem mem_lent {held : List (ℕ × Value)} {e : ℕ × Value} (he : e ∈ held) (h : e.2.IsRef) :
    (e.1 % 2 ^ 32, e.2.mapKey) ∈ lent held :=
  List.mem_filterMap.mpr ⟨e, he, if_pos h⟩

theorem of_mem_lent {held : List (ℕ × Value)} {i : ℕ} {k : Value} (h : (i, k) ∈ lent held) :
    ∃ e ∈ held, e.2.mapKey = k := by
  obtain ⟨e, he, heq⟩ := List.mem_filterMap.mp h
  split_ifs at heq with href
  · cases heq
    exact ⟨e, he, rfl⟩

/-- The table accounts for what Go holds, and every word is the one of its value. -/
structure Sound (s : Refs) : Prop where
  lends : s.go.table.Lends predefined (lent s.account)
  cleared : s.go.table.Cleared .null
  words : ∀ e ∈ s.account, e.1 = word e.2 (e.1 % 2 ^ 32)
  dropped : ∀ e ∈ s.dropped, e.2.IsRef ∧ ¬Finalizable e.1

theorem mem_account {s : Refs} {e : ℕ × Value} (he : e ∈ s.held) : e ∈ s.account :=
  List.mem_append_left _ he

theorem sound_start (mem : Memory) : (start mem).Sound where
  lends :=
    { lengths := rfl
      pinned_le := le_rfl
      pinned := by
        intro i hi
        simp only [start, Go.start, List.getElem?_map, List.getElem?_eq_getElem hi, Option.map_some]
      kept := fun _ _ => rfl
      counted := fun i hi hlt => absurd hlt (not_lt.mpr hi)
      valued := fun i k hmem => by cases hmem
      known := fun i k hmem => by cases hmem
      sound := by
        intro k i hk
        obtain ⟨hval, hlt⟩ := predefined_of_id hk
        exact ⟨hval, fun hi => absurd hlt (not_lt.mpr hi)⟩
      free := by
        intro i
        constructor
        · exact fun hmem => by cases hmem
        · rintro ⟨hi, hlt, -⟩
          exact absurd hlt (not_lt.mpr hi)
      nodup := List.nodup_nil }
  cleared := fun i hi => by cases hi
  words := fun e he => by cases he
  dropped := fun e he => by cases he

theorem Sound.receive {s : Refs} (h : s.Sound) (addr : ℕ) (v : Value)
    (hroom : s.account.length + predefined.length < 2 ^ 32)
    (hsize : s.go.table.values.length ≤ 2 ^ 32) :
    Sound { s with
      go := s.go.storeValue addr v
      held := ((s.go.storeValue addr v).mem.getUint 8 addr, v) :: s.held } := by
  by_cases hv : v.IsRef
  · have hid := h.lends.acquire v.mapKey
    have hlen := h.lends.length_acquire v.mapKey
    have hlent : (lent s.account).length ≤ s.account.length := List.length_filterMap_le _ _
    have hlt : (s.go.table.acquire v.mapKey).2 < 2 ^ 32 :=
      lt_of_lt_of_le (hid.lt List.mem_cons_self) (hlen.trans (max_le hsize (by omega)))
    have hword : (s.go.storeRef addr v).mem.getUint 8 addr =
        word v (s.go.table.acquire v.mapKey).2 := Go.storeRef_word hv
    have hmod : word v (s.go.table.acquire v.mapKey).2 % 2 ^ 32 = (s.go.table.acquire v.mapKey).2 := by
      rw [word_of_isRef hv]
      omega
    rw [Go.storeValue_of_isRef hv, hword]
    constructor
    case lends =>
      rw [account, List.cons_append, lent_cons_of_isRef hv, hmod]
      exact hid
    case cleared => exact h.cleared.acquire h.lends v.mapKey
    case words =>
      intro e he
      rcases List.mem_cons.mp he with rfl | he
      · exact congrArg (word v) hmod.symm
      · exact h.words e he
    case dropped => exact h.dropped
  · constructor
    case lends =>
      rw [account, List.cons_append, lent_cons_of_not_isRef hv, Go.storeValue_table_of_not_isRef hv]
      exact h.lends
    case cleared =>
      rw [Go.storeValue_table_of_not_isRef hv]
      exact h.cleared
    case words =>
      intro e he
      rcases List.mem_cons.mp he with rfl | he
      · exact Go.storeValue_word_of_not_isRef hv _
      · exact h.words e he
    case dropped => exact h.dropped

theorem isRef_of_finalizable {v : Value} {id : ℕ} (h : Finalizable (word v id)) : v.IsRef := by
  by_contra hv
  obtain ⟨hnan, hflag⟩ := h
  cases v with
  | undefined => exact absurd hnan (show ¬IsNaN 0 by decide)
  | number x =>
    have hx : ¬x.IsZero := hv
    rw [word, if_neg hx] at hnan hflag
    rw [x.canonical hnan] at hflag
    exact hflag (by decide)
  | _ => exact hv trivial

theorem account_eraseIdx {s : Refs} {i : ℕ} {e : ℕ × Value} (h : s.held[i]? = some e) :
    s.account.Perm (e :: account { s with held := s.held.eraseIdx i }) := by
  obtain ⟨hlt, rfl⟩ := List.getElem?_eq_some_iff.mp h
  exact (List.getElem_cons_eraseIdx_perm hlt).symm.append_right s.dropped

theorem mem_account_of_eraseIdx {s : Refs} {i : ℕ} {e : ℕ × Value}
    (h : e ∈ account { s with held := s.held.eraseIdx i }) : e ∈ s.account := by
  rcases List.mem_append.mp h with hheld | hdropped
  · exact mem_account (List.mem_of_mem_eraseIdx hheld)
  · exact List.mem_append_right _ hdropped

theorem finalizeRef_table (s : Go) (sp w : ℕ) :
    (Go.finalizeRef { s with mem := s.mem.setUint 8 (sp + 8) w } sp).table =
      s.table.release .null (w % 2 ^ 32) := by
  have hword : (s.mem.setUint 8 (sp + 8) w).getUint 4 (sp + 8) = w % 2 ^ 32 := by
    rw [getUint_low, Memory.getUint_setUint]
    omega
  rw [Go.finalizeRef, hword]

theorem Sound.finalize {s : Refs} (h : s.Sound) {i : ℕ} {e : ℕ × Value} (sp : ℕ)
    (he : s.held[i]? = some e) (hfin : Finalizable e.1) :
    Sound { s with
      go := Go.finalizeRef { s.go with mem := s.go.mem.setUint 8 (sp + 8) e.1 } sp
      held := s.held.eraseIdx i } := by
  have hmem : e ∈ s.account := mem_account (List.mem_of_getElem? he)
  have href : e.2.IsRef := isRef_of_finalizable (h.words e hmem ▸ hfin)
  have hlends := h.lends.perm ((account_eraseIdx he).filterMap _)
  change Handles.Lends _ _ (lent _) at hlends
  rw [lent_cons_of_isRef (w := e.1) href] at hlends
  constructor
  case lends =>
    rw [finalizeRef_table]
    exact hlends.release .null
  case cleared =>
    rw [finalizeRef_table]
    exact h.cleared.release _ (hlends.lt List.mem_cons_self)
  case words => exact fun f hf => h.words f (mem_account_of_eraseIdx hf)
  case dropped => exact h.dropped

theorem Sound.forget {s : Refs} (h : s.Sound) {i : ℕ} {e : ℕ × Value}
    (he : s.held[i]? = some e) (hfree : Uncounted e) :
    Sound { s with held := s.held.eraseIdx i } := by
  have hlends := h.lends.perm ((account_eraseIdx he).filterMap _)
  change Handles.Lends _ _ (lent _) at hlends
  constructor
  case lends =>
    by_cases href : e.2.IsRef
    · rw [lent_cons_of_isRef (w := e.1) href] at hlends
      exact hlends.forget (hfree.resolve_left (not_not.mpr href))
    · rwa [lent_cons_of_not_isRef (w := e.1) href] at hlends
  case cleared => exact h.cleared
  case words => exact fun f hf => h.words f (mem_account_of_eraseIdx hf)
  case dropped => exact h.dropped

/-- A counted word without a finalizer stays counted when Go forgets it. -/
theorem Sound.drop {s : Refs} (h : s.Sound) {i : ℕ} {e : ℕ × Value} (he : s.held[i]? = some e)
    (hcounted : ¬Uncounted e) (hfin : ¬Finalizable e.1) :
    Sound { s with held := s.held.eraseIdx i, dropped := e :: s.dropped } := by
  have hperm : s.account.Perm
      (account { s with held := s.held.eraseIdx i, dropped := e :: s.dropped }) :=
    (account_eraseIdx he).trans List.perm_middle.symm
  have href : e.2.IsRef := not_not.mp (not_or.mp hcounted).1
  constructor
  case lends => exact h.lends.perm (hperm.filterMap _)
  case cleared => exact h.cleared
  case words => exact fun f hf => h.words f (hperm.mem_iff.mpr hf)
  case dropped =>
    intro f hf
    rcases List.mem_cons.mp hf with rfl | hf
    · exact ⟨href, hfin⟩
    · exact h.dropped f hf

theorem Sound.bigint_of_dropped {s : Refs} (h : s.Sound) {e : ℕ × Value} (he : e ∈ s.dropped) :
    e.2.mapKey ∈ predefined ∨ ∃ z, e.2 = .bigint z := by
  obtain ⟨href, hfin⟩ := h.dropped e he
  have hflag : e.2.typeFlag = 0 := by
    by_contra hne
    have hword := h.words e (List.mem_append_right _ he)
    have hlt := e.2.typeFlag_lt
    rw [word_of_isRef href] at hword
    refine hfin ⟨?_, ?_⟩
    · rw [hword]
      exact isNaN_head (Nat.mod_lt _ (by decide)) hlt
    · rw [hword]
      unfold nanHead
      omega
  obtain ⟨w, v⟩ := e
  dsimp only at href hflag ⊢
  cases v with
  | undefined => exact href.elim
  | null => exact Or.inl (List.mem_of_getElem? (i := 2) rfl)
  | boolean b =>
    cases b with
    | true => exact Or.inl (List.mem_of_getElem? (i := 3) rfl)
    | false => exact Or.inl (List.mem_of_getElem? (i := 4) rfl)
  | number x =>
    have hzero : (Value.number x).mapKey = .number .zero := if_pos href
    rw [hzero]
    exact Or.inl (List.mem_of_getElem? (i := 1) rfl)
  | bigint z => exact Or.inr ⟨z, rfl⟩
  | _ => cases hflag

/-- The account is right, and the table has room for no more than were counted at once. -/
def Within (N : ℕ) (s : Refs) : Prop :=
  s.Sound ∧ s.go.table.values.length ≤ predefined.length + N

theorem storeValue_length_le {s : Refs} (h : s.Sound) (addr : ℕ) (v : Value) :
    (s.go.storeValue addr v).table.values.length ≤
      max s.go.table.values.length (predefined.length + s.account.length + 1) := by
  by_cases hv : v.IsRef
  · have hlent : (lent s.account).length ≤ s.account.length := List.length_filterMap_le _ _
    rw [Go.storeValue_of_isRef hv]
    exact (h.lends.length_acquire v.mapKey).trans (max_le_max le_rfl (by omega))
  · rw [Go.storeValue_table_of_not_isRef hv]
    exact le_max_left _ _

theorem Within.step {N : ℕ} (hN : predefined.length + N ≤ 2 ^ 32) {s t : Refs} {a : Action}
    (h : s.Within N) (hroom : s.account.length < N) (ht : machine.step s a = some t) : t.Within N := by
  obtain ⟨hsound, hsize⟩ := h
  cases a with
  | write addr b =>
    cases ht
    exact ⟨⟨hsound.lends, hsound.cleared, hsound.words, hsound.dropped⟩, hsize⟩
  | receive addr v =>
    cases ht
    refine ⟨hsound.receive addr v (by omega) (hsize.trans hN), ?_⟩
    exact (storeValue_length_le hsound addr v).trans (max_le hsize (by omega))
  | finalize sp i =>
    simp only [machine, Refs.step] at ht
    split at ht
    · rename_i e he
      split_ifs at ht with hfin
      cases ht
      refine ⟨hsound.finalize sp he hfin, ?_⟩
      rw [finalizeRef_table, Handles.length_release]
      exact hsize
    · cases ht
  | forget i =>
    simp only [machine, Refs.step] at ht
    split at ht
    · rename_i e he
      split_ifs at ht with hfree hfin
      · cases ht
        exact ⟨hsound.forget he hfree, hsize⟩
      · cases ht
        exact ⟨hsound.drop he hfree hfin, hsize⟩
    · cases ht

/-- The bound on what is counted, in every state before a step. -/
abbrev Below (N : ℕ) (s : Refs) (_ : Action) : Prop := s.account.length < N

theorem Within.run {N : ℕ} (hN : predefined.length + N ≤ 2 ^ 32) {s t : Refs} {labels : List Action}
    (h : s.Within N) (hroom : machine.Admits (Below N) s labels)
    (ht : machine.run s labels = some t) : t.Within N :=
  machine.always_run labels s t (machine.always_of_admits (fun _ h => h)
    (fun _ _ _ h hg hs => h.step hN hg hs) labels s h hroom) ht

theorem within_start (N : ℕ) (mem : Memory) : (start mem).Within N :=
  ⟨sound_start mem, Nat.le_add_right _ _⟩

theorem Sound.nan {s : Refs} (h : s.Sound) :
    s.go.table.values[0]? = some (.number .nan) :=
  h.lends.kept 0 (by decide)

/-- Every word means what was stored in it. -/
theorem Sound.denote {s : Refs} (h : s.Sound) {e : ℕ × Value} (he : e ∈ s.held) :
    Go.denote s.go.table e.1 = e.2.mapKey := by
  rw [h.words e (mem_account he)]
  by_cases href : e.2.IsRef
  · exact denote_ref href (Nat.mod_lt _ (by decide))
      (h.lends.valued _ _ (mem_lent (mem_account he) href))
  · rw [Value.mapKey_of_not_isRef href]
    exact denote_plain href _ h.nan

theorem Sound.resolve {s : Refs} (h : s.Sound) {e : ℕ × Value} (he : e ∈ s.held) (addr : ℕ) :
    Go.loadValue { s.go with mem := s.go.mem.setUint 8 addr e.1 } addr = e.2.mapKey := by
  have hlt : e.1 < 256 ^ 8 := by
    rw [h.words e (mem_account he)]
    exact word_lt e.2 _
  rw [Go.loadValue_eq, Memory.getUint_setUint, Nat.mod_eq_of_lt hlt]
  exact h.denote he

theorem Sound.word_eq {s : Refs} (h : s.Sound) {e f : ℕ × Value} (he : e ∈ s.held)
    (hf : f ∈ s.held) (hkey : e.2.mapKey = f.2.mapKey) : e.1 = f.1 := by
  have he' := mem_account he
  have hf' := mem_account hf
  rw [h.words e he', h.words f hf']
  by_cases href : e.2.IsRef
  · have href' : f.2.IsRef := (Value.isRef_iff_of_mapKey hkey).mp href
    have hid := (h.lends.eq_iff (mem_lent he' href) (mem_lent hf' href')).mpr hkey
    rw [word_of_isRef href, word_of_isRef href', hid, Value.typeFlag_of_mapKey hkey]
  · have href' : ¬f.2.IsRef := fun hr => href ((Value.isRef_iff_of_mapKey hkey).mpr hr)
    rw [Value.mapKey_of_not_isRef href, Value.mapKey_of_not_isRef href'] at hkey
    rw [hkey, word_of_not_isRef href' _ (f.1 % 2 ^ 32)]

/-- Along every run, a word that Go still holds loads as the value it was stored for,
wherever Go puts it, and two words that Go holds are equal exactly if their values are,
`0` and `-0` being the same. -/
theorem held_resolve {N : ℕ} (hN : predefined.length + N ≤ 2 ^ 32) {mem : Memory}
    {labels : List Action} {s : Refs} (hroom : machine.Admits (Below N) (start mem) labels)
    (hs : machine.run (start mem) labels = some s) :
    (∀ e ∈ s.held, ∀ addr,
      Go.loadValue { s.go with mem := s.go.mem.setUint 8 addr e.1 } addr = e.2.mapKey) ∧
    ∀ e ∈ s.held, ∀ f ∈ s.held, e.1 = f.1 ↔ e.2.mapKey = f.2.mapKey := by
  have hsound := ((within_start N mem).run hN hroom hs).1
  refine ⟨fun e he => hsound.resolve he, fun e he f hf => ⟨fun heq => ?_, hsound.word_eq he hf⟩⟩
  rw [← hsound.denote he, ← hsound.denote hf, heq]

/-- An object, a function, the object's finalizer, and a string that gets its id. -/
def recycling : List Action :=
  [.receive 64 (.object 7), .receive 72 (.function 3), .finalize 128 1, .receive 80 (.string [104])]

theorem recycling_below : machine.Admits (Below 3) (start fun _ => 0) recycling := by decide

theorem held_resolve_recycling : ∃ s, machine.run (start fun _ => 0) recycling = some s ∧
    s.held.map Prod.snd = [.string [104], .function 3] ∧
    (∀ e ∈ s.held, ∀ addr,
      Go.loadValue { s.go with mem := s.go.mem.setUint 8 addr e.1 } addr = e.2.mapKey) ∧
    ∀ e ∈ s.held, ∀ f ∈ s.held, e.1 = f.1 ↔ e.2.mapKey = f.2.mapKey :=
  ⟨_, rfl, rfl, held_resolve (N := 3) (by decide) recycling_below rfl⟩

/-- Along every run, the table keeps a value alive only if it is predefined, Go holds a word
of it, or it is a bigint of which Go has dropped a word; it does keep those. The table has
never more entries than the predefined ones and the most words that were held or dropped
bigints at once. -/
theorem nothing_retained {N : ℕ} (hN : predefined.length + N ≤ 2 ^ 32) {mem : Memory}
    {labels : List Action} {s : Refs} (hroom : machine.Admits (Below N) (start mem) labels)
    (hs : machine.run (start mem) labels = some s) :
    s.go.table.values.length ≤ predefined.length + N ∧
    (∀ (i : ℕ) (v : Value), s.go.table.values[i]? = some v →
      v ∈ predefined ∨ (∃ e ∈ s.held, e.2.mapKey = v) ∨
        ∃ e ∈ s.dropped, ∃ z, e.2 = .bigint z ∧ v = .bigint z) ∧
    ∀ e ∈ s.dropped, s.go.table.values[e.1 % 2 ^ 32]? = some e.2.mapKey := by
  obtain ⟨hsound, hsize⟩ := (within_start N mem).run hN hroom hs
  refine ⟨hsize, fun i v hv => ?_, fun e he => ?_⟩
  · have hlt : i < s.go.table.values.length := (List.getElem?_eq_some_iff.mp hv).1
    rcases lt_or_ge i predefined.length with hi | hi
    · rw [hsound.lends.kept i hi] at hv
      exact Or.inl (List.mem_of_getElem? hv)
    · rcases Nat.eq_zero_or_pos (Handles.uses (lent s.account) i) with hz | hpos
      · have hfree := hsound.cleared i ((hsound.lends.free i).mpr ⟨hi, hlt, hz⟩)
        rw [Option.some.inj (hv.symm.trans hfree)]
        exact Or.inl (by decide)
      · obtain ⟨k, hk⟩ := Handles.uses_pos hpos
        have hkv : k = v := Option.some.inj ((hsound.lends.valued i k hk).symm.trans hv)
        obtain ⟨e, he, hkey⟩ := of_mem_lent hk
        rcases List.mem_append.mp he with hheld | hdropped
        · exact Or.inr (Or.inl ⟨e, hheld, hkey.trans hkv⟩)
        · rcases hsound.bigint_of_dropped hdropped with hpre | ⟨z, hz⟩
          · exact Or.inl (hkv ▸ hkey ▸ hpre)
          · refine Or.inr (Or.inr ⟨e, hdropped, z, hz, ?_⟩)
            rw [← hkv, ← hkey, hz]
            rfl
  · exact hsound.lends.valued _ _ (mem_lent (List.mem_append_right _ he) (hsound.dropped e he).1)

/-- A bigint that Go drops, and a function that it gives up. -/
def dropping : List Action :=
  [.receive 64 (.bigint 5), .receive 72 (.function 3), .forget 1, .finalize 128 0]

theorem dropping_below : machine.Admits (Below 3) (start fun _ => 0) dropping := by decide

theorem nothing_retained_dropping : ∃ s, machine.run (start fun _ => 0) dropping = some s ∧
    s.held = [] ∧ s.dropped.map Prod.snd = [.bigint 5] ∧
    s.go.table.values.length ≤ predefined.length + 3 ∧
    (∀ (i : ℕ) (v : Value), s.go.table.values[i]? = some v →
      v ∈ predefined ∨ (∃ e ∈ s.held, e.2.mapKey = v) ∨
        ∃ e ∈ s.dropped, ∃ z, e.2 = .bigint z ∧ v = .bigint z) ∧
    ∀ e ∈ s.dropped, s.go.table.values[e.1 % 2 ^ 32]? = some e.2.mapKey :=
  ⟨_, rfl, rfl, rfl, nothing_retained (N := 3) (by decide) dropping_below rfl⟩

end Refs
end SshClientWasm.Runtime
