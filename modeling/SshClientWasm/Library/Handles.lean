import Mathlib.Data.List.Perm.Basic
import Mathlib.Logic.Function.Basic
import Mathlib.Order.WithBot
import Mathlib.Tactic

/-!
# Tables of counted handles

A table lends small numbers for keys. Each number has a count of how often it is
lent; a number that comes back for the last time goes to a pool, from which the
next new key takes it. The first entries of the table are pinned: their count is
infinite. What the borrowers hold is known to the proofs only, as a list of
numbers with the keys they were lent for.
-/
namespace SshClientWasm.Library

/-- Write an entry of an array, or one just behind its end. -/
def assign {α : Type*} (xs : List α) (i : ℕ) (x : α) : List α :=
  if i < xs.length then xs.set i x else xs ++ [x]

theorem length_assign {α : Type*} {xs : List α} {i : ℕ} (x : α) (hi : i ≤ xs.length) :
    (assign xs i x).length = max xs.length (i + 1) := by
  unfold assign
  split_ifs with h
  · rw [List.length_set]
    omega
  · rw [List.length_append, List.length_singleton]
    omega

theorem getElem?_assign {α : Type*} {xs : List α} {i : ℕ} (x : α) (hi : i ≤ xs.length) (j : ℕ) :
    (assign xs i x)[j]? = if j = i then some x else xs[j]? := by
  unfold assign
  split_ifs with h hj hj
  · rw [hj, List.getElem?_set_self h]
  · rw [List.getElem?_set_ne (Ne.symm hj)]
  · rw [hj, List.getElem?_append_right (by omega), show i - xs.length = 0 by omega]
    rfl
  · by_cases hlt : j < xs.length
    · rw [List.getElem?_append_left hlt]
    · rw [List.getElem?_eq_none (by simp; omega), List.getElem?_eq_none (by omega)]

/-- The keys by their numbers and the numbers by their keys, how often each number is
lent, and the numbers that are free, the next one first. -/
structure Handles (κ : Type*) where
  values : List κ
  refCounts : List (WithTop ℤ)
  ids : κ → Option ℕ
  idPool : List ℕ

namespace Handles

variable {κ : Type*}

/-- Lend the number of a key, which gets one if it has none. -/
def acquire [DecidableEq κ] (t : Handles κ) (k : κ) : Handles κ × ℕ :=
  match t.ids k with
  | some id => ({ t with refCounts := t.refCounts.modify id (WithTop.map (· + 1)) }, id)
  | none =>
    let id := t.idPool.headD t.values.length
    ({ values := assign t.values id k
       refCounts := (assign t.refCounts id 0).modify id (WithTop.map (· + 1))
       ids := Function.update t.ids k (some id)
       idPool := t.idPool.tail }, id)

/-- Take a number back; `blank` overwrites the key when it was the last time. -/
def release [DecidableEq κ] (blank : κ) (t : Handles κ) (id : ℕ) : Handles κ :=
  let refCounts := t.refCounts.modify id (WithTop.map (· - 1))
  if refCounts[id]? = some 0 then
    { values := t.values.set id blank
      refCounts
      ids := (t.values[id]?).elim t.ids fun k => Function.update t.ids k none
      idPool := id :: t.idPool }
  else { t with refCounts }

/-- How often a number is held. -/
abbrev uses (held : List (ℕ × κ)) (i : ℕ) : ℕ := (held.map Prod.fst).count i

/-- The table accounts for what is held: the first entries are pinned and stay, any other
number is counted while it is held and in the pool while it is not. -/
structure Lends (base : List κ) (t : Handles κ) (held : List (ℕ × κ)) : Prop where
  lengths : t.refCounts.length = t.values.length
  pinned_le : base.length ≤ t.values.length
  pinned : ∀ i < base.length, t.refCounts[i]? = some ⊤
  kept : ∀ i < base.length, t.values[i]? = base[i]?
  counted : ∀ i, base.length ≤ i → i < t.values.length → t.refCounts[i]? = some ((uses held i : ℤ) : WithTop ℤ)
  valued : ∀ i k, (i, k) ∈ held → t.values[i]? = some k
  known : ∀ i k, (i, k) ∈ held → t.ids k = some i
  sound : ∀ k i, t.ids k = some i → t.values[i]? = some k ∧ (base.length ≤ i → 0 < uses held i)
  free : ∀ i, i ∈ t.idPool ↔ base.length ≤ i ∧ i < t.values.length ∧ uses held i = 0
  nodup : t.idPool.Nodup

theorem uses_cons (held : List (ℕ × κ)) (i j : ℕ) (k : κ) :
    uses ((i, k) :: held) j = uses held j + if i = j then 1 else 0 := by
  rw [uses, List.map_cons, List.count_cons]
  simp only [beq_iff_eq]

theorem uses_cons_of_ne {i j : ℕ} (hij : i ≠ j) (held : List (ℕ × κ)) (k : κ) :
    uses ((i, k) :: held) j = uses held j := by
  rw [uses_cons, if_neg hij, Nat.add_zero]

theorem uses_pos {held : List (ℕ × κ)} {i : ℕ} (h : 0 < uses held i) : ∃ k, (i, k) ∈ held := by
  obtain ⟨e, he, rfl⟩ := List.mem_map.mp (List.count_pos_iff.mp h)
  exact ⟨e.2, he⟩

theorem uses_of_mem {held : List (ℕ × κ)} {i : ℕ} {k : κ} (h : (i, k) ∈ held) :
    0 < uses held i :=
  List.count_pos_iff.mpr (List.mem_map_of_mem (f := Prod.fst) h)

namespace Lends

variable {base : List κ} {t : Handles κ} {held rest : List (ℕ × κ)}

theorem lt (h : Lends base t held) {i : ℕ} {k : κ} (hmem : (i, k) ∈ held) : i < t.values.length := by
  by_contra hge
  have hsome := h.valued i k hmem
  rw [List.getElem?_eq_none (not_lt.mp hge)] at hsome
  cases hsome

theorem perm (h : Lends base t held) (hp : held.Perm rest) : Lends base t rest := by
  have huses : ∀ i, uses rest i = uses held i := fun i => ((hp.map Prod.fst).count_eq i).symm
  constructor
  case lengths => exact h.lengths
  case pinned_le => exact h.pinned_le
  case pinned => exact h.pinned
  case kept => exact h.kept
  case counted =>
    intro i hi hlt
    rw [huses i]
    exact h.counted i hi hlt
  case valued => exact fun i k hmem => h.valued i k (hp.mem_iff.mpr hmem)
  case known => exact fun i k hmem => h.known i k (hp.mem_iff.mpr hmem)
  case sound =>
    intro k i hk
    rw [huses i]
    exact h.sound k i hk
  case free =>
    intro i
    rw [huses i]
    exact h.free i
  case nodup => exact h.nodup

/-- The number for a new key: past the pinned ones, nobody holds it, and it is in the
table only if it comes from the pool. -/
theorem next (h : Lends base t held) :
    base.length ≤ t.idPool.headD t.values.length ∧ t.idPool.headD t.values.length ≤ t.values.length ∧
      uses held (t.idPool.headD t.values.length) = 0 := by
  cases hpool : t.idPool with
  | nil =>
    refine ⟨h.pinned_le, le_rfl, Nat.eq_zero_of_not_pos fun hpos => ?_⟩
    obtain ⟨k, hk⟩ := uses_pos hpos
    exact lt_irrefl _ (h.lt hk)
  | cons i pool =>
    obtain ⟨hi, hlt, hfree⟩ := (h.free i).mp (hpool ▸ List.mem_cons_self)
    exact ⟨hi, hlt.le, hfree⟩

theorem mem_tail (h : Lends base t held) (i : ℕ) :
    i ∈ t.idPool.tail ↔ i ∈ t.idPool ∧ i ≠ t.idPool.headD t.values.length := by
  cases hpool : t.idPool with
  | nil => simp
  | cons j pool =>
    have hnodup := h.nodup
    rw [hpool] at hnodup
    have hj : j ∉ pool := (List.nodup_cons.mp hnodup).1
    rw [List.tail_cons, List.headD_cons, List.mem_cons]
    constructor
    · intro hi
      exact ⟨Or.inr hi, fun heq => hj (heq ▸ hi)⟩
    · rintro ⟨hi, hne⟩
      exact hi.resolve_left hne

theorem unheld (h : Lends base t held) {k : κ} (hk : t.ids k = none) (i : ℕ) : (i, k) ∉ held := by
  intro hmem
  rw [h.known i k hmem] at hk
  cases hk

theorem forget {i : ℕ} {k : κ} (h : Lends base t ((i, k) :: held)) (hi : i < base.length) :
    Lends base t held := by
  have huses : ∀ j, base.length ≤ j → uses ((i, k) :: held) j = uses held j :=
    fun j hj => uses_cons_of_ne (by omega) held k
  constructor
  case lengths => exact h.lengths
  case pinned_le => exact h.pinned_le
  case pinned => exact h.pinned
  case kept => exact h.kept
  case counted =>
    intro j hj hlt
    rw [← huses j hj]
    exact h.counted j hj hlt
  case valued => exact fun j l hmem => h.valued j l (List.mem_cons_of_mem _ hmem)
  case known => exact fun j l hmem => h.known j l (List.mem_cons_of_mem _ hmem)
  case sound =>
    intro l j hl
    obtain ⟨hv, hu⟩ := h.sound l j hl
    exact ⟨hv, fun hj => huses j hj ▸ hu hj⟩
  case free =>
    intro j
    rw [h.free j]
    constructor
    · rintro ⟨hj, hlt, hz⟩
      exact ⟨hj, hlt, huses j hj ▸ hz⟩
    · rintro ⟨hj, hlt, hz⟩
      exact ⟨hj, hlt, (huses j hj).trans hz⟩
  case nodup => exact h.nodup

theorem count_release {i : ℕ} {k : κ} (h : Lends base t ((i, k) :: held)) (hi : base.length ≤ i) :
    (t.refCounts.modify i (WithTop.map (· - 1)))[i]? = some ((uses held i : ℤ) : WithTop ℤ) := by
  rw [List.getElem?_modify_eq, h.counted i hi (h.lt List.mem_cons_self), uses_cons, if_pos rfl]
  refine congrArg some (congrArg WithTop.some ?_)
  show ((uses held i + 1 : ℕ) : ℤ) - 1 = uses held i
  rw [Nat.cast_add, Nat.cast_one, add_sub_cancel_right]

theorem eq_iff (h : Lends base t held) {i j : ℕ} {k l : κ} (hi : (i, k) ∈ held)
    (hj : (j, l) ∈ held) : i = j ↔ k = l := by
  constructor
  · rintro rfl
    exact Option.some.inj ((h.valued i k hi).symm.trans (h.valued i l hj))
  · rintro rfl
    exact Option.some.inj ((h.known i k hi).symm.trans (h.known j k hj))

theorem length_le (h : Lends base t held) (hpool : t.idPool = []) :
    t.values.length ≤ base.length + held.length := by
  have hsub : List.range' base.length (t.values.length - base.length) ⊆ held.map Prod.fst := by
    intro i hi
    obtain ⟨hge, hlt⟩ := List.mem_range'_1.mp hi
    have hused : uses held i ≠ 0 := by
      intro hz
      have := (h.free i).mpr ⟨hge, by omega, hz⟩
      rw [hpool] at this
      cases this
    exact List.count_pos_iff.mp (Nat.pos_of_ne_zero hused)
  have hlen := (List.nodup_range' ..).subperm hsub |>.length_le
  rw [List.length_range', List.length_map] at hlen
  omega

section Counts

variable {i id : ℕ} {k : κ}

theorem acquire_known (h : Lends base t held) (hk : t.ids k = some id) :
    Lends base { t with refCounts := t.refCounts.modify id (WithTop.map (· + 1)) }
      ((id, k) :: held) := by
  obtain ⟨hval, hused⟩ := h.sound k id hk
  have hlt : id < t.values.length := (List.getElem?_eq_some_iff.mp hval).1
  constructor
  case lengths => exact (List.length_modify _ _ _).trans h.lengths
  case pinned_le => exact h.pinned_le
  case pinned =>
    intro i hi
    rw [List.getElem?_modify, h.pinned i hi]
    split_ifs <;> rfl
  case kept => exact h.kept
  case counted =>
    intro i hi hilt
    rw [List.getElem?_modify, h.counted i hi hilt, uses_cons]
    split_ifs with heq
    · rfl
    · rfl
  case valued =>
    intro i l hmem
    rcases List.mem_cons.mp hmem with heq | hmem
    · cases heq
      exact hval
    · exact h.valued i l hmem
  case known =>
    intro i l hmem
    rcases List.mem_cons.mp hmem with heq | hmem
    · cases heq
      exact hk
    · exact h.known i l hmem
  case sound =>
    intro l i hl
    obtain ⟨hv, hu⟩ := h.sound l i hl
    refine ⟨hv, fun hi => ?_⟩
    rw [uses_cons]
    exact Nat.add_pos_left (hu hi) _
  case free =>
    intro i
    rw [h.free i]
    by_cases heq : id = i
    · cases heq
      rw [uses_cons, if_pos rfl]
      constructor
      · rintro ⟨hi, -, hzero⟩
        exact absurd hzero (hused hi).ne'
      · rintro ⟨-, -, hzero⟩
        exact absurd hzero (Nat.succ_ne_zero _)
    · rw [uses_cons_of_ne heq]
  case nodup => exact h.nodup

theorem valued_new (h : Lends base t held) (hle : id ≤ t.values.length) (hfree : uses held id = 0)
    {l : κ} (hmem : (i, l) ∈ (id, k) :: held) : (assign t.values id k)[i]? = some l := by
  rw [getElem?_assign _ hle]
  rcases List.mem_cons.mp hmem with heq | hheld
  · cases heq
    exact if_pos rfl
  · have hne : i ≠ id := by
      rintro rfl
      exact absurd hfree (uses_of_mem hheld).ne'
    rw [if_neg hne]
    exact h.valued i l hheld

theorem counted_new (h : Lends base t held) (hle : id ≤ t.values.length) (hfree : uses held id = 0)
    (hi : base.length ≤ i) (hlt : i < (assign t.values id k).length) :
    ((assign t.refCounts id 0).modify id (WithTop.map (· + 1)))[i]? =
      some ((uses ((id, k) :: held) i : ℤ) : WithTop ℤ) := by
  rw [List.getElem?_modify, getElem?_assign _ (h.lengths.symm ▸ hle)]
  rw [length_assign _ hle] at hlt
  by_cases heq : id = i
  · cases heq
    rw [if_pos rfl, uses_cons, hfree, if_pos rfl, Option.map_eq_map, Option.map_some, if_pos rfl]
    rfl
  · rw [if_neg (Ne.symm heq), uses_cons_of_ne heq, h.counted i hi (by omega)]
    simp only [heq, if_false]
    rfl

theorem counted_release (h : Lends base t ((i, k) :: held)) (hi : base.length ≤ i) {j : ℕ}
    (hj : base.length ≤ j) (hjlt : j < t.values.length) :
    (t.refCounts.modify i (WithTop.map (· - 1)))[j]? = some ((uses held j : ℤ) : WithTop ℤ) := by
  by_cases heq : i = j
  · cases heq
    exact h.count_release hi
  · rw [List.getElem?_modify_ne _ _ heq, h.counted j hj hjlt, uses_cons_of_ne heq]

theorem pinned_release (h : Lends base t ((i, k) :: held)) {j : ℕ} (hj : j < base.length) :
    (t.refCounts.modify i (WithTop.map (· - 1)))[j]? = some ⊤ := by
  rw [List.getElem?_modify, h.pinned j hj]
  split_ifs <;> rfl

theorem ne_of_last (h : Lends base t ((i, k) :: held)) (hlast : uses held i = 0) {j : ℕ} {l : κ}
    (hmem : (j, l) ∈ held) : j ≠ i ∧ l ≠ k := by
  have hj : j ≠ i := by
    rintro rfl
    exact absurd hlast (uses_of_mem hmem).ne'
  refine ⟨hj, ?_⟩
  rintro rfl
  exact hj ((h.eq_iff (List.mem_cons_of_mem _ hmem) List.mem_cons_self).mpr rfl)

end Counts

variable [DecidableEq κ]

section Acquire

variable {k : κ} {id : ℕ}

theorem known_new (h : Lends base t held) (hk : t.ids k = none) {i : ℕ} {l : κ}
    (hmem : (i, l) ∈ (id, k) :: held) : Function.update t.ids k (some id) l = some i := by
  rcases List.mem_cons.mp hmem with heq | hmem
  · cases heq
    exact Function.update_self ..
  · have hne : l ≠ k := fun heq => h.unheld hk i (heq ▸ hmem)
    exact (Function.update_of_ne hne _ _).trans (h.known i l hmem)

theorem sound_new (h : Lends base t held) (hge : base.length ≤ id) (hle : id ≤ t.values.length)
    (hfree : uses held id = 0) {i : ℕ} {l : κ} (hl : Function.update t.ids k (some id) l = some i) :
    (assign t.values id k)[i]? = some l ∧ (base.length ≤ i → 0 < uses ((id, k) :: held) i) := by
  rw [getElem?_assign _ hle, uses_cons]
  by_cases hlk : l = k
  · cases hlk
    rw [Function.update_self] at hl
    cases hl
    rw [if_pos rfl, if_pos rfl]
    exact ⟨rfl, fun _ => Nat.succ_pos _⟩
  · rw [Function.update_of_ne hlk] at hl
    obtain ⟨hv, hu⟩ := h.sound l i hl
    have hne : i ≠ id := by
      rintro rfl
      exact absurd hfree (hu hge).ne'
    rw [if_neg hne]
    exact ⟨hv, fun hi => Nat.add_pos_left (hu hi) _⟩

theorem acquire_new (h : Lends base t held) (hk : t.ids k = none)
    (hid : t.idPool.headD t.values.length = id) :
    Lends base
      { values := assign t.values id k
        refCounts := (assign t.refCounts id 0).modify id (WithTop.map (· + 1))
        ids := Function.update t.ids k (some id)
        idPool := t.idPool.tail } ((id, k) :: held) := by
  obtain ⟨hge, hle, hfree⟩ := hid ▸ h.next
  have htail := hid ▸ h.mem_tail
  have hle' : id ≤ t.refCounts.length := h.lengths.symm ▸ hle
  constructor
  case lengths => rw [List.length_modify, length_assign _ hle', length_assign _ hle, h.lengths]
  case pinned_le =>
    rw [length_assign _ hle]
    exact h.pinned_le.trans (le_max_left _ _)
  case pinned =>
    intro i hi
    rw [List.getElem?_modify, getElem?_assign _ hle', if_neg (by omega), h.pinned i hi]
    simp only [show id ≠ i by omega, if_false]
    rfl
  case kept =>
    intro i hi
    rw [getElem?_assign _ hle, if_neg (by omega)]
    exact h.kept i hi
  case counted => exact fun _ => h.counted_new hle hfree
  case valued => exact fun _ _ => h.valued_new hle hfree
  case known => exact fun _ _ => h.known_new hk
  case sound => exact fun _ _ => h.sound_new hge hle hfree
  case free =>
    intro i
    rw [htail i, h.free i, length_assign _ hle]
    by_cases heq : id = i
    · cases heq
      simp [uses_cons]
    · rw [uses_cons_of_ne heq]
      constructor
      · rintro ⟨⟨hi, hlt, hz⟩, -⟩
        exact ⟨hi, by omega, hz⟩
      · rintro ⟨hi, hlt, hz⟩
        exact ⟨⟨hi, by omega, hz⟩, Ne.symm heq⟩
  case nodup => exact h.nodup.tail

/-- Lending keeps the account, with the number lent among those held. -/
theorem acquire (h : Lends base t held) (k : κ) :
    Lends base (t.acquire k).1 (((t.acquire k).2, k) :: held) := by
  cases hk : t.ids k with
  | some id =>
    simp only [Handles.acquire, hk]
    exact h.acquire_known hk
  | none =>
    simp only [Handles.acquire, hk]
    exact h.acquire_new hk rfl

end Acquire

section Release

variable {i : ℕ} {k : κ}

theorem release_pinned (blank : κ) (h : Lends base t ((i, k) :: held)) (hi : i < base.length) :
    Lends base (t.release blank i) held := by
  have hcounts : t.refCounts.modify i (WithTop.map (· - 1)) = t.refCounts := by
    refine List.ext_getElem? fun j => ?_
    by_cases hj : i = j
    · cases hj
      rw [h.pinned_release hi, h.pinned i hi]
    · exact List.getElem?_modify_ne _ _ hj
  have hnot : ¬t.refCounts[i]? = some 0 := by
    rw [h.pinned i hi]
    exact fun heq => WithTop.top_ne_coe (Option.some.inj heq)
  rw [Handles.release, hcounts, if_neg hnot]
  exact h.forget hi

theorem release_held (blank : κ) (h : Lends base t ((i, k) :: held)) (hi : base.length ≤ i)
    (hheld : uses held i ≠ 0) : Lends base (t.release blank i) held := by
  have hnot : ¬(t.refCounts.modify i (WithTop.map (· - 1)))[i]? = some 0 := by
    rw [h.count_release hi]
    intro heq
    exact hheld (by exact_mod_cast WithTop.coe_inj.mp (Option.some.inj heq))
  rw [Handles.release, if_neg hnot]
  constructor
  case lengths => exact (List.length_modify _ _ _).trans h.lengths
  case pinned_le => exact h.pinned_le
  case pinned => exact fun _ => h.pinned_release
  case kept => exact h.kept
  case counted => exact fun _ => h.counted_release hi
  case valued => exact fun j l hmem => h.valued j l (List.mem_cons_of_mem _ hmem)
  case known => exact fun j l hmem => h.known j l (List.mem_cons_of_mem _ hmem)
  case sound =>
    intro l j hl
    obtain ⟨hv, hu⟩ := h.sound l j hl
    refine ⟨hv, fun hj => ?_⟩
    by_cases heq : i = j
    · exact heq ▸ Nat.pos_of_ne_zero hheld
    · exact uses_cons_of_ne heq held k ▸ hu hj
  case free =>
    intro j
    rw [h.free j]
    by_cases heq : i = j
    · cases heq
      rw [uses_cons, if_pos rfl]
      constructor
      · rintro ⟨-, -, hz⟩
        exact absurd hz (Nat.succ_ne_zero _)
      · rintro ⟨-, -, hz⟩
        exact absurd hz hheld
    · rw [uses_cons_of_ne heq]
  case nodup => exact h.nodup

theorem sound_last (blank : κ) (h : Lends base t ((i, k) :: held)) {j : ℕ} {l : κ}
    (hl : Function.update t.ids k none l = some j) :
    (t.values.set i blank)[j]? = some l ∧ (base.length ≤ j → 0 < uses held j) := by
  have hlk : l ≠ k := by
    rintro rfl
    rw [Function.update_self] at hl
    cases hl
  rw [Function.update_of_ne hlk] at hl
  obtain ⟨hv, hu⟩ := h.sound l j hl
  have hij : i ≠ j := by
    rintro rfl
    exact hlk (Option.some.inj (hv.symm.trans (h.valued i k List.mem_cons_self)))
  rw [List.getElem?_set_ne hij]
  exact ⟨hv, fun hj => uses_cons_of_ne hij held k ▸ hu hj⟩

theorem release_last (blank : κ) (h : Lends base t ((i, k) :: held)) (hi : base.length ≤ i)
    (hlast : uses held i = 0) : Lends base (t.release blank i) held := by
  have hlt : i < t.values.length := h.lt List.mem_cons_self
  have hzero : (t.refCounts.modify i (WithTop.map (· - 1)))[i]? = some 0 := by
    rw [h.count_release hi, hlast]
    rfl
  rw [Handles.release, if_pos hzero, h.valued i k List.mem_cons_self, Option.elim_some]
  constructor
  case lengths =>
    rw [List.length_modify, List.length_set]
    exact h.lengths
  case pinned_le => exact (List.length_set ..).symm ▸ h.pinned_le
  case pinned => exact fun _ => h.pinned_release
  case kept =>
    intro j hj
    rw [List.getElem?_set_ne (by omega)]
    exact h.kept j hj
  case counted =>
    intro j hj hjlt
    rw [List.length_set] at hjlt
    exact h.counted_release hi hj hjlt
  case valued =>
    intro j l hmem
    rw [List.getElem?_set_ne (Ne.symm (h.ne_of_last hlast hmem).1)]
    exact h.valued j l (List.mem_cons_of_mem _ hmem)
  case known =>
    intro j l hmem
    exact (Function.update_of_ne (h.ne_of_last hlast hmem).2 _ _).trans
      (h.known j l (List.mem_cons_of_mem _ hmem))
  case sound => exact fun _ _ => h.sound_last blank
  case free =>
    intro j
    rw [List.mem_cons, h.free j, List.length_set]
    by_cases heq : i = j
    · cases heq
      simp [hi, hlt, hlast]
    · rw [uses_cons_of_ne heq]
      simp [Ne.symm heq]
  case nodup =>
    refine List.nodup_cons.mpr ⟨fun hmem => ?_, h.nodup⟩
    exact absurd ((h.free i).mp hmem).2.2 (uses_of_mem List.mem_cons_self).ne'

/-- Taking a number back keeps the account, without it. -/
theorem release (blank : κ) (h : Lends base t ((i, k) :: held)) :
    Lends base (t.release blank i) held := by
  rcases lt_or_ge i base.length with hi | hi
  · exact h.release_pinned blank hi
  · by_cases hlast : uses held i = 0
    · exact h.release_last blank hi hlast
    · exact h.release_held blank hi hlast

end Release

theorem length_acquire (h : Lends base t held) (k : κ) :
    (t.acquire k).1.values.length ≤ max t.values.length (base.length + held.length + 1) := by
  cases hk : t.ids k with
  | some id =>
    simp only [Handles.acquire, hk]
    exact le_max_left _ _
  | none =>
    simp only [Handles.acquire, hk]
    rw [length_assign _ h.next.2.1]
    cases hpool : t.idPool with
    | nil =>
      have := h.length_le hpool
      rw [List.headD_nil]
      omega
    | cons i pool =>
      have := ((h.free i).mp (hpool ▸ List.mem_cons_self)).2.1
      rw [List.headD_cons]
      omega

end Lends

/-- The numbers in the pool stand for nothing. -/
def Cleared (blank : κ) (t : Handles κ) : Prop := ∀ i ∈ t.idPool, t.values[i]? = some blank

theorem Cleared.acquire [DecidableEq κ] {blank : κ} {base : List κ} {t : Handles κ}
    {held : List (ℕ × κ)} (hc : t.Cleared blank) (h : Lends base t held) (k : κ) :
    (t.acquire k).1.Cleared blank := by
  intro i hi
  cases hk : t.ids k with
  | some id =>
    simp only [Handles.acquire, hk] at hi ⊢
    exact hc i hi
  | none =>
    simp only [Handles.acquire, hk] at hi ⊢
    obtain ⟨hmem, hne⟩ := (h.mem_tail i).mp hi
    rw [getElem?_assign _ h.next.2.1, if_neg hne]
    exact hc i hmem

theorem Cleared.release [DecidableEq κ] {blank : κ} {t : Handles κ} (hc : t.Cleared blank)
    (id : ℕ) (hid : id < t.values.length) : (t.release blank id).Cleared blank := by
  rw [Handles.release]
  split
  · intro i hi
    by_cases heq : id = i
    · cases heq
      exact List.getElem?_set_self hid
    · rcases List.mem_cons.mp hi with hi | hi
      · exact absurd hi.symm heq
      · exact (List.getElem?_set_ne heq).trans (hc i hi)
  · exact hc

theorem length_release [DecidableEq κ] (blank : κ) (t : Handles κ) (i : ℕ) :
    (t.release blank i).values.length = t.values.length := by
  rw [release]
  split
  · exact List.length_set ..
  · rfl

end Handles
end SshClientWasm.Library
