import SshClientWasm.Library.Bytes

/-!
# Cutting a stream into units

A cutter recognises one complete unit at the front of a stream. It consumes
something whenever it succeeds, and what it recognises does not depend on what
follows. Those two facts alone make the cutting of a stream terminate and make
it independent of how the stream arrives in pieces. The instance at the end
cuts at sixteen bit big-endian length prefixes.
-/
namespace SshClientWasm.Library

/-- A recogniser of one unit at the front of a stream. -/
structure Cutter (α β : Type*) where
  next : List α → Option (β × List α)
  shrinks : ∀ {s x r}, next s = some (x, r) → r.length < s.length
  stable : ∀ {s x r} (t : List α), next s = some (x, r) → next (s ++ t) = some (x, r ++ t)

namespace Cutter

variable {α β σ : Type*} (C : Cutter α β)

def cutFuel : ℕ → List α → List β × List α
  | 0, s => ([], s)
  | fuel + 1, s =>
    match C.next s with
    | none => ([], s)
    | some (x, r) => (x :: (cutFuel fuel r).1, (cutFuel fuel r).2)

/-- All complete units of a stream, and the rest that is not a complete unit. -/
def cut (s : List α) : List β × List α := C.cutFuel s.length s

theorem cutFuel_eq_cutFuel : ∀ (m n : ℕ) (s : List α), s.length ≤ m → s.length ≤ n →
    C.cutFuel m s = C.cutFuel n s := by
  intro m
  induction m with
  | zero =>
    intro n s hm _
    rw [List.length_eq_zero_iff.mp (Nat.le_zero.mp hm)]
    cases n with
    | zero => rfl
    | succ n =>
      cases hnext : C.next [] with
      | none => simp only [cutFuel, hnext]
      | some p => exact absurd (C.shrinks hnext) (Nat.not_lt_zero _)
  | succ m ih =>
    intro n s hm hn
    cases hnext : C.next s with
    | none => cases n <;> simp only [cutFuel, hnext]
    | some p =>
      have hlt := C.shrinks hnext
      cases n with
      | zero => omega
      | succ n =>
        have hrec := ih n p.2 (by omega) (by omega)
        simp only [cutFuel, hnext, hrec]

theorem cut_of_none {s : List α} (h : C.next s = none) : C.cut s = ([], s) := by
  unfold cut
  cases s with
  | nil => rfl
  | cons a s => simp only [List.length_cons, cutFuel, h]

theorem cut_of_some {s r : List α} {x : β} (h : C.next s = some (x, r)) :
    C.cut s = (x :: (C.cut r).1, (C.cut r).2) := by
  have hlt := C.shrinks h
  obtain ⟨n, hn⟩ := Nat.exists_eq_succ_of_ne_zero (Nat.ne_of_gt (Nat.zero_lt_of_lt hlt))
  have hrec : C.cutFuel n r = C.cut r := C.cutFuel_eq_cutFuel n r.length r (by omega) le_rfl
  rw [cut, hn, cutFuel]
  simp only [h, hrec]

theorem next_cut_rest (s : List α) : C.next (C.cut s).2 = none := by
  induction hn : s.length using Nat.strong_induction_on generalizing s with
  | _ n ih =>
    cases hnext : C.next s with
    | none =>
      rw [C.cut_of_none hnext]
      exact hnext
    | some p =>
      rw [C.cut_of_some hnext]
      exact ih p.2.length (hn ▸ C.shrinks hnext) p.2 rfl

/-- Cutting a longer stream goes on from the rest of the shorter one. -/
theorem cut_append (s t : List α) :
    C.cut (s ++ t) =
      ((C.cut s).1 ++ (C.cut ((C.cut s).2 ++ t)).1, (C.cut ((C.cut s).2 ++ t)).2) := by
  induction hn : s.length using Nat.strong_induction_on generalizing s with
  | _ n ih =>
    cases hnext : C.next s with
    | none => simp only [C.cut_of_none hnext, List.nil_append]
    | some p =>
      have hrec := ih p.2.length (hn ▸ C.shrinks hnext) p.2 rfl
      rw [C.cut_of_some (C.stable t hnext), C.cut_of_some hnext, hrec]
      rfl

/-- The units `xs` can be cut off the front of `s`, leaving `r`. -/
inductive CutsTo : List α → List β → List α → Prop
  | nil (s : List α) : CutsTo s [] s
  | cons {s r r' : List α} {x : β} {xs : List β} (h : C.next s = some (x, r)) :
      CutsTo r xs r' → CutsTo s (x :: xs) r'

theorem cutsTo_cut (s : List α) : C.CutsTo s (C.cut s).1 (C.cut s).2 := by
  induction hn : s.length using Nat.strong_induction_on generalizing s with
  | _ n ih =>
    cases hnext : C.next s with
    | none =>
      rw [C.cut_of_none hnext]
      exact .nil s
    | some p =>
      rw [C.cut_of_some hnext]
      exact .cons hnext (ih p.2.length (hn ▸ C.shrinks hnext) p.2 rfl)

theorem CutsTo.prefix_cut {s r : List α} {xs : List β} (h : C.CutsTo s xs r) :
    xs <+: (C.cut s).1 := by
  induction h with
  | nil s => exact List.nil_prefix
  | cons hnext _ ih =>
    rw [C.cut_of_some hnext]
    exact (List.prefix_cons_inj _).mpr ih

/-- A buffered consumer: append the piece, cut off the complete units, hand each
to `f` in order, and keep the rest. -/
def feed (f : σ → β → σ) (state : List α × σ) (piece : List α) : List α × σ :=
  ((C.cut (state.1 ++ piece)).2, (C.cut (state.1 ++ piece)).1.foldl f state.2)

/-- A consumer whose buffer holds no complete unit ends in the same state
however the stream was cut into pieces. -/
theorem feed_flatten (f : σ → β → σ) : ∀ (pieces : List (List α)) (state : List α × σ),
    C.next state.1 = none →
      pieces.foldl (C.feed f) state = C.feed f state pieces.flatten := by
  intro pieces
  induction pieces with
  | nil =>
    intro state h
    simp only [List.foldl_nil, List.flatten_nil, feed, List.append_nil, C.cut_of_none h]
  | cons piece pieces ih =>
    intro state _
    have hrest : C.next (C.feed f state piece).1 = none := C.next_cut_rest _
    rw [List.foldl_cons, ih _ hrest]
    have happ := C.cut_append (state.1 ++ piece) pieces.flatten
    rw [List.append_assoc] at happ
    simp only [feed, List.flatten_cons, happ, List.foldl_append]

theorem cut_flatMap (put : β → List α) (t : List α) : ∀ xs : List β,
    (∀ x ∈ xs, C.next (put x) = some (x, [])) →
      C.cut (xs.flatMap put ++ t) = (xs ++ (C.cut t).1, (C.cut t).2) := by
  intro xs
  induction xs with
  | nil => exact fun _ => rfl
  | cons x xs ih =>
    intro hput
    have hnext := C.stable (xs.flatMap put ++ t) (hput x (by simp))
    have hrest := ih fun y hy => hput y (by simp [hy])
    rw [List.flatMap_cons, List.append_assoc, C.cut_of_some hnext, List.nil_append, hrest]
    rfl

end Cutter

/-- A body behind its length as a sixteen bit big-endian number. -/
def frame (body : Bytes) : Bytes := setUint16 body.length ++ body

/-- Take one frame off the front, if all of it has arrived. -/
def nextFrame : Bytes → Option (Bytes × Bytes)
  | hi :: lo :: rest =>
    if rest.length < getUint16 hi lo then none
    else some (rest.take (getUint16 hi lo), rest.drop (getUint16 hi lo))
  | _ => none

theorem nextFrame_eq_some {s body r : Bytes} (h : nextFrame s = some (body, r)) :
    ∃ hi lo, s = hi :: lo :: (body ++ r) ∧ body.length = getUint16 hi lo := by
  rcases s with _ | ⟨hi, _ | ⟨lo, rest⟩⟩
  · cases h
  · cases h
  · simp only [nextFrame] at h
    split_ifs at h with hlen
    cases h
    refine ⟨hi, lo, by rw [List.take_append_drop], ?_⟩
    rw [List.length_take]
    omega

theorem nextFrame_eq_none {s : Bytes} (h : nextFrame s = none) :
    s.length < 2 ∨ ∃ hi lo rest, s = hi :: lo :: rest ∧ s.length < 2 + getUint16 hi lo := by
  rcases s with _ | ⟨hi, _ | ⟨lo, rest⟩⟩
  · exact Or.inl (by simp)
  · exact Or.inl (by simp)
  · simp only [nextFrame] at h
    split_ifs at h with hlen
    refine Or.inr ⟨hi, lo, rest, rfl, ?_⟩
    simp only [List.length_cons]
    omega

theorem nextFrame_zeros {k : ℕ} {body r : Bytes}
    (h : nextFrame (List.replicate k 0) = some (body, r)) : body = [] := by
  rcases k with _ | _ | k
  · cases h
  · cases h
  · cases h
    rfl

/-- The start of a frame left in front of a stream changes the first frame cut off it. -/
theorem nextFrame_shifted {b : Bytes} (hb : b ≠ []) (hrest : nextFrame b = none) :
    ∃ s body r, nextFrame (b ++ s) = some (body, r) ∧
      ∀ body' r', nextFrame s = some (body', r') → body' ≠ body := by
  rcases b with _ | ⟨hi, _ | ⟨lo, rest⟩⟩
  · exact absurd rfl hb
  · -- the low byte of the prefix, and then all of the body
    have hlen : getUint16 hi 0 = 256 * hi.toNat := rfl
    refine ⟨List.replicate (256 * hi.toNat + 1) 0, List.replicate (256 * hi.toNat) 0, [], ?_, ?_⟩
    · rw [List.replicate_succ, List.cons_append, List.nil_append, nextFrame, hlen,
        List.length_replicate, if_neg (lt_irrefl _), List.take_of_length_le (by simp),
        List.drop_eq_nil_of_le (by simp)]
    · intro body' r' h heq
      have hnil := nextFrame_zeros h
      rw [hnil] at heq
      have hzero : 256 * hi.toNat = 0 := by simpa using congrArg List.length heq
      rw [hzero] at h
      cases h
  · -- what the body still lacks, at least one byte
    have hshort : rest.length < getUint16 hi lo := by
      by_contra hlong
      rw [nextFrame, if_neg hlong] at hrest
      cases hrest
    have hlen : (rest ++ List.replicate (getUint16 hi lo - rest.length) 0).length =
        getUint16 hi lo := by
      rw [List.length_append, List.length_replicate]
      omega
    refine ⟨List.replicate (getUint16 hi lo - rest.length) 0,
      rest ++ List.replicate (getUint16 hi lo - rest.length) 0, [], ?_, ?_⟩
    · rw [List.cons_append, List.cons_append, nextFrame, hlen, if_neg (lt_irrefl _),
        List.take_of_length_le hlen.le, List.drop_eq_nil_of_le hlen.le]
    · intro body' r' h heq
      rw [nextFrame_zeros h] at heq
      rw [← heq, List.length_nil] at hlen
      omega

/-- Cutting at sixteen bit big-endian length prefixes. -/
def frameCutter : Cutter UInt8 Bytes where
  next := nextFrame
  shrinks := by
    intro s body r h
    obtain ⟨hi, lo, rfl, _⟩ := nextFrame_eq_some h
    simp only [List.length_cons, List.length_append]
    omega
  stable := by
    intro s body r t h
    obtain ⟨hi, lo, rfl, hlen⟩ := nextFrame_eq_some h
    simp only [List.cons_append, List.append_assoc, nextFrame, ← hlen]
    rw [if_neg (by simp), List.take_left, List.drop_left]

theorem frameCutter_frame {body : Bytes} (h : body.length < 65536) :
    frameCutter.next (frame body) = some (body, []) := by
  simp only [frameCutter, frame, setUint16, List.cons_append, List.nil_append, nextFrame,
    getUint16_setUint16 h, lt_irrefl, if_false, List.take_length, List.drop_length]

theorem setUint16_getUint16 (hi lo : UInt8) : setUint16 (getUint16 hi lo) = [hi, lo] := by
  have hhi := hi.toNat_lt
  have hlo := lo.toNat_lt
  have hdiv : (256 * hi.toNat + lo.toNat) / 256 = hi.toNat := by omega
  have hmod : UInt8.ofNat (256 * hi.toNat + lo.toNat) = lo := by
    apply UInt8.toNat_inj.mp
    rw [UInt8.toNat_ofNat']
    omega
  rw [setUint16, getUint16, hdiv, hmod, UInt8.ofNat_toNat]

theorem eq_frame_of_nextFrame {s body r : Bytes} (h : nextFrame s = some (body, r)) :
    s = frame body ++ r ∧ body.length < 65536 := by
  obtain ⟨hi, lo, rfl, hlen⟩ := nextFrame_eq_some h
  have hhi := hi.toNat_lt
  have hlo := lo.toNat_lt
  refine ⟨?_, by rw [hlen, getUint16]; omega⟩
  rw [frame, hlen, setUint16_getUint16]
  rfl

theorem eq_of_cutsTo {s r : Bytes} {bodies : List Bytes} (h : frameCutter.CutsTo s bodies r) :
    s = bodies.flatMap frame ++ r := by
  induction h with
  | nil s => rfl
  | cons hnext _ ih =>
    rw [List.flatMap_cons, List.append_assoc, ← ih]
    exact (eq_frame_of_nextFrame hnext).1

/-- The prefix of a frame is the length of its body. -/
def PrefixCounts (f : Bytes) : Prop :=
  ∃ hi lo body, f = hi :: lo :: body ∧ getUint16 hi lo = body.length

/-- A prefix counts the body exactly if sixteen bits can. -/
theorem prefixCounts_frame {body : Bytes} : PrefixCounts (frame body) ↔ body.length ≤ 65535 := by
  constructor
  · rintro ⟨hi, lo, body', hframe, hlen⟩
    have hhi := hi.toNat_lt
    have hlo := lo.toNat_lt
    simp only [frame, setUint16, List.cons_append, List.nil_append, List.cons.injEq] at hframe
    rw [hframe.2.2, ← hlen, getUint16]
    omega
  · intro h
    exact ⟨_, _, body, rfl, getUint16_setUint16 (Nat.lt_succ_of_le h)⟩

end SshClientWasm.Library
