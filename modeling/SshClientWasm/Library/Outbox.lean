import Mathlib.Data.List.Infix
import Mathlib.Tactic

/-!
# Outboxes

Items are handed over in order, and what becomes of each is known later: it has
gone through or it is lost. An outbox masks no loss while an item goes through
only behind all items before it; what has gone through is then the front of what
was handed over.
-/
namespace SshClientWasm.Library

/-- What has become of an item. -/
inductive Fate
  | pending
  | resolved
  | rejected
  deriving DecidableEq, Repr

/-- The items in order. An item is a list and may be empty. -/
abbrev Outbox (β : Type*) := List (List β × Fate)

namespace Outbox

variable {β : Type*}

def post (o : Outbox β) (x : List β) : Outbox β := o ++ [(x, .pending)]

/-- An item settles once. -/
def settle (o : Outbox β) (i : ℕ) (resolves : Bool) : Option (Outbox β) :=
  match o[i]? with
  | some (x, .pending) => some (o.set i (x, if resolves then .resolved else .rejected))
  | _ => none

def posted (o : Outbox β) : List β := (o.map Prod.fst).flatten

def resolved (o : Outbox β) : List β := ((o.filter (·.2 = .resolved)).map Prod.fst).flatten

/-- An item that is not empty has gone through only if all before it have. -/
def Unmasked (o : Outbox β) : Prop :=
  o.Pairwise fun a b => b.2 = .resolved → b.1 ≠ [] → a.1 ≠ [] → a.2 = .resolved

/-- All before the item have gone through, empty ones aside. -/
def Next (o : Outbox β) (i : ℕ) : Prop :=
  ∀ x, o[i]? = some (x, .pending) → x ≠ [] → ∀ a ∈ o.take i, a.1 ≠ [] → a.2 = .resolved

variable {o o' : Outbox β} {i : ℕ} {resolves : Bool}

theorem Unmasked.resolved_prefix (h : o.Unmasked) : o.resolved <+: o.posted := by
  induction o with
  | nil => exact List.prefix_rfl
  | cons a o ih =>
    obtain ⟨hfirst, hrest⟩ := List.pairwise_cons.mp h
    have hfront := ih hrest
    by_cases ha : a.2 = .resolved
    · simpa [resolved, posted, ha] using hfront
    · by_cases hempty : a.1 = []
      · simpa [resolved, posted, ha, hempty] using hfront
      · -- Behind a loss, whatever has gone through is empty.
        have hnothing : resolved (a :: o) = [] := by
          simp only [resolved, ha, decide_false, Bool.false_eq_true, not_false_eq_true,
            List.filter_cons_of_neg, List.flatten_eq_nil_iff, List.mem_map, List.mem_filter,
            decide_eq_true_eq]
          rintro _ ⟨b, ⟨hb, hresolved⟩, rfl⟩
          by_contra hne
          exact ha (hfirst b hb hresolved hne hempty)
        rw [hnothing]
        exact List.nil_prefix

theorem post_unmasked {x : List β} : (o.post x).Unmasked ↔ o.Unmasked := by
  simp [post, Unmasked, List.pairwise_append]

theorem settle_eq_some (h : o.settle i resolves = some o') :
    ∃ front x back, o = front ++ (x, .pending) :: back ∧ front.length = i ∧
      o' = front ++ (x, if resolves then .resolved else .rejected) :: back := by
  unfold settle at h
  split at h
  next x hx =>
    cases h
    obtain ⟨hlt, hget⟩ := List.getElem?_eq_some_iff.mp hx
    refine ⟨o.take i, x, o.drop (i + 1), ?_, by simp; omega, ?_⟩
    · rw [← hget, ← List.drop_eq_getElem_cons hlt, List.take_append_drop]
    · rw [List.set_eq_take_append_cons_drop, if_pos hlt]
  next => cases h

/-- An item that settles masks a loss exactly if it goes through out of turn. -/
theorem settle_unmasked (h : o.Unmasked) (hsettle : o.settle i resolves = some o') :
    o'.Unmasked ↔ (resolves = true → o.Next i) := by
  obtain ⟨front, x, back, rfl, rfl, rfl⟩ := settle_eq_some hsettle
  obtain ⟨hfront, hitem, hacross⟩ := List.pairwise_append.mp h
  obtain ⟨hback, hrest⟩ := List.pairwise_cons.mp hitem
  have hnext : Next (front ++ (x, .pending) :: back) front.length ↔
      (x ≠ [] → ∀ a ∈ front, a.1 ≠ [] → a.2 = .resolved) := by
    simp [Next]
  have hbehind : ∀ b ∈ back, b.2 = .resolved → b.1 ≠ [] → x ≠ [] → False := by
    intro b hb hresolved hne hx
    cases hback b hb hresolved hne hx
  rw [hnext, Unmasked, List.pairwise_append, List.pairwise_cons]
  cases resolves with
  | true =>
    constructor
    · rintro ⟨_, _, hall⟩ _ hx a ha hne
      exact hall a ha _ List.mem_cons_self rfl hx hne
    · intro hturn
      refine ⟨hfront, ⟨fun _ _ _ _ _ => rfl, hrest⟩, ?_⟩
      intro a ha b hb hresolved hne hne'
      rcases List.mem_cons.mp hb with rfl | hb
      · exact hturn rfl hne a ha hne'
      · exact hacross a ha b (List.mem_cons_of_mem _ hb) hresolved hne hne'
  | false =>
    refine iff_of_true ⟨hfront, ⟨?_, hrest⟩, ?_⟩ (fun hfalse => absurd hfalse (by simp))
    · intro b hb hresolved hne hx
      exact (hbehind b hb hresolved hne hx).elim
    · intro a ha b hb hresolved hne hne'
      rcases List.mem_cons.mp hb with rfl | hb
      · cases hresolved
      · exact hacross a ha b (List.mem_cons_of_mem _ hb) hresolved hne hne'

end Outbox
end SshClientWasm.Library
