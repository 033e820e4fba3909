import SshClientWasm.Ssh.Handlers

/-!
# What a goroutine of the client does next

Each step of a goroutine, with what it does to the client and where it leads. Most are the
stages of its call; the rest are the two steps of a `Lock`, the `select` of `Send` with what
follows it, and the end of `Disconnect`.
-/
namespace SshClientWasm.Ssh

open Library

/-- The stages that a goroutine leaves as `Stage.go` says. -/
def Stage.plain : Stage → Bool
  | .enter .startShell | .enter .disconnect | .startLock _ | .select _ | .unregister => false
  | _ => true

namespace Point

variable {κ Conn : Type*} {callbacks : GoCallbacks} {x x' : Shared κ Conn} {p p' q : Point}
  {err : Option String} {op : ClaimOp}

/-- A step of a goroutine. -/
inductive Going (callbacks : GoCallbacks) (x : Shared κ Conn) :
    Point → Shared κ Conn → Point → Prop
  | unheard (h : callbacks.onStateChange = false) :
      Going callbacks x disconnecting x (stage (.enter .disconnect))
  | lockStartShell : Going callbacks x (stage (.enter .startShell)) x (startWaits none)
  | lockDisconnect : Going callbacks x (stage (.enter .disconnect)) x disconnectWaits
  | lockSend (data) : Going callbacks x (stage (.startLock data)) x (startWaits (some data))
  | startWaits (caller) : Going callbacks x (startWaits caller) x (stage (.start caller))
  | disconnectWaits :
      Going callbacks x disconnectWaits { x with entered := true } (stage .closeStdin)
  | answered (remote caller err) {lockOp x' s'}
      (h : Transition x (.remote remote caller) lockOp x' s') :
      Going callbacks x (answered remote caller err) x' (stage s')
  | accepted (data) (hresult : (x.select data).2 = .ok ()) (h : callbacks.onPacketSend = true) :
      Going callbacks x (stage (.select data)) (x.select data).1 (packetSend data)
  | selected (data) (h : (x.select data).2 = .ok () → callbacks.onPacketSend = false) :
      Going callbacks x (stage (.select data)) (x.select data).1 (sent data (x.select data).2)
  | sent (data result) : Going callbacks x (sent data result) x (stage (.done (.send data) result))
  | unregister : Going callbacks x (stage .unregister) x.unregister disconnected
  | unheardAgain (h : callbacks.onStateChange = false) : Going callbacks x disconnected x leaving
  | leaving : Going callbacks x leaving x (stage (.done .disconnect (.ok ())))
  | stage {s lockOp x' s'} (hplain : s.plain = true) (h : Transition x s lockOp x' s') :
      Going callbacks x (stage s) x' (stage s')

theorem advance_going (h : advance callbacks x p err = some (op, x', p')) :
    Going callbacks x p x' p' := by
  cases p with
  | disconnecting =>
    obtain ⟨hnot, h⟩ := Option.ite_none_left_eq_some.mp h
    cases h
    exact .unheard (by simpa using hnot)
  | disconnected =>
    obtain ⟨hnot, h⟩ := Option.ite_none_left_eq_some.mp h
    cases h
    exact .unheardAgain (by simpa using hnot)
  | packetSend data => cases h
  | startWaits | disconnectWaits | sent | leaving =>
    cases h
    constructor
  | answered remote caller err' =>
    simp only [advance] at h
    obtain ⟨⟨lockOp, y, s'⟩, hgo, hnext⟩ := Option.map_eq_some_iff.mp h
    cases hnext
    exact .answered remote caller err' (Stage.go_transition hgo)
  | stage s =>
    cases s with
    | idle | done => cases h
    | enter call =>
      cases call with
      | startShell | disconnect =>
        cases h
        constructor
      | _ =>
        cases h
        exact .stage rfl (by constructor)
    | startLock | unregister =>
      cases h
      constructor
    | select data =>
      simp only [advance] at h
      split_ifs at h with hpacket
      · cases h
        obtain ⟨hok, hcallback⟩ := Bool.and_eq_true_iff.mp hpacket
        refine .accepted data ?_ hcallback
        cases hresult : (x.select data).2 with
        | ok u => rfl
        | error e =>
          rw [hresult] at hok
          cases hok
      · cases h
        refine .selected data fun hok => ?_
        rw [hok] at hpacket
        exact Bool.eq_false_of_not_eq_true hpacket
    | remote remote caller =>
      simp only [advance] at h
      obtain ⟨_, h⟩ := Option.ite_none_left_eq_some.mp h
      obtain ⟨⟨lockOp, y, s'⟩, hgo, hnext⟩ := Option.map_eq_some_iff.mp h
      cases hnext
      exact .stage rfl (Stage.go_transition hgo)
    | _ =>
      simp only [advance] at h
      obtain ⟨⟨lockOp, y, s'⟩, hgo, hnext⟩ := Option.map_eq_some_iff.mp h
      cases hnext
      exact .stage rfl (Stage.go_transition hgo)

theorem callOut_cases (h : callOut callbacks x p = some q) :
    p = disconnecting ∧ q = stage (.enter .disconnect) ∨
      (∃ data, p = packetSend data ∧ q = sent data (.ok ())) ∨
      p = disconnected ∧ q = leaving ∨ ∃ s, p = stage s ∧ q = stage s := by
  cases p with
  | disconnecting =>
    obtain ⟨_, h⟩ := Option.ite_none_right_eq_some.mp h
    cases h
    exact Or.inl ⟨rfl, rfl⟩
  | packetSend data =>
    cases h
    exact Or.inr (Or.inl ⟨data, rfl, rfl⟩)
  | disconnected =>
    obtain ⟨_, h⟩ := Option.ite_none_right_eq_some.mp h
    cases h
    exact Or.inr (Or.inr (Or.inl ⟨rfl, rfl⟩))
  | stage s =>
    obtain ⟨_, h⟩ := Option.ite_none_right_eq_some.mp h
    cases h
    exact Or.inr (Or.inr (Or.inr ⟨s, rfl, rfl⟩))
  | _ => cases h

theorem handle_cases (x : Shared κ Conn) (c : Static) :
    handle x c = spawn c.call ∨ ∃ err, handle x c = stage (.done c.call (.error err)) := by
  unfold handle
  split
  · exact Or.inl rfl
  · exact Or.inr ⟨_, rfl⟩

theorem eq_of_fresh (h : p.fresh = true) : p = stage .idle := by
  cases p with
  | stage s =>
    cases s with
    | idle => rfl
    | _ => cases h
  | _ => cases h

end Point
end SshClientWasm.Ssh
