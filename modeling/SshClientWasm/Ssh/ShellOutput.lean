import SshClientWasm.Ssh.Interceptor

/-!
# Output of the shell

`StartShell` leaves two goroutines behind, one that reads `stdout` and one that reads
`stderr`. Both run the same loop over a buffer of 1024 bytes, and leave it at the first error
before they look at what came with it.
-/
namespace SshClientWasm.Ssh.ShellOutput

open Library Interceptor

inductive Stream
  | stdout
  | stderr
  deriving DecidableEq, Repr

def bufferSize : ℕ := 1024

/-- One turn of the loop: whether another follows, and the packet for `onPacketReceive`. -/
def turn (onPacketReceive : Bool) (r : ReadResult) (now : ℤ) : Bool × Option Packet :=
  if r.err ≠ none then (false, none)
  else if 0 < r.data.length ∧ onPacketReceive then
    (true, some ⟨r.data, ⟨now, some "data", "receive", r.data.length⟩⟩)
  else (true, none)

/-- The loops that still run, the bytes that the reads of a stream returned, and the packets,
each with the goroutine that it comes from. -/
structure Outputs where
  reading : Stream → Bool
  returned : Stream → Bytes
  packets : List (Stream × Packet)

/-- The shell has just been started. -/
def started : Outputs := ⟨fun _ => true, fun _ => [], []⟩

/-- A read of a stream returns, with at most a buffer full of bytes, and its goroutine ends
the turn. -/
def outputs (onPacketReceive : Bool) : Machine Outputs (Stream × ReadResult × ℤ) where
  step o label :=
    let (s, r, now) := label
    let next := turn onPacketReceive r now
    if o.reading s ∧ r.data.length ≤ bufferSize then
      some
        { reading := Function.update o.reading s next.1
          returned := Function.update o.returned s (o.returned s ++ r.data)
          packets := o.packets ++ next.2.toList.map (s, ·) }
    else none

namespace Outputs

/-- What the goroutine of a stream has delivered, in order. -/
def delivered (o : Outputs) (s : Stream) : Bytes :=
  (o.packets.filter (·.1 = s)).flatMap fun p => p.2.data

/-- Each stream is delivered as it was returned. -/
def Complete (o : Outputs) : Prop := ∀ s, o.delivered s = o.returned s

/-- A loop that runs has delivered everything so far. -/
def Current (o : Outputs) : Prop := ∀ s, o.reading s = true → o.delivered s = o.returned s

variable {o o' : Outputs} {s : Stream} {r : ReadResult} {now : ℤ}

theorem delivered_append (packets : List (Stream × Packet)) (s : Stream) :
    delivered { o with packets := o.packets ++ packets } s =
      o.delivered s ++ (packets.filter (·.1 = s)).flatMap fun p => p.2.data := by
  rw [delivered, List.filter_append, List.flatMap_append]
  rfl

theorem step_cases (hstep : (outputs true).step o (s, r, now) = some o') :
    o.reading s = true ∧ (o'.reading s = true → r.err = none) ∧
      o'.returned s = o.returned s ++ r.data ∧
      o'.delivered s = o.delivered s ++ (if r.err = none then r.data else []) ∧
      ∀ e, e ≠ s → o'.reading e = o.reading e ∧ o'.returned e = o.returned e ∧
        o'.delivered e = o.delivered e := by
  obtain ⟨⟨hreading, _⟩, heq⟩ := Option.ite_none_right_eq_some.mp hstep
  have hown : ((turn true r now).2.toList.map (s, ·)).filter (·.1 = s) =
      (turn true r now).2.toList.map (s, ·) := by simp
  have hdata : ((turn true r now).2.toList.map ((s, ·) : Packet → Stream × Packet)).flatMap
      (fun p => p.2.data) = if r.err = none then r.data else [] := by
    unfold turn
    by_cases herr : r.err = none
    · rw [if_neg (not_not.mpr herr), if_pos herr]
      by_cases hlen : 0 < r.data.length
      · simp [hlen]
      · have hnil : r.data = [] := List.length_eq_zero_iff.mp (by omega)
        simp [hnil]
    · rw [if_pos herr, if_neg herr]
      rfl
  cases heq
  refine ⟨hreading, fun hnext => ?_, Function.update_self .., ?_, fun e he => ⟨?_, ?_, ?_⟩⟩
  · dsimp only at hnext
    rw [Function.update_self] at hnext
    by_contra herr
    simp [turn, herr] at hnext
  · refine (delivered_append (o := o) _ s).trans ?_
    rw [hown, hdata]
  · exact Function.update_of_ne he ..
  · exact Function.update_of_ne he ..
  · refine (delivered_append (o := o) _ e).trans ?_
    have hnone : ((turn true r now).2.toList.map (s, ·)).filter (·.1 = e) = [] := by
      simp [List.filter_eq_nil_iff, he.symm]
    rw [hnone, List.flatMap_nil, List.append_nil]

theorem Current.step (h : o.Current) (hstep : (outputs true).step o (s, r, now) = some o') :
    o'.Current := by
  obtain ⟨hreading, hnext, hreturned, hdelivered, hother⟩ := step_cases hstep
  intro e he
  by_cases hes : e = s
  · subst hes
    rw [hdelivered, hreturned, if_pos (hnext he), h e hreading]
  · obtain ⟨hreading', hreturned', hdelivered'⟩ := hother e hes
    rw [hdelivered', hreturned', h e (hreading' ▸ he)]

/-- What is lost in a turn stays lost. -/
theorem step_complete_iff (h : o.Current) (hstep : (outputs true).step o (s, r, now) = some o') :
    o'.Complete ↔ o.Complete ∧ (r.err ≠ none → r.data = []) := by
  obtain ⟨hreading, _, hreturned, hdelivered, hother⟩ := step_cases hstep
  have hown : o'.delivered s = o'.returned s ↔ (r.err ≠ none → r.data = []) := by
    rw [hdelivered, hreturned, h s hreading, List.append_cancel_left_eq]
    by_cases herr : r.err = none
    · simp [herr]
    · simp [herr, eq_comm]
  constructor
  · intro hcomplete
    refine ⟨fun e => ?_, hown.mp (hcomplete s)⟩
    by_cases hes : e = s
    · exact hes ▸ h s hreading
    · obtain ⟨_, hreturned', hdelivered'⟩ := hother e hes
      rw [← hdelivered', ← hreturned']
      exact hcomplete e
  · rintro ⟨hcomplete, hclean⟩ e
    by_cases hes : e = s
    · exact hes ▸ hown.mpr hclean
    · obtain ⟨_, hreturned', hdelivered'⟩ := hother e hes
      rw [hdelivered', hreturned']
      exact hcomplete e

end Outputs

/-- Whatever the reads of both streams return, and however the goroutines interleave, each
stream is delivered completely exactly if no read returns bytes together with an error. -/
theorem complete_iff (labels : List (Stream × ReadResult × ℤ)) (o : Outputs)
    (hrun : (outputs true).run started labels = some o) :
    o.Complete ↔ ∀ label ∈ labels, label.2.1.err ≠ none → label.2.1.data = [] := by
  have hcurrent : started.Current := fun _ _ => rfl
  have hcomplete : started.Complete := fun _ => rfl
  have hrun_iff := (outputs true).run_iff_forall
    (fun _ label _ h hstep => Outputs.Current.step (s := label.1) h hstep)
    (fun _ label _ h hstep => Outputs.step_complete_iff (s := label.1) h hstep)
    labels started o hcurrent hrun
  exact hrun_iff.trans (and_iff_right hcomplete)

/-- Output, an empty read, an error without bytes on one stream, and more on the other. -/
theorem complete_iff_clean :
    let labels : List (Stream × ReadResult × ℤ) :=
      [(.stdout, ⟨[1, 2], none⟩, 0), (.stdout, ⟨[], none⟩, 0), (.stderr, ⟨[3], none⟩, 0),
        (.stdout, ⟨[], some "EOF"⟩, 0), (.stderr, ⟨[4], none⟩, 0)]
    ∃ o, (outputs true).run started labels = some o ∧ o.Complete := by
  intro labels
  refine ⟨_, rfl, (complete_iff labels _ rfl).mpr ?_⟩
  simp [labels]

/-- The last read returns its bytes together with the end of the stream. -/
theorem last_read_lost : ∃ o, (outputs true).run started
    [(.stdout, ⟨[1, 2, 3], some "EOF"⟩, 0)] = some o ∧ ¬ o.Complete :=
  ⟨_, rfl, fun h => absurd (h .stdout) (by decide)⟩

end SshClientWasm.Ssh.ShellOutput
