import SshClientWasm.Ssh.ShellInput

/-!
# Sending to a shell that is dead

Whether a `Write` has failed, or the shell has exited, is known to the goroutines of
`StartShell` alone. A `Send` asks a flag and the channel, which do not change then.
-/
namespace SshClientWasm.Ssh.Shell

open Library

variable {τ κ Conn : Type*}

/-- A `Send` that is called when the shell is dead. -/
def calledLate (s : Console τ κ Conn) : Moment τ → List τ
  | .turn (.spawn t (.send _)) _ | .turn (.handle t (.send _)) _ => if s.Dead then [t] else []
  | _ => []

/-- The `Send` at this point has returned nil, or has nothing else left to return. -/
def Resolves : Point → Prop
  | .packetSend _ | .sent _ (.ok ()) | .stage (.done (.send _) (.ok ())) => True
  | _ => False

/-- No `Send` that was called when the shell was dead returns nil, unless there is another
shell. -/
def Honest (s : Console τ κ Conn × List τ) : Prop :=
  ∀ t ∈ s.2, Resolves (s.1.loop.pc t) → 1 < s.1.loop.data.started

/-- A `select` finds no channel, a closed one, or one without room. -/
def NoRoom (x : Shared κ Conn) : Point → Prop
  | .stage (.select _) =>
    x.stdin = false ∨ x.channel.closed = true ∨ x.channel.buffer.items.length = 100
  | _ => True

instance (x : Shared κ Conn) (p : Point) : Decidable (NoRoom x p) := by
  unfold NoRoom
  split <;> infer_instance

/-- The `select` of no `Send` that was called when the shell was dead finds room. -/
def Refused (s : Console τ κ Conn × List τ) : Moment τ → Prop
  | .turn (.go t _) _ => t ∈ s.2 → NoRoom s.1.loop.data (s.1.loop.pc t)
  | _ => True

section Resolves

variable {callbacks : GoCallbacks} {x x' : Shared κ Conn} {p p' q : Point}

theorem accepts_eq_nil_iff : accepts x p = [] ↔ NoRoom x p := by
  cases p with
  | stage s =>
    cases s with
    | select data =>
      rw [NoRoom, ← BoundedQueue.trySend_eq_none (x := data)]
      cases hstdin : x.stdin with
      | false => simp [accepts, Shared.select, Shared.stdinRef, hstdin, Channel.send]
      | true =>
        cases hclosed : x.channel.closed with
        | true => simp [accepts, Shared.select, Shared.stdinRef, hstdin, Channel.send, hclosed]
        | false =>
          cases hroom : x.channel.buffer.trySend data <;>
            simp [accepts, Shared.select, Shared.stdinRef, hstdin, Channel.send, hclosed, hroom]
    | _ => exact iff_of_true rfl trivial
  | _ => exact iff_of_true rfl trivial

theorem did_eq_nil_iff (callbacks : GoCallbacks) : did callbacks p = [] ↔ ¬Resolves p := by
  unfold did Resolves
  split <;> simp

theorem resolves_going (h : Point.Going callbacks x p x' p') :
    Resolves p' ↔ Resolves p ∨ ¬NoRoom x p := by
  rw [← not_iff_not, not_or, ← did_eq_nil_iff callbacks, did_going h,
    List.append_eq_nil_iff, List.map_eq_nil_iff, did_eq_nil_iff, accepts_eq_nil_iff, not_not]

theorem resolves_callOut (h : Point.callOut callbacks x p = some q) :
    Resolves q ↔ Resolves p := by
  rcases Point.callOut_cases h with ⟨rfl, rfl⟩ | ⟨data, rfl, rfl⟩ | ⟨rfl, rfl⟩ | ⟨s, rfl, rfl⟩
  all_goals exact Iff.rfl

theorem not_resolves_spawn (c : Call) : ¬Resolves (Point.spawn c) := by
  cases c <;> exact id

theorem not_resolves_handle (c : Static) : ¬Resolves (Point.handle x c) := by
  rcases Point.handle_cases x c with h | ⟨err, h⟩
  · rw [h]
    exact not_resolves_spawn c.call
  · rw [h]
    cases c <;> exact id

end Resolves

/-- The console with the `Send`s that were called late. -/
abbrev watching [DecidableEq τ] (callbacks : GoCallbacks) :
    Machine (Console τ κ Conn × List τ) (Moment τ) :=
  (console callbacks).recorded calledLate

section Watching

variable [DecidableEq τ] {callbacks : GoCallbacks} {s s' : Console τ κ Conn × List τ}
  {m : Moment τ}

/-- The shell has been started once. -/
def Watched (callbacks : GoCallbacks) (s : Console τ κ Conn × List τ) : Prop :=
  (client callbacks).Valid s.1.loop ∧ Single s.1.loop

theorem Watched.step (hs : Watched callbacks s) (h : (watching callbacks).step s m = some s') :
    Watched callbacks s' := by
  obtain ⟨console, late⟩ := s'
  obtain ⟨hstep, _⟩ := (Machine.recorded_step _).mp h
  dsimp only at hstep
  cases step_cases hstep with
  | turn a now hready hturn =>
    exact ⟨hs.1.step (Guest.step_cases hturn), hs.2.step hs.1 hturn⟩
  | _ => exact hs

omit [DecidableEq τ] in
theorem honest_iff (hs : Single s.1.loop) :
    Honest s ↔ ∀ t ∈ s.2, ¬Resolves (s.1.loop.pc t) := by
  have hfew : ¬1 < s.1.loop.data.started := by
    rw [hs.started]
    exact not_lt.mpr hs.few
  exact forall₂_congr fun t _ => ⟨fun h hresolves => hfew (h hresolves), fun h hresolves =>
    absurd hresolves h⟩

theorem unresolved_move {pc : τ → Point} {late late' : List τ} {t : τ} {q : Point}
    (hs : ∀ u ∈ late, ¬Resolves (pc u)) (hlate : ∀ u ∈ late', u = t ∨ u ∈ late)
    (hq : t ∈ late' → ¬Resolves q) : ∀ u ∈ late', ¬Resolves (Function.update pc t q u) := by
  intro u hu
  by_cases hut : u = t
  · subst hut
    rw [Function.update_self]
    exact hq hu
  · rw [Function.update_of_ne hut]
    exact hs u ((hlate u hu).resolve_left hut)

theorem unresolved_go_iff {pc : τ → Point} {late : List τ} {t : τ} {x x' : Shared κ Conn}
    {p' : Point} (hs : ∀ u ∈ late, ¬Resolves (pc u)) (h : Point.Going callbacks x (pc t) x' p') :
    (∀ u ∈ late, ¬Resolves (Function.update pc t p' u)) ↔ (t ∈ late → NoRoom x (pc t)) := by
  constructor
  · intro hafter ht
    have hresolves := hafter t ht
    rw [Function.update_self, resolves_going h, not_or, not_not] at hresolves
    exact hresolves.2
  · intro hroom
    refine unresolved_move hs (fun u hu => Or.inr hu) fun ht => ?_
    rw [resolves_going h, not_or, not_not]
    exact ⟨hs t ht, hroom ht⟩

/-- A moment keeps the client honest exactly if it is no `select` of a late `Send` that
finds room. -/
theorem step_honest_iff (hs : Watched callbacks s) (hhonest : Honest s)
    (h : (watching callbacks).step s m = some s') : Honest s' ↔ Refused s m := by
  have hafter := hs.step h
  rw [honest_iff hs.2] at hhonest
  rw [honest_iff hafter.2]
  clear hafter
  obtain ⟨console, late⟩ := s'
  obtain ⟨hstep, hlate⟩ := (Machine.recorded_step _).mp h
  dsimp only at hstep hlate
  subst hlate
  have hquiet : ∀ t, ∀ u ∈ s.2 ++ ([] : List τ), u = t ∨ u ∈ s.2 := by
    intro t u hu
    rw [List.append_nil] at hu
    exact Or.inr hu
  have hcalled : ∀ t, ∀ u ∈ s.2 ++ (if s.1.Dead then [t] else []), u = t ∨ u ∈ s.2 := by
    intro t u hu
    rcases List.mem_append.mp hu with hu | hu
    · exact Or.inr hu
    · split at hu
      · exact Or.inl (List.mem_singleton.mp hu)
      · cases hu
  cases step_cases hstep with
  | turn a now hready hturn =>
    cases Guest.step_cases hturn with
    | spawn t c hfresh =>
      refine iff_of_true ?_ trivial
      have hnot := not_resolves_spawn c
      cases c with
      | send data => exact unresolved_move hhonest (hcalled t) fun _ => hnot
      | _ => exact unresolved_move hhonest (hquiet t) fun _ => hnot
    | handle t c hhost hfresh =>
      refine iff_of_true ?_ trivial
      have hnot := not_resolves_handle (x := s.1.loop.data) c
      cases c with
      | send data => exact unresolved_move hhonest (hcalled t) fun _ => hnot
      | disconnect => exact unresolved_move hhonest (hquiet t) fun _ => hnot
    | go t err hfree hadvance hlock =>
      have hgo := unresolved_go_iff hhonest (Point.advance_going hadvance)
      simpa only [calledLate, List.append_nil, Refused] using hgo
    | callOut t hfree hcall =>
      refine iff_of_true ?_ trivial
      refine unresolved_move hhonest (hquiet t) fun ht => ?_
      rw [resolves_callOut hcall]
      exact hhonest t ((List.append_nil s.2) ▸ ht)
    | answer t err hstack hanswer =>
      refine iff_of_true ?_ trivial
      obtain ⟨op, caller, _, _, rfl⟩ := Point.answered_spec hanswer
      exact unresolved_move hhonest (hquiet t) fun _ => id
    | external | guest | host | leave =>
      refine iff_of_true ?_ trivial
      simpa only [calledLate, List.append_nil] using hhonest
  | _ =>
    refine iff_of_true ?_ trivial
    simpa only [calledLate, List.append_nil] using hhonest

omit [DecidableEq τ] in
theorem connected_watched (sessionID : String) (conn : Conn) (sessions : String → Option κ)
    (this : κ) :
    Watched callbacks
      ((Console.connected sessionID conn sessions this, []) : Console τ κ Conn × List τ) :=
  ⟨(connected_calm sessionID conn sessions this).valid, Single.connected sessionID conn sessions this⟩

/-- In a run of a connected client, no `Send` that is called when the shell is dead returns
nil, exactly as long as the `select` of each such `Send` is refused. -/
theorem always_honest_iff (callbacks : GoCallbacks) (sessionID : String) (conn : Conn)
    (sessions : String → Option κ) (this : κ) (labels : List (Moment τ))
    (s : Console τ κ Conn × List τ)
    (hrun : (watching callbacks).run (.connected sessionID conn sessions this, []) labels =
      some s) :
    (watching callbacks).Always Honest (.connected sessionID conn sessions this, []) labels ↔
      (watching callbacks).Admits Refused (.connected sessionID conn sessions this, []) labels :=
  (watching callbacks).always_iff_admits (I := Watched callbacks) (fun _ _ _ hs h => hs.step h)
    (fun _ _ _ hs hhonest h => step_honest_iff hs hhonest h) labels _ s
    (connected_watched sessionID conn sessions this) (fun _ ht => nomatch ht) hrun

instance (s : Console τ κ Conn × List τ) (m : Moment τ) : Decidable (Refused s m) :=
  match m with
  | .turn (.go t _) _ =>
    inferInstanceAs (Decidable (t ∈ s.2 → NoRoom s.1.loop.data (s.1.loop.pc t)))
  | .turn (.spawn ..) _ | .turn (.handle ..) _ | .turn (.callOut _) _ | .turn (.answer ..) _
  | .turn (.external _) _ | .turn .guest _ | .turn .host _ | .turn .leave _ | .puts .. | .wrote ..
  | .ends _ => .isTrue trivial

end Watching

/-- Behind the end of the shell the client is disconnected, before the next `Send`. -/
def disconnected : List (Moment ℕ) :=
  firstSend 0 [1] ++ [.ends .stdout, .ends .stderr] ++
    (.turn (.spawn 1 .disconnect) 9 :: List.replicate 8 (.turn (.go 1 none) 9)) ++
    (.turn (.spawn 2 (.send [2])) 9 :: List.replicate 7 (.turn (.go 2 none) 9))

theorem always_honest_iff_disconnected :
    ∃ s, (watching ⟨false, true, false⟩).run
        ((Console.connected "ssh-1" () (fun _ => none) () : Console ℕ Unit Unit), [])
        disconnected = some s ∧ s.2 = [2] ∧
      (watching ⟨false, true, false⟩).Always Honest
        ((Console.connected "ssh-1" () (fun _ => none) () : Console ℕ Unit Unit), [])
        disconnected := by
  refine ⟨_, rfl, rfl, ?_⟩
  refine (always_honest_iff ⟨false, true, false⟩ "ssh-1" () (fun _ => none) () disconnected _
    rfl).mpr ?_
  decide +kernel

/-- A `Write` has failed, or the shell has exited, and the next `Send` returns nil. -/
theorem send_to_deadShell :
    (∃ s, (watching ⟨false, true, false⟩).run
        ((Console.connected "ssh-1" () (fun _ => none) () : Console ℕ Unit Unit), [])
        (firstSend 0 [1, 2] ++ brokenWrite ++ laterSend 1 [3]) = some s ∧ s.1.failed = true ∧
      s.2 = [1] ∧ s.1.loop.pc 1 = .stage (.done (.send [3]) (.ok ())) ∧
      s.1.loop.data.started = 1 ∧ ¬Honest s) ∧
    ∃ s, (watching ⟨false, true, false⟩).run
        ((Console.connected "ssh-1" () (fun _ => none) () : Console ℕ Unit Unit), [])
        (firstSend 0 [1, 2] ++ [.ends .stdout, .ends .stderr] ++ laterSend 1 [3]) = some s ∧
      s.2 = [1] ∧ s.1.loop.pc 1 = .stage (.done (.send [3]) (.ok ())) ∧
      s.1.loop.data.started = 1 ∧ ¬Honest s := by
  refine ⟨⟨_, rfl, rfl, rfl, rfl, rfl, fun h => ?_⟩, ⟨_, rfl, rfl, rfl, rfl, fun h => ?_⟩⟩
  · exact absurd (h 1 (List.mem_singleton.mpr rfl) trivial) (by decide +kernel)
  · exact absurd (h 1 (List.mem_singleton.mpr rfl) trivial) (by decide +kernel)

end SshClientWasm.Ssh.Shell
