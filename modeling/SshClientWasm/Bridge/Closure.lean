import SshClientWasm.Bridge.Inbound
import SshClientWasm.Bridge.Objects
import SshClientWasm.Tunnel.ProtobufMessages

/-!
# A registered transport and its closure

A transport object after `TransportManager.createTransport`, with its paired
`JSTransport`. The manager passes data on to Go, and a `Close` in Go on to the
object. Nothing passes the closure of the object on to Go: whoever closes first
decides whether the other side learns of it.
-/
namespace SshClientWasm.Bridge

open Library Tunnel

/-- A step of the object, of the Go side, or of `closeTransport`. -/
inductive Occurrence
  | input (a : Input)
  | frame
  | injectData (data : Bytes)
  | connected
  | disconnected (i : ℕ) (resolves : Bool)
  | read (len : ℕ) (arm : Arm)
  | write (p : Bytes)
  | close
  | closeTransport
  | resume
  deriving DecidableEq, Repr

/-- The object, the Go registry with the place of the paired `JSTransport`,
whether the manager's map still has the object, the `closeTransport` calls whose
`await` is over, and whether the object has processed a closure. -/
structure Link where
  object : Object
  wasm : Wasm
  id : String
  conn : ℕ
  managed : Bool
  resuming : ℕ
  processed : Bool

namespace Link

variable (env : Env)

/-- `createTransport` of the manager, for an object whose id Go may know already. -/
def start (w : Wasm) (id : String) (object : Object) : Link where
  object := object
  wasm := w.createTransport id
  id := id
  conn := w.heap.length
  managed := true
  resuming := 0
  processed := false

/-- What a step of the object does to the whole. -/
def absorb (s : Link) (o : Outcome) : Link :=
  { s with
    object := o.object
    wasm := o.data.elim s.wasm (onData s.wasm s.id)
    processed := s.processed || o.closes }

/-- The paired `JSTransport`. -/
def jsTransport (s : Link) : Option JSTransport := s.wasm.heap[s.conn]?

def jsClosed (s : Link) : Prop := s.wasm.shutAt s.conn = some (true, true)

/-- `Close` of the paired `JSTransport`: its `onClose` calls `disconnect()`. -/
def goClose (s : Link) : Option Link :=
  s.jsTransport.map fun t =>
    match t.closeLocked with
    | (_, false) => s
    | (t', true) =>
      { s with wasm := s.wasm.set s.conn t'.closeChan }.absorb (s.object.disconnect env .go)

/-- The rest of `closeTransport` of the manager, behind its `await`. -/
def resume (s : Link) : Link :=
  let (wasm, closed, _) := s.wasm.closeTransport s.id
  let s' := { s with wasm := wasm, managed := false, resuming := s.resuming - 1 }
  if closed = some s.conn then s'.absorb (s'.object.disconnect env .go) else s'

/-- The rest of a `closeTransport` is a microtask. It is taken to run directly behind the end
of `disconnect()`; other microtasks that may come in between are left out. -/
def machine : Machine Link Occurrence where
  step s a :=
    if 0 < s.resuming then if a = .resume then some (s.resume env) else none
    else
      match a with
      | .input a => (s.object.event env a).map s.absorb
      | .frame =>
        match s.object with
        | .secureTunnel r => (tunnelFrame env r).map s.absorb
        | _ => none
      | .injectData data =>
        match s.object with
        | .custom t => some (s.absorb ⟨.custom t, some data, false⟩)
        | _ => none
      | .connected =>
        match s.object with
        | .custom t => t.connected.map fun t' => s.absorb ⟨.custom t', none, false⟩
        | _ => none
      | .disconnected i resolves =>
        match s.object with
        | .custom t =>
          (t.disconnected i resolves).map fun (caller, o) =>
            { s.absorb o with resuming := if resolves ∧ caller = .manager then 1 else 0 }
        | _ => none
      | .read len arm => do
        let t ← s.jsTransport
        if t.closed then some s
        else
          let (t', _) ← t.readUnlocked len arm
          some { s with wasm := s.wasm.set s.conn t' }
      | .write p =>
        s.jsTransport.map fun t => if t.closed then s else { s with object := s.object.send env p }
      | .close => s.goClose env
      | .closeTransport =>
        if s.managed then
          some { s.absorb (s.object.disconnect env .manager) with
            resuming := if s.object.disconnects then 1 else 0 }
        else some s
      | .resume => none

/-- Go knows of a processed closure, or `closeTransport` is about to tell it. -/
def Informed (s : Link) : Prop := s.processed = true → s.jsClosed ∨ 0 < s.resuming

/-- The steps by which an object processes its closure, unless it does so for a
`closeTransport` that goes on to close the other side. -/
def Closes (s : Link) : Occurrence → Prop
  | .input (.close _) => True
  | .input (.call .disconnect) => ∃ t, s.object = .custom t ∧ t.disconnectImpl = false
  | .frame => ∃ r m, s.object = .secureTunnel r ∧ nextMessage env r = some m ∧ resets m = true
  | .disconnected i resolves =>
    resolves = true ∧ ∃ t, s.object = .custom t ∧ t.disconnecting[i]? ≠ some .manager
  | _ => False

/-- The paired `JSTransport` is closed before the object processes its closure. -/
def GoFirst (s : Link) (a : Occurrence) : Prop := s.Closes env a → s.jsClosed

/-- The `JSTransport` is shut as a whole, and stays registered until then. -/
structure Paired (s : Link) : Prop where
  shut : s.jsClosed ∨ s.wasm.shutAt s.conn = some (false, false)
  registered : s.wasm.transports s.id = some s.conn ∨
    s.wasm.transports s.id = none ∧ s.jsClosed

theorem start_paired (w : Wasm) (id : String) (object : Object) : (start w id object).Paired where
  shut := Or.inr (by simp [start, Wasm.createTransport, Wasm.shutAt, JSTransport.new,
    JSTransport.shut])
  registered := Or.inl (by simp [start, Wasm.createTransport])

variable {env} {s s' : Link} {a : Occurrence} {o : Outcome}

theorem absorb_frame (s : Link) (o : Outcome) :
    (s.absorb o).wasm.transports = s.wasm.transports ∧
      (s.absorb o).wasm.shutAt s.conn = s.wasm.shutAt s.conn ∧
      ((s.absorb o).jsClosed ↔ s.jsClosed) := by
  cases hdata : o.data with
  | none => simp [absorb, hdata, jsClosed]
  | some data =>
    obtain ⟨htransports, _, hshut⟩ := s.wasm.injectTransportData_frame s.id data
    simp [absorb, hdata, jsClosed, onData, htransports, hshut]

theorem Paired.absorb (h : s.Paired) (o : Outcome) : (s.absorb o).Paired := by
  obtain ⟨htransports, hshut, hclosed⟩ := absorb_frame s o
  refine ⟨?_, ?_⟩
  · rw [hclosed]
    exact h.shut.imp_right hshut.trans
  · rw [htransports, hclosed]
    exact h.registered

/-- What a step can mean for the closure: Go closes, `closeTransport` is about to
close, or the object acts on its own. -/
inductive Turn (env : Env) (s : Link) (a : Occurrence) (s' : Link) : Prop
  | told (hclosed : s'.jsClosed) (hnot : ¬ s.Closes env a)
  | queued (hresuming : 0 < s'.resuming) (hnot : ¬ s.Closes env a)
  | alone (hclosed : s'.jsClosed ↔ s.jsClosed) (hresuming : s.resuming = 0)
      (hresuming' : s'.resuming = 0)
      (hprocessed : s'.processed = true ↔ s.processed = true ∨ s.Closes env a)

theorem Turn.absorb (hresuming : s.resuming = 0) (hcloses : o.closes = true ↔ s.Closes env a) :
    Turn env s a (s.absorb o) := by
  refine .alone (absorb_frame s o).2.2 hresuming hresuming ?_
  rw [← hcloses]
  simp [Link.absorb]

theorem jsClosed_iff {t : JSTransport} (ht : s.jsTransport = some t) :
    s.jsClosed ↔ t.shut = (true, true) := by
  have hheap : s.wasm.heap[s.conn]? = some t := ht
  simp [jsClosed, Wasm.shutAt, hheap]

theorem Paired.shut_cases (h : s.Paired) {t : JSTransport} (ht : s.jsTransport = some t) :
    t.shut = (true, true) ∨ t.shut = (false, false) := by
  have hheap : s.wasm.heap[s.conn]? = some t := ht
  rcases h.shut with hclosed | hopen
  · exact Or.inl ((jsClosed_iff ht).mp hclosed)
  · right
    simpa [Wasm.shutAt, hheap] using hopen

theorem Paired.jsTransport (h : s.Paired) : ∃ t, s.jsTransport = some t := by
  rcases h.shut with hshut | hshut
  · obtain ⟨t, ht, _⟩ := Option.map_eq_some_iff.mp hshut
    exact ⟨t, ht⟩
  · obtain ⟨t, ht, _⟩ := Option.map_eq_some_iff.mp hshut
    exact ⟨t, ht⟩

theorem goClose_told (h : s.Paired) (hstep : s.goClose env = some s') :
    s'.jsClosed ∧ s'.Paired := by
  obtain ⟨t, ht, hclose⟩ := Option.map_eq_some_iff.mp hstep
  rcases t.closeLocked_cases with ⟨hclosed, heq⟩ | ⟨_, heq⟩
  · rw [heq] at hclose
    cases hclose
    refine ⟨(jsClosed_iff ht).mpr ?_, h⟩
    rcases h.shut_cases ht with hshut | hshut
    · exact hshut
    · rw [(Prod.mk.inj hshut).1] at hclosed
      cases hclosed
  · rw [heq] at hclose
    dsimp only at hclose
    have hset : ({ s with
        wasm := s.wasm.set s.conn { t with closed := true }.closeChan } : Link).jsClosed := by
      rw [jsClosed, Wasm.set_shutAt ht, if_pos rfl]
      rfl
    have hpaired : ({ s with
        wasm := s.wasm.set s.conn { t with closed := true }.closeChan } : Link).Paired := by
      refine ⟨Or.inl hset, ?_⟩
      · rcases h.registered with hreg | ⟨hreg, _⟩
        · exact Or.inl hreg
        · exact Or.inr ⟨hreg, hset⟩
    rw [← hclose]
    exact ⟨(absorb_frame _ _).2.2.mpr hset, hpaired.absorb _⟩

theorem Paired.closeTransport_wasm (h : s.Paired) :
    (s.wasm.closeTransport s.id).1.shutAt s.conn = some (true, true) ∧
      (s.wasm.closeTransport s.id).1.transports s.id = none := by
  rcases h.registered with hreg | ⟨hreg, hclosed⟩
  · obtain ⟨t, ht⟩ := h.jsTransport
    have hget : s.wasm.getTransport s.id = some (s.conn, t) :=
      Wasm.getTransport_eq_some.mpr ⟨hreg, ht⟩
    obtain ⟨hclosed, hnone, _⟩ := Wasm.closeTransport_of_registered hget (h.shut_cases ht)
    exact ⟨hclosed, hnone⟩
  · have hnone : s.wasm.getTransport s.id = none := by
      simp [Wasm.getTransport, hreg]
    have hsame : (s.wasm.closeTransport s.id).1 = s.wasm := by
      simp [Wasm.closeTransport, hnone]
    rw [hsame]
    exact ⟨hclosed, hreg⟩

theorem resume_told (env : Env) (h : s.Paired) :
    (s.resume env).jsClosed ∧ (s.resume env).Paired := by
  obtain ⟨hshut, hnone⟩ := h.closeTransport_wasm
  have hwasm : ∀ s' : Link, s'.conn = s.conn → s'.id = s.id →
      s'.wasm = (s.wasm.closeTransport s.id).1 → s'.jsClosed ∧ s'.Paired := by
    intro s' hconn hid hwasm
    have hclosed : s'.jsClosed := by
      rw [jsClosed, hwasm, hconn]
      exact hshut
    refine ⟨hclosed, Or.inl hclosed, Or.inr ⟨?_, hclosed⟩⟩
    rw [hwasm, hid]
    exact hnone
  unfold resume
  dsimp only
  split_ifs
  · obtain ⟨hclosed, hpaired⟩ := hwasm
      { s with
        wasm := (s.wasm.closeTransport s.id).1
        managed := false
        resuming := s.resuming - 1 } rfl rfl rfl
    exact ⟨(absorb_frame _ _).2.2.mpr hclosed, hpaired.absorb _⟩
  · exact hwasm _ rfl rfl rfl

theorem read_frame {t t' : JSTransport} (ht : s.jsTransport = some t) (hsame : t'.shut = t.shut)
    (h : s.Paired) :
    (({ s with wasm := s.wasm.set s.conn t' } : Link).jsClosed ↔ s.jsClosed) ∧
      ({ s with wasm := s.wasm.set s.conn t' } : Link).Paired := by
  have hshut := Wasm.set_shutAt_same ht hsame s.conn
  have hclosed : ({ s with wasm := s.wasm.set s.conn t' } : Link).jsClosed ↔ s.jsClosed := by
    rw [jsClosed, hshut]
    rfl
  refine ⟨hclosed, h.shut.imp hclosed.mpr hshut.trans, ?_⟩
  rw [hclosed]
  exact h.registered

/-- The events of an object, and whether they are its closure. -/
theorem event_closes {i : Input} (hevent : s.object.event env i = some o) :
    o.closes = true ↔ s.Closes env (.input i) := by
  cases hobject : s.object with
  | webSocket t =>
    rw [hobject] at hevent
    rw [WebSocketTransport.event_closes hevent]
    cases i <;> first | rfl | (rename_i c; cases c <;> simp [IsClose, Closes, hobject])
  | secureTunnel r =>
    rw [hobject] at hevent
    rw [tunnelEvent_closes hevent]
    cases i <;> first | rfl | (rename_i c; cases c <;> simp [IsClose, Closes, hobject])
  | custom t =>
    rw [hobject] at hevent
    cases i with
    | call c =>
      cases c with
      | connect constructs =>
        cases hevent
        simp [Closes]
      | send data =>
        cases hevent
        simp [Closes]
      | disconnect =>
        cases hevent
        simp [t.disconnect_closes, Closes, hobject]
    | _ => cases hevent

theorem Turn.idle (hresuming : s.resuming = 0) (hresuming' : s'.resuming = 0)
    (hclosed : s'.jsClosed ↔ s.jsClosed) (hprocessed : s'.processed = s.processed)
    (hnot : ¬ s.Closes env a) : Turn env s a s' :=
  .alone hclosed hresuming hresuming' (by simp [hprocessed, hnot])

theorem disconnected_turn (h : s.Paired) (hzero : s.resuming = 0) {t t' : CustomTransport} {i : ℕ}
    {resolves : Bool} {caller : Caller} (hobject : s.object = .custom t)
    (hcaller : t.disconnecting[i]? = some caller)
    (hs' : s' = { s.absorb ⟨.custom t', none, resolves⟩ with
      resuming := if resolves ∧ caller = .manager then 1 else 0 }) :
    Turn env s (.disconnected i resolves) s' ∧ s'.Paired := by
  have hpaired := h.absorb ⟨.custom t', none, resolves⟩
  subst hs'
  refine ⟨?_, hpaired.shut, hpaired.registered⟩
  by_cases hmanager : resolves = true ∧ caller = .manager
  · refine .queued (by simp [hmanager]) ?_
    rintro ⟨_, u, hu, hother⟩
    cases hobject.symm.trans hu
    exact hother (hcaller.trans (congrArg some hmanager.2))
  · refine .alone (absorb_frame s _).2.2 hzero (if_neg hmanager) ?_
    have hcloses : s.Closes env (.disconnected i resolves) ↔ resolves = true := by
      constructor
      · exact fun hcloses => hcloses.1
      · intro hresolves
        refine ⟨hresolves, t, hobject, ?_⟩
        rw [hcaller]
        intro heq
        exact hmanager ⟨hresolves, Option.some.inj heq⟩
    rw [hcloses]
    simp [Link.absorb]

theorem closeTransport_turn (h : s.Paired) (hzero : s.resuming = 0)
    (hs' : s' = { s.absorb (s.object.disconnect env .manager) with
      resuming := if s.object.disconnects then 1 else 0 }) :
    Turn env s .closeTransport s' ∧ s'.Paired := by
  have hpaired := h.absorb (s.object.disconnect env .manager)
  subst hs'
  refine ⟨?_, hpaired.shut, hpaired.registered⟩
  by_cases hsettled : s.object.disconnects = true
  · exact .queued (by simp [hsettled]) (by simp [Closes])
  · refine .idle hzero (if_neg hsettled) (absorb_frame s _).2.2 ?_ (by simp [Closes])
    have hcloses : (s.object.disconnect env .manager).closes = false :=
      disconnect_closes_of_waits env hsettled
    simp [Link.absorb, hcloses]

theorem step_turn (h : s.Paired) (hstep : (machine env).step s a = some s') :
    Turn env s a s' ∧ s'.Paired := by
  simp only [machine] at hstep
  by_cases hresuming : 0 < s.resuming
  · rw [if_pos hresuming] at hstep
    obtain ⟨rfl, heq⟩ := Option.ite_none_right_eq_some.mp hstep
    cases heq
    obtain ⟨hclosed, hpaired⟩ := resume_told env h
    exact ⟨.told hclosed (by simp [Closes]), hpaired⟩
  · rw [if_neg hresuming] at hstep
    have hzero : s.resuming = 0 := Nat.eq_zero_of_not_pos hresuming
    cases a with
    | input i =>
      obtain ⟨o, hevent, rfl⟩ := Option.map_eq_some_iff.mp hstep
      exact ⟨.absorb hzero (event_closes hevent), h.absorb o⟩
    | frame =>
      cases hobject : s.object with
      | secureTunnel r =>
        simp only [hobject] at hstep
        obtain ⟨o, hframe, rfl⟩ := Option.map_eq_some_iff.mp hstep
        obtain ⟨r', _, rfl⟩ := Option.map_eq_some_iff.mp hframe
        refine ⟨.absorb hzero ?_, h.absorb _⟩
        simp [Closes, hobject, Option.any_eq_true]
      | webSocket t => simp [hobject] at hstep
      | custom t => simp [hobject] at hstep
    | injectData data =>
      cases hobject : s.object with
      | custom t =>
        simp only [hobject] at hstep
        cases hstep
        exact ⟨.absorb hzero (by simp [Closes]), h.absorb _⟩
      | webSocket t => simp [hobject] at hstep
      | secureTunnel r => simp [hobject] at hstep
    | connected =>
      cases hobject : s.object with
      | custom t =>
        simp only [hobject] at hstep
        obtain ⟨t', _, rfl⟩ := Option.map_eq_some_iff.mp hstep
        exact ⟨.absorb hzero (by simp [Closes]), h.absorb _⟩
      | webSocket t => simp [hobject] at hstep
      | secureTunnel r => simp [hobject] at hstep
    | disconnected i resolves =>
      cases hobject : s.object with
      | custom t =>
        simp only [hobject] at hstep
        obtain ⟨⟨caller, o⟩, hsettled, rfl⟩ := Option.map_eq_some_iff.mp hstep
        obtain ⟨caller', hcaller, heq⟩ := Option.map_eq_some_iff.mp hsettled
        cases heq
        exact disconnected_turn h hzero hobject hcaller rfl
      | webSocket t => simp [hobject] at hstep
      | secureTunnel r => simp [hobject] at hstep
    | read len arm =>
      obtain ⟨t, ht, hstep⟩ := Option.bind_eq_some_iff.mp hstep
      by_cases hclosed : t.closed = true
      · rw [if_pos hclosed] at hstep
        cases hstep
        exact ⟨.idle hzero hzero Iff.rfl rfl (by simp [Closes]), h⟩
      · rw [if_neg hclosed] at hstep
        obtain ⟨⟨t', bytes, err⟩, hread, hstep⟩ := Option.bind_eq_some_iff.mp hstep
        cases hstep
        obtain ⟨hsame, hpaired⟩ := read_frame ht (JSTransport.readUnlocked_shut hread) h
        exact ⟨.idle hzero hzero hsame rfl (by simp [Closes]), hpaired⟩
    | write p =>
      obtain ⟨t, ht, rfl⟩ := Option.map_eq_some_iff.mp hstep
      split_ifs
      · exact ⟨.idle hzero hzero Iff.rfl rfl (by simp [Closes]), h⟩
      · exact ⟨.idle hzero hzero Iff.rfl rfl (by simp [Closes]), h.shut, h.registered⟩
    | close =>
      obtain ⟨hclosed, hpaired⟩ := goClose_told h hstep
      exact ⟨.told hclosed (by simp [Closes]), hpaired⟩
    | closeTransport =>
      by_cases hmanaged : s.managed = true
      · simp only [hmanaged, if_true] at hstep
        cases hstep
        exact closeTransport_turn h hzero rfl
      · simp only [hmanaged] at hstep
        cases hstep
        exact ⟨.idle hzero hzero Iff.rfl rfl (by simp [Closes]), h⟩
    | resume => cases hstep

/-- A single step keeps Go informed exactly if Go closes before the object does. -/
theorem step_informed (h : s.Paired) (hs : s.Informed) (hstep : (machine env).step s a = some s') :
    s'.Informed ↔ s.GoFirst env a := by
  cases (step_turn h hstep).1 with
  | told hclosed hnot => exact iff_of_true (fun _ => Or.inl hclosed) (fun hc => absurd hc hnot)
  | queued hresuming hnot =>
    exact iff_of_true (fun _ => Or.inr hresuming) (fun hc => absurd hc hnot)
  | alone hclosed hresuming hresuming' hprocessed =>
    unfold Informed at hs ⊢
    rw [hprocessed, hclosed, hresuming']
    rw [hresuming] at hs
    constructor
    · intro h hcloses
      exact (h (Or.inr hcloses)).resolve_right (Nat.lt_irrefl 0)
    · rintro hfirst (hdone | hcloses)
      · exact Or.inl ((hs hdone).resolve_right (Nat.lt_irrefl 0))
      · exact Or.inl (hfirst hcloses)

/-- In every run of a registered transport of any class, a processed closure is
known to Go in every state exactly if, whenever the object processes its closure,
Go or `closeTransport` has closed the paired `JSTransport` already. Where it is
known, every `Read` and `Write` fails, also a `Read` that is waiting. -/
theorem always_informed_iff (env : Env) (w : Wasm) (id : String) (object : Object)
    (labels : List Occurrence) (s : Link)
    (hrun : (machine env).run (start w id object) labels = some s) :
    ((machine env).Always Informed (start w id object) labels ↔
      (machine env).Admits (GoFirst env) (start w id object) labels) ∧
    ∀ t, s.jsTransport = some t → s.jsClosed →
      t.check "EOF" = some "EOF" ∧
      (t.readBuffer = [] → ∀ len, t.readUnlocked len .closeChan = some (t, [], some "EOF")) ∧
      ∀ onWrite p, t.write onWrite p = (0, some "transport closed") := by
  constructor
  · apply (machine env).always_iff_admits (I := Paired) _ _ labels (start w id object) s
      (start_paired w id object) _ hrun
    · exact fun s a t h hstep => (step_turn h hstep).2
    · exact fun s a t h hs hstep => step_informed h hs hstep
    · intro h
      cases h
  · intro t ht hclosed
    exact JSTransport.of_shut ((jsClosed_iff ht).mp hclosed)

/-- Go closes first: the close event of the socket comes after that. -/
theorem always_informed_goClose :
    (machine ⟨ProtobufMessages.codec, .passive⟩).Always Informed
      (start .empty "t" (.webSocket ⟨none, []⟩))
      [.input (.call (.connect true)), .input (.open 0), .close, .input (.close 0)] := by
  apply (always_informed_iff ⟨ProtobufMessages.codec, .passive⟩ .empty "t"
    (.webSocket ⟨none, []⟩) _ _ rfl).1.mpr
  refine ⟨fun h => h.elim, fun s hs => ⟨fun h => h.elim, fun s' hs' => ⟨fun h => h.elim, ?_⟩⟩⟩
  intro s'' hs''
  cases hs
  cases hs'
  cases hs''
  exact ⟨fun _ => rfl, fun _ _ => trivial⟩

/-- The peer closes: the close event of the socket is processed, and the paired
`JSTransport` stays open. -/
theorem remoteClose_not_informed :
    ∃ s, (machine ⟨ProtobufMessages.codec, .passive⟩).run
        (start .empty "t" (.webSocket ⟨none, []⟩))
        [.input (.call (.connect true)), .input (.open 0), .input (.close 0)] = some s ∧
      ¬ s.Informed := by
  refine ⟨_, rfl, ?_⟩
  intro h
  rcases h rfl with hclosed | hresuming
  · cases hclosed
  · exact absurd hresuming (by decide)

end Link
end SshClientWasm.Bridge
