import SshClientWasm.Runtime.Copying

/-!
# Calls from Go into JavaScript

`js.Value.Invoke` and `js.Value.New`: Go puts the word of a function and a slice of words on
its stack, and finds a word and a flag behind them. The JavaScript code that runs in between
may call back into Go any number of times, so that the memory, the table and the stack
pointer may have changed when it returns.
-/
namespace SshClientWasm.Runtime

open Library

/-- Where a JavaScript operation leaves the program, and its result or the exception. -/
structure Ending where
  go : Go
  sp : ℕ
  result : Except Value Value

namespace Ending

def value (e : Ending) : Value :=
  match e.result with
  | .ok result => result
  | .error err => err

def flag (e : Ending) : ℕ :=
  match e.result with
  | .ok _ => 1
  | .error _ => 0

/-- The result, behind the arguments, and the flag. -/
def store (e : Ending) : Go :=
  let go := e.go.storeValue (e.sp + 40) e.value
  { go with mem := go.mem.setUint 1 (e.sp + 48) e.flag }

end Ending

/-- `loadSliceOfValues`. -/
def loadSliceOfValues (s : Go) (addr : ℕ) : List Value :=
  let a := loadSlice s.mem addr
  (List.range a.len).map fun i => s.loadValue (a.array + i * 8)

/-- What `valueInvoke` and `valueNew` have in common. -/
def perform (operation : Value → List Value → Go → Ending) (s : Go) (sp : ℕ) : Go :=
  (operation (s.loadValue (sp + 8)) (loadSliceOfValues s (sp + 16)) s).store

/-- `valueInvoke`, over `Reflect.apply`. -/
def valueInvoke (apply : Value → Value → List Value → Go → Ending) (s : Go) (sp : ℕ) : Go :=
  perform (fun v args => apply v .undefined args) s sp

/-- `valueNew`, over `Reflect.construct`. -/
def valueNew (construct : Value → List Value → Go → Ending) (s : Go) (sp : ℕ) : Go :=
  perform construct s sp

/-- A slice of words in the part of the memory that numbers reach, apart from the stack
frame. -/
def Slice.WordsApart (a : Slice) (sp : ℕ) : Prop :=
  a.array + a.len * 8 ≤ 2 ^ 53 ∧ (a.array + a.len * 8 ≤ sp ∨ sp + 56 ≤ a.array)

instance (a : Slice) (sp : ℕ) : Decidable (a.WordsApart sp) := inferInstanceAs (Decidable (_ ∧ _))

theorem Slice.WordsApart.apart {a : Slice} {sp : ℕ} (h : a.WordsApart sp) : a.Apart sp := by
  obtain ⟨hbound, hapart⟩ := h
  exact ⟨by omega, by omega⟩

/-- The words lie in the slice one behind the other. -/
structure Slice.Holds (a : Slice) (mem : Memory) (words : List ℕ) : Prop where
  len : a.len = words.length
  word : ∀ i w, words[i]? = some w → mem.getUint 8 (a.array + i * 8) = w

namespace Refs

variable {s t : Refs} {sp w : ℕ} {f : Value} {a : Slice} {args : List (ℕ × Value)} {e : Ending}

theorem Sound.arguments (h : s.Sound) (hf : (w, f) ∈ s.held) (hargs : ∀ e ∈ args, e ∈ s.held)
    (ha : a.WordsApart sp) (hwords : a.Holds s.go.mem (args.map Prod.fst)) :
    let called : Go := { s.go with mem := argsToJS s.go.mem sp w a }
    called.loadValue (sp + 8) = f.mapKey ∧
      loadSliceOfValues called (sp + 16) = args.map fun e => e.2.mapKey := by
  intro called
  constructor
  · rw [Go.loadValue_eq, getUint_argsToJS, h.word_mod hf]
    exact h.denote hf
  · have hlen : a.len = args.length := hwords.len.trans (List.length_map ..)
    simp only [loadSliceOfValues]
    rw [loadSlice_argsToJS ha.apart]
    apply List.ext_getElem
    · rw [List.length_map, List.length_range, List.length_map, hlen]
    intro i hi hi'
    rw [List.getElem_map, List.getElem_range, List.getElem_map]
    have hilt : i < args.length := by rwa [List.length_map] at hi'
    have hget : (args.map Prod.fst)[i]? = some args[i].1 := by
      rw [List.getElem?_map, List.getElem?_eq_getElem hilt, Option.map_some]
    have hword : called.mem.getUint 8 (a.array + i * 8) = args[i].1 := by
      rw [← hwords.word i _ hget]
      obtain ⟨-, hapart⟩ := ha
      exact congrArg leNat (Memory.load_congr fun b hb hlt => argsToJS_outside (by omega))
    rw [Go.loadValue_eq, hword]
    exact h.denote (hargs _ (List.getElem_mem hilt))

/-- Go has put the arguments of a call on its stack. -/
def called (s : Refs) (sp w : ℕ) (a : Slice) : Refs :=
  { s with go := { s.go with mem := argsToJS s.go.mem sp w a } }

/-- A result that is stored is loaded as it is, and what is held otherwise stays valid. -/
theorem Sound.store (h : t.Sound) (hgo : e.go = t.go)
    (hroom : t.account.length + predefined.length < 2 ^ 32)
    (hsize : t.go.table.values.length ≤ 2 ^ 32) :
    e.store.loadValue (e.sp + 40) = e.value.mapKey ∧
      e.store.mem.getUint 1 (e.sp + 48) = e.flag ∧
      Sound { t with
        go := e.store
        held := (e.store.mem.getUint 8 (e.sp + 40), e.value) :: t.held } := by
  have hreceived := h.receive (e.sp + 40) e.value hroom hsize
  have hmem : e.store.mem = (e.go.storeValue (e.sp + 40) e.value).mem.setUint 1 (e.sp + 48) e.flag :=
    rfl
  have htable : e.store.table = (t.go.storeValue (e.sp + 40) e.value).table := by
    rw [← hgo]
    rfl
  have hword : e.store.mem.getUint 8 (e.sp + 40) =
      (t.go.storeValue (e.sp + 40) e.value).mem.getUint 8 (e.sp + 40) := by
    rw [hmem, hgo, Memory.getUint_setUint_apart (Or.inl (by omega))]
  have hsound : Sound { t with
      go := e.store
      held := (e.store.mem.getUint 8 (e.sp + 40), e.value) :: t.held } := by
    rw [hword]
    exact hreceived.of_table htable
  refine ⟨?_, ?_, hsound⟩
  · rw [Go.loadValue_eq]
    exact hsound.denote (e := (e.store.mem.getUint 8 (e.sp + 40), e.value)) List.mem_cons_self
  · have hflag : e.flag < 256 := by
      unfold Ending.flag
      split <;> decide
    rw [hmem, Memory.getUint_setUint]
    exact Nat.mod_eq_of_lt hflag

/-- Go finds what the call has come to, and all words that it holds are those of their
values. -/
structure Finds (t : Refs) (e : Ending) (u : Go) : Prop where
  result : u.loadValue (e.sp + 40) = e.value.mapKey
  flag : u.mem.getUint 1 (e.sp + 48) = e.flag
  held : ∀ x ∈ t.held, ∀ addr,
    Go.loadValue { u with mem := u.mem.setUint 8 addr x.1 } addr = x.2.mapKey

theorem Within.perform {N : ℕ} (hN : predefined.length + N ≤ 2 ^ 32) (h : s.Within N)
    (hf : (w, f) ∈ s.held) (hargs : ∀ e ∈ args, e ∈ s.held) (ha : a.WordsApart sp)
    (hwords : a.Holds s.go.mem (args.map Prod.fst)) {inner : List Action}
    (hroom : machine.Admits (Below N) (s.called sp w a) inner)
    (hinner : machine.run (s.called sp w a) inner = some t) (hheld : t.account.length < N)
    (hgo : e.go = t.go) (operation : Value → List Value → Go → Ending)
    (hending : operation f.mapKey (args.map fun e => e.2.mapKey) (s.called sp w a).go = e) :
    t.Finds e (Runtime.perform operation (s.called sp w a).go sp) := by
  obtain ⟨hcallee, hpassed⟩ := h.1.arguments hf hargs ha hwords
  have hu : Runtime.perform operation (s.called sp w a).go sp = e.store := by
    rw [← hending, ← hcallee, ← hpassed]
    rfl
  have hcalled : (s.called sp w a).Within N := ⟨h.1.of_table rfl, h.2⟩
  obtain ⟨hsound, hsize⟩ := hcalled.run hN hroom hinner
  obtain ⟨hresult, hflag, hstored⟩ := hsound.store hgo (by omega) (hsize.trans hN)
  rw [hu]
  exact ⟨hresult, hflag, fun x hx addr => hstored.resolve (List.mem_cons_of_mem _ hx) addr⟩

/-- In every state that a program reaches, JavaScript is passed the function and the values
that Go holds the words of, however much of Go runs again before it returns; Go finds the
value or the exception and the flag where its stack is by then, and all words that it holds
are still those of their values. -/
theorem calls_transparent {N : ℕ} (hN : predefined.length + N ≤ 2 ^ 32) {mem : Memory}
    {labels : List Action} (hroom : machine.Admits (Below N) (start mem) labels)
    (hs : machine.run (start mem) labels = some s) (hf : (w, f) ∈ s.held)
    (hargs : ∀ e ∈ args, e ∈ s.held) (ha : a.WordsApart sp)
    (hwords : a.Holds s.go.mem (args.map Prod.fst)) {inner : List Action}
    (hroom' : machine.Admits (Below N) (s.called sp w a) inner)
    (hinner : machine.run (s.called sp w a) inner = some t) (hheld : t.account.length < N)
    (hgo : e.go = t.go) :
    (∀ apply : Value → Value → List Value → Go → Ending,
      apply f.mapKey .undefined (args.map fun e => e.2.mapKey) (s.called sp w a).go = e →
        t.Finds e (valueInvoke apply (s.called sp w a).go sp)) ∧
    ∀ construct : Value → List Value → Go → Ending,
      construct f.mapKey (args.map fun e => e.2.mapKey) (s.called sp w a).go = e →
        t.Finds e (valueNew construct (s.called sp w a).go sp) := by
  have hwithin := (within_start N mem).run hN hroom hs
  have hperform := hwithin.perform hN hf hargs ha hwords hroom' hinner hheld hgo
  exact ⟨fun apply => hperform fun v args => apply v .undefined args, fun construct =>
    hperform construct⟩

/-- A function that returns its argument, after Go has run once more in a callback. -/
def echo (_ _ : Value) (args : List Value) (go : Go) : Ending where
  go := go.storeValue 80 (.object 9)
  sp := 2000
  result := .ok (args.headD .undefined)

theorem calls_transparent_echo :
    ∃ s w, machine.run (start fun _ => 0) [.receive 64 (.function 3), .receive 72 (.string [104])] =
        some s ∧ (w, .function 3) ∈ s.held ∧
      let u := valueInvoke echo (s.called 1000 w ⟨72, 1⟩).go 1000
      u.loadValue 2040 = .string [104] ∧ u.mem.getUint 1 2048 = 1 := by
  obtain ⟨s, hs, w, w', hheld, hdropped, hword⟩ : ∃ s, machine.run (start fun _ => 0)
      [.receive 64 (.function 3), .receive 72 (.string [104])] = some s ∧ ∃ w w',
        s.held = [(w', .string [104]), (w, .function 3)] ∧ s.dropped = [] ∧
          s.go.mem.getUint 8 72 = w' :=
    ⟨_, rfl, _, _, rfl, rfl, rfl⟩
  have haccount : s.account.length = 2 := by
    rw [account, hheld, hdropped]
    rfl
  have hf : (w, .function 3) ∈ s.held := by
    rw [hheld]
    exact List.mem_cons_of_mem _ List.mem_cons_self
  have hargs : ∀ e ∈ [(w', Value.string [104])], e ∈ s.held := by
    intro e he
    rw [hheld, List.mem_singleton.mp he]
    exact List.mem_cons_self
  have hwords : Slice.Holds ⟨72, 1⟩ s.go.mem ([(w', Value.string [104])].map Prod.fst) := by
    refine ⟨rfl, fun i x hx => ?_⟩
    obtain ⟨hi, rfl⟩ := List.getElem?_eq_some_iff.mp hx
    obtain rfl : i = 0 := by simpa using hi
    exact hword
  obtain ⟨t, hinner, hlen, hgo⟩ : ∃ t, machine.run (s.called 1000 w ⟨72, 1⟩)
      [.receive 80 (.object 9)] = some t ∧ t.account.length = s.account.length + 1 ∧
        (s.called 1000 w ⟨72, 1⟩).go.storeValue 80 (.object 9) = t.go :=
    ⟨_, rfl, rfl, rfl⟩
  have hroom : machine.Admits (Below 4) (s.called 1000 w ⟨72, 1⟩) [.receive 80 (.object 9)] := by
    refine ⟨?_, fun _ _ => trivial⟩
    show s.account.length < 4
    rw [haccount]
    decide
  have hlt : t.account.length < 4 := by
    rw [hlen, haccount]
    decide
  have hcall := (calls_transparent (by decide : predefined.length + 4 ≤ 2 ^ 32) (by decide) hs hf
    hargs (by decide) hwords hroom hinner hlt
    (e := echo (.function 3) .undefined [.string [104]] (s.called 1000 w ⟨72, 1⟩).go) hgo).1 echo rfl
  exact ⟨s, w, hs, hf, hcall.result, hcall.flag⟩

end Refs
end SshClientWasm.Runtime
