import SshClientWasm.Ssh.Connect

/-!
# What the text of an error decides

`classifyConnectError` looks for four texts anywhere in the message of an error. A message
may quote what the peer has sent, such as the description in its disconnect message.
-/
namespace SshClientWasm.Ssh.Classification

open Library

/-- What stands for a failed authentication. -/
def authTexts : List String :=
  ["unable to authenticate", "ssh: handshake failed: ssh: unable to authenticate",
    "no supported methods remain", "permission denied"]

section Texts

variable {α : Type*} {x : α} {word front back : List α}

theorem infix_append_cons_iff (h : x ∉ word) :
    word <:+: front ++ x :: back ↔ word <:+: front ∨ word <:+: back := by
  constructor
  · intro hword
    rcases List.infix_append_iff.mp hword with hfront | hback | ⟨left, right, rfl, hleft, hright⟩
    · exact Or.inl hfront
    · rcases List.infix_cons_iff.mp hback with hstart | hback
      · cases word with
        | nil => exact Or.inl List.nil_infix
        | cons y word =>
          obtain ⟨rfl, _⟩ := List.cons_prefix_cons.mp hstart
          exact absurd List.mem_cons_self h
      · exact Or.inr hback
    · cases right with
      | nil =>
        rw [List.append_nil]
        exact Or.inl hleft.isInfix
      | cons y right =>
        obtain ⟨rfl, _⟩ := List.cons_prefix_cons.mp hright
        exact absurd (List.mem_append_right _ List.mem_cons_self) h
  · rintro (hfront | hback)
    · exact List.infix_append_of_infix_left hfront
    · exact List.infix_append_of_infix_right (hback.trans (List.suffix_cons x back).isInfix)

end Texts

section Contains

variable {haystack front description back : String} {needles : List String}

theorem containsAny_iff :
    containsAny haystack needles = true ↔ ∃ n ∈ needles, n.toList <:+: haystack.toList := by
  simp [containsAny]

theorem containsAny_append (h : containsAny front needles = true ∨
    containsAny description needles = true ∨ containsAny back needles = true) :
    containsAny (front ++ description ++ back) needles = true := by
  simp only [containsAny_iff, String.toList_append] at h ⊢
  rcases h with ⟨n, hn, h⟩ | ⟨n, hn, h⟩ | ⟨n, hn, h⟩
  · exact ⟨n, hn, List.infix_append_of_infix_left (List.infix_append_of_infix_left h)⟩
  · exact ⟨n, hn, List.infix_append_of_infix_left (List.infix_append_of_infix_right h)⟩
  · exact ⟨n, hn, List.infix_append_of_infix_right h⟩

theorem containsAny_separated (h : ∀ n ∈ needles, '#' ∉ n.toList) :
    containsAny (front ++ "#" ++ back) needles = true ↔
      containsAny front needles = true ∨ containsAny back needles = true := by
  have hsplit : (front ++ "#" ++ back).toList = front.toList ++ '#' :: back.toList := by
    simp [String.toList_append]
  simp only [containsAny_iff, hsplit]
  constructor
  · rintro ⟨n, hn, hword⟩
    rcases (infix_append_cons_iff (h n hn)).mp hword with hword | hword
    · exact Or.inl ⟨n, hn, hword⟩
    · exact Or.inr ⟨n, hn, hword⟩
  · rintro (⟨n, hn, hword⟩ | ⟨n, hn, hword⟩)
    · exact ⟨n, hn, (infix_append_cons_iff (h n hn)).mpr (Or.inl hword)⟩
    · exact ⟨n, hn, (infix_append_cons_iff (h n hn)).mpr (Or.inr hword)⟩

end Contains

/-- An error without a `ConnectError` in it gets its code from its text. -/
theorem classifyConnectError_code {err : GoError} (h : err.asConnectError = none) :
    (classifyConnectError err).code =
      if containsAny err.message authTexts then .authFailed else .transportError := by
  rw [classifyConnectError, h]
  exact apply_ite ConnectError.code _ _ _

variable {Key Signer Conn : Type*}

/-- The code that a `Connect` fails with. -/
def failureCode (r : Connecting Key Signer Conn) : Option ConnectErrorCode :=
  match r.result with
  | .error e => some e.code
  | .ok _ => none

/-- `Connect` gets as far as `NewClientConn`, which returns the error. -/
def FailsWith (ssh : SshLibrary Key Signer Conn) (c : Client Conn) (err : GoError) : Prop :=
  ∃ pin auth t, c.options.hostKeyPin = some pin ∧ c.authMethods ssh = .ok auth ∧
    c.transport = some t ∧
      (ssh.newClientConn t (address c.options) (c.config ssh pin auth)).result = .error err

theorem FailsWith.failureCode {ssh : SshLibrary Key Signer Conn} {c : Client Conn} {err : GoError}
    (h : FailsWith ssh c err) (sessions : Sessions Conn) :
    failureCode (c.connect ssh sessions) = some (classifyConnectError err).code := by
  obtain ⟨pin, auth, t, hpin, hauth, ht, hresult⟩ := h
  simp [Classification.failureCode, Client.connect, hpin, hauth, ht, hresult, Client.failed]

/-- Runs of `Connect` that fail with errors that differ in the description that the peer has
chosen get the same code exactly if the text around the description decides it already; and
there always is a description for `auth-failed`. -/
theorem failureCode_iff (ssh : String → SshLibrary Key Signer Conn) (c : String → Client Conn)
    (sessions : String → Sessions Conn) (err : String → GoError) (front back : String)
    (hfails : ∀ d, FailsWith (ssh d) (c d) (err d))
    (hmessage : ∀ d, (err d).message = front ++ d ++ back)
    (hchain : ∀ d, (err d).asConnectError = none) :
    ((∀ d d', failureCode ((c d).connect (ssh d) (sessions d)) =
        failureCode ((c d').connect (ssh d') (sessions d'))) ↔
      containsAny front authTexts = true ∨ containsAny back authTexts = true) ∧
    ∃ d, failureCode ((c d).connect (ssh d) (sessions d)) = some .authFailed := by
  have hcode : ∀ d, failureCode ((c d).connect (ssh d) (sessions d)) =
      some (if containsAny (front ++ d ++ back) authTexts then .authFailed else .transportError) := by
    intro d
    rw [(hfails d).failureCode, classifyConnectError_code (hchain d), hmessage d]
  have hdenied : failureCode ((c "permission denied").connect (ssh "permission denied")
      (sessions "permission denied")) = some .authFailed := by
    have hcontains : containsAny "permission denied" authTexts = true := by decide +kernel
    rw [hcode, if_pos (containsAny_append (Or.inr (Or.inl hcontains)))]
  refine ⟨⟨fun hsame => ?_, fun hfixed d d' => ?_⟩, _, hdenied⟩
  · have hhash := (hsame "#" "permission denied").trans hdenied
    rw [hcode] at hhash
    have hclean : ∀ n ∈ authTexts, '#' ∉ n.toList := by decide +kernel
    refine (containsAny_separated hclean).mp ?_
    by_contra hnone
    rw [if_neg hnone] at hhash
    cases hhash
  · have hall : ∀ d, containsAny (front ++ d ++ back) authTexts = true := by
      intro d
      rcases hfixed with hfront | hback
      · exact containsAny_append (Or.inl hfront)
      · exact containsAny_append (Or.inr (Or.inr hback))
    rw [hcode, hcode, if_pos (hall d), if_pos (hall d')]

/-- A server that presents its key and then disconnects with a description. -/
def disconnectingServer (description : String) : SshLibrary String Unit Unit where
  type := fun _ => "ssh-ed25519"
  fingerprintSHA256 := fun key => "SHA256:" ++ key
  parsePrivateKey := fun _ => .error (.text "ssh: no key found")
  newClientConn := fun _ _ config =>
    match config.hostKeyCallback "key" with
    | some err => ⟨[.keyExchange "key"], .error (.wrap ("ssh: handshake failed: " ++ err.message) err)⟩
    | none => ⟨[.keyExchange "key"], .error (.wrap
        ("ssh: handshake failed: ssh: disconnect, reason 11: " ++ description ++ "")
        (.text ("ssh: disconnect, reason 11: " ++ description)))⟩

/-- A client that has pinned the key of that server. -/
def pinnedClient : Client Unit :=
  ⟨⟨"host", 22, "user", "secret", "", 0, some ⟨"ssh-ed25519", "SHA256:key"⟩⟩, "ssh-00", some 0, none⟩

theorem pinnedClient_failsWith (d : String) : FailsWith (disconnectingServer d) pinnedClient
    (.wrap ("ssh: handshake failed: ssh: disconnect, reason 11: " ++ d ++ "")
      (.text ("ssh: disconnect, reason 11: " ++ d))) :=
  ⟨_, _, _, rfl, rfl, rfl, rfl⟩

/-- The description of a disconnect message decides the code. -/
theorem failureCode_iff_disconnect :
    ¬ ∀ d d', failureCode (pinnedClient.connect (disconnectingServer d) fun _ => none) =
      failureCode (pinnedClient.connect (disconnectingServer d') fun _ => none) := by
  intro hsame
  have hfixed := (failureCode_iff disconnectingServer (fun _ => pinnedClient)
    (fun _ _ => none) _ _ _ pinnedClient_failsWith (fun _ => rfl) fun _ => rfl).1.mp hsame
  revert hfixed
  decide +kernel

/-- A peer that disconnects before authentication is reported as a failed authentication,
or is not, as it says. -/
theorem failureCode_permission_denied :
    (pinnedClient.connect (disconnectingServer "permission denied") fun _ => none).events =
        [.keyExchange "key"] ∧
      failureCode (pinnedClient.connect (disconnectingServer "permission denied") fun _ => none) =
        some .authFailed ∧
      failureCode (pinnedClient.connect (disconnectingServer "bye") fun _ => none) =
        some .transportError :=
  ⟨by decide +kernel, by decide +kernel, by decide +kernel⟩

end SshClientWasm.Ssh.Classification
