import McpRuntime.Outbound.Redirect
import McpRuntime.Redaction.Secrecy

/-!
# Echoed credentials

A response may repeat the credentials of its request. The client replaces each of them by the
marker, in the values of the headers, which the redactor reads afterwards, and in the body.

* `Patches.of_redactText`: what the redactor of the runtime makes of a text;
* `echoes_removed_iff`: no client returns a response with a credential in it just when every
  credential of the request has one in it that has nothing in common with the marker;
* the sizes of the headers and of the body are within their limits in every case.
-/

namespace McpRuntime

/-! ## Redactors -/

/-- A redactor puts markers in the place of parts of a text. -/
def Redacts (redactText : Text → Option Text) : Prop :=
  ∀ value redacted, redactText value = some redacted → Patches redactedText value redacted

/-- The redactor of the runtime does. -/
theorem redacts_secretRedactor (word : CodePoint → Bool) (known : List SecretValue)
    (limits : RedactionLimits) :
    Redacts fun value => ((SecretRedactor.create known limits).redactText word value).toOption := by
  intro value redacted h
  rw [SecretRedactor.redactText_eq_ok word (eq_ok_of_toOption h)]
  have hknown : Patches redactedText value
      ((SecretRedactor.create known limits).replaceSecrets value) :=
    patches_foldl_replaceAll SecretRedactor.ne_nil_of_mem_create value
  exact ((hknown.tail (patched_sub (Regex.marks_replacedBy Pattern.privateKey redactedText) _)).tail
    (patched_sub (Regex.marks_replacedBy Pattern.jwt redactedText) _)).tail
      (patched_sub (SecretRedactor.marks_findAssignment word) _)

/-! ## Texts as bytes -/

/-- A text without a character that is in a text is on one side of it. -/
theorem infix_of_notMem {α : Type*} {c : α} {s x y : List α} (h : c ∉ s) (hin : s <:+: x ++ c :: y) :
    s <:+: x ∨ s <:+: y := by
  rcases List.infix_append_iff_ne_nil.1 hin with hin | hin | ⟨u, v, -, hv, rfl, -, hpre⟩
  · exact .inl hin
  · rcases List.infix_cons_iff.1 hin with hpre | hin
    · cases s with
      | nil => exact .inl List.nil_infix
      | cons a s =>
        obtain ⟨rfl, -⟩ := List.cons_prefix_cons.1 hpre
        exact absurd List.mem_cons_self h
    · exact .inr hin
  · cases v with
    | nil => exact absurd rfl hv
    | cons a v =>
      obtain ⟨rfl, -⟩ := List.cons_prefix_cons.1 hpre
      exact absurd (List.mem_append_right _ List.mem_cons_self) h

/-- The characters of ASCII bytes. -/
def asciiChar (b : UInt8) : CodePoint := Fin.ofNat 0x110000 b.toNat

/-- The bytes of an ASCII text are its characters. -/
theorem map_asciiChar_utf8 {t : Text} (h : ∀ c ∈ t, c.val < 0x80) : t.utf8.map asciiChar = t := by
  induction t with
  | nil => rfl
  | cons c t ih =>
    rw [List.forall_mem_cons] at h
    have hc : c.utf8 = [UInt8.ofNat c.val] := by rw [CodePoint.utf8, if_pos h.1]
    have hbyte : (UInt8.ofNat c.val).toNat = c.val := UInt8.toNat_ofNat_of_lt' (h.1.trans (by decide))
    rw [Text.utf8, List.flatMap_cons, hc, List.map_append, List.map_singleton, asciiChar, hbyte]
    refine congrArg₂ List.cons (Fin.ext (Nat.mod_eq_of_lt c.isLt)) (ih h.2)

/-- A part of a text is a part of its bytes. -/
theorem utf8_part {s t : Text} (h : s <:+: t) : s.utf8 <:+: t.utf8 := by
  obtain ⟨x, y, rfl⟩ := h
  exact ⟨Text.utf8 x, Text.utf8 y, by simp only [Text.utf8, List.flatMap_append]⟩

/-- The bytes of an ASCII text that does not overlap the marker do not overlap those of the
    marker. -/
theorem not_overlaps_utf8 {s : Text} (h : ∀ c ∈ s, c.val < 0x80)
    (hm : ¬ Overlaps redactedText s) : ¬ Overlaps redactedText.utf8 s.utf8 := by
  intro hoverlaps
  have hmap := hoverlaps.map asciiChar
  rw [map_asciiChar_utf8 h, map_asciiChar_utf8] at hmap
  · exact hm hmap
  · have hall : redactedText.all (·.val < 0x80) = true := by decide
    exact fun c hc => of_decide_eq_true (List.all_eq_true.1 hall c hc)

/-- The lower case of an ASCII character is one. -/
theorem asciiLower_lt {c : CodePoint} (h : c.val < 0x80) : c.asciiLower.val < 0x80 := by
  rw [CodePoint.asciiLower]
  split_ifs with hupper
  · simp only [Bool.and_eq_true, decide_eq_true_eq] at hupper
    rw [Fin.val_ofNat, Nat.mod_eq_of_lt (by omega)]
    omega
  · exact h

/-- An ASCII text has as many bytes as characters. -/
theorem utf8Length_of_ascii {t : Text} (h : ∀ c ∈ t, c.val < 0x80) : t.utf8Length = t.length := by
  induction t with
  | nil => rfl
  | cons c t ih =>
    rw [List.forall_mem_cons] at h
    have hsize : c.utf8Size = 1 := if_pos h.1
    rw [Text.utf8Length, List.map_cons, List.sum_cons, hsize, List.length_cons, Nat.add_comm]
    exact congrArg (· + 1) (ih h.2)

/-- An ASCII text has no surrogates. -/
theorem any_isSurrogate_of_ascii {t : Text} (h : ∀ c ∈ t, c.val < 0x80) :
    t.any CodePoint.isSurrogate = false := by
  rw [List.any_eq_false]
  intro c hc
  have := h c hc
  simp only [CodePoint.isSurrogate, Bool.and_eq_true, decide_eq_true_eq]
  omega

/-- Case folding leaves an ASCII text as long as it is. -/
theorem utf8Length_casefold (unicode : UnicodeTable) {t : Text} (h : t.isAscii = true) :
    (t.casefold unicode).utf8Length = t.length := by
  induction t with
  | nil => rfl
  | cons c t ih =>
    rw [Text.isAscii, List.all_cons, Bool.and_eq_true, decide_eq_true_iff] at h
    have hsize : c.asciiLower.utf8Size = 1 := if_pos (asciiLower_lt h.1)
    rw [Text.casefold, List.flatMap_cons, if_pos h.1, Text.utf8Length, List.map_append,
      List.sum_append, List.map_singleton, List.sum_singleton, hsize, List.length_cons, Nat.add_comm]
    exact congrArg (· + 1) (ih h.2)

namespace Outbound

variable {URL : Type}

/-! ## Responses -/

/-- The size of a header. -/
def headerBytes (header : Text × Text) : ℕ := header.1.utf8Length + header.2.utf8Length

/-- A response has none of the credentials of a request in it, and its sizes are within the
    limits. -/
structure EchoFree (limits : OutboundHTTPLimits) (headers : List (Text × HeaderValue))
    (response : OutboundHTTPResponse) : Prop where
  values : ∀ name secret, (name, HeaderValue.secret secret) ∈ headers →
    ∀ header ∈ response.headers, ¬ secret.reveal <:+: header.2
  body : ∀ name secret, (name, HeaderValue.secret secret) ∈ headers →
    ¬ secret.reveal.utf8 <:+: response.body
  headersFit : (response.headers.map headerBytes).sum ≤ limits.maxHeaderBytes
  bodyFits : response.body.length ≤ limits.maxResponseBytes

/-- What a redacted value is: the marker, or what the redactor makes of a value in which the
    secrets were replaced. -/
def RedactedValue (client : ClientConfig URL) (secrets : List Text) (redacted : Text) : Prop :=
  redacted = redactedText ∨ ∃ value, client.redactText
    (secrets.foldl (fun value secret => value.replace secret redactedText) value) = some redacted

variable {client : ClientConfig URL} {secrets : List Text}

/-- A header that passes the checks is added, redacted, and is within the limit with those
    before it. -/
theorem checkResponseHeader_ok {output output' : List (Text × Text)} {header : Text × Text}
    {size size' redactedSize redactedSize' : ℕ}
    (h : checkResponseHeader client secrets (output, size, redactedSize) header =
      .ok (output', size', redactedSize')) :
    ∃ name redacted, output' = output ++ [(name, redacted)] ∧
      RedactedValue client secrets redacted ∧
      redactedSize' = redactedSize + headerBytes (name, redacted) ∧
      redactedSize' ≤ client.limits.maxHeaderBytes := by
  obtain ⟨name, value⟩ := header
  simp only [checkResponseHeader, check_eq_ok] at h
  obtain ⟨hname, -, h⟩ := h
  have hascii : name.isAscii = true := by
    rw [Bool.or_eq_true, not_or, Bool.not_eq_true'] at hname
    simpa using hname.1
  have hsize := utf8Length_casefold client.library.unicode hascii
  cases hsensitive : sensitiveName client name with
  | true =>
    simp only [hsensitive, if_true, bind_eq_ok, pure_eq_ok, check_eq_ok] at h
    obtain ⟨redacted, rfl, -, hlimit, h⟩ := h
    simp only [Prod.mk.injEq] at h
    obtain ⟨rfl, -, rfl⟩ := h
    refine ⟨_, _, rfl, .inl rfl, ?_, not_lt.1 hlimit⟩
    rw [headerBytes, hsize, Nat.add_assoc]
  | false =>
    simp only [hsensitive, Bool.false_eq_true, if_false] at h
    split at h
    · next redacted hredacted =>
      simp only [bind_eq_ok, pure_eq_ok, check_eq_ok] at h
      obtain ⟨redacted, rfl, -, hlimit, h⟩ := h
      simp only [Prod.mk.injEq] at h
      obtain ⟨rfl, -, rfl⟩ := h
      refine ⟨_, _, rfl, .inr ⟨value, hredacted⟩, ?_, not_lt.1 hlimit⟩
      rw [headerBytes, hsize, Nat.add_assoc]
    · simp only [bind_eq_ok, throw_eq_ok, false_and, exists_false] at h

/-- The headers of a response are redacted, and within the limit. -/
theorem responseHeaders_ok {headers output : List (Text × Text)}
    (h : responseHeaders client secrets headers = .ok output) :
    (∀ header ∈ output, RedactedValue client secrets header.2) ∧
      (output.map headerBytes).sum ≤ client.limits.maxHeaderBytes := by
  have hfold : ∀ (headers output output' : List (Text × Text))
      (size size' redactedSize redactedSize' : ℕ),
      headers.foldlM (checkResponseHeader client secrets) (output, size, redactedSize) =
        .ok (output', size', redactedSize') →
      (∀ header ∈ output, RedactedValue client secrets header.2) →
      (output.map headerBytes).sum = redactedSize →
      redactedSize ≤ client.limits.maxHeaderBytes →
      (∀ header ∈ output', RedactedValue client secrets header.2) ∧
        (output'.map headerBytes).sum ≤ client.limits.maxHeaderBytes := by
    intro headers
    induction headers with
    | nil =>
      intro output output' size size' redactedSize redactedSize' h hvalues hsum hlimit
      obtain ⟨rfl, -⟩ := Prod.mk.inj (pure_eq_ok.1 h)
      exact ⟨hvalues, hsum ▸ hlimit⟩
    | cons header headers ih =>
      intro output output' size size' redactedSize redactedSize' h hvalues hsum hlimit
      rw [List.foldlM_cons, bind_eq_ok] at h
      obtain ⟨⟨middle, middleSize, middleRedacted⟩, hfirst, h⟩ := h
      obtain ⟨name, redacted, rfl, hvalue, hbytes, hmiddle⟩ := checkResponseHeader_ok hfirst
      refine ih _ _ _ _ _ _ h ?_ ?_ hmiddle
      · rw [List.forall_mem_append, List.forall_mem_singleton]
        exact ⟨hvalues, hvalue⟩
      · rw [List.map_append, List.sum_append, hsum, List.map_singleton, List.sum_singleton, hbytes]
  simp only [responseHeaders, check_eq_ok, bind_eq_ok, pure_eq_ok] at h
  obtain ⟨-, ⟨output', size, redactedSize⟩, h, rfl⟩ := h
  exact hfold _ _ _ _ _ _ _ h (by simp) rfl (Nat.zero_le _)

/-- A body that is read is what replacing the secrets leaves, and within the limit. -/
theorem readBody_ok {response : Response} {body : List UInt8}
    (h : readBody client secrets response = .ok body) :
    (∃ received : List UInt8, body = secrets.foldl
      (fun body secret => replaceAll secret.utf8 redactedText.utf8 0 body) received) ∧
      body.length ≤ client.limits.maxResponseBytes := by
  have hread : ∀ received : Except ClientError (List UInt8),
      (do
        let body ← received
        if response.readRaises then throw .exception
        let body := secrets.foldl
          (fun body secret => replaceAll secret.utf8 redactedText.utf8 0 body) body
        if body.length > client.limits.maxResponseBytes then
          throw (.outboundError .resultTooLarge)
        return body) = Except.ok body →
      (∃ received : List UInt8, body = secrets.foldl
        (fun body secret => replaceAll secret.utf8 redactedText.utf8 0 body) received) ∧
        body.length ≤ client.limits.maxResponseBytes := by
    intro received h
    simp only [bind_eq_ok, check_eq_ok, pure_eq_ok] at h
    obtain ⟨received, -, -, hlimit, rfl⟩ := h
    exact ⟨⟨received, rfl⟩, not_lt.1 hlimit⟩
  simp only [readBody] at h
  split at h
  · rw [check_eq_ok] at h
    obtain ⟨-, h⟩ := h
    split at h
    · rw [check_eq_ok] at h
      exact hread _ h.2
    · exact hread _ h
  · split at h
    · rw [check_eq_ok] at h
      exact hread _ h.2
    · exact hread _ h

/-- A round that ends with a response has read its headers and its body. -/
theorem handleResponse_ok {url : URL} {response : Response} {n : ℕ} {result : OutboundHTTPResponse}
    (h : handleResponse client secrets url response n = .ok (.inl result)) :
    responseHeaders client secrets response.headers = .ok result.headers ∧
      readBody client secrets response = .ok result.body := by
  simp only [handleResponse, bind_eq_ok] at h
  obtain ⟨bounded, hbounded, h⟩ := h
  cases hlocation : redirectLocation response with
  | none =>
    simp only [hlocation, bind_eq_ok, pure_eq_ok] at h
    obtain ⟨body, hbody, result', hresult, h⟩ := h
    obtain rfl := Sum.inl.inj h
    rw [outboundResponse] at hresult
    split_ifs at hresult
    obtain rfl := Except.ok.inj hresult
    exact ⟨hbounded, hbody⟩
  | some location =>
    simp only [hlocation, bind_eq_ok, pure_eq_ok, check_eq_ok] at h
    obtain ⟨-, _, -, h⟩ := h
    cases h

/-- A response that the loop returns is the end of one of its rounds. -/
theorem followRedirects_ok (client : ClientConfig URL) (secrets : List Text) (n : ℕ)
    (respond : ℕ → Except ClientError Response) (hop : Hop URL) {result : OutboundHTTPResponse}
    (h : (followRedirects client secrets n respond hop).2 = .ok result) :
    ∃ url response k, handleResponse client secrets url response k = .ok (.inl result) := by
  rw [followRedirects.eq_def] at h
  cases hpolicy : client.policy hop.destination with
  | false =>
    simp only [hpolicy, Bool.not_false, if_true] at h
    cases h
  | true =>
    simp only [hpolicy, Bool.not_true, Bool.false_eq_true, if_false] at h
    cases hrespond : respond 0 with
    | error error =>
      simp only [hrespond] at h
      cases h
    | ok response =>
      simp only [hrespond] at h
      cases hnext : handleResponse client secrets hop.url response n with
      | error error =>
        simp only [hnext] at h
        cases h
      | ok next =>
        rcases next with result' | ⟨url, destination⟩
        · simp only [hnext] at h
          split_ifs at h
          obtain rfl := Except.ok.inj h
          exact ⟨hop.url, response, n, hnext⟩
        · simp only [hnext] at h
          split_ifs at h
          cases n with
          | zero => cases h
          | succ n => exact followRedirects_ok client secrets n _ _ h

/-! ## Credentials -/

/-- Every credential has one in it that has nothing in common with the marker. -/
def Removable (headers : List (Text × HeaderValue)) : Prop :=
  ∀ name secret, (name, HeaderValue.secret secret) ∈ headers →
    ∃ name' part, (name', HeaderValue.secret part) ∈ headers ∧ part.reveal <:+: secret.reveal ∧
      ¬ Overlaps redactedText part.reveal

/-- A credential that overlaps the marker, as do all credentials in it. -/
def Stays (headers : List (Text × HeaderValue)) (secret : SecretValue) : Prop :=
  (∃ name, (name, HeaderValue.secret secret) ∈ headers) ∧
    ∀ name part, (name, HeaderValue.secret part) ∈ headers → part.reveal <:+: secret.reveal →
      Overlaps redactedText part.reveal

theorem reveal_ne_nil (secret : SecretValue) : secret.reveal ≠ [] :=
  List.ne_nil_of_length_pos (Nat.lt_of_lt_of_le (by decide) secret.length_range.1)

/-- Removable credentials do not occur in a response that is returned. -/
theorem echoFree_of_removable {config : ClientConfig URL} {headers : List (Text × HeaderValue)}
    {output : List (Text × Text)} (hheaders : requestHeaders config headers = .ok (output, secrets))
    (hremovable : Removable headers) (hredacts : Redacts client.redactText) {n : ℕ}
    {respond : ℕ → Except ClientError Response} {hop : Hop URL} {result : OutboundHTTPResponse}
    (h : (followRedirects client secrets n respond hop).2 = .ok result) :
    EchoFree client.limits headers result := by
  obtain ⟨url, response, k, h⟩ := followRedirects_ok client secrets n respond hop h
  obtain ⟨hvalues, hbody⟩ := handleResponse_ok h
  obtain ⟨hvalues, hheaderBytes⟩ := responseHeaders_ok hvalues
  obtain ⟨⟨received, hreceived⟩, hbodyBytes⟩ := readBody_ok hbody
  have hmem : ∀ name secret, (name, HeaderValue.secret secret) ∈ headers →
      secret.reveal ∈ secrets := fun name secret hs =>
    ((mem_protectedSecrets hheaders secret.reveal).1).2 ⟨name, secret, hs, rfl⟩
  have hascii : ∀ name secret, (name, HeaderValue.secret secret) ∈ headers →
      ∀ c ∈ secret.reveal, c.val < 0x80 := fun name secret hs c hc =>
    ((mem_protectedSecrets hheaders secret.reveal).2 name secret hs c hc).2.trans_lt (by decide)
  have hne : ∀ s ∈ secrets, s ≠ [] ∧ s.utf8 ≠ [] := by
    intro s hs
    obtain ⟨name, secret, hheader, rfl⟩ := ((mem_protectedSecrets hheaders s).1).1 hs
    refine ⟨reveal_ne_nil secret, fun hbytes => reveal_ne_nil secret ?_⟩
    rw [← map_asciiChar_utf8 (hascii name secret hheader), hbytes, List.map_nil]
  refine ⟨fun name secret hs header hheader hin => ?_, fun name secret hs hin => ?_, hheaderBytes,
    hbodyBytes⟩
  · obtain ⟨name', part, hpart, hsub, hoverlaps⟩ := hremovable name secret hs
    have hin := hsub.trans hin
    have hnil := reveal_ne_nil part
    rcases hvalues header hheader with hmarker | ⟨value, hvalue⟩
    · rw [hmarker] at hin
      exact hoverlaps (overlaps_of_part hnil hin)
    · refine (hredacts _ _ hvalue).not_occurs hnil hoverlaps ?_ hin
      exact not_infix_foldl_replaceAll (fun s hs => (hne s hs).1) hnil hoverlaps
        (.inl (hmem name' part hpart))
  · obtain ⟨name', part, hpart, hsub, hoverlaps⟩ := hremovable name secret hs
    have hpartMem := hmem name' part hpart
    have hclean : ¬ part.reveal.utf8 <:+: (secrets.map Text.utf8).foldl
        (fun body secret => replaceAll secret redactedText.utf8 0 body) received := by
      refine not_infix_foldl_replaceAll ?_ (hne _ hpartMem).2
        (not_overlaps_utf8 (hascii name' part hpart) hoverlaps)
        (.inl (List.mem_map_of_mem hpartMem))
      exact List.forall_mem_map.2 fun s hs => (hne s hs).2
    rw [List.foldl_map, ← hreceived] at hclean
    exact hclean ((utf8_part hsub).trans hin)

theorem wideHeaders_range : 0 < 65536 ∧ 65536 ≤ 65536 := by decide

/-- The limits of a client whose headers may be as large as any. -/
def wideLimits : OutboundHTTPLimits :=
  { OutboundHTTPLimits.standard with
    maxHeaderBytes := 65536
    maxHeaderBytes_range := wideHeaders_range }

/-- A client whose redactor puts the marker between two texts, in the place of a character. -/
def patchingClient (library : HTTPLibrary URL) (x y : Text) : ClientConfig URL where
  library := library
  policy := fun _ => true
  redactText := fun value => some (if value = x ++ 0xE9 :: y then x ++ redactedText ++ y else value)
  limits := wideLimits

theorem redacts_patchingClient (library : HTTPLibrary URL) (x y : Text) :
    Redacts (patchingClient library x y).redactText := by
  intro value redacted h
  obtain rfl := Option.some.inj h
  split_ifs with hvalue
  · refine Relation.ReflTransGen.single ⟨[x, y], ?_, ?_⟩
    · rw [List.intercalate_cons_cons, List.intercalate_singleton]
    · rw [hvalue, List.forall_mem_cons, List.forall_mem_singleton]
      exact ⟨(List.prefix_append _ _).isInfix,
        ((List.suffix_cons _ _).trans (List.suffix_append _ _)).isInfix⟩
  · exact Relation.ReflTransGen.refl

/-- The response of a client that puts the marker between two texts. -/
theorem patchingClient_response (library : HTTPLibrary URL) {x y : Text} {secrets : List Text}
    (hascii : ∀ c ∈ x ++ y, c.val < 0x80) (hx : x.length ≤ 4096) (hy : y.length ≤ 4096)
    (hclean : ∀ s ∈ secrets, ¬ s <:+: x ++ 0xE9 :: y) (hop : Hop URL) :
    ∃ result, (followRedirects (patchingClient library x y) secrets 0
      (fun _ => .ok { status := 200, headers := [(lit "x", x ++ 0xE9 :: y)] }) hop).2 =
        .ok result ∧ (lit "x", x ++ redactedText ++ y) ∈ result.headers := by
  have hkept : secrets.foldl (fun value secret => Text.replace value secret redactedText)
      (x ++ 0xE9 :: y) = x ++ 0xE9 :: y := foldl_replaceAll_eq_self hclean
  rw [List.forall_mem_append] at hascii
  have hmarker : ∀ c ∈ redactedText, c.val < 0x80 := by
    have hall : redactedText.all (·.val < 0x80) = true := by decide
    exact fun c hc => of_decide_eq_true (List.all_eq_true.1 hall c hc)
  have hpatched : ∀ c ∈ x ++ redactedText ++ y, c.val < 0x80 := by
    rw [List.forall_mem_append, List.forall_mem_append]
    exact ⟨⟨hascii.1, hmarker⟩, hascii.2⟩
  have hsurrogate : (x ++ 0xE9 :: y).any CodePoint.isSurrogate = false := by
    rw [List.any_append, List.any_cons, any_isSurrogate_of_ascii hascii.1,
      any_isSurrogate_of_ascii hascii.2]
    rfl
  have hlength : (x ++ 0xE9 :: y).utf8Length = x.length + (2 + y.length) := by
    rw [Text.utf8Length, List.map_append, List.sum_append, List.map_cons, List.sum_cons,
      ← utf8Length_of_ascii hascii.1, ← utf8Length_of_ascii hascii.2]
    rfl
  have hredact : (patchingClient library x y).redactText (x ++ 0xE9 :: y) =
      some (x ++ redactedText ++ y) := congrArg some (if_pos rfl)
  have hsensitive : sensitiveName (patchingClient library x y) (lit "x") = false := rfl
  have hbytes := utf8Length_of_ascii hpatched
  have hlimit : (patchingClient library x y).limits.maxHeaderBytes = 65536 := rfl
  have hname : (lit "x").isAscii = true ∧ (lit "x").length = 1 := by decide
  have hmarkerLength : redactedText.length = 10 := by decide
  rw [List.length_append, List.length_append, hmarkerLength] at hbytes
  have hheader : checkResponseHeader (patchingClient library x y) secrets ([], 0, 0)
      (lit "x", x ++ 0xE9 :: y) = .ok ([(lit "x", x ++ redactedText ++ y)],
        0 + 1 + (x ++ 0xE9 :: y).utf8Length, 0 + 1 + (x ++ redactedText ++ y).utf8Length) := by
    simp only [checkResponseHeader, hsurrogate, hsensitive, hkept, hredact, hname, hlimit, hlength,
      hbytes, check_eq_ok, bind_eq_ok, pure_eq_ok, any_isSurrogate_of_ascii hpatched,
      Bool.false_eq_true, if_false, exists_eq_left']
    refine ⟨by decide, by omega, by decide, by omega, rfl⟩
  have hheaders : responseHeaders (patchingClient library x y) secrets
      [(lit "x", x ++ 0xE9 :: y)] = .ok [(lit "x", x ++ redactedText ++ y)] := by
    have hloop : [(lit "x", x ++ 0xE9 :: y)].foldlM
        (checkResponseHeader (patchingClient library x y) secrets) ([], 0, 0) =
          .ok ([(lit "x", x ++ redactedText ++ y)],
            0 + 1 + (x ++ 0xE9 :: y).utf8Length, 0 + 1 + (x ++ redactedText ++ y).utf8Length) := by
      rw [List.foldlM_cons, hheader]
      rfl
    simp only [responseHeaders, check_eq_ok, bind_eq_ok, pure_eq_ok]
    exact ⟨(by decide : ¬ 64 < 1), _, hloop, rfl⟩
  have hbody : readBody (patchingClient library x y) secrets
      { status := 200, headers := [(lit "x", x ++ 0xE9 :: y)] } = .ok [] := by
    have hencoding : headerValue [(lit "x", x ++ 0xE9 :: y)] (lit "content-encoding") = none := rfl
    have hcontent : headerValue [(lit "x", x ++ 0xE9 :: y)] (lit "content-length") = none := rfl
    have hnothing : secrets.foldl
        (fun body secret => replaceAll secret.utf8 redactedText.utf8 0 body) [] = [] :=
      List.foldl_fixed' (fun _ => rfl) secrets
    simp only [readBody, hencoding, hcontent, Option.bind_none, List.foldlM_nil, bind_eq_ok,
      check_eq_ok, pure_eq_ok, exists_eq_left', hnothing]
    exact ⟨Bool.false_ne_true, Nat.not_lt_zero _, trivial⟩
  have hnext : handleResponse (patchingClient library x y) secrets hop.url
      { status := 200, headers := [(lit "x", x ++ 0xE9 :: y)] } 0 =
        .ok (.inl ⟨200, [(lit "x", x ++ redactedText ++ y)], [], by decide⟩) := by
    have hlocation : redirectLocation
        { status := 200, headers := [(lit "x", x ++ 0xE9 :: y)] } = none := rfl
    simp only [handleResponse, hheaders, hlocation, hbody, bind_eq_ok, pure_eq_ok]
    exact ⟨_, rfl, _, rfl, _, rfl, rfl⟩
  refine ⟨⟨200, [(lit "x", x ++ redactedText ++ y)], [], by decide⟩, ?_,
    List.mem_singleton.2 rfl⟩
  rw [followRedirects.eq_def]
  have hpolicy : (patchingClient library x y).policy hop.destination = true := rfl
  simp only [hpolicy, hnext, Bool.not_true, Bool.false_eq_true, if_false]

/-- A credential that is not removable is in a response of a client whose redactor puts a marker
    where the credential is to appear. -/
theorem exists_echo {config : ClientConfig URL} {headers : List (Text × HeaderValue)}
    {output : List (Text × Text)} (hheaders : requestHeaders config headers = .ok (output, secrets))
    (hremovable : ¬ Removable headers) (hop : Hop URL) :
    ∃ (client : ClientConfig URL) (n : ℕ) (respond : ℕ → Except ClientError Response)
      (result : OutboundHTTPResponse), Redacts client.redactText ∧
        (followRedirects client secrets n respond hop).2 = .ok result ∧
        ¬ EchoFree client.limits headers result := by
  have hstays : ∃ secret, Stays headers secret := by
    simp only [Removable, not_forall, not_exists, not_and, not_not] at hremovable
    obtain ⟨name, secret, hs, hparts⟩ := hremovable
    exact ⟨secret, ⟨name, hs⟩, hparts⟩
  -- the shortest of them
  obtain ⟨secret, ⟨⟨name, hs⟩, hparts⟩, hleast⟩ :=
    (measure fun secret : SecretValue => secret.reveal.length).wf.has_min {s | Stays headers s}
      hstays
  obtain ⟨x, y, hin, ⟨hx, hxLength⟩, hy, hyLength⟩ := (hparts name secret hs
    List.infix_rfl).exists_patch (by decide) (reveal_ne_nil secret)
  have hshorter : ∀ s ∈ secrets, ∀ t : Text, t <:+: secret.reveal →
      t.length < secret.reveal.length → ¬ s <:+: t := by
    intro s hsecret t ht hlength hst
    obtain ⟨name', part, hpart, rfl⟩ := ((mem_protectedSecrets hheaders s).1).1 hsecret
    refine hleast part ⟨⟨name', hpart⟩, fun name'' part' hpart' hsub => ?_⟩ ?_
    · exact hparts name'' part' hpart' (hsub.trans (hst.trans ht))
    · exact hst.length_le.trans_lt hlength
  have hprintable : ∀ c ∈ x ++ y, c.val < 0x80 := by
    intro c hc
    refine ((mem_protectedSecrets hheaders secret.reveal).2 name secret hs c ?_).2.trans_lt
      (by decide)
    rcases List.mem_append.1 hc with hc | hc
    · exact hx.subset hc
    · exact hy.subset hc
  have hclean : ∀ s ∈ secrets, ¬ s <:+: x ++ 0xE9 :: y := by
    intro s hsecret hsub
    have hsubs : s <:+: x ∨ s <:+: y := infix_of_notMem (fun hmem => ?_) hsub
    · rcases hsubs with hsub | hsub
      · exact hshorter s hsecret x hx hxLength hsub
      · exact hshorter s hsecret y hy hyLength hsub
    · obtain ⟨name', part, hpart, rfl⟩ := ((mem_protectedSecrets hheaders s).1).1 hsecret
      exact absurd ((mem_protectedSecrets hheaders part.reveal).2 name' part hpart 0xE9 hmem).2
        (by decide)
  have hbound := secret.length_range.2
  obtain ⟨result, hresult, hmem⟩ := patchingClient_response config.library hprintable (by omega)
    (by omega) hclean hop
  refine ⟨patchingClient config.library x y, 0, _, result, redacts_patchingClient _ _ _, hresult,
    fun hfree => hfree.values name secret hs _ hmem hin⟩

/-- No client returns a credential of a request just when each of them is removable. -/
theorem echoes_removed_iff {config : ClientConfig URL} {closed : Bool} {admission : Admission}
    {request : OutboundRequest} {hop : Hop URL} {secrets : List Text}
    (h : prepare config closed admission request = .ok (hop, secrets)) :
    (∀ (client : ClientConfig URL) (n : ℕ) (respond : ℕ → Except ClientError Response)
      (result : OutboundHTTPResponse), Redacts client.redactText →
        (followRedirects client secrets n respond hop).2 = .ok result →
          EchoFree client.limits request.headers result) ↔ Removable request.headers := by
  obtain ⟨-, output, hheaders, -⟩ := prepare_ok config closed admission request h
  constructor
  · intro hfree
    by_contra hremovable
    obtain ⟨client, n, respond, result, hredacts, hresult, hecho⟩ :=
      exists_echo hheaders hremovable hop
    exact hecho (hfree client n respond result hredacts hresult)
  · exact fun hremovable client n respond result hredacts hresult =>
      echoFree_of_removable hheaders hremovable hredacts hresult

/-- A request whose credential has nothing in common with the marker. -/
theorem echoes_removed_iff_example :
    ∃ (hop : Hop Text) (secrets : List Text),
      prepare plainConfig false (.admitted false) sessionRequest = .ok (hop, secrets) ∧
      ((∀ (client : ClientConfig Text) (n : ℕ) (respond : ℕ → Except ClientError Response)
        (result : OutboundHTTPResponse), Redacts client.redactText →
          (followRedirects client secrets n respond hop).2 = .ok result →
            EchoFree client.limits sessionRequest.headers result) ↔
        Removable sessionRequest.headers) := by
  have hprepared : (prepare plainConfig false (.admitted false) sessionRequest).toOption.isSome =
      true := by decide +kernel
  obtain ⟨⟨hop, secrets⟩, h⟩ := Option.isSome_iff_exists.1 hprepared
  exact ⟨hop, secrets, eq_ok_of_toOption h, echoes_removed_iff (eq_ok_of_toOption h)⟩

/-- What `request` returns. -/
def requestResult (config : ClientConfig URL) (closed : Bool) (admission : Admission)
    (request : OutboundRequest) (respond : ℕ → Except ClientError Response) :
    Except ClientError OutboundHTTPResponse :=
  match prepare config closed admission request with
  | .ok (hop, secrets) =>
    (followRedirects config secrets config.limits.maxRedirects respond hop).2
  | .error error => .error error

/-- A request with a credential that is a part of the marker. -/
def markerRequest : OutboundRequest where
  method := lit "GET"
  url := lit "https://billing.example/"
  headers := [(lit "X-Session", .secret SecretRedactor.partOfMarker)]

/-- The marker in the place of a sensitive header reveals a part of the marker. -/
theorem echo_in_marker :
    ¬ ∀ (config : ClientConfig Text) (closed : Bool) (admission : Admission)
      (request : OutboundRequest) (respond : ℕ → Except ClientError Response)
      (result : OutboundHTTPResponse), Redacts config.redactText →
        requestResult config closed admission request respond = .ok result →
          EchoFree config.limits request.headers result := by
  intro h
  have hvalue : (requestResult plainConfig false (.admitted false) markerRequest
      (fun _ => .ok { status := 200, headers := [(lit "set-cookie", lit "a")] })).toOption.map
        OutboundHTTPResponse.headers = some [(lit "set-cookie", redactedText)] := by
    decide +kernel
  obtain ⟨result, hresult, hheaders⟩ := Option.map_eq_some_iff.1 hvalue
  have hredacts : Redacts plainConfig.redactText := by
    rintro value _ ⟨⟩
    exact Relation.ReflTransGen.refl
  have hfree := h plainConfig false (.admitted false) markerRequest _ result hredacts
    (eq_ok_of_toOption hresult)
  refine hfree.values (lit "X-Session") SecretRedactor.partOfMarker List.mem_cons_self
    (lit "set-cookie", redactedText) ?_ ?_
  · rw [hheaders]
    exact List.mem_cons_self
  · exact Text.hasPart_iff.1 (by decide)

end Outbound

end McpRuntime
