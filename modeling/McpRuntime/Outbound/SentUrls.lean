import McpRuntime.Outbound.Redirect
import McpRuntime.Python.Substitution
import McpRuntime.Python.Url

/-!
# Secrets in the URLs that are sent

A client looks for the secrets of a request in the text of its URL, and in the text of each URL
that it is redirected to, as far as four rounds of decoding go.

* `containsProtectedText_eq_false`: what a search that finds nothing has seen;
* `sent_urls_secretless`: no secret occurs in a URL that is sent, however often it is decoded,
  where four rounds of decoding leave nothing to decode and the HTTP library does not rewrite
  the text;
* `sent_url_reveals`: a redirect to a URL with a secret that is encoded five times is followed.

What the HTTP library sends for a URL is a parameter, as its parser is.
-/

namespace McpRuntime.Outbound

variable {URL : Type}

/-! ## Decoding -/

/-- None of the secrets occurs in a text, however often it is decoded. -/
def Secretless (decode : Text → Text) (secrets : List Text) (value : Text) : Prop :=
  ∀ n, ∀ secret ∈ secrets, ¬ secret <:+: decode^[n] value

/-- A search finds nothing just when no secret occurs in what its rounds of decoding give. -/
theorem search_eq_false {library : HTTPLibrary URL} {secrets : List Text} {n : ℕ} {value : Text} :
    containsProtectedText.search library secrets n value = false ↔
      ∀ k ≤ n, ∀ secret ∈ secrets, ¬ secret <:+: library.unquote^[k] value := by
  have hany : ∀ t : Text, secrets.any t.hasPart = false ↔ ∀ secret ∈ secrets, ¬ secret <:+: t :=
    fun t => by
      rw [List.any_eq_false]
      exact forall₂_congr fun secret _ => not_congr Text.hasPart_iff
  induction n generalizing value with
  | zero =>
    rw [containsProtectedText.search, hany]
    refine ⟨fun h k hk => ?_, fun h => h 0 le_rfl⟩
    rw [Nat.le_zero.1 hk]
    exact h
  | succ n ih =>
    rw [containsProtectedText.search]
    cases hhere : secrets.any value.hasPart with
    | true =>
      refine iff_of_false (by simp) fun h => ?_
      rw [(hany value).2 (h 0 (Nat.zero_le _))] at hhere
      exact Bool.false_ne_true hhere
    | false =>
      rw [if_neg Bool.false_ne_true]
      dsimp only
      split_ifs with hfixed
      · -- nothing is left to decode
        refine iff_of_true rfl fun k _ => ?_
        rw [Function.iterate_fixed hfixed]
        exact (hany value).1 hhere
      · refine ih.trans ⟨fun h k hk => ?_, fun h k hk => ?_⟩
        · cases k with
          | zero => exact (hany value).1 hhere
          | succ k =>
            rw [Function.iterate_succ_apply]
            exact h k (Nat.le_of_succ_le_succ hk)
        · rw [← Function.iterate_succ_apply]
          exact h (k + 1) (Nat.succ_le_succ hk)

/-- A client finds nothing just when no secret occurs in what four rounds of decoding give. -/
theorem containsProtectedText_eq_false {library : HTTPLibrary URL} {secrets : List Text}
    {value : Text} : containsProtectedText library secrets value = false ↔
      ∀ k ≤ 4, ∀ secret ∈ secrets, ¬ secret <:+: library.unquote^[k] value := by
  rw [containsProtectedText]
  split_ifs with hnone
  · subst hnone
    exact iff_of_true rfl fun k _ secret hsecret => absurd hsecret List.not_mem_nil
  · exact search_eq_false

/-- The HTTP library sends a text as it is, and four rounds of decoding leave nothing of it to
    decode. -/
structure Settled (library : HTTPLibrary URL) (sentText : URL → Text) (value : Text) : Prop where
  sent : ∀ url, library.url value = some url → sentText url = value
  decoded : library.unquote (library.unquote^[4] value) = library.unquote^[4] value

/-- What a client has found nothing in, where four rounds of decoding are enough. -/
theorem secretless_of_settled {library : HTTPLibrary URL} {sentText : URL → Text}
    {secrets : List Text} {value : Text} (hsettled : Settled library sentText value)
    (h : containsProtectedText library secrets value = false) :
    Secretless library.unquote secrets value := by
  rw [containsProtectedText_eq_false] at h
  intro n
  rcases Nat.le_total n 4 with hn | hn
  · exact h n hn
  · obtain ⟨k, rfl⟩ := Nat.exists_eq_add_of_le' hn
    rw [Function.iterate_add_apply, Function.iterate_fixed hsettled.decoded]
    exact h 4 le_rfl

/-! ## The URLs of a request -/

variable (config : ClientConfig URL)

/-- The texts of the URLs that are sent from a URL on, as the client has read them: its own
    first. -/
def sentTexts (protectedSecrets : List Text) :
    ℕ → (ℕ → Except ClientError Response) → Text → URL → EgressDestination → List Text
  | redirectsLeft, respond, value, url, destination =>
    if !config.policy destination then []
    else
      value ::
        match respond 0 with
        | .error _ => []
        | .ok response =>
          match handleResponse config protectedSecrets url response redirectsLeft,
            (redirectLocation response).bind (config.library.join url) with
          | .ok (.inr (next, nextDestination)), some nextValue =>
            if response.closeRaises then []
            else
              match redirectsLeft with
              | 0 => []
              | redirectsLeft + 1 =>
                sentTexts protectedSecrets redirectsLeft (fun i => respond (i + 1)) nextValue next
                  nextDestination
          | _, _ => []

/-- The texts of the URLs that are sent for a request: its own, and those that it is redirected
    to. -/
def requestTexts (closed : Bool) (admission : Admission) (request : OutboundRequest)
    (respond : ℕ → Except ClientError Response) : List Text :=
  match prepare config closed admission request with
  | .ok (hop, protectedSecrets) =>
    sentTexts config protectedSecrets config.limits.maxRedirects respond request.url hop.url
      hop.destination
  | .error _ => []

variable {config}

/-- A URL that is parsed is the one that the HTTP library makes of the text. -/
theorem url_of_parseUrl {value : Text} {url : URL} {destination : EgressDestination}
    (h : parseUrl config value = .ok (url, destination)) : config.library.url value = some url := by
  simp only [parseUrl, check_eq_ok, bind_eq_ok] at h
  obtain ⟨-, _, -, h⟩ := h
  split at h
  · rw [check_eq_ok] at h
    obtain ⟨-, h⟩ := h
    split at h
    · split at h
      · split at h
        · rw [check_eq_ok] at h
          obtain ⟨-, h⟩ := h
          split at h
          · split at h
            · next parsed _ hurl =>
              obtain ⟨rfl, -⟩ := Prod.mk.inj (pure_eq_ok.1 h)
              exact hurl
            · cases h
          · cases h
        · cases h
      · cases h
    · cases h
  · cases h

/-- A round that goes on has found nothing in the URL that it leads to. -/
theorem handleResponse_next {secrets : List Text} {url next : URL} {response : Response} {n : ℕ}
    {destination : EgressDestination}
    (h : handleResponse config secrets url response n = .ok (.inr (next, destination))) :
    ∃ value, (redirectLocation response).bind (config.library.join url) = some value ∧
      config.library.url value = some next ∧
      containsProtectedText config.library secrets value = false := by
  simp only [handleResponse, bind_eq_ok] at h
  obtain ⟨bounded, -, h⟩ := h
  cases hlocation : redirectLocation response with
  | none =>
    simp only [hlocation, bind_eq_ok, pure_eq_ok] at h
    obtain ⟨_, -, _, -, h⟩ := h
    cases h
  | some location =>
    simp only [hlocation, bind_eq_ok, pure_eq_ok, check_eq_ok] at h
    obtain ⟨-, ⟨next', destination'⟩, h, he⟩ := h
    obtain ⟨rfl, rfl⟩ := Prod.mk.inj (Sum.inr.inj he)
    simp only [redirectTarget] at h
    split at h
    · next value hjoin =>
      rw [check_eq_ok] at h
      obtain ⟨hclean, h⟩ := h
      split at h
      · next hparse =>
        split_ifs at h
        obtain ⟨rfl, rfl⟩ := Prod.mk.inj (pure_eq_ok.1 h)
        exact ⟨value, hjoin, url_of_parseUrl hparse, Bool.eq_false_iff.2 hclean⟩
      · cases h
      · cases h
    · cases h

/-! ## What is sent -/

/-- The text of a URL that is sent has no secret in it, where it is settled. -/
theorem secretless_sent {sentText : URL → Text} {secrets : List Text} {value : Text} {url : URL}
    (hsettled : Settled config.library sentText value)
    (hurl : config.library.url value = some url)
    (hclean : containsProtectedText config.library secrets value = false) :
    Secretless config.library.unquote secrets (sentText url) := by
  rw [hsettled.sent url hurl]
  exact secretless_of_settled hsettled hclean

/-- The sends of the loop have no secret in their URLs, where the texts of these are settled. -/
theorem followRedirects_secretless (sentText : URL → Text) (secrets : List Text) (n : ℕ)
    (respond : ℕ → Except ClientError Response) (hop : Hop URL) {value : Text}
    (hurl : config.library.url value = some hop.url)
    (hclean : containsProtectedText config.library secrets value = false)
    (hsettled : ∀ text ∈ sentTexts config secrets n respond value hop.url hop.destination,
      Settled config.library sentText text) :
    ∀ sent ∈ sends (followRedirects config secrets n respond hop).1,
      Secretless config.library.unquote secrets (sentText sent.url) := by
  rw [sentTexts.eq_def] at hsettled
  rw [followRedirects.eq_def]
  cases hpolicy : config.policy hop.destination with
  | false =>
    simp only [hpolicy, Bool.not_false, if_true]
    exact fun sent hsent => absurd hsent List.not_mem_nil
  | true =>
    simp only [hpolicy, Bool.not_true, Bool.false_eq_true, if_false, List.forall_mem_cons]
      at hsettled ⊢
    have hfirst := secretless_sent hsettled.1 hurl hclean
    -- the rounds that end here send the URL of the hop only
    have honly : ∀ ds : List EgressDestination,
        ∀ sent ∈ sends (.authorized hop.destination :: .sent hop :: ds.map .authorized),
          Secretless config.library.unquote secrets (sentText sent.url) := by
      intro ds sent hsent
      rw [sends_authorized, sends_sent, sends_map_authorized, List.mem_singleton] at hsent
      exact hsent ▸ hfirst
    cases hrespond : respond 0 with
    | error error => exact honly []
    | ok response =>
      cases hnext : handleResponse config secrets hop.url response n with
      | error error =>
        simp only [hnext]
        exact honly []
      | ok next =>
        rcases next with result | ⟨url, destination⟩
        · simp only [hnext]
          exact honly []
        · obtain ⟨nextValue, hvalue, hnextUrl, hnextClean⟩ := handleResponse_next hnext
          cases hclose : response.closeRaises with
          | true =>
            simp only [hnext, hclose, if_true]
            exact honly [destination]
          | false =>
            cases n with
            | zero =>
              simp only [hnext, hclose, Bool.false_eq_true, if_false]
              exact honly []
            | succ n =>
              simp only [hrespond, hnext, hvalue, hclose, Bool.false_eq_true, if_false] at hsettled
              have ih := followRedirects_secretless sentText secrets n (fun i => respond (i + 1))
                (hop.redirected config response.status url destination)
                ((redirected_url ..).symm ▸ hnextUrl) hnextClean
              rw [redirected_url, redirected_destination] at ih
              simp only [hnext, hclose, Bool.false_eq_true, if_false]
              intro sent hsent
              rw [List.cons_append, List.cons_append, List.nil_append, sends_authorized,
                sends_sent, sends_authorized, List.mem_cons] at hsent
              rcases hsent with rfl | hsent
              · exact hfirst
              · exact ih hsettled.2 sent hsent

/-- No secret of a request occurs in a URL that is sent, where the texts of the URLs that are
    sent with it are settled. -/
theorem sent_urls_secretless {sentText : URL → Text} (closed : Bool) (admission : Admission)
    (request : OutboundRequest) (respond : ℕ → Except ClientError Response)
    (hsettled : (∃ name secret, (name, HeaderValue.secret secret) ∈ request.headers) →
      ∀ text ∈ requestTexts config closed admission request respond,
        Settled config.library sentText text) :
    ∀ sent ∈ sends (requestEvents config closed admission request respond),
      ∀ name secret, (name, HeaderValue.secret secret) ∈ request.headers →
        ∀ n, ¬ secret.reveal <:+: config.library.unquote^[n] (sentText sent.url) := by
  rw [requestTexts] at hsettled
  rw [requestEvents]
  cases hprepare : prepare config closed admission request with
  | error error => exact fun sent hsent => absurd hsent List.not_mem_nil
  | ok prepared =>
    obtain ⟨hop, secrets⟩ := prepared
    obtain ⟨hparse, output, hheaders, -⟩ := prepare_ok config closed admission request hprepare
    have hclean : containsProtectedText config.library secrets request.url = false := by
      simp only [prepare, check_eq_ok, bind_eq_ok] at hprepare
      obtain ⟨_, -, ⟨_, _⟩, -, -, ⟨_, secrets'⟩, hheaders', hclean, -, -, h⟩ := hprepare
      rw [hheaders] at hheaders'
      obtain ⟨rfl, rfl⟩ := Prod.mk.inj (Except.ok.inj hheaders')
      exact Bool.eq_false_iff.2 hclean
    intro sent hsent name secret hsecret n
    rw [hprepare] at hsettled
    have hmem := ((mem_protectedSecrets hheaders secret.reveal).1).2 ⟨name, secret, hsecret, rfl⟩
    exact followRedirects_secretless sentText secrets _ respond hop (url_of_parseUrl hparse) hclean
      (hsettled ⟨name, secret, hsecret⟩) sent hsent n _ hmem

/-! ## An encoded secret -/

/-- The libraries on plain URLs of one host. -/
def decodingLibrary : HTTPLibrary Text :=
  { plainLibrary with
    urlsplit := fun value =>
      if (lit "https://billing.example/").isPrefixOf value then
        some { scheme := lit "https", netloc := billing.host, hostname := some billing.host }
      else none
    unquote := unquote }

/-- A client with these libraries. -/
def decodingConfig : ClientConfig Text := { plainConfig with library := decodingLibrary }

/-- A response that redirects to a URL, and one that does not. -/
def redirectTo (location : Text) (i : ℕ) : Except ClientError Response :=
  if i = 0 then .ok { status := 302, headers := [(lit "location", location)] }
  else .ok { status := 200, headers := [] }

/-- A redirect to a URL without an escape sequence is settled. -/
theorem sent_urls_secretless_example :
    requestTexts decodingConfig false (.admitted false) sessionRequest
        (redirectTo (lit "https://billing.example/a")) =
        [lit "https://billing.example/", lit "https://billing.example/a"] ∧
      ∀ sent ∈ sends (requestEvents decodingConfig false (.admitted false) sessionRequest
          (redirectTo (lit "https://billing.example/a"))),
        ∀ name secret, (name, HeaderValue.secret secret) ∈ sessionRequest.headers →
          ∀ n, ¬ secret.reveal <:+: decodingConfig.library.unquote^[n] (id sent.url) := by
  have htexts : requestTexts decodingConfig false (.admitted false) sessionRequest
      (redirectTo (lit "https://billing.example/a")) =
        [lit "https://billing.example/", lit "https://billing.example/a"] := by decide +kernel
  refine ⟨htexts, sent_urls_secretless false (.admitted false) sessionRequest _ fun _ => ?_⟩
  rw [htexts, List.forall_mem_cons, List.forall_mem_singleton]
  refine ⟨⟨fun url h => (Option.some.inj h).symm, ?_⟩, fun url h => (Option.some.inj h).symm, ?_⟩
  · decide +kernel
  · decide +kernel

/-- The client follows a redirect to a URL in which five rounds of decoding reveal a secret. -/
theorem sent_url_reveals :
    ¬ ∀ (config : ClientConfig Text) (sentText : Text → Text) (closed : Bool)
      (admission : Admission) (request : OutboundRequest)
      (respond : ℕ → Except ClientError Response), config.library.unquote = unquote →
      (∀ value url, config.library.url value = some url → sentText url = value) →
      ∀ sent ∈ sends (requestEvents config closed admission request respond),
        ∀ name secret, (name, HeaderValue.secret secret) ∈ request.headers →
          ∀ n, ¬ secret.reveal <:+: unquote^[n] (sentText sent.url) := by
  intro h
  have hurls : (sends (requestEvents decodingConfig false (.admitted false) sessionRequest
      (redirectTo (lit "https://billing.example/%25252525733cr3t-session")))).map Hop.url =
        [lit "https://billing.example/",
          lit "https://billing.example/%25252525733cr3t-session"] := by decide +kernel
  have hreveals : (unquote^[5] (lit "https://billing.example/%25252525733cr3t-session")).hasPart
      sessionSecret.reveal = true := by decide +kernel
  obtain ⟨sent, hsent, hurl⟩ := List.mem_map.1 (hurls ▸ List.mem_cons_of_mem _ List.mem_cons_self)
  refine h decodingConfig id false (.admitted false) sessionRequest _ rfl ?_ sent hsent
    (lit "X-Session") sessionSecret List.mem_cons_self 5 (Text.hasPart_iff.1 (hurl ▸ hreveals))
  exact fun value url hurl => (Option.some.inj hurl).symm

end McpRuntime.Outbound
