import McpRuntime.Python.Json
import McpRuntime.Python.Url

/-!
# Gateway endpoints

The resolver of the registry returns an endpoint that is the gateway origin of the operator's
policy, joined to the path that the artifact advertises. `gatewayPath` checks what `urlsplit`
makes of that path, which is not always the path itself.

* `urlsplit_join`: an origin and a path are the parts of the URL that is made of them;
* `resolver_endpoint_iff`: an endpoint that is returned has the authority of the origin and
  exactly the advertised path, an ordinary one, unless the path has a delimiter or a control
  character in it, or begins with a space or with two slashes.

What the resolver decides about the rest of an artifact, its contract and its tools, is a
parameter: it can only refuse the artifact. The projection of the whole artifact gives the
same endpoint (`Projector.endpoint_of_project`).
-/

namespace McpRuntime

/-! ## Parts of a URL -/

/-- The characters that `urlsplit` takes out of a URL. -/
def isDropped (c : CodePoint) : Bool := (lit "\t\r\n").contains c

/-- They are control characters. -/
theorem isDropped_of_le {c : CodePoint} (h : 32 ≤ c.val) : isDropped c = false := by
  rw [isDropped, ← Bool.not_eq_true, List.contains_iff_mem]
  intro hmem
  have hall : (lit "\t\r\n").all (·.val < 32) = true := by decide
  exact absurd h (not_le.2 (of_decide_eq_true (List.all_eq_true.1 hall c hmem)))

/-- What `urlsplit` has made sure of an authority. -/
structure IsNetloc (nfkc : Text → Text) (netloc : Text) : Prop where
  chars : ∀ c ∈ netloc, endsNetloc c = false ∧ isDropped c = false
  brackets : netloc.contains 91 = netloc.contains 93 ∧
    (netloc.contains 91 → bracketedNetloc netloc)
  normal : checkNetloc nfkc netloc

/-- What follows a scheme is the end of the URL. -/
theorem splitScheme_suffix (url : Text) : (splitScheme url).2 <:+ url := by
  rw [splitScheme]
  split
  · next scheme rest hpartition =>
    split_ifs
    · rw [Text.partition] at hpartition
      split at hpartition
      · cases hpartition
      · next _ after hafter =>
        cases hpartition
        exact ((List.suffix_cons _ _).trans (hafter ▸ List.dropWhile_suffix _))
    · exact List.suffix_rfl
  · exact List.suffix_rfl

/-- Without a scheme, the whole URL follows. -/
theorem splitScheme_of_nil {url : Text} (h : (splitScheme url).1 = []) :
    splitScheme url = ([], url) := by
  rw [splitScheme] at h ⊢
  split at h
  · next scheme rest _ =>
    split_ifs at h ⊢ with hscheme
    · rw [List.map_eq_nil_iff] at h
      subst h
      exact absurd hscheme.1 Bool.false_ne_true
    · rfl
  · rfl

/-- A text without the separator is before it. -/
theorem partition_of_notMem {separator : CodePoint} {t : Text} (h : separator ∉ t) :
    t.partition separator = (t, none) := by
  rw [Text.partition, List.dropWhile_eq_nil_iff.2]
  exact fun d hd => decide_eq_true fun he => h (he ▸ hd)

theorem isNetloc_of_urlsplit {nfkc : Text → Text} {url : Text} {parsed : SplitResult}
    (h : urlsplit nfkc url = some parsed) : IsNetloc nfkc parsed.netloc := by
  rw [urlsplit] at h
  have hkept : ∀ c ∈ (splitScheme ((url.dropWhile (·.val ≤ 32)).filter fun c =>
      !(lit "\t\r\n").contains c)).2, isDropped c = false := fun c hc => by
    simpa [isDropped] using (List.mem_filter.1 ((splitScheme_suffix _).subset hc)).2
  generalize splitScheme _ = parts at h hkept
  obtain ⟨scheme, rest⟩ := parts
  dsimp only at h hkept
  obtain ⟨netloc, after, hnetloc, hparts⟩ : ∃ netloc after,
      (∀ c ∈ netloc, endsNetloc c = false ∧ isDropped c = false) ∧
      (if (lit "//").isPrefixOf rest then
        ((rest.drop 2).takeWhile fun c => !endsNetloc c,
          (rest.drop 2).dropWhile fun c => !endsNetloc c)
      else ([], rest)) = (netloc, after) := by
    split_ifs
    · refine ⟨_, _, fun c hc => ⟨by simpa using List.mem_takeWhile_imp hc, ?_⟩, rfl⟩
      exact hkept c (List.mem_of_mem_drop ((List.takeWhile_prefix _).subset hc))
    · exact ⟨_, _, fun c hc => absurd hc List.not_mem_nil, rfl⟩
  rw [hparts] at h
  dsimp only at h
  split_ifs at h with hbad
  rw [not_or, not_or, not_not, not_and, not_not, not_not] at hbad
  cases h
  exact ⟨hnetloc, ⟨by simpa using hbad.1, fun hopen => hbad.2.1 hopen⟩, hbad.2.2⟩

/-- An authority and a path are the parts of the URL that is made of them. -/
theorem urlsplit_join {nfkc : Text → Text} {netloc path : Text} (hnetloc : IsNetloc nfkc netloc)
    (hslash : ∀ c ∈ path.head?, c = 47)
    (hpath : ∀ c ∈ path, c ≠ 35 ∧ c ≠ 63 ∧ isDropped c = false) :
    urlsplit nfkc (lit "https://" ++ netloc ++ path) =
      some ⟨lit "https", netloc, path, [], []⟩ := by
  have hurl : ((lit "https://" ++ netloc ++ path).dropWhile (·.val ≤ 32)).filter
      (fun c => !(lit "\t\r\n").contains c) =
        lit "https" ++ 58 :: (lit "//" ++ (netloc ++ path)) := by
    have hhead : (lit "https://" ++ netloc ++ path).dropWhile (·.val ≤ 32) =
        lit "https" ++ 58 :: (lit "//" ++ (netloc ++ path)) := rfl
    rw [hhead]
    refine List.filter_eq_self.2 fun c hc => ?_
    have hfixed : (lit "https://").all (fun c => !isDropped c) = true := by decide
    have hjoin : lit "https" ++ 58 :: (lit "//" ++ (netloc ++ path)) =
        lit "https://" ++ (netloc ++ path) := rfl
    rw [hjoin, List.mem_append, List.mem_append] at hc
    rcases hc with hc | hc | hc
    · exact List.all_eq_true.1 hfixed c hc
    · exact congrArg not (hnetloc.chars c hc).2
    · exact congrArg not (hpath c hc).2.2
  have hscheme : splitScheme (lit "https" ++ 58 :: (lit "//" ++ (netloc ++ path))) =
      (lit "https", lit "//" ++ (netloc ++ path)) := by
    rw [splitScheme, Text.partition_append (by decide)]
    exact if_pos (by decide)
  have hends : ∀ c ∈ netloc, (!endsNetloc c) = true := fun c hc => by
    rw [(hnetloc.chars c hc).1]
    rfl
  have hdrop : (lit "//" ++ (netloc ++ path)).drop 2 = netloc ++ path := rfl
  have htake : (netloc ++ path).takeWhile (fun c => !endsNetloc c) = netloc ∧
      (netloc ++ path).dropWhile (fun c => !endsNetloc c) = path := by
    rw [List.takeWhile_append_of_pos hends, List.dropWhile_append_of_pos hends]
    cases path with
    | nil => exact ⟨List.append_nil _, rfl⟩
    | cons c rest =>
      obtain rfl := hslash c rfl
      exact ⟨List.append_nil _, rfl⟩
  have hgood : ¬(netloc.contains 91 ≠ netloc.contains 93 ∨
      netloc.contains 91 ∧ ¬ bracketedNetloc netloc ∨ ¬ checkNetloc nfkc netloc) := by
    rw [not_or, not_or, not_not, not_and, not_not, not_not]
    exact ⟨hnetloc.brackets.1, hnetloc.brackets.2, hnetloc.normal⟩
  rw [urlsplit, hurl, hscheme]
  dsimp only
  rw [if_pos (List.isPrefixOf_iff_prefix.2 (List.prefix_append _ _)), hdrop, htake.1, htake.2]
  dsimp only
  rw [if_neg hgood, partition_of_notMem fun hmem => (hpath 35 hmem).1 rfl]
  dsimp only
  rw [partition_of_notMem fun hmem => (hpath 63 hmem).2.1 rfl]
  rfl

namespace Registry

/-! ## Checks -/

/-- `canonical_https_origin`, which raises `ValueError`. -/
def canonicalHttpsOrigin (nfkc : Text → Text) (value : Text) : Option Text := do
  let parsed ← urlsplit nfkc value
  if parsed.scheme ≠ lit "https" ∨ !parsed.hasHostname ∨ parsed.username ≠ none ∨
      parsed.password ≠ none ∨ (parsed.path ≠ [] ∧ parsed.path ≠ lit "/") ∨ parsed.query ≠ [] ∨
      parsed.fragment ≠ [] then none
  else
    -- `urlunsplit`, with an authority that is not empty
    some (lit "https://" ++ parsed.netloc)

/-- The checks of `_gateway_path` on what `urlsplit` makes of a text. -/
def isGatewayPath (value : Text) (parsed : SplitResult) : Bool :=
  parsed.scheme = [] && parsed.netloc = [] && parsed.query = [] && parsed.fragment = [] &&
    (lit "/").isPrefixOf parsed.path && !(lit "//").isPrefixOf parsed.path && !value.contains 92 &&
    (parsed.path.split 47).all fun part => part ≠ lit "." && part ≠ lit ".."

/-- `_gateway_path`, with the text that it accepts: `some none` where it is false, and `none`
    where it raises `ValueError`, as `urlsplit` does. -/
def gatewayPath (nfkc : Text → Text) : Option Json → Option (Option Text)
  | some (.str value) =>
    if value = [] ∨ 2048 < value.length then some none
    else (urlsplit nfkc value).map fun parsed => if isGatewayPath value parsed then some value else none
  | _ => some none

/-- `RegistryCandidateReason`, as far as a projection gives it. -/
inductive CandidateReason
  | contract
  | lifecycle
  | protocol
  | scope
  | capability
  | gateway
  | toolPolicy
  | fingerprint
  | schema
  deriving DecidableEq

/-- `RegistryResolutionPolicy`, as far as an endpoint depends on it. -/
structure RegistryResolutionPolicy (nfkc : Text → Text) where
  gatewayOrigin : Text
  isOrigin : ∃ value, canonicalHttpsOrigin nfkc value = some gatewayOrigin

/-- What `_project` finds out about an artifact, under a policy and in a context, apart from its
    path: the checks before the path and after it, and those of the other fields of a server. -/
structure Projection where
  before : Option CandidateReason
  after : Option CandidateReason
  serverIsValid : Bool

/-- The check of an endpoint in `RegistryADKServer`, which raises `ValueError`. -/
def isTrustedEndpoint (nfkc : Text → Text) (endpoint : Text) : Bool :=
  match urlsplit nfkc endpoint with
  | none => false
  | some parsed =>
    parsed.scheme = lit "https" && parsed.hasHostname && parsed.username = none &&
      parsed.password = none && parsed.query = [] && parsed.fragment = []

/-- `_project`: the endpoint of the server, or the reason why there is none; `none` where it
    raises `ValueError`. -/
def project (nfkc : Text → Text) (policy : RegistryResolutionPolicy nfkc) (found : Projection)
    (path : Option Json) : Option (Except CandidateReason Text) :=
  match found.before with
  | some reason => some (.error reason)
  | none =>
    match gatewayPath nfkc path with
    | none => none
    | some none => some (.error .gateway)
    | some (some path) =>
      match found.after with
      | some reason => some (.error reason)
      | none =>
        if isTrustedEndpoint nfkc (policy.gatewayOrigin ++ path) && found.serverIsValid then
          some (.ok (policy.gatewayOrigin ++ path))
        else none

/-- What a projection that gives an endpoint has found. -/
theorem project_eq_ok {nfkc : Text → Text} {policy : RegistryResolutionPolicy nfkc}
    {found : Projection} {path : Option Json} {endpoint : Text}
    (h : project nfkc policy found path = some (.ok endpoint)) :
    ∃ advertised, gatewayPath nfkc path = some (some advertised) ∧
      endpoint = policy.gatewayOrigin ++ advertised := by
  rw [project] at h
  cases hbefore : found.before with
  | some reason =>
    rw [hbefore] at h
    cases h
  | none =>
    rw [hbefore] at h
    cases hpath : gatewayPath nfkc path with
    | none =>
      rw [hpath] at h
      cases h
    | some accepted =>
      cases accepted with
      | none =>
        rw [hpath] at h
        cases h
      | some advertised =>
        rw [hpath] at h
        cases hafter : found.after with
        | some reason =>
          rw [hafter] at h
          cases h
        | none =>
          rw [hafter] at h
          dsimp only at h
          split_ifs at h
          cases h
          exact ⟨advertised, rfl, rfl⟩

/-- What is accepted is the text that was advertised. -/
theorem gatewayPath_eq_some {nfkc : Text → Text} {path : Option Json} {advertised : Text}
    (h : gatewayPath nfkc path = some (some advertised)) :
    path = some (.str advertised) ∧ ∃ parsed, urlsplit nfkc advertised = some parsed ∧
      isGatewayPath advertised parsed := by
  rw [gatewayPath.eq_def] at h
  split at h
  · next value =>
    split_ifs at h with hlength
    · cases h
    · obtain ⟨parsed, hparsed, h⟩ := Option.map_eq_some_iff.1 h
      split_ifs at h with haccepted
      cases h
      exact ⟨rfl, parsed, hparsed, haccepted⟩
  · cases h

/-- The origin of a policy is an authority. -/
theorem isNetloc_of_origin {nfkc : Text → Text} (policy : RegistryResolutionPolicy nfkc) :
    ∃ netloc, policy.gatewayOrigin = lit "https://" ++ netloc ∧ IsNetloc nfkc netloc := by
  obtain ⟨value, hvalue⟩ := policy.isOrigin
  obtain ⟨parsed, hparsed, horigin⟩ := Option.bind_eq_some_iff.1 hvalue
  split_ifs at horigin
  exact ⟨parsed.netloc, (Option.some.inj horigin).symm, isNetloc_of_urlsplit hparsed⟩

/-! ## Containment -/

/-- A path that begins with a single slash and has no dot segment, delimiter, backslash or
    control character in it. -/
def isPlainPath (path : Text) : Bool :=
  (lit "/").isPrefixOf path && !(lit "//").isPrefixOf path &&
    ((path.split 47).all fun part => part ≠ lit "." && part ≠ lit "..") &&
    path.all fun c => c ≠ 63 && c ≠ 35 && c ≠ 92 && 32 ≤ c.val && c.val ≠ 127

/-- An endpoint has the scheme and the authority of an origin, and a path that is plain and
    exactly the advertised one. -/
def Contained (nfkc : Text → Text) (origin path endpoint : Text) : Prop :=
  ∃ o e, urlsplit nfkc origin = some o ∧ urlsplit nfkc endpoint = some e ∧
    e.scheme = o.scheme ∧ e.netloc = o.netloc ∧ e.path = path ∧ isPlainPath path

/-- A path without a delimiter or a control character, that does not begin with a space or with
    two slashes. -/
def isOrdinaryPath (path : Text) : Bool :=
  (path.all fun c => c ≠ 63 && c ≠ 35 && 32 ≤ c.val && c.val ≠ 127) && path.head? ≠ some 32 &&
    !(lit "//").isPrefixOf path

variable {nfkc : Text → Text}

theorem parts_of_isPlainPath {path : Text} (h : isPlainPath path) :
    path.head? = some 47 ∧ (!(lit "//").isPrefixOf path) = true ∧
      ∀ c ∈ path, c ≠ 63 ∧ c ≠ 35 ∧ 32 ≤ c.val ∧ c.val ≠ 127 := by
  simp only [isPlainPath, Bool.and_eq_true, List.all_eq_true, decide_eq_true_eq,
    List.isPrefixOf_iff_prefix] at h
  obtain ⟨⟨⟨⟨rest, rfl⟩, hsingle⟩, -⟩, hchars⟩ := h
  refine ⟨rfl, hsingle, fun c hc => ?_⟩
  obtain ⟨⟨⟨⟨hquery, hfragment⟩, -⟩, hlow⟩, hdelete⟩ := hchars c hc
  exact ⟨hquery, hfragment, hlow, hdelete⟩

/-- An ordinary path is the path of the URL that it is. -/
theorem isPlainPath_of_isGatewayPath {path : Text} {parsed : SplitResult}
    (hparsed : urlsplit nfkc path = some parsed) (haccepted : isGatewayPath path parsed)
    (hordinary : isOrdinaryPath path) : isPlainPath path := by
  rw [isOrdinaryPath, Bool.and_eq_true, Bool.and_eq_true, List.all_eq_true,
    decide_eq_true_iff, Bool.not_eq_true'] at hordinary
  obtain ⟨⟨hchars, hhead⟩, hslashes⟩ := hordinary
  simp only [Bool.and_eq_true, decide_eq_true_eq] at hchars
  simp only [isGatewayPath, Bool.and_eq_true, decide_eq_true_eq] at haccepted
  obtain ⟨⟨⟨⟨⟨⟨⟨hscheme, hnetloc⟩, hquery⟩, hfragment⟩, hslash⟩, hsingle⟩, hbackslash⟩, hdots⟩ :=
    haccepted
  -- `urlsplit` sees the path as it is
  have hurl : (path.dropWhile (·.val ≤ 32)).filter (fun c => !(lit "\t\r\n").contains c) = path := by
    have hstart : path.dropWhile (·.val ≤ 32) = path := by
      cases path with
      | nil => rfl
      | cons c rest =>
        refine List.dropWhile_cons_of_neg ?_
        have hc := hchars c List.mem_cons_self
        have hne : c.val ≠ 32 := fun he => hhead (congrArg some (Fin.ext he))
        simp only [decide_eq_true_eq]
        omega
    rw [hstart]
    exact List.filter_eq_self.2 fun c hc => congrArg not (isDropped_of_le (hchars c hc).1.2)
  have hparts : splitScheme path = ([], path) := by
    refine splitScheme_of_nil ?_
    rw [← hscheme]
    rw [urlsplit, hurl] at hparsed
    generalize splitScheme path = parts at hparsed ⊢
    obtain ⟨scheme, rest⟩ := parts
    dsimp only at hparsed ⊢
    split_ifs at hparsed
    · cases hparsed
      rfl
    · cases hparsed
      rfl
  rw [urlsplit, hurl, hparts] at hparsed
  dsimp only at hparsed
  simp only [hslashes, Bool.false_eq_true, if_false] at hparsed
  rw [partition_of_notMem fun hmem => (hchars 35 hmem).1.1.2 rfl] at hparsed
  dsimp only at hparsed
  rw [partition_of_notMem fun hmem => (hchars 63 hmem).1.1.1 rfl] at hparsed
  split_ifs at hparsed
  cases hparsed
  rw [isPlainPath, Bool.and_eq_true, Bool.and_eq_true, Bool.and_eq_true]
  refine ⟨⟨⟨hslash, hsingle⟩, hdots⟩, List.all_eq_true.2 fun c hc => ?_⟩
  have hne : c ≠ 92 := by
    rintro rfl
    simp [hc] at hbackslash
  simp only [Bool.and_eq_true, decide_eq_true_eq]
  exact ⟨⟨⟨⟨(hchars c hc).1.1.1, (hchars c hc).1.1.2⟩, hne⟩, (hchars c hc).1.2⟩, (hchars c hc).2⟩

/-- An endpoint that the resolver returns has the authority of the origin and the advertised
    path exactly where that path is ordinary. -/
theorem resolver_endpoint_iff (policy : RegistryResolutionPolicy nfkc) {found : Projection}
    {path : Option Json} {endpoint : Text}
    (h : project nfkc policy found path = some (.ok endpoint)) :
    ∃ advertised, path = some (.str advertised) ∧
      (Contained nfkc policy.gatewayOrigin advertised endpoint ↔ isOrdinaryPath advertised) := by
  obtain ⟨advertised, haccepted, rfl⟩ := project_eq_ok h
  obtain ⟨rfl, parsed, hparsed, hpath⟩ := gatewayPath_eq_some haccepted
  refine ⟨advertised, rfl, fun hcontained => ?_, fun hordinary => ?_⟩
  · obtain ⟨-, -, -, -, -, -, -, hplain⟩ := hcontained
    obtain ⟨hslash, hsingle, hchars⟩ := parts_of_isPlainPath hplain
    simp only [isOrdinaryPath, Bool.and_eq_true, List.all_eq_true, decide_eq_true_eq]
    refine ⟨⟨fun c hc => ?_, fun h => ?_⟩, hsingle⟩
    · obtain ⟨hquery, hfragment, hlow, hdelete⟩ := hchars c hc
      exact ⟨⟨⟨hquery, hfragment⟩, hlow⟩, hdelete⟩
    · rw [hslash] at h
      exact absurd (Option.some.inj h) (by decide)
  · have hplain := isPlainPath_of_isGatewayPath hparsed hpath hordinary
    obtain ⟨hslash, -, hchars⟩ := parts_of_isPlainPath hplain
    obtain ⟨netloc, horigin, hnetloc⟩ := isNetloc_of_origin policy
    have hnil : ∀ c ∈ ([] : Text).head?, c = 47 := by simp
    have hempty := urlsplit_join hnetloc hnil fun _ hc => absurd hc List.not_mem_nil
    have hwhole := urlsplit_join hnetloc (fun c hc => Option.some.inj (hc.symm.trans hslash))
      fun c hc => ⟨(hchars c hc).2.1, (hchars c hc).1, isDropped_of_le (hchars c hc).2.2.1⟩
    rw [List.append_nil] at hempty
    rw [horigin]
    exact ⟨_, _, hempty, hwhole, rfl, rfl, rfl, hplain⟩

theorem exampleOrigin_isOrigin :
    ∃ value, canonicalHttpsOrigin id value = some (lit "https://gw.test") :=
  ⟨lit "https://gw.test/", by decide +kernel⟩

/-- A policy whose origin has no port. -/
def examplePolicy : RegistryResolutionPolicy id where
  gatewayOrigin := lit "https://gw.test"
  isOrigin := exampleOrigin_isOrigin

theorem resolver_endpoint_iff_example :
    project id examplePolicy ⟨none, none, true⟩ (some (.str (lit "/a/mcp"))) =
      some (.ok (lit "https://gw.test/a/mcp")) ∧
    ∃ advertised, some (Json.str (lit "/a/mcp")) = some (.str advertised) ∧
      (Contained id (lit "https://gw.test") advertised (lit "https://gw.test/a/mcp") ↔
        isOrdinaryPath advertised) :=
  have h : project id examplePolicy ⟨none, none, true⟩ (some (.str (lit "/a/mcp"))) =
      some (.ok (lit "https://gw.test/a/mcp")) := by decide +kernel
  ⟨h, resolver_endpoint_iff examplePolicy h⟩

/-- A path that begins with a space is returned behind an authority that ends with one. -/
theorem resolver_endpoint_counterexample : ¬ ∀ (nfkc : Text → Text)
    (policy : RegistryResolutionPolicy nfkc) (found : Projection) (path : Option Json)
    (endpoint : Text), project nfkc policy found path = some (.ok endpoint) →
      ∃ advertised, path = some (.str advertised) ∧
        Contained nfkc policy.gatewayOrigin advertised endpoint := by
  intro h
  have hproject : project id examplePolicy ⟨none, none, true⟩ (some (.str (lit " /a"))) =
      some (.ok (lit "https://gw.test /a")) := by decide +kernel
  obtain ⟨advertised, hpath, o, e, ho, he, -, hnetloc, -⟩ := h _ _ _ _ _ hproject
  have horigin : (urlsplit id (lit "https://gw.test")).map SplitResult.netloc =
      some (lit "gw.test") := by decide +kernel
  have hendpoint : (urlsplit id (lit "https://gw.test /a")).map SplitResult.netloc =
      some (lit "gw.test ") := by decide +kernel
  change urlsplit id (lit "https://gw.test") = some o at ho
  rw [ho] at horigin
  rw [he] at hendpoint
  rw [Option.map_some, hnetloc] at hendpoint
  exact absurd (horigin.symm.trans hendpoint) (by decide)

end Registry

end McpRuntime
