import McpRuntime.Gateway.Route

/-!
# The names of a route

For every tenant and server that are canonical, the derived names are what the identity of a
route asks of them: DNS labels, whatever the slugs are cut to, and a path and a scope within
their lengths. They end with the first digits of digests, so that they differ for different
tenants and servers as long as these digits do.
-/

namespace McpRuntime.Gateway

/-! ## Slugs -/

theorem mem_hyphenated {t : Text} {c : CodePoint} (h : c ∈ hyphenated t) :
    isDnsChar c ∨ c = 45 := by
  induction t with
  | nil => cases h
  | cons d t ih =>
    rw [hyphenated] at h
    split_ifs at h with hd hhead
    · rcases List.mem_cons.1 h with rfl | h
      · exact .inl hd
      · exact ih h
    · exact ih h
    · rcases List.mem_cons.1 h with rfl | h
      · exact .inr rfl
      · exact ih h

/-- A text of a label: it begins with a letter or a digit, and has only these and hyphens. -/
structure IsStem (t : Text) : Prop where
  head : ∃ c ∈ t.head?, isDnsChar c
  chars : ∀ c ∈ t, isDnsChar c ∨ c = 45

theorem isStem_mcp : IsStem (lit "mcp") :=
  ⟨⟨109, rfl, by decide⟩, fun c hc => .inl (List.all_eq_true.1 (by decide) c hc)⟩

/-- What is left of a stem without the hyphens at its end. -/
theorem IsStem.rstrip {t : Text} (h : IsStem t) : IsStem (Text.rstripChar 45 t) := by
  obtain ⟨⟨c, hhead, hc⟩, hchars⟩ := h
  obtain ⟨rest, rfl⟩ := List.head?_eq_some_iff.1 hhead
  have hne : c ≠ 45 := by
    rintro rfl
    exact absurd hc (by decide)
  have hstrip : Text.rstripChar 45 (c :: rest) = c :: Text.rstripChar 45 rest :=
    Text.rstripChar_append hne [] rest
  refine ⟨⟨c, by rw [hstrip]; rfl, hc⟩, fun d hd => hchars d ?_⟩
  exact (List.rdropWhile_prefix _ _).subset hd

theorem IsStem.take {t : Text} (h : IsStem t) (n : ℕ) : IsStem (t.take (n + 1)) := by
  obtain ⟨⟨c, hhead, hc⟩, hchars⟩ := h
  obtain ⟨rest, rfl⟩ := List.head?_eq_some_iff.1 hhead
  exact ⟨⟨c, rfl, hc⟩, fun d hd => hchars d (List.mem_of_mem_take hd)⟩

theorem IsStem.ne_nil {t : Text} (h : IsStem t) : t ≠ [] := by
  rintro rfl
  obtain ⟨c, hc, -⟩ := h.head
  cases hc

theorem IsStem.orMcp {t : Text} (h : IsStem t) : orMcp t = t :=
  if_neg (by simpa using h.ne_nil)

theorem isStem_slug (t : Text) : IsStem (slug t) := by
  have hchars : ∀ c ∈ (hyphenated (t.map CodePoint.asciiLower)).dropWhile (· = 45),
      isDnsChar c ∨ c = 45 := fun c hc => mem_hyphenated ((List.dropWhile_suffix _).subset hc)
  rw [slug]
  cases hrest : (hyphenated (t.map CodePoint.asciiLower)).dropWhile (· = 45) with
  | nil => exact isStem_mcp
  | cons c rest =>
    rw [hrest] at hchars
    have hc : c ≠ 45 := by
      have hhead := List.head?_dropWhile_not (fun c => decide (c = (45 : CodePoint)))
        (hyphenated (t.map CodePoint.asciiLower))
      rw [hrest] at hhead
      exact of_decide_eq_false hhead
    have hstem : IsStem (c :: rest) :=
      ⟨⟨c, rfl, (hchars c List.mem_cons_self).resolve_right hc⟩, hchars⟩
    rw [hstem.rstrip.orMcp]
    exact hstem.rstrip

/-! ## Names -/

section
variable {digest : Text}

/-- The first digits of a digest are characters of a label. -/
theorem isDnsChar_of_digest (h : isDigest digest) {c : CodePoint} (hc : c ∈ digest.take 16) :
    isDnsChar c := by
  rw [isDigest, Bool.and_eq_true, List.all_eq_true] at h
  have hhex := h.2 c (List.mem_of_mem_take hc)
  rw [Bool.or_eq_true, Bool.and_eq_true, decide_eq_true_iff, decide_eq_true_iff] at hhex
  rw [isDnsChar, Bool.or_eq_true, CodePoint.isLower, Bool.and_eq_true, decide_eq_true_iff,
    decide_eq_true_iff]
  exact hhex.elim .inr fun h => .inl ⟨h.1, h.2.trans (by decide)⟩

theorem length_take_digest (h : isDigest digest) : (digest.take 16).length = 16 := by
  rw [isDigest, Bool.and_eq_true, decide_eq_true_iff] at h
  rw [List.length_take, h.1]
  rfl

/-- A name is a stem of at most 46 characters, a hyphen and the digits. -/
theorem exists_dnsIdentity (t digest : Text) : ∃ stem, IsStem stem ∧ stem.length ≤ 46 ∧
    dnsIdentity t digest = stem ++ 45 :: digest.take 16 := by
  have hstem := ((isStem_slug t).take 45).rstrip
  refine ⟨_, hstem, ?_, ?_⟩
  · exact (List.rdropWhile_prefix _ _).length_le.trans (List.length_take_le _ _)
  · rw [dnsIdentity, hstem.orMcp]

/-- A name has only letters, digits and hyphens. -/
theorem chars_dnsIdentity (h : isDigest digest) (t : Text) :
    ∀ c ∈ dnsIdentity t digest, isDnsChar c ∨ c = 45 := by
  obtain ⟨stem, hstem, -, he⟩ := exists_dnsIdentity t digest
  intro c hc
  rw [he, List.mem_append, List.mem_cons] at hc
  rcases hc with hc | hc | hc
  · exact hstem.chars c hc
  · exact .inr hc
  · exact .inl (isDnsChar_of_digest h hc)

theorem length_dnsIdentity_le (h : isDigest digest) (t : Text) :
    (dnsIdentity t digest).length ≤ 63 := by
  obtain ⟨stem, -, hlength, he⟩ := exists_dnsIdentity t digest
  rw [he, List.length_append, List.length_cons, length_take_digest h]
  omega

/-- A name is a DNS label. -/
theorem isDnsLabel_dnsIdentity (h : isDigest digest) (t : Text) :
    isDnsLabel (dnsIdentity t digest) := by
  obtain ⟨stem, hstem, -, he⟩ := exists_dnsIdentity t digest
  obtain ⟨c, hhead, hc⟩ := hstem.head
  have hlast : (dnsIdentity t digest).getLast?.any isDnsChar := by
    have hne : digest.take 16 ≠ [] := fun hnil => by
      have hlength := length_take_digest h
      rw [hnil] at hlength
      cases hlength
    rw [he, List.getLast?_append_of_ne_nil _ (List.cons_ne_nil _ _),
      List.getLast?_cons_of_ne_nil hne, List.getLast?_eq_some_getLast hne]
    exact isDnsChar_of_digest h (List.getLast_mem hne)
  have hfirst : (dnsIdentity t digest).head?.any isDnsChar := by
    rw [he, List.head?_append_of_ne_nil _ hstem.ne_nil, hhead]
    exact hc
  rw [isDnsLabel, isBetween, hfirst, hlast, Bool.true_and, Bool.true_and, Bool.and_eq_true,
    List.all_eq_true]
  exact ⟨fun d hd => by simpa using chars_dnsIdentity h t d hd,
    decide_eq_true (length_dnsIdentity_le h t)⟩

theorem isSegment_dnsIdentity (h : isDigest digest) (t : Text) :
    isSegment (dnsIdentity t digest) := by
  obtain ⟨stem, hstem, -, he⟩ := exists_dnsIdentity t digest
  rw [isSegment, Bool.and_eq_true, List.all_eq_true]
  refine ⟨?_, fun c hc => by simpa using chars_dnsIdentity h t c hc⟩
  rw [he]
  simp

/-- A separator of a path or a scope is not in a name. -/
theorem notMem_dnsIdentity (h : isDigest digest) (t : Text) {c : CodePoint}
    (hc : (isDnsChar c || c = 45) = false) : c ∉ dnsIdentity t digest := fun hmem => by
  have := chars_dnsIdentity h t c hmem
  simp_all

/-- The digits can be read off a name. -/
theorem take_eq_of_dnsIdentity {t t' digest' : Text} (h : isDigest digest)
    (h' : isDigest digest') (he : dnsIdentity t digest = dnsIdentity t' digest') :
    digest.take 16 = digest'.take 16 := by
  obtain ⟨stem, -, -, hstem⟩ := exists_dnsIdentity t digest
  obtain ⟨stem', -, -, hstem'⟩ := exists_dnsIdentity t' digest'
  rw [hstem, hstem'] at he
  have htail := (List.append_inj' he (by
    rw [List.length_cons, List.length_cons, length_take_digest h, length_take_digest h'])).2
  exact (List.cons.inj htail).2

end

/-! ## Identities -/

/-- The characters of a text are those of its parts, and the separators between them. -/
theorem length_split (separator : CodePoint) (t : Text) :
    ((t.split separator).map fun part => part.length + 1).sum = t.length + 1 := by
  induction t with
  | nil => rfl
  | cons c t ih =>
    obtain ⟨part, parts, hparts⟩ := List.exists_cons_of_ne_nil (Text.split_ne_nil separator t)
    rw [hparts, List.map_cons, List.sum_cons] at ih
    rw [Text.split, hparts]
    dsimp only
    split_ifs
    · simp only [List.map_cons, List.sum_cons, List.length_nil, List.length_cons]
      omega
    · simp only [List.map_cons, List.sum_cons, List.length_cons]
      omega

/-- A server name has a namespace and a leaf. -/
theorem length_of_isServerName {t : Text} (h : isServerName t) : 3 ≤ t.length := by
  have hsum := length_split 47 t
  rw [isServerName] at h
  split at h
  · next serverNamespace leaf hsplit =>
    rw [hsplit, List.map_cons, List.map_cons, List.map_nil, List.sum_cons, List.sum_cons,
      List.sum_nil] at hsum
    have hnamespace : serverNamespace ≠ [] := by
      rintro rfl
      exact absurd h (by simp [Text.split, isNamespaceLabel, isBetween])
    have hleaf : leaf ≠ [] := by
      rintro rfl
      exact absurd h (by simp [isServerLeaf, isBetween])
    have := List.length_pos_iff.2 hnamespace
    have := List.length_pos_iff.2 hleaf
    omega
  · cases h

variable (hashing : Hashing)

theorem isDigest_domainDigest (domain t : Text) : isDigest (domainDigest hashing domain t) :=
  (hashing.sha256 _).isDigest

/-- The first 16 digits of the digests of two texts differ, unless these are one text. -/
def Apart (domain t t' : Text) : Prop :=
  (domainDigest hashing domain t).take 16 = (domainDigest hashing domain t').take 16 → t = t'

/-- The parts of a path. -/
theorem split_path {a b : Text} (ha : 47 ∉ a) (hb : 47 ∉ b) :
    (lit "/mcp/" ++ a ++ 47 :: b).split 47 = [[], lit "mcp", a, b] := by
  have hjoin : lit "/mcp/" ++ a ++ 47 :: b = [] ++ 47 :: (lit "mcp" ++ 47 :: (a ++ 47 :: b)) := rfl
  rw [hjoin, Text.split_append, Text.split_append, Text.split_append, Text.split_of_notMem ha,
    Text.split_of_notMem hb]
  rfl

/-- The parts of a scope. -/
theorem split_scope {a b : Text} (ha : 58 ∉ a) (hb : 58 ∉ b) :
    (lit "mcp:" ++ a ++ 58 :: b).split 58 = [lit "mcp", a, b] := by
  have hjoin : lit "mcp:" ++ a ++ 58 :: b = lit "mcp" ++ 58 :: (a ++ 58 :: b) := rfl
  rw [hjoin, Text.split_append, Text.split_append, Text.split_of_notMem ha,
    Text.split_of_notMem hb]
  rfl

/-- The derived values of a canonical tenant and server are valid. -/
theorem isValid_derivedRouteValues {tenantId serverName : Text} (ht : isDnsLabel tenantId)
    (hs : isServerName serverName) (hlength : serverName.length ≤ 200) :
    (derivedRouteValues hashing tenantId serverName).isValid := by
  have hdigest (domain t : Text) := isDigest_domainDigest hashing domain t
  have hlabel (domain t u : Text) := isDnsLabel_dnsIdentity (hdigest domain t) u
  have hsegment (domain t u : Text) := isSegment_dnsIdentity (hdigest domain t) u
  have hle (domain t u : Text) := length_dnsIdentity_le (hdigest domain t) u
  have hslash (domain t u : Text) : 47 ∉ dnsIdentity u (domainDigest hashing domain t) :=
    notMem_dnsIdentity (hdigest domain t) u (by decide)
  have hcolon (domain t u : Text) : 58 ∉ dnsIdentity u (domainDigest hashing domain t) :=
    notMem_dnsIdentity (hdigest domain t) u (by decide)
  have hregistry (domain t : Text) :
      isRegistryDigest (lit "sha256:" ++ domainDigest hashing domain t) := by
    rw [isRegistryDigest, Bool.and_eq_true]
    exact ⟨List.isPrefixOf_iff_prefix.2 (List.prefix_append _ _), hdigest domain t⟩
  simp only [GatewayRouteIdentity.isValid, Bool.and_eq_true, decide_eq_true_eq]
  simp only [derivedRouteValues, isRoutePath, isRouteScope, split_path (hslash _ _ _) (hslash _ _ _),
    split_scope (hcolon _ _ _) (hcolon _ _ _), Bool.and_eq_true, decide_eq_true_eq]
  refine ⟨⟨⟨⟨⟨⟨⟨⟨⟨ht, hs⟩, length_of_isServerName hs⟩, hlength⟩, hregistry _ _⟩, hlabel _ _ _⟩,
    ⟨trivial, hsegment _ _ _⟩, hsegment _ _ _⟩, ?_⟩, ⟨trivial, hsegment _ _ _⟩, hsegment _ _ _⟩, ?_⟩
  · have := hle (lit "gateway-tenant-v1") tenantId tenantId
    have := hle (lit "gateway-server-v1") serverName serverName
    have hpath : (lit "/mcp/").length = 5 := rfl
    simp only [List.length_append, List.length_cons, hpath]
    omega
  · have := hle (lit "gateway-tenant-v1") tenantId tenantId
    have := hle (lit "gateway-server-v1") serverName serverName
    have hscope : (lit "mcp:").length = 4 := rfl
    simp only [List.length_append, List.length_cons, hscope]
    omega

/-- A tenant is a label, which has no character of a document or a path in it. -/
theorem zero_notMem_of_isDnsLabel {t : Text} (h : isDnsLabel t) : 0 ∉ t := by
  rw [isDnsLabel, isBetween, Bool.and_eq_true, Bool.and_eq_true, List.all_eq_true] at h
  intro hmem
  have := h.1.2 0 hmem
  revert this
  decide

theorem derived_of_eq_some {tenantId serverName : Text} {route : GatewayRouteIdentity}
    (h : deriveGatewayRouteIdentity hashing tenantId serverName = some route) :
    isDnsLabel tenantId ∧ isServerName serverName ∧
      route = derivedRouteValues hashing tenantId serverName := by
  rw [deriveGatewayRouteIdentity] at h
  dsimp only at h
  split_ifs at h with hgrammar hvalid
  rw [Bool.and_eq_true] at hgrammar
  exact ⟨hgrammar.1, hgrammar.2, (Option.some.inj h).symm⟩

/-- The identity of a canonical tenant and server is derived and is valid, and every name in it
    differs from that of another tenant and server, where the digests are apart. -/
theorem deriveGatewayRouteIdentity_names {tenantId serverName : Text} (ht : isDnsLabel tenantId)
    (hs : isServerName serverName) (hlength : serverName.length ≤ 200) :
    ∃ route, deriveGatewayRouteIdentity hashing tenantId serverName = some route ∧
      (route.tenantId = tenantId ∧ route.serverName = serverName) ∧
      isRegistryDigest route.identityDigest ∧ isDnsLabel route.resourceName ∧
      (isRoutePath route.routePath ∧ route.routePath.length ≤ 132) ∧
      (isRouteScope route.scope ∧ route.scope.length ≤ 131) ∧
      ∀ tenantId' serverName' route',
        deriveGatewayRouteIdentity hashing tenantId' serverName' = some route' →
        Apart hashing (lit "gateway-route-v1") (tenantId ++ 0 :: serverName)
          (tenantId' ++ 0 :: serverName') →
        Apart hashing (lit "gateway-tenant-v1") tenantId tenantId' →
        Apart hashing (lit "gateway-server-v1") serverName serverName' →
        (tenantId, serverName) ≠ (tenantId', serverName') →
          route.identityDigest ≠ route'.identityDigest ∧
          route.resourceName ≠ route'.resourceName ∧ route.routePath ≠ route'.routePath ∧
          route.scope ≠ route'.scope := by
  have hvalid := isValid_derivedRouteValues hashing ht hs hlength
  have hderived : deriveGatewayRouteIdentity hashing tenantId serverName =
      some (derivedRouteValues hashing tenantId serverName) := by
    rw [deriveGatewayRouteIdentity, ht, hs]
    exact if_pos hvalid
  simp only [GatewayRouteIdentity.isValid, Bool.and_eq_true, decide_eq_true_eq] at hvalid
  obtain ⟨⟨⟨⟨⟨-, hidentity⟩, hresource⟩, hpath⟩, hpathLength⟩, hscope⟩ := hvalid.1
  refine ⟨_, hderived, ⟨rfl, rfl⟩, hidentity, hresource, ⟨hpath, hpathLength⟩,
    ⟨hscope, hvalid.2⟩, fun tenantId' serverName' route' hroute' hrouteApart htenantApart
      hserverApart hne => ?_⟩
  obtain ⟨ht', -, rfl⟩ := derived_of_eq_some hashing hroute'
  have hdigest (domain t : Text) := isDigest_domainDigest hashing domain t
  have hslash (domain t u : Text) : 47 ∉ dnsIdentity u (domainDigest hashing domain t) :=
    notMem_dnsIdentity (hdigest domain t) u (by decide)
  have hcolon (domain t u : Text) : 58 ∉ dnsIdentity u (domainDigest hashing domain t) :=
    notMem_dnsIdentity (hdigest domain t) u (by decide)
  -- the digits of the whole identity tell the tenant and the server
  have hroute (htake : (domainDigest hashing (lit "gateway-route-v1")
      (tenantId ++ 0 :: serverName)).take 16 = (domainDigest hashing (lit "gateway-route-v1")
      (tenantId' ++ 0 :: serverName')).take 16) : False := by
    have hparts := congrArg (Text.partition 0) (hrouteApart htake)
    rw [Text.partition_append (zero_notMem_of_isDnsLabel ht),
      Text.partition_append (zero_notMem_of_isDnsLabel ht')] at hparts
    simp only [Prod.mk.injEq, Option.some.injEq] at hparts
    exact hne (Prod.ext hparts.1 hparts.2)
  -- and so do the digits of both segments
  have hsegments
      (htenant : dnsIdentity tenantId (domainDigest hashing (lit "gateway-tenant-v1") tenantId) =
        dnsIdentity tenantId' (domainDigest hashing (lit "gateway-tenant-v1") tenantId'))
      (hserver :
        dnsIdentity serverName (domainDigest hashing (lit "gateway-server-v1") serverName) =
          dnsIdentity serverName' (domainDigest hashing (lit "gateway-server-v1") serverName')) :
      False :=
    hne (Prod.ext (htenantApart (take_eq_of_dnsIdentity (hdigest _ _) (hdigest _ _) htenant))
      (hserverApart (take_eq_of_dnsIdentity (hdigest _ _) (hdigest _ _) hserver)))
  refine ⟨fun he => ?_, fun he => ?_, fun he => ?_, fun he => ?_⟩
  · exact hroute (congrArg (List.take 16) (List.append_cancel_left he))
  · exact hroute (take_eq_of_dnsIdentity (hdigest _ _) (hdigest _ _) he)
  · have hsplit := congrArg (Text.split 47) he
    simp only [derivedRouteValues, split_path (hslash _ _ _) (hslash _ _ _), List.cons.injEq,
      true_and, and_true] at hsplit
    exact hsegments hsplit.1 hsplit.2
  · have hsplit := congrArg (Text.split 58) he
    simp only [derivedRouteValues, split_scope (hcolon _ _ _) (hcolon _ _ _), List.cons.injEq,
      true_and, and_true] at hsplit
    exact hsegments hsplit.1 hsplit.2

/-- A server with capital letters, and characters that are hyphens in a name. -/
theorem deriveGatewayRouteIdentity_names_example :
    ∃ route, deriveGatewayRouteIdentity ⟨.plain, fun _ => ⟨List.replicate 64 48, isDigest_zeros⟩⟩
        (lit "t") (lit "X.y/Z_0") = some route ∧
      isDnsLabel route.resourceName ∧ route.scope.length ≤ 131 := by
  obtain ⟨route, h, -, -, hresource, -, hscope, -⟩ := deriveGatewayRouteIdentity_names
    ⟨.plain, fun _ => ⟨List.replicate 64 48, isDigest_zeros⟩⟩ (show isDnsLabel (lit "t") by decide)
    (show isServerName (lit "X.y/Z_0") by decide) (by decide)
  exact ⟨route, h, hresource, hscope.2⟩

end McpRuntime.Gateway
