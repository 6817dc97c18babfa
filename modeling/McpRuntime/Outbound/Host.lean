import McpRuntime.Outbound.Redirect
import McpRuntime.Python.Idna
import McpRuntime.Python.IpAddressText

/-!
# Canonical hosts

`_canonical_host` gives the text of an IP address, or what IDNA makes of a domain name. It looks
for spellings of addresses as numbers before IDNA maps the characters of the name, which can give
such a spelling.

* `stableHost_compressed`: the text of an address is kept;
* `stableHost_name_iff`: which names are kept;
* `canonicalHost_stable_iff`: the host that is given is stable for an address, for a name in ASCII,
  and otherwise where IDNA does not give a long name or a number.
-/

namespace McpRuntime.Outbound

variable {URL : Type}

/-- The libraries, with `ipaddress` and the codec `idna` of the standard library. -/
def HTTPLibrary.standard (library : HTTPLibrary URL) (tables : Stringprep) (dotted : Bool) :
    HTTPLibrary URL :=
  { library with
    ipAddress := fun host => (IpAddress.parse host).map (IpAddress.compressed dotted)
    idna := idnaEncode tables }

variable (library : HTTPLibrary URL) (tables : Stringprep) (dotted : Bool)

/-! ## Stable hosts -/

/-- A text is the canonical one of an address. -/
def IsCanonicalIp (host : Text) : Prop :=
  ∃ ip, IpAddress.parse host = some ip ∧ ip.compressed dotted = host

/-- A text is made of the labels of a domain name. -/
def isDnsName (host : Text) : Bool := (host.split 46).all isDnsLabel

/-- A host is kept, and is a canonical address, or a domain name that is no number. -/
structure StableHost (host : Text) : Prop where
  kept : canonicalHost (library.standard tables dotted) host = some host
  kind : IsCanonicalIp dotted host ∨ (isDnsName host = true ∧ isNumericHost host = false)

/-- A host without a dot at its end. -/
def hostCandidate (value : Text) : Text :=
  if value.getLast? = some 46 then value.dropLast else value

/-- What IDNA makes of a host. -/
def idnaName (host : Text) : Option Text :=
  (idnaEncode tables host).map (Text.casefold library.unicode)

/-- The host of a text that passes the first checks. -/
theorem canonicalHost_standard {value : Text}
    (h : ¬ (value = [] || value ≠ value.strip || value.length > 253 ||
      value.any fun c => (lit "/@%?#").elem c) = true) :
    canonicalHost (library.standard tables dotted) value =
      match IpAddress.parse (hostCandidate value) with
      | some ip => some (ip.compressed dotted)
      | none =>
        if isNumericHost (hostCandidate value) then none
        else (idnaName library tables (hostCandidate value)).filter isDnsName := by
  rw [canonicalHost, if_neg h]
  dsimp only [HTTPLibrary.standard]
  rw [← hostCandidate]
  cases hparse : IpAddress.parse (hostCandidate value) with
  | some ip => rfl
  | none =>
    rw [Option.map_none, idnaName]
    dsimp only
    cases hencoded : idnaEncode tables (hostCandidate value) with
    | none => rfl
    | some ascii => rfl

/-! ## Characters -/

/-- The characters of a host. -/
def isHostChar (c : CodePoint) : Bool :=
  45 ≤ c.val && c.val ≤ 122 && c.val ≠ 47 && c.val ≠ 63 && c.val ≠ 64

theorem isHostChar_of_isAddressChar {c : CodePoint} (h : isAddressChar c = true) :
    isHostChar c = true := by
  have hrange : 46 ≤ c.val ∧ c.val ≤ 102 ∧ c.val ≠ 47 ∧ c.val ≠ 63 ∧ c.val ≠ 64 := by
    simp only [isAddressChar, Bool.or_eq_true, decide_eq_true_eq] at h
    rcases h with (h | rfl) | rfl
    · rw [hexNumber, CodePoint.isDigit] at h
      split_ifs at h with hdigit
      · simp only [Bool.and_eq_true, decide_eq_true_eq] at hdigit
        omega
      · omega
      · omega
      · cases h
    · decide
    · decide
  simp only [isHostChar, Bool.and_eq_true, decide_eq_true_eq]
  omega

theorem isHostChar_of_isKeyPart {c : CodePoint} (h : isKeyPart c = true ∨ c = 45 ∨ c = 46) :
    isHostChar c = true := by
  rcases h with h | rfl | rfl
  · simp only [isKeyPart, Bool.or_eq_true, Bool.and_eq_true, decide_eq_true_eq] at h
    simp only [isHostChar, Bool.and_eq_true, decide_eq_true_eq]
    omega
  · rfl
  · rfl

/-- The characters of a domain name: lower-case letters, digits, hyphens and dots. -/
theorem chars_of_isDnsName {host : Text} (h : isDnsName host = true) :
    ∀ c ∈ host, isKeyPart c = true ∨ c = 45 ∨ c = 46 := by
  intro c hc
  by_cases hdot : c = 46
  · exact .inr (.inr hdot)
  · obtain ⟨part, hpart, hmem⟩ := Text.exists_part_of_mem hdot hc
    have hlabel := List.all_eq_true.1 h part hpart
    simp only [isDnsLabel, Bool.and_eq_true, List.all_eq_true, Bool.or_eq_true,
      decide_eq_true_eq] at hlabel
    rcases hlabel.1.1.2 c hmem with hkey | hhyphen
    · exact .inl hkey
    · exact .inr (.inl hhyphen)

/-- A text in ASCII is folded character by character. -/
theorem casefold_eq_map (unicode : UnicodeTable) {t : Text} (h : t.isAscii = true) :
    t.casefold unicode = t.map CodePoint.asciiLower := by
  rw [Text.isAscii, List.all_eq_true] at h
  induction t with
  | nil => rfl
  | cons c t ih =>
    rw [List.forall_mem_cons] at h
    rw [Text.casefold, List.flatMap_cons, if_pos (of_decide_eq_true h.1), List.map_cons]
    exact congrArg (c.asciiLower :: ·) (ih h.2)

theorem length_casefold (unicode : UnicodeTable) {t : Text} (h : t.isAscii = true) :
    (t.casefold unicode).length = t.length := by
  rw [casefold_eq_map unicode h, List.length_map]

/-- A text of the characters of hosts passes the first checks. -/
theorem passes_checks {host : Text} (hne : host ≠ []) (hlength : host.length ≤ 253)
    (hchars : ∀ c ∈ host, isHostChar c = true) :
    ¬ (host = [] || host ≠ host.strip || host.length > 253 ||
      host.any fun c => (lit "/@%?#").elem c) = true := by
  have hspace : ∀ c ∈ host, c.isSpace = false := fun c hc => by
    have hc := hchars c hc
    simp only [isHostChar, Bool.and_eq_true, decide_eq_true_eq] at hc
    rw [← Bool.not_eq_true]
    simp only [CodePoint.isSpace, Bool.or_eq_true, Bool.and_eq_true, decide_eq_true_eq,
      beq_iff_eq]
    omega
  have hstrip : host.strip = host := Text.strip_eq_self
    (fun c hc => hspace c (List.mem_of_mem_head? hc)) fun c hc => hspace c (List.mem_of_getLast? hc)
  have hforbidden : host.any (fun c => (lit "/@%?#").elem c) = false := by
    rw [List.any_eq_false]
    intro c hc hmem
    have hall : (lit "/@%?#").all (fun c => !isHostChar c) = true := by decide
    have := List.all_eq_true.1 hall c (List.elem_iff.1 hmem)
    rw [hchars c hc] at this
    exact Bool.noConfusion this
  rw [hstrip, hforbidden]
  simp [hne, hlength]

/-! ## Addresses -/

/-- The text of an address is kept. -/
theorem stableHost_compressed {ip : IpAddress} (h : ip.InRange) :
    StableHost library tables dotted (ip.compressed dotted) := by
  have hparse := parse_compressed dotted h
  have hne : ip.compressed dotted ≠ [] := by
    intro hnil
    rw [hnil] at hparse
    exact absurd hparse (by rw [(by decide : IpAddress.parse [] = none)]; exact nofun)
  have hchecks := passes_checks hne (length_compressed dotted ip) fun c hc =>
    isHostChar_of_isAddressChar (isAddressChar_of_compressed hc)
  refine ⟨?_, .inl ⟨ip, hparse, rfl⟩⟩
  rw [canonicalHost_standard library tables dotted hchecks, hostCandidate,
    if_neg (getLast?_compressed dotted ip), hparse]

/-! ## Names -/

/-- A text without colons is no address of version 6. -/
theorem parseIpv6_of_notMem {host : Text} (h : (58 : CodePoint) ∉ host) : parseIpv6 host = none := by
  have hvalue : ∀ t : Text, (58 : CodePoint) ∉ t → parseIpv6Value t = none := by
    intro t ht
    rw [parseIpv6Value, Text.split_of_notMem ht]
    rfl
  rw [parseIpv6]
  split_ifs
  · rfl
  · rw [Text.partition]
    split
    · next address heq =>
      split at heq
      · obtain rfl := (Prod.mk.inj heq).1
        exact hvalue _ h
      · cases heq
    · next address scope heq =>
      split at heq
      · cases heq
      · obtain rfl := (Prod.mk.inj heq).1
        split_ifs
        · rfl
        · exact hvalue _ fun hmem => h ((List.takeWhile_prefix _).subset hmem)

/-- The parts of an address of version 4 are numbers. -/
theorem isNumericHost_of_parseIpv4 {host : Text} {value : ℕ} (h : parseIpv4 host = some value) :
    isNumericHost host = true := by
  obtain ⟨a, b, c, d, hparts, -⟩ := exists_octets h
  simp only [isNumericHost, List.all_eq_true]
  intro part hpart
  obtain ⟨n, -, hn⟩ := exists_of_forall₂ hparts hpart
  rw [parseOctet] at hn
  split_ifs at hn with hoctet
  have hdigits := List.all_eq_true.1 hoctet.2.1
  rw [Bool.or_eq_true, Bool.and_eq_true, decide_eq_true_iff, List.all_eq_true]
  exact .inl ⟨hoctet.1, hdigits⟩

/-- An address that is spelled as a name is spelled as numbers. -/
theorem isNumericHost_of_parse {host : Text} {ip : IpAddress} (hname : isDnsName host = true)
    (h : IpAddress.parse host = some ip) : isNumericHost host = true := by
  have hcolon : (58 : CodePoint) ∉ host := fun hmem =>
    absurd (chars_of_isDnsName hname 58 hmem) (by decide)
  rw [IpAddress.parse, parseIpv6_of_notMem hcolon] at h
  cases hv4 : parseIpv4 host with
  | none =>
    rw [hv4] at h
    cases h
  | some value => exact isNumericHost_of_parseIpv4 hv4

/-- The characters of a name are ASCII, in lower case. -/
theorem casefold_of_isDnsName (unicode : UnicodeTable) {host : Text}
    (hname : isDnsName host = true) : host.isAscii = true ∧ host.casefold unicode = host := by
  have hchars := chars_of_isDnsName hname
  have hrange : ∀ c ∈ host, c.val < 0x80 ∧ c.asciiLower = c := by
    intro c hc
    rcases hchars c hc with h | rfl | rfl
    · simp only [isKeyPart, Bool.or_eq_true, Bool.and_eq_true, decide_eq_true_eq] at h
      refine ⟨by omega, if_neg ?_⟩
      simp only [Bool.and_eq_true, decide_eq_true_eq]
      omega
    · exact ⟨by decide, rfl⟩
    · exact ⟨by decide, rfl⟩
  have hascii : host.isAscii = true :=
    List.all_eq_true.2 fun c hc => decide_eq_true (hrange c hc).1
  refine ⟨hascii, ?_⟩
  rw [casefold_eq_map unicode hascii]
  exact (List.map_congr_left fun c hc => (hrange c hc).2).trans (List.map_id host)

/-- A name is not empty, and does not end with a dot. -/
theorem getLast?_of_isDnsName {host : Text} (hname : isDnsName host = true) :
    host ≠ [] ∧ host.getLast? ≠ some 46 := by
  have hempty : ([] : Text) ∉ host.split 46 := fun hmem =>
    absurd (List.all_eq_true.1 hname [] hmem) (by decide)
  constructor
  · rintro rfl
    exact hempty List.mem_cons_self
  · intro hdot
    obtain ⟨first, rfl⟩ := List.getLast?_eq_some_iff.1 hdot
    rw [Text.split_append] at hempty
    exact hempty (List.mem_append_right _ List.mem_cons_self)

/-- A name is kept where it is not too long, and no number but a canonical address. -/
theorem stableHost_name_iff {host : Text} (hname : isDnsName host = true) :
    StableHost library tables dotted host ↔
      host.length ≤ 253 ∧ (isNumericHost host = true → IsCanonicalIp dotted host) := by
  obtain ⟨hne, hdot⟩ := getLast?_of_isDnsName hname
  constructor
  · rintro ⟨hkept, hkind⟩
    refine ⟨?_, fun hnumeric => hkind.resolve_right fun h => ?_⟩
    · by_contra hlong
      rw [canonicalHost, if_pos (by simp [Nat.lt_of_not_le hlong])] at hkept
      cases hkept
    · rw [h.2] at hnumeric
      exact Bool.noConfusion hnumeric
  · rintro ⟨hlength, hcanonical⟩
    have hchecks := passes_checks hne hlength fun c hc =>
      isHostChar_of_isKeyPart (chars_of_isDnsName hname c hc)
    have hcandidate : hostCandidate host = host := if_neg hdot
    have hkept := canonicalHost_standard library tables dotted hchecks
    rw [hcandidate] at hkept
    -- A name that is an address is kept as the canonical one; any other goes through IDNA.
    cases hparse : IpAddress.parse host with
    | some ip =>
      obtain ⟨ip', hip, hcompressed⟩ := hcanonical (isNumericHost_of_parse hname hparse)
      obtain rfl := Option.some.inj (hparse.symm.trans hip)
      rw [hparse] at hkept
      exact ⟨hkept.trans (congrArg some hcompressed), .inl ⟨ip, hparse, hcompressed⟩⟩
    | none =>
      have hnumeric : isNumericHost host = false := by
        rw [← Bool.not_eq_true]
        intro hnumeric
        obtain ⟨ip, hip, -⟩ := hcanonical hnumeric
        rw [hparse] at hip
        cases hip
      obtain ⟨hascii, hfold⟩ := casefold_of_isDnsName library.unicode hname
      have hlabels : ∀ label ∈ host.split 46, 0 < label.length ∧ label.length < 64 := by
        intro label hlabel
        have hlabel := List.all_eq_true.1 hname label hlabel
        simp only [isDnsLabel, Bool.and_eq_true, decide_eq_true_eq] at hlabel
        refine ⟨List.length_pos_iff.2 ?_, Nat.lt_succ_of_le hlabel.1.1.1⟩
        rintro rfl
        exact absurd hlabel.1.2 Bool.false_ne_true
      rw [hparse, hnumeric, idnaName, idnaEncode_of_labels hascii hlabels, Option.map_some,
        hfold] at hkept
      refine ⟨hkept.trans ?_, .inr ⟨hname, hnumeric⟩⟩
      exact Option.filter_eq_some_iff.2 ⟨rfl, hname⟩

/-! ## Names in ASCII -/

theorem val_asciiLower (c : CodePoint) :
    c.asciiLower.val = if 65 ≤ c.val ∧ c.val ≤ 90 then c.val + 32 else c.val := by
  rw [CodePoint.asciiLower]
  simp only [Bool.and_eq_true, decide_eq_true_eq]
  split_ifs with hupper
  · rw [Fin.val_ofNat, Nat.mod_eq_of_lt (by omega)]
  · rfl

/-- The parts of a text in lower case. -/
theorem split_map_asciiLower (t : Text) : Text.split 46 (t.map CodePoint.asciiLower) =
    (t.split 46).map (List.map CodePoint.asciiLower) := by
  have hdot : ∀ c : CodePoint, c.asciiLower = 46 ↔ c = 46 := by
    intro c
    have hlower := val_asciiLower c
    rw [Fin.ext_iff, Fin.ext_iff, hlower]
    change _ = 46 ↔ c.val = 46
    split_ifs
    · omega
    · exact Iff.rfl
  induction t with
  | nil => rfl
  | cons c t ih =>
    obtain ⟨part, parts, hparts⟩ := List.exists_cons_of_ne_nil (Text.split_ne_nil 46 t)
    rw [List.map_cons, Text.split, Text.split, ih, hparts, List.map_cons]
    dsimp only
    by_cases hc : c = 46
    · rw [if_pos ((hdot c).2 hc), if_pos hc]
      rfl
    · rw [if_neg (mt (hdot c).1 hc), if_neg hc]
      rfl

/-- Lower case does not change what is a number. -/
theorem isNumericHost_casefold (unicode : UnicodeTable) {host : Text} (h : host.isAscii = true) :
    isNumericHost (host.casefold unicode) = isNumericHost host := by
  have hall : ∀ (p : CodePoint → Bool), (∀ c : CodePoint, p c.asciiLower = p c) → ∀ t : Text,
      (t.map CodePoint.asciiLower).all p = t.all p := by
    intro p hp t
    rw [List.all_map]
    exact congrArg t.all (funext hp)
  -- Each class of characters that the numbers are made of is closed under lower case.
  have hdigit : ∀ c : CodePoint, (48 ≤ c.asciiLower.val && c.asciiLower.val ≤ 57) =
      (48 ≤ c.val && c.val ≤ 57) := by
    intro c
    rw [val_asciiLower, Bool.eq_iff_iff]
    simp only [Bool.and_eq_true, decide_eq_true_eq]
    split_ifs <;> omega
  have hhex : ∀ c : CodePoint, ((48 ≤ c.asciiLower.val && c.asciiLower.val ≤ 57) ||
      (65 ≤ c.asciiLower.val && c.asciiLower.val ≤ 70) ||
        (97 ≤ c.asciiLower.val && c.asciiLower.val ≤ 102)) =
      ((48 ≤ c.val && c.val ≤ 57) || (65 ≤ c.val && c.val ≤ 70) ||
        (97 ≤ c.val && c.val ≤ 102)) := by
    intro c
    rw [val_asciiLower, Bool.eq_iff_iff]
    simp only [Bool.or_eq_true, Bool.and_eq_true, decide_eq_true_eq]
    split_ifs <;> omega
  have hmark : ∀ c : CodePoint, (c.asciiLower = 120 || c.asciiLower = 88 : Bool) =
      (c = 120 || c = 88 : Bool) := by
    intro c
    have hlower := val_asciiLower c
    rw [Bool.eq_iff_iff]
    simp only [Bool.or_eq_true, decide_eq_true_eq, Fin.ext_iff, hlower]
    change (_ = 120 ∨ _ = 88) ↔ (c.val = 120 ∨ c.val = 88)
    split_ifs <;> omega
  have hzero : ∀ c : CodePoint, (c.asciiLower = 48 : Bool) = (c = 48 : Bool) := by
    intro c
    have hlower := val_asciiLower c
    rw [Bool.eq_iff_iff]
    simp only [decide_eq_true_eq, Fin.ext_iff, hlower]
    change _ = 48 ↔ c.val = 48
    split_ifs <;> omega
  rw [casefold_eq_map unicode h]
  simp only [isNumericHost, split_map_asciiLower, List.all_map]
  refine congrArg (host.split 46).all (funext fun part => ?_)
  dsimp only [Function.comp_apply]
  rw [hall _ hdigit]
  cases part with
  | nil => rfl
  | cons zero part =>
    cases part with
    | nil => rfl
    | cons x rest =>
      simp only [List.map_cons]
      rw [hzero, hmark, hall _ hhex]
      cases rest <;> rfl

/-- IDNA gives a short name that is no number but a canonical address. -/
def MapsPlainly (host : Text) : Prop :=
  ∀ name, idnaName library tables host = some name →
    name.length ≤ 253 ∧ (isNumericHost name = true → IsCanonicalIp dotted name)

/-- The tables of `stringprep` on ASCII and its full-width forms, which NFKC maps to ASCII. -/
def fullWidthTables : Stringprep where
  inTableB1 := fun _ => false
  mapTableB2 := fun c => [c.asciiLower]
  nfkc := List.map fun c =>
    if 0xFF01 ≤ c.val && c.val ≤ 0xFF5E then Fin.ofNat 0x110000 (c.val - 0xFEE0) else c
  isProhibited := CodePoint.isSurrogate
  inTableD1 := fun _ => false
  inTableD2 := fun _ => false

/-- The host that is given is stable exactly for an address, for a name in ASCII, and for a name
    that IDNA maps plainly. -/
theorem canonicalHost_stable_iff {value host : Text}
    (h : canonicalHost (library.standard tables dotted) value = some host) :
    StableHost library tables dotted host ↔
      (IpAddress.parse (hostCandidate value)).isSome = true ∨
        (hostCandidate value).isAscii = true ∨
          MapsPlainly library tables dotted (hostCandidate value) := by
  by_cases hchecks : (value = [] || value ≠ value.strip || value.length > 253 ||
      value.any fun c => (lit "/@%?#").elem c) = true
  · rw [canonicalHost, if_pos hchecks] at h
    cases h
  have hlength : value.length ≤ 253 := by
    simp only [Bool.or_eq_true, decide_eq_true_eq, not_or, not_lt] at hchecks
    exact hchecks.1.2
  rw [canonicalHost_standard library tables dotted hchecks] at h
  cases hparse : IpAddress.parse (hostCandidate value) with
  | some ip =>
    rw [hparse] at h
    obtain rfl := Option.some.inj h
    exact iff_of_true (stableHost_compressed library tables dotted (inRange_of_parse hparse))
      (.inl rfl)
  | none =>
    rw [hparse] at h
    dsimp only at h
    split_ifs at h with hnumeric
    obtain ⟨hmapped, hname⟩ := Option.filter_eq_some_iff.1 h
    rw [stableHost_name_iff library tables dotted hname]
    constructor
    · rintro hkept
      refine .inr (.inr fun name hmapped' => ?_)
      obtain rfl := Option.some.inj (hmapped.symm.trans hmapped')
      exact hkept
    · rintro (hsome | hascii | hplain)
      · cases hsome
      · -- the check for numbers has seen the name as it is, in another case at most
        obtain ⟨form, hform, rfl⟩ := Option.map_eq_some_iff.1 hmapped
        obtain rfl := idnaEncode_ascii hascii hform
        rw [isNumericHost_casefold _ hascii]
        refine ⟨?_, fun hnumeric' => absurd hnumeric' hnumeric⟩
        rw [length_casefold _ hascii]
        refine le_trans ?_ hlength
        rw [hostCandidate]
        split_ifs
        · exact (List.length_dropLast).trans_le (Nat.sub_le _ _)
        · exact le_rfl
      · exact hplain host hmapped

theorem canonicalHost_stable_iff_example :
    canonicalHost (plainLibrary.standard fullWidthTables true) (lit "Billing.Example.") =
      some (lit "billing.example") ∧
    (StableHost plainLibrary fullWidthTables true (lit "billing.example") ↔
      (IpAddress.parse (hostCandidate (lit "Billing.Example."))).isSome = true ∨
        (hostCandidate (lit "Billing.Example.")).isAscii = true ∨
          MapsPlainly plainLibrary fullWidthTables true
            (hostCandidate (lit "Billing.Example."))) :=
  have h : canonicalHost (plainLibrary.standard fullWidthTables true) (lit "Billing.Example.") =
      some (lit "billing.example") := by decide +kernel
  ⟨h, canonicalHost_stable_iff plainLibrary fullWidthTables true h⟩

/-- An address that is spelled with full-width digits becomes one that is spelled with digits. -/
theorem canonicalHost_number : ¬ ∀ (library : HTTPLibrary Text) (tables : Stringprep)
    (dotted : Bool) (value host : Text),
    canonicalHost (library.standard tables dotted) value = some host →
      StableHost library tables dotted host := by
  intro h
  have hhost : canonicalHost (plainLibrary.standard fullWidthTables true)
      [0xFF11, 0xFF12, 0xFF17, 46, 0xFF11] = some (lit "127.1") := by decide +kernel
  have hagain : canonicalHost (plainLibrary.standard fullWidthTables true) (lit "127.1") =
      none := by decide +kernel
  have hkept := (h plainLibrary fullWidthTables true _ _ hhost).kept
  rw [hagain] at hkept
  cases hkept

end McpRuntime.Outbound
