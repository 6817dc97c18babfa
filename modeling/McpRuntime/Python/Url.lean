import McpRuntime.Python.IpAddress
import McpRuntime.Python.Utf8

/-!
# URLs

`urllib.parse.urlsplit` and `urllib.parse.unquote`.

`unquote` decodes each run of ASCII characters on its own, as bytes, and leaves the other
characters as they are. A character that is no part of an escape, whatever its neighbours are
(`CodePoint.Inert`), stays where it is, with the text on both sides unquoted on its own
(`unquote_append_inert`): what such characters make up is still there after any number of
passes. A pass that changes a text makes it shorter (`unquote_eq_or_lt`).

The normalization form NFKC, which `urlsplit` asks of the authority, is a parameter.
-/

namespace McpRuntime

/-! ## Percent-encoding -/

/-- The byte of the escape of the characters. -/
def escapedByte (c a b : CodePoint) : Option UInt8 := do
  if c = 37 then some (UInt8.ofNat (16 * (← hexNumber a) + (← hexNumber b))) else none

/-- `unquote_to_bytes`, of ASCII characters. -/
def unquoteToBytes : Text → List UInt8
  | c :: a :: b :: t =>
    match escapedByte c a b with
    | some byte => byte :: unquoteToBytes t
    | none => UInt8.ofNat c.val :: unquoteToBytes (a :: b :: t)
  | [c, a] => [UInt8.ofNat c.val, UInt8.ofNat a.val]
  | [c] => [UInt8.ofNat c.val]
  | [] => []

/-- A run of ASCII characters, unquoted. -/
def unquoteRun (run : Text) : Text := decodeReplace (unquoteToBytes run)

/-- `_generate_unquoted_parts`: the run of ASCII characters at the front, and the rest with
    its runs unquoted. -/
def unquotedParts : Text → Text × Text
  | [] => ([], [])
  | c :: t =>
    let parts := unquotedParts t
    if c.val < 0x80 then (c :: parts.1, parts.2) else ([], c :: (unquoteRun parts.1 ++ parts.2))

/-- `urllib.parse.unquote`. -/
def unquote (t : Text) : Text :=
  if 37 ∈ t then unquoteRun (unquotedParts t).1 ++ (unquotedParts t).2 else t

/-! ### Characters that stay -/

/-- A character is no part of an escape. -/
def CodePoint.Inert (c : CodePoint) : Prop := c ≠ 37 ∧ hexNumber c = none

/-- A byte that starts no escape is a byte of its own. -/
theorem unquoteToBytes_cons {c : CodePoint} {t : Text}
    (h : ∀ a b t', t = a :: b :: t' → escapedByte c a b = none) :
    unquoteToBytes (c :: t) = UInt8.ofNat c.val :: unquoteToBytes t := by
  match t with
  | [] => rfl
  | [_] => rfl
  | a :: b :: t' => rw [unquoteToBytes, h a b t' rfl]

/-- An escape has no inert character. -/
theorem escapedByte_of_inert {c a b : CodePoint} (h : c.Inert ∨ a.Inert ∨ b.Inert) :
    escapedByte c a b = none := by
  rw [escapedByte]
  split_ifs with hc
  · rcases h with h | h | h
    · exact absurd hc h.1
    · rw [h.2]
      rfl
    · rw [h.2]
      cases hexNumber a <;> rfl
  · rfl

/-- What is before an inert character, and what is after it, are unquoted on their own. -/
theorem unquoteToBytes_append_inert {c : CodePoint} (hc : c.Inert) (u v : Text) :
    unquoteToBytes (u ++ c :: v) = unquoteToBytes u ++ UInt8.ofNat c.val :: unquoteToBytes v := by
  induction u using unquoteToBytes.induct with
  | case1 d a b t byte hbyte ih =>
    rw [List.cons_append, List.cons_append, List.cons_append, unquoteToBytes, unquoteToBytes, hbyte]
    exact congrArg _ ih
  | case2 d a b t hbyte ih =>
    rw [List.cons_append, List.cons_append, List.cons_append, unquoteToBytes, unquoteToBytes, hbyte]
    exact congrArg _ ih
  | case3 d a =>
    -- Two characters before the inert one: neither begins an escape, which would have it as a
    -- digit.
    have hd : unquoteToBytes (d :: a :: c :: v) = UInt8.ofNat d.val :: unquoteToBytes (a :: c :: v) :=
      unquoteToBytes_cons fun a' b' t' he => by
        cases he
        exact escapedByte_of_inert (.inr (.inr hc))
    have ha : unquoteToBytes (a :: c :: v) = UInt8.ofNat a.val :: unquoteToBytes (c :: v) :=
      unquoteToBytes_cons fun a' b' t' he => by
        cases he
        exact escapedByte_of_inert (.inr (.inl hc))
    have hcv : unquoteToBytes (c :: v) = UInt8.ofNat c.val :: unquoteToBytes v :=
      unquoteToBytes_cons fun a' b' t' _ => escapedByte_of_inert (.inl hc)
    exact hd.trans (congrArg _ (ha.trans (congrArg _ hcv)))
  | case4 d =>
    have hd : unquoteToBytes (d :: c :: v) = UInt8.ofNat d.val :: unquoteToBytes (c :: v) :=
      unquoteToBytes_cons fun a' b' t' he => by
        cases he
        exact escapedByte_of_inert (.inr (.inl hc))
    have hcv : unquoteToBytes (c :: v) = UInt8.ofNat c.val :: unquoteToBytes v :=
      unquoteToBytes_cons fun a' b' t' _ => escapedByte_of_inert (.inl hc)
    exact hd.trans (congrArg _ hcv)
  | case5 => exact unquoteToBytes_cons fun a' b' t' _ => escapedByte_of_inert (.inl hc)

/-- The byte of an ASCII character. -/
theorem toNat_byte {c : CodePoint} (h : c.val < 0x80) : (UInt8.ofNat c.val).toNat = c.val := by
  rw [UInt8.toNat_ofNat']
  exact Nat.mod_eq_of_lt (by omega)

theorem ofNat_byte {c : CodePoint} (h : c.val < 0x80) :
    Fin.ofNat 0x110000 (UInt8.ofNat c.val).toNat = c := by
  rw [toNat_byte h]
  exact Fin.ext (Nat.mod_eq_of_lt c.isLt)

/-- ASCII characters are decoded from their bytes. -/
theorem decodeReplace_ascii {t : Text} (h : ∀ c ∈ t, c.val < 0x80) :
    decodeReplace (t.map fun c => UInt8.ofNat c.val) = t := by
  induction t with
  | nil => rfl
  | cons c t ih =>
    have hc := h c List.mem_cons_self
    have hsplit := decodeReplace_append_ascii (by rwa [toNat_byte hc]) []
      (t.map fun d => UInt8.ofNat d.val)
    rw [List.nil_append, ofNat_byte hc, ih fun d hd => h d (List.mem_cons_of_mem _ hd)] at hsplit
    exact hsplit

theorem unquoteRun_append_inert {c : CodePoint} (hc : c.Inert) (hascii : c.val < 0x80)
    (u v : Text) : unquoteRun (u ++ c :: v) = unquoteRun u ++ c :: unquoteRun v := by
  rw [unquoteRun, unquoteToBytes_append_inert hc,
    decodeReplace_append_ascii (by rwa [toNat_byte hascii]), ofNat_byte hascii]
  rfl

/-- A text with its runs unquoted. -/
def unquoteAll (t : Text) : Text := unquoteRun (unquotedParts t).1 ++ (unquotedParts t).2

/-- ASCII characters at the front are in the first run. -/
theorem unquotedParts_append {u : Text} (hu : ∀ c ∈ u, c.val < 0x80) (t : Text) :
    unquotedParts (u ++ t) = (u ++ (unquotedParts t).1, (unquotedParts t).2) := by
  induction u with
  | nil => rfl
  | cons c u ih =>
    rw [List.cons_append, unquotedParts, ih fun d hd => hu d (List.mem_cons_of_mem _ hd),
      if_pos (hu c List.mem_cons_self)]
    rfl

/-- The run at the front ends at a character beyond ASCII. -/
theorem unquoteAll_append_cons {u : Text} (hu : ∀ c ∈ u, c.val < 0x80) {c : CodePoint}
    (hc : ¬ c.val < 0x80) (t : Text) :
    unquoteAll (u ++ c :: t) = unquoteRun u ++ c :: unquoteAll t := by
  have hparts : unquotedParts (c :: t) = ([], c :: unquoteAll t) := by
    rw [unquotedParts, if_neg hc]
    rfl
  rw [unquoteAll, unquotedParts_append hu, hparts, List.append_nil]

theorem unquoteAll_of_ascii {u : Text} (hu : ∀ c ∈ u, c.val < 0x80) :
    unquoteAll u = unquoteRun u := by
  have h := unquotedParts_append hu []
  rw [List.append_nil] at h
  rw [unquoteAll, h]
  exact (List.append_nil _).trans (congrArg _ (List.append_nil _))

/-- Induction over the runs of ASCII characters of a text. -/
theorem run_induction {motive : Text → Prop} (run : ∀ u, (∀ c ∈ u, c.val < 0x80) → motive u)
    (cons : ∀ u c t, (∀ c ∈ u, c.val < 0x80) → ¬ c.val < 0x80 → motive t → motive (u ++ c :: t))
    (t : Text) : motive t := by
  suffices h : ∀ u : Text, (∀ c ∈ u, c.val < 0x80) → motive (u ++ t) from
    h [] (List.forall_mem_nil _)
  induction t with
  | nil =>
    intro u hu
    rw [List.append_nil]
    exact run u hu
  | cons c t ih =>
    intro u hu
    by_cases hc : c.val < 0x80
    · have h := ih (u ++ [c]) fun d hd =>
        (List.mem_append.1 hd).elim (hu d) fun hd => by rwa [List.mem_singleton.1 hd]
      rwa [List.append_assoc u [c] t] at h
    · exact cons u c t hu hc (ih [] (List.forall_mem_nil _))

/-- What is before an inert character, and what is after it, are unquoted on their own. -/
theorem unquoteAll_append_inert {c : CodePoint} (hc : c.Inert) (u v : Text) :
    unquoteAll (u ++ c :: v) = unquoteAll u ++ c :: unquoteAll v := by
  induction u using run_induction with
  | run u hu =>
    rw [unquoteAll_of_ascii hu]
    by_cases hascii : c.val < 0x80
    · rw [unquoteAll, unquotedParts_append hu, unquotedParts, if_pos hascii]
      dsimp only
      rw [unquoteRun_append_inert hc hascii, List.append_assoc]
      rfl
    · exact unquoteAll_append_cons hu hascii v
  | cons u d t hu hd ih =>
    rw [List.append_assoc, List.cons_append, unquoteAll_append_cons hu hd,
      unquoteAll_append_cons hu hd, ih, List.append_assoc, List.cons_append]

/-- A text without an escape is not changed. -/
theorem unquoteAll_of_notMem {t : Text} (h : 37 ∉ t) : unquoteAll t = t := by
  have hbytes : ∀ t : Text, 37 ∉ t → unquoteToBytes t = t.map fun c => UInt8.ofNat c.val := by
    intro t h
    induction t with
    | nil => rfl
    | cons c t ih =>
      rw [List.mem_cons, not_or] at h
      have hc : unquoteToBytes (c :: t) = UInt8.ofNat c.val :: unquoteToBytes t :=
        unquoteToBytes_cons fun a b t' _ => if_neg (Ne.symm h.1)
      rw [hc, ih h.2, List.map_cons]
  induction t using run_induction with
  | run u hu => rw [unquoteAll_of_ascii hu, unquoteRun, hbytes u h, decodeReplace_ascii hu]
  | cons u c t hu hc ih =>
    rw [List.mem_append, List.mem_cons, not_or, not_or] at h
    rw [unquoteAll_append_cons hu hc, ih h.2.2, unquoteRun, hbytes u h.1, decodeReplace_ascii hu]

/-- A pass over a text is the pass over its runs. -/
theorem unquote_eq (t : Text) : unquote t = unquoteAll t := by
  rw [unquote]
  split_ifs with h
  · rfl
  · exact (unquoteAll_of_notMem h).symm

/-- What is before an inert character, and what is after it, are unquoted on their own. -/
theorem unquote_append_inert {c : CodePoint} (hc : c.Inert) (u v : Text) :
    unquote (u ++ c :: v) = unquote u ++ c :: unquote v := by
  rw [unquote_eq, unquote_eq, unquote_eq, unquoteAll_append_inert hc]

/-- An inert character is still there after a pass. -/
theorem mem_unquote {c : CodePoint} (hc : c.Inert) {t : Text} (h : c ∈ t) : c ∈ unquote t := by
  obtain ⟨u, v, rfl⟩ := List.append_of_mem h
  rw [unquote_append_inert hc]
  exact List.mem_append_right _ List.mem_cons_self

/-- Inert characters alone are not changed. -/
theorem unquote_of_inert {t : Text} (h : ∀ c ∈ t, c.Inert) : unquote t = t := by
  rw [unquote_eq]
  exact unquoteAll_of_notMem fun hmem => (h 37 hmem).1 rfl

/-- A part of inert characters, between separators that are inert, is still there after a
    pass. -/
theorem mem_split_unquote {separator : CodePoint} (hseparator : separator.Inert) {part : Text}
    (hpart : ∀ c ∈ part, c.Inert) {t : Text} (h : part ∈ t.split separator) :
    part ∈ (unquote t).split separator := by
  induction hn : t.length using Nat.strong_induction_on generalizing t with
  | _ n ih =>
    by_cases hmem : separator ∈ t
    · obtain ⟨u, v, rfl⟩ := List.append_of_mem hmem
      simp only [List.length_append, List.length_cons] at hn
      rw [unquote_append_inert hseparator, Text.split_append, List.mem_append]
      rw [Text.split_append, List.mem_append] at h
      exact h.imp (fun h => ih u.length (by omega) h rfl) fun h => ih v.length (by omega) h rfl
    · rw [Text.split_of_notMem hmem, List.mem_singleton] at h
      subst h
      rw [unquote_of_inert hpart, Text.split_of_notMem hmem]
      exact List.mem_singleton_self _

/-! ### Each pass makes a text shorter -/

/-- Without an escape the bytes are those of the characters. -/
theorem unquoteToBytes_eq_or_lt (t : Text) :
    unquoteToBytes t = t.map (fun c => UInt8.ofNat c.val) ∨ (unquoteToBytes t).length < t.length := by
  induction t using unquoteToBytes.induct with
  | case1 c a b t byte hbyte ih =>
    -- An escape is one byte in the place of three characters.
    right
    rw [unquoteToBytes, hbyte]
    have hle : (unquoteToBytes t).length ≤ t.length := by
      rcases ih with h | h
      · rw [h, List.length_map]
      · exact h.le
    simp only [List.length_cons]
    omega
  | case2 c a b t hbyte ih =>
    rw [unquoteToBytes, hbyte]
    refine ih.imp (fun h => ?_) fun h => ?_
    · rw [List.map_cons, ← h]
    · exact Nat.succ_lt_succ h
  | case3 c a => exact .inl rfl
  | case4 c => exact .inl rfl
  | case5 => exact .inl rfl

theorem unquoteRun_eq_or_lt {run : Text} (h : ∀ c ∈ run, c.val < 0x80) :
    unquoteRun run = run ∨ (unquoteRun run).length < run.length := by
  rcases unquoteToBytes_eq_or_lt run with hbytes | hlt
  · exact .inl (by rw [unquoteRun, hbytes, decodeReplace_ascii h])
  · exact .inr ((length_decodeReplace _).trans_lt hlt)

/-- A pass that changes a text makes it shorter. -/
theorem unquote_eq_or_lt (t : Text) : unquote t = t ∨ (unquote t).length < t.length := by
  rw [unquote_eq]
  induction t using run_induction with
  | run u hu =>
    rw [unquoteAll_of_ascii hu]
    exact unquoteRun_eq_or_lt hu
  | cons u c t hu hc ih =>
    rw [unquoteAll_append_cons hu hc]
    simp only [List.length_append, List.length_cons]
    rcases unquoteRun_eq_or_lt hu with hrun | hrun <;> rcases ih with ht | ht
    · exact .inl (by rw [hrun, ht])
    · exact .inr (by rw [hrun]; omega)
    · exact .inr (by rw [ht]; omega)
    · exact .inr (by omega)

/-! ## Splitting -/

/-- `urllib.parse.SplitResult`. -/
structure SplitResult where
  scheme : Text
  netloc : Text
  path : Text
  query : Text
  fragment : Text

/-- `scheme_chars`. -/
def isSchemeChar (c : CodePoint) : Bool := c.isAlphanumeric || (lit "+-.").contains c

/-- The scheme of a URL and what follows it. -/
def splitScheme (url : Text) : Text × Text :=
  match url.partition 58 with
  | (scheme, some rest) =>
    if scheme.head?.any (fun c => c.isAlphanumeric && !c.isDigit) ∧ scheme.all isSchemeChar then
      (scheme.map CodePoint.asciiLower, rest)
    else ([], url)
  | (_, none) => ([], url)

/-- `netloc.rpartition("@")`: the user information, if there is any, and the host. -/
def splitUserInfo (netloc : Text) : Option Text × Text :=
  match Text.partition 64 netloc.reverse with
  | (host, some user) => (some user.reverse, host.reverse)
  | (_, none) => (none, netloc)

/-- `re.match(r"\Av[a-fA-F0-9]+\..+\Z", hostname)`. -/
def isFutureAddress (hostname : Text) : Bool :=
  match hostname.partition 46 with
  | (118 :: version, some address) =>
    version ≠ [] && version.all (fun c => (hexNumber c).isSome) && address ≠ [] && !address.contains 10
  | _ => false

/-- `_check_bracketed_host`, which raises `ValueError`. -/
def bracketedHost (hostname : Text) : Bool :=
  if hostname.head? = some 118 then isFutureAddress hostname
  else (IpAddress.parse hostname).any fun address => address matches .v6 _

/-- `_check_bracketed_netloc`, which raises `ValueError`. -/
def bracketedNetloc (netloc : Text) : Bool :=
  match (splitUserInfo netloc).2.partition 91 with
  | (before, some bracketed) =>
    let (hostname, port) := bracketed.partition 93
    before = [] && (port.getD []).head?.all (· = 58) && bracketedHost hostname
  | (hostnameAndPort, none) => bracketedHost (hostnameAndPort.partition 58).1

/-- `_checknetloc`, which raises `ValueError`. -/
def checkNetloc (nfkc : Text → Text) (netloc : Text) : Bool :=
  netloc.isAscii ||
    let bare := netloc.filter fun c => !(lit "@:#?").contains c
    nfkc bare = bare || !(nfkc bare).any fun c => (lit "/?#@:").contains c

/-- The characters that end an authority. -/
def endsNetloc (c : CodePoint) : Bool := (lit "/?#").contains c

/-- `urlsplit`, which raises `ValueError`. -/
def urlsplit (nfkc : Text → Text) (url : Text) : Option SplitResult :=
  let url := (url.dropWhile (·.val ≤ 32)).filter fun c => !(lit "\t\r\n").contains c
  let (scheme, rest) := splitScheme url
  let (netloc, rest) :=
    if (lit "//").isPrefixOf rest then
      ((rest.drop 2).takeWhile fun c => !endsNetloc c, (rest.drop 2).dropWhile fun c => !endsNetloc c)
    else ([], rest)
  if netloc.contains 91 ≠ netloc.contains 93 ∨ netloc.contains 91 ∧ ¬ bracketedNetloc netloc ∨
      ¬ checkNetloc nfkc netloc then none
  else
    let (rest, fragment) := Text.partition 35 rest
    let (path, query) := Text.partition 63 rest
    some ⟨scheme, netloc, path, query.getD [], fragment.getD []⟩

namespace SplitResult

variable (parsed : SplitResult)

/-- `username`. -/
def username : Option Text := (splitUserInfo parsed.netloc).1.map fun user => (user.partition 58).1

/-- `password`. -/
def password : Option Text := (splitUserInfo parsed.netloc).1.bind fun user => (user.partition 58).2

/-- `_hostinfo`: the host and the text of the port, if it is not empty. -/
def hostinfo : Text × Option Text :=
  let host := (splitUserInfo parsed.netloc).2
  let (hostname, port) :=
    match host.partition 91 with
    | (_, some bracketed) =>
      let (hostname, rest) := bracketed.partition 93
      (hostname, ((rest.getD []).partition 58).2)
    | (_, none) => host.partition 58
  (hostname, port.filter (· ≠ []))

/-- There is a `hostname`. -/
def hasHostname : Bool := parsed.hostinfo.1 ≠ []

/-- `port`, which raises `ValueError`. -/
def port : Option (Option ℕ) :=
  match parsed.hostinfo.2 with
  | none => some none
  | some port =>
    if port.all CodePoint.isDigit ∧ natValue port ≤ 65535 then some (some (natValue port)) else none

end SplitResult

end McpRuntime
