import McpRuntime.Outbound.Host
import McpRuntime.Python.IpNetwork
import Mathlib.Data.List.Sort
import Mathlib.Data.Prod.Lex

/-!
# The egress policy and the connections it allows

`DeclaredEgressPolicy` lets a client send to the destinations of a manifest, and connect to public
addresses and to those of the internal networks it was given. `_PolicyNetworkBackend.connect_tcp`
resolves the host of a destination, connects to the first address, and checks the peer. Whatever
the resolver and the network answer:

* `isPublic_eq`: `_is_public` gives the addresses without a special purpose;
* `egressPolicy_exact`: the policies there are, and the addresses that they let pass, all of them
  or none;
* `connectTcp_contained`: a connection is opened only to such an address, and a stream is returned
  only for the address it was opened to, or else closed.
-/

namespace McpRuntime.Outbound

/-! ## The manifest -/

/-- The order of destinations: by host, and then by port. -/
def destinationKey (d : EgressDestination) : Text ×ₗ ℕ := toLex (d.host, d.port)

/-- `EgressManifest`: a few destinations, each once, in order. -/
structure EgressManifest where
  destinations : List EgressDestination
  length_le : destinations.length ≤ 256
  nodup : destinations.Nodup
  sorted : destinations.Pairwise fun d d' => destinationKey d ≤ destinationKey d'
  deriving DecidableEq

/-- The constructor of `EgressManifest`, which sorts the destinations. -/
def egressManifest (destinations : List EgressDestination) : Option EgressManifest :=
  if h : destinations.length ≤ 256 ∧ destinations.Nodup then
    let order (d d' : EgressDestination) : Prop := destinationKey d ≤ destinationKey d'
    have hperm := List.perm_insertionSort order destinations
    some ⟨destinations.insertionSort order, hperm.length_eq ▸ h.1, hperm.nodup_iff.2 h.2,
      List.pairwise_insertionSort order _⟩
  else none

/-! ## Public addresses -/

/-- `_NAT64_NETWORKS`. -/
def nat64Networks : List IpNetwork := IpNetwork.table ["64:ff9b::/96", "64:ff9b:1::/48"]

/-- `_IPV4_COMPATIBLE`. -/
def ipv4Compatible : List IpNetwork := IpNetwork.table ["::/96"]

/-- `_embedded_ipv4`. -/
def embeddedIpv4 (address : ℕ) : List ℕ :=
  match Ipv6.mapped address, Ipv6.sixToFour address, Ipv6.teredo address with
  | some value, _, _ => [value]
  | none, some value, _ => [value]
  | none, none, some (server, client) => [server, client]
  | none, none, none =>
    if (IpAddress.v6 address).inAny (ipv4Compatible ++ nat64Networks) then [address % 2 ^ 32]
    else []

/-- `_is_public`. -/
def isPublic (rules : IpRules) : IpAddress → Bool
  | .v4 address =>
    !(!Ipv4.isGlobal address || Ipv4.isPrivate address || Ipv4.isLoopback address ||
      Ipv4.isLinkLocal address || Ipv4.isMulticast address || Ipv4.isReserved address ||
      Ipv4.isUnspecified address)
  | .v6 address =>
    !(!Ipv6.isGlobal rules address || Ipv6.isPrivate rules address ||
      Ipv6.isLoopback rules address || Ipv6.isLinkLocal rules address ||
      Ipv6.isMulticast rules address || Ipv6.isReserved rules address ||
      Ipv6.isUnspecified rules address) && (embeddedIpv4 address).all Ipv4.isGlobal

/-- An address that is in no block with a special purpose. -/
def isOrdinary (rules : IpRules) : IpAddress → Bool
  | .v4 address => Ipv4.isOrdinary address
  | .v6 address => Ipv6.isOrdinary rules address

/-- An address without a special purpose embeds no other, unless it is mapped. -/
theorem embeddedIpv4_of_isOrdinary {rules : IpRules} {address : ℕ}
    (hmapped : Ipv6.mapped address = none) (hordinary : Ipv6.isOrdinary rules address = true) :
    embeddedIpv4 address = [] := by
  obtain ⟨-, hexceptions, -, hglobal, hspecial, -⟩ := Ipv6.tables_eq
  have hnetworks : ipv4Compatible ++ nat64Networks =
      [.blockV6 0 96, .blockV6 (0x64FF9B * 2 ^ 64) 96, .blockV6 0x64FF9B0001 48] := by
    decide +kernel
  -- The ranges that ordinary addresses lie in, which leave out each block
  -- whose addresses have an IPv4 address in them.
  have hranges := hordinary
  simp only [Ipv6.isOrdinary, Ipv6.property_of_none hmapped, Bool.or_eq_true, Bool.and_eq_true,
    Bool.not_eq_true', hexceptions, hglobal, hspecial, IpAddress.inAny, List.any_cons,
    List.any_nil, Bool.or_false, ← Bool.not_eq_true, IpNetwork.contains_blockV6, Nat.reduceSub,
    Nat.reducePow, Nat.reduceMul, Nat.reduceAdd] at hranges
  have hsixToFour : Ipv6.sixToFour address = none := by
    rw [Ipv6.sixToFour, if_neg]
    rw [IpNetwork.div_eq_iff_block (Nat.two_pow_pos _)]
    omega
  have hteredo : Ipv6.teredo address = none := by
    rw [Ipv6.teredo, if_neg]
    rw [IpNetwork.div_eq_iff_block (Nat.two_pow_pos _)]
    omega
  rw [embeddedIpv4, hmapped, hsixToFour, hteredo]
  refine if_neg ?_
  simp only [hnetworks, IpAddress.inAny, List.any_cons, List.any_nil, Bool.or_false,
    Bool.or_eq_true, IpNetwork.contains_blockV6, Nat.reduceSub, Nat.reducePow, Nat.reduceMul,
    Nat.reduceAdd]
  omega

/-- `_is_public` gives the addresses without a special purpose. -/
theorem isPublic_eq (rules : IpRules) {ip : IpAddress} (h : ip.InRange) :
    isPublic rules ip = isOrdinary rules ip := by
  cases ip with
  | v4 address =>
    rw [isPublic, isOrdinary, Bool.not_eq_eq_eq_not, Bool.eq_iff_iff, Bool.not_eq_true',
      Ipv4.isOrdinary_eq_false]
    simp only [Bool.or_eq_true, Bool.not_eq_true', or_assoc]
  | v6 address =>
    have hproperties := Ipv6.isOrdinary_eq_false rules h
    rw [isPublic, isOrdinary]
    cases hordinary : Ipv6.isOrdinary rules address with
    | false =>
      rw [Bool.and_eq_false_iff]
      refine .inl ?_
      simpa only [Bool.not_eq_false', Bool.or_eq_true, Bool.not_eq_true', or_assoc] using
        hproperties.1 hordinary
    | true =>
      have hnone := mt hproperties.2 (Bool.not_eq_false _ ▸ hordinary)
      rw [Bool.and_eq_true]
      refine ⟨?_, ?_⟩
      · simpa only [Bool.not_eq_true', ← Bool.not_eq_true, Bool.or_eq_true, or_assoc] using hnone
      · -- An ordinary address has no IPv4 address in it, unless it is mapped,
        -- and then the library has looked at the IPv4 address already.
        cases hmapped : Ipv6.mapped address with
        | none =>
          rw [embeddedIpv4_of_isOrdinary hmapped hordinary]
          rfl
        | some value =>
          have hembedded : embeddedIpv4 address = [value] := by rw [embeddedIpv4, hmapped]
          have hreserved : Ipv6.isReserved rules address ≠ true := fun hreserved =>
            hnone (.inr (.inr (.inr (.inr (.inr (.inl hreserved))))))
          have hglobal : Ipv6.isGlobal rules address = true :=
            Bool.of_not_eq_false fun hglobal => hnone (.inl hglobal)
          cases hrules : rules.mapped with
          | false =>
            rw [Ipv6.isReserved, hrules, Ipv6.property_false] at hreserved
            exact absurd (Ipv6.reserved_of_mapped hmapped).2.2 hreserved
          | true =>
            rw [Ipv6.isGlobal, hrules, Ipv6.property_of_some hmapped] at hglobal
            rw [hembedded, List.all_cons, hglobal]
            rfl

example : isPublic ⟨true, true, true, true⟩ (.v4 0xA9FEA9FE) = false ∧
    isPublic ⟨true, true, true, true⟩ (.v6 0xFFFF7F000001) = false ∧
    isPublic ⟨true, true, true, true⟩ (.v6 0xFFFF01010101) = true ∧
    isPublic ⟨true, true, true, true⟩ (.v6 (0xFEC0 * 2 ^ 112 + 1)) = true := by
  decide +kernel

/-! ## The policy -/

/-- `_INTERNAL_V4_NETWORKS` and `_INTERNAL_V6_NETWORKS`. -/
def internalNetworks : List IpNetwork :=
  IpNetwork.table ["10.0.0.0/8", "100.64.0.0/10", "127.0.0.0/8", "169.254.0.0/16", "172.16.0.0/12",
    "192.168.0.0/16", "::1/128", "fc00::/7", "fe80::/10"]

/-- `_is_internal_network`. A network is never a subnet of one of the other version. -/
def isInternalNetwork (network : StrictNetwork) : Bool :=
  internalNetworks.any (IpNetwork.subnetOf network)

/-- An internal network. -/
abbrev InternalNetwork : Type := {network : StrictNetwork // isInternalNetwork network = true}

/-- `DeclaredEgressPolicy`: the destinations it lets pass, and the internal networks it lets a
    client connect to. -/
structure DeclaredEgressPolicy where
  destinations : List EgressDestination
  networks : List InternalNetwork
  deriving DecidableEq

/-- The exceptions of the constructor. -/
inductive PolicyError
  | tooManyNetworks
  | notCanonical
  | notInternal
  deriving DecidableEq

def PolicyError.message : PolicyError → Text
  | .tooManyNetworks => lit "internal network policy exceeds its hard maximum"
  | .notCanonical => lit "internal networks must use canonical CIDR notation"
  | .notInternal => lit "internal networks must be narrow private CIDR ranges"

/-- One round of the loop of the constructor. -/
def readNetwork (parsed : List InternalNetwork) (text : Text) :
    Except PolicyError (List InternalNetwork) :=
  match IpNetwork.parse text with
  | none => .error .notCanonical
  | some network =>
    if h : isInternalNetwork network = true then
      .ok (if parsed.elem ⟨network, h⟩ then parsed else parsed ++ [⟨network, h⟩])
    else .error .notInternal

/-- The constructor of `DeclaredEgressPolicy`. -/
def declaredEgressPolicy (manifest : EgressManifest) (texts : List Text) :
    Except PolicyError DeclaredEgressPolicy := do
  if texts.length > 32 then throw .tooManyNetworks
  let networks ← texts.foldlM readNetwork []
  return ⟨manifest.destinations, networks⟩

/-- `authorize_destination`. -/
def authorizeDestination (policy : DeclaredEgressPolicy) (destination : EgressDestination) :
    Except ClientError Unit :=
  if policy.destinations.elem destination then .ok () else .error .egressPolicyViolation

/-- One round of the loop of `authorize_connection`. -/
def authorizeAddress (rules : IpRules) (policy : DeclaredEgressPolicy) (value : Text) :
    Except ClientError Unit :=
  match IpAddress.parse value with
  | none => .error .egressPolicyViolation
  | some address =>
    if policy.networks.any (fun network => network.1.network.contains address) ||
        isPublic rules address then .ok ()
    else .error .egressPolicyViolation

/-- `authorize_connection`. -/
def authorizeConnection (rules : IpRules) (policy : DeclaredEgressPolicy)
    (destination : EgressDestination) (addresses : List Text) : Except ClientError Unit := do
  authorizeDestination policy destination
  if addresses = [] || addresses.length > 16 then throw .egressPolicyViolation
  addresses.forM (authorizeAddress rules policy)

/-- What the policy is for: a client may reach the addresses without a special purpose, and those
    of the networks that were configured, which are internal. -/
def Reachable (rules : IpRules) (texts : List Text) (ip : IpAddress) : Prop :=
  isOrdinary rules ip = true ∨
    (∃ text ∈ texts, ∃ network, IpNetwork.parse text = some network ∧
      network.network.contains ip = true) ∧ ip.inAny internalNetworks = true

/-- The networks that are kept are those of the texts, all of which are internal. -/
theorem foldlM_readNetwork {texts : List Text} {parsed networks : List InternalNetwork}
    (h : texts.foldlM readNetwork parsed = .ok networks) :
    (∀ text ∈ texts, ∃ network : InternalNetwork, IpNetwork.parse text = some network.1) ∧
    ∀ network : InternalNetwork, network ∈ networks ↔
      network ∈ parsed ∨ ∃ text ∈ texts, IpNetwork.parse text = some network.1 := by
  induction texts generalizing parsed with
  | nil =>
    obtain rfl := pure_eq_ok.1 h
    simp
  | cons text texts ih =>
    rw [List.foldlM_cons, bind_eq_ok] at h
    obtain ⟨next, hnext, h⟩ := h
    obtain ⟨hrest, hmem⟩ := ih h
    rw [readNetwork] at hnext
    cases hparse : IpNetwork.parse text with
    | none =>
      rw [hparse] at hnext
      cases hnext
    | some read =>
      rw [hparse] at hnext
      dsimp only at hnext
      split_ifs at hnext with hinternal helem
      all_goals
        obtain rfl := Except.ok.inj hnext
        refine ⟨List.forall_mem_cons.2 ⟨⟨⟨read, hinternal⟩, hparse⟩, hrest⟩, fun network => ?_⟩
        rw [hmem, List.exists_mem_cons_iff, ← or_assoc, hparse, Option.some_inj]
        refine or_congr_left ?_
      · -- A network that is kept already is not kept twice.
        rw [List.elem_iff] at helem
        refine ⟨.inl, Or.rec id fun he => ?_⟩
        obtain rfl : network = ⟨read, hinternal⟩ := Subtype.ext he.symm
        exact helem
      · rw [List.mem_append, List.mem_singleton, Subtype.ext_iff, eq_comm]

/-- The networks are kept where each of the texts gives an internal one. -/
theorem exists_foldlM_readNetwork {texts : List Text} (parsed : List InternalNetwork)
    (h : ∀ text ∈ texts, ∃ network : InternalNetwork, IpNetwork.parse text = some network.1) :
    ∃ networks, texts.foldlM readNetwork parsed = .ok networks := by
  induction texts generalizing parsed with
  | nil => exact ⟨parsed, rfl⟩
  | cons text texts ih =>
    rw [List.forall_mem_cons] at h
    obtain ⟨⟨network, hparse⟩, hrest⟩ := h
    obtain ⟨next, hnext⟩ : ∃ next, readNetwork parsed text = .ok next := by
      rw [readNetwork, hparse]
      exact ⟨_, dif_pos network.2⟩
    obtain ⟨networks, hnetworks⟩ := ih next hrest
    exact ⟨networks, by rw [List.foldlM_cons]; exact bind_eq_ok.2 ⟨next, hnext, hnetworks⟩⟩

section

variable {rules : IpRules} {manifest : EgressManifest} {texts : List Text}
  {policy : DeclaredEgressPolicy}

theorem declaredEgressPolicy_ok (h : declaredEgressPolicy manifest texts = .ok policy) :
    policy.destinations = manifest.destinations ∧
    (∀ text ∈ texts, ∃ network : InternalNetwork, IpNetwork.parse text = some network.1) ∧
    ∀ network : InternalNetwork, network ∈ policy.networks ↔
      ∃ text ∈ texts, IpNetwork.parse text = some network.1 := by
  simp only [declaredEgressPolicy, check_eq_ok, bind_eq_ok, pure_eq_ok] at h
  obtain ⟨-, networks, hfold, rfl⟩ := h
  obtain ⟨hread, hmem⟩ := foldlM_readNetwork hfold
  exact ⟨rfl, hread, fun network => by rw [hmem, List.mem_nil_iff, false_or]⟩

/-- What an internal network contains is internal. -/
theorem internal_of_contains (network : InternalNetwork) {ip : IpAddress}
    (h : network.1.network.contains ip = true) : ip.inAny internalNetworks = true := by
  have haligned : ∀ other ∈ internalNetworks, other.Aligned := by decide +kernel
  obtain ⟨other, hother, hsub⟩ := List.any_eq_true.1 network.2
  exact List.any_eq_true.2
    ⟨other, hother, IpNetwork.contains_of_subnetOf (haligned other hother) hsub h⟩

/-- The addresses that pass are those that can be reached. -/
theorem authorizeAddress_eq_ok (h : declaredEgressPolicy manifest texts = .ok policy)
    (value : Text) : authorizeAddress rules policy value = .ok () ↔
      ∃ ip, IpAddress.parse value = some ip ∧ Reachable rules texts ip := by
  obtain ⟨-, hread, hmem⟩ := declaredEgressPolicy_ok h
  rw [authorizeAddress]
  cases hparse : IpAddress.parse value with
  | none => simp
  | some ip =>
    have hnetworks : policy.networks.any (fun network => network.1.network.contains ip) = true ↔
        (∃ text ∈ texts, ∃ network, IpNetwork.parse text = some network ∧
          network.network.contains ip = true) ∧ ip.inAny internalNetworks = true := by
      rw [List.any_eq_true]
      constructor
      · rintro ⟨network, hnetwork, hip⟩
        obtain ⟨text, htext, hparse⟩ := (hmem network).1 hnetwork
        exact ⟨⟨text, htext, network.1, hparse, hip⟩, internal_of_contains network hip⟩
      · rintro ⟨⟨text, htext, network, hparse, hip⟩, -⟩
        obtain ⟨internal, hinternal⟩ := hread text htext
        obtain rfl := Option.some.inj (hparse.symm.trans hinternal)
        exact ⟨internal, (hmem internal).2 ⟨text, htext, hinternal⟩, hip⟩
    dsimp only
    split_ifs with hpass
    · refine iff_of_true rfl ⟨ip, rfl, ?_⟩
      rw [Bool.or_eq_true, hnetworks, isPublic_eq rules (inRange_of_parse hparse)] at hpass
      exact hpass.symm
    · refine iff_of_false (fun herror => by cases herror) ?_
      rintro ⟨_, he, hreachable⟩
      obtain rfl := Option.some.inj he
      rw [Bool.or_eq_true, hnetworks, isPublic_eq rules (inRange_of_parse hparse)] at hpass
      exact hpass hreachable.symm

/-- `authorize_connection` lets the addresses of a destination of the manifest pass where all of
    them can be reached, and they are not too many. -/
theorem authorizeConnection_eq_ok (h : declaredEgressPolicy manifest texts = .ok policy)
    (destination : EgressDestination) (addresses : List Text) :
    authorizeConnection rules policy destination addresses = .ok () ↔
      destination ∈ manifest.destinations ∧ addresses ≠ [] ∧ addresses.length ≤ 16 ∧
        ∀ text ∈ addresses, ∃ ip, IpAddress.parse text = some ip ∧ Reachable rules texts ip := by
  rw [authorizeConnection, bind_eq_ok, authorizeDestination, (declaredEgressPolicy_ok h).1]
  simp only [check_eq_ok, forM_eq_ok, authorizeAddress_eq_ok h, Bool.or_eq_true, decide_eq_true_eq,
    not_or, not_lt, List.elem_iff, and_assoc]
  constructor
  · rintro ⟨_, hdestination, hpass⟩
    split_ifs at hdestination with hmem
    exact ⟨hmem, hpass⟩
  · rintro ⟨hmem, hpass⟩
    exact ⟨(), if_pos hmem, hpass⟩

/-- The constructor accepts a few texts of internal networks, and the policy then lets exactly the
    addresses pass that can be reached, of the destinations of the manifest. -/
theorem egressPolicy_exact (rules : IpRules) (manifest : EgressManifest) (texts : List Text) :
    ((∃ policy, declaredEgressPolicy manifest texts = .ok policy) ↔ texts.length ≤ 32 ∧
      ∀ text ∈ texts, ∃ network : InternalNetwork, IpNetwork.parse text = some network.1) ∧
    ∀ policy, declaredEgressPolicy manifest texts = .ok policy →
      ∀ (destination : EgressDestination) (addresses : List Text),
        authorizeConnection rules policy destination addresses = .ok () ↔
          destination ∈ manifest.destinations ∧ addresses ≠ [] ∧ addresses.length ≤ 16 ∧
            ∀ text ∈ addresses, ∃ ip,
              IpAddress.parse text = some ip ∧ Reachable rules texts ip := by
  refine ⟨⟨?_, ?_⟩, fun policy h => authorizeConnection_eq_ok h⟩
  · rintro ⟨policy, h⟩
    have hread := (declaredEgressPolicy_ok h).2.1
    simp only [declaredEgressPolicy, check_eq_ok, not_lt] at h
    exact ⟨h.1, hread⟩
  · rintro ⟨hlength, hread⟩
    obtain ⟨networks, hnetworks⟩ := exists_foldlM_readNetwork [] hread
    refine ⟨⟨manifest.destinations, networks⟩, ?_⟩
    simp only [declaredEgressPolicy, check_eq_ok, bind_eq_ok, pure_eq_ok, not_lt]
    exact ⟨hlength, networks, hnetworks, rfl⟩

end

/-! ## Connections -/

/-- A stream that was opened: the address of its peer, where `server_addr` is a tuple of at least
    two parts with a text first, and what closing it raises. -/
structure NetworkStream where
  serverAddress : Option Text
  aclose : Except ClientError Unit

/-- What the resolver and the network answer. -/
structure Network where
  resolve : Text → ℕ → Except ClientError (List Text)
  connect : Text → ℕ → Except ClientError NetworkStream

/-- What a connection does to the network. -/
inductive NetworkEvent
  | resolve (host : Text) (port : ℕ)
  | connect (address : Text) (port : ℕ)
  | close
  deriving DecidableEq

section

variable (rules : IpRules) (policy : DeclaredEgressPolicy) (destination : EgressDestination)

/-- The address to connect to: the first of those that the host has. -/
def selectAddress (network : Network) : Except ClientError Text := do
  let addresses ← network.resolve destination.host destination.port
  authorizeConnection rules policy destination addresses
  let some selected := addresses.head?.bind (compressedText rules.dotted) | throw .valueError
  return selected

/-- The checks of the peer of a stream. -/
def checkPeer (selected : Text) (stream : NetworkStream) : Except ClientError Unit := do
  let some address := stream.serverAddress | throw .egressPolicyViolation
  let some actual := compressedText rules.dotted address | throw .valueError
  authorizeConnection rules policy destination [actual]
  if actual ≠ selected then throw .egressPolicyViolation

end

/-- `_PolicyNetworkBackend.connect_tcp`, with what it does in turn. -/
def connectTcp {URL : Type} (rules : IpRules) (library : HTTPLibrary URL)
    (policy : DeclaredEgressPolicy) (network : Network) (host : Text) (port : ℕ) :
    List NetworkEvent × Except ClientError NetworkStream :=
  match egressDestination library host port with
  | none => ([], .error .valueError)
  | some destination =>
    match authorizeDestination policy destination with
    | .error error => ([], .error error)
    | .ok () =>
      let resolved := NetworkEvent.resolve destination.host destination.port
      match selectAddress rules policy destination network with
      | .error error => ([resolved], .error error)
      | .ok selected =>
        match network.connect selected port with
        | .error error => ([resolved, .connect selected port], .error error)
        | .ok stream =>
          match checkPeer rules policy destination selected stream with
          | .ok () => ([resolved, .connect selected port], .ok stream)
          | .error error =>
            -- an exception of `aclose` takes the place of the one that is raised
            ([resolved, .connect selected port, .close], stream.aclose.bind fun _ => .error error)

/-! ## What a connection does -/

section

variable {URL : Type} {rules : IpRules} {library : HTTPLibrary URL} {manifest : EgressManifest}
  {texts : List Text} {policy : DeclaredEgressPolicy}

/-- The address that is selected is the first of the addresses of the host, all of which can be
    reached. -/
theorem selectAddress_eq_ok (h : declaredEgressPolicy manifest texts = .ok policy)
    {destination : EgressDestination} (hdestination : destination ∈ manifest.destinations)
    {network : Network} {selected : Text} :
    selectAddress rules policy destination network = .ok selected ↔
      ∃ first rest, network.resolve destination.host destination.port = .ok (first :: rest) ∧
        rest.length < 16 ∧ (∀ text ∈ first :: rest, ∃ ip, IpAddress.parse text = some ip ∧
          Reachable rules texts ip) ∧ compressedText rules.dotted first = some selected := by
  rw [selectAddress, bind_eq_ok]
  constructor
  · rintro ⟨addresses, hresolve, hselect⟩
    obtain ⟨_, hauthorized, hselect⟩ := bind_eq_ok.1 hselect
    obtain ⟨-, hne, hlength, hreachable⟩ := (authorizeConnection_eq_ok h _ _).1 hauthorized
    cases addresses with
    | nil => exact absurd rfl hne
    | cons first rest =>
      refine ⟨first, rest, hresolve, hlength, hreachable, ?_⟩
      rw [List.head?_cons, Option.bind_some] at hselect
      cases hfirst : compressedText rules.dotted first with
      | none =>
        rw [hfirst] at hselect
        cases hselect
      | some text =>
        rw [hfirst] at hselect
        exact congrArg some (pure_eq_ok.1 hselect)
  · rintro ⟨first, rest, hresolve, hlength, hreachable, hfirst⟩
    refine ⟨first :: rest, hresolve, bind_eq_ok.2 ⟨(), (authorizeConnection_eq_ok h _ _).2
      ⟨hdestination, List.cons_ne_nil _ _, hlength, hreachable⟩, ?_⟩⟩
    rw [List.head?_cons, Option.bind_some, hfirst]
    rfl

/-- A peer passes where it is the address that was selected. -/
theorem checkPeer_eq_ok (h : declaredEgressPolicy manifest texts = .ok policy)
    {destination : EgressDestination} (hdestination : destination ∈ manifest.destinations)
    {selected : Text} (hselected : ∃ ip, IpAddress.parse selected = some ip ∧
      Reachable rules texts ip) (stream : NetworkStream) :
    checkPeer rules policy destination selected stream = .ok () ↔
      ∃ peer, stream.serverAddress = some peer ∧
        compressedText rules.dotted peer = some selected := by
  rw [checkPeer]
  cases stream.serverAddress with
  | none => exact iff_of_false (fun hnone => by cases hnone) fun ⟨_, hnone, _⟩ => by cases hnone
  | some peer =>
    simp only [Option.some.injEq, exists_eq_left']
    cases compressedText rules.dotted peer with
    | none => exact iff_of_false (fun hnone => by cases hnone) fun hnone => by cases hnone
    | some actual =>
      rw [Option.some_inj]
      refine bind_eq_ok.trans ⟨?_, ?_⟩
      · rintro ⟨_, -, hsame⟩
        split_ifs at hsame with hne
        exact not_not.1 hne
      · -- The peer is the address that was selected, which passes once more.
        rintro rfl
        refine ⟨(), (authorizeConnection_eq_ok h _ _).2 ⟨hdestination, List.cons_ne_nil _ _,
          (by simp), List.forall_mem_singleton.2 hselected⟩, ?_⟩
        rw [if_neg (not_not_intro rfl)]
        rfl

/-- An address was selected for the destination of a host. -/
structure Selects (rules : IpRules) (library : HTTPLibrary URL) (policy : DeclaredEgressPolicy)
    (network : Network) (host : Text) (port : ℕ) (destination : EgressDestination)
    (selected : Text) : Prop where
  canonical : egressDestination library host port = some destination
  declared : destination ∈ policy.destinations
  select : selectAddress rules policy destination network = .ok selected

theorem Selects.unique {network : Network} {host : Text} {port : ℕ}
    {destination destination' : EgressDestination} {selected selected' : Text}
    (h : Selects rules library policy network host port destination selected)
    (h' : Selects rules library policy network host port destination' selected') :
    destination = destination' ∧ selected = selected' := by
  obtain rfl := Option.some.inj (h.canonical.symm.trans h'.canonical)
  exact ⟨rfl, Except.ok.inj (h.select.symm.trans h'.select)⟩

/-- How a connection goes. -/
inductive ConnectRun (rules : IpRules) (library : HTTPLibrary URL) (policy : DeclaredEgressPolicy)
    (network : Network) (host : Text) (port : ℕ) :
    List NetworkEvent × Except ClientError NetworkStream → Prop
  | unconnected {name : Text} {events : List NetworkEvent} {error : ClientError}
      (hevents : events <+: [.resolve name port])
      (hnone : ∀ destination selected,
        ¬Selects rules library policy network host port destination selected) :
      ConnectRun rules library policy network host port (events, .error error)
  | failed {destination : EgressDestination} {selected : Text} {error : ClientError}
      (hselects : Selects rules library policy network host port destination selected)
      (hconnect : network.connect selected port = .error error) :
      ConnectRun rules library policy network host port
        ([.resolve destination.host port, .connect selected port], .error error)
  | returned {destination : EgressDestination} {selected : Text} {stream : NetworkStream}
      (hselects : Selects rules library policy network host port destination selected)
      (hconnect : network.connect selected port = .ok stream)
      (hpeer : checkPeer rules policy destination selected stream = .ok ()) :
      ConnectRun rules library policy network host port
        ([.resolve destination.host port, .connect selected port], .ok stream)
  | closed {destination : EgressDestination} {selected : Text} {stream : NetworkStream}
      {error error' : ClientError}
      (hselects : Selects rules library policy network host port destination selected)
      (hconnect : network.connect selected port = .ok stream)
      (hpeer : checkPeer rules policy destination selected stream = .error error) :
      ConnectRun rules library policy network host port
        ([.resolve destination.host port, .connect selected port, .close], .error error')

theorem port_of_egressDestination {host : Text} {port : ℕ} {destination : EgressDestination}
    (h : egressDestination library host port = some destination) : destination.port = port := by
  obtain ⟨_, -, h⟩ := Option.bind_eq_some_iff.1 h
  split_ifs at h
  exact Option.some.inj h ▸ rfl

/-- When an address is selected. -/
theorem selects_iff (h : declaredEgressPolicy manifest texts = .ok policy) {network : Network}
    {host : Text} {port : ℕ} {destination : EgressDestination} {selected : Text} :
    Selects rules library policy network host port destination selected ↔
      destination ∈ manifest.destinations ∧ egressDestination library host port = some destination ∧
      ∃ first rest, network.resolve destination.host port = .ok (first :: rest) ∧
        rest.length < 16 ∧ (∀ text ∈ first :: rest, ∃ ip, IpAddress.parse text = some ip ∧
          Reachable rules texts ip) ∧ compressedText rules.dotted first = some selected := by
  have hdestinations := (declaredEgressPolicy_ok h).1
  constructor
  · rintro ⟨hcanonical, hdeclared, hselect⟩
    rw [hdestinations] at hdeclared
    rw [selectAddress_eq_ok h hdeclared, port_of_egressDestination hcanonical] at hselect
    exact ⟨hdeclared, hcanonical, hselect⟩
  · rintro ⟨hdeclared, hcanonical, hselect⟩
    refine ⟨hcanonical, hdestinations ▸ hdeclared, ?_⟩
    rw [selectAddress_eq_ok h hdeclared, port_of_egressDestination hcanonical]
    exact hselect

/-- An address that is selected can be reached. -/
theorem reachable_of_selects (h : declaredEgressPolicy manifest texts = .ok policy)
    {network : Network} {host : Text} {port : ℕ} {destination : EgressDestination}
    {selected : Text}
    (hselects : Selects rules library policy network host port destination selected) :
    ∃ ip, IpAddress.parse selected = some ip ∧ Reachable rules texts ip := by
  obtain ⟨-, -, first, rest, -, -, hreachable, hfirst⟩ := (selects_iff h).1 hselects
  rw [parse_compressedText hfirst]
  exact hreachable first List.mem_cons_self

theorem connectTcp_run (rules : IpRules) (library : HTTPLibrary URL)
    (policy : DeclaredEgressPolicy) (network : Network) (host : Text) (port : ℕ) :
    ConnectRun rules library policy network host port
      (connectTcp rules library policy network host port) := by
  rw [connectTcp]
  cases hcanonical : egressDestination library host port with
  | none =>
    refine .unconnected (List.nil_prefix (l := [NetworkEvent.resolve [] port])) ?_
    rintro destination selected ⟨hsome, -, -⟩
    rw [hcanonical] at hsome
    cases hsome
  | some destination =>
    have hport := port_of_egressDestination hcanonical
    have hsame : ∀ {destination' selected},
        Selects rules library policy network host port destination' selected →
          destination' = destination := fun hselects =>
      Option.some.inj (hselects.canonical.symm.trans hcanonical)
    dsimp only
    cases hdestination : authorizeDestination policy destination with
    | error error =>
      refine .unconnected (List.nil_prefix (l := [NetworkEvent.resolve [] port])) ?_
      rintro destination' selected hselects
      obtain rfl := hsame hselects
      rw [authorizeDestination, if_pos (List.elem_iff.2 hselects.declared)] at hdestination
      cases hdestination
    | ok _ =>
      have hdeclared : destination ∈ policy.destinations := by
        rw [authorizeDestination] at hdestination
        split_ifs at hdestination with hmem
        exact List.elem_iff.1 hmem
      dsimp only
      rw [hport]
      cases hselect : selectAddress rules policy destination network with
      | error error =>
        refine .unconnected List.prefix_rfl ?_
        rintro destination' selected hselects
        obtain rfl := hsame hselects
        rw [hselects.select] at hselect
        cases hselect
      | ok selected =>
        have hselects : Selects rules library policy network host port destination selected :=
          ⟨hcanonical, hdeclared, hselect⟩
        dsimp only
        cases hconnect : network.connect selected port with
        | error error => exact .failed hselects hconnect
        | ok stream =>
          dsimp only
          cases hpeer : checkPeer rules policy destination selected stream with
          | ok _ => exact .returned hselects hconnect hpeer
          | error error =>
            dsimp only
            cases stream.aclose with
            | error error' => exact .closed hselects hconnect hpeer
            | ok _ => exact .closed hselects hconnect hpeer

/-- What a connection may do, and when it gives a stream. -/
structure ConnectionContained (rules : IpRules) (library : HTTPLibrary URL)
    (manifest : EgressManifest) (texts : List Text) (network : Network) (host : Text) (port : ℕ)
    (run : List NetworkEvent × Except ClientError NetworkStream) : Prop where
  /-- The host is resolved, then one connection is opened at most, and then closed at most. -/
  order : ∃ name address, run.1 <+: [.resolve name port, .connect address port, .close]
  /-- A connection is opened for a destination of the manifest, all of whose addresses can be
      reached, and to the first of them. -/
  connected : ∀ address, .connect address port ∈ run.1 → ∃ destination ∈ manifest.destinations,
    egressDestination library host port = some destination ∧
    ∃ first rest ip, network.resolve destination.host port = .ok (first :: rest) ∧
      (∀ text ∈ first :: rest, ∃ ip, IpAddress.parse text = some ip ∧ Reachable rules texts ip) ∧
      IpAddress.parse first = some ip ∧ IpAddress.parse address = some ip
  /-- A stream is returned where the addresses of the destination can be reached, and the peer is
      the first of them. -/
  returned : ∀ stream, run.2 = .ok stream ↔ ∃ destination ∈ manifest.destinations,
    egressDestination library host port = some destination ∧
    ∃ first rest selected peer, network.resolve destination.host port = .ok (first :: rest) ∧
      rest.length < 16 ∧
      (∀ text ∈ first :: rest, ∃ ip, IpAddress.parse text = some ip ∧ Reachable rules texts ip) ∧
      compressedText rules.dotted first = some selected ∧
      network.connect selected port = .ok stream ∧ stream.serverAddress = some peer ∧
      compressedText rules.dotted peer = some selected
  /-- A stream is returned or closed. -/
  closed : ∀ address stream, .connect address port ∈ run.1 →
    network.connect address port = .ok stream → (run.2 = .ok stream ↔ .close ∉ run.1)

section

variable {network : Network} {host : Text} {port : ℕ}
  {run : List NetworkEvent × Except ClientError NetworkStream}
  (hrun : ConnectRun rules library policy network host port run)

include hrun

theorem ConnectRun.order_prefix :
    ∃ name address, run.1 <+: [.resolve name port, .connect address port, .close] := by
  cases hrun with
  | unconnected hevents _ => exact ⟨_, [], hevents.trans (List.prefix_append _ _)⟩
  | failed => exact ⟨_, _, List.prefix_append _ [NetworkEvent.close]⟩
  | returned => exact ⟨_, _, List.prefix_append _ [NetworkEvent.close]⟩
  | closed => exact ⟨_, _, List.prefix_rfl⟩

/-- A connection is opened to the address that was selected. -/
theorem ConnectRun.selects_of_connect {address : Text} (hmem : .connect address port ∈ run.1) :
    ∃ destination, Selects rules library policy network host port destination address := by
  cases hrun with
  | unconnected hevents _ => simpa using hevents.subset hmem
  | failed hselects _ =>
    obtain rfl : address = _ := by simpa using hmem
    exact ⟨_, hselects⟩
  | returned hselects _ _ =>
    obtain rfl : address = _ := by simpa using hmem
    exact ⟨_, hselects⟩
  | closed hselects _ _ =>
    obtain rfl : address = _ := by simpa using hmem
    exact ⟨_, hselects⟩

/-- A stream is returned where the one that was opened has the right peer. -/
theorem ConnectRun.eq_ok_iff {stream : NetworkStream} :
    run.2 = .ok stream ↔ ∃ destination selected,
      Selects rules library policy network host port destination selected ∧
        network.connect selected port = .ok stream ∧
        checkPeer rules policy destination selected stream = .ok () := by
  constructor
  · intro hok
    cases hrun with
    | unconnected => cases hok
    | failed => cases hok
    | closed => cases hok
    | returned hselects hconnect hpeer =>
      obtain rfl := Except.ok.inj hok
      exact ⟨_, _, hselects, hconnect, hpeer⟩
  · -- What is selected and opened is determined, so that the run is that case.
    rintro ⟨destination, selected, hselects, hconnect, hpeer⟩
    cases hrun with
    | unconnected _ hnone => exact absurd hselects (hnone _ _)
    | failed hselects' hconnect' =>
      obtain ⟨rfl, rfl⟩ := hselects.unique hselects'
      rw [hconnect] at hconnect'
      cases hconnect'
    | returned hselects' hconnect' _ =>
      obtain ⟨rfl, rfl⟩ := hselects.unique hselects'
      rw [← hconnect', hconnect]
    | closed hselects' hconnect' hpeer' =>
      obtain ⟨rfl, rfl⟩ := hselects.unique hselects'
      obtain rfl := Except.ok.inj (hconnect.symm.trans hconnect')
      rw [hpeer] at hpeer'
      cases hpeer'

/-- A stream that was opened is returned or closed. -/
theorem ConnectRun.eq_ok_iff_not_closed {address : Text} {stream : NetworkStream}
    (hmem : .connect address port ∈ run.1) (hconnect : network.connect address port = .ok stream) :
    run.2 = .ok stream ↔ .close ∉ run.1 := by
  cases hrun with
  | unconnected hevents _ => simpa using hevents.subset hmem
  | failed _ hconnect' =>
    obtain rfl : address = _ := by simpa using hmem
    rw [hconnect] at hconnect'
    cases hconnect'
  | returned _ hconnect' _ =>
    obtain rfl : address = _ := by simpa using hmem
    rw [← hconnect', hconnect]
    exact iff_of_true rfl (by simp)
  | closed => exact iff_of_false (fun hok => by cases hok) (by simp)

end

/-- A connection is contained, whatever the resolver and the network answer. -/
theorem connectTcp_contained (rules : IpRules) (library : HTTPLibrary URL)
    (h : declaredEgressPolicy manifest texts = .ok policy) (network : Network) (host : Text)
    (port : ℕ) : ConnectionContained rules library manifest texts network host port
      (connectTcp rules library policy network host port) := by
  have hrun := connectTcp_run rules library policy network host port
  refine ⟨hrun.order_prefix, fun address hmem => ?_, fun stream => ?_, fun address stream hmem
    hconnect => hrun.eq_ok_iff_not_closed hmem hconnect⟩
  · -- connected
    obtain ⟨destination, hselects⟩ := hrun.selects_of_connect hmem
    obtain ⟨ip, hip, -⟩ := reachable_of_selects h hselects
    obtain ⟨hdeclared, hcanonical, first, rest, hresolve, -, hreachable, hfirst⟩ :=
      (selects_iff h).1 hselects
    exact ⟨destination, hdeclared, hcanonical, first, rest, ip, hresolve, hreachable,
      parse_compressedText hfirst ▸ hip, hip⟩
  · -- returned
    rw [hrun.eq_ok_iff]
    constructor
    · rintro ⟨destination, selected, hselects, hconnect, hpeer⟩
      have hselected := reachable_of_selects h hselects
      obtain ⟨hdeclared, hcanonical, first, rest, hresolve, hlength, hreachable, hfirst⟩ :=
        (selects_iff h).1 hselects
      obtain ⟨peer, haddress, hsame⟩ := (checkPeer_eq_ok h hdeclared hselected _).1 hpeer
      exact ⟨destination, hdeclared, hcanonical, first, rest, selected, peer, hresolve, hlength,
        hreachable, hfirst, hconnect, haddress, hsame⟩
    · rintro ⟨destination, hdeclared, hcanonical, first, rest, selected, peer, hresolve, hlength,
        hreachable, hfirst, hconnect, haddress, hsame⟩
      have hselects : Selects rules library policy network host port destination selected :=
        (selects_iff h).2
          ⟨hdeclared, hcanonical, first, rest, hresolve, hlength, hreachable, hfirst⟩
      exact ⟨destination, selected, hselects, hconnect,
        (checkPeer_eq_ok h hdeclared (reachable_of_selects h hselects) _).2
          ⟨peer, haddress, hsame⟩⟩

end

theorem billingManifest_wellFormed :
    ([billing, search].length ≤ 256 ∧ [billing, search].Nodup) ∧
    [billing, search].Pairwise fun d d' => destinationKey d ≤ destinationKey d' := by
  decide

/-- A manifest with two destinations. -/
def billingManifest : EgressManifest :=
  ⟨[billing, search], billingManifest_wellFormed.1.1, billingManifest_wellFormed.1.2,
    billingManifest_wellFormed.2⟩

theorem billingNetwork_internal :
    ∃ h : (IpNetwork.v4 0x0A010000 16).Aligned, isInternalNetwork ⟨_, none, h⟩ = true := by
  decide +kernel

/-- A policy with an internal network. -/
def billingPolicy : DeclaredEgressPolicy :=
  ⟨[billing, search], [⟨⟨_, none, billingNetwork_internal.1⟩, billingNetwork_internal.2⟩]⟩

/-- A network whose host has two addresses, which answers as it should. -/
def billingHosts : Network where
  resolve := fun _ _ => .ok [lit "10.1.2.3", lit "2606:4700::1111"]
  connect := fun address _ => .ok ⟨some address, .ok ()⟩

theorem connectTcp_contained_example :
    egressManifest [search, billing] = some billingManifest ∧
    declaredEgressPolicy billingManifest [lit "10.1.0.0/16"] = .ok billingPolicy ∧
    (connectTcp ⟨true, true, true, true⟩ (plainLibrary.standard fullWidthTables true) billingPolicy
      billingHosts billing.host 443).1 =
        [.resolve billing.host 443, .connect (lit "10.1.2.3") 443] ∧
    ConnectionContained ⟨true, true, true, true⟩ (plainLibrary.standard fullWidthTables true)
      billingManifest [lit "10.1.0.0/16"] billingHosts billing.host 443
      (connectTcp ⟨true, true, true, true⟩ (plainLibrary.standard fullWidthTables true)
        billingPolicy billingHosts billing.host 443) :=
  have h : declaredEgressPolicy billingManifest [lit "10.1.0.0/16"] = .ok billingPolicy := by
    decide +kernel
  ⟨by decide +kernel, h, by decide +kernel, connectTcp_contained _ _ h _ _ _⟩

end McpRuntime.Outbound
