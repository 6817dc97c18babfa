import McpRuntime.Python.IpAddressText

/-!
# IP networks

The networks that `ipaddress.ip_network` reads, and the properties of addresses that the tables
of `ipaddress` give.

* `IpNetwork.contains_iff`: a network is the interval of its addresses.
* `IpNetwork.contains_of_subnetOf`: a subnet has only addresses of its network.
* `parse_compressedText`: the text of an address stands for it, with a scope or without.
* `Ipv4.isOrdinary_eq_false`, `Ipv6.isOrdinary_eq_false`: an address that has none of the
  properties has no special purpose. Of version 6, it is in `2000::/3`, or in `fec0::/10`, which
  no table of a property that is asked for names.
-/

namespace McpRuntime

/-! ## Addresses with a scope -/

/-- `ipaddress.ip_address(t).compressed`, which keeps the scope. -/
def compressedText (dotted : Bool) (t : Text) : Option Text :=
  (IpAddress.parse t).map fun ip =>
    ip.compressed dotted ++ (t.partition 37).2.elim [] (List.cons 37)

/-- What is partitioned consists of the parts. -/
theorem Text.eq_of_partition {separator : CodePoint} {t before rest : Text}
    (h : t.partition separator = (before, some rest)) :
    t = before ++ separator :: rest ∧ separator ∉ before := by
  rw [Text.partition] at h
  cases hdrop : t.dropWhile (· ≠ separator) with
  | nil =>
    rw [hdrop] at h
    cases h
  | cons c after =>
    rw [hdrop] at h
    obtain ⟨rfl, hrest⟩ := Prod.mk.inj h
    obtain rfl := Option.some.inj hrest
    have hc := List.head?_dropWhile_not (· ≠ separator) t
    rw [hdrop] at hc
    obtain rfl : c = separator := by simpa using hc
    refine ⟨by rw [← hdrop, List.takeWhile_append_dropWhile], fun hmem => ?_⟩
    simpa using List.mem_takeWhile_imp hmem

theorem parseIpv6Value_compressed (dotted : Bool) {value : ℕ} (h : value < 2 ^ 128) :
    parseIpv6Value ((IpAddress.v6 value).compressed dotted) = some value := by
  rw [IpAddress.compressed, ipv6Text]
  split_ifs with hmapped
  · rw [Bool.and_eq_true, decide_eq_true_iff] at hmapped
    exact parseIpv6Value_mapped hmapped.2
  · exact parseIpv6Value_hextets h

/-- The text of an address, with its scope, stands for the address. -/
theorem parse_compressedText {dotted : Bool} {t s : Text} (h : compressedText dotted t = some s) :
    IpAddress.parse s = IpAddress.parse t := by
  obtain ⟨ip, hip, rfl⟩ := Option.map_eq_some_iff.1 h
  have hrange := inRange_of_parse hip
  have hchars : ∀ c, isAddressChar c = false → c ∉ ip.compressed dotted := fun c hc hmem =>
    Bool.eq_false_iff.1 hc (isAddressChar_of_compressed hmem)
  cases hpartition : t.partition 37 with
  | mk address scope =>
    cases scope with
    | none =>
      rw [Option.elim_none, List.append_nil, parse_compressed dotted hrange, hip]
    | some scope =>
      -- There is a `%` in the text, so that it is an address of IPv6; the
      -- scope is kept as it was, and has no slash in it.
      obtain ⟨ht, -⟩ := Text.eq_of_partition hpartition
      have hpercent : (37 : CodePoint) ∈ t := ht ▸ List.mem_append_right _ List.mem_cons_self
      have hparsed := hip
      rw [IpAddress.parse, parseIpv4_of_mem (by decide) (by decide) hpercent] at hparsed
      obtain ⟨value, hvalue, rfl⟩ := Option.map_eq_some_iff.1 hparsed
      rw [parseIpv6, hpartition] at hvalue
      split_ifs at hvalue with hslash
      dsimp only at hvalue
      split_ifs at hvalue with hscope
      have hslash' :
          ¬((IpAddress.v6 value).compressed dotted ++ 37 :: scope).contains 47 = true := by
        rw [List.contains_iff_mem, List.mem_append, List.mem_cons]
        rintro (hmem | hmem | hmem)
        · exact hchars 47 (by decide) hmem
        · exact absurd hmem (by decide)
        · rw [List.contains_iff_mem, ht] at hslash
          exact hslash (List.mem_append_right _ (List.mem_cons_of_mem _ hmem))
      rw [hip, Option.elim_some, IpAddress.parse, parseIpv4_of_mem (by decide) (by decide)
        (List.mem_append_right _ List.mem_cons_self : (37 : CodePoint) ∈ _)]
      dsimp only
      rw [parseIpv6, if_neg hslash', Text.partition_append (hchars 37 (by decide))]
      dsimp only
      rw [if_neg hscope, parseIpv6Value_compressed dotted hrange]
      rfl

/-! ## Reading networks -/

/-- `_prefix_from_prefix_string`: a number in ASCII digits, up to `maximum`. -/
def prefixFromString (maximum : ℕ) (t : Text) : Option ℕ :=
  if t ≠ [] ∧ t.all CodePoint.isDigit ∧ t.length ≤ 4300 ∧ natValue t ≤ maximum then
    some (natValue t)
  else none

/-- `_prefix_from_ip_int`, of version 4: the length of the prefix whose mask this is. -/
def prefixFromMask (mask : ℕ) : Option ℕ :=
  (List.range 33).find? fun length => mask = 2 ^ 32 - 2 ^ (32 - length)

/-- `_make_netmask` of version 4: the length of the prefix, its mask, or the mask of the rest. -/
def prefixV4 (t : Text) : Option ℕ :=
  (prefixFromString 32 t).orElse fun _ => do
    let mask ← parseIpv4 t
    (prefixFromMask mask).orElse fun _ => prefixFromMask (2 ^ 32 - 1 - mask)

namespace IpNetwork

/-- The network has the version and the bits of an address: none is beyond the prefix. -/
def Aligned : IpNetwork → Prop
  | .v4 network length => 2 ^ (32 - length) ∣ network
  | .v6 network length => 2 ^ (128 - length) ∣ network

instance : DecidablePred Aligned
  | .v4 network length => inferInstanceAs (Decidable (2 ^ (32 - length) ∣ network))
  | .v6 network length => inferInstanceAs (Decidable (2 ^ (128 - length) ∣ network))

end IpNetwork

/-- A network that is read (`strict=True`): it has no bits beyond its prefix. Its address may have
    a scope. -/
structure StrictNetwork where
  network : IpNetwork
  scope : Option Text := none
  aligned : network.Aligned
  deriving DecidableEq

namespace IpNetwork

/-- The check of the constructors. -/
def strict (network : IpNetwork) (scope : Option Text) : Option StrictNetwork :=
  if h : network.Aligned then some ⟨network, scope, h⟩ else none

/-- The constructors of the two versions, of an address and what follows the slash. -/
def read (address : Text) (mask : Option Text) : Option StrictNetwork :=
  match parseIpv4 address, mask.elim (some 32) prefixV4 with
  | some network, some length => strict (.v4 network length) none
  | _, _ => do
    let network ← parseIpv6 address
    let length ← mask.elim (some 128) (prefixFromString 128)
    strict (.v6 network length) (address.partition 37).2

/-- `ipaddress.ip_network(t, strict=True)`. -/
def parse (t : Text) : Option StrictNetwork :=
  match t.split 47 with
  | [address] => read address none
  | [address, mask] => read address (some mask)
  | _ => none

/-- The networks of a table. -/
def table (texts : List String) : List IpNetwork :=
  texts.filterMap fun text => (parse (lit text)).map StrictNetwork.network

example : parse (lit "10.0.0.0/8") = some { network := .v4 167772160 8, aligned := by decide } ∧
    parse (lit "10.0.0.0/255.0.0.0") = parse (lit "10.0.0.0/8") ∧
    parse (lit "10.0.0.0/0.255.255.255") = parse (lit "10.0.0.0/8") ∧
    parse (lit "10.0.0.1/8") = none ∧
    (parse (lit "::1")).map StrictNetwork.network = some (.v6 1 128) ∧
    (parse (lit "fe80::%1/64")).map StrictNetwork.scope = some (some (lit "1")) := by
  decide +kernel

/-! ## Subnets -/

/-- The integer of `network_address`. -/
def first : IpNetwork → ℕ
  | .v4 network _ => network
  | .v6 network _ => network

/-- The integer of `broadcast_address`, of a network without bits beyond the prefix. -/
def last : IpNetwork → ℕ
  | .v4 network length => network + (2 ^ (32 - length) - 1)
  | .v6 network length => network + (2 ^ (128 - length) - 1)

/-- The version of the network. -/
def isV4 : IpNetwork → Bool
  | .v4 _ _ => true
  | .v6 _ _ => false

/-- `network.subnet_of(other)`, of another network without a scope. Two addresses with
    different scopes are never equal, so `<=` is `<` for a network with a scope. -/
def subnetOf (network : StrictNetwork) (other : IpNetwork) : Bool :=
  network.network.isV4 = other.isV4 &&
    (other.first < network.network.first ||
      (other.first = network.network.first && network.scope = none)) &&
    network.network.last ≤ other.last

theorem div_eq_div_iff {size network : ℕ} (hsize : 0 < size) (h : size ∣ network) (address : ℕ) :
    address / size = network / size ↔ network ≤ address ∧ address ≤ network + (size - 1) := by
  obtain ⟨n, rfl⟩ := h
  rw [Nat.mul_div_cancel_left n hsize, Nat.div_eq_iff hsize, Nat.mul_comm n size]
  omega

/-- A network contains the addresses of its version from the first to the last. -/
theorem contains_iff {network : IpNetwork} (h : network.Aligned) (ip : IpAddress) :
    network.contains ip = true ↔
      match network, ip with
      | .v4 _ _, .v4 address => network.first ≤ address ∧ address ≤ network.last
      | .v6 _ _, .v6 address => network.first ≤ address ∧ address ≤ network.last
      | _, _ => False := by
  cases network <;> cases ip <;>
    simp only [contains, decide_eq_true_eq, Bool.false_eq_true, first, last]
  · exact div_eq_div_iff (Nat.two_pow_pos _) h _
  · exact div_eq_div_iff (Nat.two_pow_pos _) h _

/-- The network of version 4 of a prefix. -/
def blockV4 (network length : ℕ) : IpNetwork := .v4 (network * 2 ^ (32 - length)) length

/-- The network of version 6 of a prefix. -/
def blockV6 (network length : ℕ) : IpNetwork := .v6 (network * 2 ^ (128 - length)) length

theorem div_eq_iff_block {size network : ℕ} (hsize : 0 < size) (address : ℕ) :
    address / size = network ↔ network * size ≤ address ∧ address < (network + 1) * size := by
  rw [Nat.div_eq_iff hsize, Nat.succ_mul]
  omega

theorem contains_blockV4 (network length address : ℕ) :
    (blockV4 network length).contains (.v4 address) = true ↔
      network * 2 ^ (32 - length) ≤ address ∧ address < (network + 1) * 2 ^ (32 - length) := by
  have hsize := Nat.two_pow_pos (32 - length)
  rw [blockV4, contains, decide_eq_true_eq, Nat.mul_div_cancel _ hsize, div_eq_iff_block hsize]

theorem contains_blockV6 (network length address : ℕ) :
    (blockV6 network length).contains (.v6 address) = true ↔
      network * 2 ^ (128 - length) ≤ address ∧ address < (network + 1) * 2 ^ (128 - length) := by
  have hsize := Nat.two_pow_pos (128 - length)
  rw [blockV6, contains, decide_eq_true_eq, Nat.mul_div_cancel _ hsize, div_eq_iff_block hsize]

/-- What a subnet contains is in its network. -/
theorem contains_of_subnetOf {network : StrictNetwork} {other : IpNetwork} (hother : other.Aligned)
    (hsub : subnetOf network other = true) {ip : IpAddress}
    (h : network.network.contains ip = true) : other.contains ip = true := by
  simp only [subnetOf, Bool.and_eq_true, Bool.or_eq_true, decide_eq_true_eq] at hsub
  obtain ⟨⟨hversion, hfirst⟩, hlast⟩ := hsub
  have hfirst : other.first ≤ network.network.first := by omega
  obtain ⟨network, scope, haligned⟩ := network
  rw [contains_iff haligned] at h
  rw [contains_iff hother]
  cases network <;> cases other <;> cases ip <;> first
    | exact ⟨hfirst.trans h.1, h.2.trans hlast⟩
    | exact h.elim
    | cases hversion

end IpNetwork

/-! ## The properties of addresses -/

/-- `address in network`, of a network of the list. -/
def IpAddress.inAny (ip : IpAddress) (networks : List IpNetwork) : Bool :=
  networks.any fun network => network.contains ip

/-- What differs between the versions of `ipaddress` from 3.12.4 on. -/
structure IpRules where
  /-- `str` writes the end of a mapped address with dots. -/
  dotted : Bool
  /-- A mapped address has the properties of its address of version 4, not only `is_private`. -/
  mapped : Bool
  /-- So has its `is_loopback`. -/
  mappedLoopback : Bool
  /-- `3fff::/20` is private. -/
  documentation : Bool

namespace Ipv4

/-- `_private_networks`. -/
def privateNetworks : List IpNetwork :=
  IpNetwork.table ["0.0.0.0/8", "10.0.0.0/8", "127.0.0.0/8", "169.254.0.0/16", "172.16.0.0/12",
    "192.0.0.0/24", "192.0.0.170/31", "192.0.2.0/24", "192.168.0.0/16", "198.18.0.0/15",
    "198.51.100.0/24", "203.0.113.0/24", "240.0.0.0/4", "255.255.255.255/32"]

/-- `_private_networks_exceptions`. -/
def privateExceptions : List IpNetwork := IpNetwork.table ["192.0.0.9/32", "192.0.0.10/32"]

def isPrivate (address : ℕ) : Bool :=
  (IpAddress.v4 address).inAny privateNetworks && !(IpAddress.v4 address).inAny privateExceptions

/-- `is_global`, which leaves out the shared addresses. -/
def isGlobal (address : ℕ) : Bool :=
  !(IpAddress.v4 address).inAny (IpNetwork.table ["100.64.0.0/10"]) && !isPrivate address

def isLoopback (address : ℕ) : Bool :=
  (IpAddress.v4 address).inAny (IpNetwork.table ["127.0.0.0/8"])

def isLinkLocal (address : ℕ) : Bool :=
  (IpAddress.v4 address).inAny (IpNetwork.table ["169.254.0.0/16"])

def isMulticast (address : ℕ) : Bool :=
  (IpAddress.v4 address).inAny (IpNetwork.table ["224.0.0.0/4"])

def isReserved (address : ℕ) : Bool :=
  (IpAddress.v4 address).inAny (IpNetwork.table ["240.0.0.0/4"])

def isUnspecified (address : ℕ) : Bool := address = 0

end Ipv4

namespace Ipv6

/-- `ipv4_mapped`. -/
def mapped (address : ℕ) : Option ℕ :=
  if address / 2 ^ 32 = 0xFFFF then some (address % 2 ^ 32) else none

/-- `teredo`: the server and the client. -/
def teredo (address : ℕ) : Option (ℕ × ℕ) :=
  if address / 2 ^ 96 = 0x20010000 then
    some (address / 2 ^ 64 % 2 ^ 32, 2 ^ 32 - 1 - address % 2 ^ 32)
  else none

/-- `sixtofour`. -/
def sixToFour (address : ℕ) : Option ℕ :=
  if address / 2 ^ 112 = 0x2002 then some (address / 2 ^ 80 % 2 ^ 32) else none

/-- `_private_networks`, without `3fff::/20`. -/
def privateNetworks : List IpNetwork :=
  IpNetwork.table ["::1/128", "::/128", "::ffff:0:0/96", "64:ff9b:1::/48", "100::/64", "2001::/23",
    "2001:db8::/32", "2002::/16", "fc00::/7", "fe80::/10"]

/-- `_private_networks_exceptions`. -/
def privateExceptions : List IpNetwork :=
  IpNetwork.table ["2001:1::1/128", "2001:1::2/128", "2001:3::/32", "2001:4:112::/48",
    "2001:20::/28", "2001:30::/28"]

/-- `_reserved_networks`. -/
def reservedNetworks : List IpNetwork :=
  IpNetwork.table ["::/8", "100::/8", "200::/7", "400::/6", "800::/5", "1000::/4", "4000::/3",
    "6000::/3", "8000::/3", "A000::/3", "C000::/3", "E000::/4", "F000::/5", "F800::/6", "FE00::/9"]

/-- A property that a mapped address has from its address of version 4, where it does. -/
def property (delegates : Bool) (ofV4 own : ℕ → Bool) (address : ℕ) : Bool :=
  if delegates then (mapped address).elim (own address) ofV4 else own address

theorem property_of_none {delegates : Bool} {ofV4 own : ℕ → Bool} {address : ℕ}
    (h : mapped address = none) : property delegates ofV4 own address = own address := by
  rw [property, h, Option.elim_none, ite_self]

theorem property_of_some {ofV4 own : ℕ → Bool} {address value : ℕ}
    (h : mapped address = some value) : property true ofV4 own address = ofV4 value := by
  rw [property, h, if_pos rfl, Option.elim_some]

theorem property_false (ofV4 own : ℕ → Bool) (address : ℕ) :
    property false ofV4 own address = own address := if_neg Bool.false_ne_true

def isPrivate (rules : IpRules) : ℕ → Bool :=
  property true Ipv4.isPrivate fun address =>
    let ip := IpAddress.v6 address
    (ip.inAny privateNetworks ||
        (rules.documentation && ip.inAny (IpNetwork.table ["3fff::/20"]))) &&
      !ip.inAny privateExceptions

def isGlobal (rules : IpRules) : ℕ → Bool :=
  property rules.mapped Ipv4.isGlobal fun address => !isPrivate rules address

def isLoopback (rules : IpRules) : ℕ → Bool :=
  property rules.mappedLoopback Ipv4.isLoopback fun address => address = 1

def isLinkLocal (rules : IpRules) : ℕ → Bool :=
  property rules.mapped Ipv4.isLinkLocal fun address =>
    (IpAddress.v6 address).inAny (IpNetwork.table ["fe80::/10"])

def isMulticast (rules : IpRules) : ℕ → Bool :=
  property rules.mapped Ipv4.isMulticast fun address =>
    (IpAddress.v6 address).inAny (IpNetwork.table ["ff00::/8"])

def isReserved (rules : IpRules) : ℕ → Bool :=
  property rules.mapped Ipv4.isReserved fun address =>
    (IpAddress.v6 address).inAny reservedNetworks

def isUnspecified (rules : IpRules) : ℕ → Bool :=
  property rules.mapped Ipv4.isUnspecified fun address => address = 0

end Ipv6

/-! ## Addresses without a special purpose -/

namespace Ipv4

/-- The blocks with a special purpose. -/
def specialNetworks : List IpNetwork :=
  IpNetwork.table ["0.0.0.0/8", "10.0.0.0/8", "100.64.0.0/10", "127.0.0.0/8", "169.254.0.0/16",
    "172.16.0.0/12", "192.0.0.0/24", "192.0.2.0/24", "192.168.0.0/16", "198.18.0.0/15",
    "198.51.100.0/24", "203.0.113.0/24", "224.0.0.0/3"]

/-- An address that is in no block with a special purpose, except for two of a block. -/
def isOrdinary (address : ℕ) : Bool :=
  !(IpAddress.v4 address).inAny specialNetworks || (IpAddress.v4 address).inAny privateExceptions

/-- The networks of the tables, by their prefixes. -/
theorem tables_eq :
    privateNetworks = [.blockV4 0 8, .blockV4 10 8, .blockV4 127 8, .blockV4 0xA9FE 16,
      .blockV4 0xAC1 12, .blockV4 0xC00000 24, .blockV4 0x60000055 31, .blockV4 0xC00002 24,
      .blockV4 0xC0A8 16, .blockV4 0x6309 15, .blockV4 0xC63364 24, .blockV4 0xCB0071 24,
      .blockV4 0xF 4, .blockV4 0xFFFFFFFF 32] ∧
    privateExceptions = [.blockV4 0xC0000009 32, .blockV4 0xC000000A 32] ∧
    specialNetworks = [.blockV4 0 8, .blockV4 10 8, .blockV4 0x191 10, .blockV4 127 8,
      .blockV4 0xA9FE 16, .blockV4 0xAC1 12, .blockV4 0xC00000 24, .blockV4 0xC00002 24,
      .blockV4 0xC0A8 16, .blockV4 0x6309 15, .blockV4 0xC63364 24, .blockV4 0xCB0071 24,
      .blockV4 7 3] ∧
    IpNetwork.table ["100.64.0.0/10"] = [.blockV4 0x191 10] ∧
    IpNetwork.table ["127.0.0.0/8"] = [.blockV4 127 8] ∧
    IpNetwork.table ["169.254.0.0/16"] = [.blockV4 0xA9FE 16] ∧
    IpNetwork.table ["224.0.0.0/4"] = [.blockV4 0xE 4] ∧
    IpNetwork.table ["240.0.0.0/4"] = [.blockV4 0xF 4] := by
  decide +kernel

/-- The properties that an address without a special purpose does not have, of which it has one
    otherwise. -/
theorem isOrdinary_eq_false (address : ℕ) :
    isOrdinary address = false ↔ isGlobal address = false ∨ isPrivate address = true ∨
      isLoopback address = true ∨ isLinkLocal address = true ∨ isMulticast address = true ∨
      isReserved address = true ∨ isUnspecified address = true := by
  obtain ⟨hprivate, hexceptions, hspecial, hshared, hloopback, hlocal, hmulticast, hreserved⟩ :=
    tables_eq
  simp only [isOrdinary, isGlobal, isPrivate, isLoopback, isLinkLocal, isMulticast, isReserved,
    isUnspecified, hprivate, hexceptions, hspecial, hshared, hloopback, hlocal, hmulticast,
    hreserved, IpAddress.inAny, List.any_cons, List.any_nil, ← Bool.not_eq_true, Bool.and_eq_true,
    Bool.or_eq_true, Bool.not_eq_true', Bool.or_false, IpNetwork.contains_blockV4,
    decide_eq_true_eq, Nat.reduceSub, Nat.reducePow, Nat.reduceMul, Nat.reduceAdd]
  constructor
  · grind
  · grind

theorem isPrivate_of_isLoopback {address : ℕ} (h : isLoopback address = true) :
    isPrivate address = true := by
  obtain ⟨hprivate, hexceptions, -, -, hloopback, -⟩ := tables_eq
  simp only [isLoopback, isPrivate, hprivate, hexceptions, hloopback, IpAddress.inAny,
    List.any_cons, List.any_nil, ← Bool.not_eq_true, Bool.and_eq_true, Bool.or_eq_true,
    Bool.not_eq_true', Bool.or_false, IpNetwork.contains_blockV4, Nat.reduceSub, Nat.reducePow,
    Nat.reduceMul, Nat.reduceAdd] at h ⊢
  omega

end Ipv4

namespace Ipv6

/-- The blocks of global addresses: those for single hosts, and those of a site, which the tables
    do not name. -/
def globalNetworks : List IpNetwork := IpNetwork.table ["2000::/3", "fec0::/10"]

/-- The blocks with a special purpose among them. -/
def specialNetworks : List IpNetwork := IpNetwork.table ["2001::/23", "2001:db8::/32", "2002::/16"]

/-- An address that is global, and in no block with a special purpose, except for some of a
    block. A mapped address is one where its address of version 4 is. -/
def isOrdinary (rules : IpRules) : ℕ → Bool :=
  property rules.mapped Ipv4.isOrdinary fun address =>
    let ip := IpAddress.v6 address
    (ip.inAny globalNetworks && !ip.inAny specialNetworks &&
      !(rules.documentation && ip.inAny (IpNetwork.table ["3fff::/20"]))) ||
        ip.inAny privateExceptions

/-- The networks of the tables, by their prefixes. -/
theorem tables_eq :
    privateNetworks = [.blockV6 1 128, .blockV6 0 128, .blockV6 0xFFFF 96,
      .blockV6 0x64FF9B0001 48, .blockV6 (2 ^ 56) 64, .blockV6 0x100080 23,
      .blockV6 0x20010DB8 32, .blockV6 0x2002 16, .blockV6 0x7E 7, .blockV6 0x3FA 10] ∧
    privateExceptions = [.blockV6 (0x20010001 * 2 ^ 96 + 1) 128,
      .blockV6 (0x20010001 * 2 ^ 96 + 2) 128, .blockV6 0x20010003 32, .blockV6 0x200100040112 48,
      .blockV6 0x2001002 28, .blockV6 0x2001003 28] ∧
    reservedNetworks = [.blockV6 0 8, .blockV6 1 8, .blockV6 1 7, .blockV6 1 6, .blockV6 1 5,
      .blockV6 1 4, .blockV6 2 3, .blockV6 3 3, .blockV6 4 3, .blockV6 5 3, .blockV6 6 3,
      .blockV6 0xE 4, .blockV6 0x1E 5, .blockV6 0x3E 6, .blockV6 0x1FC 9] ∧
    globalNetworks = [.blockV6 1 3, .blockV6 0x3FB 10] ∧
    specialNetworks = [.blockV6 0x100080 23, .blockV6 0x20010DB8 32, .blockV6 0x2002 16] ∧
    IpNetwork.table ["fe80::/10"] = [.blockV6 0x3FA 10] ∧
    IpNetwork.table ["ff00::/8"] = [.blockV6 0xFF 8] := by
  decide +kernel

/-- Outside of the reserved blocks, an address is global, private, or for links or groups. -/
theorem isOrdinary_own {address : ℕ} (h : address < 2 ^ 128) :
    ((IpAddress.v6 address).inAny globalNetworks = true ∧
        ¬(IpAddress.v6 address).inAny specialNetworks = true ∨
      (IpAddress.v6 address).inAny privateExceptions = true) ↔
    ¬(((IpAddress.v6 address).inAny privateNetworks = true ∧
        ¬(IpAddress.v6 address).inAny privateExceptions = true) ∨ address = 1 ∨
      (IpAddress.v6 address).inAny (IpNetwork.table ["fe80::/10"]) = true ∨
      (IpAddress.v6 address).inAny (IpNetwork.table ["ff00::/8"]) = true ∨
      (IpAddress.v6 address).inAny reservedNetworks = true ∨ address = 0) := by
  -- The blocks are compared by their leading bits, which leaves arithmetic.
  obtain ⟨hprivate, hexceptions, hreserved, hglobal, hspecial, hlocal, hmulticast⟩ := tables_eq
  simp only [hprivate, hexceptions, hreserved, hglobal, hspecial, hlocal, hmulticast,
    IpAddress.inAny, List.any_cons, List.any_nil, Bool.or_eq_true, Bool.or_false,
    IpNetwork.contains_blockV6, Nat.reduceSub, Nat.reducePow, Nat.reduceMul, Nat.reduceAdd] at h ⊢
  constructor
  · rintro hordinary (⟨hprivate, hexcept⟩ | hone | hlocal | hmulticast | hreserved | hzero)
    · grind
    · grind
    · grind
    · grind
    · omega
    · grind
  · grind

/-- A mapped address is in a reserved block. -/
theorem reserved_of_mapped {address value : ℕ} (h : mapped address = some value) :
    address < 2 ^ 128 ∧ address ≠ 1 ∧ (IpAddress.v6 address).inAny reservedNetworks = true := by
  rw [mapped] at h
  split_ifs at h with hmapped
  obtain ⟨-, -, hreserved, -⟩ := tables_eq
  rw [hreserved, IpAddress.inAny, List.any_cons, Bool.or_eq_true, IpNetwork.contains_blockV6]
  refine ⟨by omega, by omega, .inl ?_⟩
  omega

/-- The properties that an address without a special purpose does not have, of which it has one
    otherwise. -/
theorem isOrdinary_eq_false (rules : IpRules) {address : ℕ} (h : address < 2 ^ 128) :
    isOrdinary rules address = false ↔ isGlobal rules address = false ∨
      isPrivate rules address = true ∨ isLoopback rules address = true ∨
      isLinkLocal rules address = true ∨ isMulticast rules address = true ∨
      isReserved rules address = true ∨ isUnspecified rules address = true := by
  have hown := isOrdinary_own h
  cases hm : mapped address with
  | none =>
    simp only [isOrdinary, isGlobal, isPrivate, isLoopback, isLinkLocal, isMulticast, isReserved,
      isUnspecified, property_of_none hm, ← Bool.not_eq_true, Bool.or_eq_true, Bool.and_eq_true,
      Bool.not_eq_true', decide_eq_true_eq]
    by_cases hexcept : (IpAddress.v6 address).inAny privateExceptions = true
    · simp only [hexcept, or_true, true_iff, not_true_eq_false, and_false, false_or,
        not_false_eq_true] at hown ⊢
      exact iff_of_false id hown
    · simp only [hexcept, or_false, not_false_eq_true, and_true, Bool.false_eq_true] at hown ⊢
      grind
  | some value =>
    -- A mapped address has the properties of the IPv4 address in it, where
    -- the library looks into it, and is a reserved one otherwise.
    obtain ⟨-, hone, hreserved⟩ := reserved_of_mapped hm
    cases hrules : rules.mapped with
    | true =>
      have hv4 := Ipv4.isOrdinary_eq_false value
      have hloopback := @Ipv4.isPrivate_of_isLoopback value
      cases hl : rules.mappedLoopback <;>
        simp only [isOrdinary, isGlobal, isPrivate, isLoopback, isLinkLocal, isMulticast,
          isReserved, isUnspecified, hrules, hl, property_of_some hm, property_false,
          decide_eq_true_eq, hone, hv4]
      grind
    | false =>
      simp only [isOrdinary, isReserved, hrules, property_false, hreserved, true_or, or_true,
        iff_true, ← Bool.not_eq_true, Bool.or_eq_true, Bool.and_eq_true, Bool.not_eq_true']
      have hout := mt hown.1 (not_not_intro (.inr (.inr (.inr (.inr (.inl hreserved))))))
      exact fun hordinary => hout (hordinary.imp_left fun hglobal => ⟨hglobal.1.1, hglobal.1.2⟩)

end Ipv6

end McpRuntime
