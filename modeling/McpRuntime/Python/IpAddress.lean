import McpRuntime.Python.JsonParser

/-!
# IP addresses

The addresses that `ipaddress.ip_address` reads, and the networks that they are in.
-/

namespace McpRuntime

/-- An address of either version. -/
inductive IpAddress
  | v4 (value : ℕ)
  | v6 (value : ℕ)
  deriving DecidableEq

/-- A network of either version: the addresses with its prefix. -/
inductive IpNetwork
  | v4 (address prefixLength : ℕ)
  | v6 (address prefixLength : ℕ)
  deriving DecidableEq

/-- `address in network`, which does not hold of the other version. -/
def IpNetwork.contains : IpNetwork → IpAddress → Bool
  | .v4 network prefixLength, .v4 address =>
    address / 2 ^ (32 - prefixLength) = network / 2 ^ (32 - prefixLength)
  | .v6 network prefixLength, .v6 address =>
    address / 2 ^ (128 - prefixLength) = network / 2 ^ (128 - prefixLength)
  | _, _ => false

/-- `IPv4Address._parse_octet`: up to three digits without a leading zero. -/
def parseOctet (t : Text) : Option ℕ :=
  if t ≠ [] ∧ t.all CodePoint.isDigit ∧ t.length ≤ 3 ∧ (t = [48] ∨ t.head? ≠ some 48) ∧
      natValue t ≤ 255 then some (natValue t)
  else none

/-- `IPv4Address._ip_int_from_string`. -/
def parseIpv4 (t : Text) : Option ℕ :=
  match (t.split 46).mapM parseOctet with
  | some [a, b, c, d] => some (((a * 256 + b) * 256 + c) * 256 + d)
  | _ => none

/-- `IPv6Address._parse_hextet`, or the empty part of `::`. -/
def parseHextet (t : Text) : Option (Option ℕ) :=
  if t = [] then some none
  else if 4 < t.length then none
  else (t.mapM hexNumber).map fun digits => some (digits.foldl (fun n digit => 16 * n + digit) 0)

/-- The number of hextets. -/
def hextetsValue (hextets : List ℕ) : ℕ := hextets.foldl (fun n hextet => 65536 * n + hextet) 0

/-- The parts of an address, of which an empty one within stands for zeros; one at an end
    is empty only next to it. -/
def joinHextets (parts : List (Option ℕ)) : Option ℕ := do
  let inner := parts.tail.dropLast
  if 9 < parts.length ∨ 1 < inner.count none then none
  else
    match inner.idxOf? none with
    | none =>
      let hextets ← parts.mapM id
      if hextets.length = 8 then some (hextetsValue hextets) else none
    | some i =>
      let high ← if parts.take (i + 1) = [none] then some [] else (parts.take (i + 1)).mapM id
      let low ← if parts.drop (i + 2) = [none] then some [] else (parts.drop (i + 2)).mapM id
      if high.length + low.length < 8 then
        some (hextetsValue high * 65536 ^ (8 - high.length) + hextetsValue low)
      else none

/-- `IPv6Address._ip_int_from_string`, whose last part may be an address of version 4. -/
def parseIpv6Value (t : Text) : Option ℕ := do
  let parts := t.split 58
  if parts.length < 3 then none
  else
    let last := parts.getLastD []
    if last.contains 46 then
      let value ← parseIpv4 last
      let hextets ← parts.dropLast.mapM parseHextet
      joinHextets (hextets ++ [some (value / 65536), some (value % 65536)])
    else joinHextets (← parts.mapM parseHextet)

/-- `IPv6Address`, with a scope or without. -/
def parseIpv6 (t : Text) : Option ℕ :=
  if t.contains 47 then none
  else
    match t.partition 37 with
    | (address, none) => parseIpv6Value address
    | (address, some scope) =>
      if scope = [] ∨ scope.contains 37 then none else parseIpv6Value address

/-- `ipaddress.ip_address`, which raises `ValueError` for what is no address. -/
def IpAddress.parse (t : Text) : Option IpAddress :=
  match parseIpv4 t with
  | some value => some (.v4 value)
  | none => (parseIpv6 t).map .v6

example : IpAddress.parse (lit "10.0.0.7") = some (.v4 167772167) ∧
    IpAddress.parse (lit "::1") = some (.v6 1) ∧ IpAddress.parse (lit "1::") = some (.v6 (2 ^ 112)) ∧
    IpAddress.parse (lit "::ffff:1.2.3.4") = some (.v6 281470698652420) ∧
    IpAddress.parse (lit "1:2") = none ∧ IpAddress.parse (lit "010.0.0.7") = none := by
  decide

end McpRuntime
