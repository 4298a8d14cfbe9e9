import Mathlib.Algebra.Group.Nat.Defs
import Mathlib.Data.Nat.Notation

namespace Workbench.IpAddresses

inductive Address
  | v4 (bits : BitVec 32)
  | v6 (bits : BitVec 128)
  deriving DecidableEq

def hexDigit (c : Char) : Option ℕ :=
  if c.isDigit then some (c.toNat - '0'.toNat)
  else if 'a' ≤ c ∧ c ≤ 'f' then some (c.toNat - 'a'.toNat + 10)
  else if 'A' ≤ c ∧ c ≤ 'F' then some (c.toNat - 'A'.toNat + 10)
  else none

def numeral (base : ℕ) (digits : List ℕ) : ℕ := digits.foldl (fun n d => base * n + d) 0

def octet (s : List Char) : Option ℕ :=
  if s ≠ [] ∧ s.all Char.isDigit ∧ s.length ≤ 3 ∧ (s.length = 1 ∨ s.head? ≠ some '0') then do
    let n := numeral 10 (← s.mapM hexDigit)
    if n ≤ 255 then some n else none
  else none

def ipv4Address (s : List Char) : Option (BitVec 32) := do
  let octets ← (s.splitOn '.').mapM octet
  if octets.length = 4 then some (BitVec.ofNat 32 (numeral 256 octets)) else none

def hextet (s : List Char) : Option ℕ :=
  if s ≠ [] ∧ s.length ≤ 4 then (s.mapM hexDigit).map (numeral 16) else none

def hextets (parts : List (List Char)) : Option ℕ := (parts.mapM hextet).map (numeral 65536)

def ipv6Parts (s : List Char) : Option (List (List Char)) :=
  let parts := s.splitOn ':'
  let last := parts.getLast?.getD []
  if parts.length < 3 then none
  else if '.' ∈ last then (ipv4Address last).map fun bits =>
    parts.dropLast ++ [Nat.toDigits 16 (bits.toNat / 65536), Nat.toDigits 16 (bits.toNat % 65536)]
  else some parts

def skips (parts : List (List Char)) : List ℕ :=
  (List.range parts.length).filter fun i => 0 < i ∧ i + 1 < parts.length ∧ parts[i]? = some []

def ipv6Address (s : List Char) : Option (BitVec 128) := do
  let parts ← ipv6Parts s
  match skips parts with
  | [] => if parts.length = 8 then (hextets parts).map (BitVec.ofNat 128) else none
  | [i] =>
    let high := if parts.head? = some [] then i - 1 else i
    let low := parts.length - i - 1 - if parts.getLast? = some [] then 1 else 0
    if parts.head? = some [] ∧ high ≠ 0 ∨ parts.getLast? = some [] ∧ low ≠ 0 ∨ 8 ≤ high + low then none
    else
      let top ← hextets (parts.take high)
      let bottom ← hextets (parts.drop (parts.length - low))
      some (BitVec.ofNat 128 (top * 65536 ^ (8 - high) + bottom))
  | _ => none

def ipAddress (ip : String) : Option Address :=
  let s := ip.toList
  match ipv4Address s with
  | some bits => some (.v4 bits)
  | none =>
    let zone := (s.dropWhile (· ≠ '%')).drop 1
    if '/' ∈ s ∨ '%' ∈ s ∧ (zone = [] ∨ '%' ∈ zone) then none
    else (ipv6Address (s.takeWhile (· ≠ '%'))).map .v6

structure Network (w : ℕ) where
  base : BitVec w
  length : ℕ

def Network.contains {w : ℕ} (n : Network w) (bits : BitVec w) : Bool :=
  bits >>> (w - n.length) = n.base >>> (w - n.length)

def network4 (a b c d length : ℕ) : Network 32 := ⟨BitVec.ofNat 32 (numeral 256 [a, b, c, d]), length⟩

def network6 (parts : List ℕ) (length : ℕ) : Network 128 :=
  ⟨BitVec.ofNat 128 (numeral 65536 parts * 65536 ^ (8 - parts.length)), length⟩

def privateNetworks4 : List (Network 32) :=
  [network4 0 0 0 0 8, network4 10 0 0 0 8, network4 127 0 0 0 8, network4 169 254 0 0 16,
    network4 172 16 0 0 12, network4 192 0 0 0 24, network4 192 0 0 170 31, network4 192 0 2 0 24,
    network4 192 168 0 0 16, network4 198 18 0 0 15, network4 198 51 100 0 24,
    network4 203 0 113 0 24, network4 240 0 0 0 4, network4 255 255 255 255 32]

def privateExceptions4 : List (Network 32) := [network4 192 0 0 9 32, network4 192 0 0 10 32]

def privateNetworks6 : List (Network 128) :=
  [⟨1, 128⟩, ⟨0, 128⟩, network6 [0, 0, 0, 0, 0, 0xffff] 96, network6 [0x64, 0xff9b, 1] 48,
    network6 [0x100] 64, network6 [0x2001] 23, network6 [0x2001, 0xdb8] 32, network6 [0x2002] 16,
    network6 [0x3fff] 20, network6 [0xfc00] 7, network6 [0xfe80] 10]

def privateExceptions6 : List (Network 128) :=
  [network6 [0x2001, 1, 0, 0, 0, 0, 0, 1] 128, network6 [0x2001, 1, 0, 0, 0, 0, 0, 2] 128,
    network6 [0x2001, 3] 32, network6 [0x2001, 4, 0x112] 48, network6 [0x2001, 0x20] 28,
    network6 [0x2001, 0x30] 28]

def reservedNetworks6 : List (Network 128) :=
  [network6 [0] 8, network6 [0x100] 8, network6 [0x200] 7, network6 [0x400] 6, network6 [0x800] 5,
    network6 [0x1000] 4, network6 [0x4000] 3, network6 [0x6000] 3, network6 [0x8000] 3,
    network6 [0xa000] 3, network6 [0xc000] 3, network6 [0xe000] 4, network6 [0xf000] 5,
    network6 [0xf800] 6, network6 [0xfe00] 9]

def listed {w : ℕ} (networks : List (Network w)) (bits : BitVec w) : Bool :=
  networks.any fun n => n.contains bits

namespace Address

def ipv4Mapped : Address → Option (BitVec 32)
  | .v4 _ => none
  | .v6 bits => if bits >>> 32 = 0xffff then some (bits.setWidth 32) else none

def isPrivate : Address → Bool
  | .v4 bits => listed privateNetworks4 bits && !listed privateExceptions4 bits
  | .v6 bits => listed privateNetworks6 bits && !listed privateExceptions6 bits

def isLoopback : Address → Bool
  | .v4 bits => (network4 127 0 0 0 8).contains bits
  | .v6 bits => bits = 1

def isLinkLocal : Address → Bool
  | .v4 bits => (network4 169 254 0 0 16).contains bits
  | .v6 bits => (network6 [0xfe80] 10).contains bits

def isMulticast : Address → Bool
  | .v4 bits => (network4 224 0 0 0 4).contains bits
  | .v6 bits => (network6 [0xff00] 8).contains bits

def isReserved : Address → Bool
  | .v4 bits => (network4 240 0 0 0 4).contains bits
  | .v6 bits => listed reservedNetworks6 bits

def isUnspecified : Address → Bool
  | .v4 bits => bits = 0
  | .v6 bits => bits = 0

end Address

end Workbench.IpAddresses
