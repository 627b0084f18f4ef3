import Beskar7Inspector.Lib.Os
import Beskar7Inspector.Lib.Text

namespace Beskar7Inspector.Net

open Lib.Os Lib.Text

structure Ipv4Addr where
  a : UInt8
  b : UInt8
  c : UInt8
  d : UInt8
  deriving DecidableEq, Repr

def parseOctet (s : String) : Option UInt8 :=
  let digits := s.toList
  if digits ≠ [] ∧ digits.length ≤ 3 ∧ digits.all isAsciiDigit ∧ (digits.head? = some '0' → digits.length = 1) ∧
      digitsValue digits < 256 then
    some (UInt8.ofNat (digitsValue digits))
  else none

def Ipv4Addr.parse (s : String) : Option Ipv4Addr :=
  match splitChar '.' s with
  | [a, b, c, d] => do some ⟨← parseOctet a, ← parseOctet b, ← parseOctet c, ← parseOctet d⟩
  | _ => none

/-- The bits, highest first. -/
def Ipv4Addr.bits (addr : Ipv4Addr) : List Bool :=
  [addr.a, addr.b, addr.c, addr.d].flatMap (fun octet => (List.range 8).map (fun i => octet.toNat.testBit (7 - i)))

/-- A mask whose ones are not all at the top counts as 24. -/
def maskToPrefixLen (mask : Ipv4Addr) : UInt8 :=
  let ones := mask.bits.count true
  if (mask.bits.takeWhile id).length = ones then UInt8.ofNat ones else 24

def parseMask (s : String) : Option UInt8 :=
  match Ipv4Addr.parse s with
  | some mask => some (maskToPrefixLen mask)
  | none => ((parseUnsigned 256 s).map UInt8.ofNat).filter (· ≤ 32)

structure NetConfig where
  iface : String
  ip : Ipv4Addr
  prefixLen : UInt8
  gateway : Option Ipv4Addr
  dns : List Ipv4Addr
  deriving DecidableEq, Repr

structure StaticIp where
  ip : Ipv4Addr
  gateway : Option Ipv4Addr
  prefixLen : UInt8
  dns : List Ipv4Addr
  deriving DecidableEq, Repr

/-- `<ip>:<server>:<gw>:<mask>[:<dns>]`, the server ignored. -/
def StaticIp.parse (value : String) : Option StaticIp :=
  let fields (ip gw mask : String) (dns : Option String) : Option StaticIp := do
    let ip ← Ipv4Addr.parse ip
    let gateway ← if gw.isEmpty then some none else (Ipv4Addr.parse gw).map some
    let prefixLen ← parseMask mask
    let dns ← match dns with
      | some d => if d.isEmpty then some [] else (Ipv4Addr.parse d).map fun a => [a]
      | none => some []
    some ⟨ip, gateway, prefixLen, dns⟩
  match splitChar ':' value with
  | [ip, _, gw, mask] => fields ip gw mask none
  | [ip, _, gw, mask, dns] => fields ip gw mask (some dns)
  | _ => none

example : StaticIp.parse "172.16.0.9::172.16.0.1:24" = some ⟨⟨172, 16, 0, 9⟩, some ⟨172, 16, 0, 1⟩, 24, []⟩ := by
  decide +kernel

inductive NetError
  | noInterface
  | bootifNoMatch (mac : String)
  | staticAmbiguous
  | sysRead (path : String)
  | socket (source : Errno)
  | dhcpTimeout
  | dhcpMalformed
  | netlink (op : String) (source : Errno)
  deriving DecidableEq, Repr

end Beskar7Inspector.Net
