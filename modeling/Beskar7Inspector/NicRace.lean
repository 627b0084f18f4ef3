import Beskar7Inspector.DhcpLease
import Beskar7Inspector.Lib.Hexadecimal
import Beskar7Inspector.Lib.Threads
import Beskar7Inspector.SelectNics

namespace Beskar7Inspector.NicRace

open Lib.Program Lib.Os Lib.Text Lib.Hexadecimal Lib.Threads SysTree Net Dhcp SelectNics

inductive LinkOp : Type → Type
  | linkUp (ifindex : UInt32) : LinkOp (Except Errno Unit)
  | linkDown (ifindex : UInt32) : LinkOp (Except Errno Unit)
  | addAddress (ifindex : UInt32) (ip : Ipv4Addr) (prefixLen : UInt8) : LinkOp (Except Errno Unit)
  | addDefaultRoute (ifindex : UInt32) (gw : Ipv4Addr) : LinkOp (Except Errno Unit)
  | waitForLink (iface : String) : LinkOp Unit

abbrev Calls (β : Type) : Type := LinkOp β ⊕ DhcpOp β

abbrev NetIo := Try Calls NetError

/-- One optional leading plus sign, then at least one hex digit. -/
def parseHexU8 (s : String) : Option UInt8 :=
  let digits := match s.toList with
    | '+' :: cs => cs
    | cs => cs
  if digits = [] then none
  else ((digits.foldlM (fun n c => (hexDigitValue c).map (16 * n + ·)) 0).filter (· < 256)).map UInt8.ofNat

def parseMac (s : String) : Option Mac :=
  match splitChar ':' s with
  | [a, b, c, d, e, f] => do
      some ⟨[← parseHexU8 a, ← parseHexU8 b, ← parseHexU8 c, ← parseHexU8 d, ← parseHexU8 e, ← parseHexU8 f], rfl⟩
  | _ => none

def readIfindex (net : SysDir) (iface : String) : Except NetError UInt32 :=
  match (net.readTrimmed [iface, "ifindex"]).bind parseU32 with
  | some ifindex => .ok ifindex
  | none => .error (.sysRead (SYSFS_NET ++ "/" ++ iface ++ "/ifindex"))

def readMac (net : SysDir) (iface : String) : Except NetError Mac :=
  match (net.readTrimmed [iface, "address"]).bind parseMac with
  | some mac => .ok mac
  | none => .error (.sysRead (SYSFS_NET ++ "/" ++ iface ++ "/address"))

/-- Bring the link up and make one DHCP exchange over it. -/
def dhcpLink (patience : Nat) (iface : String) (ifindex : UInt32) (mac : Mac) : NetIo Lease := do
  attempt (.inl (.linkUp ifindex)) (.netlink "link up")
  always (.inl (.waitForLink iface))
  embed .inr (acquire patience iface mac)

def applyLease (ifindex : UInt32) (lease : Lease) : NetIo Unit := do
  attempt (.inl (.addAddress ifindex lease.ip lease.prefixLen)) (.netlink "add address")
  match lease.gateway with
  | some gw => attempt (.inl (.addDefaultRoute ifindex gw)) (.netlink "add default route")
  | none => pure ()

def netConfig (iface : String) (lease : Lease) : NetConfig := ⟨iface, lease.ip, lease.prefixLen, lease.gateway, lease.dns⟩

/-- The position of the first lease with a gateway, else of the first lease. -/
def chooseLease (leases : List (Option Lease)) : Option Nat :=
  (leases.findIdx? (fun lease => lease.any (fun l => l.gateway.isSome))).or (leases.findIdx? Option.isSome)

structure Candidate where
  iface : String
  ifindex : UInt32
  mac : Mac
  deriving DecidableEq

/-- The interfaces whose attributes can be read. -/
def readCandidates (net : SysDir) (ifaces : List String) : List Candidate :=
  ifaces.filterMap (fun iface =>
    match readIfindex net iface, readMac net iface with
    | .ok ifindex, .ok mac => some ⟨iface, ifindex, mac⟩
    | _, _ => none)

/-- What the thread of one candidate runs. -/
def exchange (patience : Nat) (c : Candidate) : Prog Calls (Option Lease) :=
  (dhcpLink patience c.iface c.ifindex c.mac).run >>= fun r => pure r.toOption

def linkDownOthers (winner : Nat) : Nat → List (Candidate × Option Lease) → NetIo Unit
  | _, [] => pure ()
  | idx, (c, _) :: rest => do
      if idx ≠ winner then
        let _ ← always (.inl (.linkDown c.ifindex))
      linkDownOthers winner (idx + 1) rest

/-- What follows once every thread has been joined. `none` is an index out of
range, or a winner without a lease. -/
def applyWinner (results : List (Candidate × Option Lease)) : NetIo (Option NetConfig) :=
  let leases := results.map Prod.snd
  match chooseLease leases with
  | none => throw .dhcpTimeout
  | some winner =>
      match results[winner]?, leases[winner]? with
      | some (c, _), some (some lease) => do
          applyLease c.ifindex lease
          linkDownOthers winner 0 results
          pure (some (netConfig c.iface lease))
      | _, _ => pure none

inductive Event
  | linkUp (ifindex : UInt32) (r : Except Errno Unit)
  | linkDown (ifindex : UInt32) (r : Except Errno Unit)
  | addAddress (ifindex : UInt32) (ip : Ipv4Addr) (prefixLen : UInt8) (r : Except Errno Unit)
  | addDefaultRoute (ifindex : UInt32) (gw : Ipv4Addr) (r : Except Errno Unit)
  | waited (iface : String)
  | dhcp (e : DhcpLease.Event)

def event : ∀ {β : Type}, Calls β → β → Event
  | _, .inl (.linkUp ifindex), r => .linkUp ifindex r
  | _, .inl (.linkDown ifindex), r => .linkDown ifindex r
  | _, .inl (.addAddress ifindex ip prefixLen), r => .addAddress ifindex ip prefixLen r
  | _, .inl (.addDefaultRoute ifindex gw), r => .addDefaultRoute ifindex gw r
  | _, .inl (.waitForLink iface), _ => .waited iface
  | _, .inr o, b => .dhcp (DhcpLease.event o b)

/-- The runs of the race: the outcome of each candidate that was raced, the
events of the threads in the order in which they happen, those that follow, and
the result. -/
inductive BringUpRace (patience : Nat) (net : SysDir) (ifaces : List String) :
    List (Candidate × Option Lease) → List (Nat × Event) → List Event → Except NetError (Option NetConfig) → Prop
  | noInterface (h : readCandidates net ifaces = []) : BringUpRace patience net ifaces [] [] [] (.error .noInterface)
  | raced {log : List (Nat × Event)} {leases : List (Option Lease)} {trace : List Event}
      {r : Except NetError (Option NetConfig)} (hne : readCandidates net ifaces ≠ [])
      (hthreads : Interleaves event ((readCandidates net ifaces).map (exchange patience)) log leases)
      (hrest : Runs event (applyWinner ((readCandidates net ifaces).zip leases)).run trace r) :
      BringUpRace patience net ifaces ((readCandidates net ifaces).zip leases) log trace r

end Beskar7Inspector.NicRace
