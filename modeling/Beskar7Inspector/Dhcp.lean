import Beskar7Inspector.Lib.LittleEndian
import Beskar7Inspector.Lib.Program
import Beskar7Inspector.Net

namespace Beskar7Inspector.Dhcp

open Lib.Program Lib.Os Lib.LittleEndian Net

def OP_REQUEST : UInt8 := 1
def OP_REPLY : UInt8 := 2
def HTYPE_ETHER : UInt8 := 1
def HLEN_ETHER : UInt8 := 6
def FLAG_BROADCAST : Nat := 0x8000
def MAGIC : List UInt8 := [99, 130, 83, 99]
def COOKIE_OFFSET : Nat := 236
def CHADDR_OFFSET : Nat := 28
def YIADDR_OFFSET : Nat := 16
def XID_OFFSET : Nat := 4
def OPT_SUBNET_MASK : UInt8 := 1
def OPT_ROUTER : UInt8 := 3
def OPT_DNS : UInt8 := 6
def OPT_LEASE_TIME : UInt8 := 51
def OPT_REQUESTED_IP : UInt8 := 50
def OPT_MSG_TYPE : UInt8 := 53
def OPT_SERVER_ID : UInt8 := 54
def OPT_PARAM_LIST : UInt8 := 55
def OPT_PAD : UInt8 := 0
def OPT_END : UInt8 := 255
def DHCP_DISCOVER : UInt8 := 1
def DHCP_OFFER : UInt8 := 2
def DHCP_REQUEST : UInt8 := 3
def DHCP_ACK : UInt8 := 5
def MAX_ROUNDS : Nat := 4
def RECV_BUFFER : Nat := 4096
def EINTR : Errno := 4
def EAGAIN : Errno := 11

structure Lease where
  ip : Ipv4Addr
  prefixLen : UInt8
  gateway : Option Ipv4Addr
  dns : List Ipv4Addr
  deriving DecidableEq, Repr

structure Mac where
  bytes : List UInt8
  size : bytes.length = 6
  deriving DecidableEq

def octets (ip : Ipv4Addr) : List UInt8 := [ip.a, ip.b, ip.c, ip.d]

/-- `p` with `src` written over it from `offset` on. -/
def copyAt (p : List UInt8) (offset : Nat) (src : List UInt8) : List UInt8 :=
  p.take offset ++ src ++ p.drop (offset + src.length)

def addressOption (code : UInt8) (ip : Option Ipv4Addr) : List UInt8 :=
  match ip with
  | some ip => code :: 4 :: octets ip
  | none => []

/-- The fixed header of a client packet, up to and with the magic cookie. -/
def header (xid : UInt32) (mac : Mac) : List UInt8 :=
  let p := List.replicate (COOKIE_OFFSET + 4) 0
  let p := copyAt p 0 [OP_REQUEST, HTYPE_ETHER, HLEN_ETHER]
  let p := copyAt p XID_OFFSET (encode 4 xid.toNat).reverse
  let p := copyAt p 10 (encode 2 FLAG_BROADCAST).reverse
  let p := copyAt p CHADDR_OFFSET mac.bytes
  copyAt p COOKIE_OFFSET MAGIC

def buildPacket (msgType : UInt8) (xid : UInt32) (mac : Mac) (requestedIp serverId : Option Ipv4Addr) : List UInt8 :=
  header xid mac ++ [OPT_MSG_TYPE, 1, msgType] ++ addressOption OPT_REQUESTED_IP requestedIp ++
    addressOption OPT_SERVER_ID serverId ++
    [OPT_PARAM_LIST, 4, OPT_SUBNET_MASK, OPT_ROUTER, OPT_DNS, OPT_LEASE_TIME, OPT_END]

structure Reply where
  msgType : UInt8
  yiaddr : Ipv4Addr
  serverId : Option Ipv4Addr
  mask : Option Ipv4Addr
  router : Option Ipv4Addr
  dns : List Ipv4Addr
  deriving DecidableEq, Repr

def ip4 : List UInt8 → Option Ipv4Addr
  | a :: b :: c :: d :: _ => some ⟨a, b, c, d⟩
  | _ => none

def ip4s : List UInt8 → List Ipv4Addr
  | a :: b :: c :: d :: rest => ⟨a, b, c, d⟩ :: ip4s rest
  | _ => []

/-- The options up to the end mark or the first one that is cut off; the length
of the bytes is fuel enough. -/
def optionsFrom : Nat → List UInt8 → List (UInt8 × List UInt8)
  | 0, _ => []
  | _ + 1, [] => []
  | fuel + 1, code :: rest =>
      if code = OPT_PAD then optionsFrom fuel rest
      else if code = OPT_END then []
      else match rest with
        | [] => []
        | len :: rest =>
            if rest.length < len.toNat then []
            else (code, rest.take len.toNat) :: optionsFrom fuel (rest.drop len.toNat)

def options (packet : List UInt8) : List (UInt8 × List UInt8) :=
  optionsFrom packet.length (packet.drop (COOKIE_OFFSET + 4))

def Reply.setOption (r : Reply) (option : UInt8 × List UInt8) : Reply :=
  let (code, val) := option
  if code = OPT_MSG_TYPE then { r with msgType := val.head?.getD r.msgType }
  else if code = OPT_SERVER_ID then { r with serverId := (ip4 val).or r.serverId }
  else if code = OPT_SUBNET_MASK then { r with mask := (ip4 val).or r.mask }
  else if code = OPT_ROUTER then { r with router := (ip4 val).or r.router }
  else if code = OPT_DNS then { r with dns := r.dns ++ ip4s val }
  else r

def parseReply (buf : List UInt8) (xid : UInt32) : Option Reply :=
  if buf.length < COOKIE_OFFSET + 4 ∨ buf.head? ≠ some OP_REPLY ∨
      decode ((buf.drop XID_OFFSET).take 4).reverse ≠ xid.toNat ∨ (buf.drop COOKIE_OFFSET).take 4 ≠ MAGIC then
    none
  else (ip4 (buf.drop YIADDR_OFFSET)).bind fun yiaddr =>
    let r := (options buf).foldl Reply.setOption ⟨0, yiaddr, none, none, none, []⟩
    if r.msgType ≠ 0 then some r else none

inductive DhcpOp : Type → Type
  | openDhcp (iface : String) : DhcpOp (Except NetError Unit)
  | randomXid : DhcpOp UInt32
  | sendBroadcast (pkt : List UInt8) : DhcpOp (Except NetError Unit)
  | recv : DhcpOp (Except Errno (List UInt8))
  | deadlinePassed : DhcpOp Bool

abbrev Exchange := Try DhcpOp NetError

/-- The first reply of the wanted type, unless the wait times out. No wait
receives more than `patience` datagrams before its deadline. -/
def recvReply (xid : UInt32) (wantType : UInt8) : Nat → Exchange (Option Reply)
  | 0 => pure none
  | patience + 1 => do
      let r ← always .recv
      match r with
      | .error e => if e = EAGAIN ∨ e = EINTR then pure none else throw (.socket e)
      | .ok datagram =>
          match (parseReply (datagram.take RECV_BUFFER) xid).filter (fun reply => reply.msgType == wantType) with
          | some reply => pure (some reply)
          | none => do
              let late ← always .deadlinePassed
              if late then pure none else recvReply xid wantType patience

def leaseOf (ack : Reply) : Lease where
  ip := ack.yiaddr
  prefixLen := (ack.mask.map maskToPrefixLen).getD 24
  gateway := ack.router
  dns := ack.dns

/-- At most that many rounds of DISCOVER, OFFER, REQUEST and ACK. -/
def acquireRounds (patience : Nat) (xid : UInt32) (mac : Mac) : Nat → Exchange Lease
  | 0 => throw .dhcpTimeout
  | rounds + 1 => do
      attempt (.sendBroadcast (buildPacket DHCP_DISCOVER xid mac none none)) id
      let offer ← recvReply xid DHCP_OFFER patience
      match offer with
      | none => acquireRounds patience xid mac rounds
      | some offer => do
          attempt (.sendBroadcast (buildPacket DHCP_REQUEST xid mac (some offer.yiaddr) offer.serverId)) id
          let ack ← recvReply xid DHCP_ACK patience
          match ack with
          | none => acquireRounds patience xid mac rounds
          | some ack => pure (leaseOf ack)

def acquire (patience : Nat) (iface : String) (mac : Mac) : Exchange Lease := do
  attempt (.openDhcp iface) id
  let xid ← always .randomXid
  acquireRounds patience xid mac MAX_ROUNDS

end Beskar7Inspector.Dhcp
