import Beskar7Inspector.Lib.Rtnetlink
import Beskar7Inspector.NicRace

namespace Beskar7Inspector.Netlink

open Lib.Program Lib.Recorder Lib.Threads Lib.Os Lib.LittleEndian Lib.Rtnetlink Net Dhcp NicRace

def RTM_NEWLINK : Nat := 16
def RTM_NEWADDR : Nat := 20
def RTM_NEWROUTE : Nat := 24
def NLM_F_REQUEST : Nat := 0x001
def NLM_F_ACK : Nat := 0x004
def NLM_F_CREATE : Nat := 0x400
def NLM_F_REPLACE : Nat := 0x100
def NLMSG_ERROR : Nat := 0x2
def NLMSGHDR_LEN : Nat := 16
def RTATTR_HDR_LEN : Nat := 4
def IFF_UP : UInt32 := 0x1
def AF_UNSPEC : UInt8 := 0
def AF_INET_U8 : UInt8 := 2
def IFA_ADDRESS : Nat := 1
def IFA_LOCAL : Nat := 2
def RTA_OIF : Nat := 4
def RTA_GATEWAY : Nat := 5
def RT_TABLE_MAIN : UInt8 := 254
def RTPROT_STATIC : UInt8 := 4
def RT_SCOPE_UNIVERSE : UInt8 := 0
def RTN_UNICAST : UInt8 := 1
def SEQ : Nat := 1
def EBADMSG : Errno := 74

/-- `n` with its low two bits cleared, after adding three. -/
def align4 (n : Nat) : Nat := n + 3 - (n + 3) % 4

def pushNlmsghdr (buf : Bytes) (msgType flags : Nat) : Bytes :=
  buf ++ encode 4 0 ++ encode 2 msgType ++ encode 2 flags ++ encode 4 SEQ ++ encode 4 0

def pushRtattr (buf : Bytes) (attrType : Nat) (payload : Bytes) : Bytes :=
  let len := RTATTR_HDR_LEN + payload.length
  let buf := buf ++ encode 2 len ++ encode 2 attrType ++ payload
  buf ++ List.replicate (align4 buf.length - buf.length) 0

/-- The length goes over the first four bytes. -/
def finalize (buf : Bytes) : Bytes := encode 4 buf.length ++ buf.drop 4

def buildLinkSetFlags (ifindex flags : UInt32) : Bytes :=
  finalize (pushNlmsghdr [] RTM_NEWLINK (NLM_F_REQUEST ||| NLM_F_ACK) ++ [AF_UNSPEC, 0] ++ encode 2 0 ++
    encode 4 ifindex.toNat ++ encode 4 flags.toNat ++ encode 4 IFF_UP.toNat)

def buildAddAddress (ifindex : UInt32) (ip : Ipv4Addr) (prefixLen : UInt8) : Bytes :=
  let b := pushNlmsghdr [] RTM_NEWADDR (NLM_F_REQUEST ||| NLM_F_ACK ||| NLM_F_CREATE ||| NLM_F_REPLACE)
  let b := b ++ [AF_INET_U8, prefixLen, 0, RT_SCOPE_UNIVERSE] ++ encode 4 ifindex.toNat
  let b := pushRtattr b IFA_LOCAL (octets ip)
  let b := pushRtattr b IFA_ADDRESS (octets ip)
  finalize b

def buildAddRoute (ifindex : UInt32) (gw : Ipv4Addr) : Bytes :=
  let b := pushNlmsghdr [] RTM_NEWROUTE (NLM_F_REQUEST ||| NLM_F_ACK ||| NLM_F_CREATE)
  let b := b ++ [AF_INET_U8, 0, 0, 0, RT_TABLE_MAIN, RTPROT_STATIC, RT_SCOPE_UNIVERSE, RTN_UNICAST] ++ encode 4 0
  let b := pushRtattr b RTA_GATEWAY (octets gw)
  let b := pushRtattr b RTA_OIF (encode 4 ifindex.toNat)
  finalize b

/-- The numbers Linux gives errors; any other becomes 0. -/
def fromRaw (e : Int) : Errno := if 0 < e ∧ e ≤ 133 ∧ e ≠ 41 ∧ e ≠ 58 then e.toNat else 0

def i32 (n : Nat) : Int := if n < 2 ^ 31 then n else (n : Int) - (2 ^ 32 : Nat)

def parseAck (buf : Bytes) : Except Errno Unit :=
  if buf.length < NLMSGHDR_LEN + 4 then .error EBADMSG
  else if decode ((buf.drop 4).take 2) ≠ NLMSG_ERROR then .ok ()
  else
    let err := i32 (decode ((buf.drop NLMSGHDR_LEN).take 4))
    if err = 0 then .ok () else .error (fromRaw (-err))

inductive SockOp : Type → Type
  | socket : SockOp (Except Errno Unit)
  | bind : SockOp (Except Errno Unit)
  | setRcvTimeo (seconds : Nat) : SockOp (Except Errno Unit)
  | send (msg : Bytes) : SockOp (Except Errno Unit)
  | recv : SockOp (Except Errno Bytes)
  | close : SockOp Unit

abbrev NlIo := Try SockOp Errno

/-- The calls on an open socket. -/
def exchangeOn (msg : Bytes) : NlIo Unit := do
  attempt .bind (fun e => fromRaw e)
  attempt (.setRcvTimeo 5) (fun e => fromRaw e)
  attempt (.send msg) (fun e => fromRaw e)
  let buf ← attempt .recv (fun e => fromRaw e)
  ExceptT.mk (pure (parseAck (buf.take 4096)))

/-- However the exchange ends, the socket is closed. -/
def sendAndAck (msg : Bytes) : NlIo Unit := do
  attempt .socket (fun e => fromRaw e)
  let r ← outcome (exchangeOn msg)
  always .close
  ExceptT.mk (pure r)

def linkUp (ifindex : UInt32) : NlIo Unit := sendAndAck (buildLinkSetFlags ifindex IFF_UP)

def linkDown (ifindex : UInt32) : NlIo Unit := sendAndAck (buildLinkSetFlags ifindex 0)

def addAddress (ifindex : UInt32) (ip : Ipv4Addr) (prefixLen : UInt8) : NlIo Unit :=
  sendAndAck (buildAddAddress ifindex ip prefixLen)

def addDefaultRoute (ifindex : UInt32) (gw : Ipv4Addr) : NlIo Unit := sendAndAck (buildAddRoute ifindex gw)

inductive SockEvent
  | socket (r : Except Errno Unit)
  | bind (r : Except Errno Unit)
  | setRcvTimeo (seconds : Nat) (r : Except Errno Unit)
  | send (msg : Bytes) (r : Except Errno Unit)
  | recv (r : Except Errno Bytes)
  | close

def sockEvent : ∀ {β : Type}, SockOp β → β → SockEvent
  | _, .socket, r => .socket r
  | _, .bind, r => .bind r
  | _, .setRcvTimeo seconds, r => .setRcvTimeo seconds r
  | _, .send msg, r => .send msg r
  | _, .recv, r => .recv r
  | _, .close, _ => .close

section Building

theorem align4_eq (n : Nat) : align4 n = aligned n := by
  rw [align4, aligned]
  omega

theorem pushRtattr_eq {buf payload : Bytes} (attrType : UInt16) (h : buf.length % 4 = 0) :
    pushRtattr buf attrType.toNat payload = buf ++ encodeAttr (attrType, payload) := by
  have hlen : (buf ++ encode 2 (RTATTR_HDR_LEN + payload.length) ++ encode 2 attrType.toNat ++ payload).length =
      buf.length + (4 + payload.length) := by
    simp only [List.length_append, encode_length]
    omega
  have hpad : align4 (buf.length + (4 + payload.length)) - (buf.length + (4 + payload.length)) =
      aligned payload.length - payload.length := by
    rw [align4_eq, aligned, aligned]
    omega
  rw [pushRtattr, hlen, hpad]
  simp only [encodeAttr, RTATTR_HDR_LEN, List.append_assoc]

/-- A buffer that begins with a header is finished into the message behind that header. -/
theorem finalize_eq (msgType : Nat) (flags : UInt16) (rest : Bytes) :
    finalize (pushNlmsghdr [] msgType flags.toNat ++ rest) = frame msgType flags 1 0 rest := by
  have hlen : (pushNlmsghdr [] msgType flags.toNat ++ rest).length = 16 + rest.length := by
    simp only [pushNlmsghdr, List.length_append, encode_length, List.length_nil]
  have hdrop : (pushNlmsghdr [] msgType flags.toNat ++ rest).drop 4 =
      encode 2 msgType ++ encode 2 flags.toNat ++ encode 4 SEQ ++ encode 4 0 ++ rest := by
    simp only [pushNlmsghdr, List.nil_append, List.append_assoc]
    exact List.drop_left' (encode_length _ _)
  rw [finalize, hlen, hdrop, frame]
  simp only [List.append_assoc]
  rfl

theorem length_octets (ip : Ipv4Addr) : (octets ip).length = 4 := rfl

/-- Setting the flags of a link, within the mask of the up bit alone. -/
def linkMessage (ifindex flags : UInt32) : Message := ⟨0x5, 1, 0, .link 0 0 ifindex flags 1, []⟩

/-- A new address, which replaces one that is there, with the attributes local and address. -/
def addressMessage (ifindex : UInt32) (ip : Ipv4Addr) (prefixLen : UInt8) : Message :=
  ⟨0x505, 1, 0, .address 2 prefixLen 0 0 ifindex, [(2, octets ip), (1, octets ip)]⟩

/-- A new static unicast route to everywhere in the main table, with the attributes gateway and output interface. -/
def routeMessage (ifindex : UInt32) (gw : Ipv4Addr) : Message :=
  ⟨0x405, 1, 0, .route 2 0 0 0 254 4 0 1 0, [(5, octets gw), (4, encode 4 ifindex.toNat)]⟩

theorem buildLinkSetFlags_eq (ifindex flags : UInt32) :
    buildLinkSetFlags ifindex flags = (linkMessage ifindex flags).encode := by
  have hfinal := finalize_eq RTM_NEWLINK 0x5 ((linkMessage ifindex flags).body.encode ++ [])
  rw [List.append_nil] at hfinal
  rw [Message.encode, linkMessage, List.flatMap_nil, List.append_nil, buildLinkSetFlags]
  refine Eq.trans ?_ hfinal
  simp only [linkMessage, Body.encode, List.append_assoc]
  rfl

theorem buildAddAddress_eq (ifindex : UInt32) (ip : Ipv4Addr) (prefixLen : UInt8) :
    buildAddAddress ifindex ip prefixLen = (addressMessage ifindex ip prefixLen).encode := by
  have hlocal := @pushRtattr_eq (pushNlmsghdr [] RTM_NEWADDR 0x505 ++ [AF_INET_U8, prefixLen, 0, RT_SCOPE_UNIVERSE] ++
    encode 4 ifindex.toNat) (octets ip) 2 (by simp [pushNlmsghdr])
  have haddress := @pushRtattr_eq (pushNlmsghdr [] RTM_NEWADDR 0x505 ++ [AF_INET_U8, prefixLen, 0, RT_SCOPE_UNIVERSE] ++
    encode 4 ifindex.toNat ++ encodeAttr (2, octets ip)) (octets ip) 1
    (by simp [pushNlmsghdr, length_encodeAttr, length_octets, aligned])
  have hfinal := finalize_eq RTM_NEWADDR 0x505 ((addressMessage ifindex ip prefixLen).body.encode ++
    (addressMessage ifindex ip prefixLen).attrs.flatMap encodeAttr)
  refine Eq.trans ?_ hfinal
  change finalize (pushRtattr (pushRtattr (pushNlmsghdr [] RTM_NEWADDR 0x505 ++ [AF_INET_U8, prefixLen, 0,
    RT_SCOPE_UNIVERSE] ++ encode 4 ifindex.toNat) (2 : UInt16).toNat (octets ip)) (1 : UInt16).toNat (octets ip)) = _
  rw [hlocal, haddress]
  simp only [addressMessage, Body.encode, List.flatMap_cons, List.flatMap_nil, List.append_nil, List.append_assoc]
  rfl

theorem buildAddRoute_eq (ifindex : UInt32) (gw : Ipv4Addr) : buildAddRoute ifindex gw = (routeMessage ifindex gw).encode := by
  have hgateway := @pushRtattr_eq (pushNlmsghdr [] RTM_NEWROUTE 0x405 ++ [AF_INET_U8, 0, 0, 0, RT_TABLE_MAIN,
    RTPROT_STATIC, RT_SCOPE_UNIVERSE, RTN_UNICAST] ++ encode 4 0) (octets gw) 5 (by simp [pushNlmsghdr])
  have hout := @pushRtattr_eq (pushNlmsghdr [] RTM_NEWROUTE 0x405 ++ [AF_INET_U8, 0, 0, 0, RT_TABLE_MAIN,
    RTPROT_STATIC, RT_SCOPE_UNIVERSE, RTN_UNICAST] ++ encode 4 0 ++ encodeAttr (5, octets gw)) (encode 4 ifindex.toNat) 4
    (by simp [pushNlmsghdr, length_encodeAttr, length_octets, aligned])
  have hfinal := finalize_eq RTM_NEWROUTE 0x405 ((routeMessage ifindex gw).body.encode ++
    (routeMessage ifindex gw).attrs.flatMap encodeAttr)
  refine Eq.trans ?_ hfinal
  change finalize (pushRtattr (pushRtattr (pushNlmsghdr [] RTM_NEWROUTE 0x405 ++ [AF_INET_U8, 0, 0, 0, RT_TABLE_MAIN,
    RTPROT_STATIC, RT_SCOPE_UNIVERSE, RTN_UNICAST] ++ encode 4 0) (5 : UInt16).toNat (octets gw)) (4 : UInt16).toNat
    (encode 4 ifindex.toNat)) = _
  rw [hgateway, hout]
  simp only [routeMessage, Body.encode, List.flatMap_cons, List.flatMap_nil, List.append_nil, List.append_assoc]
  rfl

theorem reads_linkMessage (ifindex flags : UInt32) :
    readMessage (buildLinkSetFlags ifindex flags) = some (linkMessage ifindex flags) := by
  rw [buildLinkSetFlags_eq]
  refine readMessage_encode (List.forall_mem_nil _) ?_
  rw [Message.encode, length_frame]
  simp [linkMessage, Body.encode]

theorem reads_addressMessage (ifindex : UInt32) (ip : Ipv4Addr) (prefixLen : UInt8) :
    readMessage (buildAddAddress ifindex ip prefixLen) = some (addressMessage ifindex ip prefixLen) := by
  rw [buildAddAddress_eq]
  refine readMessage_encode (by simp [addressMessage, length_octets]) ?_
  rw [Message.encode, length_frame]
  simp [addressMessage, Body.encode, length_encodeAttr, length_octets, aligned]

theorem reads_routeMessage (ifindex : UInt32) (gw : Ipv4Addr) :
    readMessage (buildAddRoute ifindex gw) = some (routeMessage ifindex gw) := by
  rw [buildAddRoute_eq]
  refine readMessage_encode (by simp [routeMessage, length_octets]) ?_
  rw [Message.encode, length_frame]
  simp [routeMessage, Body.encode, length_encodeAttr, length_octets, aligned]

end Building

section Acknowledging

/-- What a datagram says of the request before it: nothing that can be made out if it is
too short, nothing bad if it is no acknowledgement, else the error that is in there, negated. -/
inductive Answers : Bytes → Except Errno Unit → Prop
  | short {buf : Bytes} (h : buf.length < 20) : Answers buf (.error EBADMSG)
  | other {front type rest : Bytes} (hfront : front.length = 4) (htype : type.length = 2) (hrest : 14 ≤ rest.length)
      (h : decode type ≠ 2) : Answers (front ++ type ++ rest) (.ok ())
  | acked {front middle rest : Bytes} (hfront : front.length = 4) (hmiddle : middle.length = 10) :
      Answers (front ++ encode 2 2 ++ middle ++ encode 4 0 ++ rest) (.ok ())
  | refused {front middle rest : Bytes} {e : Errno} (hfront : front.length = 4) (hmiddle : middle.length = 10) (hpos : 0 < e)
      (hlt : e < 2 ^ 32) : Answers (front ++ encode 2 2 ++ middle ++ encode 4 (2 ^ 32 - e) ++ rest) (.error (fromRaw e))

/-- The error that a code stands for, whatever bits it has. -/
theorem fromRaw_neg_i32 {n : Nat} (hpos : 0 < n) (hlt : n < 2 ^ 32) : fromRaw (-i32 n) = fromRaw ((2 ^ 32 - n : Nat) : Int) := by
  rw [i32]
  split
  · rw [fromRaw, fromRaw, if_neg (by omega), if_neg (by omega)]
  · congr 1
    omega

theorem answers_parseAck (buf : Bytes) : Answers buf (parseAck buf) := by
  rw [parseAck]
  by_cases hshort : buf.length < NLMSGHDR_LEN + 4
  · rw [if_pos hshort]
    exact .short hshort
  have hlong : 20 ≤ buf.length := Nat.le_of_not_lt hshort
  rw [if_neg hshort]
  have hfront : (buf.take 4).length = 4 := List.length_take_of_le (by omega)
  have htype : ((buf.drop 4).take 2).length = 2 := List.length_take_of_le (by rw [List.length_drop]; omega)
  have hsplit : buf = buf.take 4 ++ (buf.drop 4).take 2 ++ buf.drop 6 := by
    have hdrop : buf.drop 6 = (buf.drop 4).drop 2 := (List.drop_drop (i := 2) (j := 4)).symm
    rw [hdrop, List.append_assoc, List.take_append_drop, List.take_append_drop]
  by_cases hother : decode ((buf.drop 4).take 2) ≠ NLMSG_ERROR
  · rw [if_pos hother]
    have hrest : 14 ≤ (buf.drop 6).length := by rw [List.length_drop]; omega
    have hanswers := Answers.other hfront htype hrest hother
    rwa [← hsplit] at hanswers
  · rw [if_neg hother]
    let middle := (buf.drop 6).take 10
    let code := (buf.drop 16).take 4
    have hmiddle : middle.length = 10 := List.length_take_of_le (by rw [List.length_drop]; omega)
    have hcode : code.length = 4 := List.length_take_of_le (by rw [List.length_drop]; omega)
    have herror : (buf.drop 4).take 2 = encode 2 2 := by
      rw [← encode_decode htype, not_not.mp hother]
      rfl
    have hwhole : buf = buf.take 4 ++ encode 2 2 ++ middle ++ code ++ buf.drop 20 := by
      have hlast : buf.drop 6 = middle ++ (code ++ buf.drop 20) := by
        have hdrop₂₀ : buf.drop 20 = (buf.drop 16).drop 4 := (List.drop_drop (i := 4) (j := 16)).symm
        have hdrop₁₆ : buf.drop 16 = (buf.drop 6).drop 10 := (List.drop_drop (i := 10) (j := 6)).symm
        rw [hdrop₂₀, List.take_append_drop, hdrop₁₆, List.take_append_drop]
      rw [hlast, herror] at hsplit
      simpa only [List.append_assoc] using hsplit
    have hlt : decode code < 2 ^ 32 := by
      have := decode_lt code
      rwa [hcode] at this
    change Answers buf (if i32 (decode code) = 0 then .ok () else .error (fromRaw (-i32 (decode code))))
    by_cases hzero : decode code = 0
    · have hi32 : i32 (decode code) = 0 := by rw [hzero]; rfl
      rw [if_pos hi32]
      have hanswers : Answers (buf.take 4 ++ encode 2 2 ++ middle ++ encode 4 0 ++ buf.drop 20) (.ok ()) :=
        .acked hfront hmiddle
      rwa [← hzero, encode_decode hcode, ← hwhole] at hanswers
    · have hi32 : i32 (decode code) ≠ 0 := by
        rw [i32]
        split <;> omega
      rw [if_neg hi32, fromRaw_neg_i32 (Nat.pos_of_ne_zero hzero) hlt]
      have hanswers : Answers (buf.take 4 ++ encode 2 2 ++ middle ++ encode 4 (2 ^ 32 - (2 ^ 32 - decode code)) ++ buf.drop 20)
          (.error (fromRaw ((2 ^ 32 - decode code : Nat) : Int))) :=
        .refused hfront hmiddle (Nat.sub_pos_of_lt hlt) (Nat.sub_lt (by decide) (Nat.pos_of_ne_zero hzero))
      rwa [Nat.sub_sub_self hlt.le, encode_decode hcode, ← hwhole] at hanswers

end Acknowledging

/-- The course of one exchange: a socket is opened, the message is sent over it and
answered, and it is closed; each call stops the exchange if it fails. -/
inductive Exchange (msg : Bytes) : List SockEvent → Except Errno Unit → Prop
  | unopened (e : Errno) : Exchange msg [.socket (.error e)] (.error (fromRaw e))
  | unbound (e : Errno) : Exchange msg [.socket (.ok ()), .bind (.error e), .close] (.error (fromRaw e))
  | untimed (e : Errno) : Exchange msg [.socket (.ok ()), .bind (.ok ()), .setRcvTimeo 5 (.error e), .close] (.error (fromRaw e))
  | unsent (e : Errno) : Exchange msg [.socket (.ok ()), .bind (.ok ()), .setRcvTimeo 5 (.ok ()), .send msg (.error e), .close]
      (.error (fromRaw e))
  | unanswered (e : Errno) : Exchange msg [.socket (.ok ()), .bind (.ok ()), .setRcvTimeo 5 (.ok ()), .send msg (.ok ()),
      .recv (.error e), .close] (.error (fromRaw e))
  | answered {buf : Bytes} {r : Except Errno Unit} (h : Answers (buf.take 4096) r) : Exchange msg [.socket (.ok ()),
      .bind (.ok ()), .setRcvTimeo 5 (.ok ()), .send msg (.ok ()), .recv (.ok buf), .close] r

theorem yields_exchangeOn (msg : Bytes) : Yields sockEvent (exchangeOn msg)
    (fun r trace => Exchange msg (.socket (.ok ()) :: (trace ++ [.close])) r) := by
  rw [exchangeOn]
  refine Yields.attempt_bind .unbound fun _ => Yields.attempt_bind .untimed fun _ =>
    Yields.attempt_bind .unsent fun _ => Yields.attempt_bind .unanswered fun buf => ?_
  have hanswers := answers_parseAck (buf.take 4096)
  cases hr : parseAck (buf.take 4096) with
  | ok _ =>
      rw [hr] at hanswers
      exact Yields.pure (.answered hanswers)
  | error e =>
      rw [hr] at hanswers
      exact Yields.throw (.answered hanswers)

theorem yields_sendAndAck (msg : Bytes) : Yields sockEvent (sendAndAck msg) (fun r trace => Exchange msg trace r) := by
  rw [sendAndAck]
  refine Yields.attempt_bind .unopened fun _ => Yields.outcome_bind (yields_exchangeOn msg) fun r trace h =>
    Yields.always_bind fun _ => ?_
  cases r with
  | ok _ => exact Yields.pure h
  | error e => exact Yields.throw h

/-- Whatever the calls answer, the program sends that one request. -/
def Requests (p : NlIo Unit) (m : Message) : Prop :=
  ∃ msg, readMessage msg = some m ∧ ∀ trace r, Runs sockEvent p.run trace r → Exchange msg trace r

/-- Each of the messages reads as the request that it is meant to be, and is answered by its acknowledgement. -/
theorem netlink_requests (ifindex : UInt32) (ip gw : Ipv4Addr) (prefixLen : UInt8) :
    Requests (linkUp ifindex) (linkMessage ifindex 1) ∧ Requests (linkDown ifindex) (linkMessage ifindex 0) ∧
      Requests (addAddress ifindex ip prefixLen) (addressMessage ifindex ip prefixLen) ∧
      Requests (addDefaultRoute ifindex gw) (routeMessage ifindex gw) :=
  ⟨⟨_, reads_linkMessage ifindex IFF_UP, fun _ _ h => h.of_yields (yields_sendAndAck _)⟩,
    ⟨_, reads_linkMessage ifindex 0, fun _ _ h => h.of_yields (yields_sendAndAck _)⟩,
    ⟨_, reads_addressMessage ifindex ip prefixLen, fun _ _ h => h.of_yields (yields_sendAndAck _)⟩,
    ⟨_, reads_routeMessage ifindex gw, fun _ _ h => h.of_yields (yields_sendAndAck _)⟩⟩

end Beskar7Inspector.Netlink
