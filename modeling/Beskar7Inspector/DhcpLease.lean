import Beskar7Inspector.Dhcp
import Beskar7Inspector.Lib.Recorder

namespace Beskar7Inspector.DhcpLease

open Lib.Program Lib.Recorder Lib.Os Net Dhcp

inductive Event
  | opened (iface : String) (r : Except NetError Unit)
  | drew (xid : UInt32)
  | sent (pkt : List UInt8) (r : Except NetError Unit)
  | received (r : Except Errno (List UInt8))
  | clock (late : Bool)

def event : ∀ {β : Type}, DhcpOp β → β → Event
  | _, .openDhcp iface, r => .opened iface r
  | _, .randomXid, xid => .drew xid
  | _, .sendBroadcast pkt, r => .sent pkt r
  | _, .recv, r => .received r
  | _, .deadlinePassed, late => .clock late

def Event.packet? : Event → Option (List UInt8)
  | .sent pkt _ => some pkt
  | _ => none

def Event.datagram? : Event → Option (List UInt8)
  | .received (.ok d) => some d
  | _ => none

def lastSent (trace : List Event) : Option (List UInt8) := (trace.filterMap Event.packet?).getLast?

def lastReceived (trace : List Event) : Option (List UInt8) := (trace.filterMap Event.datagram?).getLast?

def requestedIp (pkt : List UInt8) : Option Ipv4Addr := ((options pkt).lookup OPT_REQUESTED_IP).bind ip4

def namedServer (pkt : List UInt8) : Option Ipv4Addr := ((options pkt).lookup OPT_SERVER_ID).bind ip4

/-- A reply of that type to this transaction. -/
def Is (xid : UInt32) (wantType : UInt8) (datagram : List UInt8) (reply : Reply) : Prop :=
  parseReply (datagram.take RECV_BUFFER) xid = some reply ∧ reply.msgType = wantType

/-- The lease has the address that the last packet sent asks for, from the server it names. -/
def AnswersItsRequest (xid : UInt32) (trace : List Event) (lease : Lease) : Prop :=
  (lastSent trace).bind requestedIp = some lease.ip ∧
    ∀ server named, ((lastReceived trace).bind fun d => parseReply (d.take RECV_BUFFER) xid).bind Reply.serverId = some server →
      (lastSent trace).bind namedServer = some named → server = named

/-- A wait that ends with the first reply of that type. -/
def FirstReply (xid : UInt32) (wantType : UInt8) (trace : List Event) (reply : Reply) : Prop :=
  ∃ waits datagram, trace = waits ++ [.received (.ok datagram)] ∧ Is xid wantType datagram reply ∧
    (∀ e ∈ waits, e.packet? = none) ∧ ∀ e ∈ waits, ∀ d, e.datagram? = some d → ∀ other, ¬Is xid wantType d other

section

theorem length_copyAt {p src : List UInt8} {offset n : Nat} (hp : p.length = n) (h : offset + src.length ≤ n) :
    (copyAt p offset src).length = n := by
  simp only [copyAt, List.length_append, List.length_take, List.length_drop]
  omega

theorem length_header (xid : UInt32) (mac : Mac) : (header xid mac).length = COOKIE_OFFSET + 4 := by
  have hxid : (Lib.LittleEndian.encode 4 xid.toNat).reverse.length = 4 := by simp
  have hflag : (Lib.LittleEndian.encode 2 FLAG_BROADCAST).reverse.length = 2 := by simp
  rw [header]
  apply length_copyAt _ (by decide)
  apply length_copyAt _ (by rw [mac.size]; decide)
  apply length_copyAt _ (by rw [hflag]; decide)
  apply length_copyAt _ (by rw [hxid]; decide)
  exact length_copyAt List.length_replicate (by decide)

theorem options_buildPacket (msgType : UInt8) (xid : UInt32) (mac : Mac) (requested server : Option Ipv4Addr) :
    options (buildPacket msgType xid mac requested server) =
      (OPT_MSG_TYPE, [msgType]) :: ((requested.map fun ip => (OPT_REQUESTED_IP, octets ip)).toList ++
        (server.map fun ip => (OPT_SERVER_ID, octets ip)).toList ++
          [(OPT_PARAM_LIST, [OPT_SUBNET_MASK, OPT_ROUTER, OPT_DNS, OPT_LEASE_TIME])]) := by
  have hlen : ∃ fuel, (buildPacket msgType xid mac requested server).length = fuel + 6 := by
    refine ⟨(buildPacket msgType xid mac requested server).length - 6, ?_⟩
    simp only [buildPacket, List.length_append, length_header]
    simp
  obtain ⟨fuel, hfuel⟩ := hlen
  have hdrop : (buildPacket msgType xid mac requested server).drop (COOKIE_OFFSET + 4) =
      [OPT_MSG_TYPE, 1, msgType] ++ addressOption OPT_REQUESTED_IP requested ++ addressOption OPT_SERVER_ID server ++
        [OPT_PARAM_LIST, 4, OPT_SUBNET_MASK, OPT_ROUTER, OPT_DNS, OPT_LEASE_TIME, OPT_END] := by
    simp only [buildPacket, List.append_assoc]
    rw [← length_header xid mac, List.drop_left]
  rw [options, hdrop, hfuel]
  cases requested <;> cases server <;>
    simp [optionsFrom, addressOption, octets, OPT_MSG_TYPE, OPT_PAD, OPT_END, OPT_REQUESTED_IP, OPT_SERVER_ID,
      OPT_PARAM_LIST]

theorem requestedIp_buildPacket (xid : UInt32) (mac : Mac) (ip : Ipv4Addr) (server : Option Ipv4Addr) :
    requestedIp (buildPacket DHCP_REQUEST xid mac (some ip) server) = some ip := by
  rw [requestedIp, options_buildPacket]
  rfl

theorem namedServer_buildPacket (xid : UInt32) (mac : Mac) (ip : Ipv4Addr) (server : Option Ipv4Addr) :
    namedServer (buildPacket DHCP_REQUEST xid mac (some ip) server) = server := by
  rw [namedServer, options_buildPacket]
  cases server <;> rfl

theorem yields_recvReply (xid : UInt32) (wantType : UInt8) (patience : Nat) :
    Yields event (recvReply xid wantType patience) (fun r trace => (∀ e ∈ trace, e.packet? = none) ∧
      ∀ reply, r = .ok (some reply) → FirstReply xid wantType trace reply) := by
  induction patience with
  | zero => exact Yields.pure ⟨by simp, by simp⟩
  | succ patience ih =>
      rw [recvReply]
      refine Yields.always_bind fun r => ?_
      cases r with
      | error e =>
          dsimp only
          split
          · exact Yields.pure ⟨by simp [event, Event.packet?], by simp⟩
          · exact Yields.throw ⟨by simp [event, Event.packet?], by simp⟩
      | ok datagram =>
          dsimp only
          cases hr : (parseReply (datagram.take RECV_BUFFER) xid).filter (fun reply => reply.msgType == wantType) with
          | some reply =>
              rw [Option.filter_eq_some_iff] at hr
              refine Yields.pure ⟨by simp [event, Event.packet?], ?_⟩
              rintro _ ⟨⟩
              exact ⟨[], datagram, rfl, ⟨hr.1, by simpa using hr.2⟩, by simp, by simp⟩
          | none =>
              have hother : ∀ other, ¬Is xid wantType datagram other := by
                rintro other ⟨hparse, htype⟩
                rw [Option.filter_eq_none_iff] at hr
                exact hr other hparse (by simpa using htype)
              refine Yields.always_bind fun late => ?_
              cases late with
              | true => exact Yields.pure ⟨by simp [event, Event.packet?], by simp⟩
              | false =>
                  refine ih.mono fun r trace ⟨hquiet, hfirst⟩ => ⟨?_, fun reply hreply => ?_⟩
                  · simpa [event, Event.packet?] using hquiet
                  · obtain ⟨waits, d, rfl, his, hw, hnone⟩ := hfirst reply hreply
                    refine ⟨.received (.ok datagram) :: .clock false :: waits, d, rfl, his, ?_, ?_⟩
                    · simpa [event, Event.packet?] using hw
                    · simp only [List.forall_mem_cons, Event.datagram?, Option.some.injEq, reduceCtorEq,
                        false_imp_iff, implies_true, true_and]
                      exact ⟨fun d hd => hd ▸ hother, hnone⟩

/-- The round a lease comes from, behind whatever was sent and received before it. -/
def Granted (xid : UInt32) (mac : Mac) (lease : Lease) (trace : List Event) : Prop :=
  ∃ earlier toOffer toAck offer ack,
    trace = earlier ++ .sent (buildPacket DHCP_DISCOVER xid mac none none) (.ok ()) :: (toOffer ++
      .sent (buildPacket DHCP_REQUEST xid mac (some offer.yiaddr) offer.serverId) (.ok ()) :: toAck) ∧
    FirstReply xid DHCP_OFFER toOffer offer ∧ FirstReply xid DHCP_ACK toAck ack ∧ lease = leaseOf ack

theorem Granted.prepend {xid : UInt32} {mac : Mac} {lease : Lease} {trace : List Event} (h : Granted xid mac lease trace)
    (before : List Event) : Granted xid mac lease (before ++ trace) := by
  obtain ⟨earlier, toOffer, toAck, offer, ack, rfl, hrest⟩ := h
  exact ⟨before ++ earlier, toOffer, toAck, offer, ack, (List.append_assoc ..).symm, hrest⟩

theorem yields_acquireRounds (patience : Nat) (xid : UInt32) (mac : Mac) (rounds : Nat) :
    Yields event (acquireRounds patience xid mac rounds) (fun r trace =>
      ∀ lease, r = .ok lease → Granted xid mac lease trace) := by
  induction rounds with
  | zero => exact Yields.throw (by simp)
  | succ rounds ih =>
      rw [acquireRounds]
      refine Yields.attempt_bind (fun e => by simp) fun _ => ?_
      refine Yields.bind (yields_recvReply xid DHCP_OFFER patience) (fun e trace _ => by simp) fun r toOffer hoffer => ?_
      cases r with
      | none => exact ih.mono fun r trace h lease hr => (h lease hr).prepend (_ :: toOffer)
      | some offer =>
          refine Yields.attempt_bind (fun e => by simp) fun _ => ?_
          refine Yields.bind (yields_recvReply xid DHCP_ACK patience) (fun e trace _ => by simp) fun r toAck hack => ?_
          cases r with
          | none =>
              refine ih.mono fun r trace h lease hr => ?_
              have := (h lease hr).prepend (event (.sendBroadcast (buildPacket DHCP_DISCOVER xid mac none none)) (.ok ()) ::
                (toOffer ++ event (.sendBroadcast (buildPacket DHCP_REQUEST xid mac (some offer.yiaddr) offer.serverId))
                  (.ok ()) :: toAck))
              simpa using this
          | some ack =>
              refine Yields.pure ?_
              rintro _ ⟨⟩
              exact ⟨[], toOffer, toAck, offer, ack, by simp [event], hoffer.2 offer rfl, hack.2 ack rfl, rfl⟩

theorem yields_acquire (patience : Nat) (iface : String) (mac : Mac) :
    Yields event (acquire patience iface mac) (fun r trace => ∀ lease, r = .ok lease →
      ∃ xid rest, trace = .opened iface (.ok ()) :: .drew xid :: rest ∧ Granted xid mac lease rest) := by
  refine Yields.attempt_bind (fun e => by simp) fun _ => Yields.always_bind fun xid => ?_
  exact (yields_acquireRounds patience xid mac MAX_ROUNDS).mono fun r rest h lease hr => ⟨xid, rest, rfl, h lease hr⟩

theorem lastSent_append (before : List Event) (pkt : List UInt8) (r : Except NetError Unit) {after : List Event}
    (h : ∀ e ∈ after, e.packet? = none) : lastSent (before ++ .sent pkt r :: after) = some pkt := by
  have hafter : after.filterMap Event.packet? = [] := List.filterMap_eq_nil_iff.mpr h
  rw [lastSent, List.filterMap_append, List.filterMap_cons, hafter, Event.packet?]
  exact List.getLast?_concat

theorem lastReceived_concat (before : List Event) (d : List UInt8) :
    lastReceived (before ++ [.received (.ok d)]) = some d := by
  rw [lastReceived, List.filterMap_append]
  exact List.getLast?_concat

theorem FirstReply.quiet {xid : UInt32} {wantType : UInt8} {trace : List Event} {reply : Reply}
    (h : FirstReply xid wantType trace reply) : ∀ e ∈ trace, e.packet? = none := by
  obtain ⟨waits, d, rfl, _, hquiet, _⟩ := h
  rw [List.forall_mem_append]
  exact ⟨hquiet, by simp [Event.packet?]⟩

/-- The ACK answers the REQUEST sent for the offer. -/
def Fits (offer ack : Reply) : Prop :=
  ack.yiaddr = offer.yiaddr ∧ ∀ server named, ack.serverId = some server → offer.serverId = some named → server = named

theorem answersItsRequest_iff {xid : UInt32} (mac : Mac) (offer : Reply) (before : List Event) {ack : Reply}
    {toAck : List Event} (h : FirstReply xid DHCP_ACK toAck ack) :
    AnswersItsRequest xid
      (before ++ .sent (buildPacket DHCP_REQUEST xid mac (some offer.yiaddr) offer.serverId) (.ok ()) :: toAck)
      (leaseOf ack) ↔ Fits offer ack := by
  have hsent := lastSent_append before (buildPacket DHCP_REQUEST xid mac (some offer.yiaddr) offer.serverId) (.ok ())
    h.quiet
  obtain ⟨waits, d, rfl, his, _⟩ := h
  have hreceived := lastReceived_concat
    (before ++ .sent (buildPacket DHCP_REQUEST xid mac (some offer.yiaddr) offer.serverId) (.ok ()) :: waits) d
  rw [List.append_assoc, List.cons_append] at hreceived
  rw [AnswersItsRequest, hsent, hreceived]
  simp only [Option.bind_some, requestedIp_buildPacket, namedServer_buildPacket, his.1, Fits, Option.some.injEq]
  exact and_congr_left fun _ => eq_comm

end

/-- A lease comes from the first ACK of this transaction that is received after
the REQUEST of its round, and answers that REQUEST exactly when this ACK does. -/
theorem acquire_lease (patience : Nat) (iface : String) (mac : Mac) (plan : Nat → Answers DhcpOp) :
    let ending := (acquire patience iface mac).run.run (logged event anyone) plan ((), [])
    ∀ lease, ending.value = .ok lease → ∃ xid earlier toOffer toAck offer ack,
      ending.final.2 = .opened iface (.ok ()) :: .drew xid :: (earlier ++
        .sent (buildPacket DHCP_DISCOVER xid mac none none) (.ok ()) :: (toOffer ++
          .sent (buildPacket DHCP_REQUEST xid mac (some offer.yiaddr) offer.serverId) (.ok ()) :: toAck)) ∧
      FirstReply xid DHCP_OFFER toOffer offer ∧ FirstReply xid DHCP_ACK toAck ack ∧ lease = leaseOf ack ∧
      (AnswersItsRequest xid ending.final.2 lease ↔ Fits offer ack) ∧
      ((∀ datagram other, .received (.ok datagram) ∈ toAck → Is xid DHCP_ACK datagram other → Fits offer other) →
        AnswersItsRequest xid ending.final.2 lease) := by
  intro ending lease hvalue
  obtain ⟨xid, rest, htrace, earlier, toOffer, toAck, offer, ack, hrest, hoffer, hack, rfl⟩ :=
    ((yields_acquire patience iface mac).run plan).2 lease hvalue
  have hiff : AnswersItsRequest xid ending.final.2 (leaseOf ack) ↔ Fits offer ack := by
    have := answersItsRequest_iff mac offer (.opened iface (.ok ()) :: .drew xid ::
      (earlier ++ .sent (buildPacket DHCP_DISCOVER xid mac none none) (.ok ()) :: toOffer)) hack
    simpa [ending, htrace, hrest] using this
  refine ⟨xid, earlier, toOffer, toAck, offer, ack, by rw [← hrest]; exact htrace, hoffer, hack, rfl, hiff, fun hall => ?_⟩
  obtain ⟨waits, d, rfl, his, _⟩ := hack
  exact hiff.mpr (hall d ack (by simp) his)

/-- A server's reply with that address and its identifier. -/
def serverReply (msgType : UInt8) (xid : UInt32) (mac : Mac) (ip server : Ipv4Addr) : List UInt8 :=
  copyAt (copyAt (header xid mac) 0 [OP_REPLY]) YIADDR_OFFSET (octets ip) ++ [OPT_MSG_TYPE, 1, msgType] ++
    addressOption OPT_SERVER_ID (some server) ++ [OPT_END]

def sampleMac : Mac := ⟨[0x52, 0x54, 0, 0x12, 0x34, 0x56], rfl⟩

/-- An offer is lost its ACK for, the next round has another server's offer, and
the first server's ACK arrives then. -/
def lateAck (call : Nat) : Answers DhcpOp := fun {β} o =>
  match β, o with
  | _, .openDhcp _ => .ok ()
  | _, .randomXid => 7
  | _, .sendBroadcast _ => .ok ()
  | _, .recv =>
      if call = 3 then .ok (serverReply DHCP_OFFER 7 sampleMac ⟨10, 0, 0, 50⟩ ⟨10, 0, 0, 1⟩)
      else if call = 5 then .error EAGAIN
      else if call = 7 then .ok (serverReply DHCP_OFFER 7 sampleMac ⟨10, 0, 0, 60⟩ ⟨10, 0, 0, 2⟩)
      else .ok (serverReply DHCP_ACK 7 sampleMac ⟨10, 0, 0, 50⟩ ⟨10, 0, 0, 1⟩)
  | _, .deadlinePassed => true

theorem acquire_lease_lateAck : ∃ xid toAck ack, FirstReply xid DHCP_ACK toAck ack ∧
    (⟨⟨10, 0, 0, 50⟩, 24, none, []⟩ : Lease) = leaseOf ack := by
  obtain ⟨xid, _, _, toAck, _, ack, _, _, hack, hlease, _⟩ :=
    acquire_lease 8 "eth0" sampleMac lateAck ⟨⟨10, 0, 0, 50⟩, 24, none, []⟩ (by decide +kernel)
  exact ⟨xid, toAck, ack, hack, hlease⟩

theorem not_answersItsRequest_lateAck :
    let ending := (acquire 8 "eth0" sampleMac).run.run (logged event anyone) lateAck ((), [])
    ∃ lease, ending.value = .ok lease ∧ ¬AnswersItsRequest 7 ending.final.2 lease := by
  refine ⟨⟨⟨10, 0, 0, 50⟩, 24, none, []⟩, by decide +kernel, fun h => ?_⟩
  have hasked : (lastSent ((acquire 8 "eth0" sampleMac).run.run (logged event anyone) lateAck ((), [])).final.2).bind
      requestedIp = some ⟨10, 0, 0, 60⟩ := by decide +kernel
  have hanswered := h.1
  rw [hasked] at hanswered
  cases hanswered

end Beskar7Inspector.DhcpLease
