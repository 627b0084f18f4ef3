import Beskar7Inspector.NicRace
import Mathlib.Order.Bounds.Basic

namespace Beskar7Inspector.RaceWinner

open Lib.Program Lib.Recorder Lib.Threads SysTree Net Dhcp SelectNics NicRace

/-- The interfaces that leased. -/
def Leased (results : List (Candidate × Option Lease)) : Set String :=
  {iface | ∃ c lease, (c, some lease) ∈ results ∧ c.iface = iface}

def LeasedWithGateway (results : List (Candidate × Option Lease)) : Set String :=
  {iface | ∃ c lease, (c, some lease) ∈ results ∧ lease.gateway.isSome = true ∧ c.iface = iface}

/-- The lowest name of those leased with a gateway; of those leased, when none has one. -/
def IsWinner (results : List (Candidate × Option Lease)) (iface : String) : Prop :=
  ((LeasedWithGateway results).Nonempty → IsLeast (LeasedWithGateway results) iface) ∧
    (LeasedWithGateway results = ∅ → IsLeast (Leased results) iface)

/-- What the kernel is asked to change. -/
inductive Change
  | address (ifindex : UInt32) (ip : Ipv4Addr) (prefixLen : UInt8)
  | route (ifindex : UInt32) (gw : Ipv4Addr)
  | down (ifindex : UInt32)
  deriving DecidableEq

def change? : Event → Option Change
  | .addAddress ifindex ip prefixLen _ => some (.address ifindex ip prefixLen)
  | .addDefaultRoute ifindex gw _ => some (.route ifindex gw)
  | .linkDown ifindex _ => some (.down ifindex)
  | _ => none

def changes (trace : List Event) : List Change := trace.filterMap change?

def downs (others : List (Candidate × Option Lease)) : List Change := others.map (fun d => .down d.1.ifindex)

/-- The address, and the route when there is a gateway. -/
def granted (ifindex : UInt32) (lease : Lease) : List Change :=
  .address ifindex lease.ip lease.prefixLen :: lease.gateway.toList.map (fun gw => .route ifindex gw)

/-- The winner is configured, then every other link goes down. -/
def intended (c : Candidate) (lease : Lease) (others : List (Candidate × Option Lease)) : List Change :=
  granted c.ifindex lease ++ downs others

section

variable {α β : Type} [Preorder β] {key : α → β} {p : α → Bool} {xs : List α}

/-- In a list in the order of its keys, the first element that satisfies `p` has
the least key of all that do. -/
theorem isLeast_of_findIdx? (hsorted : xs.Pairwise (fun a b => key a ≤ key b)) {i : Nat} (h : xs.findIdx? p = some i) :
    ∃ a, xs[i]? = some a ∧ p a = true ∧ IsLeast {k | ∃ b ∈ xs, p b = true ∧ key b = k} (key a) := by
  induction xs generalizing i with
  | nil => cases h
  | cons x xs ih =>
      obtain ⟨hx, hxs⟩ := List.pairwise_cons.mp hsorted
      rw [List.findIdx?_cons] at h
      by_cases hp : p x = true
      · rw [if_pos hp] at h
        cases h
        refine ⟨x, rfl, hp, ⟨x, List.mem_cons_self, hp, rfl⟩, ?_⟩
        rintro _ ⟨b, hb, _, rfl⟩
        rcases List.mem_cons.mp hb with rfl | hb
        · exact le_rfl
        · exact hx b hb
      · rw [if_neg hp, Option.map_eq_some_iff] at h
        obtain ⟨j, hj, rfl⟩ := h
        obtain ⟨a, ha, hpa, hmem, hlow⟩ := ih hxs hj
        refine ⟨a, ha, hpa, ⟨a, List.mem_cons_of_mem x (List.mem_of_getElem? ha), hpa, rfl⟩, ?_⟩
        rintro _ ⟨b, hb, hpb, rfl⟩
        rcases List.mem_cons.mp hb with rfl | hb
        · exact absurd hpb hp
        · exact hlow ⟨b, hb, hpb, rfl⟩

end

theorem chooseLease_map (results : List (Candidate × Option Lease)) : chooseLease (results.map Prod.snd) =
    (results.findIdx? (fun d => d.2.any (fun l => l.gateway.isSome))).or (results.findIdx? (fun d => d.2.isSome)) := by
  rw [chooseLease, List.findIdx?_map, List.findIdx?_map]
  rfl

theorem mem_leased {results : List (Candidate × Option Lease)} {iface : String} :
    iface ∈ Leased results ↔ ∃ d ∈ results, d.2.isSome = true ∧ d.1.iface = iface := by
  constructor
  · rintro ⟨c, lease, hmem, rfl⟩
    exact ⟨(c, some lease), hmem, rfl, rfl⟩
  · rintro ⟨⟨c, _ | lease⟩, hmem, h, rfl⟩
    · cases h
    · exact ⟨c, lease, hmem, rfl⟩

theorem mem_leasedWithGateway {results : List (Candidate × Option Lease)} {iface : String} :
    iface ∈ LeasedWithGateway results ↔
      ∃ d ∈ results, d.2.any (fun l => l.gateway.isSome) = true ∧ d.1.iface = iface := by
  constructor
  · rintro ⟨c, lease, hmem, hgateway, rfl⟩
    exact ⟨(c, some lease), hmem, hgateway, rfl⟩
  · rintro ⟨⟨c, _ | lease⟩, hmem, h, rfl⟩
    · cases h
    · exact ⟨c, lease, hmem, h, rfl⟩

theorem chooseLease_eq_none {results : List (Candidate × Option Lease)}
    (h : chooseLease (results.map Prod.snd) = none) : Leased results = ∅ := by
  rw [chooseLease_map, Option.or_eq_none_iff, List.findIdx?_eq_none_iff, List.findIdx?_eq_none_iff] at h
  ext iface
  rw [mem_leased]
  constructor
  · rintro ⟨d, hmem, hsome, rfl⟩
    rw [h.2 d hmem] at hsome
    cases hsome
  · exact fun h => h.elim

/-- The chosen position holds a lease, and its interface is the winner. -/
theorem chooseLease_eq_some {results : List (Candidate × Option Lease)}
    (hsorted : results.Pairwise (fun a b => a.1.iface ≤ b.1.iface)) {i : Nat}
    (h : chooseLease (results.map Prod.snd) = some i) :
    ∃ c lease, results[i]? = some (c, some lease) ∧ IsWinner results c.iface := by
  have hleased : Leased results = {k | ∃ d ∈ results, d.2.isSome = true ∧ d.1.iface = k} :=
    Set.ext fun _ => mem_leased
  have hgateway : LeasedWithGateway results =
      {k | ∃ d ∈ results, d.2.any (fun l => l.gateway.isSome) = true ∧ d.1.iface = k} :=
    Set.ext fun _ => mem_leasedWithGateway
  rw [chooseLease_map] at h
  cases hfirst : results.findIdx? (fun d => d.2.any (fun l => l.gateway.isSome)) with
  | some j =>
      rw [hfirst] at h
      cases h
      obtain ⟨⟨c, lease⟩, hd, hp, hleast⟩ := isLeast_of_findIdx? hsorted hfirst
      rw [← hgateway] at hleast
      cases lease with
      | none => cases hp
      | some lease =>
          refine ⟨c, lease, hd, fun _ => hleast, fun hempty => ?_⟩
          rw [hempty] at hleast
          exact hleast.1.elim
  | none =>
      rw [hfirst, Option.none_or] at h
      obtain ⟨⟨c, lease⟩, hd, hp, hleast⟩ := isLeast_of_findIdx? hsorted h
      rw [← hleased] at hleast
      cases lease with
      | none => cases hp
      | some lease =>
          refine ⟨c, lease, hd, ?_, fun _ => hleast⟩
          rintro ⟨iface, hmem⟩
          obtain ⟨d, hd, hany, -⟩ := mem_leasedWithGateway.mp hmem
          rw [List.findIdx?_eq_none_iff.mp hfirst d hd] at hany
          cases hany

theorem changes_append (a b : List Event) : changes (a ++ b) = changes a ++ changes b := List.filterMap_append

theorem changes_eq_nil_iff {trace : List Event} : changes trace = [] ↔ ∀ e ∈ trace, change? e = none :=
  List.filterMap_eq_nil_iff

/-- An exchange asks the kernel for no change but its own link up. -/
theorem yields_dhcpLink (patience : Nat) (iface : String) (ifindex : UInt32) (mac : Mac) :
    Yields event (dhcpLink patience iface ifindex mac) (fun _ trace => changes trace = []) := by
  refine Yields.attempt_bind (fun e => rfl) fun _ => Yields.always_bind fun _ => ?_
  have hacquire : Yields DhcpLease.event (acquire patience iface mac) (fun _ _ => True) :=
    (DhcpLease.yields_acquire patience iface mac).mono fun _ _ _ => trivial
  refine (hacquire.embed Event.dhcp fun _ _ => rfl).mono ?_
  rintro r _ ⟨trace, rfl, _⟩
  simp [changes, change?, event]

/-- The links below `winner` and above it go down, in the order of the candidates. -/
theorem yields_linkDownOthers_past {winner idx : Nat} (h : winner < idx) (rest : List (Candidate × Option Lease)) :
    Yields event (linkDownOthers winner idx rest) (fun r trace => r = .ok () ∧ changes trace = downs rest) := by
  induction rest generalizing idx with
  | nil => exact Yields.pure ⟨rfl, rfl⟩
  | cons d rest ih =>
      rw [linkDownOthers, if_pos (by omega)]
      refine Yields.always_bind fun answer => (ih (by omega)).mono ?_
      rintro r trace ⟨rfl, htrace⟩
      exact ⟨rfl, congrArg (Change.down d.1.ifindex :: ·) htrace⟩

theorem yields_linkDownOthers {winner idx k : Nat} (h : winner = idx + k) (rest : List (Candidate × Option Lease)) :
    Yields event (linkDownOthers winner idx rest)
      (fun r trace => r = .ok () ∧ changes trace = downs (rest.eraseIdx k)) := by
  induction rest generalizing k idx with
  | nil => exact Yields.pure ⟨rfl, rfl⟩
  | cons d rest ih =>
      cases k with
      | zero =>
          rw [linkDownOthers, if_neg (by omega)]
          exact yields_linkDownOthers_past (by omega) rest
      | succ k =>
          rw [linkDownOthers, if_pos (by omega)]
          refine Yields.always_bind fun answer => (ih (k := k) (by omega)).mono ?_
          rintro r trace ⟨rfl, htrace⟩
          exact ⟨rfl, congrArg (Change.down d.1.ifindex :: ·) htrace⟩

theorem yields_applyLease (ifindex : UInt32) (lease : Lease) :
    Yields event (applyLease ifindex lease) (fun r trace =>
      .address ifindex lease.ip lease.prefixLen ∈ changes trace ∧ changes trace <+: granted ifindex lease ∧
        (r = .ok () → changes trace = granted ifindex lease)) := by
  rw [applyLease]
  refine Yields.attempt_bind (fun e => ⟨List.mem_cons_self, by simp [changes, change?, event, granted], by simp⟩)
    fun _ => ?_
  cases hgw : lease.gateway with
  | none => exact Yields.pure (by simp [changes, change?, event, granted, hgw])
  | some gw => exact Yields.attempt fun r => by simp [changes, change?, event, granted, hgw]

/-- What is done for the candidate at the chosen position. -/
theorem yields_applyWinner {results : List (Candidate × Option Lease)} {i : Nat} {c : Candidate} {lease : Lease}
    (hchosen : chooseLease (results.map Prod.snd) = some i) (hd : results[i]? = some (c, some lease)) :
    Yields event (applyWinner results) (fun r trace =>
      .address c.ifindex lease.ip lease.prefixLen ∈ changes trace ∧
        changes trace <+: intended c lease (results.eraseIdx i) ∧
        ∀ cfg, r = .ok cfg → cfg = some (netConfig c.iface lease) ∧
          changes trace = intended c lease (results.eraseIdx i)) := by
  have hlease : (results.map Prod.snd)[i]? = some (some lease) := by
    rw [List.getElem?_map, hd]
    rfl
  rw [applyWinner]
  simp only [hchosen, hd, hlease]
  refine Yields.bind (yields_applyLease c.ifindex lease) ?_ ?_
  · rintro e trace ⟨hmem, hpre, -⟩
    exact ⟨hmem, hpre.trans (List.prefix_append _ _), by simp⟩
  · rintro _ granting ⟨hmem, -, hall⟩
    refine Yields.bind (yields_linkDownOthers (Nat.zero_add i).symm results) ?_ ?_
    · rintro e trace ⟨⟨⟩, -⟩
    · rintro _ trace ⟨-, htrace⟩
      have hchanges : changes (granting ++ trace) = intended c lease (results.eraseIdx i) := by
        rw [changes_append, hall rfl, htrace, intended]
      refine Yields.pure ?_
      rw [List.append_nil]
      refine ⟨?_, ?_, ?_⟩
      · rw [changes_append]
        exact List.mem_append_left _ hmem
      · exact ⟨[], (List.append_nil _).trans hchanges⟩
      · rintro cfg ⟨⟩
        exact ⟨rfl, hchanges⟩

theorem yields_applyWinner_none {results : List (Candidate × Option Lease)}
    (hchosen : chooseLease (results.map Prod.snd) = none) :
    Yields event (applyWinner results) (fun r trace => trace = [] ∧ r = .error .dhcpTimeout) := by
  rw [applyWinner]
  simp only [hchosen]
  exact Yields.throw ⟨rfl, rfl⟩

theorem pairwise_readCandidates (net : SysDir) {ifaces : List String} (h : ifaces.Pairwise (· ≤ ·)) :
    (readCandidates net ifaces).Pairwise (fun a b => a.iface ≤ b.iface) := by
  refine List.Pairwise.filterMap _ ?_ h
  intro a a' hle c hc c' hc'
  split at hc
  · split at hc'
    · cases hc
      cases hc'
      exact hle
    · cases hc'
  · cases hc

/-- The exchanges of the threads change nothing, in whatever order they come. -/
theorem changes_interleaves {patience : Nat} {candidates : List Candidate} {log : List (Nat × Event)}
    {leases : List (Option Lease)} (h : Interleaves event (candidates.map (exchange patience)) log leases) :
    changes (log.map Prod.snd) = [] := by
  refine changes_eq_nil_iff.mpr (h.forall_event ?_)
  intro p hp trace a hruns
  obtain ⟨c, _, rfl⟩ := List.mem_map.mp hp
  obtain ⟨first, r, second, hlink, hret, rfl⟩ := Runs.bind_iff.mp hruns
  have hfirst := changes_eq_nil_iff.mp (hlink.of_yields (yields_dhcpLink patience c.iface c.ifindex c.mac))
  cases hret with
  | ret =>
      rw [List.append_nil]
      exact hfirst

theorem mem_intended_down {c : Candidate} {lease : Lease} {others : List (Candidate × Option Lease)} {ifindex : UInt32}
    (h : .down ifindex ∈ intended c lease others) : ∃ d ∈ others, d.1.ifindex = ifindex := by
  rw [intended, List.mem_append] at h
  rcases h with h | h
  · simp [granted] at h
  · obtain ⟨d, hd, heq⟩ := List.mem_map.mp h
    cases heq
    exact ⟨d, hd, rfl⟩

/-- What follows the exchanges, for any outcomes in the order of the names. -/
theorem runs_applyWinner {results : List (Candidate × Option Lease)}
    (hsorted : results.Pairwise (fun a b => a.1.iface ≤ b.1.iface)) {trace : List Event}
    {r : Except NetError (Option NetConfig)} (h : Runs event (applyWinner results).run trace r) :
    (Leased results = ∅ → changes trace = [] ∧ ∃ e, r = .error e) ∧
    ((Leased results).Nonempty → ∃ i c lease, results[i]? = some (c, some lease) ∧ IsWinner results c.iface ∧
      .address c.ifindex lease.ip lease.prefixLen ∈ changes trace ∧
      changes trace <+: intended c lease (results.eraseIdx i) ∧
      (∀ cfg, r = .ok cfg → cfg = some (netConfig c.iface lease) ∧
        changes trace = intended c lease (results.eraseIdx i)) ∧
      ((∀ j d, results[j]? = some d → d.1.ifindex = c.ifindex → j = i) → .down c.ifindex ∉ changes trace)) := by
  cases hchosen : chooseLease (results.map Prod.snd) with
  | none =>
      obtain ⟨rfl, rfl⟩ := h.of_yields (yields_applyWinner_none hchosen)
      refine ⟨fun _ => ⟨rfl, _, rfl⟩, ?_⟩
      rintro ⟨iface, hmem⟩
      rw [chooseLease_eq_none hchosen] at hmem
      exact hmem.elim
  | some i =>
      obtain ⟨c, lease, hd, hwinner⟩ := chooseLease_eq_some hsorted hchosen
      obtain ⟨hmem, hpre, hall⟩ := h.of_yields (yields_applyWinner hchosen hd)
      refine ⟨fun hempty => ?_, fun _ => ⟨i, c, lease, hd, hwinner, hmem, hpre, hall, ?_⟩⟩
      · have hleased : c.iface ∈ Leased results := ⟨c, lease, List.mem_of_getElem? hd, rfl⟩
        rw [hempty] at hleased
        exact hleased.elim
      · intro hdistinct hdown
        obtain ⟨d, hd, heq⟩ := mem_intended_down (hpre.subset hdown)
        obtain ⟨j, hj, hd⟩ := List.mem_eraseIdx_iff_getElem?.mp hd
        exact hj (hdistinct j d hd heq)

/-- The outcome that stands beside a candidate is that of its own exchange. -/
theorem runs_exchange {patience : Nat} {candidates : List Candidate} {log : List (Nat × Event)}
    {leases : List (Option Lease)} (h : Interleaves event (candidates.map (exchange patience)) log leases) {i : Nat}
    {c : Candidate} {lease : Option Lease} (hd : (candidates.zip leases)[i]? = some (c, lease)) :
    Runs event (exchange patience c) (eventsOf i log) lease := by
  obtain ⟨hc, hlease⟩ := List.getElem?_zip_eq_some.mp hd
  have hthread : (candidates.map (exchange patience))[i]? = some (exchange patience c) := by
    rw [List.getElem?_map, hc]
    rfl
  obtain ⟨a, ha, hruns⟩ := h.thread hthread
  obtain rfl : a = lease := Option.some.inj (ha.symm.trans hlease)
  exact hruns

/-- One interface is configured, the winner among those that leased, with its
own lease, and all others of the race go down. -/
theorem bringUpRace_configures {patience : Nat} {net : SysDir} {ifaces : List String}
    (hsorted : ifaces.Pairwise (· ≤ ·)) {results : List (Candidate × Option Lease)} {log : List (Nat × Event)}
    {trace : List Event} {r : Except NetError (Option NetConfig)}
    (h : BringUpRace patience net ifaces results log trace r) :
    results.map Prod.fst = readCandidates net ifaces ∧
    (∀ i c lease, results[i]? = some (c, lease) → Runs event (exchange patience c) (eventsOf i log) lease) ∧
    changes (log.map Prod.snd) = [] ∧
    (Leased results = ∅ → changes trace = [] ∧ ∃ e, r = .error e) ∧
    ((Leased results).Nonempty → ∃ i c lease, results[i]? = some (c, some lease) ∧ IsWinner results c.iface ∧
      .address c.ifindex lease.ip lease.prefixLen ∈ changes trace ∧
      changes trace <+: intended c lease (results.eraseIdx i) ∧
      (∀ cfg, r = .ok cfg → cfg = some (netConfig c.iface lease) ∧
        changes trace = intended c lease (results.eraseIdx i)) ∧
      ((∀ j d, results[j]? = some d → d.1.ifindex = c.ifindex → j = i) → .down c.ifindex ∉ changes trace)) := by
  cases h with
  | noInterface hnone =>
      refine ⟨hnone.symm, by simp, rfl, fun _ => ⟨rfl, _, rfl⟩, ?_⟩
      rintro ⟨_, _, _, hmem, _⟩
      cases hmem
  | @raced log leases trace r _ hthreads hrest =>
      have hlen : (readCandidates net ifaces).length ≤ leases.length := by
        simpa using hthreads.length_eq.ge
      have hfst := List.map_fst_zip hlen
      refine ⟨hfst, fun i c lease hd => runs_exchange hthreads hd, changes_interleaves hthreads, ?_⟩
      refine runs_applyWinner ?_ hrest
      have hnames := pairwise_readCandidates net hsorted
      rw [← hfst, List.pairwise_map] at hnames
      exact hnames

/-- Two interfaces that can be read, and one without an index. -/
def threeLinks : SysDir where
  entries := [("eth1", .dir [("ifindex", .attr (some "3\n")), ("address", .attr (some "52:54:00:12:34:56\n"))]),
    ("bond", .dir []),
    ("eth0", .dir [("ifindex", .attr (some "2\n")), ("address", .attr (some "52:54:00:12:34:55\n"))])]
  distinct := by decide

/-- The link of `eth0` does not come up; `eth1` has a lease of a server without a gateway. -/
def oneLease (call : Nat) : Answers Calls := fun {β} o =>
  match β, o with
  | _, .inl (.linkUp ifindex) => if ifindex = 2 then .error 19 else .ok ()
  | _, .inl (.linkDown _) => .ok ()
  | _, .inl (.addAddress _ _ _) => .ok ()
  | _, .inl (.addDefaultRoute _ _) => .ok ()
  | _, .inl (.waitForLink _) => ()
  | _, .inr o => DhcpLease.lateAck (call - 2) o

def eth0 : Candidate := ⟨"eth0", 2, ⟨[0x52, 0x54, 0, 0x12, 0x34, 0x55], rfl⟩⟩

def eth1 : Candidate := ⟨"eth1", 3, DhcpLease.sampleMac⟩

def eth1Lease : Lease := ⟨⟨10, 0, 0, 50⟩, 24, none, []⟩

theorem bringUpRace_configures_oneLease : ∃ log trace,
    BringUpRace 8 threeLinks ["bond", "eth0", "eth1"] [(eth0, none), (eth1, some eth1Lease)] log trace
      (.ok (some ⟨"eth1", ⟨10, 0, 0, 50⟩, 24, none, []⟩)) ∧
    changes trace = [.address 3 ⟨10, 0, 0, 50⟩ 24, .down 2] := by
  have hread : readCandidates threeLinks ["bond", "eth0", "eth1"] = [eth0, eth1] := by decide +kernel
  have hlost : ∃ trace, Runs event (exchange 8 eth0) trace none :=
    Runs.exists_of_plan oneLease [] (by decide +kernel)
  have hleased : ∃ trace, Runs event (exchange 8 eth1) trace (some eth1Lease) :=
    Runs.exists_of_plan oneLease [] (by decide +kernel)
  obtain ⟨trace, hrest⟩ : ∃ trace, Runs event (applyWinner [(eth0, none), (eth1, some eth1Lease)]).run trace
      (.ok (some ⟨"eth1", ⟨10, 0, 0, 50⟩, 24, none, []⟩)) := Runs.exists_of_plan oneLease [] rfl
  obtain ⟨log, hlog⟩ := Interleaves.exists_of_runs (.cons hlost (.cons hleased .nil))
  have hrun : BringUpRace 8 threeLinks ["bond", "eth0", "eth1"] [(eth0, none), (eth1, some eth1Lease)] log trace
      (.ok (some ⟨"eth1", ⟨10, 0, 0, 50⟩, 24, none, []⟩)) := by
    have hzip : (readCandidates threeLinks ["bond", "eth0", "eth1"]).zip [none, some eth1Lease] =
        [(eth0, none), (eth1, some eth1Lease)] := by
      rw [hread]
      rfl
    rw [← hzip]
    refine .raced ?_ ?_ ?_
    · rw [hread]
      exact List.cons_ne_nil _ _
    · rw [hread]
      exact hlog
    · rw [hzip]
      exact hrest
  refine ⟨log, trace, hrun, ?_⟩
  obtain ⟨-, -, -, -, hwins⟩ := bringUpRace_configures (by decide +kernel) hrun
  obtain ⟨i, c, lease, hd, -, -, -, hall, -⟩ := hwins ⟨"eth1", eth1, eth1Lease, by simp, rfl⟩
  rw [(hall _ rfl).2]
  match i, hd with
  | 0, hd => cases hd
  | 1, hd =>
      cases hd
      rfl
  | i + 2, hd => cases hd

end Beskar7Inspector.RaceWinner
