import Beskar7Inspector.RaceWinner

namespace Beskar7Inspector.BringUp

open Lib.Program Lib.Recorder Lib.Threads Lib.Os SysTree Net Dhcp SelectNics NicRace RaceWinner

/-- The one interface: its link up, a lease over it, and the lease applied. -/
def bringUpOne (patience : Nat) (net : SysDir) (iface : String) : NetIo NetConfig :=
  match readIfindex net iface, readMac net iface with
  | .error e, _ => throw e
  | .ok _, .error e => throw e
  | .ok ifindex, .ok mac => do
      let lease ← dhcpLink patience iface ifindex mac
      applyLease ifindex lease
      pure (netConfig iface lease)

def bringUpStatic (net : SysDir) (iface : String) (s : StaticIp) : NetIo NetConfig :=
  match readIfindex net iface with
  | .error e => throw e
  | .ok ifindex => do
      attempt (.inl (.linkUp ifindex)) (.netlink "link up")
      always (.inl (.waitForLink iface))
      attempt (.inl (.addAddress ifindex s.ip s.prefixLen)) (.netlink "add address")
      match s.gateway with
      | some gw => attempt (.inl (.addDefaultRoute ifindex gw)) (.netlink "add default route")
      | none => pure ()
      pure ⟨iface, s.ip, s.prefixLen, s.gateway, s.dns⟩

/-- The runs of the bring-up, with their events in order. `none` is a panic. -/
inductive BringUpProvisioningNetwork (patience : Nat) (net : SysDir) (bootif : Option String) (ip : Option StaticIp) :
    List Event → Except NetError (Option NetConfig) → Prop
  | noSelection {e : NetError} (h : selectNics net bootif = .error e) :
      BringUpProvisioningNetwork patience net bootif ip [] (.error e)
  | fixed {iface : String} {s : StaticIp} {trace : List Event} {r : Except NetError NetConfig}
      (hselect : selectNics net bootif = .ok (.pinned iface)) (hip : ip = some s)
      (h : Runs event (bringUpStatic net iface s).run trace r) :
      BringUpProvisioningNetwork patience net bootif ip trace (r.map some)
  | staticAmbiguous {ifaces : List String} {s : StaticIp} (hselect : selectNics net bootif = .ok (.race ifaces))
      (hip : ip = some s) : BringUpProvisioningNetwork patience net bootif ip [] (.error .staticAmbiguous)
  | one {iface : String} {trace : List Event} {r : Except NetError NetConfig}
      (hselect : selectNics net bootif = .ok (.pinned iface)) (hip : ip = none)
      (h : Runs event (bringUpOne patience net iface).run trace r) :
      BringUpProvisioningNetwork patience net bootif ip trace (r.map some)
  | raced {ifaces : List String} {results : List (Candidate × Option Lease)} {log : List (Nat × Event)}
      {trace : List Event} {r : Except NetError (Option NetConfig)}
      (hselect : selectNics net bootif = .ok (.race ifaces)) (hip : ip = none)
      (h : BringUpRace patience net ifaces results log trace r) :
      BringUpProvisioningNetwork patience net bootif ip (log.map Prod.snd ++ trace) r

/-- An event that may bring up one of the raced links, and does nothing else. -/
def Raises (raced : UInt32 → Prop) : Event → Prop
  | .linkUp ifindex _ => raced ifindex
  | .waited _ => True
  | .dhcp _ => True
  | _ => False

theorem Raises.mono {raced raced' : UInt32 → Prop} (hraced : ∀ j, raced j → raced' j) {e : Event} (h : Raises raced e) :
    Raises raced' e := by
  cases e with
  | linkUp ifindex r => exact hraced ifindex h
  | waited iface => trivial
  | dhcp e => trivial
  | linkDown | addAddress | addDefaultRoute => exact h.elim

/-- The address, and the route when there is a gateway, both made. -/
def grantedEvents (ifindex : UInt32) (ip : Ipv4Addr) (prefixLen : UInt8) (gateway : Option Ipv4Addr) : List Event :=
  .addAddress ifindex ip prefixLen (.ok ()) :: gateway.toList.map (fun gw => .addDefaultRoute ifindex gw (.ok ()))

/-- The address was refused, or the route behind it was. -/
inductive Refused (ifindex : UInt32) : List Event → Prop
  | address (ip : Ipv4Addr) (prefixLen : UInt8) (e : Errno) : Refused ifindex [.addAddress ifindex ip prefixLen (.error e)]
  | route (ip : Ipv4Addr) (prefixLen : UInt8) (gw : Ipv4Addr) (e : Errno) :
      Refused ifindex [.addAddress ifindex ip prefixLen (.ok ()), .addDefaultRoute ifindex gw (.error e)]

section Paths

/-- The indices of the interfaces. -/
def Index (net : SysDir) (ifaces : List String) (ifindex : UInt32) : Prop :=
  ∃ iface ∈ ifaces, readIfindex net iface = .ok ifindex

/-- The course of a run: links come up; then one of them is given its address and
its route, and the others that had come up are taken down, or the run stops short of that. -/
inductive Course (net : SysDir) (ifaces : List String) : List Event → Except NetError (Option NetConfig) → Prop
  | stopped {bringing : List Event} (e : NetError) (hbringing : ∀ e ∈ bringing, Raises (Index net ifaces) e) :
      Course net ifaces bringing (.error e)
  | refused {bringing refused : List Event} {ifindex : UInt32} (e : NetError)
      (hbringing : ∀ e ∈ bringing, Raises (Index net ifaces) e) (hup : .linkUp ifindex (.ok ()) ∈ bringing)
      (hrefused : Refused ifindex refused) : Course net ifaces (bringing ++ refused) (.error e)
  | configured {bringing tearing : List Event} {ifindex : UInt32} {cfg : NetConfig}
      (hbringing : ∀ e ∈ bringing, Raises (Index net ifaces) e) (hmem : cfg.iface ∈ ifaces)
      (hindex : readIfindex net cfg.iface = .ok ifindex) (hup : .linkUp ifindex (.ok ()) ∈ bringing)
      (htearing : ∀ e ∈ tearing, ∃ j r, e = .linkDown j r ∧ j ≠ ifindex ∧ Index net ifaces j)
      (hdown : ∀ j r, .linkUp j r ∈ bringing → j ≠ ifindex → ∃ r', .linkDown j r' ∈ tearing) :
      Course net ifaces (bringing ++ (grantedEvents ifindex cfg.ip cfg.prefixLen cfg.gateway ++ tearing)) (.ok (some cfg))

variable {net : SysDir} {ifaces : List String}

theorem Course.early (e : NetError) : Course net ifaces [] (.error e) := .stopped e (List.forall_mem_nil _)

theorem yields_applyLease_course (ifindex : UInt32) (lease : Lease) :
    Yields event (applyLease ifindex lease) (fun r trace => (∀ e, r = .error e → Refused ifindex trace) ∧
      (r = .ok () → trace = grantedEvents ifindex lease.ip lease.prefixLen lease.gateway)) := by
  rw [applyLease]
  refine Yields.attempt_bind (fun e => ⟨fun _ _ => .address _ _ e, fun h => (by cases h)⟩) fun _ => ?_
  cases hgw : lease.gateway with
  | none => exact Yields.pure ⟨fun _ h => (by cases h), fun _ => rfl⟩
  | some gw =>
    refine Yields.attempt fun r => ?_
    cases r with
    | ok _ => exact ⟨fun _ h => (by cases h), fun _ => rfl⟩
    | error e => exact ⟨fun _ _ => .route _ _ _ e, fun h => by cases h⟩

theorem yields_dhcpLink_course (patience : Nat) (iface : String) (ifindex : UInt32) (mac : Mac) :
    Yields event (dhcpLink patience iface ifindex mac) (fun r trace => (∀ e ∈ trace, Raises (· = ifindex) e) ∧
      ∀ lease, r = .ok lease → .linkUp ifindex (.ok ()) ∈ trace) := by
  have hself (r : Except Errno Unit) : Raises (· = ifindex) (.linkUp ifindex r) := rfl
  refine Yields.attempt_bind (fun e => ⟨by simpa [event] using hself _, fun _ h => nomatch h⟩) fun _ =>
    Yields.always_bind fun _ => ?_
  have hacquire : Yields DhcpLease.event (acquire patience iface mac) (fun _ _ => True) :=
    (DhcpLease.yields_acquire patience iface mac).mono fun _ _ _ => trivial
  refine (hacquire.embed Event.dhcp fun _ _ => rfl).mono ?_
  rintro r _ ⟨trace, rfl, -⟩
  refine ⟨?_, fun _ _ => List.mem_cons_self⟩
  simp only [List.forall_mem_cons, List.forall_mem_map]
  exact ⟨hself _, trivial, fun _ _ => trivial⟩

theorem yields_bringUpOne (patience : Nat) {iface : String} (hmem : iface ∈ ifaces) :
    Yields event (bringUpOne patience net iface) (fun r trace => Course net ifaces trace (r.map some) ∧
      ∀ cfg, r = .ok cfg → cfg.iface = iface) := by
  rw [bringUpOne]
  cases hindex : readIfindex net iface with
  | error e => exact Yields.throw ⟨.early e, fun _ h => nomatch h⟩
  | ok ifindex =>
    cases hmac : readMac net iface with
    | error e => exact Yields.throw ⟨.early e, fun _ h => nomatch h⟩
    | ok mac =>
      have hown : Index net ifaces ifindex := ⟨iface, hmem, hindex⟩
      refine Yields.bind (yields_dhcpLink_course patience iface ifindex mac) (fun e trace h => ?_) fun lease bringing h => ?_
      · exact ⟨.stopped e fun e he => (h.1 e he).mono fun _ heq => heq ▸ hown, fun _ h => by cases h⟩
      · obtain ⟨hraises, hup⟩ := h
        have hbringing : ∀ e ∈ bringing, Raises (Index net ifaces) e := fun e he => (hraises e he).mono fun _ heq => heq ▸ hown
        refine Yields.bind (yields_applyLease_course ifindex lease) (fun e trace h => ?_) fun _ granting h => ?_
        · exact ⟨.refused e hbringing (hup lease rfl) (h.1 e rfl), fun _ h => by cases h⟩
        · obtain rfl := h.2 rfl
          refine Yields.pure ⟨?_, fun _ h => ?_⟩
          rotate_left
          · cases h
            rfl
          have hcourse := @Course.configured net ifaces bringing [] ifindex (netConfig iface lease) hbringing hmem hindex
            (hup lease rfl) (fun _ h => nomatch h) fun j r hmem hne => absurd (hraises _ hmem) hne
          rwa [List.append_nil] at hcourse ⊢

theorem yields_bringUpStatic {iface : String} (hmem : iface ∈ ifaces) (s : StaticIp) :
    Yields event (bringUpStatic net iface s) (fun r trace => Course net ifaces trace (r.map some) ∧
      ∀ cfg, r = .ok cfg → cfg = ⟨iface, s.ip, s.prefixLen, s.gateway, s.dns⟩) := by
  rw [bringUpStatic]
  cases hindex : readIfindex net iface with
  | error e => exact Yields.throw ⟨.early e, fun _ h => nomatch h⟩
  | ok ifindex =>
    have hown (r : Except Errno Unit) : Raises (Index net ifaces) (.linkUp ifindex r) := ⟨iface, hmem, hindex⟩
    refine Yields.attempt_bind (fun e => ⟨?_, fun _ h => nomatch h⟩) fun _ => Yields.always_bind fun _ => ?_
    · have hfirst : ∀ e' ∈ [Event.linkUp ifindex (.error e)], Raises (Index net ifaces) e' := by simpa using hown (.error e)
      exact .stopped _ hfirst
    · let bringing : List Event := [.linkUp ifindex (.ok ()), .waited iface]
      have hbringing : ∀ e ∈ bringing, Raises (Index net ifaces) e := by
        simp only [bringing, List.forall_mem_cons]
        exact ⟨hown _, trivial, fun _ h => nomatch h⟩
      have hconfigured : Course net ifaces (bringing ++ (grantedEvents ifindex s.ip s.prefixLen s.gateway ++ []))
          (.ok (some ⟨iface, s.ip, s.prefixLen, s.gateway, s.dns⟩)) := by
        refine @Course.configured net ifaces bringing [] ifindex ⟨iface, s.ip, s.prefixLen, s.gateway, s.dns⟩ hbringing
          hmem hindex List.mem_cons_self (fun _ h => nomatch h) fun j r hmem hne => ?_
        cases List.mem_cons.mp hmem with
        | inl heq =>
          cases heq
          exact absurd rfl hne
        | inr hmem => cases List.mem_singleton.mp hmem
      refine Yields.attempt_bind (fun e => ⟨?_, fun _ h => nomatch h⟩) fun _ => ?_
      · exact @Course.refused net ifaces bringing _ ifindex _ hbringing List.mem_cons_self (.address s.ip s.prefixLen e)
      · cases hgw : s.gateway with
        | none =>
          rw [hgw] at hconfigured
          refine Yields.pure ⟨hconfigured, ?_⟩
          rintro _ ⟨⟩
          rfl
        | some gw =>
          rw [hgw] at hconfigured
          refine Yields.attempt_bind (fun e => ⟨?_, fun _ h => nomatch h⟩) fun _ => Yields.pure ⟨hconfigured, ?_⟩
          · exact @Course.refused net ifaces bringing _ ifindex _ hbringing List.mem_cons_self
              (.route s.ip s.prefixLen gw e)
          · rintro _ ⟨⟩
            rfl

/-- Every link but the winner's is asked to go down. -/
theorem yields_linkDownOthers_course {winner idx : Nat} (rest : List (Candidate × Option Lease)) :
    Yields event (linkDownOthers winner idx rest) (fun r trace => r = .ok () ∧
      (∀ e ∈ trace, ∃ n d res, rest[n]? = some d ∧ idx + n ≠ winner ∧ e = .linkDown d.1.ifindex res) ∧
      ∀ n d, rest[n]? = some d → idx + n ≠ winner → ∃ res, .linkDown d.1.ifindex res ∈ trace) := by
  induction rest generalizing idx with
  | nil => exact Yields.pure ⟨rfl, fun _ h => (nomatch h), fun _ _ h => (nomatch h)⟩
  | cons d rest ih =>
    rw [linkDownOthers]
    by_cases hidx : idx = winner
    · rw [if_neg (not_not.mpr hidx)]
      refine (@ih (idx + 1)).mono ?_
      rintro r trace ⟨rfl, hall, hevery⟩
      refine ⟨rfl, fun e he => ?_, fun n d' hd hn => ?_⟩
      · obtain ⟨n, d', res, hd, hn, rfl⟩ := hall e he
        exact ⟨n + 1, d', res, hd, by omega, rfl⟩
      · cases n with
        | zero => exact absurd hidx hn
        | succ n => exact hevery n d' hd (by omega)
    · rw [if_pos hidx]
      refine Yields.always_bind fun res => (@ih (idx + 1)).mono ?_
      rintro r trace ⟨rfl, hall, hevery⟩
      refine ⟨rfl, fun e he => ?_, fun n d' hd hn => ?_⟩
      · cases List.mem_cons.mp he with
        | inl heq => exact ⟨0, d, res, rfl, hidx, heq⟩
        | inr he =>
          obtain ⟨n, d', res', hd, hn, rfl⟩ := hall e he
          exact ⟨n + 1, d', res', hd, by omega, rfl⟩
      · cases n with
        | zero =>
          cases hd
          exact ⟨res, List.mem_cons_self⟩
        | succ n =>
          obtain ⟨res', hmem⟩ := hevery n d' hd (by omega)
          exact ⟨res', List.mem_cons_of_mem _ hmem⟩

theorem yields_applyWinner_course {results : List (Candidate × Option Lease)} {i : Nat} {c : Candidate} {lease : Lease}
    (hchosen : chooseLease (results.map Prod.snd) = some i) (hd : results[i]? = some (c, some lease)) :
    Yields event (applyWinner results) (fun r trace => (∀ e, r = .error e → Refused c.ifindex trace) ∧
      ∀ cfg, r = .ok cfg → cfg = some (netConfig c.iface lease) ∧
        ∃ tearing, trace = grantedEvents c.ifindex lease.ip lease.prefixLen lease.gateway ++ tearing ∧
          (∀ e ∈ tearing, ∃ n d res, results[n]? = some d ∧ n ≠ i ∧ e = .linkDown d.1.ifindex res) ∧
          ∀ n d, results[n]? = some d → n ≠ i → ∃ res, .linkDown d.1.ifindex res ∈ tearing) := by
  have hlease : (results.map Prod.snd)[i]? = some (some lease) := by
    rw [List.getElem?_map, hd]
    rfl
  rw [applyWinner]
  simp only [hchosen, hd, hlease]
  refine Yields.bind (yields_applyLease_course c.ifindex lease) (fun e trace h => ⟨fun _ _ => h.1 e rfl, fun _ h => by cases h⟩) ?_
  rintro _ granting ⟨-, hgranted⟩
  obtain rfl := hgranted rfl
  refine Yields.bind (yields_linkDownOthers_course results) (fun e trace h => by cases h.1) ?_
  rintro _ tearing ⟨-, hall, hevery⟩
  refine Yields.pure ⟨fun _ h => (by cases h), ?_⟩
  rintro _ ⟨⟩
  refine ⟨rfl, tearing, by rw [List.append_nil], fun e he => ?_, fun n d hd hn => hevery n d hd (by omega)⟩
  obtain ⟨n, d, res, hd, hn, rfl⟩ := hall e he
  exact ⟨n, d, res, hd, by omega, rfl⟩

theorem mem_readCandidates {c : Candidate} (h : c ∈ readCandidates net ifaces) :
    c.iface ∈ ifaces ∧ readIfindex net c.iface = .ok c.ifindex := by
  rw [readCandidates, List.mem_filterMap] at h
  obtain ⟨iface, hmem, heq⟩ := h
  split at heq
  · rename_i hindex _
    cases heq
    exact ⟨hmem, hindex⟩
  · cases heq

/-- Two positions of the race with one index are one position. -/
theorem readCandidates_injective (hsorted : ifaces.Pairwise (· < ·))
    (hdistinct : ∀ a ∈ ifaces, ∀ b ∈ ifaces, ∀ j, readIfindex net a = .ok j → readIfindex net b = .ok j → a = b)
    {n m : Nat} {c d : Candidate} (hc : (readCandidates net ifaces)[n]? = some c)
    (hd : (readCandidates net ifaces)[m]? = some d) (heq : c.ifindex = d.ifindex) : n = m := by
  have hnames : (readCandidates net ifaces).Pairwise (fun a b => a.iface < b.iface) := by
    refine List.Pairwise.filterMap _ ?_ hsorted
    intro a a' hlt c hc c' hc'
    split at hc
    · split at hc'
      · cases hc
        cases hc'
        exact hlt
      · cases hc'
    · cases hc
  obtain ⟨hmemc, hindexc⟩ := mem_readCandidates (List.mem_of_getElem? hc)
  obtain ⟨hmemd, hindexd⟩ := mem_readCandidates (List.mem_of_getElem? hd)
  have hiface : c.iface = d.iface := hdistinct _ hmemc _ hmemd _ hindexc (heq ▸ hindexd)
  obtain ⟨hn, rfl⟩ := List.getElem?_eq_some_iff.mp hc
  obtain ⟨hm, rfl⟩ := List.getElem?_eq_some_iff.mp hd
  rcases Nat.lt_trichotomy n m with hlt | rfl | hlt
  · exact absurd hiface (List.pairwise_iff_getElem.mp hnames n m hn hm hlt).ne
  · rfl
  · exact absurd hiface.symm (List.pairwise_iff_getElem.mp hnames m n hm hn hlt).ne

/-- An event of the threads is one of the exchange over its own candidate. -/
theorem raises_of_interleaves {patience : Nat} {candidates : List Candidate} {log : List (Nat × Event)}
    {leases : List (Option Lease)} (h : Interleaves event (candidates.map (exchange patience)) log leases) {n : Nat}
    {e : Event} (he : (n, e) ∈ log) : ∃ c, candidates[n]? = some c ∧ Raises (· = c.ifindex) e := by
  have hlt : n < candidates.length := by simpa using h.lt_length he
  have hc := List.getElem?_eq_getElem hlt
  have hthread : (candidates.map (exchange patience))[n]? = some (exchange patience candidates[n]) := by
    rw [List.getElem?_map, hc]
    rfl
  obtain ⟨a, -, hruns⟩ := h.thread hthread
  obtain ⟨first, r, second, hlink, hret, heq⟩ := Runs.bind_iff.mp hruns
  have hraises := (hlink.of_yields (yields_dhcpLink_course patience _ _ _)).1
  cases hret
  rw [List.append_nil] at heq
  exact ⟨_, hc, hraises e (heq ▸ Interleaves.mem_eventsOf he)⟩

theorem linkUp_of_lease {patience : Nat} {c : Candidate} {trace : List Event} {lease : Lease}
    (h : Runs event (exchange patience c) trace (some lease)) : .linkUp c.ifindex (.ok ()) ∈ trace := by
  obtain ⟨first, r, second, hlink, hret, rfl⟩ := Runs.bind_iff.mp h
  have hup := (hlink.of_yields (yields_dhcpLink_course patience _ _ _)).2
  cases r with
  | error e => cases hret
  | ok lease => exact List.mem_append_left _ (hup lease rfl)

theorem course_race {patience : Nat} (hsorted : ifaces.Pairwise (· < ·))
    (hdistinct : ∀ a ∈ ifaces, ∀ b ∈ ifaces, ∀ j, readIfindex net a = .ok j → readIfindex net b = .ok j → a = b)
    {results : List (Candidate × Option Lease)} {log : List (Nat × Event)} {trace : List Event}
    {r : Except NetError (Option NetConfig)} (h : BringUpRace patience net ifaces results log trace r) :
    Course net ifaces (log.map Prod.snd ++ trace) r := by
  cases h with
  | noInterface hnone => exact .early _
  | @raced log leases trace r _ hthreads hrest =>
    let candidates := readCandidates net ifaces
    have hindex {n : Nat} {c : Candidate} (hc : candidates[n]? = some c) : Index net ifaces c.ifindex := by
      obtain ⟨hmem, hread⟩ := mem_readCandidates (List.mem_of_getElem? hc)
      exact ⟨c.iface, hmem, hread⟩
    have hbringing : ∀ e ∈ log.map Prod.snd, Raises (Index net ifaces) e := by
      intro e he
      obtain ⟨⟨n, e⟩, hmem, rfl⟩ := List.mem_map.mp he
      obtain ⟨c, hc, hraises⟩ := raises_of_interleaves hthreads hmem
      exact hraises.mono fun j heq => heq ▸ hindex hc
    have hfst {n : Nat} {d : Candidate × Option Lease} (hd : (candidates.zip leases)[n]? = some d) :
        candidates[n]? = some d.1 := (List.getElem?_zip_eq_some.mp hd).1
    cases hchosen : chooseLease ((candidates.zip leases).map Prod.snd) with
    | none =>
      obtain ⟨rfl, rfl⟩ := hrest.of_yields (yields_applyWinner_none hchosen)
      rw [List.append_nil]
      exact .stopped _ hbringing
    | some i =>
      have hlen : candidates.length ≤ leases.length := by simpa using hthreads.length_eq.ge
      have hnames : ((candidates.zip leases).map Prod.fst).Pairwise (fun a b => a.iface ≤ b.iface) := by
        rw [List.map_fst_zip hlen]
        exact pairwise_readCandidates net (hsorted.imp le_of_lt)
      rw [List.pairwise_map] at hnames
      obtain ⟨c, lease, hd, -⟩ := chooseLease_eq_some hnames hchosen
      obtain ⟨hrefused, hconfigured⟩ := hrest.of_yields (yields_applyWinner_course hchosen hd)
      have hown : .linkUp c.ifindex (.ok ()) ∈ log.map Prod.snd := by
        have hmem := linkUp_of_lease (runs_exchange hthreads hd)
        obtain ⟨⟨n, e⟩, hfilter, rfl⟩ := List.mem_map.mp hmem
        exact List.mem_map_of_mem (List.mem_of_mem_filter hfilter)
      cases r with
      | error e => exact .refused e hbringing hown (hrefused e rfl)
      | ok cfg =>
        obtain ⟨rfl, tearing, rfl, htearing, hdown⟩ := hconfigured cfg rfl
        obtain ⟨hmem, hread⟩ := mem_readCandidates (List.mem_of_getElem? (hfst hd))
        refine @Course.configured net ifaces _ tearing c.ifindex (netConfig c.iface lease) hbringing hmem hread hown
          (fun e he => ?_) fun j res hmem hne => ?_
        · obtain ⟨n, d, res, hnd, hn, rfl⟩ := htearing e he
          refine ⟨d.1.ifindex, res, rfl, fun heq => hn ?_, hindex (hfst hnd)⟩
          exact readCandidates_injective hsorted hdistinct (hfst hnd) (hfst hd) heq
        · obtain ⟨⟨n, e⟩, hmem, heq⟩ := List.mem_map.mp hmem
          obtain ⟨c', hc', hraises⟩ := raises_of_interleaves hthreads hmem
          obtain rfl : e = .linkUp j res := heq
          obtain rfl : j = c'.ifindex := hraises
          have hn : n < leases.length := lt_of_lt_of_le (List.getElem?_eq_some_iff.mp hc').1 hlen
          have hnd : (candidates.zip leases)[n]? = some (c', leases[n]) :=
            List.getElem?_zip_eq_some.mpr ⟨hc', List.getElem?_eq_getElem hn⟩
          refine hdown n _ hnd fun heq => hne ?_
          subst heq
          exact congrArg Candidate.ifindex (Option.some.inj (hc'.symm.trans (hfst hd)))

end Paths

section Runs

variable {net : SysDir} {trace : List Event}

theorem selectNics_pinned {bootif : Option String} {iface : String} (h : selectNics net bootif = .ok (.pinned iface)) :
    iface ∈ candidateInterfaces net ∧ ∀ b, bootif = some b → hasAddress net (normalizeBootif b) iface = true := by
  unfold selectNics at h
  dsimp only at h
  split at h
  · cases h
  · cases bootif with
    | some b =>
      dsimp only at h
      split at h
      · rename_i heq
        cases h
        refine ⟨List.mem_of_find?_eq_some heq, fun b' hb => ?_⟩
        cases hb
        exact List.find?_some heq
      · cases h
    | none =>
      dsimp only at h
      split at h
      · rename_i heq
        cases h
        rw [heq]
        exact ⟨List.mem_singleton_self _, fun _ h => nomatch h⟩
      · cases h

theorem selectNics_race_bootif {bootif : Option String} {ifaces : List String}
    (h : selectNics net bootif = .ok (.race ifaces)) : bootif = none := by
  unfold selectNics at h
  dsimp only at h
  split at h
  · cases h
  · cases bootif with
    | some b =>
      dsimp only at h
      split at h <;> cases h
    | none => rfl

/-- The interface is the one the boot loader names, and a fixed address is used as it was given. -/
theorem asked_of_bringUp {patience : Nat} {bootif : Option String} {ip : Option StaticIp} {c : NetConfig}
    {r : Except NetError (Option NetConfig)} (h : BringUpProvisioningNetwork patience net bootif ip trace r)
    (hr : r = .ok (some c)) : (∀ b, bootif = some b → hasAddress net (normalizeBootif b) c.iface = true) ∧
      ∀ s, ip = some s → c = ⟨c.iface, s.ip, s.prefixLen, s.gateway, s.dns⟩ := by
  have hmap {r' : Except NetError NetConfig} (h : r'.map some = .ok (some c)) : r' = .ok c := by
    cases r' with
    | ok c' =>
      cases h
      rfl
    | error e => cases h
  cases h with
  | noSelection hselect => cases hr
  | staticAmbiguous hselect hip => cases hr
  | fixed hselect hip hruns =>
    obtain ⟨hmem, haddress⟩ := selectNics_pinned hselect
    obtain rfl := (hruns.of_yields (yields_bringUpStatic hmem _)).2 c (hmap hr)
    refine ⟨haddress, fun s hs => ?_⟩
    rw [hip] at hs
    cases hs
    rfl
  | one hselect hip hruns =>
    obtain ⟨hmem, haddress⟩ := selectNics_pinned hselect
    have hiface := (hruns.of_yields (yields_bringUpOne patience hmem)).2 c (hmap hr)
    refine ⟨fun b hb => hiface ▸ haddress b hb, fun s hs => ?_⟩
    rw [hip] at hs
    cases hs
  | raced hselect hip hrace =>
    refine ⟨fun b hb => ?_, fun s hs => ?_⟩
    · rw [selectNics_race_bootif hselect] at hb
      cases hb
    · rw [hip] at hs
      cases hs

/-- However the calls of a bring-up are answered, and in whatever order the exchanges
of a race take turns: where it returns a configuration, the calls that were answered
well are those of just that one, on an interface that it was to be on. -/
theorem bringUp_configures {patience : Nat} {bootif : Option String} {ip : Option StaticIp}
    {r : Except NetError (Option NetConfig)}
    (hdistinct : ∀ a ∈ candidateInterfaces net, ∀ b ∈ candidateInterfaces net, ∀ j, readIfindex net a = .ok j →
      readIfindex net b = .ok j → a = b)
    (h : BringUpProvisioningNetwork patience net bootif ip trace r) : Course net (candidateInterfaces net) trace r ∧
      ∀ c, r = .ok (some c) → (∀ b, bootif = some b → hasAddress net (normalizeBootif b) c.iface = true) ∧
        ∀ s, ip = some s → c = ⟨c.iface, s.ip, s.prefixLen, s.gateway, s.dns⟩ := by
  refine ⟨?_, fun c hc => asked_of_bringUp h hc⟩
  cases h with
  | noSelection hselect => exact .early _
  | staticAmbiguous hselect hip => exact .early _
  | fixed hselect hip hruns => exact (hruns.of_yields (yields_bringUpStatic (selectNics_pinned hselect).1 _)).1
  | one hselect hip hruns => exact (hruns.of_yields (yields_bringUpOne patience (selectNics_pinned hselect).1)).1
  | raced hselect hip hrace =>
    obtain rfl := selectNics_race hselect
    exact course_race (pairwise_candidateInterfaces net) hdistinct hrace

def fixedIp : StaticIp := ⟨⟨10, 0, 0, 9⟩, some ⟨10, 0, 0, 1⟩, 24, []⟩

def allWell : Answers Calls := fun {β} o =>
  match β, o with
  | _, .inl (.linkUp _) => .ok ()
  | _, .inl (.linkDown _) => .ok ()
  | _, .inl (.addAddress _ _ _) => .ok ()
  | _, .inl (.addDefaultRoute _ _) => .ok ()
  | _, .inl (.waitForLink _) => ()
  | _, .inr o => DhcpLease.lateAck 0 o

theorem bringUp_configures_fixedIp : ∃ trace c,
    BringUpProvisioningNetwork 8 threeLinks (some "01-52-54-00-12-34-56") (some fixedIp) trace (.ok (some c)) ∧
    c = ⟨"eth1", ⟨10, 0, 0, 9⟩, 24, some ⟨10, 0, 0, 1⟩, []⟩ ∧
    Course threeLinks (candidateInterfaces threeLinks) trace (.ok (some c)) := by
  have hselect : selectNics threeLinks (some "01-52-54-00-12-34-56") = .ok (.pinned "eth1") := by decide +kernel
  have hcandidates : candidateInterfaces threeLinks = ["bond", "eth0", "eth1"] := by decide +kernel
  have hbond : readIfindex threeLinks "bond" = .error (.sysRead "/sys/class/net/bond/ifindex") := by decide +kernel
  have heth0 : readIfindex threeLinks "eth0" = .ok 2 := by decide +kernel
  have heth1 : readIfindex threeLinks "eth1" = .ok 3 := by decide +kernel
  have hdistinct : ∀ a ∈ candidateInterfaces threeLinks, ∀ b ∈ candidateInterfaces threeLinks, ∀ j,
      readIfindex threeLinks a = .ok j → readIfindex threeLinks b = .ok j → a = b := by
    intro a ha b hb j hja hjb
    rw [hcandidates] at ha hb
    simp only [List.mem_cons, List.not_mem_nil, or_false] at ha hb
    rcases ha with rfl | rfl | rfl <;> rcases hb with rfl | rfl | rfl <;>
      simp only [hbond, heth0, heth1, reduceCtorEq, Except.ok.injEq] at hja hjb <;>
      first | rfl | exact absurd (hja.trans hjb.symm) (by decide)
  have hruns : Runs event (bringUpStatic threeLinks "eth1" fixedIp).run
      [.linkUp 3 (.ok ()), .waited "eth1", .addAddress 3 ⟨10, 0, 0, 9⟩ 24 (.ok ()), .addDefaultRoute 3 ⟨10, 0, 0, 1⟩ (.ok ())]
      (.ok ⟨"eth1", ⟨10, 0, 0, 9⟩, 24, some ⟨10, 0, 0, 1⟩, []⟩) := by
    rw [bringUpStatic, heth1]
    exact .call allWell (.call allWell (.call allWell (.call allWell (.ret _))))
  have hrun := @BringUpProvisioningNetwork.fixed 8 threeLinks _ (some fixedIp) _ _ _ _ hselect rfl hruns
  obtain ⟨hcourse, -⟩ := bringUp_configures hdistinct hrun
  exact ⟨_, _, hrun, rfl, hcourse⟩

end Runs

end Beskar7Inspector.BringUp
