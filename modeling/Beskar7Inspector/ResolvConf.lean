import Beskar7Inspector.Lib.FileCalls
import Beskar7Inspector.StaticIpGrammar

namespace Beskar7Inspector.ResolvConf

open Lib.Program Lib.Os Lib.Text Lib.Decimal Lib.Recorder Lib.Files Lib.FileCalls Net StaticIpGrammar

def MAX_NAMESERVERS : Nat := 3

/-- The servers in order, none of them twice, until there are enough. -/
def choose : List Ipv4Addr → List Ipv4Addr → List Ipv4Addr
  | chosen, [] => chosen
  | chosen, ip :: dns =>
      if ip ∈ chosen then choose chosen dns
      else if (chosen ++ [ip]).length = MAX_NAMESERVERS then chosen ++ [ip]
      else choose (chosen ++ [ip]) dns

def renderResolvConf (dns : List Ipv4Addr) : String :=
  String.ofList ((choose [] dns).flatMap fun ip => ("nameserver " ++ display ip ++ "\n").toList)

abbrev Files := FileTree (id : String → String)

def etc : Path String := .join .root "etc"

def resolvConf : Path String := etc.join "resolv.conf"

def writeResolvConf (dns : List Ipv4Addr) : Try (FileOp String) IoError Unit :=
  let content := renderResolvConf dns
  if content.isEmpty then pure ()
  else do
    attempt (.createDirAll etc) id
    attempt (.openTruncated resolvConf 0o666) id
    attempt (.writeAll resolvConf (utf8 content)) id

/-- The address on a line for the resolver, the rest of the line aside. -/
def nameserver? (line : String) : Option Ipv4Addr :=
  (stripPrefix "nameserver" line).bind fun rest =>
    if rest.toList.head?.any isAsciiWhitespace then
      Ipv4Addr.parse (String.ofList ((rest.toList.dropWhile isAsciiWhitespace).takeWhile (!isAsciiWhitespace ·)))
    else none

/-- The servers that the text names by the format of the file: those of its first three lines that name one. -/
def nameservers (text : String) : List Ipv4Addr := ((splitChar '\n' text).filterMap nameserver?).take 3

theorem choose_eq {chosen : List Ipv4Addr} (h : chosen.length < MAX_NAMESERVERS) (dns : List Ipv4Addr) :
    choose chosen dns = (chosen ++ (dns.filter (· ∉ chosen)).eraseDups).take MAX_NAMESERVERS := by
  induction dns generalizing chosen with
  | nil =>
    rw [choose, List.filter_nil, List.eraseDups_nil, List.append_nil, List.take_of_length_le h.le]
  | cons ip dns ih =>
    rw [choose]
    by_cases hmem : ip ∈ chosen
    · rw [if_pos hmem, ih h, List.filter_cons_of_neg (by simpa using hmem)]
    · have hfilter : (dns.filter (· ∉ chosen)).filter (fun b => !b == ip) = dns.filter (· ∉ chosen ++ [ip]) := by
        rw [List.filter_filter]
        refine List.filter_congr fun b _ => ?_
        rw [Bool.beq_eq_decide_eq]
        simp [and_comm]
      have hsplit : chosen ++ ip :: (dns.filter (· ∉ chosen ++ [ip])).eraseDups =
          (chosen ++ [ip]) ++ (dns.filter (· ∉ chosen ++ [ip])).eraseDups := by
        rw [List.append_assoc, List.singleton_append]
      rw [if_neg hmem, List.filter_cons_of_pos (by simpa using hmem), List.eraseDups_cons, hfilter, hsplit]
      by_cases hfull : (chosen ++ [ip]).length = MAX_NAMESERVERS
      · rw [if_pos hfull, List.take_append_of_le_length hfull.ge, List.take_of_length_le hfull.le]
      · have hroom : (chosen ++ [ip]).length < MAX_NAMESERVERS := by
          rw [List.length_append, List.length_singleton] at hfull ⊢
          omega
        rw [if_neg hfull, ih hroom]

theorem choose_nil (dns : List Ipv4Addr) : choose [] dns = dns.eraseDups.take 3 := by
  have hall : dns.filter (· ∉ ([] : List Ipv4Addr)) = dns := List.filter_eq_self.mpr (by simp)
  rw [choose_eq (by decide), hall]
  rfl

def lineOf (ip : Ipv4Addr) : String := "nameserver " ++ display ip

theorem mem_display {ip : Ipv4Addr} {c : Char} (h : c ∈ (display ip).toList) : isAsciiDigit c = true ∨ c = '.' := by
  rw [display, String.toList_intercalate] at h
  simp only [List.map_cons, List.map_nil, List.intercalate_cons_cons, List.intercalate_singleton, List.mem_append,
    Nat.toList_repr] at h
  rcases h with (h | h) | (h | h) | (h | h) | h
  · exact .inl (isAsciiDigit_of_mem_toDigits h)
  · exact .inr (List.mem_singleton.mp h)
  · exact .inl (isAsciiDigit_of_mem_toDigits h)
  · exact .inr (List.mem_singleton.mp h)
  · exact .inl (isAsciiDigit_of_mem_toDigits h)
  · exact .inr (List.mem_singleton.mp h)
  · exact .inl (isAsciiDigit_of_mem_toDigits h)

theorem not_isAsciiWhitespace {ip : Ipv4Addr} {c : Char} (h : c ∈ (display ip).toList) : isAsciiWhitespace c = false := by
  have hof (d : Char) (hc : c = d) (hd : isAsciiDigit d = false ∧ d ≠ '.') : False := by
    subst hc
    rcases mem_display h with hdigit | hdot
    · rw [hd.1] at hdigit
      cases hdigit
    · exact hd.2 hdot
  rw [Bool.eq_false_iff]
  intro hspace
  simp only [isAsciiWhitespace, Bool.or_eq_true, beq_iff_eq] at hspace
  rcases hspace with (((hc | hc) | hc) | hc) | hc
  · exact hof _ hc (by decide)
  · exact hof _ hc (by decide)
  · exact hof _ hc (by decide)
  · exact hof _ hc (by decide)
  · exact hof _ hc (by decide)

theorem nameserver?_lineOf (ip : Ipv4Addr) : nameserver? (lineOf ip) = some ip := by
  have hstrip : stripPrefix "nameserver" (lineOf ip) = some (" " ++ display ip) := by
    refine stripPrefix_eq_some_iff.mpr ?_
    apply String.toList_inj.mp
    simp only [lineOf, String.toList_append]
    rfl
  have hlist : (" " ++ display ip).toList = ' ' :: (display ip).toList := by
    rw [String.toList_append]
    rfl
  have hdrop : (display ip).toList.dropWhile isAsciiWhitespace = (display ip).toList := by
    refine List.dropWhile_eq_self_iff.mpr fun hpos => ?_
    rw [not_isAsciiWhitespace (List.getElem_mem hpos)]
    exact Bool.false_ne_true
  have htake : (display ip).toList.takeWhile (!isAsciiWhitespace ·) = (display ip).toList :=
    List.takeWhile_eq_self_iff.mpr fun c hc => by rw [not_isAsciiWhitespace hc]; rfl
  have hspace : isAsciiWhitespace ' ' = true := by decide
  rw [nameserver?, hstrip, Option.bind_some, hlist, List.head?_cons, Option.any_some, if_pos hspace,
    List.dropWhile_cons_of_pos hspace, hdrop, htake, String.ofList_toList, ipv4Addr_parse_eq_some_iff]

theorem splitChar_renderResolvConf (dns : List Ipv4Addr) :
    splitChar '\n' (renderResolvConf dns) = (choose [] dns).map lineOf ++ [""] := by
  refine (splitChar_eq_iff (by simp)).mpr ⟨?_, fun piece hpiece => ?_⟩
  · apply String.toList_inj.mp
    rw [renderResolvConf, String.toList_ofList, String.toList_intercalate]
    generalize choose [] dns = chosen
    induction chosen with
    | nil => rfl
    | cons ip chosen ih =>
      rw [List.flatMap_cons, ih]
      cases chosen with
      | nil => simp [lineOf, List.intercalate_cons_cons]
      | cons next chosen => simp [lineOf, List.intercalate_cons_cons]
  · cases List.mem_append.mp hpiece with
    | inl hline =>
      obtain ⟨ip, -, rfl⟩ := List.mem_map.mp hline
      intro hbreak
      rw [lineOf, String.toList_append] at hbreak
      cases List.mem_append.mp hbreak with
      | inl hprefix => exact absurd hprefix (by decide)
      | inr hdisplay =>
        have := not_isAsciiWhitespace hdisplay
        revert this
        decide
    | inr hlast =>
      rw [List.mem_singleton.mp hlast]
      decide

theorem nameservers_renderResolvConf (dns : List Ipv4Addr) :
    nameservers (renderResolvConf dns) = dns.eraseDups.take 3 := by
  have hempty : nameserver? "" = none := by decide +kernel
  have hlines (chosen : List Ipv4Addr) : (chosen.map lineOf).filterMap nameserver? = chosen := by
    rw [List.filterMap_map]
    have hsome : nameserver? ∘ lineOf = some := funext nameserver?_lineOf
    rw [hsome, List.filterMap_some]
  have hlast : [""].filterMap nameserver? = [] := List.filterMap_cons_none hempty
  rw [nameservers, splitChar_renderResolvConf, List.filterMap_append, hlines, choose_nil, hlast, List.append_nil,
    List.take_take, Nat.min_self]

theorem isEmpty_renderResolvConf (dns : List Ipv4Addr) : (renderResolvConf dns).isEmpty = true ↔ dns = [] := by
  rw [String.isEmpty_iff]
  constructor
  · intro hempty
    have hnone : nameservers "" = [] := by decide +kernel
    have hread := nameservers_renderResolvConf dns
    rw [hempty, hnone] at hread
    cases dns with
    | nil => rfl
    | cons ip dns =>
      rw [List.eraseDups_cons, List.take_succ_cons] at hread
      cases hread
  · rintro rfl
    rfl

/-- The file is not touched, or it is written anew. -/
theorem does_writeResolvConf (dns : List Ipv4Addr) (may : Unnoticed) (t : Files) :
    Does event (disk may) (fun _ => True) (writeResolvConf dns) t (fun r t' _ =>
      (∀ p, p ≠ resolvConf → t'.contents? p = t.contents? p) ∧
        (dns = [] → t'.contents? resolvConf = t.contents? resolvConf) ∧
        (r = .ok () → dns ≠ [] → t'.contents? resolvConf = some (utf8 (renderResolvConf dns)))) := by
  have hmap (p : Path String) : p.map id = p := by
    induction p with
    | root => rfl
    | join dir name ih => rw [Lib.Files.Path.map, ih, id]
  rw [writeResolvConf]
  by_cases hdns : dns = []
  · rw [if_pos ((isEmpty_renderResolvConf dns).mpr hdns)]
    exact Does.pure trivial ⟨fun _ _ => rfl, fun _ => rfl, fun _ h => absurd hdns h⟩
  · rw [if_neg fun h => hdns ((isEmpty_renderResolvConf dns).mp h)]
    refine Does.bind (P := fun _ t' _ => ∀ p, t'.contents? p = t.contents? p)
      (does_createDirAll (fun _ _ => trivial) (fun _ _ h => h) fun _ h => h)
      (fun e t' _ _ h => ⟨fun p _ => h p, fun _ => h resolvConf, fun hok => nomatch hok⟩) fun _ t₁ _ _ h₁ => ?_
    refine Does.bind (P := fun r t' _ => (∀ p, p ≠ resolvConf → t'.contents? p = t.contents? p) ∧
        (r = .ok () → t'.contents? resolvConf = some []))
      (does_openTruncated trivial (fun e => ⟨fun p _ => h₁ p, fun hok => nomatch hok⟩) fun t' h => ⟨trivial, ?_, fun _ => ?_⟩)
      (fun e t' _ _ h => ⟨h.1, fun hnil => absurd hnil hdns, fun hok => nomatch hok⟩) fun _ t₂ _ _ h₂ => ?_
    · intro p hp
      rw [h p, if_neg (by rwa [hmap, hmap]), h₁ p]
    · rw [h, if_pos rfl]
    · refine does_writeAll trivial (fun e t' h => ⟨trivial, ?_, fun hnil => absurd hnil hdns, fun hok => nomatch hok⟩)
        fun t' contents hcontents h => ⟨trivial, ?_, fun hnil => absurd hnil hdns, fun _ _ => ?_⟩
      · intro p hp
        rw [h p (by rwa [hmap, hmap]), h₂.1 p hp]
      · intro p hp
        rw [h p, if_neg (by rwa [hmap, hmap]), h₂.1 p hp]
      · rw [h₂.2 rfl] at hcontents
        cases hcontents
        rw [h, if_pos rfl, List.nil_append]

/-- However the calls go, no other file is touched; and once the file is written, the
resolver asks the first three servers of the lease, each of them once and in their order. -/
theorem writeResolvConf_resolves (dns : List Ipv4Addr) (may : Unnoticed) (plan : Nat → Option Fault) (t : Files) :
    let ending := (writeResolvConf dns).run.run (logged event (disk may)) plan (t, [])
    (∀ p, p ≠ resolvConf → ending.final.1.contents? p = t.contents? p) ∧
      (dns = [] → ending.final.1.contents? resolvConf = t.contents? resolvConf) ∧
      (ending.value = .ok () → dns ≠ [] → ∃ text, ending.final.1.contents? resolvConf = some (utf8 text) ∧
        nameservers text = dns.eraseDups.take 3) := by
  obtain ⟨-, hothers, hnone, hwritten⟩ := (does_writeResolvConf dns may t).run plan
  exact ⟨hothers, hnone, fun hok hne => ⟨_, hwritten hok hne, nameservers_renderResolvConf dns⟩⟩

end Beskar7Inspector.ResolvConf
