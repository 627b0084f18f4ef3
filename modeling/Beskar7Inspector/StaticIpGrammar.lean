import Beskar7Inspector.Net
import Beskar7Inspector.Lib.Decimal
import Mathlib.Data.List.TakeWhile

namespace Beskar7Inspector.StaticIpGrammar

open Lib.Text Lib.Decimal Net

/-- Four decimal octets between dots. -/
def display (addr : Ipv4Addr) : String :=
  String.intercalate "." [Nat.repr addr.a.toNat, Nat.repr addr.b.toNat, Nat.repr addr.c.toNat, Nat.repr addr.d.toNat]

theorem parseOctet_eq_some_iff {s : String} {n : UInt8} : parseOctet s = some n ↔ s = Nat.repr n.toNat := by
  rw [parseOctet]
  constructor
  · intro h
    split at h
    · rename_i hok
      obtain ⟨hne, -, hall, hzero, hlt⟩ := hok
      cases h
      have hdigits := toDigits_digitsValue hne (List.all_eq_true.mp hall) hzero
      rw [UInt8.toNat_ofNat', Nat.mod_eq_of_lt hlt]
      apply String.toList_inj.mp
      rw [Nat.toList_repr, hdigits]
    · cases h
  · intro h
    have hlt := n.toNat_lt
    subst h
    have hlen : (Nat.toDigits 10 n.toNat).length ≤ 3 := (Nat.length_toDigits_le_iff (by omega) (by omega)).mpr (by omega)
    have hall : (Nat.toDigits 10 n.toNat).all isAsciiDigit = true :=
      List.all_eq_true.mpr (fun c hc => isAsciiDigit_of_mem_toDigits hc)
    have hzero : (Nat.toDigits 10 n.toNat).head? = some '0' → (Nat.toDigits 10 n.toNat).length = 1 := by
      intro h
      by_cases hn : n.toNat = 0
      · rw [hn]
        rfl
      · exact absurd h (head?_toDigits (by omega))
    simp only [Nat.toList_repr, digitsValue_toDigits]
    rw [if_pos ⟨Nat.toDigits_ne_nil, hlen, hall, hzero, hlt⟩, UInt8.ofNat_toNat]

theorem ipv4Addr_parse_eq_some_iff {s : String} {addr : Ipv4Addr} :
    Ipv4Addr.parse s = some addr ↔ s = display addr := by
  have hdot : isAsciiDigit '.' = false := by decide
  rw [Ipv4Addr.parse]
  constructor
  · intro h
    split at h
    · rename_i a b c d hsplit
      simp only [Option.bind_eq_bind, Option.bind_eq_some_iff, parseOctet_eq_some_iff, Option.some.injEq] at h
      obtain ⟨a', rfl, b', rfl, c', rfl, d', rfl, rfl⟩ := h
      exact ((splitChar_eq_iff (by simp)).mp hsplit).1
    · cases h
  · intro h
    have hsplit : splitChar '.' s =
        [Nat.repr addr.a.toNat, Nat.repr addr.b.toNat, Nat.repr addr.c.toNat, Nat.repr addr.d.toNat] := by
      apply (splitChar_eq_iff (by simp)).mpr
      refine ⟨h, ?_⟩
      simp only [List.forall_mem_cons]
      exact ⟨not_mem_repr hdot _, not_mem_repr hdot _, not_mem_repr hdot _, not_mem_repr hdot _, by simp⟩
    rw [hsplit]
    simp only [parseOctet_eq_some_iff.mpr rfl, Option.bind_eq_bind, Option.bind_some]

/-- The ones are all at the top. -/
def Contiguous (mask : Ipv4Addr) (n : Nat) : Prop :=
  mask.bits = List.replicate n true ++ List.replicate (32 - n) false

theorem takeWhile_length_eq_count_iff {l : List Bool} : (l.takeWhile id).length = l.count true ↔
    ∃ n ≤ l.length, l = List.replicate n true ++ List.replicate (l.length - n) false := by
  have htop : l.takeWhile id = List.replicate (l.takeWhile id).length true := by
    rw [List.eq_replicate_iff]
    refine ⟨rfl, fun b hb => ?_⟩
    exact List.mem_takeWhile_imp hb
  have hjoin := List.takeWhile_append_dropWhile (p := id) (l := l)
  constructor
  · intro h
    have hcount : (l.dropWhile id).count true = 0 := by
      have hsum : l.count true = (l.takeWhile id).count true + (l.dropWhile id).count true := by
        rw [← List.count_append, hjoin]
      rw [htop, List.count_replicate_self] at hsum
      omega
    have hrest : l.dropWhile id = List.replicate (l.dropWhile id).length false := by
      rw [List.eq_replicate_iff]
      refine ⟨rfl, fun b hb => ?_⟩
      cases b with
      | false => rfl
      | true => exact absurd hb (List.count_eq_zero.mp hcount)
    have hlen : (l.takeWhile id).length + (l.dropWhile id).length = l.length := by
      rw [← List.length_append, hjoin]
    refine ⟨(l.takeWhile id).length, by omega, ?_⟩
    rw [show l.length - (l.takeWhile id).length = (l.dropWhile id).length by omega, ← htop, ← hrest, hjoin]
  · intro h
    obtain ⟨n, hn, h⟩ := h
    generalize l.length - n = m at h
    subst h
    rw [List.count_append, List.count_replicate_self]
    rw [List.takeWhile_append_of_pos (by simp)]
    cases m <;> simp [List.count_replicate, List.replicate_succ]

theorem bits_length (addr : Ipv4Addr) : addr.bits.length = 32 := by
  simp [Ipv4Addr.bits]

theorem contiguous_iff {mask : Ipv4Addr} :
    (mask.bits.takeWhile id).length = mask.bits.count true ↔ ∃ n ≤ 32, Contiguous mask n := by
  rw [takeWhile_length_eq_count_iff, bits_length]
  rfl

theorem maskToPrefixLen_of_contiguous {mask : Ipv4Addr} {n : Nat} (hn : n ≤ 32) (h : Contiguous mask n) :
    maskToPrefixLen mask = UInt8.ofNat n := by
  have hcount : mask.bits.count true = n := by
    rw [h, List.count_append, List.count_replicate_self]
    simp [List.count_replicate]
  rw [maskToPrefixLen]
  simp only [contiguous_iff.mpr ⟨n, hn, h⟩, hcount, if_true]

theorem display_ne_empty (addr : Ipv4Addr) : display addr ≠ "" := by
  intro h
  have hnil := congrArg String.toList h
  simp [display] at hnil

theorem dot_mem_display (addr : Ipv4Addr) : '.' ∈ (display addr).toList := by
  rw [display, String.toList_intercalate]
  simp [List.intercalate_cons_cons]

theorem colon_not_mem_display (addr : Ipv4Addr) : ':' ∉ (display addr).toList := by
  have hcolon : isAsciiDigit ':' = false := by decide
  intro h
  rw [display, String.toList_intercalate] at h
  simp only [List.map_cons, List.map_nil, List.intercalate_cons_cons, List.intercalate_singleton,
    List.mem_append, not_mem_repr hcolon, false_or, or_false] at h
  simp at h

theorem display_inj {a b : Ipv4Addr} (h : display a = display b) : a = b :=
  Option.some.inj ((ipv4Addr_parse_eq_some_iff.mpr rfl).symm.trans (ipv4Addr_parse_eq_some_iff.mpr h))

theorem parseMask_dotted (mask : Ipv4Addr) : parseMask (display mask) = some (maskToPrefixLen mask) := by
  rw [parseMask, ipv4Addr_parse_eq_some_iff.mpr rfl]

theorem parseMask_undotted {s : String} (h : ∀ mask, s ≠ display mask) {n : UInt8} :
    parseMask s = some n ↔
      n.toNat ≤ 32 ∧ (IsDecimal s n.toNat ∨ ∃ digits, s = "+" ++ digits ∧ IsDecimal digits n.toNat) := by
  have hnone : Ipv4Addr.parse s = none := by
    cases hp : Ipv4Addr.parse s with
    | none => rfl
    | some mask => exact absurd (ipv4Addr_parse_eq_some_iff.mp hp) (h mask)
  have hn := n.toNat_lt
  have hbound : n ≤ 32 ↔ n.toNat ≤ 32 := UInt8.le_iff_toNat_le
  rw [parseMask, hnone]
  simp only [Option.filter_eq_some_iff, Option.map_eq_some_iff, decide_eq_true_eq]
  constructor
  · intro hread
    obtain ⟨⟨v, hv, rfl⟩, hle⟩ := hread
    obtain ⟨hlt, htext⟩ := parseUnsigned_eq_some_iff.mp hv
    rw [UInt8.toNat_ofNat', Nat.mod_eq_of_lt hlt] at hbound ⊢
    exact ⟨hbound.mp hle, htext⟩
  · intro hread
    exact ⟨⟨n.toNat, parseUnsigned_eq_some_iff.mpr ⟨hn, hread.2⟩, UInt8.ofNat_toNat⟩, hbound.mpr hread.1⟩

/-- A contiguous dotted netmask or a decimal prefix length. -/
def MaskText (s : String) (n : UInt8) : Prop :=
  n.toNat ≤ 32 ∧ ((∃ mask, s = display mask ∧ Contiguous mask n.toNat) ∨ IsDecimal s n.toNat)

/-- The other texts that are taken for a mask: a dotted one with a gap in its
ones, and a prefix length behind a plus sign. -/
def LenientMask (s : String) : Prop :=
  (∃ mask, s = display mask ∧ ∀ n ≤ 32, ¬ Contiguous mask n) ∨
    ∃ digits n, s = "+" ++ digits ∧ n ≤ 32 ∧ IsDecimal digits n

theorem isDecimal_undotted {s : String} {n : Nat} (h : IsDecimal s n) : ∀ mask, s ≠ display mask := by
  intro mask hs
  subst hs
  exact h.not_mem (by decide) (dot_mem_display mask)

theorem plus_undotted {digits : String} {n : Nat} (h : IsDecimal digits n) : ∀ mask, "+" ++ digits ≠ display mask := by
  intro mask hs
  have hdot := dot_mem_display mask
  rw [← hs, String.toList_append, List.mem_append] at hdot
  rcases hdot with hdot | hdot
  · simp at hdot
  · exact h.not_mem (by decide) hdot

theorem MaskText.parses {s : String} {n : UInt8} (h : MaskText s n) : parseMask s = some n := by
  obtain ⟨hn, ⟨mask, rfl, hmask⟩ | hdec⟩ := h
  · rw [parseMask_dotted, maskToPrefixLen_of_contiguous hn hmask, UInt8.ofNat_toNat]
  · exact (parseMask_undotted (isDecimal_undotted hdec)).mpr ⟨hn, .inl hdec⟩

theorem LenientMask.parses {s : String} (h : LenientMask s) : ∃ n, parseMask s = some n := by
  obtain ⟨mask, rfl, hmask⟩ | ⟨digits, n, rfl, hn, hdec⟩ := h
  · exact ⟨_, parseMask_dotted mask⟩
  · refine ⟨UInt8.ofNat n, (parseMask_undotted (plus_undotted hdec)).mpr ?_⟩
    rw [UInt8.toNat_ofNat', Nat.mod_eq_of_lt (by omega)]
    exact ⟨hn, .inr ⟨digits, rfl, hdec⟩⟩

theorem maskText_or_lenientMask {s : String} {n : UInt8} (h : parseMask s = some n) :
    MaskText s n ∨ LenientMask s := by
  by_cases hdotted : ∃ mask, s = display mask
  · obtain ⟨mask, rfl⟩ := hdotted
    by_cases hmask : ∃ m ≤ 32, Contiguous mask m
    · obtain ⟨m, hm, hmask⟩ := hmask
      rw [parseMask_dotted, maskToPrefixLen_of_contiguous hm hmask, Option.some.injEq] at h
      subst h
      rw [MaskText, UInt8.toNat_ofNat', Nat.mod_eq_of_lt (by omega)]
      exact .inl ⟨hm, .inl ⟨mask, rfl, hmask⟩⟩
    · refine .inr (.inl ⟨mask, rfl, ?_⟩)
      intro m hm hcontiguous
      exact hmask ⟨m, hm, hcontiguous⟩
  · obtain ⟨hn, hdec | ⟨digits, rfl, hdec⟩⟩ := (parseMask_undotted (not_exists.mp hdotted)).mp h
    · exact .inl ⟨hn, .inr hdec⟩
    · exact .inr (.inr ⟨digits, n.toNat, rfl, hn, hdec⟩)

theorem LenientMask.not_maskText {s : String} (h : LenientMask s) (n : UInt8) : ¬ MaskText s n := by
  intro hmask
  obtain ⟨hn, ⟨mask, rfl, hcontiguous⟩ | hdec⟩ := hmask
  · obtain ⟨other, hother, hgap⟩ | ⟨digits, m, hs, -, hdigits⟩ := h
    · rw [← display_inj hother] at hgap
      exact hgap _ hn hcontiguous
    · exact plus_undotted hdigits mask hs.symm
  · obtain ⟨other, hother, -⟩ | ⟨digits, m, rfl, -, -⟩ := h
    · exact isDecimal_undotted hdec other hother
    · apply hdec.not_mem (c := '+') (by decide)
      simp

theorem colon_not_mem_mask {s : String} {n : UInt8} (h : parseMask s = some n) : ':' ∉ s.toList := by
  obtain ⟨-, ⟨mask, rfl, -⟩ | hdec⟩ | ⟨mask, rfl, -⟩ | ⟨digits, m, rfl, -, hdec⟩ := maskText_or_lenientMask h
  · exact colon_not_mem_display mask
  · exact hdec.not_mem (by decide)
  · exact colon_not_mem_display mask
  · rw [String.toList_append, List.mem_append, not_or]
    exact ⟨by simp, hdec.not_mem (by decide)⟩

def gatewayField : Option Ipv4Addr → String
  | none => ""
  | some addr => display addr

/-- What may stand behind the mask: nothing, an empty field or one address. -/
def DnsFields : List Ipv4Addr → List String → Prop
  | [], fields => fields = [] ∨ fields = [""]
  | [addr], fields => fields = [display addr]
  | _ :: _ :: _, _ => False

/-- The fields of a static network spec around its mask. -/
def Form (mask : String) (cfg : StaticIp) (value : String) : Prop :=
  ∃ server dns, ':' ∉ server.toList ∧ DnsFields cfg.dns dns ∧
    value = String.intercalate ":" ([display cfg.ip, server, gatewayField cfg.gateway, mask] ++ dns)

def readGateway (s : String) : Option (Option Ipv4Addr) :=
  if s.isEmpty then some none else (Ipv4Addr.parse s).map some

def readDns (s : String) : Option (List Ipv4Addr) :=
  if s.isEmpty then some [] else (Ipv4Addr.parse s).map fun addr => [addr]

theorem readGateway_eq_some_iff {s : String} {gateway : Option Ipv4Addr} :
    readGateway s = some gateway ↔ s = gatewayField gateway := by
  rw [readGateway]
  by_cases hs : s = ""
  · cases gateway with
    | none => simp [hs, gatewayField]
    | some addr => simp [hs, gatewayField, Ne.symm (display_ne_empty addr)]
  · have hfull : ¬ s.isEmpty = true := by simpa using hs
    rw [if_neg hfull, Option.map_eq_some_iff]
    cases gateway with
    | none => simp [hs, gatewayField]
    | some addr => simp [gatewayField, ipv4Addr_parse_eq_some_iff]

theorem readDns_eq_some_iff {s : String} {dns : List Ipv4Addr} : readDns s = some dns ↔ DnsFields dns [s] := by
  rw [readDns]
  by_cases hs : s = ""
  · match dns with
    | [] => simp [hs, DnsFields]
    | [addr] => simp [hs, DnsFields, Ne.symm (display_ne_empty addr)]
    | _ :: _ :: _ => simp [hs, DnsFields]
  · have hfull : ¬ s.isEmpty = true := by simpa using hs
    rw [if_neg hfull, Option.map_eq_some_iff]
    match dns with
    | [] => simp [hs, DnsFields]
    | [addr] => simp [DnsFields, ipv4Addr_parse_eq_some_iff]
    | _ :: _ :: _ => simp [DnsFields]

theorem colon_not_mem_gateway (gateway : Option Ipv4Addr) : ':' ∉ (gatewayField gateway).toList := by
  cases gateway with
  | none => simp [gatewayField]
  | some addr => exact colon_not_mem_display addr

theorem DnsFields.cases {dns : List Ipv4Addr} {fields : List String} (h : DnsFields dns fields) :
    (fields = [] ∧ dns = []) ∨ ∃ d, fields = [d] ∧ ':' ∉ d.toList := by
  match dns, h with
  | [], .inl hnil => exact .inl ⟨hnil, rfl⟩
  | [], .inr hempty => exact .inr ⟨"", hempty, by simp⟩
  | [addr], hone => exact .inr ⟨display addr, hone, colon_not_mem_display addr⟩

/-- The fields of a value are found where the colons are. -/
theorem split_form {ip server gateway mask : String} {dns : List String} (hip : ':' ∉ ip.toList)
    (hserver : ':' ∉ server.toList) (hgateway : ':' ∉ gateway.toList) (hmask : ':' ∉ mask.toList)
    (hdns : ∀ d ∈ dns, ':' ∉ d.toList) :
    splitChar ':' (String.intercalate ":" ([ip, server, gateway, mask] ++ dns)) =
      [ip, server, gateway, mask] ++ dns := by
  apply (splitChar_eq_iff (by simp)).mpr
  refine ⟨rfl, ?_⟩
  intro piece hpiece
  rw [List.mem_append] at hpiece
  rcases hpiece with hpiece | hpiece
  · simp only [List.mem_cons, List.not_mem_nil, or_false] at hpiece
    rcases hpiece with rfl | rfl | rfl | rfl
    · exact hip
    · exact hserver
    · exact hgateway
    · exact hmask
  · exact hdns piece hpiece

theorem Form.split {mask value : String} {cfg : StaticIp} (hmask : ':' ∉ mask.toList) (h : Form mask cfg value) :
    ∃ server dns, DnsFields cfg.dns dns ∧
      splitChar ':' value = [display cfg.ip, server, gatewayField cfg.gateway, mask] ++ dns := by
  obtain ⟨server, dns, hserver, hdns, rfl⟩ := h
  refine ⟨server, dns, hdns, split_form (colon_not_mem_display _) hserver (colon_not_mem_gateway _) hmask ?_⟩
  intro d hd
  obtain ⟨rfl, -⟩ | ⟨d', rfl, hcolon⟩ := hdns.cases
  · cases hd
  · rwa [List.mem_singleton.mp hd]

theorem parse_four {value ip server gateway mask : String} (h : splitChar ':' value = [ip, server, gateway, mask]) :
    StaticIp.parse value = (Ipv4Addr.parse ip).bind fun ip => (readGateway gateway).bind fun gateway =>
      (parseMask mask).bind fun prefixLen => some ⟨ip, gateway, prefixLen, []⟩ := by
  simp only [StaticIp.parse, h]
  by_cases hg : gateway.isEmpty = true <;> simp [readGateway, hg]

theorem parse_five {value ip server gateway mask d : String}
    (h : splitChar ':' value = [ip, server, gateway, mask, d]) :
    StaticIp.parse value = (Ipv4Addr.parse ip).bind fun ip => (readGateway gateway).bind fun gateway =>
      (parseMask mask).bind fun prefixLen => (readDns d).bind fun dns => some ⟨ip, gateway, prefixLen, dns⟩ := by
  simp only [StaticIp.parse, h]
  by_cases hg : gateway.isEmpty = true <;> by_cases hd : d.isEmpty = true <;> simp [readGateway, readDns, hg, hd]

/-- The parser's verdict by the fields, whatever the mask field may be. -/
theorem parse_eq_some_iff {value : String} {cfg : StaticIp} :
    StaticIp.parse value = some cfg ↔ ∃ mask, parseMask mask = some cfg.prefixLen ∧ Form mask cfg value := by
  constructor
  · intro h
    have hcount : (∃ ip server gateway mask, splitChar ':' value = [ip, server, gateway, mask]) ∨
        ∃ ip server gateway mask d, splitChar ':' value = [ip, server, gateway, mask, d] := by
      simp only [StaticIp.parse] at h
      split at h
      · rename_i hsplit
        exact .inl ⟨_, _, _, _, hsplit⟩
      · rename_i hsplit
        exact .inr ⟨_, _, _, _, _, hsplit⟩
      · cases h
    obtain ⟨ip, server, gateway, mask, hsplit⟩ | ⟨ip, server, gateway, mask, d, hsplit⟩ := hcount
    · rw [parse_four hsplit] at h
      simp only [Option.bind_eq_some_iff, readGateway_eq_some_iff, ipv4Addr_parse_eq_some_iff] at h
      obtain ⟨ip', rfl, gateway', rfl, n, hn, hcfg⟩ := h
      cases hcfg
      obtain ⟨hvalue, hfree⟩ := (splitChar_eq_iff (by simp)).mp hsplit
      exact ⟨mask, hn, server, [], hfree server (by simp), .inl rfl, hvalue⟩
    · rw [parse_five hsplit] at h
      simp only [Option.bind_eq_some_iff, readGateway_eq_some_iff, readDns_eq_some_iff,
        ipv4Addr_parse_eq_some_iff] at h
      obtain ⟨ip', rfl, gateway', rfl, n, hn, dns, hdns, hcfg⟩ := h
      cases hcfg
      obtain ⟨hvalue, hfree⟩ := (splitChar_eq_iff (by simp)).mp hsplit
      exact ⟨mask, hn, server, [d], hfree server (by simp), hdns, hvalue⟩
  · intro h
    obtain ⟨mask, hmask, hform⟩ := h
    obtain ⟨server, dns, hdns, hsplit⟩ := hform.split (colon_not_mem_mask hmask)
    have hip := ipv4Addr_parse_eq_some_iff.mpr (rfl : display cfg.ip = display cfg.ip)
    have hgateway := readGateway_eq_some_iff.mpr (rfl : gatewayField cfg.gateway = gatewayField cfg.gateway)
    obtain ⟨rfl, hnil⟩ | ⟨d, rfl, -⟩ := hdns.cases
    · rw [parse_four hsplit, hip, hgateway, hmask]
      simp only [Option.bind_some, ← hnil]
    · rw [parse_five hsplit, hip, hgateway, hmask, readDns_eq_some_iff.mpr hdns]
      rfl

theorem Form.mask_eq {mask mask' value : String} {cfg cfg' : StaticIp} (hmask : ':' ∉ mask.toList)
    (hmask' : ':' ∉ mask'.toList) (h : Form mask cfg value) (h' : Form mask' cfg' value) : mask = mask' := by
  obtain ⟨server, dns, -, hsplit⟩ := h.split hmask
  obtain ⟨server', dns', -, hsplit'⟩ := h'.split hmask'
  rw [hsplit'] at hsplit
  simp only [List.cons_append, List.cons.injEq] at hsplit
  exact hsplit.2.2.2.1.symm

/-- The grammar of a static network spec. -/
def WellFormed (value : String) (cfg : StaticIp) : Prop :=
  ∃ mask, MaskText mask cfg.prefixLen ∧ Form mask cfg value

/-- A spec that is well-formed but for a mask that is none. -/
def Lenient (value : String) : Prop := ∃ mask cfg, LenientMask mask ∧ Form mask cfg value

theorem parse_exact_iff (value : String) :
    (∀ cfg, StaticIp.parse value = some cfg ↔ WellFormed value cfg) ↔ ¬ Lenient value := by
  constructor
  · intro h hlenient
    obtain ⟨mask, cfg, hmask, hform⟩ := hlenient
    obtain ⟨n, hn⟩ := hmask.parses
    have hparse : StaticIp.parse value = some { cfg with prefixLen := n } :=
      parse_eq_some_iff.mpr ⟨mask, hn, hform⟩
    obtain ⟨mask', hmask', hform'⟩ := (h _).mp hparse
    have heq := hform.mask_eq (colon_not_mem_mask hn) (colon_not_mem_mask hmask'.parses) hform'
    subst heq
    exact hmask.not_maskText n hmask'
  · intro h cfg
    constructor
    · intro hparse
      obtain ⟨mask, hmask, hform⟩ := parse_eq_some_iff.mp hparse
      refine ⟨mask, (maskText_or_lenientMask hmask).resolve_right ?_, hform⟩
      intro hlenient
      exact h ⟨mask, cfg, hlenient, hform⟩
    · intro hform
      obtain ⟨mask, hmask, hform⟩ := hform
      exact parse_eq_some_iff.mpr ⟨mask, hmask.parses, hform⟩

/-- The dotted netmask of a prefix length. -/
def netmask (n : Nat) : Ipv4Addr :=
  let word := 2 ^ 32 - 2 ^ (32 - n)
  ⟨UInt8.ofNat (word >>> 24), UInt8.ofNat (word >>> 16), UInt8.ofNat (word >>> 8), UInt8.ofNat word⟩

theorem contiguous_netmask {n : Nat} (h : n ≤ 32) : Contiguous (netmask n) n := by
  have hall : ∀ n < 33, (netmask n).bits = List.replicate n true ++ List.replicate (32 - n) false := by decide
  exact hall n (by omega)

/-- A configuration as a spec with the given mask field and no server. -/
def render (mask : String) (cfg : StaticIp) : String :=
  String.intercalate ":" ([display cfg.ip, "", gatewayField cfg.gateway, mask] ++ cfg.dns.map display)

theorem parse_render {mask : String} {cfg : StaticIp} (hmask : MaskText mask cfg.prefixLen)
    (hdns : cfg.dns.length ≤ 1) : StaticIp.parse (render mask cfg) = some cfg := by
  refine parse_eq_some_iff.mpr ⟨mask, hmask.parses, "", cfg.dns.map display, by simp, ?_, rfl⟩
  match hd : cfg.dns, hdns with
  | [], _ => exact .inl rfl
  | [addr], _ => exact rfl

/-- Which specs are read as their grammar says, and that every configuration is
read back from either of its renderings. -/
theorem staticIp_parse_grammar (value : String) :
    ((∀ cfg, StaticIp.parse value = some cfg ↔ WellFormed value cfg) ↔ ¬ Lenient value) ∧
      ∀ cfg : StaticIp, cfg.prefixLen.toNat ≤ 32 → cfg.dns.length ≤ 1 →
        StaticIp.parse (render (display (netmask cfg.prefixLen.toNat)) cfg) = some cfg ∧
          StaticIp.parse (render (Nat.repr cfg.prefixLen.toNat) cfg) = some cfg := by
  refine ⟨parse_exact_iff value, ?_⟩
  intro cfg hfront hdns
  constructor
  · exact parse_render ⟨hfront, .inl ⟨_, rfl, contiguous_netmask hfront⟩⟩ hdns
  · exact parse_render ⟨hfront, .inr (isDecimal_repr _)⟩ hdns

/-- A mask with a gap is taken for the prefix length 24. -/
theorem not_parse_exact_gap : ¬ ∀ cfg, StaticIp.parse "10.0.0.5:::255.0.255.0" = some cfg ↔
    WellFormed "10.0.0.5:::255.0.255.0" cfg := by
  rw [parse_exact_iff, not_not]
  refine ⟨"255.0.255.0", ⟨⟨10, 0, 0, 5⟩, none, 24, []⟩, .inl ⟨⟨255, 0, 255, 0⟩, rfl, ?_⟩, "", [], by simp, .inl rfl, rfl⟩
  have hall : ∀ n < 33, (⟨255, 0, 255, 0⟩ : Ipv4Addr).bits ≠ List.replicate n true ++ List.replicate (32 - n) false := by
    decide
  intro n hn
  exact hall n (by omega)

end Beskar7Inspector.StaticIpGrammar
