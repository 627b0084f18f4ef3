import Beskar7Inspector.Image

namespace Beskar7Inspector.ImageDigest

open Lib.Text Image

theorem toNat_packNibbles {hi lo : UInt8} (hhi : hi.toNat < 16) (hlo : lo.toNat < 16) :
    (hi <<< 4 ||| lo).toNat = 16 * hi.toNat + lo.toNat := by
  have hshift : (hi <<< 4).toNat = hi.toNat <<< 4 := by
    simp [Nat.shiftLeft_eq]
    omega
  rw [UInt8.toNat_or, hshift, ← Nat.shiftLeft_add_eq_or_of_lt hlo, Nat.shiftLeft_eq, Nat.mul_comm]

theorem toNat_highNibble (b : UInt8) : (b >>> 4).toNat = b.toNat / 16 := by
  simp [Nat.shiftRight_eq_div_pow]

theorem toNat_lowNibble (b : UInt8) : (b &&& 15).toNat = b.toNat % 16 :=
  (UInt8.toNat_and b 15).trans (Nat.and_two_pow_sub_one_eq_mod b.toNat 4)

theorem toNat_hexDigit {n : UInt8} (h : n.toNat < 16) :
    (hexDigit n).toNat = if n.toNat < 10 then 48 + n.toNat else 87 + n.toNat := by
  have hlt : (n < 10) = (n.toNat < 10) := propext UInt8.lt_iff_toNat_lt
  have hcode : ∀ m < 128, (Char.ofNat m).toNat = m := by
    intro m hm
    rw [Char.ofNat, dif_pos (.inl (by omega))]
    rfl
  rw [hexDigit]
  simp only [hlt]
  split
  · exact hcode _ (by omega)
  · exact hcode _ (by omega)

/-- The byte a digit is written as. -/
def hexCode (n : UInt8) : UInt8 := UInt8.ofNat (hexDigit n).toNat

theorem toNat_hexCode {n : UInt8} (h : n.toNat < 16) :
    (hexCode n).toNat = if n.toNat < 10 then 48 + n.toNat else 87 + n.toNat := by
  rw [hexCode, UInt8.toNat_ofNat', toNat_hexDigit h]
  apply Nat.mod_eq_of_lt
  split <;> omega

theorem hexNibble_eq_some_iff {b n : UInt8} : hexNibble b = some n ↔ n.toNat < 16 ∧ b = hexCode n := by
  have hb := b.toNat_lt
  rw [hexNibble]
  simp only [UInt8.le_iff_toNat_le]
  change (if 48 ≤ b.toNat ∧ b.toNat ≤ 57 then some (b - 48)
    else if 97 ≤ b.toNat ∧ b.toNat ≤ 102 then some (b - 97 + 10) else none) = some n ↔ _
  constructor
  · intro h
    split at h
    · rename_i hrange
      cases h
      have hn : (b - 48).toNat = b.toNat - 48 :=
        UInt8.toNat_sub_of_le b 48 (UInt8.le_iff_toNat_le.mpr hrange.1)
      have hlt : (b - 48).toNat < 16 := by omega
      refine ⟨hlt, UInt8.toNat_inj.mp ?_⟩
      rw [toNat_hexCode hlt, hn, if_pos (by omega)]
      omega
    · split at h
      · rename_i hrange
        cases h
        have hsub : (b - 97).toNat = b.toNat - 97 :=
          UInt8.toNat_sub_of_le b 97 (UInt8.le_iff_toNat_le.mpr hrange.1)
        have hn : (b - 97 + 10).toNat = b.toNat - 87 := by
          rw [UInt8.toNat_add, hsub]
          change (b.toNat - 97 + 10) % 256 = _
          omega
        have hlt : (b - 97 + 10).toNat < 16 := by omega
        refine ⟨hlt, UInt8.toNat_inj.mp ?_⟩
        rw [toNat_hexCode hlt, hn, if_neg (by omega)]
        omega
      · cases h
  · intro h
    obtain ⟨hlt, rfl⟩ := h
    have hcode := toNat_hexCode hlt
    by_cases hten : n.toNat < 10
    · rw [if_pos hten] at hcode
      rw [if_pos (by omega)]
      apply congrArg some
      apply UInt8.toNat_inj.mp
      rw [UInt8.toNat_sub_of_le _ _ (UInt8.le_iff_toNat_le.mpr (by rw [hcode]; exact Nat.le_add_right 48 _)), hcode]
      change 48 + n.toNat - 48 = n.toNat
      omega
    · rw [if_neg hten] at hcode
      rw [if_neg (by omega), if_pos (by omega)]
      apply congrArg some
      apply UInt8.toNat_inj.mp
      rw [UInt8.toNat_add, UInt8.toNat_sub_of_le _ _ (UInt8.le_iff_toNat_le.mpr (by
        rw [hcode]
        change 97 ≤ 87 + n.toNat
        omega)), hcode]
      change (87 + n.toNat - 97 + 10) % 256 = n.toNat
      omega

def hexCodes (b : UInt8) : List UInt8 := [hexCode (b >>> 4), hexCode (b &&& 15)]

theorem highNibble_pack {hi lo : UInt8} (hhi : hi.toNat < 16) (hlo : lo.toNat < 16) :
    (hi <<< 4 ||| lo) >>> 4 = hi := by
  apply UInt8.toNat_inj.mp
  rw [toNat_highNibble, toNat_packNibbles hhi hlo]
  omega

theorem lowNibble_pack {hi lo : UInt8} (hhi : hi.toNat < 16) (hlo : lo.toNat < 16) :
    (hi <<< 4 ||| lo) &&& 15 = lo := by
  apply UInt8.toNat_inj.mp
  rw [toNat_lowNibble, toNat_packNibbles hhi hlo]
  omega

theorem highNibble_lt (b : UInt8) : (b >>> 4).toNat < 16 := by
  have := b.toNat_lt
  rw [toNat_highNibble]
  omega

theorem lowNibble_lt (b : UInt8) : (b &&& 15).toNat < 16 := by
  rw [toNat_lowNibble]
  omega

theorem pack_nibbles (b : UInt8) : (b >>> 4) <<< 4 ||| b &&& 15 = b := by
  apply UInt8.toNat_inj.mp
  rw [toNat_packNibbles (highNibble_lt b) (lowNibble_lt b), toNat_highNibble, toNat_lowNibble]
  omega

theorem hexPairs_flatMap (bytes : List UInt8) : hexPairs (bytes.flatMap hexCodes) = some bytes := by
  induction bytes with
  | nil => rfl
  | cons b bytes ih =>
      have hhi := hexNibble_eq_some_iff.mpr ⟨highNibble_lt b, rfl⟩
      have hlo := hexNibble_eq_some_iff.mpr ⟨lowNibble_lt b, rfl⟩
      rw [List.flatMap_cons, hexCodes, List.cons_append, List.cons_append, List.nil_append, hexPairs]
      simp only [hhi, hlo, ih, Option.bind_eq_bind, Option.bind_some, pack_nibbles]

/-- What two digits at a time give is written with the digits read, an odd one
at the end apart. -/
theorem flatMap_of_hexPairs : ∀ (bs bytes : List UInt8), bs.length % 2 = 0 →
    hexPairs bs = some bytes → bs = bytes.flatMap hexCodes
  | [], bytes, _, h => by
      cases h
      rfl
  | [b], bytes, hlen, _ => by
      simp at hlen
  | hi :: lo :: rest, bytes, hlen, h => by
      simp only [hexPairs, Option.bind_eq_bind, Option.bind_eq_some_iff, Option.some.injEq] at h
      obtain ⟨x, hx, y, hy, tail, htail, rfl⟩ := h
      obtain ⟨hxlt, rfl⟩ := hexNibble_eq_some_iff.mp hx
      obtain ⟨hylt, rfl⟩ := hexNibble_eq_some_iff.mp hy
      have hrest : rest.length % 2 = 0 := by
        simp only [List.length_cons] at hlen
        omega
      rw [List.flatMap_cons, hexCodes, highNibble_pack hxlt hylt, lowNibble_pack hxlt hylt,
        ← flatMap_of_hexPairs rest tail hrest htail]
      rfl

theorem utf8_hexText (bytes : List UInt8) :
    utf8 (String.ofList (bytes.flatMap hexByte)) = bytes.flatMap hexCodes := by
  have hdigit : ∀ n : UInt8, n.toNat < 16 → (hexDigit n).toNat < 128 := by
    intro n hn
    rw [toNat_hexDigit hn]
    split <;> omega
  have hascii : ∀ c ∈ bytes.flatMap hexByte, c.toNat < 128 := by
    intro c hc
    obtain ⟨b, _, hc⟩ := List.mem_flatMap.mp hc
    rw [hexByte, List.mem_pair] at hc
    rcases hc with rfl | rfl
    · exact hdigit _ (highNibble_lt b)
    · exact hdigit _ (lowNibble_lt b)
  rw [utf8_ofList_ascii hascii, List.map_flatMap]
  rfl

theorem hexCodes_length (bytes : List UInt8) : (bytes.flatMap hexCodes).length = 2 * bytes.length := by
  induction bytes with
  | nil => rfl
  | cons b bytes ih =>
      rw [List.flatMap_cons, List.length_append, ih, List.length_cons]
      simp only [hexCodes, List.length_cons, List.length_nil]
      omega

theorem parse_eq_ok_iff {s : String} {d : Sha256Digest} : Sha256Digest.parse s = .ok d ↔ s = d.display := by
  rw [Sha256Digest.parse]
  constructor
  · intro h
    split at h
    · cases h
    · rename_i hex hstrip
      split at h
      · cases h
      · rename_i hlen
        split at h
        · cases h
        · rename_i bytes hpairs
          cases h
          have htext : utf8 hex = utf8 (String.ofList (bytes.flatMap hexByte)) := by
            rw [utf8_hexText]
            exact flatMap_of_hexPairs _ _ (by omega) hpairs
          rw [stripPrefix_eq_some_iff.mp hstrip]
          exact congrArg ("sha256:" ++ ·) (utf8_inj.mp htext)
  · intro h
    have hstrip : stripPrefix "sha256:" s = some (String.ofList (d.bytes.flatMap hexByte)) :=
      stripPrefix_eq_some_iff.mpr h
    have hlen : (utf8 (String.ofList (d.bytes.flatMap hexByte))).length = 64 := by
      rw [utf8_hexText, hexCodes_length, d.size]
    have hpairs : hexPairs (utf8 (String.ofList (d.bytes.flatMap hexByte))) = some d.bytes := by
      rw [utf8_hexText, hexPairs_flatMap]
    split
    · rename_i hnone
      rw [hstrip] at hnone
      cases hnone
    · rename_i hex hsome
      rw [hstrip] at hsome
      cases hsome
      rw [dif_neg (not_not.mpr hlen)]
      split
      · rename_i hnone
        rw [hpairs] at hnone
        cases hnone
      · rename_i bytes hsome
        rw [hpairs] at hsome
        cases hsome
        rfl

/-- A character of `[0-9a-f]`. -/
def isHexDigit (c : Char) : Bool := ('0' ≤ c && c ≤ '9') || ('a' ≤ c && c ≤ 'f')

theorem isHexDigit_iff {c : Char} :
    isHexDigit c = true ↔ (48 ≤ c.toNat ∧ c.toNat ≤ 57) ∨ (97 ≤ c.toNat ∧ c.toNat ≤ 102) := by
  rw [isHexDigit, Bool.or_eq_true, Bool.and_eq_true, Bool.and_eq_true]
  simp only [decide_eq_true_eq]
  rfl

theorem isHexDigit_iff_hexDigit {c : Char} :
    isHexDigit c = true ↔ ∃ n : UInt8, n.toNat < 16 ∧ c = hexDigit n := by
  rw [isHexDigit_iff]
  constructor
  · intro h
    have hn : ∀ k < 16, (if k < 10 then 48 + k else 87 + k) = c.toNat →
        ∃ n : UInt8, n.toNat < 16 ∧ c = hexDigit n := by
      intro k hk hc
      have hmod : (UInt8.ofNat k).toNat = k := UInt8.toNat_ofNat_of_lt (by simp [UInt8.size]; omega)
      refine ⟨UInt8.ofNat k, by omega, ?_⟩
      rw [← Char.ofNat_toNat c, ← Char.ofNat_toNat (hexDigit _), toNat_hexDigit (by omega), hmod, hc]
    rcases h with h | h
    · apply hn (c.toNat - 48) (by omega)
      rw [if_pos (by omega)]
      omega
    · apply hn (c.toNat - 87) (by omega)
      rw [if_neg (by omega)]
      omega
  · intro h
    obtain ⟨n, hn, rfl⟩ := h
    rw [toNat_hexDigit hn]
    split <;> omega

theorem hexText_isHexDigit (bytes : List UInt8) : ∀ c ∈ bytes.flatMap hexByte, isHexDigit c = true := by
  intro c hc
  obtain ⟨b, _, hc⟩ := List.mem_flatMap.mp hc
  rw [hexByte, List.mem_pair] at hc
  rcases hc with rfl | rfl
  · exact isHexDigit_iff_hexDigit.mpr ⟨_, highNibble_lt b, rfl⟩
  · exact isHexDigit_iff_hexDigit.mpr ⟨_, lowNibble_lt b, rfl⟩

theorem hexText_length (bytes : List UInt8) : (bytes.flatMap hexByte).length = 2 * bytes.length := by
  induction bytes with
  | nil => rfl
  | cons b bytes ih =>
      rw [List.flatMap_cons, List.length_append, ih, List.length_cons]
      simp only [hexByte, List.length_cons, List.length_nil]
      omega

/-- Hex digits in pairs write some bytes. -/
theorem exists_hexText : ∀ digits : List Char, digits.length % 2 = 0 → (∀ c ∈ digits, isHexDigit c = true) →
    ∃ bytes : List UInt8, digits = bytes.flatMap hexByte
  | [], _, _ => ⟨[], rfl⟩
  | [c], hlen, _ => by
      simp at hlen
  | first :: second :: rest, hlen, hdigits => by
      rw [List.forall_mem_cons, List.forall_mem_cons] at hdigits
      obtain ⟨hfirst, hsecond, hrest⟩ := hdigits
      obtain ⟨hi, hhi, rfl⟩ := isHexDigit_iff_hexDigit.mp hfirst
      obtain ⟨lo, hlo, rfl⟩ := isHexDigit_iff_hexDigit.mp hsecond
      have heven : rest.length % 2 = 0 := by
        simp only [List.length_cons] at hlen
        omega
      obtain ⟨bytes, hbytes⟩ := exists_hexText rest heven hrest
      refine ⟨(hi <<< 4 ||| lo) :: bytes, ?_⟩
      rw [List.flatMap_cons, hexByte, highNibble_pack hhi hlo, lowNibble_pack hhi hlo, ← hbytes]
      rfl

theorem eq_display_iff {s : String} :
    (∃ d : Sha256Digest, s = d.display) ↔
      ∃ digits : List Char, digits.length = 64 ∧ (∀ c ∈ digits, isHexDigit c = true) ∧
        s = "sha256:" ++ String.ofList digits := by
  constructor
  · intro h
    obtain ⟨d, rfl⟩ := h
    refine ⟨d.bytes.flatMap hexByte, ?_, hexText_isHexDigit d.bytes, rfl⟩
    rw [hexText_length, d.size]
  · intro h
    obtain ⟨digits, hlen, hdigits, rfl⟩ := h
    obtain ⟨bytes, rfl⟩ := exists_hexText digits (by omega) hdigits
    rw [hexText_length] at hlen
    exact ⟨⟨bytes, by omega⟩, rfl⟩

/-- A digest text is accepted for one digest only, and each digest by one text
only: its display form. -/
theorem sha256Digest_parse_spec (s : String) :
    (∀ d, Sha256Digest.parse s = .ok d ↔ s = d.display) ∧
      ((∃ d, Sha256Digest.parse s = .ok d) ↔
        ∃ digits : List Char, digits.length = 64 ∧ (∀ c ∈ digits, isHexDigit c = true) ∧
          s = "sha256:" ++ String.ofList digits) ∧
      (∀ d, Sha256Digest.parse s = .ok d → d.display = s) ∧
      (∀ d, Sha256Digest.parse d.display = .ok d) ∧
      ∀ s' d, Sha256Digest.parse s = .ok d → Sha256Digest.parse s' = .ok d → s = s' := by
  refine ⟨fun d => parse_eq_ok_iff, ?_, ?_, ?_, ?_⟩
  · simp only [parse_eq_ok_iff]
    exact eq_display_iff
  · intro d h
    exact (parse_eq_ok_iff.mp h).symm
  · intro d
    exact parse_eq_ok_iff.mpr rfl
  · intro s' d h h'
    rw [parse_eq_ok_iff.mp h, parse_eq_ok_iff.mp h']

end Beskar7Inspector.ImageDigest
