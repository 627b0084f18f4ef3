import Mathlib.Logic.Basic

namespace Beskar7Inspector.Lib.Utf16

def isHighSurrogate (u : UInt16) : Bool := 0xD800 ≤ u && u < 0xDC00

def isLowSurrogate (u : UInt16) : Bool := 0xDC00 ≤ u && u < 0xE000

def replacement : Char := Char.ofNat 0xFFFD

def encodeChar (c : Char) : List UInt16 :=
  if c.toNat < 0x10000 then [UInt16.ofNat c.toNat]
  else [UInt16.ofNat (0xD800 + (c.toNat - 0x10000) / 0x400), UInt16.ofNat (0xDC00 + (c.toNat - 0x10000) % 0x400)]

def encode (cs : List Char) : List UInt16 := cs.flatMap encodeChar

/-- The character of a surrogate pair. -/
def pairChar (hi lo : UInt16) : Char :=
  Char.ofNat (0x10000 + (hi.toNat - 0xD800) * 0x400 + (lo.toNat - 0xDC00))

/-- Decoding that puts the replacement character for each unpaired surrogate. -/
def decodeLossy : List UInt16 → List Char
  | [] => []
  | [u] => [if isHighSurrogate u || isLowSurrogate u then replacement else Char.ofNat u.toNat]
  | u :: v :: us =>
      if isHighSurrogate u && isLowSurrogate v then pairChar u v :: decodeLossy us
      else (if isHighSurrogate u || isLowSurrogate u then replacement else Char.ofNat u.toNat) ::
        decodeLossy (v :: us)

theorem decodeLossy_unit {u : UInt16} (hu : isHighSurrogate u = false) (hu' : isLowSurrogate u = false)
    (us : List UInt16) : decodeLossy (u :: us) = Char.ofNat u.toNat :: decodeLossy us := by
  cases us with
  | nil => simp [decodeLossy, hu, hu']
  | cons v us => simp [decodeLossy, hu, hu']

theorem decodeLossy_pair {hi lo : UInt16} (hhi : isHighSurrogate hi = true) (hlo : isLowSurrogate lo = true)
    (us : List UInt16) : decodeLossy (hi :: lo :: us) = pairChar hi lo :: decodeLossy us := by
  simp [decodeLossy, hhi, hlo]

theorem decodeLossy_encodeChar (c : Char) (us : List UInt16) :
    decodeLossy (encodeChar c ++ us) = c :: decodeLossy us := by
  have hvalid : c.toNat < 0xD800 ∨ 0xDFFF < c.toNat ∧ c.toNat < 0x110000 := c.valid
  have hof : Char.ofNat c.toNat = c := Char.ofNat_toNat c
  rw [encodeChar]
  split
  · rename_i hlt
    have hn : (UInt16.ofNat c.toNat).toNat = c.toNat :=
      UInt16.toNat_ofNat_of_lt (by simp only [UInt16.size]; omega)
    rw [List.singleton_append, decodeLossy_unit, hn, hof]
    · simp only [isHighSurrogate, UInt16.le_iff_toNat_le, UInt16.lt_iff_toNat_lt, hn]
      simp
      omega
    · simp only [isLowSurrogate, UInt16.le_iff_toNat_le, UInt16.lt_iff_toNat_lt, hn]
      simp
      omega
  · rename_i hge
    have hhi : (UInt16.ofNat (0xD800 + (c.toNat - 0x10000) / 0x400)).toNat = 0xD800 + (c.toNat - 0x10000) / 0x400 :=
      UInt16.toNat_ofNat_of_lt (by simp only [UInt16.size]; omega)
    have hlo : (UInt16.ofNat (0xDC00 + (c.toNat - 0x10000) % 0x400)).toNat = 0xDC00 + (c.toNat - 0x10000) % 0x400 :=
      UInt16.toNat_ofNat_of_lt (by simp only [UInt16.size]; omega)
    rw [List.cons_append, List.singleton_append, decodeLossy_pair, pairChar, hhi, hlo]
    · have hpair : 0x10000 + (0xD800 + (c.toNat - 0x10000) / 0x400 - 0xD800) * 0x400 +
          (0xDC00 + (c.toNat - 0x10000) % 0x400 - 0xDC00) = c.toNat := by
        omega
      rw [hpair, hof]
    · simp only [isHighSurrogate, UInt16.le_iff_toNat_le, UInt16.lt_iff_toNat_lt, hhi]
      simp
      omega
    · simp only [isLowSurrogate, UInt16.le_iff_toNat_le, UInt16.lt_iff_toNat_lt, hlo]
      simp
      omega

theorem decodeLossy_encode (cs : List Char) : decodeLossy (encode cs) = cs := by
  induction cs with
  | nil => rfl
  | cons c cs ih =>
      change decodeLossy (encodeChar c ++ encode cs) = c :: cs
      rw [decodeLossy_encodeChar, ih]

/-- Only the character NUL has a zero unit in its encoding. -/
theorem ne_zero_of_mem_encode {cs : List Char} (h : Char.ofNat 0 ∉ cs) {u : UInt16} (hu : u ∈ encode cs) : u ≠ 0 := by
  obtain ⟨c, hc, hu⟩ := List.mem_flatMap.mp hu
  have hc0 : c.toNat ≠ 0 := by
    intro h0
    have hof := Char.ofNat_toNat c
    rw [h0] at hof
    exact h (hof ▸ hc)
  have hvalid : c.toNat < 0xD800 ∨ 0xDFFF < c.toNat ∧ c.toNat < 0x110000 := c.valid
  have hne : ∀ n : Nat, n < UInt16.size → n ≠ 0 → UInt16.ofNat n ≠ 0 := by
    intro n hlt hn h0
    exact hn ((UInt16.toNat_ofNat_of_lt hlt).symm.trans (congrArg UInt16.toNat h0))
  rw [encodeChar] at hu
  split at hu
  · rw [List.mem_singleton.mp hu]
    exact hne _ (by simp only [UInt16.size]; omega) hc0
  · simp only [List.mem_cons, List.not_mem_nil, or_false] at hu
    rcases hu with rfl | rfl <;> exact hne _ (by simp only [UInt16.size]; omega) (by omega)

end Beskar7Inspector.Lib.Utf16
