import Beskar7Inspector.Lib.Text

namespace Beskar7Inspector.Lib.Decimal

open Lib.Text

theorem digitsValue_eq (cs : List Char) : digitsValue cs = Nat.ofDigitChars 10 cs 0 := by
  have hstep : (fun n c => n * 10 + (c.toNat - '0'.toNat)) = fun n (c : Char) => 10 * n + (c.toNat - '0'.toNat) := by
    funext n c
    rw [Nat.mul_comm]
  rw [digitsValue, hstep]
  rfl

theorem digitsValue_toDigits (n : Nat) : digitsValue (Nat.toDigits 10 n) = n := by
  rw [digitsValue_eq, Nat.ofDigitChars_ten_toDigits]

theorem isAsciiDigit_of_mem_toDigits {n : Nat} {c : Char} (h : c ∈ Nat.toDigits 10 n) : isAsciiDigit c = true :=
  Nat.isDigit_of_mem_toDigits (by omega) (by omega) h

theorem not_mem_repr {c : Char} (h : isAsciiDigit c = false) (n : Nat) : c ∉ (Nat.repr n).toList := by
  intro hc
  rw [Nat.toList_repr] at hc
  rw [isAsciiDigit_of_mem_toDigits hc] at h
  cases h

theorem isAsciiDigit_iff {c : Char} : isAsciiDigit c = true ↔ 48 ≤ c.toNat ∧ c.toNat ≤ 57 := by
  rw [isAsciiDigit, Bool.and_eq_true, decide_eq_true_eq, decide_eq_true_eq]
  rfl

theorem digitChar_code {c : Char} (hlow : 48 ≤ c.toNat) (hhigh : c.toNat ≤ 57) :
    Nat.digitChar (c.toNat - 48) = c := by
  apply Char.toNat_inj.mp
  rw [Nat.toNat_digitChar_of_lt_ten (by omega)]
  omega

/-- Digits after the first one only lengthen the rendering. -/
theorem toDigits_ofDigitChars {acc : Nat} (hacc : 0 < acc) {cs : List Char}
    (hdigits : ∀ c ∈ cs, isAsciiDigit c = true) :
    Nat.toDigits 10 (Nat.ofDigitChars 10 cs acc) = Nat.toDigits 10 acc ++ cs := by
  induction cs generalizing acc with
  | nil => simp
  | cons c cs ih =>
      rw [List.forall_mem_cons] at hdigits
      obtain ⟨hlow, hhigh⟩ := isAsciiDigit_iff.mp hdigits.1
      have hdigit : Nat.toDigits 10 (c.toNat - 48) = [c] := by
        rw [Nat.toDigits_of_lt_base (by omega), digitChar_code hlow hhigh]
      have hjoin := Nat.toDigits_append_toDigits (b := 10) (n := acc) (d := c.toNat - 48) (by omega) hacc (by omega)
      rw [Nat.ofDigitChars_cons, ih (by omega) hdigits.2]
      change Nat.toDigits 10 (10 * acc + (c.toNat - 48)) ++ cs = _
      rw [← hjoin, hdigit, List.append_assoc]
      rfl

/-- Digits without a leading zero are the rendering of their value. -/
theorem toDigits_digitsValue {cs : List Char} (hne : cs ≠ []) (hdigits : ∀ c ∈ cs, isAsciiDigit c = true)
    (hzero : cs.head? = some '0' → cs.length = 1) : Nat.toDigits 10 (digitsValue cs) = cs := by
  cases cs with
  | nil => exact absurd rfl hne
  | cons c cs =>
      rw [List.forall_mem_cons] at hdigits
      obtain ⟨hlow, hhigh⟩ := isAsciiDigit_iff.mp hdigits.1
      by_cases h0 : c = '0'
      · subst h0
        have hnil : cs = [] := by simpa using hzero rfl
        subst hnil
        rfl
      · have hpos : 0 < c.toNat - 48 := by
          have : c.toNat ≠ 48 := by
            intro h48
            exact h0 (Char.toNat_inj.mp h48)
          omega
        rw [digitsValue_eq, Nat.ofDigitChars_cons]
        change Nat.toDigits 10 (Nat.ofDigitChars 10 cs (10 * 0 + (c.toNat - 48))) = _
        rw [Nat.mul_zero, Nat.zero_add, toDigits_ofDigitChars hpos hdigits.2,
          Nat.toDigits_of_lt_base (by omega), digitChar_code hlow hhigh]
        rfl

theorem head?_toDigits {n : Nat} (hn : 0 < n) : (Nat.toDigits 10 n).head? ≠ some '0' := by
  induction n using Nat.strongRecOn with
  | ind n ih =>
      by_cases hlt : n < 10
      · rw [Nat.toDigits_of_lt_base hlt, List.head?_cons]
        intro h
        have hcode := Nat.toNat_digitChar_of_lt_ten hlt
        rw [Option.some.inj h] at hcode
        change 48 = 48 + n at hcode
        omega
      · rw [Nat.toDigits_of_base_le (by omega) (by omega), List.head?_append_of_ne_nil _ Nat.toDigits_ne_nil]
        exact ih (n / 10) (by omega) (by omega)

/-- Digits only, and at least one. -/
def IsDecimal (s : String) (n : Nat) : Prop :=
  s.toList ≠ [] ∧ (∀ c ∈ s.toList, isAsciiDigit c = true) ∧ digitsValue s.toList = n

theorem isDecimal_repr (n : Nat) : IsDecimal (Nat.repr n) n := by
  rw [IsDecimal, Nat.toList_repr]
  exact ⟨Nat.toDigits_ne_nil, fun c hc => isAsciiDigit_of_mem_toDigits hc, digitsValue_toDigits n⟩

theorem IsDecimal.not_mem {s : String} {n : Nat} {c : Char} (h : IsDecimal s n) (hc : isAsciiDigit c = false) :
    c ∉ s.toList := by
  intro hmem
  rw [h.2.1 c hmem] at hc
  cases hc

theorem parseUnsigned_eq_some_iff {bound n : Nat} {s : String} : parseUnsigned bound s = some n ↔
    n < bound ∧ (IsDecimal s n ∨ ∃ digits, s = "+" ++ digits ∧ IsDecimal digits n) := by
  have hplus : isAsciiDigit '+' = false := by decide
  have hread : ∀ cs : List Char,
      (if cs ≠ [] ∧ cs.all isAsciiDigit ∧ digitsValue cs < bound then some (digitsValue cs) else none) = some n ↔
        n < bound ∧ IsDecimal (String.ofList cs) n := by
    intro cs
    simp only [IsDecimal, String.toList_ofList, List.all_eq_true]
    constructor
    · intro h
      split at h
      · rename_i hok
        cases h
        exact ⟨hok.2.2, hok.1, hok.2.1, rfl⟩
      · cases h
    · intro h
      obtain ⟨hlt, hne, hdigits, rfl⟩ := h
      exact if_pos ⟨hne, hdigits, hlt⟩
  rw [parseUnsigned]
  split
  · rename_i cs hcs
    have hs : s = "+" ++ String.ofList cs := by
      apply String.toList_inj.mp
      simp [hcs]
    have hsign : ¬ IsDecimal s n := by
      intro h
      apply h.not_mem hplus
      rw [hcs]
      exact List.mem_cons_self
    rw [hread cs]
    constructor
    · intro h
      exact ⟨h.1, .inr ⟨String.ofList cs, hs, h.2⟩⟩
    · intro h
      obtain ⟨digits, hs', hdigits⟩ := h.2.resolve_left hsign
      rw [hs, String.append_right_inj] at hs'
      exact ⟨h.1, hs' ▸ hdigits⟩
  · rename_i hcs
    have hsign : ¬ ∃ digits, s = "+" ++ digits ∧ IsDecimal digits n := by
      intro h
      obtain ⟨digits, hs, _⟩ := h
      apply hcs digits.toList
      rw [hs, String.toList_append]
      rfl
    rw [hread s.toList, String.ofList_toList]
    constructor
    · intro h
      exact ⟨h.1, .inl h.2⟩
    · intro h
      exact ⟨h.1, h.2.resolve_right hsign⟩

/-- A number below the bound is parsed from its decimal rendering. -/
theorem parseUnsigned_repr {bound n : Nat} (h : n < bound) : parseUnsigned bound (Nat.repr n) = some n :=
  parseUnsigned_eq_some_iff.mpr ⟨h, .inl (isDecimal_repr n)⟩

theorem parseU64_repr (n : UInt64) : parseU64 (Nat.repr n.toNat) = some n := by
  rw [parseU64, parseUnsigned_repr n.toNat_lt, Option.map_some, UInt64.ofNat_toNat]

end Beskar7Inspector.Lib.Decimal
