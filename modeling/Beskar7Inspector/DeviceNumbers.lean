import Beskar7Inspector.Deploy
import Beskar7Inspector.Lib.Decimal

namespace Beskar7Inspector.DeviceNumbers

open Lib.Text Lib.Decimal Deploy

theorem bits_high20 : ∀ i < 64, (0xfffff000#64).getLsbD i = (decide (12 ≤ i) && decide (i < 32)) := by decide

theorem bits_low12 : ∀ i < 64, (0xfff#64).getLsbD i = decide (i < 12) := by decide

theorem bits_high24 : ∀ i < 64, (0xffffff00#64).getLsbD i = (decide (8 ≤ i) && decide (i < 32)) := by decide

theorem bits_low8 : ∀ i < 64, (0xff#64).getLsbD i = decide (i < 8) := by decide

theorem getLsbD_major (dev : UInt64) {i : Nat} (hi : i < 64) : (major dev).toBitVec.getLsbD i =
    if i < 12 then dev.toBitVec.getLsbD (8 + i)
    else if i < 32 then dev.toBitVec.getLsbD (32 + i) else false := by
  have hmajor : (major dev).toBitVec =
      ((dev.toBitVec >>> 32) &&& 0xfffff000#64) ||| ((dev.toBitVec >>> 8) &&& 0xfff#64) := rfl
  rw [hmajor]
  simp only [BitVec.getLsbD_or, BitVec.getLsbD_and, BitVec.getLsbD_ushiftRight, bits_high20 i hi, bits_low12 i hi]
  grind

theorem getLsbD_minor (dev : UInt64) {i : Nat} (hi : i < 64) : (minor dev).toBitVec.getLsbD i =
    if i < 8 then dev.toBitVec.getLsbD i
    else if i < 32 then dev.toBitVec.getLsbD (12 + i) else false := by
  have hminor : (minor dev).toBitVec =
      ((dev.toBitVec >>> 12) &&& 0xffffff00#64) ||| (dev.toBitVec &&& 0xff#64) := rfl
  rw [hminor]
  simp only [BitVec.getLsbD_or, BitVec.getLsbD_and, BitVec.getLsbD_ushiftRight, bits_high24 i hi, bits_low8 i hi]
  grind

theorem getLsbD_makedev (maj min : UInt64) {i : Nat} (hi : i < 64) : (makedev maj min).toBitVec.getLsbD i =
    if i < 8 then min.toBitVec.getLsbD i
    else if i < 20 then maj.toBitVec.getLsbD (i - 8)
    else if i < 44 then min.toBitVec.getLsbD (i - 12)
    else maj.toBitVec.getLsbD (i - 32) := by
  have hmake : (makedev maj min).toBitVec =
      ((maj.toBitVec &&& 0xfffff000#64) <<< 32) ||| ((maj.toBitVec &&& 0xfff#64) <<< 8) |||
        ((min.toBitVec &&& 0xffffff00#64) <<< 12) ||| (min.toBitVec &&& 0xff#64) := rfl
  rw [hmake]
  simp only [BitVec.getLsbD_or, BitVec.getLsbD_and, BitVec.getLsbD_shiftLeft, bits_high20 (i - 32) (by omega),
    bits_low12 (i - 8) (by omega), bits_high24 (i - 12) (by omega), bits_low8 i hi]
  grind

theorem makedev_major_minor (dev : UInt64) : makedev (major dev) (minor dev) = dev := by
  apply UInt64.eq_of_toBitVec_eq
  apply BitVec.eq_of_getLsbD_eq
  intro i hi
  rw [getLsbD_makedev _ _ hi, getLsbD_major _ (by omega), getLsbD_major _ (by omega),
    getLsbD_minor _ hi, getLsbD_minor _ (by omega)]
  grind

theorem getLsbD_of_lt {n : UInt64} (h : n.toNat < 2 ^ 32) {i : Nat} (hi : 32 ≤ i) : n.toBitVec.getLsbD i = false :=
  Nat.testBit_lt_two_pow (Nat.lt_of_lt_of_le h (Nat.pow_le_pow_right (by omega) hi))

theorem major_makedev {maj : UInt64} (h : maj.toNat < 2 ^ 32) (min : UInt64) : major (makedev maj min) = maj := by
  apply UInt64.eq_of_toBitVec_eq
  apply BitVec.eq_of_getLsbD_eq
  intro i hi
  rw [getLsbD_major _ hi]
  by_cases hlow : i < 12
  · rw [if_pos hlow, getLsbD_makedev _ _ (by omega)]
    grind
  · by_cases hhigh : i < 32
    · rw [if_neg hlow, if_pos hhigh, getLsbD_makedev _ _ (by omega)]
      grind
    · rw [if_neg hlow, if_neg hhigh, getLsbD_of_lt h (by omega)]

theorem minor_makedev (maj : UInt64) {min : UInt64} (h : min.toNat < 2 ^ 32) : minor (makedev maj min) = min := by
  apply UInt64.eq_of_toBitVec_eq
  apply BitVec.eq_of_getLsbD_eq
  intro i hi
  rw [getLsbD_minor _ hi]
  by_cases hlow : i < 8
  · rw [if_pos hlow, getLsbD_makedev _ _ hi, if_pos hlow]
  · by_cases hhigh : i < 32
    · rw [if_neg hlow, if_pos hhigh, getLsbD_makedev _ _ (by omega)]
      grind
    · rw [if_neg hlow, if_neg hhigh, getLsbD_of_lt h (by omega)]

/-- A device number as sysfs renders it. -/
def sysfsDev (maj min : UInt64) : String := Nat.repr maj.toNat ++ ":" ++ Nat.repr min.toNat

theorem parseDevNumber_sysfsDev (maj min : UInt64) : parseDevNumber (sysfsDev maj min) = some (makedev maj min) := by
  have hcolon : isAsciiDigit ':' = false := by decide
  have hsplit : splitOnce ':' (sysfsDev maj min) = some (Nat.repr maj.toNat, Nat.repr min.toNat) :=
    splitOnce_append (not_mem_repr hcolon maj.toNat) (Nat.repr min.toNat)
  rw [parseDevNumber, hsplit]
  simp only [Option.bind_eq_bind, Option.bind_some, parseU64_repr]
  rfl

theorem majorMinor_eq (rdev : UInt64) : majorMinor rdev = sysfsDev (major rdev) (minor rdev) := rfl

theorem rdevMatches_eq_ok_iff {rdev : UInt64} {s : String} : rdevMatches rdev s = .ok () ↔ majorMinor rdev = s := by
  rw [rdevMatches]
  split
  · rename_i h
    exact iff_of_true rfl h
  · rename_i h
    exact iff_of_false (by simp) h

theorem rdevMatches_sysfsDev {rdev maj min : UInt64} (hmaj : maj.toNat < 2 ^ 32) (hmin : min.toNat < 2 ^ 32) :
    rdevMatches rdev (sysfsDev maj min) = .ok () ↔ parseDevNumber (sysfsDev maj min) = some rdev := by
  rw [rdevMatches_eq_ok_iff]
  constructor
  · intro h
    rw [← h, majorMinor_eq, parseDevNumber_sysfsDev, makedev_major_minor]
  · intro h
    rw [parseDevNumber_sysfsDev, Option.some.injEq] at h
    rw [← h, majorMinor_eq, major_makedev hmaj, minor_makedev _ hmin]

/-- The text an opened node is checked against and the text a node is made from
name the same device. -/
theorem rdevMatches_iff_parseDevNumber (rdev : UInt64) :
    (∀ maj min : UInt64, maj.toNat < 2 ^ 32 → min.toNat < 2 ^ 32 →
      (rdevMatches rdev (sysfsDev maj min) = .ok () ↔ parseDevNumber (sysfsDev maj min) = some rdev)) ∧
    ∀ s, rdevMatches rdev s = .ok () → parseDevNumber s = some rdev := by
  constructor
  · intro maj min hmaj hmin
    exact rdevMatches_sysfsDev hmaj hmin
  · intro s h
    rw [← rdevMatches_eq_ok_iff.mp h, majorMinor_eq, parseDevNumber_sysfsDev, makedev_major_minor]

end Beskar7Inspector.DeviceNumbers
