import Mathlib.Algebra.Group.Nat.Defs

namespace Beskar7Inspector.Lib.LittleEndian

/-- The low `width` bytes of a number, least significant first. -/
def encode : Nat → Nat → List UInt8
  | 0, _ => []
  | width + 1, n => UInt8.ofNat n :: encode width (n / 256)

def decode : List UInt8 → Nat
  | [] => 0
  | b :: bs => b.toNat + 256 * decode bs

@[simp] theorem encode_length (width n : Nat) : (encode width n).length = width := by
  induction width generalizing n with
  | zero => rfl
  | succ width ih => rw [encode, List.length_cons, ih]

theorem decode_encode {width n : Nat} (h : n < 256 ^ width) : decode (encode width n) = n := by
  induction width generalizing n with
  | zero => rw [Nat.pow_zero, Nat.lt_one_iff] at h; rw [h]; rfl
  | succ width ih =>
      have hd : n / 256 < 256 ^ width := Nat.div_lt_of_lt_mul (by rwa [Nat.pow_succ, Nat.mul_comm] at h)
      rw [encode, decode, ih hd, UInt8.toNat_ofNat']
      exact Nat.mod_add_div n 256

theorem decode_lt (bs : List UInt8) : decode bs < 256 ^ bs.length := by
  induction bs with
  | nil => exact Nat.one_pos
  | cons b bs ih =>
      have hb : b.toNat < 256 := b.toNat_lt
      rw [decode, List.length_cons, Nat.pow_succ]
      omega

theorem encode_decode {width : Nat} {bs : List UInt8} (h : bs.length = width) : encode width (decode bs) = bs := by
  induction bs generalizing width with
  | nil => subst h; rfl
  | cons b bs ih =>
      subst h
      have hb : b.toNat < 256 := b.toNat_lt
      have hmod : UInt8.ofNat (decode (b :: bs)) = b := by
        rw [← UInt8.toNat_inj, UInt8.toNat_ofNat', decode]
        omega
      have hdiv : decode (b :: bs) / 256 = decode bs := by
        rw [decode]
        omega
      rw [List.length_cons, encode, hmod, hdiv, ih rfl]

/-- A field of `n` bytes and what follows it. -/
def split (n : Nat) (bs : List UInt8) : Option (List UInt8 × List UInt8) :=
  if n ≤ bs.length then some (bs.take n, bs.drop n) else none

theorem split_append {n : Nat} {a : List UInt8} (h : a.length = n) (b : List UInt8) :
    split n (a ++ b) = some (a, b) := by
  subst h
  simp [split]

theorem split_eq_some {n : Nat} {bs a b : List UInt8} (h : split n bs = some (a, b)) : bs = a ++ b ∧ a.length = n := by
  rw [split] at h
  split at h
  · cases h
    refine ⟨(List.take_append_drop n bs).symm, ?_⟩
    rw [List.length_take]
    omega
  · cases h

/-- The whole 16-bit units of a byte string; an odd byte at the end is dropped. -/
def units : List UInt8 → List UInt16
  | lo :: hi :: rest => UInt16.ofNat (decode [lo, hi]) :: units rest
  | _ => []

def unitBytes (us : List UInt16) : List UInt8 := us.flatMap (fun u => encode 2 u.toNat)

theorem decode_encode_unit (u : UInt16) : decode (encode 2 u.toNat) = u.toNat :=
  decode_encode u.toNat_lt

@[simp] theorem unitBytes_length (us : List UInt16) : (unitBytes us).length = 2 * us.length := by
  induction us with
  | nil => rfl
  | cons u us ih =>
      rw [unitBytes, List.flatMap_cons, List.length_append, encode_length, List.length_cons]
      rw [unitBytes] at ih
      omega

theorem units_unitBytes (us : List UInt16) : units (unitBytes us) = us := by
  induction us with
  | nil => rfl
  | cons u us ih =>
      change UInt16.ofNat (decode (encode 2 u.toNat)) :: units (unitBytes us) = u :: us
      rw [ih, decode_encode_unit, UInt16.ofNat_toNat]

end Beskar7Inspector.Lib.LittleEndian
