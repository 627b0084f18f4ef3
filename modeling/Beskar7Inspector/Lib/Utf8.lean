import Mathlib.Data.Bool.Basic
import Beskar7Inspector.Lib.Text

namespace Beskar7Inspector.Lib.Utf8

open Lib.Text

def replacement : Char := '\uFFFD'

/-- What may come second after the given first byte of a longer character. -/
def isSecond (first second : UInt8) : Bool :=
  if first.toNat = 0xE0 then 0xA0 ≤ second.toNat && second.toNat ≤ 0xBF
  else if first.toNat = 0xED then 0x80 ≤ second.toNat && second.toNat ≤ 0x9F
  else if first.toNat = 0xF0 then 0x90 ≤ second.toNat && second.toNat ≤ 0xBF
  else if first.toNat = 0xF4 then 0x80 ≤ second.toNat && second.toNat ≤ 0x8F
  else 0x80 ≤ second.toNat && second.toNat ≤ 0xBF

def isTail (b : UInt8) : Bool := 0x80 ≤ b.toNat && b.toNat ≤ 0xBF

/-- The character at the front and how many bytes it takes. The bytes of one
that breaks off count as one replacement character, a stray byte too. -/
def decodeFront (b : UInt8) (rest : List UInt8) : Char × Nat :=
  let n := b.toNat
  if n < 0x80 then (Char.ofNat n, 1)
  else if 0xC2 ≤ n ∧ n ≤ 0xDF then
    match rest with
    | [] => (replacement, 1)
    | c :: _ =>
        if isSecond b c then (Char.ofNat ((n - 0xC0) * 64 + (c.toNat - 0x80)), 2)
        else (replacement, 1)
  else if 0xE0 ≤ n ∧ n ≤ 0xEF then
    match rest with
    | [] => (replacement, 1)
    | c :: rest =>
        if isSecond b c then
          match rest with
          | [] => (replacement, 2)
          | d :: _ =>
              if isTail d then
                (Char.ofNat ((n - 0xE0) * 4096 + (c.toNat - 0x80) * 64 + (d.toNat - 0x80)), 3)
              else (replacement, 2)
        else (replacement, 1)
  else if 0xF0 ≤ n ∧ n ≤ 0xF4 then
    match rest with
    | [] => (replacement, 1)
    | c :: rest =>
        if isSecond b c then
          match rest with
          | [] => (replacement, 2)
          | d :: rest =>
              if isTail d then
                match rest with
                | [] => (replacement, 3)
                | e :: _ =>
                    if isTail e then
                      (Char.ofNat ((n - 0xF0) * 262144 + (c.toNat - 0x80) * 4096 + (d.toNat - 0x80) * 64 +
                        (e.toNat - 0x80)), 4)
                    else (replacement, 3)
              else (replacement, 2)
        else (replacement, 1)
  else (replacement, 1)

/-- The characters of a byte string; each front takes at least one byte. -/
def decodeLossy : Nat → List UInt8 → List Char
  | 0, _ => []
  | _ + 1, [] => []
  | fuel + 1, b :: rest =>
      let front := decodeFront b rest
      front.1 :: decodeLossy fuel (rest.drop (front.2 - 1))

def fromUtf8Lossy (bytes : List UInt8) : String := String.ofList (decodeLossy bytes.length bytes)

example : fromUtf8Lossy [0x41, 0xE2, 0x82, 0x42, 0xFF, 0xC3, 0xA9] = "A\uFFFDB\uFFFD\u00E9" := by decide +kernel

theorem utf8EncodeChar_eq (c : Char) : String.utf8EncodeChar c =
    if c.toNat ≤ 0x7F then [UInt8.ofNat c.toNat]
    else if c.toNat ≤ 0x7FF then
      [UInt8.ofNat (c.toNat / 64 % 32 + 0xC0), UInt8.ofNat (c.toNat % 64 + 0x80)]
    else if c.toNat ≤ 0xFFFF then
      [UInt8.ofNat (c.toNat / 4096 % 16 + 0xE0), UInt8.ofNat (c.toNat / 64 % 64 + 0x80),
        UInt8.ofNat (c.toNat % 64 + 0x80)]
    else
      [UInt8.ofNat (c.toNat / 262144 % 8 + 0xF0), UInt8.ofNat (c.toNat / 4096 % 64 + 0x80),
        UInt8.ofNat (c.toNat / 64 % 64 + 0x80), UInt8.ofNat (c.toNat % 64 + 0x80)] := rfl

theorem toNat_byte {n : Nat} (h : n < 256) : (UInt8.ofNat n).toNat = n :=
  UInt8.toNat_ofNat_of_lt (by simpa [UInt8.size] using h)

theorem isTail_byte (n : Nat) : isTail (UInt8.ofNat (n % 64 + 0x80)) = true := by
  have hn : (UInt8.ofNat (n % 64 + 0x80)).toNat = n % 64 + 0x80 := toNat_byte (by omega)
  rw [isTail, hn]
  simp
  omega

theorem char_range (c : Char) : c.toNat < 0xD800 ∨ (0xDFFF < c.toNat ∧ c.toNat < 0x110000) := c.valid

theorem ofNat_eq (c : Char) {n : Nat} (h : n = c.toNat) : Char.ofNat n = c := by
  rw [h, Char.ofNat_toNat]

/-- The front of an encoded character is that character, whatever follows. -/
theorem decodeFront_utf8EncodeChar (c : Char) :
    ∃ b more, String.utf8EncodeChar c = b :: more ∧ ∀ rest, decodeFront b (more ++ rest) = (c, more.length + 1) := by
  have hrange := char_range c
  rw [utf8EncodeChar_eq]
  by_cases h1 : c.toNat ≤ 0x7F
  · have hb : (UInt8.ofNat c.toNat).toNat = c.toNat := toNat_byte (by omega)
    rw [if_pos h1]
    refine ⟨_, _, rfl, fun rest => ?_⟩
    simp only [decodeFront, hb]
    rw [if_pos (by omega), Char.ofNat_toNat]
    rfl
  · rw [if_neg h1]
    by_cases h2 : c.toNat ≤ 0x7FF
    · have hb : (UInt8.ofNat (c.toNat / 64 % 32 + 0xC0)).toNat = c.toNat / 64 % 32 + 0xC0 := toNat_byte (by omega)
      have hc : (UInt8.ofNat (c.toNat % 64 + 0x80)).toNat = c.toNat % 64 + 0x80 := toNat_byte (by omega)
      rw [if_pos h2]
      refine ⟨_, _, rfl, fun rest => ?_⟩
      have hsecond : isSecond (UInt8.ofNat (c.toNat / 64 % 32 + 0xC0)) (UInt8.ofNat (c.toNat % 64 + 0x80)) = true := by
        simp only [isSecond, hb, hc]
        grind
      simp only [decodeFront, hb, hc, List.cons_append, List.nil_append, hsecond, if_true]
      rw [if_neg (by omega), if_pos (by omega), ofNat_eq c (by omega)]
      rfl
    · rw [if_neg h2]
      by_cases h3 : c.toNat ≤ 0xFFFF
      · have hb : (UInt8.ofNat (c.toNat / 4096 % 16 + 0xE0)).toNat = c.toNat / 4096 % 16 + 0xE0 := toNat_byte (by omega)
        have hc : (UInt8.ofNat (c.toNat / 64 % 64 + 0x80)).toNat = c.toNat / 64 % 64 + 0x80 := toNat_byte (by omega)
        have hd : (UInt8.ofNat (c.toNat % 64 + 0x80)).toNat = c.toNat % 64 + 0x80 := toNat_byte (by omega)
        rw [if_pos h3]
        refine ⟨_, _, rfl, fun rest => ?_⟩
        have hsecond : isSecond (UInt8.ofNat (c.toNat / 4096 % 16 + 0xE0)) (UInt8.ofNat (c.toNat / 64 % 64 + 0x80)) = true := by
          simp only [isSecond, hb, hc]
          grind
        simp only [decodeFront, hb, hc, hd, List.cons_append, List.nil_append, hsecond, isTail_byte, if_true]
        rw [if_neg (by omega), if_neg (by omega), if_pos (by omega), ofNat_eq c (by omega)]
        rfl
      · have hb : (UInt8.ofNat (c.toNat / 262144 % 8 + 0xF0)).toNat = c.toNat / 262144 % 8 + 0xF0 := toNat_byte (by omega)
        have hc : (UInt8.ofNat (c.toNat / 4096 % 64 + 0x80)).toNat = c.toNat / 4096 % 64 + 0x80 := toNat_byte (by omega)
        have hd : (UInt8.ofNat (c.toNat / 64 % 64 + 0x80)).toNat = c.toNat / 64 % 64 + 0x80 := toNat_byte (by omega)
        have he : (UInt8.ofNat (c.toNat % 64 + 0x80)).toNat = c.toNat % 64 + 0x80 := toNat_byte (by omega)
        rw [if_neg h3]
        refine ⟨_, _, rfl, fun rest => ?_⟩
        have hsecond : isSecond (UInt8.ofNat (c.toNat / 262144 % 8 + 0xF0)) (UInt8.ofNat (c.toNat / 4096 % 64 + 0x80)) = true := by
          simp only [isSecond, hb, hc]
          grind
        simp only [decodeFront, hb, hc, hd, he, List.cons_append, List.nil_append, hsecond, isTail_byte, if_true]
        rw [if_neg (by omega), if_neg (by omega), if_neg (by omega), if_pos (by omega), ofNat_eq c (by omega)]
        rfl

theorem decodeLossy_utf8 {cs : List Char} {fuel : Nat} (h : (utf8 (String.ofList cs)).length ≤ fuel) :
    decodeLossy fuel (utf8 (String.ofList cs)) = cs := by
  induction cs generalizing fuel with
  | nil => cases fuel <;> rfl
  | cons c cs ih =>
      obtain ⟨b, more, hbytes, hfront⟩ := decodeFront_utf8EncodeChar c
      rw [utf8_cons, hbytes, List.cons_append, List.length_cons, List.length_append] at h
      cases fuel with
      | zero => omega
      | succ fuel =>
          rw [utf8_cons, hbytes, List.cons_append, decodeLossy, hfront, Nat.add_sub_cancel, List.drop_left,
            ih (by omega)]

/-- The encoding of a text is decoded to the text, nothing in it replaced. -/
theorem fromUtf8Lossy_utf8 (s : String) : fromUtf8Lossy (utf8 s) = s := by
  have hs : utf8 s = utf8 (String.ofList s.toList) := by
    rw [String.ofList_toList]
  rw [fromUtf8Lossy, hs, decodeLossy_utf8 (Nat.le_refl _), String.ofList_toList]

section Searching

theorem char_toNat_ofNat {n : Nat} (h : n.isValidChar) : (Char.ofNat n).toNat = n := by
  rw [Char.ofNat, dif_pos h]
  rfl

theorem isSecond_bounds {b c : UInt8} (h : isSecond b c = true) : 0x80 ≤ c.toNat ∧ c.toNat ≤ 0xBF ∧
    (b.toNat = 0xE0 → 0xA0 ≤ c.toNat) ∧ (b.toNat = 0xED → c.toNat ≤ 0x9F) ∧ (b.toNat = 0xF0 → 0x90 ≤ c.toNat) ∧
      (b.toNat = 0xF4 → c.toNat ≤ 0x8F) := by
  simp only [isSecond] at h
  grind

theorem isTail_bounds {b : UInt8} (h : isTail b = true) : 0x80 ≤ b.toNat ∧ b.toNat ≤ 0xBF := by
  simpa [isTail] using h

/-- A byte that is not ASCII begins a character that is not, and takes no byte that is. -/
theorem decodeFront_high {b : UInt8} (h : 0x80 ≤ b.toNat) (rest : List UInt8) :
    0x80 ≤ (decodeFront b rest).1.toNat ∧ ∀ x ∈ rest.take ((decodeFront b rest).2 - 1), 0x80 ≤ x.toNat := by
  have hreplaced (n : Nat) (hn : ∀ x ∈ rest.take (n - 1), 0x80 ≤ x.toNat) :
      0x80 ≤ ((replacement, n) : Char × Nat).1.toNat ∧
        ∀ x ∈ rest.take (((replacement, n) : Char × Nat).2 - 1), 0x80 ≤ x.toNat :=
    ⟨(by decide : 0x80 ≤ replacement.toNat), hn⟩
  have hone := hreplaced 1 (by simp)
  simp only [decodeFront]
  rw [if_neg (Nat.not_lt.mpr h)]
  split
  · cases rest with
    | nil => exact hone
    | cons c rest =>
        dsimp only
        split
        · rename_i hc
          obtain ⟨hc, hc', -⟩ := isSecond_bounds hc
          have hvalid : ((b.toNat - 0xC0) * 64 + (c.toNat - 0x80)).isValidChar := .inl (by omega)
          rw [char_toNat_ofNat hvalid]
          exact ⟨by omega, by simpa using hc⟩
        · exact hone
  · split
    · cases rest with
      | nil => exact hone
      | cons c rest =>
          dsimp only
          split
          · rename_i hc
            obtain ⟨hc, hc', hlow, hsurrogate, -⟩ := isSecond_bounds hc
            cases rest with
            | nil => exact hreplaced 2 (by simpa using hc)
            | cons d rest =>
                dsimp only
                split
                · rename_i hd
                  obtain ⟨hd, hd'⟩ := isTail_bounds hd
                  have hvalid : ((b.toNat - 0xE0) * 4096 + (c.toNat - 0x80) * 64 + (d.toNat - 0x80)).isValidChar := by
                    rw [Nat.isValidChar]
                    omega
                  rw [char_toNat_ofNat hvalid]
                  exact ⟨by omega, by simpa using ⟨hc, hd⟩⟩
                · exact hreplaced 2 (by simpa using hc)
          · exact hone
    · split
      · cases rest with
        | nil => exact hone
        | cons c rest =>
            dsimp only
            split
            · rename_i hc
              obtain ⟨hc, hc', -, -, hlow, hhigh⟩ := isSecond_bounds hc
              cases rest with
              | nil => exact hreplaced 2 (by simpa using hc)
              | cons d rest =>
                  dsimp only
                  split
                  · rename_i hd
                    obtain ⟨hd, hd'⟩ := isTail_bounds hd
                    cases rest with
                    | nil => exact hreplaced 3 (by simpa using ⟨hc, hd⟩)
                    | cons e rest =>
                        dsimp only
                        split
                        · rename_i he
                          obtain ⟨he, he'⟩ := isTail_bounds he
                          have hvalid : ((b.toNat - 0xF0) * 262144 + (c.toNat - 0x80) * 4096 + (d.toNat - 0x80) * 64 +
                              (e.toNat - 0x80)).isValidChar := by
                            rw [Nat.isValidChar]
                            omega
                          rw [char_toNat_ofNat hvalid]
                          exact ⟨by omega, by simpa using ⟨hc, hd, he⟩⟩
                        · exact hreplaced 3 (by simpa using ⟨hc, hd⟩)
                  · exact hreplaced 2 (by simpa using hc)
            · exact hone
      · exact hone

variable {cs : List Char}

/-- The bytes of ASCII characters stand in front where the characters do. -/
theorem prefix_decodeLossy_iff (hascii : ∀ c ∈ cs, c.toNat < 128) {fuel : Nat} {bytes : List UInt8}
    (hfuel : bytes.length ≤ fuel) :
    cs <+: decodeLossy fuel bytes ↔ cs.map (fun c => UInt8.ofNat c.toNat) <+: bytes := by
  induction cs generalizing fuel bytes with
  | nil => simp
  | cons c cs ih =>
      rw [List.forall_mem_cons] at hascii
      obtain ⟨hc, hcs⟩ := hascii
      have hcode : (UInt8.ofNat c.toNat).toNat = c.toNat := toNat_byte (by omega)
      cases bytes with
      | nil => cases fuel <;> simp [decodeLossy]
      | cons b rest =>
          cases fuel with
          | zero => cases hfuel
          | succ fuel =>
              rw [decodeLossy, List.map_cons, List.cons_prefix_cons, List.cons_prefix_cons]
              by_cases hb : b.toNat < 0x80
              · have hfront : decodeFront b rest = (Char.ofNat b.toNat, 1) := by
                  simp only [decodeFront]
                  rw [if_pos hb]
                have hvalid : b.toNat.isValidChar := .inl (by omega)
                have hsame : c = Char.ofNat b.toNat ↔ UInt8.ofNat c.toNat = b := by
                  rw [← Char.toNat_inj, char_toNat_ofNat hvalid, ← UInt8.toNat_inj, hcode]
                have hrest := ih hcs (Nat.le_of_succ_le_succ hfuel)
                rw [hfront, hsame]
                exact and_congr_right fun _ => hrest
              · obtain ⟨hchar, -⟩ := decodeFront_high (Nat.le_of_not_lt hb) rest
                refine iff_of_false (fun h => ?_) (fun h => ?_)
                · rw [← h.1] at hchar
                  omega
                · rw [← h.1, hcode] at hb
                  omega

/-- ASCII bytes do not begin where others stand. -/
theorem infix_high_append_iff (hascii : ∀ c ∈ cs, c.toNat < 128) (hne : cs ≠ []) {front : List UInt8}
    (hfront : ∀ x ∈ front, 0x80 ≤ x.toNat) (back : List UInt8) : cs.map (fun c => UInt8.ofNat c.toNat) <:+: front ++ back ↔
      cs.map (fun c => UInt8.ofNat c.toNat) <:+: back := by
  induction front with
  | nil => rfl
  | cons x front ih =>
      rw [List.forall_mem_cons] at hfront
      rw [List.cons_append, List.infix_cons_iff, ih hfront.2]
      refine or_iff_right fun hprefix => ?_
      cases cs with
      | nil => exact hne rfl
      | cons c cs =>
          have hc := hascii c List.mem_cons_self
          have hx := hfront.1
          rw [List.map_cons, List.cons_prefix_cons] at hprefix
          rw [← hprefix.1, toNat_byte (by omega)] at hx
          omega

theorem infix_decodeLossy_iff (hascii : ∀ c ∈ cs, c.toNat < 128) (hne : cs ≠ []) {fuel : Nat} {bytes : List UInt8}
    (hfuel : bytes.length ≤ fuel) :
    cs <:+: decodeLossy fuel bytes ↔ cs.map (fun c => UInt8.ofNat c.toNat) <:+: bytes := by
  induction fuel generalizing bytes with
  | zero =>
      rw [List.length_eq_zero_iff.mp (Nat.le_zero.mp hfuel)]
      simp [decodeLossy]
  | succ fuel ih =>
      cases bytes with
      | nil => simp [decodeLossy]
      | cons b rest =>
          have hprefix := prefix_decodeLossy_iff hascii hfuel
          have hlen : (rest.drop ((decodeFront b rest).2 - 1)).length ≤ fuel := by
            rw [List.length_drop]
            exact Nat.le_trans (Nat.sub_le _ _) (Nat.le_of_succ_le_succ hfuel)
          have hskipped : cs.map (fun c => UInt8.ofNat c.toNat) <:+: rest ↔
              cs.map (fun c => UInt8.ofNat c.toNat) <:+: rest.drop ((decodeFront b rest).2 - 1) := by
            by_cases hb : b.toNat < 0x80
            · have hone : (decodeFront b rest).2 - 1 = 0 := by
                simp only [decodeFront]
                rw [if_pos hb]
                rfl
              rw [hone, List.drop_zero]
            · have hhigh := (decodeFront_high (Nat.le_of_not_lt hb) rest).2
              have happend := infix_high_append_iff hascii hne hhigh (rest.drop ((decodeFront b rest).2 - 1))
              rwa [List.take_append_drop] at happend
          rw [decodeLossy] at hprefix ⊢
          rw [List.infix_cons_iff, hprefix, ih hlen, ← hskipped, ← List.infix_cons_iff]

/-- ASCII text stands in a lossy decoding just where its bytes stand. -/
theorem infix_fromUtf8Lossy_iff {s : String} (hascii : ∀ c ∈ s.toList, c.toNat < 128) (hne : s ≠ "") (bytes : List UInt8) :
    s.toList <:+: (fromUtf8Lossy bytes).toList ↔ utf8 s <:+: bytes := by
  have hutf8 : utf8 s = s.toList.map (fun c => UInt8.ofNat c.toNat) := by
    rw [← utf8_ofList_ascii hascii, String.ofList_toList]
  rw [fromUtf8Lossy, String.toList_ofList, hutf8]
  exact infix_decodeLossy_iff hascii (fun hnil => hne (String.toList_eq_nil_iff.mp hnil)) (Nat.le_refl _)

end Searching

theorem zero_not_mem_utf8EncodeChar {c : Char} (h : c ≠ '\x00') : (0 : UInt8) ∉ String.utf8EncodeChar c := by
  have hc : c.toNat ≠ 0 := by
    intro hzero
    exact h (Char.toNat_inj.mp hzero)
  have hbyte : ∀ n, 0 < n → n < 256 → (0 : UInt8) ≠ UInt8.ofNat n := by
    intro n hpos hlt heq
    have hn := congrArg UInt8.toNat heq
    rw [toNat_byte hlt] at hn
    change 0 = n at hn
    omega
  rw [utf8EncodeChar_eq]
  split
  · rw [List.mem_singleton]
    exact hbyte _ (by omega) (by omega)
  · split
    · simp only [List.mem_cons, List.not_mem_nil, or_false, not_or]
      exact ⟨hbyte _ (by omega) (by omega), hbyte _ (by omega) (by omega)⟩
    · split
      · simp only [List.mem_cons, List.not_mem_nil, or_false, not_or]
        exact ⟨hbyte _ (by omega) (by omega), hbyte _ (by omega) (by omega), hbyte _ (by omega) (by omega)⟩
      · simp only [List.mem_cons, List.not_mem_nil, or_false, not_or]
        exact ⟨hbyte _ (by omega) (by omega), hbyte _ (by omega) (by omega), hbyte _ (by omega) (by omega),
          hbyte _ (by omega) (by omega)⟩

/-- Only the NUL character is encoded with a zero byte. -/
theorem zero_not_mem_utf8 {s : String} (h : '\x00' ∉ s.toList) : (0 : UInt8) ∉ utf8 s := by
  have hchars : ∀ cs : List Char, '\x00' ∉ cs → (0 : UInt8) ∉ utf8 (String.ofList cs) := by
    intro cs
    induction cs with
    | nil => exact fun _ => List.not_mem_nil
    | cons c cs ih =>
        intro hcs
        rw [List.mem_cons, not_or] at hcs
        rw [utf8_cons, List.mem_append, not_or]
        exact ⟨zero_not_mem_utf8EncodeChar (Ne.symm hcs.1), ih hcs.2⟩
  rw [← String.ofList_toList (s := s)]
  exact hchars s.toList h

/-- A text of exactly these bytes. -/
def fromUtf8 (bytes : List UInt8) : Option String := String.fromUTF8? ⟨bytes.toArray⟩

theorem fromUtf8_eq_some_iff {bytes : List UInt8} {s : String} : fromUtf8 bytes = some s ↔ bytes = utf8 s := by
  rw [fromUtf8, String.fromUTF8?]
  constructor
  · intro h
    split at h
    · cases h
      rfl
    · cases h
  · rintro rfl
    have hbytes : (⟨(utf8 s).toArray⟩ : ByteArray) = s.toByteArray := by
      rw [utf8, Array.toArray_toList]
    rw [dif_pos (hbytes ▸ s.isValidUTF8), Option.some.injEq]
    exact String.toByteArray_inj.mp hbytes

end Beskar7Inspector.Lib.Utf8
