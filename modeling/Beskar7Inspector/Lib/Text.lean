import Mathlib.Algebra.Group.Nat.Defs
import Mathlib.Data.List.Basic

namespace Beskar7Inspector.Lib.Text

/-- The code points with the Unicode White_Space property. -/
def isWhitespace (c : Char) : Bool :=
  let n := c.toNat
  (0x09 ≤ n && n ≤ 0x0D) || n = 0x20 || n = 0x85 || n = 0xA0 || n = 0x1680 ||
    (0x2000 ≤ n && n ≤ 0x200A) || n = 0x2028 || n = 0x2029 || n = 0x202F || n = 0x205F || n = 0x3000

def trimEndMatches (p : Char → Bool) (s : String) : String :=
  String.ofList ((s.toList.reverse.dropWhile p).reverse)

def trim (s : String) : String :=
  trimEndMatches isWhitespace (String.ofList (s.toList.dropWhile isWhitespace))

def stripPrefix (pre s : String) : Option String :=
  if pre.toList <+: s.toList then some (String.ofList (s.toList.drop pre.toList.length)) else none

def stripSuffix (suf s : String) : Option String :=
  if suf.toList <:+ s.toList then some (String.ofList (s.toList.take (s.toList.length - suf.toList.length))) else none

/-- The text with its ASCII capitals made small. -/
def asciiLower (s : String) : String := String.ofList (s.toList.map Char.toLower)

def eqIgnoreAsciiCase (a b : String) : Bool := asciiLower a == asciiLower b

theorem length_asciiLower (s : String) : (asciiLower s).length = s.length := by
  rw [asciiLower, String.length_ofList, List.length_map, String.length_toList]

def isAsciiWhitespace (c : Char) : Bool := c == ' ' || c == '\t' || c == '\n' || c == '\x0c' || c == '\r'

def splitChar (c : Char) (s : String) : List String := (s.toList.splitOn c).map String.ofList

/-- The non-empty runs between ASCII whitespace. -/
def splitAsciiWhitespace (s : String) : List String :=
  ((s.toList.splitOnP isAsciiWhitespace).filter (· ≠ [])).map String.ofList

def breakAt (c : Char) : List Char → Option (List Char × List Char)
  | [] => none
  | d :: ds => if d = c then some ([], ds) else (breakAt c ds).map (fun r => (d :: r.1, r.2))

/-- What stands before and after the first `c`. -/
def splitOnce (c : Char) (s : String) : Option (String × String) :=
  (breakAt c s.toList).map (fun r => (String.ofList r.1, String.ofList r.2))

theorem breakAt_append {c : Char} {before : List Char} (h : c ∉ before) (after : List Char) :
    breakAt c (before ++ c :: after) = some (before, after) := by
  induction before with
  | nil => simp [breakAt]
  | cons d ds ih =>
      rw [List.mem_cons, not_or] at h
      rw [List.cons_append, breakAt, if_neg (Ne.symm h.1), ih h.2]
      rfl

theorem splitOnce_append {c : Char} {before : String} (h : c ∉ before.toList) (after : String) :
    splitOnce c (before ++ String.singleton c ++ after) = some (before, after) := by
  have hlist : (before ++ String.singleton c ++ after).toList = before.toList ++ c :: after.toList := by simp
  rw [splitOnce, hlist, breakAt_append h]
  simp

theorem not_of_mem_splitOnP {α : Type} {p : α → Bool} {l piece : List α} (h : piece ∈ l.splitOnP p) :
    ∀ a ∈ piece, p a = false := by
  induction l generalizing piece with
  | nil =>
      rw [List.splitOnP_nil, List.mem_singleton] at h
      simp [h]
  | cons a l ih =>
      rw [List.splitOnP_cons_eq_if_modifyHead] at h
      by_cases hp : p a = true
      · rw [if_pos hp, List.mem_cons] at h
        rcases h with rfl | h
        · simp
        · exact ih h
      · rw [if_neg hp] at h
        obtain ⟨first, rest, hsplit⟩ := List.exists_cons_of_ne_nil (List.splitOnP_ne_nil p l)
        rw [hsplit, List.modifyHead_cons, List.mem_cons] at h
        rcases h with rfl | h
        · exact List.forall_mem_cons.mpr ⟨by simpa using hp, ih (hsplit ▸ List.mem_cons_self)⟩
        · exact ih (hsplit ▸ List.mem_cons_of_mem _ h)

theorem splitChar_eq_iff {c : Char} {s : String} {pieces : List String} (hne : pieces ≠ []) :
    splitChar c s = pieces ↔
      s = String.intercalate (String.singleton c) pieces ∧ ∀ piece ∈ pieces, c ∉ piece.toList := by
  constructor
  · intro h
    subst h
    constructor
    · apply String.toList_inj.mp
      rw [String.toList_intercalate, splitChar, List.map_map]
      have hid : String.toList ∘ String.ofList = id := by
        funext cs
        exact String.toList_ofList
      rw [hid, List.map_id, String.toList_singleton, List.intercalate_splitOn]
    · intro piece hpiece
      obtain ⟨cs, hcs, rfl⟩ := List.mem_map.mp hpiece
      rw [String.toList_ofList]
      rw [List.splitOn_eq_splitOnP] at hcs
      intro hc
      simpa using not_of_mem_splitOnP hcs c hc
  · intro h
    obtain ⟨rfl, hfree⟩ := h
    have hlists : ∀ cs ∈ pieces.map String.toList, c ∉ cs := by
      intro cs hcs
      obtain ⟨piece, hpiece, rfl⟩ := List.mem_map.mp hcs
      exact hfree piece hpiece
    rw [splitChar, String.toList_intercalate, String.toList_singleton,
      List.splitOn_intercalate c hlists (by simpa using hne), List.map_map]
    simp

theorem mem_splitAsciiWhitespace {s word : String} (h : word ∈ splitAsciiWhitespace s) :
    word ≠ "" ∧ ∀ c ∈ word.toList, isAsciiWhitespace c = false := by
  rw [splitAsciiWhitespace, List.mem_map] at h
  obtain ⟨piece, hpiece, rfl⟩ := h
  rw [List.mem_filter] at hpiece
  refine ⟨fun hempty => ?_, fun c hc => not_of_mem_splitOnP hpiece.1 c (by simpa using hc)⟩
  have hnil : piece = [] := by simpa using congrArg String.toList hempty
  simp [hnil] at hpiece

theorem words_of_any {words : List String} (h : ∀ word ∈ words, word ≠ "" ∧ word.toList.any isAsciiWhitespace = false) :
    ∀ word ∈ words, word ≠ "" ∧ ∀ c ∈ word.toList, isAsciiWhitespace c = false := by
  intro word hword
  refine ⟨(h word hword).1, fun c hc => ?_⟩
  simpa using List.any_eq_false.mp (h word hword).2 c hc

/-- Words with a blank between them are split into the same words. -/
theorem splitAsciiWhitespace_intercalate {words : List String}
    (h : ∀ word ∈ words, word ≠ "" ∧ ∀ c ∈ word.toList, isAsciiWhitespace c = false) :
    splitAsciiWhitespace (String.intercalate " " words) = words := by
  have hsplit : words ≠ [] →
      (List.intercalate [' '] (words.map String.toList)).splitOnP isAsciiWhitespace = words.map String.toList := by
    induction words with
    | nil => exact fun hne => absurd rfl hne
    | cons word words ih =>
        intro _
        rw [List.forall_mem_cons] at h
        cases words with
        | nil => simpa using List.splitOnP_eq_singleton h.1.2
        | cons next words =>
            have hnext := ih h.2 (List.cons_ne_nil _ _)
            simp only [List.map_cons] at hnext ⊢
            rw [List.intercalate_cons_cons, List.append_assoc, List.singleton_append,
              List.splitOnP_append_cons_of_forall_mem h.1.2 ' ' rfl, hnext]
  rw [splitAsciiWhitespace, String.toList_intercalate]
  by_cases hne : words = []
  · simp [hne]
  · have hblank : " ".toList = [' '] := rfl
    have hkeep : (words.map String.toList).filter (· ≠ []) = words.map String.toList := by
      rw [List.filter_eq_self]
      intro cs hcs
      obtain ⟨word, hword, rfl⟩ := List.mem_map.mp hcs
      simpa using (h word hword).1
    rw [hblank, hsplit hne, hkeep, List.map_map]
    simp

def isAsciiDigit (c : Char) : Bool := '0' ≤ c && c ≤ '9'

/-- The bytes of the UTF-8 encoding. -/
def utf8 (s : String) : List UInt8 := s.toByteArray.data.toList

theorem utf8_append (a b : String) : utf8 (a ++ b) = utf8 a ++ utf8 b := by
  rw [utf8, String.toByteArray_append, ByteArray.data_append, Array.toList_append]
  rfl

theorem utf8_inj {a b : String} : utf8 a = utf8 b ↔ a = b := by
  constructor
  · intro h
    apply String.toByteArray_inj.mp
    apply ByteArray.ext
    exact Array.toList_inj.mp h
  · intro h
    rw [h]

theorem utf8_cons (c : Char) (cs : List Char) :
    utf8 (String.ofList (c :: cs)) = String.utf8EncodeChar c ++ utf8 (String.ofList cs) := by
  rw [utf8, utf8, String.toByteArray_ofList, String.toByteArray_ofList, List.utf8Encode_cons]
  simp [List.utf8Encode]

theorem utf8EncodeChar_ascii {c : Char} (h : c.toNat < 128) :
    String.utf8EncodeChar c = [UInt8.ofNat c.toNat] := by
  have hsize : c.utf8Size = 1 := by
    rw [Char.utf8Size_eq_one_iff]
    exact UInt32.le_iff_toNat_le.mpr (Nat.le_of_lt_succ h)
  rw [String.utf8EncodeChar_eq_singleton hsize]
  rfl

theorem utf8_ofList_ascii {cs : List Char} (h : ∀ c ∈ cs, c.toNat < 128) :
    utf8 (String.ofList cs) = cs.map (fun c => UInt8.ofNat c.toNat) := by
  induction cs with
  | nil => rfl
  | cons c cs ih =>
      rw [List.forall_mem_cons] at h
      rw [utf8_cons, utf8EncodeChar_ascii h.1, ih h.2]
      rfl

theorem stripPrefix_eq_some_iff {pre s rest : String} :
    stripPrefix pre s = some rest ↔ s = pre ++ rest := by
  rw [stripPrefix]
  constructor
  · intro h
    split at h
    · rename_i hp
      obtain ⟨tail, htail⟩ := hp
      cases h
      rw [← htail, List.drop_left]
      apply String.toList_inj.mp
      simp [htail]
    · cases h
  · intro h
    simp [h]

theorem stripSuffix_eq_some_iff {suf s rest : String} :
    stripSuffix suf s = some rest ↔ s = rest ++ suf := by
  rw [stripSuffix]
  constructor
  · intro h
    split at h
    · rename_i hp
      obtain ⟨head, hhead⟩ := hp
      cases h
      apply String.toList_inj.mp
      simp [← hhead]
    · cases h
  · intro h
    simp [h]

theorem isInfix_utf8 {a b : String} (h : a.toList <:+: b.toList) : utf8 a <:+: utf8 b := by
  obtain ⟨before, after, h⟩ := h
  have hb : String.ofList before ++ a ++ String.ofList after = b := by
    rw [← String.ofList_toList (s := b), ← h]
    simp [String.append_assoc]
  refine ⟨utf8 (String.ofList before), utf8 (String.ofList after), ?_⟩
  rw [← utf8_append, ← utf8_append, hb]

/-- Each of the joined texts stands in the whole. -/
theorem infix_intercalate {sep line : String} {lines : List String} (h : line ∈ lines) :
    line.toList <:+: (String.intercalate sep lines).toList := by
  rw [String.toList_intercalate]
  induction lines with
  | nil => cases h
  | cons first rest ih =>
      cases rest with
      | nil =>
          rw [List.mem_singleton.mp h]
          exact ⟨[], [], by simp⟩
      | cons next rest =>
          simp only [List.map_cons, List.intercalate_cons_cons] at ih ⊢
          rcases List.mem_cons.mp h with rfl | h
          · rw [List.append_assoc]
            exact (List.prefix_append _ _).isInfix
          · exact (ih h).trans (List.suffix_append _ _).isInfix

def digitsValue (cs : List Char) : Nat := cs.foldl (fun n c => n * 10 + (c.toNat - '0'.toNat)) 0

/-- Decimal parse of an unsigned integer below `bound`: one optional leading
plus sign, then at least one digit. -/
def parseUnsigned (bound : Nat) (s : String) : Option Nat :=
  let digits := match s.toList with
    | '+' :: cs => cs
    | cs => cs
  if digits ≠ [] ∧ digits.all isAsciiDigit ∧ digitsValue digits < bound then some (digitsValue digits) else none

def parseU32 (s : String) : Option UInt32 := (parseUnsigned (2 ^ 32) s).map UInt32.ofNat

def parseU64 (s : String) : Option UInt64 := (parseUnsigned (2 ^ 64) s).map UInt64.ofNat

example : parseU64 "+007" = some 7 := by decide

example : trim " 8:0\n" = "8:0" := by decide

example : splitAsciiWhitespace " ro  a=b=c\n" = ["ro", "a=b=c"] := by decide

example : splitOnce '=' "a=b=c" = some ("a", "b=c") := by decide

end Beskar7Inspector.Lib.Text
