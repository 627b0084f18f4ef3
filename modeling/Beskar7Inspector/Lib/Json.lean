import Beskar7Inspector.Lib.Decimal
import Beskar7Inspector.Lib.Hexadecimal

namespace Beskar7Inspector.Lib.Json

open Lib.Text Lib.Decimal Lib.Hexadecimal

inductive Value
  | str (s : String)
  | num (n : Nat)
  | arr (items : List Value)
  | obj (fields : List (String × Value))

def quote : Char := Char.ofNat 0x22
def backslash : Char := Char.ofNat 0x5C

/-- The short escapes, each as the letter that stands for a character. -/
def shortEscapes : List (Char × Char) :=
  [(quote, quote), (backslash, backslash), (Char.ofNat 8, 'b'), (Char.ofNat 12, 'f'), (Char.ofNat 10, 'n'),
    (Char.ofNat 13, 'r'), (Char.ofNat 9, 't')]

def escape (c : Char) : List Char :=
  match shortEscapes.lookup c with
  | some letter => [backslash, letter]
  | none =>
      if c.toNat < 0x20 then [backslash, 'u', '0', '0', Nat.digitChar (c.toNat / 16), Nat.digitChar (c.toNat % 16)]
      else [c]

def renderString (s : String) : List Char := quote :: (s.toList.flatMap escape ++ [quote])

mutual

/-- The compact text of a value: no blanks, members in the order given. -/
def render : Value → List Char
  | .str s => renderString s
  | .num n => Nat.toDigits 10 n
  | .arr items => '[' :: (renderElements items ++ [']'])
  | .obj fields => '{' :: (renderMembers fields ++ ['}'])

def renderElements : List Value → List Char
  | [] => []
  | x :: xs => render x ++ if xs.isEmpty then [] else ',' :: renderElements xs

def renderMembers : List (String × Value) → List Char
  | [] => []
  | (key, x) :: fields =>
      renderString key ++ ':' :: render x ++ if fields.isEmpty then [] else ',' :: renderMembers fields

end

def isBlank (c : Char) : Bool := c == ' ' || c == '\t' || c == '\n' || c == '\r'

def token (cs : List Char) : List Char := cs.dropWhile isBlank

/-- The text behind the given mark, with blanks before it skipped. -/
def expect (c : Char) (cs : List Char) : Option (List Char) :=
  match token cs with
  | [] => none
  | d :: rest => if d = c then some rest else none

/-- A character by its four hexadecimal digits; no pairs of surrogates. -/
def codePoint (a b c d : Char) : Option Char := do
  let w ← hexDigitValue a
  let x ← hexDigitValue b
  let y ← hexDigitValue c
  let z ← hexDigitValue d
  let n := ((w * 16 + x) * 16 + y) * 16 + z
  if n.isValidChar then some (Char.ofNat n) else none

/-- The character of a short escape; a slash may be escaped too. -/
def unescape (letter : Char) : Option Char :=
  if letter = '/' then some '/' else (shortEscapes.find? (fun e => e.2 == letter)).map Prod.fst

/-- The rest of a string up to its closing quote. -/
def readString : List Char → Option (List Char × List Char)
  | [] => none
  | c :: rest =>
      if c = quote then some ([], rest)
      else if c = backslash then
        match rest with
        | 'u' :: w :: x :: y :: z :: rest => do
            let c ← codePoint w x y z
            let (cs, rest) ← readString rest
            some (c :: cs, rest)
        | letter :: rest => do
            let c ← unescape letter
            let (cs, rest) ← readString rest
            some (c :: cs, rest)
        | [] => none
      else if c.toNat < 0x20 then none
      else do
        let (cs, rest) ← readString rest
        some (c :: cs, rest)

/-- A natural number without a needless zero in front. -/
def readNumber (cs : List Char) : Option (Nat × List Char) :=
  let digits := cs.takeWhile isAsciiDigit
  if digits = [] ∨ (digits.head? = some '0' ∧ digits.length ≠ 1) then none
  else some (digitsValue digits, cs.dropWhile isAsciiDigit)

mutual

def readValue : Nat → List Char → Option (Value × List Char)
  | 0, _ => none
  | fuel + 1, cs =>
      match token cs with
      | [] => none
      | c :: rest =>
          if c = quote then do
            let (s, rest) ← readString rest
            some (.str (String.ofList s), rest)
          else if c = '[' then
            match expect ']' rest with
            | some rest => some (.arr [], rest)
            | none => do
                let (items, rest) ← readElements fuel rest
                some (.arr items, rest)
          else if c = '{' then
            match expect '}' rest with
            | some rest => some (.obj [], rest)
            | none => do
                let (fields, rest) ← readMembers fuel rest
                some (.obj fields, rest)
          else do
            let (n, rest) ← readNumber (c :: rest)
            some (.num n, rest)

def readElements : Nat → List Char → Option (List Value × List Char)
  | 0, _ => none
  | fuel + 1, cs => do
      let (x, rest) ← readValue fuel cs
      match expect ',' rest with
      | some rest =>
          let (xs, rest) ← readElements fuel rest
          some (x :: xs, rest)
      | none =>
          let rest ← expect ']' rest
          some ([x], rest)

def readMembers : Nat → List Char → Option (List (String × Value) × List Char)
  | 0, _ => none
  | fuel + 1, cs => do
      let rest ← expect quote cs
      let (key, rest) ← readString rest
      let rest ← expect ':' rest
      let (x, rest) ← readValue fuel rest
      match expect ',' rest with
      | some rest =>
          let (fields, rest) ← readMembers fuel rest
          some ((String.ofList key, x) :: fields, rest)
      | none =>
          let rest ← expect '}' rest
          some ([(String.ofList key, x)], rest)

end

/-- The value of a whole text, blanks around it allowed. -/
def parse (s : String) : Option Value := do
  let (j, rest) ← readValue (2 * s.length + 1) s.toList
  if token rest = [] then some j else none

theorem readString_cons {c : Char} (hquote : c ≠ quote) (hback : c ≠ backslash) (hcontrol : ¬ c.toNat < 0x20)
    {cs text rest : List Char} (h : readString text = some (cs, rest)) :
    readString (c :: text) = some (c :: cs, rest) := by
  rw [readString.eq_def]
  dsimp only
  rw [if_neg hquote, if_neg hback, if_neg hcontrol, h]
  rfl

theorem readString_short {letter : Char} (hu : letter ≠ 'u') {c : Char} (hc : unescape letter = some c)
    {cs text rest : List Char} (h : readString text = some (cs, rest)) :
    readString (backslash :: letter :: text) = some (c :: cs, rest) := by
  have hquote : backslash ≠ quote := by decide
  rw [readString.eq_def]
  dsimp only
  rw [if_neg hquote, if_pos rfl]
  split
  · rename_i heq
    cases heq
    exact absurd rfl hu
  · rename_i heq
    cases heq
    rw [hc, h]
    rfl
  · rename_i heq
    cases heq

theorem readString_long {c : Char} (hc : c.toNat < 0x20) {cs text rest : List Char}
    (h : readString text = some (cs, rest)) :
    readString (backslash :: 'u' :: '0' :: '0' :: Nat.digitChar (c.toNat / 16) :: Nat.digitChar (c.toNat % 16) :: text) =
      some (c :: cs, rest) := by
  have hquote : backslash ≠ quote := by decide
  have hzero : hexDigitValue '0' = some 0 := rfl
  have hn : ((0 * 16 + 0) * 16 + c.toNat / 16) * 16 + c.toNat % 16 = c.toNat := by omega
  have hcode : codePoint '0' '0' (Nat.digitChar (c.toNat / 16)) (Nat.digitChar (c.toNat % 16)) = some c := by
    rw [codePoint, hzero, hexDigitValue_digitChar (by omega), hexDigitValue_digitChar (by omega)]
    simp only [Option.bind_eq_bind, Option.bind_some, hn]
    have hvalid : c.toNat.isValidChar := c.valid
    rw [if_pos hvalid, Char.ofNat_toNat]
  rw [readString.eq_def]
  dsimp only
  rw [if_neg hquote, if_pos rfl]
  change (codePoint '0' '0' _ _).bind (fun c => (readString text).bind fun r => some (c :: r.1, r.2)) = _
  rw [hcode, h]
  rfl

theorem readString_escape (c : Char) {cs text rest : List Char} (h : readString text = some (cs, rest)) :
    readString (escape c ++ text) = some (c :: cs, rest) := by
  have hshort : ∀ e ∈ shortEscapes, e.2 ≠ 'u' ∧ unescape e.2 = some e.1 := by decide
  rw [escape]
  cases hlookup : shortEscapes.lookup c with
  | some letter =>
      obtain ⟨before, after, hmem, _⟩ := List.lookup_eq_some_iff.mp hlookup
      obtain ⟨hu, hback⟩ := hshort (c, letter) (hmem ▸ List.mem_append_right _ List.mem_cons_self)
      exact readString_short hu hback h
  | none =>
      rw [List.lookup_eq_none_iff] at hlookup
      have hquote : c ≠ quote := by simpa using hlookup (quote, quote) (by simp [shortEscapes])
      have hback : c ≠ backslash := by simpa using hlookup (backslash, backslash) (by simp [shortEscapes])
      dsimp only
      by_cases hcontrol : c.toNat < 0x20
      · rw [if_pos hcontrol]
        exact readString_long hcontrol h
      · rw [if_neg hcontrol]
        exact readString_cons hquote hback hcontrol h

/-- An escaped text is read back up to the quote that closes it. -/
theorem readString_flatMap (cs rest : List Char) :
    readString (cs.flatMap escape ++ quote :: rest) = some (cs, rest) := by
  induction cs with
  | nil =>
      rw [List.flatMap_nil, List.nil_append, readString.eq_def]
      exact if_pos rfl
  | cons c cs ih =>
      rw [List.flatMap_cons, List.append_assoc]
      exact readString_escape c ih

/-- What may stand behind a number: anything but a further digit. -/
def Stops (rest : List Char) : Prop := ∀ c, rest.head? = some c → isAsciiDigit c = false

theorem readNumber_toDigits (n : Nat) {rest : List Char} (h : Stops rest) :
    readNumber (Nat.toDigits 10 n ++ rest) = some (n, rest) := by
  have hdigits : ∀ c ∈ Nat.toDigits 10 n, isAsciiDigit c = true := fun c hc => isAsciiDigit_of_mem_toDigits hc
  have htake : (Nat.toDigits 10 n ++ rest).takeWhile isAsciiDigit = Nat.toDigits 10 n := by
    rw [List.takeWhile_append_of_pos hdigits]
    cases rest with
    | nil => simp
    | cons c rest => simp [h c rfl]
  have hdrop : (Nat.toDigits 10 n ++ rest).dropWhile isAsciiDigit = rest := by
    rw [List.dropWhile_append_of_pos hdigits]
    cases rest with
    | nil => rfl
    | cons c rest => simp [h c rfl]
  have hzero : ¬ ((Nat.toDigits 10 n).head? = some '0' ∧ (Nat.toDigits 10 n).length ≠ 1) := by
    rintro ⟨hhead, hlen⟩
    cases n with
    | zero => exact hlen rfl
    | succ n => exact head?_toDigits (Nat.succ_pos n) hhead
  rw [readNumber, htake, hdrop, if_neg (not_or.mpr ⟨Nat.toDigits_ne_nil, hzero⟩), digitsValue_toDigits]

theorem token_cons {c : Char} (h : isBlank c = false) (rest : List Char) : token (c :: rest) = c :: rest := by
  rw [token, List.dropWhile_cons_of_neg (by simp [h])]

theorem expect_self {c : Char} (h : isBlank c = false) (rest : List Char) : expect c (c :: rest) = some rest := by
  rw [expect, token_cons h]
  exact if_pos rfl

theorem expect_ne {c d : Char} (hd : isBlank d = false) (hne : d ≠ c) (rest : List Char) :
    expect c (d :: rest) = none := by
  rw [expect, token_cons hd]
  exact if_neg hne

/-- The first character of a value, none of the marks that may stand there instead. -/
theorem render_head (j : Value) : ∃ c rest, render j = c :: rest ∧ isBlank c = false ∧ c ≠ ']' := by
  cases j with
  | str s => exact ⟨quote, _, rfl, by decide, by decide⟩
  | arr items => exact ⟨'[', _, rfl, by decide, by decide⟩
  | obj fields => exact ⟨'{', _, rfl, by decide, by decide⟩
  | num n =>
      obtain ⟨c, rest, hcons⟩ := List.exists_cons_of_ne_nil (Nat.toDigits_ne_nil (b := 10) (n := n))
      have hdigit : isAsciiDigit c = true := isAsciiDigit_of_mem_toDigits (hcons ▸ List.mem_cons_self)
      refine ⟨c, rest, by rw [render, hcons], ?_, ?_⟩
      · rw [isAsciiDigit_iff] at hdigit
        simp only [isBlank, Bool.or_eq_false_iff, beq_eq_false_iff_ne, ne_eq]
        refine ⟨⟨⟨?_, ?_⟩, ?_⟩, ?_⟩ <;> rintro rfl <;> revert hdigit <;> decide
      · rintro rfl
        revert hdigit
        decide

theorem stops_cons {c : Char} (h : isAsciiDigit c = false) (rest : List Char) : Stops (c :: rest) := by
  intro d hd
  cases hd
  exact h

theorem readValue_string (fuel : Nat) (s : String) (rest : List Char) :
    readValue (fuel + 1) (renderString s ++ rest) = some (.str s, rest) := by
  have htext : renderString s ++ rest = quote :: (s.toList.flatMap escape ++ quote :: rest) := by simp [renderString]
  rw [htext, readValue, token_cons (by decide)]
  dsimp only
  rw [if_pos rfl, readString_flatMap]
  simp

theorem readValue_number (fuel n : Nat) {rest : List Char} (h : Stops rest) :
    readValue (fuel + 1) (Nat.toDigits 10 n ++ rest) = some (.num n, rest) := by
  obtain ⟨c, cs, hcons⟩ := List.exists_cons_of_ne_nil (Nat.toDigits_ne_nil (b := 10) (n := n))
  have hdigit : isAsciiDigit c = true := isAsciiDigit_of_mem_toDigits (hcons ▸ List.mem_cons_self)
  have hmark {d : Char} (hd : isAsciiDigit d = false) : c ≠ d := by
    rintro rfl
    rw [hd] at hdigit
    cases hdigit
  have hblank : isBlank c = false := by
    simp only [isBlank, Bool.or_eq_false_iff, beq_eq_false_iff_ne]
    exact ⟨⟨⟨hmark (by decide), hmark (by decide)⟩, hmark (by decide)⟩, hmark (by decide)⟩
  have hnumber := readNumber_toDigits n h
  rw [hcons] at hnumber ⊢
  rw [List.cons_append, readValue, token_cons hblank]
  dsimp only
  rw [if_neg (hmark (by decide)), if_neg (hmark (by decide)), if_neg (hmark (by decide)), ← List.cons_append, hnumber]
  rfl

theorem renderElements_cons (x : Value) (xs : List Value) (rest : List Char) : ∃ c text,
    renderElements (x :: xs) ++ rest = c :: text ∧ isBlank c = false ∧ c ≠ ']' := by
  obtain ⟨c, text, htext, hblank, hclose⟩ := render_head x
  exact ⟨c, _, by rw [renderElements, htext, List.cons_append, List.cons_append], hblank, hclose⟩

/-- With so much fuel the readers read back every text it is enough for. -/
def ReadsValues (fuel : Nat) : Prop := ∀ (j : Value) (rest : List Char), 2 * (render j).length ≤ fuel → Stops rest →
  readValue fuel (render j ++ rest) = some (j, rest)

def ReadsElements (fuel : Nat) : Prop := ∀ (items : List Value) (rest : List Char), items ≠ [] →
  2 * (renderElements items).length + 1 ≤ fuel →
  readElements fuel (renderElements items ++ ']' :: rest) = some (items, rest)

def ReadsMembers (fuel : Nat) : Prop := ∀ (fields : List (String × Value)) (rest : List Char), fields ≠ [] →
  2 * (renderMembers fields).length + 1 ≤ fuel →
  readMembers fuel (renderMembers fields ++ '}' :: rest) = some (fields, rest)

theorem readsValues_succ {fuel : Nat} (helements : ReadsElements fuel) (hmembers : ReadsMembers fuel) :
    ReadsValues (fuel + 1) := by
  intro j rest hfuel hrest
  cases j with
  | str s => exact readValue_string fuel s rest
  | num n => exact readValue_number fuel n hrest
  | arr items =>
      rw [render] at hfuel ⊢
      rw [List.length_cons, List.length_append, List.length_singleton] at hfuel
      rw [List.cons_append, List.append_assoc, List.singleton_append, readValue, token_cons (by decide)]
      dsimp only
      rw [if_neg (by decide), if_pos rfl]
      cases items with
      | nil =>
          rw [renderElements, List.nil_append, expect_self (by decide)]
      | cons x xs =>
          obtain ⟨c, text, htext, hblank, hclose⟩ := renderElements_cons x xs (']' :: rest)
          have hread := helements (x :: xs) rest (List.cons_ne_nil x xs) (by omega)
          rw [htext] at hread ⊢
          rw [expect_ne hblank hclose]
          dsimp only
          rw [hread]
          rfl
  | obj fields =>
      rw [render] at hfuel ⊢
      rw [List.length_cons, List.length_append, List.length_singleton] at hfuel
      rw [List.cons_append, List.append_assoc, List.singleton_append, readValue, token_cons (by decide)]
      dsimp only
      rw [if_neg (by decide), if_neg (by decide), if_pos rfl]
      cases fields with
      | nil =>
          rw [renderMembers, List.nil_append, expect_self (by decide)]
      | cons field fields =>
          have hread := hmembers (field :: fields) rest (List.cons_ne_nil _ _) (by omega)
          have hopen : expect '}' (renderMembers (field :: fields) ++ '}' :: rest) = none := by
            rw [renderMembers, renderString]
            exact expect_ne (by decide) (by decide) _
          rw [hopen]
          dsimp only
          rw [hread]
          rfl

theorem readsElements_succ {fuel : Nat} (hvalues : ReadsValues fuel) (helements : ReadsElements fuel) :
    ReadsElements (fuel + 1) := by
  intro items rest hne hfuel
  cases items with
  | nil => exact absurd rfl hne
  | cons x xs =>
      obtain ⟨_, _, hhead, _⟩ := render_head x
      have hlen : 1 ≤ (render x).length := by rw [hhead, List.length_cons]; omega
      rw [renderElements, List.length_append] at hfuel
      rw [renderElements, readElements, List.append_assoc]
      cases xs with
      | nil =>
          have hread := hvalues x (']' :: rest) (by omega) (stops_cons (by decide) rest)
          rw [List.isEmpty_nil, if_pos rfl, List.nil_append, hread]
          simp only [Option.bind_eq_bind, Option.bind_some]
          rw [expect_ne (by decide) (by decide)]
          dsimp only
          rw [expect_self (by decide)]
          rfl
      | cons y ys =>
          rw [List.isEmpty_cons, if_neg (by decide), List.length_cons] at hfuel
          have hread := hvalues x (',' :: (renderElements (y :: ys) ++ ']' :: rest)) (by omega)
            (stops_cons (by decide) _)
          have hmore := helements (y :: ys) rest (List.cons_ne_nil y ys) (by omega)
          rw [List.isEmpty_cons, if_neg (by decide), List.cons_append, hread]
          simp only [Option.bind_eq_bind, Option.bind_some]
          rw [expect_self (by decide)]
          dsimp only
          rw [hmore]
          rfl

theorem readsMembers_succ {fuel : Nat} (hvalues : ReadsValues fuel) (hmembers : ReadsMembers fuel) :
    ReadsMembers (fuel + 1) := by
  intro fields rest hne hfuel
  cases fields with
  | nil => exact absurd rfl hne
  | cons field fields =>
      obtain ⟨key, x⟩ := field
      have hkey (text : List Char) : renderString key ++ ':' :: text =
          quote :: (key.toList.flatMap escape ++ quote :: ':' :: text) := by simp [renderString]
      rw [renderMembers, List.length_append, List.length_append, List.length_cons] at hfuel
      rw [renderMembers, readMembers, List.append_assoc, List.append_assoc, List.cons_append, hkey,
        expect_self (by decide)]
      simp only [Option.bind_eq_bind, Option.bind_some, readString_flatMap]
      rw [expect_self (by decide)]
      simp only [Option.bind_some]
      cases fields with
      | nil =>
          have hread := hvalues x ('}' :: rest) (by omega) (stops_cons (by decide) rest)
          rw [List.isEmpty_nil, if_pos rfl, List.nil_append, hread]
          simp only [Option.bind_some]
          rw [expect_ne (by decide) (by decide)]
          dsimp only
          rw [expect_self (by decide)]
          simp
      | cons field fields =>
          rw [List.isEmpty_cons, if_neg (by decide), List.length_cons] at hfuel
          have hread := hvalues x (',' :: (renderMembers (field :: fields) ++ '}' :: rest)) (by omega)
            (stops_cons (by decide) _)
          have hmore := hmembers (field :: fields) rest (List.cons_ne_nil _ _) (by omega)
          rw [List.isEmpty_cons, if_neg (by decide), List.cons_append, hread]
          simp only [Option.bind_some]
          rw [expect_self (by decide)]
          dsimp only
          rw [hmore]
          simp

theorem reads (fuel : Nat) : ReadsValues fuel ∧ ReadsElements fuel ∧ ReadsMembers fuel := by
  induction fuel with
  | zero =>
      refine ⟨fun j rest hfuel _ => ?_, fun _ _ _ hfuel => absurd hfuel (by omega),
        fun _ _ _ hfuel => absurd hfuel (by omega)⟩
      obtain ⟨_, _, hhead, _⟩ := render_head j
      rw [hhead, List.length_cons] at hfuel
      omega
  | succ fuel ih =>
      obtain ⟨hvalues, helements, hmembers⟩ := ih
      exact ⟨readsValues_succ helements hmembers, readsElements_succ hvalues helements,
        readsMembers_succ hvalues hmembers⟩

/-- The compact text of a value is read back as that value. -/
theorem parse_render (j : Value) : parse (String.ofList (render j)) = some j := by
  have hread := (reads (2 * (render j).length + 1)).1 j [] (Nat.le_succ _) (by simp [Stops])
  rw [List.append_nil] at hread
  rw [parse, String.toList_ofList, String.length_ofList, hread]
  rfl

end Beskar7Inspector.Lib.Json
