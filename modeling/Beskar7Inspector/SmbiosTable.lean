import Beskar7Inspector.Smbios
import Mathlib.Data.List.Forall2

namespace Beskar7Inspector.SmbiosTable

open Lib.Text Lib.LittleEndian Lib.Slices Lib.Utf8 Smbios

theorem scanNul_eq {fuel : Nat} {front piece back : List UInt8} (hpiece : (0 : UInt8) ∉ piece)
    (hback : ∀ b ∈ back.head?, b = 0) (hfuel : piece.length < fuel) :
    scanNul (front ++ (piece ++ back)) fuel front.length = some (front.length + piece.length) := by
  induction piece generalizing front fuel with
  | nil =>
      cases fuel with
      | zero => omega
      | succ fuel =>
          cases back with
          | nil => simp [scanNul]
          | cons b back => simp [scanNul, hback b rfl]
  | cons b piece ih =>
      rw [List.mem_cons, not_or] at hpiece
      cases fuel with
      | zero => omega
      | succ fuel =>
          have hlist : front ++ b :: (piece ++ back) = (front ++ [b]) ++ (piece ++ back) := by simp
          have hnext : scanNul ((front ++ [b]) ++ (piece ++ back)) fuel (front ++ [b]).length = _ :=
            ih hpiece.2 (Nat.lt_of_succ_lt_succ hfuel)
          rw [scanNul, if_pos (by simp), List.cons_append, getElem?_middle]
          simp only [ne_eq, Ne.symm hpiece.1, not_false_eq_true, if_true]
          rw [List.length_append, List.length_singleton] at hnext
          rw [hlist, hnext, List.length_cons]
          congr 1
          omega

/-- Texts as a string set holds them: each with a zero byte behind it, and one
more at the end. -/
def setBytes (pieces : List (List UInt8)) : List UInt8 := pieces.flatMap (fun piece => piece ++ [0]) ++ [0]

theorem setBytes_cons (piece : List UInt8) (pieces : List (List UInt8)) :
    setBytes (piece :: pieces) = piece ++ 0 :: setBytes pieces := by
  simp [setBytes]

/-- No text holds a zero byte, and only the first may be empty. -/
def Pieces : List (List UInt8) → Prop
  | [] => False
  | piece :: pieces => (0 : UInt8) ∉ piece ∧ ∀ next ∈ pieces, next ≠ [] ∧ (0 : UInt8) ∉ next

theorem Pieces.tail {piece next : List UInt8} {pieces : List (List UInt8)} (h : Pieces (piece :: next :: pieces)) :
    Pieces (next :: pieces) := by
  obtain ⟨-, hrest⟩ := h
  rw [List.forall_mem_cons] at hrest
  exact ⟨hrest.1.2, hrest.2⟩

/-- One round of the string loop on a text that ends before the table does. -/
theorem stringLoop_step {fuel structOffset : Nat} {front piece back : List UInt8} {strings : List String}
    (hpiece : (0 : UInt8) ∉ piece) :
    stringLoop (front ++ (piece ++ 0 :: back)) structOffset (fuel + 1) front.length strings =
      match back with
      | [] => some (.error (.truncated structOffset))
      | b :: _ =>
          if b = 0 then some (.ok (strings ++ [fromUtf8Lossy piece], front.length + piece.length + 2))
          else stringLoop (front ++ (piece ++ 0 :: back)) structOffset fuel (front.length + piece.length + 1)
            (strings ++ [fromUtf8Lossy piece]) := by
  have hlen : (front ++ (piece ++ 0 :: back)).length = front.length + piece.length + 1 + back.length := by
    simp only [List.length_append, List.length_cons]
    omega
  have hscan : scanNul (front ++ (piece ++ 0 :: back)) ((front ++ (piece ++ 0 :: back)).length + 1) front.length =
      some (front.length + piece.length) := scanNul_eq hpiece (by simp) (by omega)
  have hnext : (front ++ (piece ++ 0 :: back))[front.length + piece.length + 1]? = back[0]? := by
    rw [show front ++ (piece ++ 0 :: back) = (front ++ (piece ++ [0])) ++ back by simp]
    have := getElem?_past (front ++ (piece ++ [0])) back 0
    simpa [Nat.add_assoc] using this
  rw [stringLoop, hscan]
  simp only [slice_append, hnext]
  rw [if_neg (by omega)]
  cases back with
  | nil => rfl
  | cons b back => rfl

theorem stringLoop_setBytes {pieces : List (List UInt8)} (hpieces : Pieces pieces) {structOffset fuel : Nat}
    (hfuel : pieces.length ≤ fuel) {front back : List UInt8} {strings : List String} :
    stringLoop (front ++ (setBytes pieces ++ back)) structOffset fuel front.length strings =
      some (.ok (strings ++ pieces.map fromUtf8Lossy, front.length + (setBytes pieces).length)) := by
  induction pieces generalizing front fuel strings with
  | nil => exact hpieces.elim
  | cons piece pieces ih =>
      obtain ⟨hpiece, hrest⟩ := hpieces
      cases fuel with
      | zero => simp at hfuel
      | succ fuel =>
          rw [setBytes_cons, List.append_assoc, List.cons_append, stringLoop_step hpiece]
          cases pieces with
          | nil => simp [setBytes, Nat.add_assoc]
          | cons next pieces =>
              have hnext := hrest next (List.mem_cons_self ..)
              obtain ⟨b, more, rfl⟩ := List.exists_cons_of_ne_nil hnext.1
              have hb : b ≠ 0 := by
                intro hzero
                exact hnext.2 (hzero ▸ List.mem_cons_self ..)
              have hset : setBytes ((b :: more) :: pieces) ++ back = b :: (more ++ 0 :: setBytes pieces ++ back) := by
                rw [setBytes_cons]
                simp
              have hlist : front ++ (piece ++ 0 :: (setBytes ((b :: more) :: pieces) ++ back)) =
                  (front ++ piece ++ [0]) ++ (setBytes ((b :: more) :: pieces) ++ back) := by simp
              have hgo : stringLoop ((front ++ piece ++ [0]) ++ (setBytes ((b :: more) :: pieces) ++ back))
                  structOffset fuel (front ++ piece ++ [0]).length (strings ++ [fromUtf8Lossy piece]) = _ :=
                ih (Pieces.tail ⟨hpiece, hrest⟩) (Nat.le_of_succ_le_succ hfuel)
              rw [← hlist, List.length_append, List.length_append, List.length_singleton] at hgo
              rw [hset] at hgo ⊢
              simp only [hb, if_false, hgo]
              simp only [List.map_cons, List.append_assoc, List.singleton_append, setBytes_cons, List.length_append,
                List.length_cons]
              congr 3
              omega

/-- The bytes before the first zero byte, and the rest. -/
theorem exists_nul_split (rest : List UInt8) :
    ∃ piece back, rest = piece ++ back ∧ (0 : UInt8) ∉ piece ∧ ∀ b ∈ back.head?, b = 0 := by
  induction rest with
  | nil => exact ⟨[], [], rfl, List.not_mem_nil, by simp⟩
  | cons b rest ih =>
      by_cases hb : b = 0
      · exact ⟨[], b :: rest, rfl, List.not_mem_nil, by simpa using hb⟩
      · obtain ⟨piece, back, rfl, hpiece, hback⟩ := ih
        refine ⟨b :: piece, back, rfl, ?_, hback⟩
        rw [List.mem_cons, not_or]
        exact ⟨Ne.symm hb, hpiece⟩

/-- The loop reads a string set, or it runs into the end of the table. -/
theorem stringLoop_outcome {structOffset fuel : Nat} {front rest : List UInt8} {strings : List String}
    (hfuel : rest.length < fuel) :
    stringLoop (front ++ rest) structOffset fuel front.length strings = some (.error (.truncated structOffset)) ∨
      ∃ pieces back, Pieces pieces ∧ rest = setBytes pieces ++ back := by
  induction fuel generalizing front rest strings with
  | zero => omega
  | succ fuel ih =>
      obtain ⟨piece, back, rfl, hpiece, hback⟩ := exists_nul_split rest
      cases back with
      | nil =>
          have hscan : scanNul (front ++ (piece ++ [])) ((front ++ (piece ++ [])).length + 1) front.length =
              some (front.length + piece.length) :=
            scanNul_eq hpiece hback (by rw [List.length_append, List.length_append]; omega)
          left
          rw [stringLoop, hscan]
          simp
      | cons b back =>
          have hb : b = 0 := hback b rfl
          subst hb
          rw [stringLoop_step hpiece]
          cases back with
          | nil => exact .inl rfl
          | cons b back =>
              by_cases hb : b = 0
              · right
                refine ⟨[piece], back, ⟨hpiece, by simp⟩, ?_⟩
                simp [setBytes, hb]
              · have hlist : front ++ (piece ++ 0 :: b :: back) = (front ++ piece ++ [0]) ++ b :: back := by simp
                have hlen : front.length + piece.length + 1 = (front ++ piece ++ [0]).length := by simp [Nat.add_assoc]
                have hrest : (b :: back).length < fuel := by
                  simp only [List.length_append, List.length_cons] at hfuel ⊢
                  omega
                simp only [hb, if_false]
                rw [hlist, hlen]
                apply (ih hrest).imp_right
                intro hset
                obtain ⟨pieces, tail, hpieces, heq⟩ := hset
                refine ⟨piece :: pieces, tail, ⟨hpiece, ?_⟩, by rw [heq, setBytes_cons]; simp⟩
                cases pieces with
                | nil => exact hpieces.elim
                | cons next pieces =>
                    obtain ⟨hnext, hmore⟩ := hpieces
                    rw [List.forall_mem_cons]
                    refine ⟨⟨?_, hnext⟩, hmore⟩
                    intro hempty
                    rw [hempty, setBytes_cons, List.nil_append, List.cons_append, List.cons.injEq] at heq
                    exact hb heq.1

/-- The bytes of a string set and the texts in it. -/
inductive StringSet : List UInt8 → List String → Prop
  | empty : StringSet [0, 0] []
  | texts {pieces : List (List UInt8)} (hpieces : Pieces pieces) (hne : pieces ≠ [[]]) :
      StringSet (setBytes pieces) (pieces.map fromUtf8Lossy)

theorem setBytes_of_ne {pieces : List (List UInt8)} (hpieces : Pieces pieces) (hne : pieces ≠ [[]]) :
    ∃ a b more, setBytes pieces = a :: b :: more ∧ ¬ (a = 0 ∧ b = 0) := by
  cases pieces with
  | nil => exact hpieces.elim
  | cons piece pieces =>
      obtain ⟨hpiece, hrest⟩ := hpieces
      cases piece with
      | nil =>
          cases pieces with
          | nil => exact absurd rfl hne
          | cons next pieces =>
              have hnext := hrest next (List.mem_cons_self ..)
              obtain ⟨b, more, rfl⟩ := List.exists_cons_of_ne_nil hnext.1
              refine ⟨0, b, more ++ 0 :: setBytes pieces, by rw [setBytes_cons, setBytes_cons]; rfl, ?_⟩
              intro h
              exact hnext.2 (h.2 ▸ List.mem_cons_self ..)
      | cons a more =>
          rw [List.mem_cons, not_or] at hpiece
          cases more with
          | nil =>
              refine ⟨a, 0, setBytes pieces, by rw [setBytes_cons]; rfl, ?_⟩
              intro h
              exact hpiece.1 h.1.symm
          | cons b more =>
              refine ⟨a, b, more ++ 0 :: setBytes pieces, by rw [setBytes_cons]; rfl, ?_⟩
              intro h
              exact hpiece.1 h.1.symm

theorem StringSet.two_le_length {set : List UInt8} {strings : List String} (h : StringSet set strings) :
    2 ≤ set.length := by
  cases h with
  | empty => exact Nat.le_refl 2
  | texts hpieces hne =>
      obtain ⟨a, b, more, hset, -⟩ := setBytes_of_ne hpieces hne
      rw [hset]
      simp

theorem pieces_length_le (pieces : List (List UInt8)) : pieces.length ≤ (setBytes pieces).length := by
  induction pieces with
  | nil => simp
  | cons piece pieces ih =>
      rw [setBytes_cons, List.length_append, List.length_cons, List.length_cons]
      omega

theorem parseStringSet_pair {a b : UInt8} {front more : List UInt8} {structOffset : Nat} :
    parseStringSet (front ++ a :: b :: more) front.length structOffset =
      if a = 0 ∧ b = 0 then some (.ok ([], front.length + 2))
      else stringLoop (front ++ a :: b :: more) structOffset ((front ++ a :: b :: more).length + 1) front.length [] := by
  have hsecond := getElem?_past front (a :: b :: more) 1
  rw [parseStringSet, if_neg (by simp), getElem?_middle, hsecond]
  rfl

theorem parseStringSet_reads {set : List UInt8} {strings : List String} (h : StringSet set strings)
    (front back : List UInt8) (structOffset : Nat) :
    parseStringSet (front ++ (set ++ back)) front.length structOffset =
      some (.ok (strings, front.length + set.length)) := by
  cases h with
  | empty => exact parseStringSet_pair.trans (if_pos ⟨rfl, rfl⟩)
  | texts hpieces hne =>
      rename_i pieces
      obtain ⟨a, b, more, hset, hab⟩ := setBytes_of_ne hpieces hne
      have hfuel : pieces.length ≤ (front ++ (setBytes pieces ++ back)).length + 1 := by
        have := pieces_length_le pieces
        simp only [List.length_append]
        omega
      have hloop : stringLoop (front ++ (setBytes pieces ++ back)) structOffset _ front.length [] = _ :=
        stringLoop_setBytes hpieces hfuel
      rw [hset] at hloop ⊢
      exact (parseStringSet_pair.trans (if_neg hab)).trans hloop

theorem parseStringSet_outcome (front rest : List UInt8) (structOffset : Nat) :
    parseStringSet (front ++ rest) front.length structOffset = some (.error (.truncated structOffset)) ∨
      ∃ set strings back, StringSet set strings ∧ rest = set ++ back := by
  match rest with
  | [] => exact .inl (if_pos (by simp))
  | [a] => exact .inl (if_pos (by simp))
  | a :: b :: more =>
      by_cases hab : a = 0 ∧ b = 0
      · obtain ⟨rfl, rfl⟩ := hab
        exact .inr ⟨[0, 0], [], more, .empty, rfl⟩
      · rw [parseStringSet_pair, if_neg hab]
        have hfuel : (a :: b :: more).length < (front ++ a :: b :: more).length + 1 := by
          rw [List.length_append]
          omega
        apply (stringLoop_outcome hfuel).imp_right
        intro h
        obtain ⟨pieces, back, hpieces, heq⟩ := h
        refine ⟨setBytes pieces, _, back, .texts hpieces ?_, heq⟩
        intro hempty
        rw [hempty] at heq
        cases heq
        exact hab ⟨rfl, rfl⟩

/-- The bytes one structure occupies. -/
inductive Reads : List UInt8 → Structure → Prop
  | mk {headerType length lo hi : UInt8} {formatted set : List UInt8} {strings : List String}
      (hlength : length.toNat = 4 + formatted.length) (hset : StringSet set strings) :
      Reads ((headerType :: length :: lo :: hi :: formatted) ++ set)
        ⟨headerType, UInt16.ofNat (decode [lo, hi]), headerType :: length :: lo :: hi :: formatted, strings⟩

theorem Reads.six_le_length {slice : List UInt8} {s : Structure} (h : Reads slice s) : 6 ≤ slice.length := by
  cases h with
  | mk hlength hset =>
      have := hset.two_le_length
      simp only [List.length_append, List.length_cons]
      omega

/-- One round of the table loop where a header stands. -/
theorem tableLoop_step {fuel : Nat} {front rest : List UInt8} {headerType length lo hi : UInt8}
    {structures : List Structure} :
    tableLoop (front ++ headerType :: length :: lo :: hi :: rest) (fuel + 1) front.length structures =
      if length.toNat < 4 then some (.error (.badLength front.length length.toNat))
      else if rest.length + 4 < length.toNat then some (.error (.truncated front.length))
      else match parseStringSet (front ++ headerType :: length :: lo :: hi :: rest) (front.length + length.toNat)
          front.length with
        | none => none
        | some (.error e) => some (.error e)
        | some (.ok (strings, next)) =>
            let structures := structures ++ [⟨headerType, UInt16.ofNat (decode [lo, hi]),
              headerType :: length :: lo :: hi :: rest.take (length.toNat - 4), strings⟩]
            if headerType = typeEndOfTable then some (.ok structures)
            else tableLoop (front ++ headerType :: length :: lo :: hi :: rest) fuel next structures := by
  have hlen : (front ++ headerType :: length :: lo :: hi :: rest).length = front.length + (rest.length + 4) := by
    simp [Nat.add_assoc]
  have h0 := getElem?_past front (headerType :: length :: lo :: hi :: rest) 0
  have h1 := getElem?_past front (headerType :: length :: lo :: hi :: rest) 1
  have h2 := getElem?_past front (headerType :: length :: lo :: hi :: rest) 2
  have h3 := getElem?_past front (headerType :: length :: lo :: hi :: rest) 3
  simp only [List.getElem?_cons_zero, List.getElem?_cons_succ, Nat.add_zero] at h0 h1 h2 h3
  rw [tableLoop, if_pos (by omega), h0, h1, h2, h3]
  simp only [hlen]
  by_cases hshort : length.toNat < 4
  · rw [if_pos hshort, if_pos hshort]
  · rw [if_neg hshort, if_neg hshort]
    by_cases hfit : rest.length + 4 < length.toNat
    · rw [if_pos hfit, if_pos (by omega)]
    · have hdata : slice (front ++ headerType :: length :: lo :: hi :: rest) front.length (front.length + length.toNat) =
          some (headerType :: length :: lo :: hi :: rest.take (length.toNat - 4)) := by
        have hsplit : headerType :: length :: lo :: hi :: rest =
            (headerType :: length :: lo :: hi :: rest.take (length.toNat - 4)) ++ rest.drop (length.toNat - 4) := by
          simp
        have htake : (headerType :: length :: lo :: hi :: rest.take (length.toNat - 4)).length = length.toNat := by
          simp only [List.length_cons, List.length_take]
          omega
        have hslice := slice_append front (headerType :: length :: lo :: hi :: rest.take (length.toNat - 4))
          (rest.drop (length.toNat - 4))
        rwa [htake, ← hsplit] at hslice
      rw [if_neg hfit, if_neg (by omega)]
      cases parseStringSet (front ++ headerType :: length :: lo :: hi :: rest) (front.length + length.toNat)
        front.length with
      | none => simp only [hdata]
      | some r =>
          cases r with
          | error e => simp only [hdata]
          | ok r => simp only [hdata]

theorem tableLoop_short {fuel : Nat} {front rest : List UInt8} {structures : List Structure} (h : rest.length < 4) :
    tableLoop (front ++ rest) (fuel + 1) front.length structures = some (.ok structures) := by
  rw [tableLoop, if_neg (by rw [List.length_append]; omega)]

theorem tableLoop_reads {fuel : Nat} {front slice back : List UInt8} {structures : List Structure} {s : Structure}
    (h : Reads slice s) :
    tableLoop (front ++ (slice ++ back)) (fuel + 1) front.length structures =
      if s.headerType = typeEndOfTable then some (.ok (structures ++ [s]))
      else tableLoop (front ++ (slice ++ back)) fuel (front.length + slice.length) (structures ++ [s]) := by
  cases h with
  | mk hlength hset =>
      rename_i headerType length lo hi formatted set strings
      have hlist : front ++ (headerType :: length :: lo :: hi :: formatted ++ set ++ back) =
          front ++ headerType :: length :: lo :: hi :: (formatted ++ (set ++ back)) := by simp
      have hfront : front ++ headerType :: length :: lo :: hi :: (formatted ++ (set ++ back)) =
          (front ++ headerType :: length :: lo :: hi :: formatted) ++ (set ++ back) := by simp
      have hstart : front.length + length.toNat = (front ++ headerType :: length :: lo :: hi :: formatted).length := by
        simp only [List.length_append, List.length_cons]
        omega
      have hstrings : parseStringSet (front ++ headerType :: length :: lo :: hi :: (formatted ++ (set ++ back)))
          (front.length + length.toNat) front.length =
            some (.ok (strings, front.length + (headerType :: length :: lo :: hi :: formatted ++ set).length)) := by
        rw [hfront, hstart, parseStringSet_reads hset]
        simp only [List.length_append, Nat.add_assoc]
      rw [hlist, tableLoop_step, if_neg (by omega), if_neg (by simp only [List.length_append]; omega), hstrings]
      have htake : (formatted ++ (set ++ back)).take (length.toNat - 4) = formatted := by
        rw [hlength, Nat.add_sub_cancel_left, List.take_left]
      simp only [htake]

/-- The header at the front of `rest` declares too short a length, or its
structure does not end before the table does. -/
def Offends (rest : List UInt8) (offset : Nat) (e : SmbiosError) : Prop :=
  ∃ length, rest[1]? = some length ∧
    if length.toNat < 4 then e = .badLength offset length.toNat
    else e = .truncated offset ∧ ∀ slice back s, rest = slice ++ back → ¬ Reads slice s

theorem tableLoop_offends {fuel : Nat} {front rest : List UInt8} {structures : List Structure} (hlen : 4 ≤ rest.length)
    (h : ∀ slice back s, rest = slice ++ back → ¬ Reads slice s) :
    ∃ e, tableLoop (front ++ rest) (fuel + 1) front.length structures = some (.error e) ∧
      Offends rest front.length e := by
  match rest, hlen with
  | headerType :: length :: lo :: hi :: rest, _ =>
      rw [tableLoop_step]
      by_cases hshort : length.toNat < 4
      · exact ⟨_, if_pos hshort, length, rfl, by rw [if_pos hshort]⟩
      · refine ⟨.truncated front.length, ?_, length, rfl, by rw [if_neg hshort]; exact ⟨rfl, h⟩⟩
        rw [if_neg hshort]
        by_cases hfit : rest.length + 4 < length.toNat
        · rw [if_pos hfit]
        · rw [if_neg hfit]
          have hfront : front ++ headerType :: length :: lo :: hi :: rest =
              (front ++ headerType :: length :: lo :: hi :: rest.take (length.toNat - 4)) ++
                rest.drop (length.toNat - 4) := by simp
          have hstart : front.length + length.toNat =
              (front ++ headerType :: length :: lo :: hi :: rest.take (length.toNat - 4)).length := by
            simp only [List.length_append, List.length_cons, List.length_take]
            omega
          obtain htrunc | ⟨set, strings, back, hset, hdrop⟩ := parseStringSet_outcome
            (front ++ headerType :: length :: lo :: hi :: rest.take (length.toNat - 4)) (rest.drop (length.toNat - 4))
            front.length
          · rw [hfront, hstart, htrunc]
          · exfalso
            have hlength : length.toNat = 4 + (rest.take (length.toNat - 4)).length := by
              rw [List.length_take]
              omega
            have hwhole : headerType :: length :: lo :: hi :: rest =
                (headerType :: length :: lo :: hi :: rest.take (length.toNat - 4) ++ set) ++ back := by
              rw [List.append_assoc, ← hdrop]
              simp
            exact h _ _ _ hwhole (.mk hlength hset)

/-- The table's structures, each in the bytes next to those of the one before. -/
def Laid (raw : List UInt8) (slices : List (List UInt8)) (structures : List Structure) (tail : List UInt8) : Prop :=
  raw = slices.flatten ++ tail ∧ List.Forall₂ Reads slices structures

/-- What a table is read as: its structures up to the end-of-table structure or
a tail too short for a header, or the error of the structure that offends. -/
def TableOutcome (raw : List UInt8) : Except SmbiosError (List Structure) → Prop
  | .ok structures => ∃ slices tail, Laid raw slices structures tail ∧
      (∀ s ∈ structures.dropLast, s.headerType ≠ typeEndOfTable) ∧
      ((∃ last, structures.getLast? = some last ∧ last.headerType = typeEndOfTable) ∨
        ((∀ s ∈ structures, s.headerType ≠ typeEndOfTable) ∧ tail.length < 4))
  | .error e => ∃ slices structures tail, Laid raw slices structures tail ∧
      (∀ s ∈ structures, s.headerType ≠ typeEndOfTable) ∧ 4 ≤ tail.length ∧ Offends tail slices.flatten.length e

theorem tableLoop_outcome {raw rest : List UInt8} {slices : List (List UInt8)} {structures : List Structure} {fuel : Nat}
    (hlaid : Laid raw slices structures rest) (hgo : ∀ s ∈ structures, s.headerType ≠ typeEndOfTable)
    (hfuel : rest.length < fuel) :
    ∃ r, tableLoop raw fuel slices.flatten.length structures = some r ∧ TableOutcome raw r := by
  induction fuel generalizing slices structures rest with
  | zero => omega
  | succ fuel ih =>
      obtain ⟨hraw, hreads⟩ := hlaid
      by_cases hshort : rest.length < 4
      · refine ⟨.ok structures, by rw [hraw]; exact tableLoop_short hshort, slices, rest, ⟨hraw, hreads⟩, ?_, ?_⟩
        · intro s hs
          exact hgo s (List.dropLast_subset _ hs)
        · exact .inr ⟨hgo, hshort⟩
      · by_cases hread : ∃ slice back s, rest = slice ++ back ∧ Reads slice s
        · obtain ⟨slice, back, s, rfl, hs⟩ := hread
          have hsix := hs.six_le_length
          have hlaid' : Laid raw (slices ++ [slice]) (structures ++ [s]) back := by
            refine ⟨?_, List.rel_append hreads (.cons hs .nil)⟩
            rw [hraw, List.flatten_append]
            simp
          have hstep : tableLoop (slices.flatten ++ (slice ++ back)) (fuel + 1) slices.flatten.length structures = _ :=
            tableLoop_reads hs
          rw [← hraw] at hstep
          rw [hstep]
          by_cases hend : s.headerType = typeEndOfTable
          · refine ⟨.ok (structures ++ [s]), if_pos hend, slices ++ [slice], back, hlaid', ?_, .inl ⟨s, by simp, hend⟩⟩
            rw [List.dropLast_concat]
            exact hgo
          · rw [if_neg hend]
            have hlen : slices.flatten.length + slice.length = (slices ++ [slice]).flatten.length := by simp
            rw [hlen]
            apply ih hlaid'
            · intro s' hs'
              rcases List.mem_append.mp hs' with hs' | hs'
              · exact hgo s' hs'
              · rwa [List.mem_singleton.mp hs']
            · rw [List.length_append] at hfuel
              omega
        · have hnone : ∀ slice back s, rest = slice ++ back → ¬ Reads slice s := by
            intro slice back s heq hs
            exact hread ⟨slice, back, s, heq, hs⟩
          have hlen : 4 ≤ rest.length := by omega
          obtain ⟨e, hloop, hoff⟩ : ∃ e, tableLoop (slices.flatten ++ rest) (fuel + 1) slices.flatten.length structures =
              some (.error e) ∧ Offends rest slices.flatten.length e := tableLoop_offends hlen hnone
          refine ⟨.error e, by rw [hraw]; exact hloop, slices, structures, rest, ⟨hraw, hreads⟩, hgo, hlen, hoff⟩

/-- Every byte string is read to the end, without an index out of range. -/
theorem parseTable_outcome (raw : List UInt8) : ∃ r, parseTable raw = some r ∧ TableOutcome raw r := by
  have hlaid : Laid raw [] [] raw := ⟨rfl, .nil⟩
  exact tableLoop_outcome hlaid (by simp) (by omega)

/-- A structure that can be laid out: its length fits the length byte, and its
texts are told apart from the zero bytes between them. -/
structure Encodable where
  headerType : UInt8
  handle : UInt16
  formatted : List UInt8
  strings : List String
  fits : formatted.length ≤ 251
  plain : ∀ s ∈ strings, s ≠ "" ∧ '\x00' ∉ s.toList

namespace Encodable

def encode (e : Encodable) : List UInt8 := encodeStructure e.headerType e.handle e.formatted e.strings

def header (e : Encodable) : List UInt8 :=
  [e.headerType, UInt8.ofNat (4 + e.formatted.length), (e.handle &&& 0xff).toUInt8, (e.handle >>> 8).toUInt8]

def decoded (e : Encodable) : Structure := ⟨e.headerType, e.handle, e.header ++ e.formatted, e.strings⟩

end Encodable

theorem handle_bytes (handle : UInt16) :
    UInt16.ofNat (decode [(handle &&& 0xff).toUInt8, (handle >>> 8).toUInt8]) = handle := by
  have hlt := handle.toNat_lt
  have hlo : (handle &&& 0xff).toUInt8.toNat = handle.toNat % 256 := by
    rw [UInt16.toNat_toUInt8, UInt16.toNat_and]
    change (handle.toNat &&& 2 ^ 8 - 1) % 256 = _
    rw [Nat.and_two_pow_sub_one_eq_mod]
    omega
  have hhi : (handle >>> 8).toUInt8.toNat = handle.toNat / 256 := by
    have hshift : (handle >>> 8).toNat = handle.toNat / 256 := by
      simp [Nat.shiftRight_eq_div_pow]
    rw [UInt16.toNat_toUInt8, hshift]
    omega
  have hvalue : decode [(handle &&& 0xff).toUInt8, (handle >>> 8).toUInt8] = handle.toNat := by
    simp only [decode, hlo, hhi]
    omega
  rw [hvalue, UInt16.ofNat_toNat]

theorem pieces_utf8 {strings : List String} (hne : strings ≠ []) (h : ∀ s ∈ strings, s ≠ "" ∧ '\x00' ∉ s.toList) :
    Pieces (strings.map utf8) ∧ strings.map utf8 ≠ [[]] := by
  have hpiece : ∀ s ∈ strings, utf8 s ≠ [] ∧ (0 : UInt8) ∉ utf8 s := by
    intro s hs
    refine ⟨?_, zero_not_mem_utf8 (h s hs).2⟩
    intro hempty
    exact (h s hs).1 (utf8_inj.mp (hempty.trans rfl))
  cases strings with
  | nil => exact absurd rfl hne
  | cons s strings =>
      rw [List.forall_mem_cons] at hpiece
      rw [List.map_cons]
      refine ⟨⟨hpiece.1.2, ?_⟩, ?_⟩
      · intro next hnext
        obtain ⟨t, ht, rfl⟩ := List.mem_map.mp hnext
        exact hpiece.2 t ht
      · intro hsingle
        exact hpiece.1.1 (List.cons.inj hsingle).1

theorem stringSet_encoded {strings : List String} (h : ∀ s ∈ strings, s ≠ "" ∧ '\x00' ∉ s.toList) :
    StringSet (if strings.isEmpty then [0, 0] else strings.flatMap (fun s => utf8 s ++ [0]) ++ [0]) strings := by
  by_cases hne : strings = []
  · subst hne
    exact .empty
  · obtain ⟨hpieces, hsingle⟩ := pieces_utf8 hne h
    have hset := StringSet.texts hpieces hsingle
    have hback : (strings.map utf8).map fromUtf8Lossy = strings := by
      have hid : fromUtf8Lossy ∘ utf8 = id := by
        funext s
        exact fromUtf8Lossy_utf8 s
      rw [List.map_map, hid, List.map_id]
    rw [hback, setBytes, List.flatMap_map] at hset
    rw [if_neg (by simpa using hne)]
    exact hset

theorem reads_encode (e : Encodable) : Reads e.encode e.decoded := by
  have hfits := e.fits
  have hlength : (UInt8.ofNat (4 + e.formatted.length)).toNat = 4 + e.formatted.length := toNat_byte (by omega)
  have hdecoded : e.decoded = ⟨e.headerType, UInt16.ofNat (decode [(e.handle &&& 0xff).toUInt8, (e.handle >>> 8).toUInt8]),
      e.header ++ e.formatted, e.strings⟩ := by
    rw [handle_bytes]
    rfl
  rw [hdecoded]
  exact .mk hlength (stringSet_encoded e.plain)

/-- A table as far as its first end-of-table structure. -/
def throughEnd : List Encodable → List Encodable
  | [] => []
  | e :: es => if e.headerType = typeEndOfTable then [e] else e :: throughEnd es

theorem tableLoop_encoded {es : List Encodable} {front tail : List UInt8} {fuel : Nat} {structures : List Structure}
    (htail : tail.length < 4 ∨ ∃ e ∈ es, e.headerType = typeEndOfTable) (hfuel : es.length < fuel) :
    tableLoop (front ++ (es.flatMap Encodable.encode ++ tail)) fuel front.length structures =
      some (.ok (structures ++ (throughEnd es).map Encodable.decoded)) := by
  induction es generalizing front fuel structures with
  | nil =>
      cases fuel with
      | zero => omega
      | succ fuel =>
          have hshort : ([].flatMap Encodable.encode ++ tail).length < 4 := by
            simpa using htail
          rw [tableLoop_short hshort, throughEnd, List.map_nil, List.append_nil]
  | cons e es ih =>
      cases fuel with
      | zero => omega
      | succ fuel =>
          rw [List.flatMap_cons, List.append_assoc, tableLoop_reads (reads_encode e), throughEnd]
          by_cases hend : e.headerType = typeEndOfTable
          · rw [if_pos hend]
            exact if_pos hend
          · have htail' : tail.length < 4 ∨ ∃ e ∈ es, e.headerType = typeEndOfTable := by
              apply htail.imp_right
              intro h
              obtain ⟨e', he', hend'⟩ := h
              rcases List.mem_cons.mp he' with rfl | he'
              · exact absurd hend' hend
              · exact ⟨e', he', hend'⟩
            have hgo : tableLoop ((front ++ e.encode) ++ (es.flatMap Encodable.encode ++ tail)) fuel
                (front ++ e.encode).length (structures ++ [e.decoded]) = _ :=
              ih htail' (Nat.lt_of_succ_lt_succ hfuel)
            rw [List.append_assoc, List.length_append] at hgo
            rw [if_neg hend]
            refine (if_neg hend).trans (hgo.trans ?_)
            simp

theorem encode_length_pos (e : Encodable) : 1 ≤ e.encode.length := by
  have := (reads_encode e).six_le_length
  omega

theorem parseTable_encoded {es : List Encodable} {tail : List UInt8}
    (htail : tail.length < 4 ∨ ∃ e ∈ es, e.headerType = typeEndOfTable) :
    parseTable (es.flatMap Encodable.encode ++ tail) = some (.ok ((throughEnd es).map Encodable.decoded)) := by
  have hcount : ∀ es : List Encodable, es.length ≤ (es.flatMap Encodable.encode).length := by
    intro es
    induction es with
    | nil => simp
    | cons e es ih =>
        have := encode_length_pos e
        rw [List.flatMap_cons, List.length_append, List.length_cons]
        omega
  have hfuel : es.length < (es.flatMap Encodable.encode ++ tail).length + 1 := by
    have := hcount es
    rw [List.length_append]
    omega
  have hgo : tableLoop ([] ++ (es.flatMap Encodable.encode ++ tail)) _ ([] : List UInt8).length [] = _ :=
    tableLoop_encoded htail hfuel
  exact hgo

/-- Every field of a structure stands at its encoded value. -/
structure FieldsAsEncoded (e : Encodable) (s : Structure) : Prop where
  headerType : s.headerType = e.headerType
  handle : s.handle = e.handle
  strings : s.strings = e.strings
  byte : ∀ i, s.byte (4 + i) = e.formatted[i]?
  word : ∀ before after (v : UInt16), e.formatted = before ++ (Lib.LittleEndian.encode 2 v.toNat ++ after) →
    s.word (4 + before.length) = some v
  dword : ∀ before after (v : UInt32), e.formatted = before ++ (Lib.LittleEndian.encode 4 v.toNat ++ after) →
    s.dword (4 + before.length) = some v
  qword : ∀ before after (v : UInt64), e.formatted = before ++ (Lib.LittleEndian.encode 8 v.toNat ++ after) →
    s.qword (4 + before.length) = some v
  string : ∀ i number, e.formatted[i]? = some number →
    s.string (4 + i) = if number = 0 then none else e.strings[number.toNat - 1]?

theorem slice_field {e : Encodable} {before after : List UInt8} {width n : Nat}
    (h : e.formatted = before ++ (Lib.LittleEndian.encode width n ++ after)) :
    slice e.decoded.data (4 + before.length) (4 + before.length + width) = some (Lib.LittleEndian.encode width n) := by
  have hdata : e.decoded.data = (e.header ++ before) ++ (Lib.LittleEndian.encode width n ++ after) := by
    change e.header ++ e.formatted = _
    rw [h, List.append_assoc]
  have hlen : (e.header ++ before).length = 4 + before.length := by
    rw [List.length_append]
    rfl
  have hslice := slice_append (e.header ++ before) (Lib.LittleEndian.encode width n) after
  rwa [hlen, encode_length, ← hdata] at hslice

theorem fieldsAsEncoded (e : Encodable) : FieldsAsEncoded e e.decoded where
  headerType := rfl
  handle := rfl
  strings := rfl
  byte i := by
    rw [Structure.byte]
    exact getElem?_past e.header e.formatted i
  word before after v h := by
    rw [Structure.word, slice_field h, Option.map_some, decode_encode_unit, UInt16.ofNat_toNat]
  dword before after v h := by
    rw [Structure.dword, slice_field h, Option.map_some, decode_encode v.toNat_lt, UInt32.ofNat_toNat]
  qword before after v h := by
    rw [Structure.qword, slice_field h, Option.map_some, decode_encode v.toNat_lt, UInt64.ofNat_toNat]
  string i number h := by
    have hbyte : e.decoded.byte (4 + i) = some number := (getElem?_past e.header e.formatted i).trans h
    rw [Structure.string, hbyte, Option.bind_some, Structure.stringByNumber]
    split
    · rfl
    · rename_i hne
      have hpos : 1 ≤ number.toNat := by
        have : number.toNat ≠ 0 := by
          intro hzero
          exact hne (UInt8.toNat_inj.mp hzero)
        omega
      rw [UInt8.toNat_sub_of_le number 1 (UInt8.le_iff_toNat_le.mpr hpos)]
      rfl

/-- Tables are read back as they were laid out, and any bytes at all as what
stands in them, or with an error about the structure that offends. -/
theorem parseTable_decodes :
    (∀ (es : List Encodable) (tail : List UInt8),
      (tail.length < 4 ∨ ∃ e ∈ es, e.headerType = typeEndOfTable) →
        parseTable (es.flatMap Encodable.encode ++ tail) = some (.ok ((throughEnd es).map Encodable.decoded))) ∧
    (∀ e : Encodable, FieldsAsEncoded e e.decoded) ∧
    (∀ raw, ∃ r, parseTable raw = some r ∧ TableOutcome raw r) ∧
    ∀ slice s, Reads slice s → 6 ≤ slice.length := by
  refine ⟨?_, fieldsAsEncoded, parseTable_outcome, ?_⟩
  · intro es tail htail
    exact parseTable_encoded htail
  · intro slice s h
    exact h.six_le_length

end Beskar7Inspector.SmbiosTable
