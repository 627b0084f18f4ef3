import Beskar7Inspector.Lib.Text

namespace Beskar7Inspector.Lib.ProcTable

open Text

/-- Each line with its break. -/
def unlines (ls : List String) : String := String.ofList (ls.flatMap fun l => l.toList ++ ['\n'])

/-- The lines of a text, without their breaks, of whichever kind; the last line may lack one. -/
def lines (text : String) : List String :=
  let pieces := splitChar '\n' text
  pieces.dropLast.map (fun l => (stripSuffix "\r" l).getD l) ++ (pieces.getLast?.filter (· ≠ "")).toList

def firstWord (line : String) : Option String := (splitAsciiWhitespace line).head?

/-- A table of the kernel: a first column without blanks, and whatever follows it on the line. -/
structure Row where
  first : String
  rest : String
  oneLine : '\n' ∉ rest.toList

/-- A blank, a line break or a backslash is written as its octal code. -/
def mangle (s : String) : String :=
  String.ofList (s.toList.flatMap fun c =>
    if c = ' ' ∨ c = '\t' ∨ c = '\n' ∨ c = '\\' ∨ c = '#' then
      ['\\', Nat.digitChar (c.toNat / 64), Nat.digitChar (c.toNat / 8 % 8), Nat.digitChar (c.toNat % 8)]
    else [c])

def Row.line (r : Row) : String := mangle r.first ++ " " ++ r.rest

/-- The table below its header, which has any number of lines. -/
def render (header : List String) (rows : List Row) : String := unlines (header ++ rows.map Row.line)

/-- Nothing in it is written in another way. -/
def Plain (s : String) : Prop := s ≠ "" ∧ ∀ c ∈ s.toList, isAsciiWhitespace c = false ∧ c ≠ '\\' ∧ c ≠ '#'

theorem splitChar_unlines {ls : List String} (h : ∀ l ∈ ls, '\n' ∉ l.toList) :
    splitChar '\n' (unlines ls) = ls ++ [""] := by
  refine (splitChar_eq_iff (by simp)).mpr ⟨?_, fun piece hpiece => ?_⟩
  · apply String.toList_inj.mp
    rw [unlines, String.toList_ofList, String.toList_intercalate]
    clear h
    induction ls with
    | nil => rfl
    | cons l ls ih =>
      rw [List.flatMap_cons, ih]
      cases ls with
      | nil => simp [List.intercalate_cons_cons]
      | cons next ls => simp [List.intercalate_cons_cons]
  · cases List.mem_append.mp hpiece with
    | inl hline => exact h piece hline
    | inr hlast =>
      rw [List.mem_singleton.mp hlast]
      exact List.not_mem_nil

theorem lines_unlines {ls : List String} (h : ∀ l ∈ ls, '\n' ∉ l.toList) :
    lines (unlines ls) = ls.map (fun l => (stripSuffix "\r" l).getD l) := by
  rw [lines, splitChar_unlines h]
  simp

end Beskar7Inspector.Lib.ProcTable
