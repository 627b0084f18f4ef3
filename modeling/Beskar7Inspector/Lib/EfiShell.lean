import Beskar7Inspector.Lib.Decimal

namespace Beskar7Inspector.Lib.EfiShell

open Lib.Text Lib.Decimal

/-- A statement of a script; texts may hold marks that are expanded as it runs. -/
inductive Stmt
  | set (name value : List Char)
  | echo (text : List Char)
  | run (path : List Char)
  | forRun (index : Char) (first last : Nat) (body : List Stmt)
  | ifExist (path : List Char) (body : List Stmt)
  | ifEqual (a b : List Char) (body : List Stmt)

/-- What the Shell runs on: the files that are there, and the images that give control
back. One that cannot be loaded counts as such an image, where a Shell may instead
stop the script there. -/
structure System where
  present : List Char → Bool
  returns : List Char → Bool

inductive Event
  | said (text : List Char)
  | started (path : List Char)
  | unknown (path : List Char)
  deriving DecidableEq

structure State where
  vars : List (List Char × List Char)
  index : Option (Char × List Char)
  log : List Event

/-- The text with the loop's index put in. -/
def substIndex (index : Char) (value : List Char) : List Char → List Char
  | [] => []
  | [c] => [c]
  | c :: d :: cs =>
      if c = '%' ∧ d = index then value ++ substIndex index value cs else c :: substIndex index value (d :: cs)

/-- The pieces between percent signs joined again, every second one the name of a variable. -/
def expandVars (vars : List (List Char × List Char)) : List (List Char) → List Char
  | [] => []
  | [text] => text
  | [text, rest] => text ++ '%' :: rest
  | text :: name :: rest =>
      text ++ (match vars.lookup name with
        | some value => value
        | none => '%' :: name ++ ['%']) ++ expandVars vars rest

/-- The loop's index is put in first, and then the variables. -/
def expand (s : State) (text : List Char) : List Char :=
  expandVars s.vars ((match s.index with
    | some (index, value) => substIndex index value text
    | none => text).splitOn '%')

def State.note (s : State) (e : Event) : State := { s with log := s.log ++ [e] }

@[simp] theorem expand_note (s : State) (e : Event) (text : List Char) : expand (s.note e) text = expand s text := rfl

mutual

/-- One statement. An image that keeps control ends the run there. -/
def exec (sys : System) : Stmt → State → Except State State
  | .set name value, s => .ok { s with vars := (name, value) :: s.vars }
  | .echo text, s => .ok (s.note (.said (expand s text)))
  | .run path, s =>
      let path := expand s path
      if sys.present path then
        if sys.returns path then .ok (s.note (.started path)) else .error (s.note (.started path))
      else .ok (s.note (.unknown path))
  | .forRun index first last body, s =>
      ((List.range' first (last + 1 - first)).foldlM
        (fun s n => execAll sys body { s with index := some (index, Nat.toDigits 10 n) }) s).map
        (fun t => { t with index := s.index })
  | .ifExist path body, s => if sys.present (expand s path) then execAll sys body s else .ok s
  | .ifEqual a b body, s => if expand s a = expand s b then execAll sys body s else .ok s

def execAll (sys : System) : List Stmt → State → Except State State
  | [], s => .ok s
  | stmt :: rest, s => exec sys stmt s >>= execAll sys rest

end

inductive Line
  | skip
  | stmt (s : Stmt)
  | forRun (index : Char) (first last : Nat)
  | ifExist (path : List Char)
  | ifEqual (a b : List Char)
  | endIf
  | endFor

def words (cs : List Char) : List (List Char) := (cs.splitOn ' ').filter (· ≠ [])

def readSet (cs : List Char) : Option Line :=
  match words cs with
  | [flag, name, value] => if flag = "-v".toList then some (.stmt (.set name value)) else none
  | _ => none

def readNumber (cs : List Char) : Option Nat := (parseUnsigned (2 ^ 64) (String.ofList cs))

def readFor (cs : List Char) : Option Line :=
  match words cs with
  | [index, kind, first, last] =>
      match index, first with
      | ['%', index], '(' :: first =>
          if kind = "run".toList ∧ last.getLast? = some ')' then do
            let first ← readNumber first
            let last ← readNumber last.dropLast
            some (.forRun index first last)
          else none
      | _, _ => none
  | _ => none

def readIf (cs : List Char) : Option Line :=
  if cs.takeWhile (· ≠ ' ') = "exist".toList then
    (stripSuffix " then" (String.ofList ((cs.dropWhile (· ≠ ' ')).drop 1))).map (fun path => .ifExist path.toList)
  else
    match words cs with
    | [a, op, b, done] => if op = "==".toList ∧ done = "then".toList then some (.ifEqual a b) else none
    | _ => none

/-- A line by its first word; one that is no other statement is a command. -/
def readLine (line : List Char) : Option Line :=
  let cs := line.dropWhile (· = ' ')
  let word := cs.takeWhile (· ≠ ' ')
  let rest := (cs.dropWhile (· ≠ ' ')).drop 1
  if cs = [] ∨ cs.head? = some '#' ∨ word = "@echo".toList then some .skip
  else if word = "set".toList then readSet rest
  else if word = "for".toList then readFor rest
  else if word = "if".toList then readIf rest
  else if word = "endif".toList then some .endIf
  else if word = "endfor".toList then some .endFor
  else if word = "echo".toList then some (.stmt (.echo rest))
  else some (.stmt (.run cs))

/-- The statements up to the mark that closes the block, which is left in place. -/
def readBlock : Nat → List Line → Option (List Stmt × List Line)
  | 0, _ => none
  | _ + 1, [] => some ([], [])
  | fuel + 1, line :: rest =>
      match line with
      | .skip => readBlock fuel rest
      | .endIf => some ([], .endIf :: rest)
      | .endFor => some ([], .endFor :: rest)
      | .stmt s => do
          let (more, rest) ← readBlock fuel rest
          some (s :: more, rest)
      | .forRun index first last => do
          let (body, rest) ← readBlock fuel rest
          match rest with
          | .endFor :: rest => do
              let (more, rest) ← readBlock fuel rest
              some (.forRun index first last body :: more, rest)
          | _ => none
      | .ifExist path => do
          let (body, rest) ← readBlock fuel rest
          match rest with
          | .endIf :: rest => do
              let (more, rest) ← readBlock fuel rest
              some (.ifExist path body :: more, rest)
          | _ => none
      | .ifEqual a b => do
          let (body, rest) ← readBlock fuel rest
          match rest with
          | .endIf :: rest => do
              let (more, rest) ← readBlock fuel rest
              some (.ifEqual a b body :: more, rest)
          | _ => none

def splitLines : List Char → List (List Char)
  | [] => [[]]
  | '\r' :: '\n' :: cs => [] :: splitLines cs
  | c :: cs => (splitLines cs).modifyHead (c :: ·)

def readScript (text : String) : Option (List Stmt) := do
  let lines ← (splitLines text.toList).mapM readLine
  let (stmts, rest) ← readBlock (lines.length + 1) lines
  if rest.isEmpty then some stmts else none

/-- How a script ends: control is back at the prompt, or with the image started last. -/
structure Ended where
  log : List Event
  prompt : Bool

def runScript (sys : System) (text : String) : Option Ended := do
  let stmts ← readScript text
  match execAll sys stmts ⟨[], none, []⟩ with
  | .ok s => some ⟨s.log, true⟩
  | .error s => some ⟨s.log, false⟩

theorem splitLines_cons {c : Char} (h : c ≠ '\r') (cs : List Char) :
    splitLines (c :: cs) = (splitLines cs).modifyHead (c :: ·) := by
  rw [splitLines.eq_def]
  split
  · rename_i heq
    cases heq
  · rename_i heq
    cases heq
    exact absurd rfl h
  · rename_i heq
    cases heq
    rfl

theorem splitLines_append {line : List Char} (h : '\r' ∉ line) (rest : List Char) :
    splitLines (line ++ '\r' :: '\n' :: rest) = line :: splitLines rest := by
  induction line with
  | nil => rfl
  | cons c line ih =>
      rw [List.mem_cons, not_or] at h
      rw [List.cons_append, splitLines_cons (Ne.symm h.1), ih h.2]
      rfl

theorem splitLines_lines {lines : List (List Char)} (h : ∀ line ∈ lines, '\r' ∉ line) :
    splitLines (lines.flatMap (· ++ ['\r', '\n'])) = lines ++ [[]] := by
  induction lines with
  | nil => rfl
  | cons line lines ih =>
      rw [List.forall_mem_cons] at h
      rw [List.flatMap_cons, List.append_assoc]
      have hline := splitLines_append h.1 (lines.flatMap (· ++ ['\r', '\n']))
      rw [ih h.2] at hline
      exact hline

theorem substIndex_free {index : Char} {value text : List Char} (h : '%' ∉ text) :
    substIndex index value text = text := by
  induction text with
  | nil => rfl
  | cons c text ih =>
      rw [List.mem_cons, not_or] at h
      cases text with
      | nil => rfl
      | cons d text => rw [substIndex, if_neg fun hc => h.1 hc.1.symm, ih h.2]

/-- One mark of the loop's index, and no other. -/
theorem substIndex_mark {index : Char} {value before after : List Char} (hbefore : '%' ∉ before)
    (hafter : '%' ∉ after) : substIndex index value (before ++ '%' :: index :: after) = before ++ value ++ after := by
  induction before with
  | nil =>
      rw [List.nil_append, List.nil_append, substIndex, if_pos ⟨rfl, rfl⟩, substIndex_free hafter]
  | cons c before ih =>
      rw [List.mem_cons, not_or] at hbefore
      obtain ⟨d, rest, hrest⟩ := List.exists_cons_of_ne_nil (l := before ++ '%' :: index :: after) (by simp)
      have hrec := ih hbefore.2
      rw [hrest] at hrec
      rw [List.cons_append, hrest, substIndex, if_neg fun hc => hbefore.1 hc.1.symm, hrec]
      rfl

theorem expandVars_free {vars : List (List Char × List Char)} {text : List Char} (h : '%' ∉ text) :
    expandVars vars (text.splitOn '%') = text := by
  have hsplit : text.splitOn '%' = [text] := by
    rw [List.splitOn_eq_splitOnP]
    exact List.splitOnP_eq_singleton fun c hc => by
      rw [beq_eq_false_iff_ne]
      rintro rfl
      exact h hc
  rw [hsplit, expandVars]

theorem expand_free {s : State} {text : List Char} (h : '%' ∉ text) : expand s text = text := by
  rw [expand]
  cases s.index with
  | none => exact expandVars_free h
  | some binding =>
      dsimp only
      rw [substIndex_free h, expandVars_free h]

theorem expand_mark {s : State} {index : Char} {value before after : List Char} (hs : s.index = some (index, value))
    (hbefore : '%' ∉ before) (hvalue : '%' ∉ value) (hafter : '%' ∉ after) :
    expand s (before ++ '%' :: index :: after) = before ++ value ++ after := by
  rw [expand, hs]
  dsimp only
  rw [substIndex_mark hbefore hafter]
  refine expandVars_free fun h => ?_
  rw [List.mem_append, List.mem_append] at h
  rcases h with (h | h) | h
  · exact hbefore h
  · exact hvalue h
  · exact hafter h

end Beskar7Inspector.Lib.EfiShell
