import Beskar7Inspector.BootOrder
import Beskar7Inspector.DevicePath
import Beskar7Inspector.Lib.Hexadecimal
import Beskar7Inspector.Lib.Program
import Mathlib.Data.List.AList
import Mathlib.Data.List.Sort

namespace Beskar7Inspector.Efiboot

open Lib.Program Lib.Text Lib.Hexadecimal Lib.Os Deploy Esp DevicePath BootOrder

def DESCRIPTION : String := "beskar7"

inductive EfiBootError
  | mount (source : Errno)
  | listVars (source : IoError)
  | readVar (name : String) (source : IoError)
  | writeVar (name : String) (source : IoError)
  | badBootOrder
  | noFreeEntry
  deriving DecidableEq

inductive Outcome
  | created
  | reused
  | replaced
  deriving DecidableEq

structure BootEntry where
  number : UInt16
  outcome : Outcome
  previousOrder : List UInt16
  bootOrder : List UInt16
  deriving DecidableEq

def hexUpper (d : Nat) : Char := if d < 10 then Char.ofNat (48 + d) else Char.ofNat (55 + d)

/-- `Boot####` with four uppercase hex digits. -/
def bootVarName (n : UInt16) : String :=
  "Boot" ++ String.ofList [hexUpper (n.toNat / 4096), hexUpper (n.toNat / 256 % 16), hexUpper (n.toNat / 16 % 16),
    hexUpper (n.toNat % 16)]

/-- Exactly four hex digits, in either case. -/
def hexNumber : List Char → Option UInt16
  | [a, b, c, d] => do
      let a ← hexDigitValue a
      let b ← hexDigitValue b
      let c ← hexDigitValue c
      let d ← hexDigitValue d
      some (UInt16.ofNat (a * 4096 + b * 256 + c * 16 + d))
  | _ => none

def parseBootVarName (name : String) : Option UInt16 := do
  let hex ← stripPrefix "Boot" name
  hexNumber hex.toList

/-- The active option starts `loader`, or whatever the partition's default is,
on exactly the partition `gpt` describes. -/
def startsLoader (gpt : GptEsp) (loader : String) (opt : LoadOption) : Bool :=
  opt.isActive && opt.hd.any (fun hd => hd.is gpt) && opt.loaderPath.all (fun p => eqIgnoreAsciiCase p loader)

def pickExisting (entries : List (UInt16 × LoadOption)) (gpt : GptEsp) (loader : String) : Option UInt16 :=
  ((entries.filter (fun e => startsLoader gpt loader e.2)).map Prod.fst).min?

def previousEntry (entries : List (UInt16 × LoadOption)) : Option UInt16 :=
  ((entries.filter (fun e => e.2.description == DESCRIPTION)).map Prod.fst).min?

/-- The first number from `from_` on, of `count` many, that is not in use. -/
def firstFree (used : List UInt16) : Nat → Nat → Option UInt16
  | 0, _ => none
  | count + 1, n => if UInt16.ofNat n ∉ used then some (UInt16.ofNat n) else firstFree used count (n + 1)

def freeBootNumber (used : List UInt16) : Option UInt16 := firstFree used UInt16.size 0

inductive VarOp : Type → Type
  | list : VarOp (Except IoError (List String))
  | read (name : String) : VarOp (Except IoError (Option (List UInt8)))
  | write (name : String) (value : List UInt8) : VarOp (Except IoError Unit)

abbrev Efi := Try VarOp EfiBootError

def readEntries : List String → Efi (List (UInt16 × LoadOption) × List UInt16)
  | [] => pure ([], [])
  | name :: names => match parseBootVarName name with
      | none => readEntries names
      | some n => do
          let value ← attempt (.read name) (.readVar name)
          let (entries, used) ← readEntries names
          match value.bind parseLoadOption with
          | some opt => pure ((n, opt) :: entries, n :: used)
          | none => pure (entries, n :: used)

def readBootEntries : Efi (List (UInt16 × LoadOption) × List UInt16) := do
  let names ← attempt .list .listVars
  let (entries, used) ← readEntries names
  pure (entries.insertionSort (fun a b => a.1 ≤ b.1), used.insertionSort (· ≤ ·))

def readBootOrder : Efi (List UInt16) := do
  let raw ← attempt (.read "BootOrder") (.readVar "BootOrder")
  match raw with
  | some raw => match parseBootOrder raw with
      | some order => pure order
      | none => throw .badBootOrder
  | none => pure []

/-- Reuse an entry, or write one over the previous `beskar7` entry or to a free number. -/
def obtainEntry (arch : Arch) (gpt : GptEsp) (entries : List (UInt16 × LoadOption)) (used : List UInt16) :
    Efi (UInt16 × Outcome) :=
  match pickExisting entries gpt arch.espLoaderPath with
  | some n => pure (n, .reused)
  | none => do
      let (n, outcome) ← match previousEntry entries with
        | some n => pure (n, .replaced)
        | none => match freeBootNumber used with
            | some n => pure (n, .created)
            | none => throw .noFreeEntry
      let dp := hdFileDevicePath gpt arch.espLoaderPath
      let name := bootVarName n
      attempt (.write name (encodeLoadOption LOAD_OPTION_ACTIVE DESCRIPTION dp)) (.writeVar name)
      pure (n, outcome)

def optionOf (entries : List (UInt16 × LoadOption)) (n : UInt16) : Option LoadOption :=
  (entries.find? (fun e => e.1 == n)).map Prod.snd

def place (entries : List (UInt16 × LoadOption)) (order : List UInt16) (n : UInt16) : List UInt16 :=
  placeAfterNetwork order n (fun m => (optionOf entries m).any LoadOption.isAutoBootable)
    (fun m => (optionOf entries m).any (fun o => isNetwork o.devicePath))

def ensureIn (arch : Arch) (gpt : GptEsp) : Efi BootEntry := do
  let (entries, used) ← readBootEntries
  let previousOrder ← readBootOrder
  let (number, outcome) ← obtainEntry arch gpt entries used
  let bootOrder := place entries previousOrder number
  if bootOrder ≠ previousOrder then
    attempt (.write "BootOrder" (encodeBootOrder bootOrder)) (.writeVar "BootOrder")
  pure ⟨number, outcome, previousOrder, bootOrder⟩

end Beskar7Inspector.Efiboot
