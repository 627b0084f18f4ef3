import Beskar7Inspector.Lib.LittleEndian
import Beskar7Inspector.Lib.Os
import Beskar7Inspector.Lib.Slices
import Beskar7Inspector.Lib.Utf8

namespace Beskar7Inspector.Smbios

open Lib.LittleEndian Lib.Os Lib.Slices Lib.Utf8

def typeEndOfTable : UInt8 := 127

structure Structure where
  headerType : UInt8
  handle : UInt16
  data : List UInt8
  strings : List String
  deriving DecidableEq, Repr

namespace Structure

def byte (s : Structure) (offset : Nat) : Option UInt8 := s.data[offset]?

def word (s : Structure) (offset : Nat) : Option UInt16 :=
  (slice s.data offset (offset + 2)).map (fun bytes => UInt16.ofNat (decode bytes))

def dword (s : Structure) (offset : Nat) : Option UInt32 :=
  (slice s.data offset (offset + 4)).map (fun bytes => UInt32.ofNat (decode bytes))

def qword (s : Structure) (offset : Nat) : Option UInt64 :=
  (slice s.data offset (offset + 8)).map (fun bytes => UInt64.ofNat (decode bytes))

def stringByNumber (s : Structure) (number : UInt8) : Option String :=
  if number = 0 then none else s.strings[(number - 1).toNat]?

def string (s : Structure) (offset : Nat) : Option String := (s.byte offset).bind s.stringByNumber

end Structure

inductive SmbiosError
  | truncated (offset : Nat)
  | badLength (offset length : Nat)
  | io (source : IoError)
  deriving DecidableEq, Repr

/-! The loops read by index. `none` is an index out of range, or a loop that
did not come to its end within `fuel` rounds. -/

/-- Where the next zero byte from `p` on is, or the end. -/
def scanNul (raw : List UInt8) : Nat → Nat → Option Nat
  | 0, _ => none
  | fuel + 1, p =>
      if p < raw.length then
        match raw[p]? with
        | none => none
        | some b => if b ≠ 0 then scanNul raw fuel (p + 1) else some p
      else some p

def stringLoop (raw : List UInt8) (structOffset : Nat) : Nat → Nat → List String →
    Option (Except SmbiosError (List String × Nat))
  | 0, _, _ => none
  | fuel + 1, strStart, strings =>
      match scanNul raw (raw.length + 1) strStart with
      | none => none
      | some p =>
          if raw.length ≤ p then some (.error (.truncated structOffset))
          else match slice raw strStart p with
            | none => none
            | some bytes =>
                let strings := strings ++ [fromUtf8Lossy bytes]
                match raw[p + 1]? with
                | none => some (.error (.truncated structOffset))
                | some b =>
                    if b = 0 then some (.ok (strings, p + 2))
                    else stringLoop raw structOffset fuel (p + 1) strings

/-- The string set from `start` on and where the next structure begins. -/
def parseStringSet (raw : List UInt8) (start structOffset : Nat) :
    Option (Except SmbiosError (List String × Nat)) :=
  if raw.length < start + 2 then some (.error (.truncated structOffset))
  else match raw[start]?, raw[start + 1]? with
    | some first, some second =>
        if first = 0 ∧ second = 0 then some (.ok ([], start + 2))
        else stringLoop raw structOffset (raw.length + 1) start []
    | _, _ => none

def tableLoop (raw : List UInt8) : Nat → Nat → List Structure → Option (Except SmbiosError (List Structure))
  | 0, _, _ => none
  | fuel + 1, pos, structures =>
      if pos + 4 ≤ raw.length then
        match raw[pos]?, raw[pos + 1]?, raw[pos + 2]?, raw[pos + 3]? with
        | some headerType, some length, some lo, some hi =>
            let handle := UInt16.ofNat (decode [lo, hi])
            if length.toNat < 4 then some (.error (.badLength pos length.toNat))
            else if raw.length < pos + length.toNat then some (.error (.truncated pos))
            else match slice raw pos (pos + length.toNat) with
              | none => none
              | some data => match parseStringSet raw (pos + length.toNat) pos with
                  | none => none
                  | some (.error e) => some (.error e)
                  | some (.ok (strings, next)) =>
                      let structures := structures ++ [⟨headerType, handle, data, strings⟩]
                      if headerType = typeEndOfTable then some (.ok structures)
                      else tableLoop raw fuel next structures
        | _, _, _, _ => none
      else some (.ok structures)

def parseTable (raw : List UInt8) : Option (Except SmbiosError (List Structure)) :=
  tableLoop raw (raw.length + 1) 0 []

/-- One structure as firmware lays it out. -/
def encodeStructure (headerType : UInt8) (handle : UInt16) (formatted : List UInt8) (strings : List String) :
    List UInt8 :=
  let stringSet := if strings.isEmpty then [0, 0] else strings.flatMap (fun s => Lib.Text.utf8 s ++ [0]) ++ [0]
  [headerType, UInt8.ofNat (4 + formatted.length), (handle &&& 0xff).toUInt8, (handle >>> 8).toUInt8] ++
    formatted ++ stringSet

example : (parseTable (encodeStructure 17 0x0110 [1] ["DIMM_A1"] ++ encodeStructure 127 0x7f00 [] [] ++ [1])).map
    (fun r => r.map (fun s => s.map (fun s => (s.headerType, s.string 4)))) =
      some (.ok [(17, some "DIMM_A1"), (127, none)]) := by
  decide +kernel

end Beskar7Inspector.Smbios
