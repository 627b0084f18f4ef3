import Beskar7Inspector.Esp
import Beskar7Inspector.Lib.LittleEndian
import Beskar7Inspector.Lib.Slices

namespace Beskar7Inspector.Gpt

open Lib.LittleEndian Lib.Os Lib.Slices Esp

def ESP_TYPE_GUID : Guid :=
  ⟨[0x28, 0x73, 0x2A, 0xC1, 0x1F, 0xF8, 0xD2, 0x11, 0xBA, 0x4B, 0x00, 0xA0, 0xC9, 0x3E, 0xC9, 0x3B], rfl⟩

/-- `EFI PART` -/
def GPT_SIGNATURE : List UInt8 := [0x45, 0x46, 0x49, 0x20, 0x50, 0x41, 0x52, 0x54]
def GPT_HEADER_LEN : Nat := 92
def MAX_GPT_ENTRIES : UInt32 := 1024

/-- The bytes of a disk and a position, which may lie past their end. -/
structure Cursor where
  bytes : List UInt8
  pos : UInt64

def Cursor.seek (dev : Cursor) (offset : UInt64) : Cursor := { dev with pos := offset }

/-- Fills a buffer of `n` bytes or fails. -/
def Cursor.readExact (dev : Cursor) (n : Nat) : Except IoError (List UInt8 × Cursor) :=
  let rest := dev.bytes.drop dev.pos.toNat
  if rest.length < n then .error (.other "failed to fill whole buffer")
  else .ok (rest.take n, { dev with pos := dev.pos + UInt64.ofNat n })

structure GptLayout where
  entriesLba : UInt64
  count : UInt32
  entrySize : UInt32
  deriving DecidableEq

structure GptEntry where
  typeGuid : Guid
  part : GptEsp
  deriving DecidableEq

/-! Fields are read by index. `none` is an index out of range, or a slice of
another length than the array it is to become. -/

def u32At (bytes : List UInt8) (o : Nat) : Option UInt32 :=
  (slice bytes o (o + 4)).map (fun field => UInt32.ofNat (decode field))

def u64At (bytes : List UInt8) (o : Nat) : Option UInt64 :=
  (slice bytes o (o + 8)).map (fun field => UInt64.ofNat (decode field))

def guidAt (bytes : List UInt8) (o : Nat) : Option Guid :=
  (slice bytes o (o + 16)).bind (fun field => if h : field.length = 16 then some ⟨field, h⟩ else none)

def parseGptHeader (header : List UInt8) (disk : String) : Option (Except EspError GptLayout) :=
  if header.length < GPT_HEADER_LEN then some (.error (.noGpt disk))
  else match slice header 0 8 with
    | none => none
    | some signature =>
        if signature ≠ GPT_SIGNATURE then some (.error (.noGpt disk))
        else match u64At header 72, u32At header 80, u32At header 84 with
          | some entriesLba, some count, some entrySize =>
              if entriesLba < 2 ∨ count = 0 ∨ MAX_GPT_ENTRIES < count ∨ ¬(128 ≤ entrySize ∧ entrySize ≤ 1024) ∨
                  entrySize % 8 ≠ 0 then some (.error (.badGpt disk))
              else some (.ok ⟨entriesLba, count, entrySize⟩)
          | _, _, _ => none

def gptEntry (entry : List UInt8) (number : UInt32) : Option GptEntry :=
  match guidAt entry 0, guidAt entry 16, u64At entry 32, u64At entry 40 with
  | some typeGuid, some uniqueGuid, some firstLba, some lastLba =>
      some ⟨typeGuid, ⟨number, uniqueGuid, firstLba, lastLba⟩⟩
  | _, _, _, _ => none

/-- The used ones of some entries with their numbers. -/
def usedEntries : List (List UInt8 × Nat) → Option (List GptEntry)
  | [] => some []
  | (entry, number) :: rest =>
      match slice entry 0 16 with
      | none => none
      | some typeGuid =>
          if typeGuid ≠ List.replicate 16 0 then
            match gptEntry entry (UInt32.ofNat number) with
            | none => none
            | some e => (usedEntries rest).map (fun es => e :: es)
          else usedEntries rest

def gptEntries (entries : List UInt8) (entrySize : Nat) : Option (List GptEntry) :=
  if entrySize = 0 then none else usedEntries ((chunksExact entrySize entries).zipIdx 1)

def readGptEntries (dev : Cursor) (blockSize : UInt64) (disk : String) :
    Option (Except EspError (List GptEntry)) :=
  match (dev.seek blockSize).readExact GPT_HEADER_LEN with
  | .error source => some (.error (.readGpt disk source))
  | .ok (header, dev) => match parseGptHeader header disk with
      | none => none
      | some (.error e) => some (.error e)
      | some (.ok layout) =>
          if UInt64.size ≤ layout.entriesLba.toNat * blockSize.toNat then some (.error (.badGpt disk))
          else
            let offset := layout.entriesLba * blockSize
            match (dev.seek offset).readExact (layout.count.toNat * layout.entrySize.toNat) with
            | .error source => some (.error (.readGpt disk source))
            | .ok (entries, _) => (gptEntries entries layout.entrySize.toNat).map .ok

def espEntries (entries : List GptEntry) : List GptEsp :=
  (entries.filter (fun e => e.typeGuid == ESP_TYPE_GUID)).map GptEntry.part

def readEspEntries (dev : Cursor) (blockSize : UInt64) (disk : String) : Option (Except EspError (List GptEsp)) :=
  (readGptEntries dev blockSize disk).map (fun r => r.map espEntries)

end Beskar7Inspector.Gpt
