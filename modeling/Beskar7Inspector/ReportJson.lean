import Beskar7Inspector.Client
import Beskar7Inspector.Lib.Json
import Beskar7Inspector.Lib.Utf8
import Mathlib.Data.List.Forall2

namespace Beskar7Inspector.ReportJson

open Lib.Text Lib.Utf8 Lib.Json Client

def Cpu.toJson (c : Cpu) : Value :=
  .obj [("id", .str c.id), ("vendor", .str c.vendor), ("model", .str c.model), ("cores", .num c.cores.toNat),
    ("threads", .num c.threads.toNat), ("frequency", .str c.frequency)]

def MemoryModule.toJson (m : MemoryModule) : Value :=
  .obj [("id", .str m.id), ("type", .str m.memType), ("capacity", .str m.capacity), ("speed", .str m.speed)]

def Disk.toJson (d : Disk) : Value :=
  .obj [("name", .str d.name), ("model", .str d.model), ("sizeGB", .num d.sizeGb.toNat), ("type", .str d.diskType),
    ("serialNumber", .str d.serialNumber)]

def Nic.toJson (n : Nic) : Value :=
  .obj [("name", .str n.name), ("macAddress", .str n.macAddress), ("driver", .str n.driver), ("speed", .str n.speed),
    ("ipAddresses", .arr (n.ipAddresses.map .str))]

def InspectionReport.toJson (r : InspectionReport) : Value :=
  .obj [("manufacturer", .str r.manufacturer), ("model", .str r.model), ("serialNumber", .str r.serialNumber),
    ("cpus", .arr (r.cpus.map Cpu.toJson)), ("memory", .arr (r.memory.map MemoryModule.toJson)),
    ("disks", .arr (r.disks.map Disk.toJson)), ("nics", .arr (r.nics.map Nic.toJson)),
    ("bootModeDetected", .str r.bootModeDetected), ("firmwareVersion", .str r.firmwareVersion)]

/-- The serializer of the JSON library, which may fail. -/
abbrev ToVec : Type := Value → Option (List UInt8)

/-- Its reader, before the fields of a record are looked for. -/
abbrev FromSlice : Type := List UInt8 → Option Value

/-- What the library writes it reads again. -/
def ReadsBack (toVec : ToVec) (fromSlice : FromSlice) : Prop :=
  ∀ j bytes, toVec j = some bytes → fromSlice bytes = some j

def serialize (toVec : ToVec) (j : Value) : Except ClientError (List UInt8) :=
  match toVec j with
  | some bytes => .ok bytes
  | none => .error .serialize

/-- The body of the inspection callback. -/
def reportBody (toVec : ToVec) (r : InspectionReport) : Except ClientError (List UInt8) :=
  serialize toVec (InspectionReport.toJson r)

def PROVISIONED_BODY : List UInt8 := utf8 "\x7b\"status\":\"provisioned\"\x7d"

def provisionFailedBody (toVec : ToVec) (reason : String) : Except ClientError (List UInt8) :=
  serialize toVec (.obj [("reason", .str reason)])

theorem serialize_ok {toVec : ToVec} {j : Value} {bytes : List UInt8} (h : serialize toVec j = .ok bytes) :
    toVec j = some bytes := by
  rw [serialize] at h
  split at h
  · cases h
    assumption
  · cases h

theorem serialize_cases (toVec : ToVec) (j : Value) :
    toVec j = none ∧ serialize toVec j = .error .serialize ∨ ∃ bytes, serialize toVec j = .ok bytes := by
  rw [serialize]
  cases toVec j with
  | none => exact .inl ⟨rfl, rfl⟩
  | some bytes => exact .inr ⟨bytes, rfl⟩

/-- The members of an object, in the order of `names`. It may have no others,
and none of them twice. -/
def members (names : List String) : Value → Option (List Value)
  | .obj fields =>
      if (fields.map Prod.fst).Nodup ∧ ∀ name ∈ fields.map Prod.fst, name ∈ names then
        names.mapM (fun name => fields.lookup name)
      else none
  | _ => none

def string : Value → Option String
  | .str s => some s
  | _ => none

def number (bound : Nat) : Value → Option Nat
  | .num n => if n < bound then some n else none
  | _ => none

def list {α : Type} (item : Value → Option α) : Value → Option (List α)
  | .arr items => items.mapM item
  | _ => none

/-- The derived reader, which denies unknown fields: those of the record, each of
them once, in any order. -/
def Cpu.ofJson (j : Value) : Option Cpu := do
  match ← members ["id", "vendor", "model", "cores", "threads", "frequency"] j with
  | [id, vendor, model, cores, threads, frequency] =>
      some ⟨← string id, ← string vendor, ← string model, .ofNat (← number (2 ^ 32) cores),
        .ofNat (← number (2 ^ 32) threads), ← string frequency⟩
  | _ => none

def MemoryModule.ofJson (j : Value) : Option MemoryModule := do
  match ← members ["id", "type", "capacity", "speed"] j with
  | [id, memType, capacity, speed] => some ⟨← string id, ← string memType, ← string capacity, ← string speed⟩
  | _ => none

def Disk.ofJson (j : Value) : Option Disk := do
  match ← members ["name", "model", "sizeGB", "type", "serialNumber"] j with
  | [name, model, sizeGb, diskType, serialNumber] =>
      some ⟨← string name, ← string model, .ofNat (← number (2 ^ 64) sizeGb), ← string diskType,
        ← string serialNumber⟩
  | _ => none

def Nic.ofJson (j : Value) : Option Nic := do
  match ← members ["name", "macAddress", "driver", "speed", "ipAddresses"] j with
  | [name, macAddress, driver, speed, ipAddresses] =>
      some ⟨← string name, ← string macAddress, ← string driver, ← string speed, ← list string ipAddresses⟩
  | _ => none

def InspectionReport.ofJson (j : Value) : Option InspectionReport := do
  match ← members ["manufacturer", "model", "serialNumber", "cpus", "memory", "disks", "nics", "bootModeDetected",
      "firmwareVersion"] j with
  | [manufacturer, model, serialNumber, cpus, memory, disks, nics, bootModeDetected, firmwareVersion] =>
      some ⟨← string manufacturer, ← string model, ← string serialNumber, ← list Cpu.ofJson cpus,
        ← list MemoryModule.ofJson memory, ← list Disk.ofJson disks, ← list Nic.ofJson nics,
        ← string bootModeDetected, ← string firmwareVersion⟩
  | _ => none

def readReport (fromSlice : FromSlice) (bytes : List UInt8) : Option InspectionReport :=
  fromSlice bytes >>= InspectionReport.ofJson

theorem mapM_eq_some {α β : Type} {f : α → Option β} {as : List α} {bs : List β}
    (h : List.Forall₂ (fun a b => f a = some b) as bs) : as.mapM f = some bs := by
  induction h with
  | nil => rfl
  | cons hab _ ih =>
      rw [List.mapM_cons, hab, ih]
      rfl

theorem lookup_of_nodup {fields : List (String × Value)} (h : (fields.map Prod.fst).Nodup) :
    List.Forall₂ (fun name value => fields.lookup name = some value) (fields.map Prod.fst) (fields.map Prod.snd) := by
  rw [List.forall₂_map_left_iff, List.forall₂_map_right_iff, List.forall₂_same]
  intro field hfield
  obtain ⟨before, after, rfl⟩ := List.append_of_mem hfield
  rw [List.lookup_eq_some_iff]
  refine ⟨before, after, rfl, fun other hother => ?_⟩
  rw [List.map_append, List.map_cons] at h
  rw [bne_iff_ne]
  rintro heq
  exact (List.nodup_append.mp h).2.2 _ (List.mem_map_of_mem hother) _ List.mem_cons_self heq.symm

/-- An object of just the asked members has them. -/
theorem members_self (fields : List (String × Value)) (h : (fields.map Prod.fst).Nodup) :
    members (fields.map Prod.fst) (.obj fields) = some (fields.map Prod.snd) := by
  rw [members, if_pos ⟨h, fun _ hname => hname⟩]
  exact mapM_eq_some (lookup_of_nodup h)

theorem list_map {α : Type} {item : Value → Option α} {enc : α → Value} (h : ∀ a, item (enc a) = some a)
    (items : List α) : list item (.arr (items.map enc)) = some items := by
  apply mapM_eq_some
  rw [List.forall₂_map_left_iff, List.forall₂_same]
  exact fun a _ => h a

theorem number_toNat {bound n : Nat} (h : n < bound) : number bound (.num n) = some n := if_pos h

theorem Cpu.ofJson_toJson (c : Cpu) : Cpu.ofJson (Cpu.toJson c) = some c := by
  have hmembers := members_self [("id", .str c.id), ("vendor", .str c.vendor), ("model", .str c.model),
    ("cores", .num c.cores.toNat), ("threads", .num c.threads.toNat), ("frequency", .str c.frequency)] (by simp)
  simp only [List.map_cons, List.map_nil] at hmembers
  simp [Cpu.ofJson, Cpu.toJson, hmembers, string, number_toNat c.cores.toNat_lt, number_toNat c.threads.toNat_lt]

theorem MemoryModule.ofJson_toJson (m : MemoryModule) : MemoryModule.ofJson (MemoryModule.toJson m) = some m := by
  have hmembers := members_self [("id", .str m.id), ("type", .str m.memType), ("capacity", .str m.capacity),
    ("speed", .str m.speed)] (by simp)
  simp only [List.map_cons, List.map_nil] at hmembers
  simp [MemoryModule.ofJson, MemoryModule.toJson, hmembers, string]

theorem Disk.ofJson_toJson (d : Disk) : Disk.ofJson (Disk.toJson d) = some d := by
  have hmembers := members_self [("name", .str d.name), ("model", .str d.model),
    ("sizeGB", .num d.sizeGb.toNat), ("type", .str d.diskType), ("serialNumber", .str d.serialNumber)] (by simp)
  simp only [List.map_cons, List.map_nil] at hmembers
  simp [Disk.ofJson, Disk.toJson, hmembers, string, number_toNat d.sizeGb.toNat_lt]

theorem Nic.ofJson_toJson (n : Nic) : Nic.ofJson (Nic.toJson n) = some n := by
  have hmembers := members_self [("name", .str n.name), ("macAddress", .str n.macAddress),
    ("driver", .str n.driver), ("speed", .str n.speed), ("ipAddresses", .arr (n.ipAddresses.map .str))] (by simp)
  simp only [List.map_cons, List.map_nil] at hmembers
  have hlist := @list_map String string .str (fun _ => rfl) n.ipAddresses
  simp [Nic.ofJson, Nic.toJson, hmembers, string, hlist]

theorem InspectionReport.ofJson_toJson (r : InspectionReport) :
    InspectionReport.ofJson (InspectionReport.toJson r) = some r := by
  have hmembers := members_self [("manufacturer", .str r.manufacturer), ("model", .str r.model),
    ("serialNumber", .str r.serialNumber), ("cpus", .arr (r.cpus.map Cpu.toJson)),
    ("memory", .arr (r.memory.map MemoryModule.toJson)), ("disks", .arr (r.disks.map Disk.toJson)),
    ("nics", .arr (r.nics.map Nic.toJson)), ("bootModeDetected", .str r.bootModeDetected),
    ("firmwareVersion", .str r.firmwareVersion)] (by simp)
  simp only [List.map_cons, List.map_nil] at hmembers
  simp [InspectionReport.ofJson, InspectionReport.toJson, hmembers, string, list_map Cpu.ofJson_toJson,
    list_map MemoryModule.ofJson_toJson, list_map Disk.ofJson_toJson, list_map Nic.ofJson_toJson]

/-- The bodies that are sent, over a library that reads what it writes: that of the
inspection callback gives the report again by the names of its fields, whatever its
texts hold, so no two reports share one, and that of a failure has the reason and
nothing else. What the library does not write is the client's serialize error. -/
theorem callback_bodies_read_back {toVec : ToVec} {fromSlice : FromSlice} (h : ReadsBack toVec fromSlice) :
    (∀ r, toVec (InspectionReport.toJson r) = none ∧ reportBody toVec r = .error .serialize ∨
      ∃ bytes, reportBody toVec r = .ok bytes ∧ readReport fromSlice bytes = some r) ∧
    (∀ r r' bytes, reportBody toVec r = .ok bytes → reportBody toVec r' = .ok bytes → r = r') ∧
    ∀ reason, toVec (.obj [("reason", .str reason)]) = none ∧ provisionFailedBody toVec reason = .error .serialize ∨
      ∃ bytes, provisionFailedBody toVec reason = .ok bytes ∧ fromSlice bytes = some (.obj [("reason", .str reason)]) := by
  have hread (r : InspectionReport) (bytes : List UInt8) (hbody : reportBody toVec r = .ok bytes) :
      readReport fromSlice bytes = some r := by
    rw [readReport, h _ bytes (serialize_ok hbody)]
    exact InspectionReport.ofJson_toJson r
  refine ⟨fun r => ?_, fun r r' bytes hbody hbody' => ?_, fun reason => ?_⟩
  · rcases serialize_cases toVec (InspectionReport.toJson r) with hnone | ⟨bytes, hbody⟩
    · exact .inl hnone
    · exact .inr ⟨bytes, hbody, hread r bytes hbody⟩
  · have hsame := hread r bytes hbody
    rw [hread r' bytes hbody'] at hsame
    exact (Option.some.inj hsame).symm
  · rcases serialize_cases toVec (.obj [("reason", .str reason)]) with hnone | ⟨bytes, hbody⟩
    · exact .inl hnone
    · exact .inr ⟨bytes, hbody, h _ bytes (serialize_ok hbody)⟩

/-- Compact text without a blank, and a reader of any JSON text. -/
def compact (j : Value) : Option (List UInt8) := some (utf8 (String.ofList (render j)))

def readText (bytes : List UInt8) : Option Value := parse (fromUtf8Lossy bytes)

theorem compact_readsBack : ReadsBack compact readText := by
  intro j bytes hbytes
  cases hbytes
  rw [readText, fromUtf8Lossy_utf8, parse_render]

/-- The constant body is what the library would write. -/
theorem provisionedBody_compact : compact (.obj [("status", .str "provisioned")]) = some PROVISIONED_BODY := by
  have hrender : render (.obj [("status", .str "provisioned")]) = "\x7b\"status\":\"provisioned\"\x7d".toList := by
    decide
  rw [compact, hrender, String.ofList_toList]
  rfl

/-- A host with one disk and a name that has to be escaped. -/
def sampleReport : InspectionReport :=
  ⟨"A \"B\" C", "R\\1", "", [⟨"CPU0", "", "", 8, 16, "2.4GHz"⟩], [], [⟨"sda", "", 500, "SSD", "S1"⟩],
    [⟨"eth0", "52:54:00:00:00:01", "", "", ["10.0.0.5", "fe80::1"]⟩], "UEFI", "1.0"⟩

theorem callback_bodies_read_back_compact :
    ∃ bytes, reportBody compact sampleReport = .ok bytes ∧ readReport readText bytes = some sampleReport := by
  rcases (callback_bodies_read_back compact_readsBack).1 sampleReport with ⟨hnone, _⟩ | hbody
  · cases hnone
  · exact hbody

end Beskar7Inspector.ReportJson
