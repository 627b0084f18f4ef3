import Beskar7Inspector.DiskReport
import Beskar7Inspector.MemoryReport
import Beskar7Inspector.SystemDisks

namespace Beskar7Inspector.Probe

open Lib.Text Smbios SysTree Client MemoryReport

def typeBios : UInt8 := 0
def typeSystem : UInt8 := 1
def typeProcessor : UInt8 := 4
def offBiosVersion : Nat := 0x05
def offSysManufacturer : Nat := 0x04
def offSysProduct : Nat := 0x05
def offSysSerial : Nat := 0x07
def processorTypeCentral : UInt8 := 3
def statusPopulated : UInt8 := 0x40
def countUseExtended : UInt8 := 0xFF
def offSocketDesignation : Nat := 0x04
def offProcessorType : Nat := 0x05
def offManufacturer : Nat := 0x07
def offVersion : Nat := 0x10
def offCurrentSpeed : Nat := 0x16
def offStatus : Nat := 0x18
def offCoreCount : Nat := 0x23
def offThreadCount : Nat := 0x25
def offCoreCount2 : Nat := 0x2A
def offThreadCount2 : Nat := 0x2E
def mbpsPerGbps : Int := 1000

structure SystemInfo where
  manufacturer : String
  model : String
  serialNumber : String
  firmwareVersion : String
  bootMode : String

def findType (structures : List Structure) (headerType : UInt8) : Option Structure :=
  structures.find? (fun s => s.headerType = headerType)

def SystemInfo.fromParts (structures : List Structure) (efiPresent : Bool) : SystemInfo :=
  let system := findType structures typeSystem
  let bios := findType structures typeBios
  { manufacturer := cleaned (system.bind (·.string offSysManufacturer))
    model := cleaned (system.bind (·.string offSysProduct))
    serialNumber := cleaned (system.bind (·.string offSysSerial))
    firmwareVersion := cleaned (bios.bind (·.string offBiosVersion))
    bootMode := if efiPresent then "UEFI" else "Legacy" }

/-- How floating-point numbers are written, and addresses. -/
structure Formats (Ip : Type) where
  /-- A speed in MHz as GHz, with one decimal. -/
  ghz : UInt16 → String
  /-- A speed in Mbit/s as a fraction of Gbit/s. -/
  gbps : Int → String
  address : Ip → String

variable {Ip : Type} (formats : Formats Ip)

/-! Processors, one entry for each package. -/

def isCentralPopulated (s : Structure) : Bool :=
  if s.byte offProcessorType ≠ some processorTypeCentral then false
  else match s.byte offStatus with
    | some status => status &&& statusPopulated ≠ 0
    | none => true

def count (s : Structure) (byteOff wordOff : Nat) : UInt32 :=
  match s.byte byteOff with
  | some n => if n = countUseExtended then ((s.word wordOff).map UInt16.toUInt32).getD 0 else n.toUInt32
  | none => 0

def frequency (mhz : Option UInt16) : String :=
  match mhz with
  | none => ""
  | some m => if m = 0 ∨ m = speedUnknown then "" else formats.ghz m

def decodeCpu (s : Structure) : Cpu where
  id := cleaned (s.string offSocketDesignation)
  vendor := cleaned (s.string offManufacturer)
  model := cleaned (s.string offVersion)
  cores := count s offCoreCount offCoreCount2
  threads := count s offThreadCount offThreadCount2
  frequency := frequency formats (s.word offCurrentSpeed)

def collectCpus (structures : List Structure) : List Cpu :=
  ((structures.filter (fun s => s.headerType = typeProcessor)).filter isCentralPopulated).map (decodeCpu formats)

/-! Network interfaces, one entry for each physical one. -/

def parseI64 (s : String) : Option Int :=
  match stripPrefix "-" s with
  | some digits =>
      if (stripPrefix "+" digits).isSome then none else (parseUnsigned (2 ^ 63 + 1) digits).map (fun n => -(n : Int))
  | none => (parseUnsigned (2 ^ 63) s).map Int.ofNat

def linkSpeed (raw : Option String) : String :=
  match (raw.bind parseI64).filter (0 < ·) with
  | none => ""
  | some mbps =>
      if mbps % mbpsPerGbps = 0 then toString (mbps / mbpsPerGbps) ++ "Gbps"
      else if mbpsPerGbps < mbps then formats.gbps mbps ++ "Gbps"
      else toString mbps ++ "Mbps"

/-- The interfaces in sysfs, where the links to their drivers lead, and what the
kernel says of their addresses. -/
structure Interfaces (Ip : Type) where
  net : SysDir
  driverLink : String → Option String
  ifaddrs : Option (List (String × Option Ip))

/-- The addresses of an interface, each once, in order; those of another family are left out. -/
def interfaceAddresses [LinearOrder Ip] (interfaces : Interfaces Ip) (name : String) : List Ip :=
  (((interfaces.ifaddrs.getD []).filter (fun a => a.1 = name)).filterMap Prod.snd |>.insertionSort (· ≤ ·)).destutter (· ≠ ·)

def driver (interfaces : Interfaces Ip) (name : String) : String :=
  ((interfaces.driverLink name).bind SystemDisks.fileName).getD ""

def decodeNic [LinearOrder Ip] (interfaces : Interfaces Ip) (name : String) : Option Nic :=
  if !interfaces.net.pathExists [name, "device"] then none
  else some {
    name := name
    macAddress := (interfaces.net.readTrimmed [name, "address"]).getD ""
    driver := driver interfaces name
    speed := linkSpeed formats (interfaces.net.readTrimmed [name, "speed"])
    ipAddresses := (interfaceAddresses interfaces name).map formats.address }

def collectNics [LinearOrder Ip] (interfaces : Interfaces Ip) : List Nic :=
  (((interfaces.net.readDir []).getD []).insertionSort (· ≤ ·)).filterMap (decodeNic formats interfaces)

/-! The whole report. -/

def assemble (structures : List Structure) (efiPresent : Bool) (disks : List Disk) (nics : List Nic) : InspectionReport :=
  let system := SystemInfo.fromParts structures efiPresent
  { manufacturer := system.manufacturer
    model := system.model
    serialNumber := system.serialNumber
    cpus := collectCpus formats structures
    memory := MemoryReport.collect structures
    disks := disks
    nics := nics
    bootModeDetected := system.bootMode
    firmwareVersion := system.firmwareVersion }

/-- What is read of the host: its tables, when they can be read, and its devices. -/
structure Hardware (Ip : Type) where
  dmi : Option (List UInt8)
  efiPresent : Bool
  block : SysDir
  interfaces : Interfaces Ip

/-- Tables that cannot be read or parsed leave their part of the report empty. -/
def collect [LinearOrder Ip] (hardware : Hardware Ip) : InspectionReport :=
  let structures := match hardware.dmi.bind parseTable with
    | some (.ok structures) => structures
    | _ => []
  assemble formats structures hardware.efiPresent (DiskReport.collectFrom hardware.block)
    (collectNics formats hardware.interfaces)

end Beskar7Inspector.Probe
