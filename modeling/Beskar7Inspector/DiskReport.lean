import Beskar7Inspector.Client
import Beskar7Inspector.DiskSelection

namespace Beskar7Inspector.DiskReport

open Lib.Text SysTree DiskSelection

def bytesPerGb : UInt64 := 1000000000

/-- The drive type by its name, or else by the kernel's rotational flag. -/
def diskType (name : String) (rotational : Option String) : String :=
  if "nvme".toList <+: name.toList then "NVMe"
  else if rotational = some "0" then "SSD"
  else "HDD"

def serial (block : SysDir) (name : String) : String :=
  ((block.readTrimmed [name, "device", "serial"]).or (block.readTrimmed [name, "device", "wwid"])).getD ""

/-- One entry of the block directory; none when it is not a fixed disk. -/
def decode (block : SysDir) (name : String) : Option Client.Disk :=
  if !block.pathExists [name, "device"] then none
  else if block.readTrimmed [name, "removable"] = some "1" then none
  else match (block.readTrimmed [name, "size"]).bind parseU64 with
    | none => none
    | some sectors =>
        if sectors = 0 then none
        else some {
          name := "/dev/" ++ name
          model := (block.readTrimmed [name, "device", "model"]).getD ""
          sizeGb := sectors * bytesPerSector / bytesPerGb
          diskType := diskType name (block.readTrimmed [name, "queue", "rotational"])
          serialNumber := serial block name
        }

def collectFrom (block : SysDir) : List Client.Disk :=
  (((block.readDir []).getD []).insertionSort (· ≤ ·)).filterMap (decode block)

theorem decode_name {block : SysDir} {name : String} {disk : Client.Disk} (h : decode block name = some disk) :
    disk.name = "/dev/" ++ name := by
  rw [decode] at h
  split at h
  · cases h
  · split at h
    · cases h
    · split at h
      · cases h
      · split at h
        · cases h
        · cases h
          rfl

theorem names_nodup (block : SysDir) : (((block.readDir []).getD []).insertionSort (· ≤ ·)).Nodup :=
  (List.perm_insertionSort _ _).nodup_iff.mpr block.distinct

/-- Of distinct names, one decodes to the disk of that name. -/
theorem filter_collected {block : SysDir} {names : List String} {name : String} {disk : Client.Disk}
    (hnodup : names.Nodup) (hmem : name ∈ names) (hdisk : decode block name = some disk) :
    (names.filterMap (decode block)).filter (fun d => d.name = "/dev/" ++ name) = [disk] := by
  have hother : ∀ other d, other ≠ name → decode block other = some d → d.name ≠ "/dev/" ++ name := by
    intro other d hne hd hname
    rw [decode_name hd, String.append_right_inj] at hname
    exact hne hname
  induction names with
  | nil => cases hmem
  | cons first rest ih =>
      obtain ⟨hfirst, hrest⟩ := List.nodup_cons.mp hnodup
      by_cases he : first = name
      · subst he
        have hnone : (rest.filterMap (decode block)).filter (fun d => d.name = "/dev/" ++ first) = [] := by
          rw [List.filter_eq_nil_iff]
          intro d hd
          obtain ⟨other, hmem, hd⟩ := List.mem_filterMap.mp hd
          have hne : other ≠ first := by
            intro he
            exact hfirst (he ▸ hmem)
          simpa using hother other d hne hd
        rw [List.filterMap_cons_some hdisk, List.filter_cons_of_pos (by simpa using decode_name hdisk), hnone]
      · have hin : name ∈ rest := (List.mem_cons.mp hmem).resolve_left (Ne.symm he)
        cases hd : decode block first with
        | none => rw [List.filterMap_cons_none hd, ih hrest hin]
        | some d =>
            rw [List.filterMap_cons_some hd, List.filter_cons_of_neg (by simpa using hother first d he hd), ih hrest hin]

/-- A candidate that passed the checks of the selection passes those of the report. -/
theorem decode_of_classify {block : SysDir} {name : String} {minBytes : UInt64} {ramdisk : Finset String}
    (h : classify (readCandidate block name) minBytes ramdisk = .ok ()) :
    ∃ disk, decode block name = some disk ∧ disk.sizeGb = (readCandidate block name).sizeBytes / bytesPerGb := by
  obtain ⟨hphysical, hremovable, -, -, hsize, -⟩ := (classify_ok_iff _ _ _).mp h
  have hdevice : block.pathExists [name, "device"] = true := hphysical
  have hfixed : block.readTrimmed [name, "removable"] ≠ some "1" := by
    simpa [readCandidate] using hremovable
  cases hs : (block.readTrimmed [name, "size"]).bind parseU64 with
  | none =>
      have hzero : (readCandidate block name).sizeBytes = 0 := by
        simp [readCandidate, hs]
      exact absurd hzero hsize
  | some sectors =>
      have hbytes : (readCandidate block name).sizeBytes = sectors * bytesPerSector := by
        simp [readCandidate, hs]
      have hsectors : sectors ≠ 0 := by
        intro hzero
        apply hsize
        rw [hbytes, hzero]
        rfl
      simp [decode, hdevice, hfixed, hs, hsectors, hbytes]

/-- The disk that is selected stands in the report, once and with its size. -/
theorem selectCore_reported (block classBlock : SysDir) (pin : Option String) (minBytes : UInt64)
    (ramdisk : Finset String) (t : TargetDisk) (h : selectCore block classBlock pin minBytes ramdisk = .ok t) :
    ∃ disk, (collectFrom block).filter (fun d => d.name = "/dev/" ++ t.kname) = [disk] ∧
      disk.sizeGb = t.sizeBytes / 1000000000 := by
  obtain ⟨c, hc, hok, rfl, -⟩ := selectCore_ok h
  obtain ⟨name, hname, rfl⟩ := List.mem_map.mp hc
  obtain ⟨disk, hdisk, hsize⟩ := decode_of_classify hok
  exact ⟨disk, filter_collected (names_nodup block) hname hdisk, hsize⟩

/-- An optical drive beside one disk of 960 decimal gigabytes. -/
def oneFixedDisk : SysDir where
  entries := [("sr0", .dir [("size", .attr (some "2048\n")), ("removable", .attr (some "1\n")), ("device", .dir [])]),
    ("nvme0n1", .dir [("size", .attr (some "1875000000\n")), ("dev", .attr (some "259:0\n")), ("device", .dir [])])]
  distinct := by decide

theorem selectCore_reported_oneFixedDisk :
    ∃ disk, (collectFrom oneFixedDisk).filter (fun d => d.name = "/dev/" ++ "nvme0n1") = [disk] ∧
      disk.sizeGb = 960000000000 / 1000000000 :=
  selectCore_reported oneFixedDisk ⟨[], List.nodup_nil⟩ none 0 ∅ ⟨"nvme0n1", 960000000000, "259:0"⟩ (by rfl)

end Beskar7Inspector.DiskReport
