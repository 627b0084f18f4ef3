import Beskar7Inspector.DiskSelection

namespace Beskar7Inspector.DiskPolicy

open Lib.Text SysTree DiskSelection

def listed (block : SysDir) : List String := (block.readDir []).getD []

/-- The size in bytes; an attribute that is missing or does not parse counts as zero. -/
def diskSize (block : SysDir) (kname : String) : Nat :=
  (((block.readTrimmed [kname, "size"]).bind parseU64).map UInt64.toNat).getD 0 * 512

/-- The policy: a whole disk the operator may lose. -/
structure Eligible (block : SysDir) (minBytes : UInt64) (backing : Finset String) (kname : String) : Prop where
  isListed : kname ∈ listed block
  physical : block.pathExists [kname, "device"] = true
  fixed : block.readTrimmed [kname, "removable"] ≠ some "1"
  writable : block.readTrimmed [kname, "ro"] ≠ some "1"
  notBacking : kname ∉ backing
  nonEmpty : diskSize block kname ≠ 0
  floor : minBytes.toNat ≤ diskSize block kname

structure Describes (block : SysDir) (d : TargetDisk) : Prop where
  isListed : d.kname ∈ listed block
  size : d.sizeBytes.toNat = diskSize block d.kname
  devNumber : d.devNumber = (block.readTrimmed [d.kname, "dev"]).getD ""

/-- What a selection with the pin `k` must come to. -/
def PinnedOutcome (block classBlock : SysDir) (minBytes : UInt64) (backing : Finset String) (k : String) :
    Except DiskError TargetDisk → Prop
  | .ok d => d.kname = k ∧ Describes block d ∧ Eligible block minBytes backing k
  | .error (.pinIneligible name _) => name = k ∧ k ∈ listed block ∧ ¬Eligible block minBytes backing k
  | .error (.pinNotWholeDisk name) => name = k ∧ k ∉ listed block ∧ classBlock.pathExists [k, "partition"] = true
  | .error (.pinNotBlockDevice name) => name = k ∧ k ∉ listed block ∧ classBlock.pathExists [k, "partition"] = false
  | .error _ => False

/-- What a selection without a pin must come to. -/
def AutoOutcome (block : SysDir) (minBytes : UInt64) (backing : Finset String) : Except DiskError TargetDisk → Prop
  | .ok d => Describes block d ∧ Eligible block minBytes backing d.kname ∧
      ∀ other, Eligible block minBytes backing other →
        diskSize block d.kname < diskSize block other ∨
          diskSize block d.kname = diskSize block other ∧ d.kname ≤ other
  | .error e => e = .noEligibleDisk ∧ ∀ k, ¬Eligible block minBytes backing k

section

variable {block classBlock : SysDir} {minBytes : UInt64} {backing : Finset String}

theorem mem_enumerate_iff {c : Candidate} : c ∈ enumerate block ↔ c.kname ∈ listed block ∧ c = readCandidate block c.kname := by
  rw [enumerate, List.mem_map]
  constructor
  · rintro ⟨k, hk, rfl⟩
    exact ⟨(List.mem_insertionSort _).mp hk, rfl⟩
  · rintro ⟨hk, hc⟩
    exact ⟨c.kname, (List.mem_insertionSort _).mpr hk, hc.symm⟩

theorem sizeBytes_readCandidate {k : String} (h : diskSize block k < 2 ^ 63) :
    (readCandidate block k).sizeBytes.toNat = diskSize block k := by
  rw [diskSize] at h ⊢
  cases hs : (block.readTrimmed [k, "size"]).bind parseU64 with
  | none => simp [readCandidate, hs]
  | some sectors =>
      rw [hs, Option.map_some, Option.getD_some] at h
      simp only [readCandidate, hs, Option.map_some, Option.getD_some, bytesPerSector, UInt64.toNat_mul]
      exact Nat.mod_eq_of_lt (h.trans (by decide))

theorem eligible_iff {k : String} (hk : k ∈ listed block) (h : diskSize block k < 2 ^ 63) :
    Eligible block minBytes backing k ↔ classify (readCandidate block k) minBytes backing = .ok () := by
  have hsize := sizeBytes_readCandidate h
  have hzero : (readCandidate block k).sizeBytes ≠ 0 ↔ diskSize block k ≠ 0 := by
    rw [← hsize, ne_eq, ne_eq, ← UInt64.toNat_inj]
    rfl
  have hfloor : ¬(readCandidate block k).sizeBytes < minBytes ↔ minBytes.toNat ≤ diskSize block k := by
    rw [UInt64.lt_iff_toNat_lt, hsize, not_lt]
  rw [classify_ok_iff, hzero, hfloor]
  constructor
  · intro h
    exact ⟨h.physical, by simpa [readCandidate] using h.fixed, by simpa [readCandidate] using h.writable,
      h.notBacking, h.nonEmpty, h.floor⟩
  · intro ⟨hphysical, hfixed, hwritable, hbacking, hempty, hfloor⟩
    exact ⟨hk, hphysical, by simpa [readCandidate] using hfixed, by simpa [readCandidate] using hwritable, hbacking,
      hempty, hfloor⟩

theorem describes_target {c : Candidate} (hc : c ∈ enumerate block) (h : diskSize block c.kname < 2 ^ 63) :
    Describes block c.target := by
  obtain ⟨hk, heq⟩ := mem_enumerate_iff.mp hc
  constructor
  · exact hk
  · change c.sizeBytes.toNat = diskSize block c.kname
    rw [← sizeBytes_readCandidate h, ← heq]
  · change c.devNumber = (block.readTrimmed [c.kname, "dev"]).getD ""
    rw [heq]
    rfl

theorem selectCore_pinned (hsize : ∀ k ∈ listed block, diskSize block k < 2 ^ 63) (k : String) :
    PinnedOutcome block classBlock minBytes backing k (selectCore block classBlock (some k) minBytes backing) := by
  simp only [selectCore]
  cases hf : (enumerate block).find? (fun c => c.kname == k) with
  | none =>
      have hk : k ∉ listed block := by
        intro hk
        rw [List.find?_eq_none] at hf
        exact hf (readCandidate block k) (mem_enumerate_iff.mpr ⟨hk, rfl⟩) (by simp [readCandidate])
      by_cases hp : isPartition classBlock k = true
      · simp only [hp, if_true]
        exact ⟨rfl, hk, hp⟩
      · simp only [hp, Bool.false_eq_true, if_false]
        exact ⟨rfl, hk, by simpa [isPartition] using hp⟩
  | some c =>
      have hc := List.mem_of_find?_eq_some hf
      obtain ⟨hlisted, heq⟩ := mem_enumerate_iff.mp hc
      obtain rfl : c.kname = k := by simpa using List.find?_some hf
      have heligible : Eligible block minBytes backing c.kname ↔
          classify (readCandidate block c.kname) minBytes backing = .ok () := eligible_iff hlisted (hsize _ hlisted)
      rw [← heq] at heligible
      cases hcl : classify c minBytes backing with
      | ok u =>
          simp only [hcl]
          exact ⟨rfl, describes_target hc (hsize _ hlisted), heligible.mpr hcl⟩
      | error reason =>
          simp only [hcl]
          refine ⟨rfl, hlisted, fun h => ?_⟩
          rw [heligible.mp h] at hcl
          cases hcl

theorem pairwise_enumerate (block : SysDir) : (enumerate block).Pairwise (fun a b => a.kname ≤ b.kname) := by
  rw [enumerate, List.pairwise_map]
  exact List.pairwise_insertionSort (· ≤ ·) _

theorem mem_eligible_iff (hsize : ∀ k ∈ listed block, diskSize block k < 2 ^ 63) {c : Candidate} :
    c ∈ (enumerate block).filter (fun c => (classify c minBytes backing).isOk) ↔
      c = readCandidate block c.kname ∧ Eligible block minBytes backing c.kname := by
  have hok : (classify c minBytes backing).isOk = true ↔ classify c minBytes backing = .ok () := by
    cases classify c minBytes backing <;> simp [Except.isOk, Except.toBool]
  rw [List.mem_filter, mem_enumerate_iff, hok]
  constructor
  · rintro ⟨⟨hlisted, heq⟩, hcl⟩
    rw [heq] at hcl
    exact ⟨heq, (eligible_iff hlisted (hsize _ hlisted)).mpr hcl⟩
  · rintro ⟨heq, helig⟩
    have hcl := (eligible_iff helig.isListed (hsize _ helig.isListed)).mp helig
    rw [← heq] at hcl
    exact ⟨⟨helig.isListed, heq⟩, hcl⟩

theorem selectCore_auto (hsize : ∀ k ∈ listed block, diskSize block k < 2 ^ 63) :
    AutoOutcome block minBytes backing (selectCore block classBlock none minBytes backing) := by
  simp only [selectCore, autoSelect]
  cases hm : minByKey Candidate.sizeBytes
      ((enumerate block).filter fun c => (classify c minBytes backing).isOk) with
  | none =>
      refine ⟨rfl, fun k helig => ?_⟩
      have hmem : readCandidate block k ∈ (enumerate block).filter fun c => (classify c minBytes backing).isOk :=
        (mem_eligible_iff hsize).mpr ⟨rfl, helig⟩
      cases hf : (enumerate block).filter fun c => (classify c minBytes backing).isOk with
      | nil => simp [hf] at hmem
      | cons c cs => simp [hf, minByKey] at hm
  | some c =>
      obtain ⟨front, back, hsplit, hfront, hback⟩ := minByKey_split hm
      have hc := List.mem_filter.mp (minByKey_mem hm)
      have helig := ((mem_eligible_iff hsize).mp (minByKey_mem hm)).2
      have hsizeof := (describes_target hc.1 (hsize _ helig.isListed)).size
      refine ⟨describes_target hc.1 (hsize _ helig.isListed), helig, fun other hother => ?_⟩
      have hmem : readCandidate block other ∈ (enumerate block).filter fun c => (classify c minBytes backing).isOk :=
        (mem_eligible_iff hsize).mpr ⟨rfl, hother⟩
      have hothersize := sizeBytes_readCandidate (hsize _ hother.isListed)
      have hsorted := (pairwise_enumerate block).filter fun c => (classify c minBytes backing).isOk
      rw [hsplit, List.mem_append, List.mem_cons] at hmem
      rw [hsplit, List.pairwise_append, List.pairwise_cons] at hsorted
      change c.sizeBytes.toNat = diskSize block c.kname at hsizeof
      change diskSize block c.kname < diskSize block other ∨
        diskSize block c.kname = diskSize block other ∧ c.kname ≤ other
      rw [← hsizeof, ← hothersize]
      rcases hmem with hmem | hmem | hmem
      · exact .inl (UInt64.lt_iff_toNat_lt.mp (hfront _ hmem))
      · exact .inr ⟨by rw [hmem], by rw [← hmem]; exact String.le_refl _⟩
      · have hle := UInt64.le_iff_toNat_le.mp (hback _ hmem)
        exact (Nat.lt_or_eq_of_le hle).imp_right fun heq => ⟨heq, hsorted.2.1.1 _ hmem⟩

end

theorem selectCore_policy (block classBlock : SysDir) (minBytes : UInt64) (backing : Finset String)
    (hsize : ∀ k ∈ listed block, diskSize block k < 2 ^ 63) :
    (∀ k, PinnedOutcome block classBlock minBytes backing k (selectCore block classBlock (some k) minBytes backing)) ∧
      AutoOutcome block minBytes backing (selectCore block classBlock none minBytes backing) :=
  ⟨selectCore_pinned hsize, selectCore_auto hsize⟩

/-- Two disks of one size, the second listed first. -/
def twinDisks : SysDir where
  entries := [("sdb", .dir [("size", .attr (some "2048")), ("dev", .attr (some "8:16")), ("device", .dir [])]),
    ("sda", .dir [("size", .attr (some "2048\n")), ("dev", .attr (some "8:0")), ("device", .dir [])])]
  distinct := by decide

theorem selectCore_policy_twinDisks :
    AutoOutcome twinDisks 0 ∅ (selectCore twinDisks ⟨[], List.nodup_nil⟩ none 0 ∅) :=
  (selectCore_policy twinDisks ⟨[], List.nodup_nil⟩ 0 ∅ (by decide +kernel)).2

end Beskar7Inspector.DiskPolicy
