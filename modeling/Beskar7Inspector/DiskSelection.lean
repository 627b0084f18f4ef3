import Beskar7Inspector.Lib.DepthFirst
import Beskar7Inspector.SysTree
import Mathlib.Data.List.Sort

namespace Beskar7Inspector.DiskSelection

open Lib.Text SysTree

def bytesPerSector : UInt64 := 512

def maxSlaveDepth : Nat := 16

structure TargetDisk where
  kname : String
  sizeBytes : UInt64
  devNumber : String
  deriving DecidableEq, Repr

def TargetDisk.devPath (t : TargetDisk) : String := "/dev/" ++ t.kname

inductive Ineligible
  | notPhysical
  | removable
  | readOnly
  | systemBacking
  | empty
  | tooSmall (sizeBytes minBytes : UInt64)
  deriving DecidableEq, Repr

inductive DiskError
  | pinNotFound (pin : String)
  | pinNotBlockDevice (kname : String)
  | pinNotWholeDisk (kname : String)
  | pinIneligible (kname : String) (reason : Ineligible)
  | noEligibleDisk
  deriving DecidableEq, Repr

structure Candidate where
  kname : String
  sizeBytes : UInt64
  devNumber : String
  removable : Bool
  readOnly : Bool
  physical : Bool
  deriving DecidableEq, Repr

def Candidate.target (c : Candidate) : TargetDisk := ⟨c.kname, c.sizeBytes, c.devNumber⟩

/-- One candidate from its sysfs attributes. A size that is missing or does not
parse counts as zero, and the sector count is scaled modulo two to the 64. -/
def readCandidate (block : SysDir) (kname : String) : Candidate where
  kname := kname
  sizeBytes := (((block.readTrimmed [kname, "size"]).bind parseU64).map (· * bytesPerSector)).getD 0
  devNumber := (block.readTrimmed [kname, "dev"]).getD ""
  removable := block.readTrimmed [kname, "removable"] == some "1"
  readOnly := block.readTrimmed [kname, "ro"] == some "1"
  physical := block.pathExists [kname, "device"]

def enumerate (block : SysDir) : List Candidate :=
  (((block.readDir []).getD []).insertionSort (· ≤ ·)).map (readCandidate block)

def classify (c : Candidate) (minBytes : UInt64) (ramdisk : Finset String) : Except Ineligible Unit :=
  if !c.physical then .error .notPhysical
  else if c.removable then .error .removable
  else if c.readOnly then .error .readOnly
  else if c.kname ∈ ramdisk then .error .systemBacking
  else if c.sizeBytes = 0 then .error .empty
  else if c.sizeBytes < minBytes then .error (.tooSmall c.sizeBytes minBytes)
  else .ok ()

/-- The first element with the least key. -/
def minByKey {α : Type} (key : α → UInt64) : List α → Option α
  | [] => none
  | a :: as => some (as.foldl (fun best b => if key b < key best then b else best) a)

def autoSelect (candidates : List Candidate) (minBytes : UInt64) (ramdisk : Finset String) :
    Except DiskError TargetDisk :=
  match minByKey Candidate.sizeBytes (candidates.filter (fun c => (classify c minBytes ramdisk).isOk)) with
  | some c => .ok c.target
  | none => .error .noEligibleDisk

def isPartition (classBlock : SysDir) (kname : String) : Bool := classBlock.pathExists [kname, "partition"]

def selectCore (block classBlock : SysDir) (pin : Option String) (minBytes : UInt64)
    (ramdisk : Finset String) : Except DiskError TargetDisk :=
  let candidates := enumerate block
  match pin with
  | some kname => match candidates.find? (fun c => c.kname == kname) with
      | some c => match classify c minBytes ramdisk with
          | .ok () => .ok c.target
          | .error reason => .error (.pinIneligible kname reason)
      | none =>
          if isPartition classBlock kname then .error (.pinNotWholeDisk kname)
          else .error (.pinNotBlockDevice kname)
  | none => autoSelect candidates minBytes ramdisk

def slaveNames (block : SysDir) (kname : String) : List String := (block.readDir [kname, "slaves"]).getD []

/-- The first listed disk that has `part` as a subdirectory. -/
def parentWholeDisk (block : SysDir) (part : String) : Option String :=
  ((block.readDir []).getD []).find? (fun disk => block.isDir [disk, part])

def stripPartitionSuffix (name : String) : String :=
  let trimmed := trimEndMatches isAsciiDigit name
  match trimmed.toList.reverse with
  | 'p' :: base => if base.head?.any isAsciiDigit then String.ofList base.reverse else trimmed
  | _ => trimmed

/-- Accumulate the whole disks under `leaf`; the state is the visited set and
the output set. -/
def collectPhysical (block : SysDir) : Nat → String → Finset String × Finset String →
    Finset String × Finset String
  | 0, _, st => st
  | depth + 1, leaf, (visited, out) =>
      if leaf ∈ visited then (visited, out)
      else
        let visited := insert leaf visited
        if block.pathExists [leaf] then
          let slaves := slaveNames block leaf
          if slaves.isEmpty then (visited, insert leaf out)
          else slaves.foldl (fun st slave => collectPhysical block depth slave st) (visited, out)
        else match parentWholeDisk block leaf with
          -- A partition: its disk is recorded as it is, whatever the disk itself is made of.
          | some parent => (visited, insert parent out)
          | none => (visited, insert (stripPartitionSuffix leaf) out)

def backingWholeDisks (leaves : List String) (block : SysDir) : Finset String :=
  leaves.foldl (fun out leaf => (collectPhysical block maxSlaveDepth leaf (∅, out)).2) ∅

example : stripPartitionSuffix "nvme0n1p12" = "nvme0n1" := by decide

example : stripPartitionSuffix "sda" = "sda" := by decide

/-! What one enumeration and one classification say. -/

theorem classify_ok_iff (c : Candidate) (minBytes : UInt64) (ramdisk : Finset String) :
    classify c minBytes ramdisk = .ok () ↔
      c.physical = true ∧ c.removable = false ∧ c.readOnly = false ∧ c.kname ∉ ramdisk ∧
        c.sizeBytes ≠ 0 ∧ ¬ c.sizeBytes < minBytes := by
  rw [classify]
  cases c.physical <;> cases c.removable <;> cases c.readOnly <;> simp
  grind

/-- The least element is below all before it and not above any after it. -/
theorem minByKey_split {α : Type} {key : α → UInt64} {as : List α} {a : α} (h : minByKey key as = some a) :
    ∃ front back, as = front ++ a :: back ∧ (∀ b ∈ front, key a < key b) ∧ ∀ b ∈ back, key a ≤ key b := by
  have hfold : ∀ (cs : List α) (best : α) (front back : List α), (∀ b ∈ front, key best < key b) →
      (∀ b ∈ back, key best ≤ key b) → ∃ front' back', front ++ best :: back ++ cs =
        front' ++ cs.foldl (fun best b => if key b < key best then b else best) best :: back' ∧
          (∀ b ∈ front', key (cs.foldl (fun best b => if key b < key best then b else best) best) < key b) ∧
            ∀ b ∈ back', key (cs.foldl (fun best b => if key b < key best then b else best) best) ≤ key b := by
    intro cs
    induction cs with
    | nil =>
        intro best front back hfront hback
        exact ⟨front, back, by simp, hfront, hback⟩
    | cons c cs ih =>
        intro best front back hfront hback
        rw [List.foldl_cons]
        by_cases hc : key c < key best
        · rw [if_pos hc]
          obtain ⟨front', back', heq, hrest⟩ := ih c (front ++ best :: back) [] (fun b hb => by
            rw [List.mem_append, List.mem_cons] at hb
            rcases hb with hb | rfl | hb
            · exact UInt64.lt_trans hc (hfront b hb)
            · exact hc
            · exact UInt64.lt_of_lt_of_le hc (hback b hb)) (by simp)
          exact ⟨front', back', by rw [← heq]; simp, hrest⟩
        · rw [if_neg hc]
          obtain ⟨front', back', heq, hrest⟩ := ih best front (back ++ [c]) hfront (fun b hb => by
            rw [List.mem_append, List.mem_singleton] at hb
            rcases hb with hb | rfl
            · exact hback b hb
            · exact UInt64.not_lt.mp hc)
          exact ⟨front', back', by rw [← heq]; simp, hrest⟩
  cases as with
  | nil => simp [minByKey] at h
  | cons b bs =>
      rw [minByKey, Option.some.injEq] at h
      obtain ⟨front, back, heq, hrest⟩ := hfold bs b [] [] (by simp) (by simp)
      rw [h] at heq hrest
      exact ⟨front, back, by simpa using heq, hrest⟩

theorem minByKey_mem {α : Type} {key : α → UInt64} {as : List α} {a : α} (h : minByKey key as = some a) :
    a ∈ as := by
  obtain ⟨front, back, rfl, _⟩ := minByKey_split h
  simp

/-- A returned target is an enumerated disk that passed every check. -/
theorem selectCore_ok {block classBlock : SysDir} {pin : Option String} {minBytes : UInt64}
    {ramdisk : Finset String} {t : TargetDisk} (h : selectCore block classBlock pin minBytes ramdisk = .ok t) :
    ∃ c ∈ enumerate block, classify c minBytes ramdisk = .ok () ∧ t = c.target ∧
      ∀ k, pin = some k → c.kname = k := by
  cases pin with
  | some k =>
      simp only [selectCore] at h
      cases hf : (enumerate block).find? (fun c => c.kname == k) with
      | none =>
          simp only [hf] at h
          split at h <;> cases h
      | some c =>
          simp only [hf] at h
          cases hc : classify c minBytes ramdisk with
          | error reason =>
              rw [hc] at h
              cases h
          | ok u =>
              rw [hc] at h
              cases h
              refine ⟨c, List.mem_of_find?_eq_some hf, hc, rfl, ?_⟩
              intro k' hk
              cases hk
              simpa using List.find?_some hf
  | none =>
      simp only [selectCore, autoSelect] at h
      split at h
      · rename_i c hm
        cases h
        obtain ⟨hc, hok⟩ := List.mem_filter.mp (minByKey_mem hm)
        refine ⟨c, hc, ?_, rfl, by simp⟩
        cases hcl : classify c minBytes ramdisk with
        | ok u => rfl
        | error e => simp [hcl, Except.isOk, Except.toBool] at hok
      · cases h

end Beskar7Inspector.DiskSelection
