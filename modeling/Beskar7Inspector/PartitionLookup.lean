import Beskar7Inspector.Esp

namespace Beskar7Inspector.PartitionLookup

open SysTree Oem Esp

def IsPartitionOf (block : SysDir) (disk part : String) : Prop :=
  part ∈ (block.readDir [disk]).getD [] ∧ block.pathExists [disk, part, "partition"] = true

/-- `COS_OEM` is the first partition in name order with that label. -/
def OemOutcome (block : SysDir) (disk : String) (labelOf : String → Option String) :
    Except OemError OemPartition → Prop
  | .ok p => IsPartitionOf block disk p.kname ∧ labelOf p.kname = some OEM_LABEL ∧
      p.devNumber = (block.readTrimmed [disk, p.kname, "dev"]).getD "" ∧
      ∀ other, IsPartitionOf block disk other → labelOf other = some OEM_LABEL → p.kname ≤ other
  | .error _ => ∀ part, IsPartitionOf block disk part → labelOf part ≠ some OEM_LABEL

/-- The ESP is the partition of the lowest-numbered entry that is exposed. -/
def EspOutcome (block : SysDir) (disk : String) (entries : List GptEsp) : Except EspError EspPartition → Prop
  | .ok p => IsPartitionOf block disk p.kname ∧ p.gpt ∈ entries ∧
      p.devNumber = (block.readTrimmed [disk, p.kname, "dev"]).getD "" ∧
      (∀ part, IsPartitionOf block disk part →
        (partitionNumber block disk part = some p.gpt.number ↔ part = p.kname)) ∧
      ∀ gpt ∈ entries, ∀ part, IsPartitionOf block disk part → partitionNumber block disk part = some gpt.number →
        p.gpt.number ≤ gpt.number
  | .error e => e = .notFound disk ∧
      ∀ gpt ∈ entries, ∀ part, IsPartitionOf block disk part → partitionNumber block disk part ≠ some gpt.number

/-- No two partitions of the disk have one number. -/
def NumberedDistinctly (block : SysDir) (disk : String) : Prop :=
  ∀ part other n, IsPartitionOf block disk part → IsPartitionOf block disk other →
    partitionNumber block disk part = some n → partitionNumber block disk other = some n → part = other

section

variable {block block' : SysDir} {disk : String}

theorem find_below (h : block.find [disk] = block'.find [disk]) (path : List String) :
    block.find (disk :: path) = block'.find (disk :: path) := by
  have hbelow (d : SysDir) : d.find (disk :: path) = (d.find [disk]).bind (fun node => node.find path) := by
    simp only [SysDir.find, SysNode.find, SysNode.children]
    cases d.entries.lookup disk <;> rfl
  rw [hbelow, hbelow, h]

theorem readTrimmed_below (h : block.find [disk] = block'.find [disk]) (path : List String) :
    block.readTrimmed (disk :: path) = block'.readTrimmed (disk :: path) := by
  rw [SysDir.readTrimmed, SysDir.readTrimmed, SysDir.readToString, SysDir.readToString, find_below h]

theorem targetPartitions_congr (h : block.find [disk] = block'.find [disk]) :
    targetPartitions block disk = targetPartitions block' disk := by
  simp only [targetPartitions, SysDir.readDir, SysDir.pathExists, find_below h]

theorem mem_targetPartitions {part : String} : part ∈ targetPartitions block disk ↔ IsPartitionOf block disk part := by
  rw [targetPartitions, List.mem_insertionSort, List.mem_filter]
  rfl

theorem findOemIn_congr (h : block.find [disk] = block'.find [disk]) {labelOf labelOf' : String → Option String}
    (hlabel : ∀ part, IsPartitionOf block disk part → labelOf part = labelOf' part) :
    findOemIn block disk labelOf = findOemIn block' disk labelOf' := by
  have hfind : (targetPartitions block disk).find? (fun part => labelOf part == some OEM_LABEL) =
      (targetPartitions block disk).find? (fun part => labelOf' part == some OEM_LABEL) := by
    rw [← List.head?_filter, ← List.head?_filter]
    apply congrArg
    apply List.filter_congr
    intro part hpart
    rw [hlabel part (mem_targetPartitions.mp hpart)]
  simp only [findOemIn, ← targetPartitions_congr h, hfind, readTrimmed_below h]

theorem findEspIn_congr (h : block.find [disk] = block'.find [disk]) (entries : List GptEsp) :
    findEspIn block disk entries = findEspIn block' disk entries := by
  induction entries with
  | nil => rfl
  | cons gpt rest ih => simp only [findEspIn, targetPartitions_congr h, partitionNumber, readTrimmed_below h, ih]

/-- A partition that is found is the first in name order of those meant. -/
theorem find?_targetPartitions {p : String → Bool} {part : String}
    (h : (targetPartitions block disk).find? p = some part) :
    IsPartitionOf block disk part ∧ p part = true ∧
      ∀ other, IsPartitionOf block disk other → p other = true → part ≤ other := by
  obtain ⟨hp, front, back, hsplit, hfront⟩ := List.find?_eq_some_iff_append.mp h
  refine ⟨mem_targetPartitions.mp (List.mem_of_find?_eq_some h), hp, ?_⟩
  intro other hother hpother
  have hmem := mem_targetPartitions.mpr hother
  have hsorted : (targetPartitions block disk).Pairwise (· ≤ ·) := List.pairwise_insertionSort (· ≤ ·) _
  rw [hsplit, List.mem_append, List.mem_cons] at hmem
  rw [hsplit, List.pairwise_append, List.pairwise_cons] at hsorted
  rcases hmem with hmem | rfl | hmem
  · exact absurd hpother (by simpa using hfront other hmem)
  · exact String.le_refl _
  · exact hsorted.2.1.1 other hmem

theorem findOemIn_outcome (labelOf : String → Option String) :
    OemOutcome block disk labelOf (findOemIn block disk labelOf) := by
  simp only [findOemIn]
  by_cases hempty : (targetPartitions block disk).isEmpty = true
  · rw [if_pos hempty]
    intro part hpart
    have hmem := mem_targetPartitions.mpr hpart
    rw [List.isEmpty_iff.mp hempty] at hmem
    cases hmem
  · rw [if_neg hempty]
    cases hf : (targetPartitions block disk).find? (fun part => labelOf part == some OEM_LABEL) with
    | none =>
        intro part hpart
        simpa using List.find?_eq_none.mp hf part (mem_targetPartitions.mpr hpart)
    | some part =>
        obtain ⟨hpart, hlabel, hfirst⟩ := find?_targetPartitions hf
        refine ⟨hpart, by simpa using hlabel, rfl, ?_⟩
        intro other hother holabel
        exact hfirst other hother (by simpa using holabel)

theorem findEspIn_outcome (hnum : NumberedDistinctly block disk) {entries : List GptEsp}
    (hasc : entries.Pairwise (fun a b => a.number < b.number)) :
    EspOutcome block disk entries (findEspIn block disk entries) := by
  induction entries with
  | nil => exact ⟨rfl, by simp⟩
  | cons gpt rest ih =>
      rw [List.pairwise_cons] at hasc
      rw [findEspIn]
      cases hf : (targetPartitions block disk).find? (fun part => partitionNumber block disk part == some gpt.number) with
      | some part =>
          have hpart := mem_targetPartitions.mp (List.mem_of_find?_eq_some hf)
          have hnumber : partitionNumber block disk part = some gpt.number := by simpa using List.find?_some hf
          refine ⟨hpart, List.mem_cons_self, rfl, fun other hother => ⟨fun ho => ?_, fun ho => ho ▸ hnumber⟩, ?_⟩
          · exact hnum other part _ hother hpart ho hnumber
          · intro other hother _ _ _
            rcases List.mem_cons.mp hother with rfl | hother
            · exact UInt32.le_refl _
            · exact UInt32.le_of_lt (hasc.1 other hother)
      | none =>
          have hnone : ∀ part, IsPartitionOf block disk part → partitionNumber block disk part ≠ some gpt.number := by
            intro part hpart
            simpa using List.find?_eq_none.mp hf part (mem_targetPartitions.mpr hpart)
          have hrest := ih hasc.2
          revert hrest
          cases findEspIn block disk rest with
          | ok p =>
              intro ⟨hpart, hgpt, hdev, hunique, hleast⟩
              refine ⟨hpart, List.mem_cons_of_mem _ hgpt, hdev, hunique, ?_⟩
              intro other hother part hp hn
              rcases List.mem_cons.mp hother with rfl | hother
              · exact absurd hn (hnone part hp)
              · exact hleast other hother part hp hn
          | error e =>
              intro ⟨he, hall⟩
              exact ⟨he, List.forall_mem_cons.mpr ⟨hnone, hall⟩⟩

end

/-- Both lookups read nothing outside the target disk's directory, and find the
partition meant there. -/
theorem lookup_confined (block : SysDir) (disk : String) :
    (∀ block', block.find [disk] = block'.find [disk] →
      (∀ labelOf labelOf', (∀ part, IsPartitionOf block disk part → labelOf part = labelOf' part) →
        findOemIn block disk labelOf = findOemIn block' disk labelOf') ∧
      ∀ entries, findEspIn block disk entries = findEspIn block' disk entries) ∧
    (∀ labelOf, OemOutcome block disk labelOf (findOemIn block disk labelOf)) ∧
    ∀ entries, NumberedDistinctly block disk → entries.Pairwise (fun a b => a.number < b.number) →
      EspOutcome block disk entries (findEspIn block disk entries) :=
  ⟨fun _ h => ⟨fun _ _ => findOemIn_congr h, findEspIn_congr h⟩, findOemIn_outcome,
    fun _ hnum hasc => findEspIn_outcome hnum hasc⟩

/-- Two disks with a second partition each; the first lists it before its first one. -/
def twoPartitions : SysDir where
  entries := [("sdb", .dir [("sdb2", .dir [("partition", .attr (some "2\n")), ("dev", .attr (some "8:18\n"))])]),
    ("sda", .dir [("sda2", .dir [("partition", .attr (some "2\n")), ("dev", .attr (some "8:2\n"))]),
      ("queue", .dir []), ("sda1", .dir [("partition", .attr (some "1\n")), ("dev", .attr (some "8:1\n"))])])]
  distinct := by decide

def espEntry (number : UInt32) : GptEsp := ⟨number, ⟨List.replicate 16 0x11, rfl⟩, 2048, 206847⟩

theorem lookup_confined_twoPartitions :
    findEspIn twoPartitions "sda" [espEntry 2, espEntry 3] = .ok ⟨"sda2", "8:2", espEntry 2⟩ ∧
      ∀ part, IsPartitionOf twoPartitions "sda" part →
        (partitionNumber twoPartitions "sda" part = some 2 ↔ part = "sda2") := by
  have hfind : findEspIn twoPartitions "sda" [espEntry 2, espEntry 3] = .ok ⟨"sda2", "8:2", espEntry 2⟩ := by
    decide +kernel
  have hlisted : (twoPartitions.readDir ["sda"]).getD [] = ["sda2", "queue", "sda1"] := by decide +kernel
  have hqueue : twoPartitions.pathExists ["sda", "queue", "partition"] = false := by decide +kernel
  have hfirst : partitionNumber twoPartitions "sda" "sda1" = some 1 := by decide +kernel
  have hsecond : partitionNumber twoPartitions "sda" "sda2" = some 2 := by decide +kernel
  have hparts : ∀ part, IsPartitionOf twoPartitions "sda" part → part = "sda1" ∨ part = "sda2" := by
    rintro part ⟨hmem, hexists⟩
    rw [hlisted] at hmem
    simp only [List.mem_cons, List.not_mem_nil, or_false] at hmem
    rcases hmem with rfl | rfl | rfl
    · exact .inr rfl
    · rw [hqueue] at hexists
      cases hexists
    · exact .inl rfl
  have hnum : NumberedDistinctly twoPartitions "sda" := by
    intro part other n hpart hother hn hn'
    rcases hparts part hpart with rfl | rfl <;> rcases hparts other hother with rfl | rfl
    · rfl
    · rw [hfirst] at hn
      rw [hsecond, ← hn] at hn'
      exact absurd hn' (by decide)
    · rw [hsecond] at hn
      rw [hfirst, ← hn] at hn'
      exact absurd hn' (by decide)
    · rfl
  have hasc : [espEntry 2, espEntry 3].Pairwise (fun a b => a.number < b.number) := by decide
  have houtcome := (lookup_confined twoPartitions "sda").2.2 _ hnum hasc
  rw [hfind] at houtcome
  exact ⟨hfind, houtcome.2.2.2.1⟩

end Beskar7Inspector.PartitionLookup
