import Beskar7Inspector.DiskSelection

namespace Beskar7Inspector.SelfClobber

open SysTree DiskSelection Lib.DepthFirst

variable {block : SysDir} {leaves : List String}

def TopLevel (block : SysDir) (name : String) : Prop := block.pathExists [name] = true

instance (block : SysDir) (name : String) : Decidable (TopLevel block name) :=
  inferInstanceAs (Decidable (_ = true))

/-- One layer down: from an aggregate to a slave, from a partition to a disk
that carries it. -/
def LeadsTo (block : SysDir) (a b : String) : Prop :=
  (TopLevel block a ∧ b ∈ slaveNames block a) ∨
    (¬ TopLevel block a ∧ TopLevel block b ∧ block.isDir [b, a] = true)

def TerminalDisk (block : SysDir) (name : String) : Prop := TopLevel block name ∧ slaveNames block name = []

/-- A whole disk under one of the leaves, at most the code's own number of
levels down. -/
def Backs (block : SysDir) (leaves : List String) (disk : String) : Prop :=
  ∃ leaf ∈ leaves, Within (LeadsTo block) maxSlaveDepth leaf disk ∧ TerminalDisk block disk

/-- The disks that carry a mounted or swap source are all found, and none of
them is ever selected. -/
def NoSelfClobber (block : SysDir) (leaves : List String) : Prop :=
  (∀ disk, Backs block leaves disk → disk ∈ backingWholeDisks leaves block) ∧
    ∀ classBlock pin minBytes t,
      selectCore block classBlock pin minBytes (backingWholeDisks leaves block) = .ok t →
        ¬ Backs block leaves t.kname

def slavesOf (block : SysDir) (name : String) : List String :=
  if block.pathExists [name] then slaveNames block name else []

/-- The one whole disk a name itself stands for: a terminal disk stands for
itself and a name outside the top level for its first parent, or for what is
left of it without a partition suffix. -/
def standsFor (block : SysDir) (name : String) : Option String :=
  if block.pathExists [name] then (if slaveNames block name = [] then some name else none)
  else some ((parentWholeDisk block name).getD (stripPartitionSuffix name))

/-- A disk that one of these names stands for. -/
def StoodFor (block : SysDir) (names : String → Prop) (disk : String) : Prop :=
  ∃ name, names name ∧ standsFor block name = some disk

/-- A name under one of the leaves by slaves alone. -/
def Under (block : SysDir) (leaves : List String) (name : String) : Prop :=
  ∃ leaf ∈ leaves, Within (fun a b => b ∈ slavesOf block a) maxSlaveDepth leaf name

/-- A name at which one of the stacks under a leaf is first, as the directories list them. -/
def Met (block : SysDir) (leaves : List String) (name : String) : Prop :=
  ∃ leaf ∈ leaves, ∃ c ∈ firstChains (slavesOf block) maxSlaveDepth leaf, lastName c = some name

/-- A layer that the code does not pass: from a partition to a disk made of slaves,
or to a second disk that carries it. -/
def Crossing (block : SysDir) (part owner : String) : Prop :=
  ¬ TopLevel block part ∧ TopLevel block owner ∧ block.isDir [owner, part] = true ∧
    (slaveNames block owner ≠ [] ∨ parentWholeDisk block part ≠ some owner)

/-- Whatever disk lies below a crossing under a leaf is one that some other of the
names stands for. -/
def CrossingsCovered (block : SysDir) (leaves : List String) (names : String → Prop) : Prop :=
  ∀ leaf ∈ leaves, ∀ part owner disk i j, Within (fun a b => b ∈ slavesOf block a) i leaf part → Crossing block part owner →
    Within (LeadsTo block) j owner disk → i + j ≤ maxSlaveDepth → TerminalDisk block disk → StoodFor block names disk

/-- Whatever disk a name under a leaf stands for, where the directory order brings
every stack to that name below one that came first and was cut off by the bound, is
one that some other name stands for. -/
def CutsCovered (block : SysDir) (leaves : List String) : Prop :=
  ∀ leaf ∈ leaves, ∀ name disk i, Within (fun a b => b ∈ slavesOf block a) i leaf name → ¬ Met block leaves name →
    (name = disk ∧ i ≤ maxSlaveDepth ∨
      ¬ TopLevel block name ∧ parentWholeDisk block name = some disk ∧ i < maxSlaveDepth) →
    TerminalDisk block disk → StoodFor block (Met block leaves) disk

/-- Every stack of slaves fits the code's own bound. -/
def StacksWithin (block : SysDir) (leaves : List String) : Prop :=
  ∀ leaf ∈ leaves, Short (slavesOf block) maxSlaveDepth [] leaf

theorem foldl_collectPhysical {depth : Nat}
    (hone : ∀ (leaf : String) (visited out : Finset String),
      (collectPhysical block depth leaf (visited, out)).1 = walk (slavesOf block) depth visited leaf ∧
        ∀ disk, disk ∈ (collectPhysical block depth leaf (visited, out)).2 ↔ disk ∈ out ∨
          ∃ name ∈ walk (slavesOf block) depth visited leaf, name ∉ visited ∧ standsFor block name = some disk)
    (slaves : List String) (visited out : Finset String) :
    (slaves.foldl (fun st slave => collectPhysical block depth slave st) (visited, out)).1 =
        slaves.foldl (fun seen slave => walk (slavesOf block) depth seen slave) visited ∧
      ∀ disk, disk ∈ (slaves.foldl (fun st slave => collectPhysical block depth slave st) (visited, out)).2 ↔
        disk ∈ out ∨ ∃ name ∈ slaves.foldl (fun seen slave => walk (slavesOf block) depth seen slave) visited,
          name ∉ visited ∧ standsFor block name = some disk := by
  induction slaves generalizing visited out with
  | nil =>
      refine ⟨rfl, fun disk => ⟨.inl, ?_⟩⟩
      rintro (h | ⟨name, hn, hn', _⟩)
      · exact h
      · exact absurd hn hn'
  | cons slave slaves ih =>
      obtain ⟨hv, ho⟩ := hone slave visited out
      have hpair : collectPhysical block depth slave (visited, out) =
          (walk (slavesOf block) depth visited slave, (collectPhysical block depth slave (visited, out)).2) :=
        Prod.ext hv rfl
      obtain ⟨hv', ho'⟩ := ih (walk (slavesOf block) depth visited slave)
        (collectPhysical block depth slave (visited, out)).2
      rw [List.foldl_cons, List.foldl_cons, hpair]
      refine ⟨hv', fun disk => ?_⟩
      rw [ho', ho]
      have hstep : visited ⊆ walk (slavesOf block) depth visited slave := subset_walk depth visited slave
      have hrest := subset_foldl_walk (slavesOf block) depth slaves (walk (slavesOf block) depth visited slave)
      constructor
      · rintro ((h | ⟨name, hn, hf, hs⟩) | ⟨name, hn, hf, hs⟩)
        · exact .inl h
        · exact .inr ⟨name, hrest hn, hf, hs⟩
        · exact .inr ⟨name, hn, fun h => hf (hstep h), hs⟩
      · rintro (h | ⟨name, hn, hf, hs⟩)
        · exact .inl (.inl h)
        · by_cases hw : name ∈ walk (slavesOf block) depth visited slave
          · exact .inl (.inr ⟨name, hw, hf, hs⟩)
          · exact .inr ⟨name, hn, hw, hs⟩

theorem mem_insert_standsFor {leaf disk : String} {visited out : Finset String} {d : String}
    (hl : leaf ∉ visited) (hd : standsFor block leaf = some d) :
    disk ∈ insert d out ↔
      disk ∈ out ∨ ∃ name ∈ insert leaf visited, name ∉ visited ∧ standsFor block name = some disk := by
  constructor
  · intro h
    rcases Finset.mem_insert.mp h with rfl | h
    · exact .inr ⟨leaf, Finset.mem_insert_self _ _, hl, hd⟩
    · exact .inl h
  · rintro (h | ⟨name, hn, hf, hs⟩)
    · exact Finset.mem_insert_of_mem h
    · rcases Finset.mem_insert.mp hn with rfl | hn
      · rw [hd, Option.some.injEq] at hs
        exact hs ▸ Finset.mem_insert_self _ _
      · exact absurd hn hf

/-- The recursion of the code is the depth-first walk over slaves, recording
what each entered name stands for. -/
theorem collectPhysical_spec (depth : Nat) (leaf : String) (visited out : Finset String) :
    (collectPhysical block depth leaf (visited, out)).1 = walk (slavesOf block) depth visited leaf ∧
      ∀ disk, disk ∈ (collectPhysical block depth leaf (visited, out)).2 ↔ disk ∈ out ∨
        ∃ name ∈ walk (slavesOf block) depth visited leaf, name ∉ visited ∧ standsFor block name = some disk := by
  induction depth generalizing leaf visited out with
  | zero =>
      refine ⟨rfl, fun disk => ⟨.inl, ?_⟩⟩
      rintro (h | ⟨name, hn, hf, _⟩)
      · exact h
      · exact absurd hn hf
  | succ depth ih =>
      by_cases hl : leaf ∈ visited
      · have hc : collectPhysical block (depth + 1) leaf (visited, out) = (visited, out) := by
          simp only [collectPhysical, if_pos hl]
        have hw : walk (slavesOf block) (depth + 1) visited leaf = visited := by rw [walk, if_pos hl]
        rw [hc, hw]
        refine ⟨rfl, fun disk => ⟨.inl, ?_⟩⟩
        rintro (h | ⟨name, hn, hf, _⟩)
        · exact h
        · exact absurd hn hf
      · rw [walk, if_neg hl]
        cases he : block.pathExists [leaf] with
        | true =>
            have hslaves : slavesOf block leaf = slaveNames block leaf := by simp [slavesOf, he]
            rw [hslaves]
            cases hs : slaveNames block leaf with
            | nil =>
                have hc : collectPhysical block (depth + 1) leaf (visited, out) =
                    (insert leaf visited, insert leaf out) := by simp [collectPhysical, hl, he, hs]
                have hd : standsFor block leaf = some leaf := by simp [standsFor, he, hs]
                rw [hc]
                exact ⟨rfl, fun disk => mem_insert_standsFor hl hd⟩
            | cons slave slaves =>
                have hc : collectPhysical block (depth + 1) leaf (visited, out) =
                    (slave :: slaves).foldl (fun st slave => collectPhysical block depth slave st)
                      (insert leaf visited, out) := by simp [collectPhysical, hl, he, hs]
                obtain ⟨hv, ho⟩ := foldl_collectPhysical ih (slave :: slaves) (insert leaf visited) out
                rw [hc]
                refine ⟨hv, fun disk => ?_⟩
                rw [ho]
                refine or_congr Iff.rfl (exists_congr fun name => and_congr Iff.rfl ?_)
                constructor
                · rintro ⟨hf, hn⟩
                  exact ⟨fun h => hf (Finset.mem_insert_of_mem h), hn⟩
                · rintro ⟨hf, hn⟩
                  refine ⟨?_, hn⟩
                  intro hm
                  rcases Finset.mem_insert.mp hm with rfl | hm
                  · simp [standsFor, he, hs] at hn
                  · exact hf hm
        | false =>
            have hslaves : slavesOf block leaf = [] := by simp [slavesOf, he]
            have hc : collectPhysical block (depth + 1) leaf (visited, out) = (insert leaf visited,
                insert ((parentWholeDisk block leaf).getD (stripPartitionSuffix leaf)) out) := by
              cases hp : parentWholeDisk block leaf <;> simp [collectPhysical, hl, he, hp]
            have hd : standsFor block leaf =
                some ((parentWholeDisk block leaf).getD (stripPartitionSuffix leaf)) := by simp [standsFor, he]
            rw [hc, hslaves]
            exact ⟨rfl, fun disk => mem_insert_standsFor hl hd⟩

theorem mem_backingWholeDisks {disk : String} :
    disk ∈ backingWholeDisks leaves block ↔ ∃ leaf ∈ leaves,
      ∃ name ∈ walk (slavesOf block) maxSlaveDepth ∅ leaf, standsFor block name = some disk := by
  have hfold : ∀ (ls : List String) (out : Finset String),
      disk ∈ ls.foldl (fun out leaf => (collectPhysical block maxSlaveDepth leaf (∅, out)).2) out ↔
        disk ∈ out ∨ ∃ leaf ∈ ls,
          ∃ name ∈ walk (slavesOf block) maxSlaveDepth ∅ leaf, standsFor block name = some disk := by
    intro ls
    induction ls with
    | nil => simp
    | cons leaf ls ih =>
        intro out
        rw [List.foldl_cons, ih, (collectPhysical_spec maxSlaveDepth leaf ∅ out).2]
        simp only [Finset.notMem_empty, not_false_eq_true, true_and, List.mem_cons, or_assoc,
          exists_eq_or_imp]
  rw [backingWholeDisks, hfold]
  simp

/-- Finding every disk under a leaf is already enough: the checks turn away
each disk that was found. -/
theorem noSelfClobber_of_found
    (h : ∀ disk, Backs block leaves disk → disk ∈ backingWholeDisks leaves block) :
    NoSelfClobber block leaves := by
  refine ⟨h, ?_⟩
  intro classBlock pin minBytes t ht hb
  obtain ⟨c, _, hc, rfl, _⟩ := selectCore_ok ht
  exact ((classify_ok_iff c minBytes _).mp hc).2.2.2.1 (h _ hb)

theorem mem_backingWholeDisks_iff {disk : String} :
    disk ∈ backingWholeDisks leaves block ↔ StoodFor block (Met block leaves) disk := by
  rw [mem_backingWholeDisks]
  simp only [mem_walk_iff]
  constructor
  · rintro ⟨leaf, hleaf, name, hfirst, hdisk⟩
    exact ⟨name, ⟨leaf, hleaf, hfirst⟩, hdisk⟩
  · rintro ⟨name, ⟨leaf, hleaf, hfirst⟩, hdisk⟩
    exact ⟨leaf, hleaf, name, hfirst, hdisk⟩

theorem leadsTo_of_slave {a b : String} (h : b ∈ slavesOf block a) : LeadsTo block a b := by
  rw [slavesOf] at h
  split at h
  · rename_i htop
    exact .inl ⟨htop, h⟩
  · cases h

theorem within_leadsTo {k : Nat} {a b : String} (h : Within (fun a b => b ∈ slavesOf block a) k a b) :
    Within (LeadsTo block) k a b := by
  induction h with
  | here k a => exact .here k a
  | step hab _ ih => exact .step (leadsTo_of_slave hab) ih

theorem topLevel_of_parent {part owner : String} (h : parentWholeDisk block part = some owner) :
    TopLevel block owner ∧ block.isDir [owner, part] = true := by
  have hdir := List.find?_some h
  refine ⟨?_, hdir⟩
  simp only [SysDir.isDir, SysDir.find, SysNode.find] at hdir
  simp only [TopLevel, SysDir.pathExists, SysDir.find, SysNode.find]
  split at hdir
  · cases hdir
  · rfl

/-- A route to a disk goes by slaves alone, or from its first partition on to a disk that carries it. -/
theorem route_cases {k : Nat} {a disk : String} (h : Within (LeadsTo block) k a disk) :
    Within (fun a b => b ∈ slavesOf block a) k a disk ∨
      ∃ part owner i j, Within (fun a b => b ∈ slavesOf block a) i a part ∧ ¬ TopLevel block part ∧
        TopLevel block owner ∧ block.isDir [owner, part] = true ∧ Within (LeadsTo block) j owner disk ∧ i + j = k := by
  induction h with
  | here k a => exact .inl (.here k a)
  | @step k a b _ hab hrest ih =>
      rcases hab with ⟨htop, hslave⟩ | ⟨hpart, howner, hdir⟩
      · have hslaves : slavesOf block a = slaveNames block a := if_pos htop
        rw [← hslaves] at hslave
        rcases ih with hstraight | ⟨part, owner, i, j, hi, hpart, howner, hdir, hj, hij⟩
        · exact .inl (.step hslave hstraight)
        · exact .inr ⟨part, owner, i + 1, j, .step hslave hi, hpart, howner, hdir, hj, by omega⟩
      · exact .inr ⟨a, b, 1, k, .here 0 a, hpart, howner, hdir, hrest, by omega⟩

/-- A terminal disk leads nowhere. -/
theorem within_terminal {k : Nat} {a disk : String} (ha : slaveNames block a = []) (htop : TopLevel block a)
    (h : Within (LeadsTo block) k a disk) : a = disk := by
  cases h with
  | here => rfl
  | step hab _ =>
      rcases hab with ⟨_, hslave⟩ | ⟨hpart, _⟩
      · rw [ha] at hslave
        cases hslave
      · exact absurd htop hpart

theorem standsFor_terminal {disk : String} (h : TerminalDisk block disk) : standsFor block disk = some disk :=
  (if_pos h.1).trans (if_pos h.2)

theorem standsFor_partition {part owner : String} (hpart : ¬ TopLevel block part)
    (h : parentWholeDisk block part = some owner) : standsFor block part = some owner := by
  have howner : standsFor block part = some ((parentWholeDisk block part).getD (stripPartitionSuffix part)) :=
    if_neg hpart
  rw [howner, h]
  rfl

theorem backs_of_crossing {leaf part owner disk : String} {i j : Nat} (hleaf : leaf ∈ leaves)
    (hi : Within (fun a b => b ∈ slavesOf block a) i leaf part) (hpart : ¬ TopLevel block part)
    (howner : TopLevel block owner) (hdir : block.isDir [owner, part] = true)
    (hj : Within (LeadsTo block) j owner disk) (hij : i + j ≤ maxSlaveDepth) (hdisk : TerminalDisk block disk) :
    Backs block leaves disk :=
  ⟨leaf, hleaf, ((within_leadsTo hi).append (.inr ⟨hpart, howner, hdir⟩) hj).mono hij, hdisk⟩

/-- Each route to a disk is straight, or crosses, or is cut off. -/
theorem noSelfClobber_of_covered (hcross : CrossingsCovered block leaves (Met block leaves))
    (hcut : CutsCovered block leaves) : NoSelfClobber block leaves := by
  refine noSelfClobber_of_found fun disk hbacks => mem_backingWholeDisks_iff.mpr ?_
  obtain ⟨leaf, hleaf, hroute, hdisk⟩ := hbacks
  rcases route_cases hroute with hstraight | ⟨part, owner, i, j, hi, hpart, howner, hdir, hj, hij⟩
  · by_cases hmet : Met block leaves disk
    · exact ⟨disk, hmet, standsFor_terminal hdisk⟩
    · exact hcut leaf hleaf disk disk _ hstraight hmet (.inl ⟨rfl, le_rfl⟩) hdisk
  · by_cases hcrossing : slaveNames block owner ≠ [] ∨ parentWholeDisk block part ≠ some owner
    · exact hcross leaf hleaf part owner disk i j hi ⟨hpart, howner, hdir, hcrossing⟩ hj hij.le hdisk
    · rw [not_or, not_not, not_not] at hcrossing
      obtain ⟨hslaves, hparent⟩ := hcrossing
      have heq := within_terminal hslaves howner hj
      subst heq
      by_cases hmet : Met block leaves part
      · exact ⟨part, hmet, standsFor_partition hpart hparent⟩
      · have hpos : 0 < j := by cases hj <;> exact Nat.succ_pos _
        exact hcut leaf hleaf part owner i hi hmet (.inr ⟨hpart, hparent, by omega⟩) hdisk

theorem covered_of_noSelfClobber (h : NoSelfClobber block leaves) :
    CrossingsCovered block leaves (Met block leaves) ∧ CutsCovered block leaves := by
  have hfound (disk : String) (hbacks : Backs block leaves disk) : StoodFor block (Met block leaves) disk :=
    mem_backingWholeDisks_iff.mp (h.1 disk hbacks)
  constructor
  · rintro leaf hleaf part owner disk i j hi ⟨hpart, howner, hdir, _⟩ hj hij hdisk
    exact hfound disk (backs_of_crossing hleaf hi hpart howner hdir hj hij hdisk)
  · rintro leaf hleaf name disk i hi _ (⟨rfl, hle⟩ | ⟨hpart, hparent, hlt⟩) hdisk
    · exact hfound name ⟨leaf, hleaf, (within_leadsTo hi).mono hle, hdisk⟩
    · obtain ⟨howner, hdir⟩ := topLevel_of_parent hparent
      exact hfound disk (backs_of_crossing hleaf hi hpart howner hdir (.here 0 disk) hlt hdisk)

/-- Where the stacks fit the bound, the directory order does not matter. -/
theorem met_iff_under (hs : StacksWithin block leaves) {name : String} : Met block leaves name ↔ Under block leaves name := by
  refine exists_congr fun leaf => and_congr_right fun hleaf => ?_
  rw [← mem_walk_iff]
  constructor
  · intro hw
    exact (within_of_mem_walk hw).resolve_left (Finset.notMem_empty _)
  · exact mem_walk_of_within (hs leaf hleaf)

theorem cutsCovered_of_within (hs : StacksWithin block leaves) : CutsCovered block leaves := by
  rintro leaf hleaf name disk i hi hmet hname _
  have hle : i ≤ maxSlaveDepth := by
    rcases hname with ⟨_, hle⟩ | ⟨_, _, hlt⟩
    · exact hle
    · exact hlt.le
  exact absurd ((met_iff_under hs).mpr ⟨leaf, hleaf, hi.mono hle⟩) hmet

/-- No disk under a mounted or swap source is missed, and none is selected, exactly
when whatever lies below a crossing, or below a stack that the bound cuts off, is
found on another way. For stacks that fit the bound only the crossings matter, in
whatever order the directories are listed, and where there is none nothing is missed. -/
theorem no_self_clobber_iff (block : SysDir) (leaves : List String) :
    (NoSelfClobber block leaves ↔
      CrossingsCovered block leaves (Met block leaves) ∧ CutsCovered block leaves) ∧
    (StacksWithin block leaves →
      (NoSelfClobber block leaves ↔ CrossingsCovered block leaves (Under block leaves)) ∧
      ((∀ part owner, Under block leaves part → ¬ Crossing block part owner) → NoSelfClobber block leaves)) := by
  refine ⟨⟨covered_of_noSelfClobber, fun h => noSelfClobber_of_covered h.1 h.2⟩, fun hs => ?_⟩
  have hnames : Met block leaves = Under block leaves := funext fun _ => propext (met_iff_under hs)
  have hcuts := cutsCovered_of_within hs
  constructor
  · rw [← hnames]
    exact ⟨fun h => (covered_of_noSelfClobber h).1, fun h => noSelfClobber_of_covered h hcuts⟩
  · intro hnone
    refine noSelfClobber_of_covered ?_ hcuts
    intro leaf hleaf part owner disk i j hi hcrossing _ hij _
    exact absurd hcrossing (hnone part owner ⟨leaf, hleaf, hi.mono (by omega)⟩)

/-- A system disk that is a partition of a two-disk array. -/
def raidTree : SysDir where
  entries :=
    [("md0", .dir [("md0p1", .dir [("partition", .attr (some "1\n"))]),
        ("slaves", .dir [("sda", .dir []), ("sdb", .dir [])])]),
      ("sda", .dir [("size", .attr (some "2048\n")), ("dev", .attr (some "8:0\n")), ("device", .dir [])]),
      ("sdb", .dir [("size", .attr (some "4096\n")), ("dev", .attr (some "8:16\n")), ("device", .dir [])])]
  distinct := by decide

theorem raidTree_selects_sda :
    backingWholeDisks ["md0p1"] raidTree = {"md0"} ∧
      selectCore raidTree ⟨[], List.nodup_nil⟩ none 0 (backingWholeDisks ["md0p1"] raidTree) =
        .ok ⟨"sda", 1048576, "8:0"⟩ := by
  refine ⟨by decide, by rfl⟩

/-- The partition's array is excluded but not the disks of the array. -/
theorem not_noSelfClobber_raidTree : ¬ NoSelfClobber raidTree ["md0p1"] := by
  intro h
  refine h.2 ⟨[], List.nodup_nil⟩ none 0 _ raidTree_selects_sda.2 ⟨"md0p1", by simp, ?_, by decide, by decide⟩
  have hpart : LeadsTo raidTree "md0p1" "md0" := .inr ⟨by decide, by decide, by decide⟩
  have hslave : LeadsTo raidTree "md0" "sda" := .inl ⟨by decide, by decide⟩
  exact .step hpart (.step hslave (.here _ _))

end Beskar7Inspector.SelfClobber
