import Beskar7Inspector.BootOptions

namespace Beskar7Inspector.BootReuse

open Lib Lib.Text Lib.LittleEndian Esp DevicePath Efiboot BootOptions

/-- `dp` is the bytes of `nodes`, then an End-Entire node. -/
def Spells (dp : List UInt8) (nodes : List DpNode) : Prop :=
  (∀ node ∈ nodes, ¬(node.ty = DP_END ∧ node.sub = DP_END_ENTIRE) ∧ 4 + node.data.length < 65536) ∧
    ∃ lo hi rest, dp = nodes.flatMap encodeNode ++ DP_END :: DP_END_ENTIRE :: lo :: hi :: rest

/-- Nodes without an `HD()`, a GPT `HD()`, and `File()` nodes to the end. -/
def Straight (pre : List DpNode) (node : DpNode) (hd : HdNode) (files : List DpNode) : Prop :=
  (∀ other ∈ pre, other.isHd = false) ∧ node.gptHd = some hd ∧ ∀ file ∈ files, file.isFile = true

/-- The active option starts exactly the loader on exactly the partition. -/
def Exact (gpt : GptEsp) (loader : String) (opt : LoadOption) : Prop :=
  opt.isActive = true ∧ ∃ pre node hd files, Spells opt.devicePath (pre ++ node :: files) ∧
    Straight pre node hd files ∧ hd.is gpt = true ∧
    (files = [] ∨ eqIgnoreAsciiCase (normalizePath (files.map fun file => ucs2UntilNul file.data)) loader = true)

/-- The path goes straight from its first `HD()` node over `File()` nodes to the End-Entire node. -/
def EndsAtFile (opt : LoadOption) : Prop :=
  ∃ pre node hd files, Spells opt.devicePath (pre ++ node :: files) ∧ Straight pre node hd files

def ExactNumbers (gpt : GptEsp) (loader : String) (entries : List (UInt16 × LoadOption)) : Set UInt16 :=
  {n | ∃ opt, (n, opt) ∈ entries ∧ Exact gpt loader opt}

/-- The reused entry is the lowest exact one, and there is none without an exact one. -/
def PicksExact (gpt : GptEsp) (loader : String) (entries : List (UInt16 × LoadOption)) : Prop :=
  (∀ n, pickExisting entries gpt loader = some n ↔ IsLeast (ExactNumbers gpt loader entries) n) ∧
    (pickExisting entries gpt loader = none ↔ ∀ n, n ∉ ExactNumbers gpt loader entries)

section

variable {gpt : GptEsp} {loader : String} {opt : LoadOption}

theorem devicePathNodes_spelled {dp : List UInt8} {nodes : List DpNode} (h : Spells dp nodes) :
    devicePathNodes dp = nodes := by
  obtain ⟨hnodes, lo, hi, rest, rfl⟩ := h
  induction nodes with
  | nil =>
      apply devicePathNodes_nil
      simp [nextNode]
  | cons node nodes ih =>
      rw [List.forall_mem_cons] at hnodes
      rw [List.flatMap_cons, List.append_assoc, devicePathNodes_cons (nextNode_encodeNode hnodes.1.1 hnodes.1.2 _),
        ih hnodes.2]

theorem isHd_of_gptHd {node : DpNode} {hd : HdNode} (h : node.gptHd = some hd) : node.isHd = true := by
  simp only [DpNode.gptHd] at h
  split at h
  · simp only [Option.ite_none_right_eq_some] at h
    exact h.1.1
  · cases h

theorem gptHd_of_not_isHd {node : DpNode} (h : node.isHd = false) : node.gptHd = none := by
  cases hg : node.gptHd with
  | none => rfl
  | some hd =>
      rw [isHd_of_gptHd hg] at h
      cases h

/-- On a straight path both walks stop at the same node. -/
theorem hd_straight {pre files : List DpNode} {node : DpNode} {hd : HdNode}
    (hs : Spells opt.devicePath (pre ++ node :: files)) (h : Straight pre node hd files) : opt.hd = some hd := by
  have hpre : pre.findSome? DpNode.gptHd = none :=
    List.findSome?_eq_none_iff.mpr fun other ho => gptHd_of_not_isHd (h.1 other ho)
  rw [LoadOption.hd, devicePathNodes_spelled hs, List.findSome?_append, hpre, List.findSome?_cons, h.2.1]
  rfl

theorem loaderPath_straight {pre files : List DpNode} {node : DpNode} {hd : HdNode}
    (hs : Spells opt.devicePath (pre ++ node :: files)) (h : Straight pre node hd files) :
    opt.loaderPath =
      if files = [] then none else some (normalizePath (files.map fun file => ucs2UntilNul file.data)) := by
  have hskip : (pre ++ node :: files).dropWhile (fun node => !node.isHd) = node :: files := by
    rw [List.dropWhile_append_of_pos (by simpa using h.1), List.dropWhile_cons, isHd_of_gptHd h.2.1]
    rfl
  have htake : files.takeWhile DpNode.isFile = files := List.takeWhile_eq_self_iff.mpr h.2.2
  rw [LoadOption.loaderPath, devicePathNodes_spelled hs, hskip]
  simp only [htake]
  cases files with
  | nil => rfl
  | cons file files => rfl

/-- An exact option is one the code accepts whose path is a straight one. -/
theorem exact_iff : Exact gpt loader opt ↔ startsLoader gpt loader opt = true ∧ EndsAtFile opt := by
  constructor
  · rintro ⟨hactive, pre, node, hd, files, hs, h, his, hfiles⟩
    refine ⟨?_, pre, node, hd, files, hs, h⟩
    rw [startsLoader, hactive, hd_straight hs h, loaderPath_straight hs h]
    by_cases hnil : files = []
    · simp [hnil, his]
    · simp [hnil, his, hfiles.resolve_left hnil]
  · rintro ⟨hstarts, pre, node, hd, files, hs, h⟩
    rw [startsLoader, hd_straight hs h, loaderPath_straight hs h, Bool.and_eq_true, Bool.and_eq_true] at hstarts
    obtain ⟨⟨hactive, his⟩, hpath⟩ := hstarts
    refine ⟨hactive, pre, node, hd, files, hs, h, by simpa using his, ?_⟩
    by_cases hnil : files = []
    · exact .inl hnil
    · rw [if_neg hnil] at hpath
      exact .inr (by simpa using hpath)

end

section

variable {gpt : GptEsp} {loader : String} {entries : List (UInt16 × LoadOption)}

theorem pickExisting_some_iff {n : UInt16} : pickExisting entries gpt loader = some n ↔
    IsLeast {m | ∃ opt, (m, opt) ∈ entries ∧ startsLoader gpt loader opt = true} n := by
  rw [pickExisting, min?_numbers_eq_some_iff]

theorem pickExisting_none_iff : pickExisting entries gpt loader = none ↔
    ∀ e ∈ entries, startsLoader gpt loader e.2 = false := by
  rw [pickExisting, List.min?_eq_none_iff, List.map_eq_nil_iff, List.filter_eq_nil_iff]
  simp

/-- The reused entry is the exact one wherever no option whose path does not end
at the file is accepted below all exact ones. -/
theorem pickExisting_exact_iff (entries : List (UInt16 × LoadOption)) (gpt : GptEsp) (loader : String) :
    PicksExact gpt loader entries ↔
      ∀ e ∈ entries, startsLoader gpt loader e.2 = true → ¬EndsAtFile e.2 →
        ∃ other ∈ entries, other.1 ≤ e.1 ∧ startsLoader gpt loader other.2 = true ∧ EndsAtFile other.2 := by
  constructor
  · intro ⟨hsome, hnone⟩ e he hstarts _
    cases hp : pickExisting entries gpt loader with
    | none => simp [pickExisting_none_iff.mp hp e he] at hstarts
    | some m =>
        obtain ⟨opt, hopt, hexact⟩ := ((hsome m).mp hp).1
        have hle : m ≤ e.1 := (pickExisting_some_iff.mp hp).2 ⟨e.2, he, hstarts⟩
        exact ⟨(m, opt), hopt, hle, exact_iff.mp hexact⟩
  · intro h
    -- An accepted option has an exact one at or below its number.
    have hbelow : ∀ n opt, (n, opt) ∈ entries → startsLoader gpt loader opt = true →
        ∃ m ∈ ExactNumbers gpt loader entries, m ≤ n := by
      intro n opt hopt hstarts
      by_cases hends : EndsAtFile opt
      · exact ⟨n, ⟨opt, hopt, exact_iff.mpr ⟨hstarts, hends⟩⟩, UInt16.le_refl n⟩
      · obtain ⟨other, ho, hle, hexact⟩ := h (n, opt) hopt hstarts hends
        exact ⟨other.1, ⟨other.2, ho, exact_iff.mpr hexact⟩, hle⟩
    have haccepted : ∀ n ∈ ExactNumbers gpt loader entries,
        n ∈ {m | ∃ opt, (m, opt) ∈ entries ∧ startsLoader gpt loader opt = true} :=
      fun n ⟨opt, hopt, hexact⟩ => ⟨opt, hopt, (exact_iff.mp hexact).1⟩
    constructor
    · intro n
      rw [pickExisting_some_iff]
      constructor
      · intro ⟨⟨opt, hopt, hstarts⟩, hleast⟩
        obtain ⟨m, hm, hle⟩ := hbelow n opt hopt hstarts
        have heq : m = n := UInt16.le_antisymm hle (hleast (haccepted m hm))
        exact ⟨heq ▸ hm, fun k hk => hleast (haccepted k hk)⟩
      · intro ⟨hn, hleast⟩
        refine ⟨haccepted n hn, fun k ⟨opt, hopt, hstarts⟩ => ?_⟩
        obtain ⟨m, hm, hle⟩ := hbelow k opt hopt hstarts
        exact UInt16.le_trans (hleast hm) hle
    · rw [pickExisting_none_iff]
      constructor
      · intro hno n ⟨opt, hopt, hexact⟩
        have := (exact_iff.mp hexact).1
        simp [hno (n, opt) hopt] at this
      · intro hno e he
        by_contra hstarts
        obtain ⟨m, hm, _⟩ := hbelow e.1 e.2 he (by simpa using hstarts)
        exact hno m hm

end

/-- The partition, then a vendor's messaging node, then another file. -/
def strayOption : LoadOption where
  attributes := LOAD_OPTION_ACTIVE
  description := "other"
  devicePath := encodeNode ⟨DP_MEDIA, DP_MEDIA_HD, hdData sampleEsp⟩ ++ encodeNode ⟨DP_MESSAGING, 10, []⟩ ++
    encodeNode ⟨DP_MEDIA, DP_MEDIA_FILE, ucs2Nul "\\other.efi"⟩ ++ [DP_END, DP_END_ENTIRE, 0x04, 0x00]

theorem not_picksExact_strayOption : ¬PicksExact sampleEsp "\\EFI\\BOOT\\BOOTX64.EFI" [(4, strayOption)] := by
  intro h
  have hpicked : pickExisting [(4, strayOption)] sampleEsp "\\EFI\\BOOT\\BOOTX64.EFI" = some 4 := by decide +kernel
  obtain ⟨opt, hopt, hexact⟩ := ((h.1 4).mp hpicked).1
  obtain ⟨pre, node, hd, files, hs, hstraight⟩ := (exact_iff.mp hexact).2
  obtain rfl : opt = strayOption := by simpa using hopt
  have hskip : (devicePathNodes strayOption.devicePath).dropWhile (fun node => !node.isHd) = node :: files := by
    rw [devicePathNodes_spelled hs, List.dropWhile_append_of_pos (by simpa using hstraight.1), List.dropWhile_cons,
      isHd_of_gptHd hstraight.2.1]
    rfl
  have hfirst : files.head? = some ⟨DP_MESSAGING, 10, []⟩ := by
    have htail : (node :: files).tail = files := rfl
    rw [← htail, ← hskip]
    decide +kernel
  have := hstraight.2.2 _ (List.mem_of_mem_head? hfirst)
  cases this

end Beskar7Inspector.BootReuse
