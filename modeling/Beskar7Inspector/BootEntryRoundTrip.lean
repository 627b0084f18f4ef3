import Beskar7Inspector.DevicePath

namespace Beskar7Inspector.BootEntryRoundTrip

open Lib Lib.LittleEndian Esp DevicePath

theorem unitsUntilNul_append (more : List UInt8) : ∀ (bytes : List UInt8) {us : List UInt16} {rest : List UInt8},
    unitsUntilNul bytes = some (us, rest) → unitsUntilNul (bytes ++ more) = some (us, rest ++ more)
  | lo :: hi :: bytes, us, rest, h => by
      simp only [unitsUntilNul, List.cons_append] at h ⊢
      by_cases hzero : UInt16.ofNat (decode [lo, hi]) = 0
      · rw [if_pos hzero] at h ⊢
        cases h
        rfl
      · rw [if_neg hzero] at h ⊢
        obtain ⟨r, hr, heq⟩ := Option.map_eq_some_iff.mp h
        cases heq
        rw [unitsUntilNul_append more bytes hr]
        rfl
  | [], _, _, h => by cases h
  | [_], _, _, h => by cases h

theorem unitsUntilNul_ucs2Nul {s : String} (h : Char.ofNat 0 ∉ s.toList) (rest : List UInt8) :
    unitsUntilNul (ucs2Nul s ++ rest) = some (Utf16.encode s.toList, rest) :=
  unitsUntilNul_unitBytes (fun _ hu => Utf16.ne_zero_of_mem_encode h hu) rest

/-- Nothing shorter than an encoded option is read as one. -/
theorem parseLoadOption_prefix {attributes : UInt32} {description : String} {devicePath cut : List UInt8}
    (hdesc : Char.ofNat 0 ∉ description.toList) (hlen : devicePath.length < 65536)
    (hcut : cut <+: encodeLoadOption attributes description devicePath)
    (hne : cut ≠ encodeLoadOption attributes description devicePath) : parseLoadOption cut = none := by
  obtain ⟨more, hmore⟩ := hcut
  have hdp : decode (encode 2 devicePath.length) = devicePath.length := decode_encode hlen
  cases hparse : parseLoadOption cut with
  | none => rfl
  | some opt =>
      exfalso
      simp only [parseLoadOption, Option.bind_eq_bind, Option.bind_eq_some_iff] at hparse
      obtain ⟨⟨attrs, rest⟩, hattrs, ⟨len, rest'⟩, hlength, ⟨us, tail⟩, hunits, ⟨path, left⟩, hpath, -⟩ := hparse
      obtain ⟨rfl, hattrslen⟩ := split_eq_some hattrs
      obtain ⟨rfl, hlenlen⟩ := split_eq_some hlength
      obtain ⟨rfl, hpathlen⟩ := split_eq_some hpath
      simp only [encodeLoadOption, List.append_assoc] at hmore
      obtain ⟨-, hmore'⟩ := List.append_inj hmore (hattrslen.trans (encode_length 4 _).symm)
      obtain ⟨rfl, hmore''⟩ := List.append_inj hmore' (hlenlen.trans (encode_length 2 _).symm)
      have hread := unitsUntilNul_append more _ hunits
      rw [hmore'', unitsUntilNul_ucs2Nul hdesc, Option.some.injEq, Prod.mk.injEq, List.append_assoc] at hread
      have hcount := congrArg List.length hread.2
      rw [List.length_append, List.length_append] at hcount
      rw [hdp] at hpathlen
      have hnil : more = [] := List.eq_nil_of_length_eq_zero (by omega)
      apply hne
      simp only [encodeLoadOption, List.append_assoc]
      rw [← hmore, hnil]
      simp

/-- A path of one or more components, each behind a backslash. -/
def Canonical (loader : String) : Prop :=
  ∃ parts : List (List Char), parts ≠ [] ∧
    (∀ part ∈ parts, part ≠ [] ∧ ∀ c ∈ part, isSeparator c = false ∧ c ≠ Char.ofNat 0) ∧
    loader = String.ofList (parts.flatMap (fun part => '\\' :: part))

theorem splitPath_append {part cs first : List Char} {rest : List (List Char)}
    (hpart : ∀ c ∈ part, isSeparator c = false) (h : splitPath cs = first :: rest) :
    splitPath (part ++ cs) = (part ++ first) :: rest := by
  induction part with
  | nil => exact h
  | cons c part ih =>
      rw [List.forall_mem_cons] at hpart
      simp only [List.cons_append, splitPath, hpart.1, ih hpart.2]
      rfl

theorem splitPath_parts {parts : List (List Char)} (h : ∀ part ∈ parts, ∀ c ∈ part, isSeparator c = false) :
    splitPath (parts.flatMap (fun part => '\\' :: part)) = [] :: parts := by
  induction parts with
  | nil => rfl
  | cons part parts ih =>
      rw [List.forall_mem_cons] at h
      have hsep : isSeparator '\\' = true := by decide
      rw [List.flatMap_cons, List.cons_append, splitPath, if_pos hsep, splitPath_append h.1 (ih h.2), List.append_nil]

theorem Canonical.normalizePath {loader : String} (h : Canonical loader) : normalizePath [loader.toList] = loader := by
  obtain ⟨parts, -, hparts, rfl⟩ := h
  have hsplit := splitPath_parts (fun part hpart c hc => ((hparts part hpart).2 c hc).1)
  have hkeep : parts.filter (· ≠ []) = parts := by
    rw [List.filter_eq_self]
    intro part hpart
    simpa using (hparts part hpart).1
  rw [DevicePath.normalizePath, List.flatMap_cons, List.flatMap_nil, List.append_nil, String.toList_ofList, hsplit,
    List.filter_cons_of_neg (by simp), hkeep]

theorem Canonical.no_nul {loader : String} (h : Canonical loader) : Char.ofNat 0 ∉ loader.toList := by
  obtain ⟨parts, -, hparts, rfl⟩ := h
  rw [String.toList_ofList]
  intro hmem
  obtain ⟨part, hpart, hc⟩ := List.mem_flatMap.mp hmem
  rcases List.mem_cons.mp hc with hc | hc
  · exact absurd hc (by decide)
  · exact ((hparts part hpart).2 _ hc).2 rfl

theorem hdFileDevicePath_length (gpt : GptEsp) (loader : String) :
    (hdFileDevicePath gpt loader).length = 50 + (ucs2Nul loader).length := by
  rw [hdFileDevicePath_eq]
  simp only [encodeNode, List.length_append, encode_length, hdData_length, List.length_cons, List.length_nil]
  omega

theorem isNetwork_hdFileDevicePath (gpt : GptEsp) {loader : String} (hlen : 4 + (ucs2Nul loader).length < 65536) :
    isNetwork (hdFileDevicePath gpt loader) = false := by
  have hmedia : (DP_MEDIA == DP_MESSAGING) = false := by decide
  rw [isNetwork, devicePathNodes_hdFileDevicePath gpt hlen]
  simp [hmedia]

theorem is_iff {node : HdNode} {gpt : GptEsp} : node.is gpt = true ↔
    node.guid = gpt.uniqueGuid ∧ node.number = gpt.number ∧ node.start = gpt.firstLba ∧ node.size = gpt.sizeLba := by
  simp [HdNode.is, and_assoc]

/-- The entry that is written is the entry that is read back. -/
theorem bootEntry_roundTrip (attributes : UInt32) (description : String) (gpt : GptEsp) (loader : String)
    (optionalData : List UInt8) (hdesc : Char.ofNat 0 ∉ description.toList) (hloader : Canonical loader)
    (hlen : (hdFileDevicePath gpt loader).length < 65536) :
    (∃ opt, parseLoadOption
        (encodeLoadOption attributes description (hdFileDevicePath gpt loader) ++ optionalData) = some opt ∧
      opt.attributes = attributes ∧ opt.description = description ∧ opt.devicePath = hdFileDevicePath gpt loader ∧
      (∃ node, opt.hd = some node ∧ ∀ other : GptEsp, node.is other = true ↔
        other.uniqueGuid = gpt.uniqueGuid ∧ other.number = gpt.number ∧ other.firstLba = gpt.firstLba ∧
          other.sizeLba = gpt.sizeLba) ∧
      opt.loaderPath = some loader ∧ isNetwork opt.devicePath = false) ∧
    ∀ cut, cut <+: encodeLoadOption attributes description (hdFileDevicePath gpt loader) →
      cut ≠ encodeLoadOption attributes description (hdFileDevicePath gpt loader) → parseLoadOption cut = none := by
  have hnode : 4 + (ucs2Nul loader).length < 65536 := by
    rw [hdFileDevicePath_length] at hlen
    omega
  refine ⟨⟨⟨attributes, description, hdFileDevicePath gpt loader⟩, ?_, rfl, rfl, rfl, ?_, ?_, ?_⟩, ?_⟩
  · exact parseLoadOption_encodeLoadOption attributes hdesc hlen optionalData
  · refine ⟨_, hd_hdFileDevicePath attributes description gpt hnode, ?_⟩
    intro other
    rw [is_iff]
    simp only [eq_comm]
  · rw [loaderPath_hdFileDevicePath attributes description gpt hloader.no_nul hnode, hloader.normalizePath]
  · exact isNetwork_hdFileDevicePath gpt hnode
  · intro cut hcut hne
    exact parseLoadOption_prefix hdesc hlen hcut hne

/-- The ESP of a small image. -/
def smallEsp : GptEsp where
  number := 1
  uniqueGuid := ⟨List.replicate 16 0xA5, rfl⟩
  firstLba := 2048
  lastLba := 133119

theorem bootEntry_roundTrip_smallEsp :
    ∃ opt, parseLoadOption (encodeLoadOption LOAD_OPTION_ACTIVE "beskar7"
        (hdFileDevicePath smallEsp "\\EFI\\BOOT\\BOOTX64.EFI") ++ [0x57, 0x4E]) = some opt ∧
      opt.description = "beskar7" ∧ opt.loaderPath = some "\\EFI\\BOOT\\BOOTX64.EFI" := by
  have hloader : Canonical "\\EFI\\BOOT\\BOOTX64.EFI" := by
    refine ⟨["EFI".toList, "BOOT".toList, "BOOTX64.EFI".toList], by simp, ?_, rfl⟩
    simp [isSeparator]
  obtain ⟨opt, hparse, -, hdesc, -, -, hpath, -⟩ := (bootEntry_roundTrip LOAD_OPTION_ACTIVE "beskar7" smallEsp
    "\\EFI\\BOOT\\BOOTX64.EFI" [0x57, 0x4E] (by decide) hloader (by decide)).1
  exact ⟨opt, hparse, hdesc, hpath⟩

end Beskar7Inspector.BootEntryRoundTrip
