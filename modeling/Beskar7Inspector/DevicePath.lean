import Beskar7Inspector.Esp
import Beskar7Inspector.Lib.LittleEndian
import Beskar7Inspector.Lib.Utf16

namespace Beskar7Inspector.DevicePath

open Lib Lib.LittleEndian Esp

def LOAD_OPTION_ACTIVE : UInt32 := 0x01
def LOAD_OPTION_CATEGORY : UInt32 := 0x1F00
def DP_MESSAGING : UInt8 := 0x03
def DP_MEDIA : UInt8 := 0x04
def DP_END : UInt8 := 0x7F
def DP_MEDIA_HD : UInt8 := 0x01
def DP_MEDIA_FILE : UInt8 := 0x04
def DP_END_ENTIRE : UInt8 := 0xFF
def DP_NETWORK_SUBTYPES : List UInt8 := [11, 12, 13, 24]
def HD_GPT : UInt8 := 0x02
def HD_NODE_LEN : Nat := 42

structure LoadOption where
  attributes : UInt32
  description : String
  devicePath : List UInt8
  deriving DecidableEq

structure HdNode where
  number : UInt32
  start : UInt64
  size : UInt64
  guid : Guid
  deriving DecidableEq

/-- The node names exactly the partition `gpt` describes. -/
def HdNode.is (node : HdNode) (gpt : GptEsp) : Bool :=
  node.guid == gpt.uniqueGuid && node.number == gpt.number && node.start == gpt.firstLba &&
    node.size == gpt.sizeLba

structure DpNode where
  ty : UInt8
  sub : UInt8
  data : List UInt8
  deriving DecidableEq

/-- One node at the front of `rest` and what follows it; `none` at the
End-Entire node, or where no whole node is left. -/
def nextNode : List UInt8 → Option (DpNode × List UInt8)
  | ty :: sub :: lo :: hi :: rest =>
      let len := decode [lo, hi]
      if len < 4 ∨ rest.length + 4 < len ∨ (ty = DP_END ∧ sub = DP_END_ENTIRE) then none
      else some (⟨ty, sub, rest.take (len - 4)⟩, rest.drop (len - 4))
  | _ => none

/-- At most `fuel` nodes. Each takes four bytes or more, so that the length of
the path is fuel enough. -/
def nodesFrom : Nat → List UInt8 → List DpNode
  | 0, _ => []
  | fuel + 1, rest => match nextNode rest with
      | some (node, rest) => node :: nodesFrom fuel rest
      | none => []

def devicePathNodes (dp : List UInt8) : List DpNode := nodesFrom dp.length dp

def DpNode.isHd (node : DpNode) : Bool := node.ty == DP_MEDIA && node.sub == DP_MEDIA_HD

def DpNode.isFile (node : DpNode) : Bool := node.ty == DP_MEDIA && node.sub == DP_MEDIA_FILE

/-- The fields of a GPT `HD()` node. -/
def DpNode.gptHd (node : DpNode) : Option HdNode :=
  if h : 38 ≤ node.data.length then
    if node.isHd ∧ node.data[37] = HD_GPT then
      some {
        number := UInt32.ofNat (decode (node.data.take 4))
        start := UInt64.ofNat (decode ((node.data.drop 4).take 8))
        size := UInt64.ofNat (decode ((node.data.drop 12).take 8))
        guid := ⟨(node.data.drop 20).take 16, by simp; omega⟩ }
    else none
  else none

def ucs2UntilNul (data : List UInt8) : List Char :=
  Utf16.decodeLossy ((units data).takeWhile (· ≠ 0))

/-- UTF-16 with a terminating NUL. -/
def ucs2Nul (s : String) : List UInt8 := unitBytes (Utf16.encode s.toList ++ [0])

def isSeparator (c : Char) : Bool := c == '\\' || c == '/'

def splitPath : List Char → List (List Char)
  | [] => [[]]
  | c :: cs =>
      if isSeparator c then [] :: splitPath cs
      else match splitPath cs with
        | part :: parts => (c :: part) :: parts
        | [] => [[c]]

/-- One backslash before each non-empty part. -/
def normalizePath (paths : List (List Char)) : String :=
  String.ofList (((paths.flatMap splitPath).filter (· ≠ [])).flatMap (fun part => '\\' :: part))

namespace LoadOption

def isActive (opt : LoadOption) : Bool := opt.attributes &&& LOAD_OPTION_ACTIVE != 0

def isAutoBootable (opt : LoadOption) : Bool := opt.isActive && opt.attributes &&& LOAD_OPTION_CATEGORY == 0

def hd (opt : LoadOption) : Option HdNode := (devicePathNodes opt.devicePath).findSome? DpNode.gptHd

/-- The joined `File()` nodes after the first `HD()` node; `none` when the path
ends at the partition. -/
def loaderPath (opt : LoadOption) : Option String :=
  match (devicePathNodes opt.devicePath).dropWhile (fun node => !node.isHd) with
  | [] => none
  | _ :: afterHd =>
      match (afterHd.takeWhile DpNode.isFile).map (fun node => ucs2UntilNul node.data) with
      | [] => none
      | parts => some (normalizePath parts)

end LoadOption

def isNetwork (dp : List UInt8) : Bool :=
  (devicePathNodes dp).any (fun node => node.ty == DP_MESSAGING && DP_NETWORK_SUBTYPES.contains node.sub)

/-- `HD(<n>,GPT,<guid>,<start>,<size>)/File(<loader>)` and the End-Entire node. -/
def hdFileDevicePath (gpt : GptEsp) (loader : String) : List UInt8 :=
  [DP_MEDIA, DP_MEDIA_HD] ++ encode 2 HD_NODE_LEN ++ encode 4 gpt.number.toNat ++ encode 8 gpt.firstLba.toNat ++
    encode 8 gpt.sizeLba.toNat ++ gpt.uniqueGuid.bytes ++ [HD_GPT, HD_GPT] ++
    [DP_MEDIA, DP_MEDIA_FILE] ++ encode 2 (4 + (ucs2Nul loader).length) ++ ucs2Nul loader ++
    [DP_END, DP_END_ENTIRE, 0x04, 0x00]

def encodeLoadOption (attributes : UInt32) (description : String) (devicePath : List UInt8) : List UInt8 :=
  encode 4 attributes.toNat ++ encode 2 devicePath.length ++ ucs2Nul description ++ devicePath

/-- The units before the first NUL, and the bytes after it. -/
def unitsUntilNul : List UInt8 → Option (List UInt16 × List UInt8)
  | lo :: hi :: rest =>
      let u := UInt16.ofNat (decode [lo, hi])
      if u = 0 then some ([], rest) else (unitsUntilNul rest).map (fun r => (u :: r.1, r.2))
  | _ => none

def parseLoadOption (raw : List UInt8) : Option LoadOption := do
  let (attributes, rest) ← split 4 raw
  let (dpLen, rest) ← split 2 rest
  let (units, rest) ← unitsUntilNul rest
  let (devicePath, _) ← split (decode dpLen) rest
  some ⟨UInt32.ofNat (decode attributes), String.ofList (Utf16.decodeLossy units), devicePath⟩

theorem nextNode_length {rest after : List UInt8} {node : DpNode} (h : nextNode rest = some (node, after)) :
    after.length + 4 ≤ rest.length := by
  unfold nextNode at h
  split at h
  · dsimp only at h
    split at h
    · cases h
    · cases h
      simp only [List.length_cons, List.length_drop]
      omega
  · cases h

theorem nodesFrom_eq_devicePathNodes {fuel : Nat} {rest : List UInt8} (h : rest.length ≤ fuel) :
    nodesFrom fuel rest = devicePathNodes rest := by
  have hmono : ∀ (a b : Nat) (rest : List UInt8), rest.length ≤ a → rest.length ≤ b →
      nodesFrom a rest = nodesFrom b rest := by
    intro a
    induction a with
    | zero =>
        intro b rest ha _
        rw [List.eq_nil_of_length_eq_zero (Nat.le_zero.mp ha)]
        cases b <;> rfl
    | succ a ih =>
        intro b rest ha hb
        cases b with
        | zero =>
            rw [List.eq_nil_of_length_eq_zero (Nat.le_zero.mp hb)]
            rfl
        | succ b =>
            cases hn : nextNode rest with
            | none => simp only [nodesFrom, hn]
            | some r =>
                have hlen := nextNode_length hn
                simp only [nodesFrom, hn]
                rw [ih b r.2 (by omega) (by omega)]
  exact hmono fuel rest.length rest h le_rfl

theorem devicePathNodes_cons {dp rest : List UInt8} {node : DpNode} (h : nextNode dp = some (node, rest)) :
    devicePathNodes dp = node :: devicePathNodes rest := by
  have hlen := nextNode_length h
  obtain ⟨fuel, hfuel⟩ : ∃ fuel, dp.length = fuel + 1 := ⟨dp.length - 1, by omega⟩
  rw [devicePathNodes]
  rw [hfuel, nodesFrom, h]
  exact congrArg _ (nodesFrom_eq_devicePathNodes (by omega))

theorem devicePathNodes_nil {dp : List UInt8} (h : nextNode dp = none) : devicePathNodes dp = [] := by
  rw [devicePathNodes]
  cases dp.length with
  | zero => rfl
  | succ fuel => rw [nodesFrom, h]

def encodeNode (node : DpNode) : List UInt8 :=
  [node.ty, node.sub] ++ encode 2 (4 + node.data.length) ++ node.data

theorem nextNode_encodeNode {ty sub : UInt8} {data : List UInt8} (hend : ¬(ty = DP_END ∧ sub = DP_END_ENTIRE))
    (hlen : 4 + data.length < 65536) (rest : List UInt8) :
    nextNode (encodeNode ⟨ty, sub, data⟩ ++ rest) = some (⟨ty, sub, data⟩, rest) := by
  have hdec : decode [UInt8.ofNat (4 + data.length), UInt8.ofNat ((4 + data.length) / 256)] = 4 + data.length :=
    decode_encode (show 4 + data.length < 256 ^ 2 from hlen)
  change nextNode (ty :: sub :: UInt8.ofNat (4 + data.length) :: UInt8.ofNat ((4 + data.length) / 256) ::
    (data ++ rest)) = _
  rw [nextNode, hdec, if_neg, Nat.add_sub_cancel_left, List.take_left, List.drop_left]
  rw [List.length_append]
  rintro (h | h | h)
  · omega
  · omega
  · exact hend h

theorem nextNode_end (rest : List UInt8) : nextNode ([DP_END, DP_END_ENTIRE, 0x04, 0x00] ++ rest) = none := by
  simp [nextNode]

def hdData (gpt : GptEsp) : List UInt8 :=
  encode 4 gpt.number.toNat ++ encode 8 gpt.firstLba.toNat ++ encode 8 gpt.sizeLba.toNat ++ gpt.uniqueGuid.bytes ++
    [HD_GPT, HD_GPT]

theorem hdData_length (gpt : GptEsp) : (hdData gpt).length = 38 := by
  simp [hdData, gpt.uniqueGuid.size]

theorem hdFileDevicePath_eq (gpt : GptEsp) (loader : String) :
    hdFileDevicePath gpt loader = encodeNode ⟨DP_MEDIA, DP_MEDIA_HD, hdData gpt⟩ ++
      (encodeNode ⟨DP_MEDIA, DP_MEDIA_FILE, ucs2Nul loader⟩ ++ [DP_END, DP_END_ENTIRE, 0x04, 0x00]) := by
  rw [hdFileDevicePath, encodeNode, encodeNode, hdData_length, hdData]
  simp only [List.append_assoc]
  rfl

theorem devicePathNodes_hdFileDevicePath (gpt : GptEsp) {loader : String}
    (hlen : 4 + (ucs2Nul loader).length < 65536) :
    devicePathNodes (hdFileDevicePath gpt loader) =
      [⟨DP_MEDIA, DP_MEDIA_HD, hdData gpt⟩, ⟨DP_MEDIA, DP_MEDIA_FILE, ucs2Nul loader⟩] := by
  rw [hdFileDevicePath_eq, devicePathNodes_cons (nextNode_encodeNode (by decide) (by rw [hdData_length]; decide) _),
    devicePathNodes_cons (nextNode_encodeNode (by decide) hlen _), devicePathNodes_nil]
  exact nextNode_end []

theorem gptHd_hdData (gpt : GptEsp) :
    DpNode.gptHd ⟨DP_MEDIA, DP_MEDIA_HD, hdData gpt⟩ =
      some ⟨gpt.number, gpt.firstLba, gpt.sizeLba, gpt.uniqueGuid⟩ := by
  have hnum : decode (encode 4 gpt.number.toNat) = gpt.number.toNat := decode_encode gpt.number.toNat_lt
  have hfirst : decode (encode 8 gpt.firstLba.toNat) = gpt.firstLba.toNat := decode_encode gpt.firstLba.toNat_lt
  have hsize : decode (encode 8 gpt.sizeLba.toNat) = gpt.sizeLba.toNat := decode_encode gpt.sizeLba.toNat_lt
  have hguid := gpt.uniqueGuid.size
  have hlt : 37 < (hdData gpt).length := by
    rw [hdData_length]
    decide
  have htag : (hdData gpt)[37] = HD_GPT := by
    simp [hdData, hguid]
  have hpast (width n k : Nat) (h : width ≤ k) : (encode width n).drop k = [] :=
    List.drop_eq_nil_of_le ((encode_length width n).trans_le h)
  rw [DpNode.gptHd]
  rw [dif_pos (hdData_length gpt).ge, if_pos ⟨rfl, htag⟩]
  simp [hdData, List.drop_append, hguid, hnum, hfirst, hsize, hpast]

theorem unitsUntilNul_unitBytes {us : List UInt16} (h : ∀ u ∈ us, u ≠ 0) (rest : List UInt8) :
    unitsUntilNul (unitBytes (us ++ [0]) ++ rest) = some (us, rest) := by
  induction us with
  | nil => rfl
  | cons u us ih =>
      have hu : UInt16.ofNat (decode [UInt8.ofNat u.toNat, UInt8.ofNat (u.toNat / 256)]) = u := by
        change UInt16.ofNat (decode (encode 2 u.toNat)) = u
        rw [decode_encode_unit, UInt16.ofNat_toNat]
      change unitsUntilNul (UInt8.ofNat u.toNat :: UInt8.ofNat (u.toNat / 256) ::
        (unitBytes (us ++ [0]) ++ rest)) = _
      simp only [unitsUntilNul, hu, if_neg (h u List.mem_cons_self),
        ih (fun v hv => h v (List.mem_cons_of_mem _ hv)), Option.map_some]

theorem ucs2UntilNul_ucs2Nul {s : String} (h : Char.ofNat 0 ∉ s.toList) : ucs2UntilNul (ucs2Nul s) = s.toList := by
  have hne := fun u (hu : u ∈ Utf16.encode s.toList) => Utf16.ne_zero_of_mem_encode h hu
  rw [ucs2UntilNul, ucs2Nul, units_unitBytes, List.takeWhile_append_of_pos (by simpa using hne)]
  simp [Utf16.decodeLossy_encode]

/-- An encoded option is read back as it was, whatever follows it. -/
theorem parseLoadOption_encodeLoadOption (attributes : UInt32) {description : String} {devicePath : List UInt8}
    (hdesc : Char.ofNat 0 ∉ description.toList) (hlen : devicePath.length < 65536) (rest : List UInt8) :
    parseLoadOption (encodeLoadOption attributes description devicePath ++ rest) =
      some ⟨attributes, description, devicePath⟩ := by
  have hne := fun u (hu : u ∈ Utf16.encode description.toList) => Utf16.ne_zero_of_mem_encode hdesc hu
  have hattrs : decode (encode 4 attributes.toNat) = attributes.toNat := decode_encode attributes.toNat_lt
  have hdp : decode (encode 2 devicePath.length) = devicePath.length := decode_encode hlen
  simp only [parseLoadOption, encodeLoadOption, List.append_assoc, split_append (encode_length _ _),
    Option.bind_eq_bind, Option.bind_some, ucs2Nul, unitsUntilNul_unitBytes hne, hdp, split_append rfl, hattrs,
    UInt32.ofNat_toNat, Utf16.decodeLossy_encode, String.ofList_toList]

theorem hd_hdFileDevicePath (attributes : UInt32) (description : String) (gpt : GptEsp) {loader : String}
    (hlen : 4 + (ucs2Nul loader).length < 65536) :
    LoadOption.hd ⟨attributes, description, hdFileDevicePath gpt loader⟩ =
      some ⟨gpt.number, gpt.firstLba, gpt.sizeLba, gpt.uniqueGuid⟩ := by
  rw [LoadOption.hd, devicePathNodes_hdFileDevicePath gpt hlen, List.findSome?_cons, gptHd_hdData]

theorem loaderPath_hdFileDevicePath (attributes : UInt32) (description : String) (gpt : GptEsp) {loader : String}
    (hnul : Char.ofNat 0 ∉ loader.toList) (hlen : 4 + (ucs2Nul loader).length < 65536) :
    LoadOption.loaderPath ⟨attributes, description, hdFileDevicePath gpt loader⟩ =
      some (normalizePath [loader.toList]) := by
  rw [LoadOption.loaderPath, devicePathNodes_hdFileDevicePath gpt hlen]
  simp [DpNode.isHd, DpNode.isFile, ucs2UntilNul_ucs2Nul hnul]

end Beskar7Inspector.DevicePath
