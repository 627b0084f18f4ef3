import Beskar7Inspector.DevicePath
import Beskar7Inspector.Lib.Slices

namespace Beskar7Inspector.DevicePathWalk

open Lib.LittleEndian Lib.Slices DevicePath

/-- The walk as it reads the bytes, by index. `none` is an index out of range,
or a walk that did not come to its end within `fuel` rounds. -/
def walk : Nat → List UInt8 → Option (List DpNode)
  | 0, _ => none
  | fuel + 1, rest =>
      if 4 ≤ rest.length then
        match rest[0]?, rest[1]?, rest[2]?, rest[3]? with
        | some ty, some sub, some lo, some hi =>
            let len := decode [lo, hi]
            if len < 4 ∨ rest.length < len ∨ (ty = DP_END ∧ sub = DP_END_ENTIRE) then some []
            else match slice rest 4 len, slice rest len rest.length with
              | some data, some after => (walk fuel after).map (fun nodes => ⟨ty, sub, data⟩ :: nodes)
              | _, _ => none
        | _, _, _, _ => none
      else some []

def devicePathNodesAt (dp : List UInt8) : Option (List DpNode) := walk (dp.length + 1) dp

def IsEndEntire (node : DpNode) : Prop := node.ty = DP_END ∧ node.sub = DP_END_ENTIRE

/-- The bytes of the nodes, one after another. -/
def encodeNodes (nodes : List DpNode) : List UInt8 := nodes.flatMap encodeNode

/-- Where a walk ends: no whole header, an End-Entire node, or a length that is
shorter than a header or reaches past the end. -/
def Stops (rest : List UInt8) : Prop :=
  rest.length < 4 ∨ ∃ ty sub lo hi more, rest = ty :: sub :: lo :: hi :: more ∧
    ((ty = DP_END ∧ sub = DP_END_ENTIRE) ∨ decode [lo, hi] < 4 ∨ rest.length < decode [lo, hi])

theorem nextNode_eq_none_iff {rest : List UInt8} : nextNode rest = none ↔ Stops rest := by
  constructor
  · intro h
    rcases rest with _ | ⟨ty, _ | ⟨sub, _ | ⟨lo, _ | ⟨hi, more⟩⟩⟩⟩
    case cons.cons.cons.cons =>
      refine .inr ⟨ty, sub, lo, hi, more, rfl, ?_⟩
      rw [nextNode] at h
      split at h
      · rename_i hstop
        rcases hstop with hshort | hlong | hend
        · exact .inr (.inl hshort)
        · exact .inr (.inr hlong)
        · exact .inl hend
      · cases h
    all_goals exact .inl (by simp)
  · rintro (hshort | ⟨ty, sub, lo, hi, more, rfl, hstop⟩)
    · rcases rest with _ | ⟨ty, _ | ⟨sub, _ | ⟨lo, _ | ⟨hi, more⟩⟩⟩⟩
      case cons.cons.cons.cons =>
        simp only [List.length_cons] at hshort
        omega
      all_goals rfl
    · rw [nextNode, if_pos]
      rcases hstop with hend | hlen | hlen
      · exact .inr (.inr hend)
      · exact .inl hlen
      · exact .inr (.inl hlen)

/-- A node that is read stands at the front, as it is encoded. -/
theorem nextNode_eq_some {rest after : List UInt8} {node : DpNode} (h : nextNode rest = some (node, after)) :
    rest = encodeNode node ++ after := by
  match rest with
  | ty :: sub :: lo :: hi :: more =>
      rw [nextNode] at h
      split at h
      · cases h
      · rename_i hgo
        rw [not_or, not_or] at hgo
        cases h
        have hlen : 4 + (more.take (decode [lo, hi] - 4)).length = decode [lo, hi] := by
          rw [List.length_take]
          omega
        have hfield : encode 2 (decode [lo, hi]) = [lo, hi] := encode_decode rfl
        rw [encodeNode]
        simp only [hlen]
        rw [hfield, List.append_assoc, List.take_append_drop]
        rfl
  | [] | [_] | [_, _] | [_, _, _] => cases h

/-- The walk by index never leaves the bytes, and reads the nodes one by one. -/
theorem walk_eq {fuel : Nat} {rest : List UInt8} (hfuel : rest.length < fuel) :
    walk fuel rest = some (devicePathNodes rest) := by
  induction fuel generalizing rest with
  | zero => omega
  | succ fuel ih =>
      match rest, hfuel with
      | ty :: sub :: lo :: hi :: more, hfuel =>
          simp only [walk, List.length_cons, List.getElem?_cons_zero, List.getElem?_cons_succ]
          rw [if_pos (by omega)]
          by_cases hstop : decode [lo, hi] < 4 ∨ more.length + 4 < decode [lo, hi] ∨ (ty = DP_END ∧ sub = DP_END_ENTIRE)
          · have hnext : nextNode (ty :: sub :: lo :: hi :: more) = none := by
              rw [nextNode, if_pos hstop]
            rw [if_pos hstop, devicePathNodes_nil hnext]
          · have hnext : nextNode (ty :: sub :: lo :: hi :: more) =
                some (⟨ty, sub, more.take (decode [lo, hi] - 4)⟩, more.drop (decode [lo, hi] - 4)) := by
              rw [nextNode, if_neg hstop]
            obtain ⟨len, hlen⟩ : ∃ len, decode [lo, hi] = len + 4 :=
              ⟨_, (Nat.sub_add_cancel (Nat.le_of_not_lt fun h => hstop (.inl h))).symm⟩
            rw [hlen] at hstop hnext ⊢
            rw [Nat.add_sub_cancel] at hnext
            have hfits : len ≤ more.length := Nat.le_of_not_lt fun h => hstop (.inr (.inl (Nat.add_lt_add_right h 4)))
            have hdata : slice (ty :: sub :: lo :: hi :: more) 4 (len + 4) = some (more.take len) := by
              rw [slice, if_pos ⟨by omega, Nat.add_le_add_right hfits 4⟩]
              rfl
            have hrest : slice (ty :: sub :: lo :: hi :: more) (len + 4) (more.length + 4) = some (more.drop len) := by
              rw [slice, if_pos ⟨Nat.add_le_add_right hfits 4, le_rfl⟩]
              simp
            have hshorter : (more.drop len).length < fuel := by
              simp only [List.length_drop, List.length_cons] at hfuel ⊢
              omega
            rw [if_neg hstop]
            simp only [hdata, hrest]
            rw [devicePathNodes_cons hnext, ih hshorter]
            rfl
      | [], _ | [_], _ | [_, _], _ | [_, _, _], _ => rfl

/-- Both readings of a device path agree. -/
theorem devicePathNodesAt_eq (dp : List UInt8) : devicePathNodesAt dp = some (devicePathNodes dp) :=
  walk_eq (Nat.lt_succ_self _)

theorem devicePathNodes_prefix (dp : List UInt8) :
    ∃ rest, dp = encodeNodes (devicePathNodes dp) ++ rest ∧ Stops rest := by
  induction hn : dp.length using Nat.strong_induction_on generalizing dp with
  | _ n ih =>
      subst hn
      cases hnext : nextNode dp with
      | none =>
          rw [devicePathNodes_nil hnext]
          exact ⟨dp, rfl, nextNode_eq_none_iff.mp hnext⟩
      | some r =>
          obtain ⟨node, after⟩ := r
          have hshorter := nextNode_length hnext
          obtain ⟨rest, hrest, hstops⟩ := ih after.length (by omega) after rfl
          refine ⟨rest, ?_, hstops⟩
          rw [devicePathNodes_cons hnext, encodeNodes, List.flatMap_cons, List.append_assoc, ← encodeNodes, ← hrest]
          exact nextNode_eq_some hnext

theorem devicePathNodes_encodeNodes {nodes : List DpNode} {rest : List UInt8}
    (hnodes : ∀ node ∈ nodes, ¬IsEndEntire node ∧ node.data.length ≤ 65531) (hstops : Stops rest) :
    devicePathNodes (encodeNodes nodes ++ rest) = nodes := by
  induction nodes with
  | nil => exact devicePathNodes_nil (nextNode_eq_none_iff.mpr hstops)
  | cons node nodes ih =>
      rw [List.forall_mem_cons] at hnodes
      obtain ⟨⟨hend, hlen⟩, hrest⟩ := hnodes
      rw [encodeNodes, List.flatMap_cons, List.append_assoc, ← encodeNodes]
      rw [devicePathNodes_cons (nextNode_encodeNode hend (by omega) _), ih hrest]

theorem stops_encodeNode {last : DpNode} (h : IsEndEntire last) (more : List UInt8) : Stops (encodeNode last ++ more) :=
  .inr ⟨last.ty, last.sub, _, _, last.data ++ more, rfl, .inl h⟩

/-- The nodes before an End-Entire node are read back as they were; and whatever
the bytes, the walk comes to its end inside them, the nodes it returns being what
stands before the place where it stops. -/
theorem devicePathNodes_lossless :
    (∀ (nodes : List DpNode) (last : DpNode) (more : List UInt8),
      (∀ node ∈ nodes, ¬IsEndEntire node ∧ node.data.length ≤ 65531) → IsEndEntire last →
      devicePathNodesAt (encodeNodes nodes ++ (encodeNode last ++ more)) = some nodes) ∧
    ∀ dp : List UInt8, ∃ nodes rest,
      devicePathNodesAt dp = some nodes ∧ dp = encodeNodes nodes ++ rest ∧ Stops rest := by
  constructor
  · intro nodes last more hnodes hlast
    rw [devicePathNodesAt_eq, devicePathNodes_encodeNodes hnodes (stops_encodeNode hlast more)]
  · intro dp
    obtain ⟨rest, hrest, hstops⟩ := devicePathNodes_prefix dp
    exact ⟨devicePathNodes dp, rest, devicePathNodesAt_eq dp, hrest, hstops⟩

end Beskar7Inspector.DevicePathWalk
