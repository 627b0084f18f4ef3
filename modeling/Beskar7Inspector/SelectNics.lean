import Beskar7Inspector.Net
import Beskar7Inspector.SysTree
import Mathlib.Data.List.Sort
import Mathlib.Data.String.Basic

namespace Beskar7Inspector.SelectNics

open Lib.Text SysTree Net

def SYSFS_NET : String := "/sys/class/net"

inductive NicSelection
  | pinned (iface : String)
  | race (ifaces : List String)
  deriving DecidableEq, Repr

/-- Every interface but the loopback, by name. -/
def candidateInterfaces (net : SysDir) : List String :=
  (((net.readDir []).getD []).filter (· ≠ "lo")).insertionSort (· ≤ ·)

/-- `01-aa-bb-cc-dd-ee-ff` as the address is written in sysfs. -/
def normalizeBootif (bootif : String) : String :=
  let hex := (stripPrefix "01-" bootif).getD bootif
  asciiLower (String.ofList (hex.toList.map (fun c => if c = '-' then ':' else c)))

def hasAddress (net : SysDir) (want iface : String) : Bool :=
  (net.readTrimmed [iface, "address"]).any (fun mac => eqIgnoreAsciiCase mac want)

def selectNics (net : SysDir) (bootif : Option String) : Except NetError NicSelection :=
  let candidates := candidateInterfaces net
  if candidates = [] then .error .noInterface
  else match bootif with
    | some bootif =>
        let want := normalizeBootif bootif
        match candidates.find? (hasAddress net want) with
        | some iface => .ok (.pinned iface)
        | none => .error (.bootifNoMatch want)
    | none => match candidates with
        | [only] => .ok (.pinned only)
        | _ => .ok (.race candidates)

def nicSelectable (net : SysDir) (bootif : Option String) : Bool := (selectNics net bootif).isOk

example : normalizeBootif "01-52-54-00-AA-BB-CC" = "52:54:00:aa:bb:cc" := by decide

/-- The candidates have distinct names, and stand in the order of their names. -/
theorem pairwise_candidateInterfaces (net : SysDir) : (candidateInterfaces net).Pairwise (· < ·) := by
  have hnodup : (candidateInterfaces net).Nodup :=
    (List.perm_insertionSort _ _).nodup_iff.mpr (net.distinct.filter _)
  have hsorted : (candidateInterfaces net).Pairwise (· ≤ ·) := List.pairwise_insertionSort (· ≤ ·) _
  exact hsorted.imp₂ (fun a b hle hne => lt_of_le_of_ne hle hne) hnodup

theorem selectNics_race {net : SysDir} {bootif : Option String} {ifaces : List String}
    (h : selectNics net bootif = .ok (.race ifaces)) : ifaces = candidateInterfaces net := by
  unfold selectNics at h
  dsimp only at h
  split at h
  · cases h
  · split at h
    · split at h <;> cases h
    · split at h
      · cases h
      · cases h
        rfl

/-- A race is given its interfaces in the order of their names. -/
theorem pairwise_of_race {net : SysDir} {bootif : Option String} {ifaces : List String}
    (h : selectNics net bootif = .ok (.race ifaces)) : ifaces.Pairwise (· < ·) := by
  rw [selectNics_race h]
  exact pairwise_candidateInterfaces net

end Beskar7Inspector.SelectNics
