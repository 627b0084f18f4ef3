import Beskar7Inspector.SelectNics

namespace Beskar7Inspector.Modules

open SysTree SelectNics

/-- In nanoseconds. -/
def SETTLE_TIMEOUT : Nat := 30 * 10 ^ 9

def SETTLE_STABLE_POLLS : UInt32 := 2

structure DeviceCounts where
  block : Nat
  nics : Nat
  selectable : Bool
  deriving DecidableEq, Repr

inductive SettleOutcome
  | settled
  | timedOut
  deriving DecidableEq, Repr

structure Settle where
  prev : DeviceCounts
  stable : UInt32
  deriving DecidableEq, Repr

def Settle.new (initial : DeviceCounts) : Settle := ⟨initial, 0⟩

/-- One observation, made that long after the wait began. The counter wraps at
2^32, as it does in the release build. -/
def Settle.observe (s : Settle) (cur : DeviceCounts) (elapsed : Nat) : Option SettleOutcome × Settle :=
  let s : Settle := if cur = s.prev then { s with stable := s.stable + 1 } else { prev := cur, stable := 0 }
  let outcome := if SETTLE_STABLE_POLLS ≤ s.stable ∧ cur.selectable then some .settled
    else if SETTLE_TIMEOUT ≤ elapsed then some .timedOut
    else none
  (outcome, s)

def countDir (dir : SysDir) : Nat := ((dir.readDir []).getD []).length

def deviceCountsIn (block net : SysDir) (bootif : Option String) : DeviceCounts where
  block := countDir block
  nics := (candidateInterfaces net).length
  selectable := nicSelectable net bootif

/-- The first outcome of the wait, and which observation it comes with. -/
def Settle.firstOutcome : Settle → List (DeviceCounts × Nat) → Option (Nat × SettleOutcome)
  | _, [] => none
  | s, (cur, elapsed) :: rest => match s.observe cur elapsed with
      | (some outcome, _) => some (0, outcome)
      | (none, s) => (s.firstOutcome rest).map (fun r => (r.1 + 1, r.2))

/-- What `/sys` shows at one poll, and how long after the wait began. -/
structure Poll where
  block : SysDir
  net : SysDir
  elapsed : Nat

/-- The wait over the polls of a run. -/
def settle (bootif : Option String) (block net : SysDir) (polls : List Poll) : Option (Nat × SettleOutcome) :=
  (Settle.new (deviceCountsIn block net bootif)).firstOutcome
    (polls.map (fun p => (deviceCountsIn p.block p.net bootif, p.elapsed)))

end Beskar7Inspector.Modules
