import Beskar7Inspector.Lib.Os
import Beskar7Inspector.Lib.Slices
import Mathlib.Data.List.Basic

namespace Beskar7Inspector.Lib.Reader

open Os Slices

/-- What one `read` does: bring some of the bytes that are left, at least one if
there is any, be interrupted by a signal, or fail. -/
inductive ReadEvent
  | brings (more : Nat)
  | interrupted
  | fails (e : IoError)
  deriving DecidableEq

/-- Fill a buffer up to its end or that of the bytes, one `read` after the
other. After the listed events a `read` brings all it is asked for. -/
def readUpTo : List ReadEvent → List UInt8 → Nat → Except IoError (List UInt8)
  | _, _, 0 => .ok []
  | [], left, room + 1 => .ok (left.take (room + 1))
  | .interrupted :: events, left, room + 1 => readUpTo events left (room + 1)
  | .fails e :: _, _, _ + 1 => .error e
  | .brings more :: events, left, room + 1 =>
      let n := min (more + 1) (min (room + 1) left.length)
      if n = 0 then .ok []
      else (readUpTo events (left.drop n) (room + 1 - n)).map (left.take n ++ ·)

/-- Fill a buffer to its end. -/
def readExact (events : List ReadEvent) (left : List UInt8) (room : Nat) : Except IoError (List UInt8) :=
  match readUpTo events left room with
  | .error e => .error e
  | .ok bytes => if bytes.length < room then .error (.other "failed to fill whole buffer") else .ok bytes

variable {events : List ReadEvent} {left : List UInt8} {room : Nat}

theorem map_take_drop {n : Nat} (hn : n ≤ room) :
    ((Except.ok ((left.drop n).take (room - n)) : Except IoError (List UInt8)).map (left.take n ++ ·)) =
      .ok (left.take room) := by
  have hsplit : left.take n ++ (left.drop n).take (room - n) = left.take room := by
    rw [← List.take_add, Nat.add_sub_cancel' hn]
  exact congrArg Except.ok hsplit

/-- However the bytes come, they are the ones that are there, or a `read` failed. -/
theorem readUpTo_or (events : List ReadEvent) (left : List UInt8) (room : Nat) :
    readUpTo events left room = .ok (left.take room) ∨
      ∃ e, .fails e ∈ events ∧ readUpTo events left room = .error e := by
  induction events generalizing left room with
  | nil => cases room <;> exact .inl rfl
  | cons event events ih =>
      cases room with
      | zero => exact .inl rfl
      | succ room =>
          cases event with
          | interrupted =>
              obtain hok | ⟨e, he, herror⟩ := ih left (room + 1)
              · exact .inl hok
              · exact .inr ⟨e, List.mem_cons_of_mem _ he, herror⟩
          | fails e => exact .inr ⟨e, List.mem_cons_self, rfl⟩
          | brings more =>
              rw [readUpTo]
              by_cases hn : min (more + 1) (min (room + 1) left.length) = 0
              · have hleft : left = [] := List.length_eq_zero_iff.mp (by omega)
                rw [if_pos hn, hleft]
                exact .inl rfl
              · rw [if_neg hn]
                obtain hok | ⟨e, he, herror⟩ := ih (left.drop (min (more + 1) (min (room + 1) left.length)))
                  (room + 1 - min (more + 1) (min (room + 1) left.length))
                · rw [hok]
                  exact .inl (map_take_drop (by omega))
                · rw [herror]
                  exact .inr ⟨e, List.mem_cons_of_mem _ he, rfl⟩

theorem readUpTo_ok {bytes : List UInt8} (h : readUpTo events left room = .ok bytes) : bytes = left.take room := by
  obtain hok | ⟨e, -, herror⟩ := readUpTo_or events left room
  · exact Except.ok.inj (h.symm.trans hok)
  · cases h.symm.trans herror

theorem readUpTo_of_sound (h : ∀ e, .fails e ∉ events) : readUpTo events left room = .ok (left.take room) := by
  obtain hok | ⟨e, he, -⟩ := readUpTo_or events left room
  · exact hok
  · exact absurd he (h e)

theorem readExact_or (events : List ReadEvent) (left : List UInt8) (room : Nat) :
    readExact events left room = (if left.length < room then .error (.other "failed to fill whole buffer")
      else .ok (left.take room)) ∨ ∃ e, .fails e ∈ events ∧ readExact events left room = .error e := by
  obtain hok | ⟨e, he, herror⟩ := readUpTo_or events left room
  · refine .inl ?_
    rw [readExact, hok]
    have hlen : (left.take room).length < room ↔ left.length < room := by
      rw [List.length_take]
      omega
    exact if_congr hlen rfl rfl
  · exact .inr ⟨e, he, by rw [readExact, herror]⟩

end Beskar7Inspector.Lib.Reader
