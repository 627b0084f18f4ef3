import Mathlib.Data.List.Basic

namespace Beskar7Inspector.Lib.Slices

variable {α : Type}

/-- The elements from `a` up to `b`, if the list reaches that far. -/
def slice (xs : List α) (a b : Nat) : Option (List α) :=
  if a ≤ b ∧ b ≤ xs.length then some ((xs.drop a).take (b - a)) else none

theorem slice_append (front mid back : List α) :
    slice (front ++ (mid ++ back)) front.length (front.length + mid.length) = some mid := by
  rw [slice, if_pos ⟨by omega, by simp only [List.length_append]; omega⟩, List.drop_left, Nat.add_sub_cancel_left,
    List.take_left]

theorem getElem?_middle (front : List α) (x : α) (back : List α) : (front ++ x :: back)[front.length]? = some x := by
  simp

theorem getElem?_past (front back : List α) (i : Nat) : (front ++ back)[front.length + i]? = back[i]? := by
  rw [List.getElem?_append_right (by omega), Nat.add_sub_cancel_left]

theorem getElem?_of_drop {xs back : List α} {x : α} {i : Nat} (h : xs.drop i = x :: back) : xs[i]? = some x := by
  rw [← Nat.add_zero i, ← List.getElem?_drop, h]
  rfl

theorem drop_succ_of_drop {xs back : List α} {x : α} {i : Nat} (h : xs.drop i = x :: back) : xs.drop (i + 1) = back := by
  rw [← List.drop_drop, h]
  rfl

theorem slice_of_le {xs : List α} {a n : Nat} (h : a + n ≤ xs.length) : slice xs a (a + n) = some ((xs.drop a).take n) := by
  rw [slice, if_pos ⟨by omega, h⟩, Nat.add_sub_cancel_left]

/-- The `n` elements from `a` on, or as many as there are. -/
def window (xs : List α) (a n : Nat) : List α := (xs.drop a).take n

theorem slice_window {xs : List α} {a n : Nat} (h : a + n ≤ xs.length) : slice xs a (a + n) = some (window xs a n) :=
  slice_of_le h

theorem window_length {xs : List α} {a n : Nat} (h : a + n ≤ xs.length) : (window xs a n).length = n := by
  rw [window, List.length_take, List.length_drop]
  omega

theorem window_of_eq {xs front mid : List α} {a n : Nat} (back : List α) (h : xs = front ++ (mid ++ back))
    (ha : front.length = a) (hn : mid.length = n) : window xs a n = mid := by
  subst h ha hn
  rw [window, List.drop_left, List.take_left]

theorem window_window (xs : List α) {o m a n : Nat} (h : a + n ≤ m) :
    window (window xs o m) a n = window xs (o + a) n := by
  rw [window, window, window, List.drop_take, List.take_take, List.drop_drop, Nat.min_eq_left (by omega)]

/-- The whole chunks of `n` elements; what is left at the end is dropped. -/
def chunksExact (n : Nat) (xs : List α) : List (List α) :=
  (List.range (xs.length / n)).map (fun k => (xs.drop (n * k)).take n)

theorem chunksExact_window {n count : Nat} {xs : List α} (hn : 0 < n) (h : xs.length = count * n) :
    chunksExact n xs = (List.range count).map (fun k => window xs (n * k) n) := by
  rw [chunksExact, h, Nat.mul_div_cancel _ hn]
  rfl

theorem chunksExact_short {n : Nat} {xs : List α} (h : xs.length < n) : chunksExact n xs = [] := by
  rw [chunksExact, Nat.div_eq_of_lt h]
  rfl

theorem chunksExact_append {n : Nat} {chunk rest : List α} (hn : 0 < n) (h : chunk.length = n) :
    chunksExact n (chunk ++ rest) = chunk :: chunksExact n rest := by
  have hcount : (chunk ++ rest).length / n = rest.length / n + 1 := by
    rw [List.length_append, h, Nat.add_div_left _ hn]
  rw [chunksExact, hcount, List.range_succ_eq_map, List.map_cons, List.map_map, chunksExact]
  congr 1
  · rw [Nat.mul_zero, List.drop_zero, ← h, List.take_left]
  · apply List.map_congr_left
    intro k _
    have hdrop : (chunk ++ rest).drop (n * (k + 1)) = rest.drop (n * k) := by
      rw [Nat.mul_succ, Nat.add_comm, ← h, List.drop_append, List.drop_of_length_le (by omega)]
      simp
    exact congrArg (List.take n) hdrop

end Beskar7Inspector.Lib.Slices
