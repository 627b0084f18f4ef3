import Beskar7Inspector.Lib.LittleEndian
import Mathlib.Data.List.Basic
import Mathlib.Data.List.TakeWhile

namespace Beskar7Inspector.BootOrder

open Lib.LittleEndian

def parseBootOrder (raw : List UInt8) : Option (List UInt16) :=
  if raw.length % 2 ≠ 0 then none else some (units raw)

def encodeBootOrder (order : List UInt16) : List UInt8 := unitBytes order

theorem parseBootOrder_encodeBootOrder (order : List UInt16) :
    parseBootOrder (encodeBootOrder order) = some order := by
  simp [parseBootOrder, encodeBootOrder, units_unitBytes]

/-- The position of the last element that satisfies `p`. -/
def rposition {α : Type} (p : α → Bool) : List α → Option Nat
  | [] => none
  | a :: as => match rposition p as with
      | some i => some (i + 1)
      | none => if p a then some 0 else none

/-- `order` with `n` moved to right after the network entries that lead it. -/
def placeAfterNetwork (order : List UInt16) (n : UInt16) (bootable isNet : UInt16 → Bool) : List UInt16 :=
  let out := order.filter (· ≠ n)
  let firstOther := out.findIdx (fun e => bootable e && !isNet e)
  let position := match rposition (fun e => bootable e && isNet e) (out.take firstOther) with
    | some i => i + 1
    | none => firstOther
  out.take position ++ n :: out.drop position

section

variable {α : Type} {p : α → Bool} {l : List α}

theorem rposition_none (h : rposition p l = none) : ∀ a ∈ l, p a = false := by
  induction l with
  | nil => nofun
  | cons a as ih =>
      rw [rposition] at h
      cases hr : rposition p as with
      | some i => simp [hr] at h
      | none =>
          simp only [hr, ite_eq_right_iff, reduceCtorEq, imp_false, Bool.not_eq_true] at h
          exact List.forall_mem_cons.mpr ⟨h, ih hr⟩

theorem rposition_some {i : Nat} (h : rposition p l = some i) :
    i < l.length ∧ (∃ a, l[i]? = some a ∧ p a = true) ∧ ∀ a ∈ l.drop (i + 1), p a = false := by
  induction l generalizing i with
  | nil => cases h
  | cons a as ih =>
      rw [rposition] at h
      cases hr : rposition p as with
      | some j =>
          simp only [hr, Option.some.injEq] at h
          subst h
          obtain ⟨hlt, hat, hafter⟩ := ih hr
          exact ⟨Nat.succ_lt_succ hlt, hat, hafter⟩
      | none =>
          simp only [hr, Option.ite_none_right_eq_some, Option.some.injEq] at h
          obtain ⟨hp, rfl⟩ := h
          exact ⟨Nat.succ_pos _, ⟨a, rfl, hp⟩, rposition_none hr⟩

theorem findIdx_congr {q : α → Bool} (h : ∀ a ∈ l, p a = q a) : l.findIdx p = l.findIdx q := by
  induction l with
  | nil => rfl
  | cons a as ih =>
      rw [List.forall_mem_cons] at h
      rw [List.findIdx_cons, List.findIdx_cons, h.1, ih h.2]

theorem rposition_congr {q : α → Bool} (h : ∀ a ∈ l, p a = q a) : rposition p l = rposition q l := by
  induction l with
  | nil => rfl
  | cons a as ih =>
      rw [List.forall_mem_cons] at h
      rw [rposition, rposition, h.1, ih h.2]

theorem forall_take_findIdx : ∀ a ∈ l.take (l.findIdx p), p a = false := by
  have h : l.takeWhile (fun a => !p a) = l.take (l.findIdx fun a => !!p a) := List.takeWhile_eq_take_findIdx_not
  simp only [Bool.not_not] at h
  intro a ha
  rw [← h] at ha
  simpa using List.mem_takeWhile_imp ha

theorem head?_drop_findIdx {a : α} (h : (l.drop (l.findIdx p)).head? = some a) : p a = true := by
  have hd : l.dropWhile (fun a => !p a) = l.drop (l.findIdx fun a => !!p a) := List.dropWhile_eq_drop_findIdx_not
  simp only [Bool.not_not] at hd
  have hh := List.head?_dropWhile_not (fun a => !p a) l
  rw [hd, h] at hh
  simpa using hh

end

section

variable {n : UInt16} {bootable isNet : UInt16 → Bool}

/-- Where `n` goes: the bootable entries before it are network entries, and the
first bootable one after it is not. -/
theorem placeAfterNetwork_split (order : List UInt16) (n : UInt16) (bootable isNet : UInt16 → Bool) :
    ∃ pre post, order.filter (· ≠ n) = pre ++ post ∧ placeAfterNetwork order n bootable isNet = pre ++ n :: post ∧
      (∀ e ∈ pre, bootable e = true → isNet e = true) ∧
      (∀ e, (post.filter bootable).head? = some e → isNet e = false) ∧
      ((∃ front e, pre = front ++ [e] ∧ bootable e = true) ∨
        (∀ e ∈ pre, bootable e = false) ∧ ∀ e, post.head? = some e → bootable e = true) := by
  unfold placeAfterNetwork
  generalize order.filter (· ≠ n) = out
  dsimp only
  have hlead : ∀ e ∈ out.take (out.findIdx fun e => bootable e && !isNet e), bootable e = true → isNet e = true := by
    intro e he hb
    simpa [hb] using forall_take_findIdx e he
  have htail : ∀ e, ((out.drop (out.findIdx fun e => bootable e && !isNet e)).filter bootable).head? = some e →
      isNet e = false := by
    intro e he
    cases hd : out.drop (out.findIdx fun e => bootable e && !isNet e) with
    | nil => simp [hd] at he
    | cons a as =>
        have ha := head?_drop_findIdx (p := fun e => bootable e && !isNet e) (l := out) (a := a) (by rw [hd]; rfl)
        rw [Bool.and_eq_true] at ha
        rw [hd, List.filter_cons_of_pos ha.1, List.head?_cons, Option.some.injEq] at he
        simpa [he] using ha.2
  have hfirst : ∀ e, (out.drop (out.findIdx fun e => bootable e && !isNet e)).head? = some e → bootable e = true := by
    intro e he
    have hother := head?_drop_findIdx he
    rw [Bool.and_eq_true] at hother
    exact hother.1
  generalize out.findIdx (fun e => bootable e && !isNet e) = firstOther at *
  cases hr : rposition (fun e => bootable e && isNet e) (out.take firstOther) with
  | none =>
      have hnone : ∀ e ∈ out.take firstOther, bootable e = false := by
        intro e he
        by_contra hb
        rw [Bool.not_eq_false] at hb
        have hnet := hlead e he hb
        simpa [hb, hnet] using rposition_none hr e he
      exact ⟨out.take firstOther, out.drop firstOther, (List.take_append_drop ..).symm, rfl, hlead, htail,
        .inr ⟨hnone, hfirst⟩⟩
  | some i =>
      obtain ⟨hlt, ⟨last, hat, hlast⟩, hafter⟩ := rposition_some hr
      have htake : out.take (i + 1) = (out.take firstOther).take (i + 1) := by
        rw [List.take_take]
        rw [List.length_take] at hlt
        congr 1
        omega
      have hdrop : out.drop (i + 1) = (out.take firstOther).drop (i + 1) ++ out.drop firstOther := by
        rw [← List.drop_append_of_le_length hlt, List.take_append_drop]
      refine ⟨out.take (i + 1), out.drop (i + 1), (List.take_append_drop ..).symm, rfl, ?_, ?_, .inl ?_⟩
      · intro e he
        rw [htake] at he
        exact hlead e (List.mem_of_mem_take he)
      · -- What is left of the lead after its last network entry is not bootable.
        have hskip : ((out.take firstOther).drop (i + 1)).filter bootable = [] := by
          rw [List.filter_eq_nil_iff]
          intro e he hb
          have hnet := hlead e (List.mem_of_mem_drop he) hb
          simpa [hb, hnet] using hafter e he
        rw [hdrop, List.filter_append, hskip, List.nil_append]
        exact htail
      · rw [Bool.and_eq_true] at hlast
        refine ⟨(out.take firstOther).take i, last, ?_, hlast.1⟩
        rw [htake, List.take_add_one, hat]
        rfl

theorem takeWhile_filter_append {pre post : List UInt16} (hpre : ∀ e ∈ pre, bootable e = true → isNet e = true)
    (hpost : ∀ e, (post.filter bootable).head? = some e → isNet e = false) :
    ((pre ++ post).filter bootable).takeWhile isNet = pre.filter bootable := by
  rw [List.filter_append, List.takeWhile_append_of_pos]
  · cases hp : post.filter bootable with
    | nil => simp
    | cons e es => simp [hpost e (by rw [hp]; rfl)]
  · intro e he
    exact hpre e (List.mem_of_mem_filter he) (List.of_mem_filter he)

theorem filter_ne_placeAfterNetwork (order : List UInt16) :
    (placeAfterNetwork order n bootable isNet).filter (· ≠ n) = order.filter (· ≠ n) := by
  obtain ⟨pre, post, hout, hplace, _⟩ := placeAfterNetwork_split order n bootable isNet
  have hne : ∀ e ∈ pre ++ post, e ≠ n := by
    intro e he
    rw [← hout] at he
    simpa using List.of_mem_filter he
  rw [hplace, hout, List.filter_append, List.filter_cons_of_neg (by simp), ← List.filter_append,
    List.filter_eq_self]
  simpa using hne

theorem mem_placeAfterNetwork (order : List UInt16) : n ∈ placeAfterNetwork order n bootable isNet := by
  obtain ⟨pre, post, _, hplace, _⟩ := placeAfterNetwork_split order n bootable isNet
  rw [hplace]
  exact List.mem_append_right _ List.mem_cons_self

theorem placeAfterNetwork_ne_nil (order : List UInt16) : placeAfterNetwork order n bootable isNet ≠ [] :=
  List.ne_nil_of_mem (mem_placeAfterNetwork order)

theorem placeAfterNetwork_congr {order order' : List UInt16} {bootable' isNet' : UInt16 → Bool}
    (horder : order'.filter (· ≠ n) = order.filter (· ≠ n))
    (hpred : ∀ e ≠ n, bootable' e = bootable e ∧ isNet' e = isNet e) :
    placeAfterNetwork order' n bootable' isNet' = placeAfterNetwork order n bootable isNet := by
  have hne : ∀ e ∈ order.filter (· ≠ n), bootable' e = bootable e ∧ isNet' e = isNet e :=
    fun e he => hpred e (by simpa using List.of_mem_filter he)
  unfold placeAfterNetwork
  rw [horder]
  generalize order.filter (· ≠ n) = out at hne
  have hfirst : out.findIdx (fun e => bootable' e && !isNet' e) = out.findIdx (fun e => bootable e && !isNet e) :=
    findIdx_congr (fun e he => by rw [(hne e he).1, (hne e he).2])
  have hlast : rposition (fun e => bootable' e && isNet' e) (out.take (out.findIdx fun e => bootable e && !isNet e)) =
      rposition (fun e => bootable e && isNet e) (out.take (out.findIdx fun e => bootable e && !isNet e)) :=
    rposition_congr (fun e he => by
      rw [(hne e (List.mem_of_mem_take he)).1, (hne e (List.mem_of_mem_take he)).2])
  simp only [hfirst, hlast]

theorem placeAfterNetwork_idem {order : List UInt16} {bootable' isNet' : UInt16 → Bool}
    (hpred : ∀ e ≠ n, bootable' e = bootable e ∧ isNet' e = isNet e) :
    placeAfterNetwork (placeAfterNetwork order n bootable isNet) n bootable' isNet' =
      placeAfterNetwork order n bootable isNet :=
  placeAfterNetwork_congr (filter_ne_placeAfterNetwork order) hpred

/-- Among the bootable entries, `n` comes right after the network entries that
lead the others. -/
theorem filter_bootable_placeAfterNetwork (isNet : UInt16 → Bool) (order : List UInt16) {bootable' : UInt16 → Bool}
    (hn : bootable' n = true) (hne : ∀ e ≠ n, bootable' e = bootable e) :
    ∃ rest, (placeAfterNetwork order n bootable isNet).filter bootable' =
      ((order.filter (· ≠ n)).filter bootable).takeWhile isNet ++ n :: rest := by
  obtain ⟨pre, post, hout, hplace, hpre, hpost, _⟩ := placeAfterNetwork_split order n bootable isNet
  have hfilter : ∀ l : List UInt16, (∀ e ∈ l, e ∈ pre ++ post) → l.filter bootable' = l.filter bootable := by
    intro l hl
    refine List.filter_congr fun e he => hne e ?_
    have := hl e he
    rw [← hout] at this
    simpa using List.of_mem_filter this
  refine ⟨post.filter bootable', ?_⟩
  rw [hplace, hout, takeWhile_filter_append hpre hpost, List.filter_append, List.filter_cons_of_pos hn,
    hfilter pre fun e he => List.mem_append_left _ he]

/-- `n` stands once, right after the network entries that lead the bootable
ones, and no other entry moves. -/
theorem placeAfterNetwork_placement (order : List UInt16) (n : UInt16) (bootable isNet : UInt16 → Bool) :
    let others := order.filter (· ≠ n)
    let lead := (others.filter bootable).takeWhile isNet
    let placed := placeAfterNetwork order n bootable isNet
    placed.count n = 1 ∧ placed.filter (· ≠ n) = others ∧
      ∃ pre post, placed = pre ++ n :: post ∧ n ∉ pre ∧ pre.filter bootable = lead ∧
        (lead ≠ [] → ∃ front last, pre = front ++ [last] ∧ lead = front.filter bootable ++ [last]) ∧
        (lead = [] → (∀ e ∈ pre, bootable e = false) ∧ ∀ e, post.head? = some e → bootable e = true) := by
  intro others lead placed
  obtain ⟨pre, post, hout, hplace, hpre, hpost, hbeside⟩ := placeAfterNetwork_split order n bootable isNet
  have hn : n ∉ pre ++ post := by
    intro hn
    rw [← hout, List.mem_filter] at hn
    simp at hn
  rw [List.mem_append, not_or] at hn
  have hlead : lead = pre.filter bootable := by
    simp only [lead, others, hout]
    exact takeWhile_filter_append hpre hpost
  refine ⟨?_, filter_ne_placeAfterNetwork order, pre, post, hplace, hn.1, hlead.symm, ?_, ?_⟩
  · simp only [placed, hplace, List.count_append, List.count_cons_self, List.count_eq_zero_of_not_mem hn.1,
      List.count_eq_zero_of_not_mem hn.2]
  · intro hne
    rcases hbeside with ⟨front, last, hlast, hb⟩ | ⟨hnone, _⟩
    · refine ⟨front, last, hlast, ?_⟩
      rw [hlead, hlast, List.filter_append, List.filter_cons_of_pos hb, List.filter_nil]
    · rw [hlead, ne_eq, List.filter_eq_nil_iff] at hne
      exact absurd (fun e he => by simp [hnone e he]) hne
  · intro hnil
    rw [hlead, List.filter_eq_nil_iff] at hnil
    rcases hbeside with ⟨front, last, hlast, hb⟩ | hfirst
    · exact absurd hb (hnil last (by simp [hlast]))
    · exact hfirst

end

end Beskar7Inspector.BootOrder
