import Beskar7Inspector.Efiboot

namespace Beskar7Inspector.VarStore

open Lib.Program Lib.Os Deploy Esp DevicePath BootOrder Efiboot

abbrev Store := AList (fun _ : String => List UInt8)

structure Write where
  name : String
  accepted : Bool
  deriving DecidableEq

structure World where
  store : Store
  writes : List Write

/-- What the firmware chooses at a call: a failure, and the order of a listing. -/
structure Choice where
  failure : Option IoError
  listing : List String

/-- Which calls may fail. -/
structure Faults where
  reads : Bool
  writes : Bool

/-- The variable store. A refused write leaves the variable as it was. -/
def firmware (faults : Faults) : Machine VarOp Choice World where
  step
    | .list, c, w => match if faults.reads then c.failure else none with
        | some e => (.error e, w)
        | none => (.ok (if c.listing.Perm w.store.keys then c.listing else w.store.keys), w)
    | .read name, c, w => match if faults.reads then c.failure else none with
        | some e => (.error e, w)
        | none => (.ok (w.store.lookup name), w)
    | .write name value, c, w => match if faults.writes then c.failure else none with
        | some e => (.error e, { w with writes := w.writes ++ [⟨name, false⟩] })
        | none => (.ok (), ⟨w.store.insert name value, w.writes ++ [⟨name, true⟩]⟩)

/-- `Q` holds of every outcome of `p`, whatever the firmware chooses. -/
abbrev Ensures {α : Type} (faults : Faults) (p : Efi α) (w : World) (Q : Except EfiBootError α → World → Prop) : Prop :=
  p.run.wp (firmware faults) (fun _ => True) Q w

section

variable {faults : Faults} {w : World}

theorem ensures_list {Q : Except EfiBootError (List String) → World → Prop}
    (hfail : ∀ e, faults.reads = true → Q (.error (.listVars e)) w)
    (hok : ∀ names, names.Perm w.store.keys → Q (.ok names) w) : Ensures faults (attempt .list .listVars) w Q := by
  refine (Try.wp_attempt _ _).mpr ⟨trivial, fun c => ⟨trivial, ?_⟩⟩
  simp only [firmware]
  split
  · rename_i e he
    exact hfail e (Option.ite_none_right_eq_some.mp he).1
  · refine hok _ ?_
    split
    · assumption
    · exact List.Perm.refl _

theorem ensures_read {name : String} {Q : Except EfiBootError (Option (List UInt8)) → World → Prop}
    (hfail : ∀ e, faults.reads = true → Q (.error (.readVar name e)) w) (hok : Q (.ok (w.store.lookup name)) w) :
    Ensures faults (attempt (.read name) (.readVar name)) w Q := by
  refine (Try.wp_attempt _ _).mpr ⟨trivial, fun c => ⟨trivial, ?_⟩⟩
  simp only [firmware]
  split
  · rename_i e he
    exact hfail e (Option.ite_none_right_eq_some.mp he).1
  · exact hok

theorem ensures_write {name : String} {value : List UInt8} {Q : Except EfiBootError Unit → World → Prop}
    (hfail : ∀ e, faults.writes = true → Q (.error (.writeVar name e)) { w with writes := w.writes ++ [⟨name, false⟩] })
    (hok : Q (.ok ()) ⟨w.store.insert name value, w.writes ++ [⟨name, true⟩]⟩) :
    Ensures faults (attempt (.write name value) (.writeVar name)) w Q := by
  refine (Try.wp_attempt _ _).mpr ⟨trivial, fun c => ⟨trivial, ?_⟩⟩
  simp only [firmware]
  split
  · rename_i e he
    exact hfail e (Option.ite_none_right_eq_some.mp he).1
  · exact hok

end

/-- The numbered options among the variables `names`. -/
def namedEntries (s : Store) (names : List String) : List (UInt16 × LoadOption) :=
  names.filterMap fun name => do
    let n ← parseBootVarName name
    let opt ← (s.lookup name).bind parseLoadOption
    some (n, opt)

def usedNumbers (names : List String) : List UInt16 := names.filterMap parseBootVarName

def readOrder (s : Store) : Option (List UInt16) :=
  match s.lookup "BootOrder" with
  | some raw => parseBootOrder raw
  | none => some []

def sortedEntries (s : Store) (names : List String) : List (UInt16 × LoadOption) :=
  (namedEntries s names).insertionSort (fun a b => a.1 ≤ b.1)

/-- The entry to end up with, and how it is obtained. -/
def choose (arch : Arch) (gpt : GptEsp) (entries : List (UInt16 × LoadOption)) (used : List UInt16) :
    Option (UInt16 × Outcome) :=
  match pickExisting entries gpt arch.espLoaderPath with
  | some n => some (n, .reused)
  | none => match previousEntry entries with
      | some n => some (n, .replaced)
      | none => (freeBootNumber used).map (·, .created)

def diskOption (arch : Arch) (gpt : GptEsp) : List UInt8 :=
  encodeLoadOption LOAD_OPTION_ACTIVE DESCRIPTION (hdFileDevicePath gpt arch.espLoaderPath)

def World.withEntry (w : World) (arch : Arch) (gpt : GptEsp) (n : UInt16) (outcome : Outcome) : World :=
  if outcome = .reused then w
  else ⟨w.store.insert (bootVarName n) (diskOption arch gpt), w.writes ++ [⟨bootVarName n, true⟩]⟩

def World.withOrder (w : World) (previous order : List UInt16) : World :=
  if order = previous then w
  else ⟨w.store.insert "BootOrder" (encodeBootOrder order), w.writes ++ [⟨"BootOrder", true⟩]⟩

/-- What a run has read and decided before its first write. -/
structure Decision (arch : Arch) (gpt : GptEsp) (s : Store) where
  names : List String
  listed : names.Perm s.keys
  previous : List UInt16
  read : readOrder s = some previous
  number : UInt16
  outcome : Outcome
  chosen : choose arch gpt (sortedEntries s names) ((usedNumbers names).insertionSort (· ≤ ·)) = some (number, outcome)

def Decision.order {arch : Arch} {gpt : GptEsp} {s : Store} (d : Decision arch gpt s) : List UInt16 :=
  place (sortedEntries s d.names) d.previous d.number

def Decision.entry {arch : Arch} {gpt : GptEsp} {s : Store} (d : Decision arch gpt s) : BootEntry :=
  ⟨d.number, d.outcome, d.previous, d.order⟩

/-- Every way a run can end. -/
inductive Ended (faults : Faults) (arch : Arch) (gpt : GptEsp) (w : World) : Except EfiBootError BootEntry → World → Prop
  | listRefused (source : IoError) (h : faults.reads = true) : Ended faults arch gpt w (.error (.listVars source)) w
  | readRefused (name : String) (source : IoError) (h : faults.reads = true) :
      Ended faults arch gpt w (.error (.readVar name source)) w
  | badOrder (h : readOrder w.store = none) : Ended faults arch gpt w (.error .badBootOrder) w
  | noFree (names : List String) (hn : names.Perm w.store.keys)
      (h : choose arch gpt (sortedEntries w.store names) ((usedNumbers names).insertionSort (· ≤ ·)) = none) :
      Ended faults arch gpt w (.error .noFreeEntry) w
  | entryRefused (d : Decision arch gpt w.store) (hd : d.outcome ≠ .reused) (source : IoError)
      (h : faults.writes = true) :
      Ended faults arch gpt w (.error (.writeVar (bootVarName d.number) source))
        { w with writes := w.writes ++ [⟨bootVarName d.number, false⟩] }
  | orderRefused (d : Decision arch gpt w.store) (hd : d.order ≠ d.previous) (source : IoError)
      (h : faults.writes = true) :
      Ended faults arch gpt w (.error (.writeVar "BootOrder" source))
        ⟨(w.withEntry arch gpt d.number d.outcome).store,
          (w.withEntry arch gpt d.number d.outcome).writes ++ [⟨"BootOrder", false⟩]⟩
  | done (d : Decision arch gpt w.store) :
      Ended faults arch gpt w (.ok d.entry) ((w.withEntry arch gpt d.number d.outcome).withOrder d.previous d.order)

section

variable {faults : Faults} {w : World}

theorem ensures_readEntries (names : List String)
    {Q : Except EfiBootError (List (UInt16 × LoadOption) × List UInt16) → World → Prop}
    (hfail : ∀ name e, faults.reads = true → Q (.error (.readVar name e)) w)
    (hok : Q (.ok (namedEntries w.store names, usedNumbers names)) w) : Ensures faults (readEntries names) w Q := by
  induction names generalizing Q with
  | nil => exact ⟨trivial, hok⟩
  | cons name names ih =>
      rw [readEntries]
      cases hn : parseBootVarName name with
      | none =>
          refine ih hfail ?_
          simpa [namedEntries, usedNumbers, hn] using hok
      | some n =>
          refine (Try.wp_bind _ _).mpr (ensures_read (hfail name) ?_)
          refine (Try.wp_bind _ _).mpr (ih hfail ?_)
          cases hv : (w.store.lookup name).bind parseLoadOption with
          | none =>
              refine ⟨trivial, ?_⟩
              simpa [namedEntries, usedNumbers, hn, hv] using hok
          | some opt =>
              refine ⟨trivial, ?_⟩
              simpa [namedEntries, usedNumbers, hn, hv] using hok

theorem ensures_readBootEntries {Q : Except EfiBootError (List (UInt16 × LoadOption) × List UInt16) → World → Prop}
    (hlist : ∀ e, faults.reads = true → Q (.error (.listVars e)) w)
    (hread : ∀ name e, faults.reads = true → Q (.error (.readVar name e)) w)
    (hok : ∀ names, names.Perm w.store.keys →
      Q (.ok (sortedEntries w.store names, (usedNumbers names).insertionSort (· ≤ ·))) w) :
    Ensures faults readBootEntries w Q := by
  refine (Try.wp_bind _ _).mpr (ensures_list hlist fun names hn => ?_)
  refine (Try.wp_bind _ _).mpr (ensures_readEntries names hread ?_)
  exact ⟨trivial, hok names hn⟩

theorem ensures_readBootOrder {Q : Except EfiBootError (List UInt16) → World → Prop}
    (hread : ∀ name e, faults.reads = true → Q (.error (.readVar name e)) w)
    (hbad : readOrder w.store = none → Q (.error .badBootOrder) w)
    (hok : ∀ order, readOrder w.store = some order → Q (.ok order) w) : Ensures faults readBootOrder w Q := by
  refine (Try.wp_bind _ _).mpr (ensures_read (hread _) ?_)
  rw [readOrder] at hbad hok
  dsimp only [Try.andThen]
  cases hr : w.store.lookup "BootOrder" with
  | none => exact ⟨trivial, hok [] (by rw [hr])⟩
  | some raw =>
      rw [hr] at hbad hok
      cases ho : parseBootOrder raw with
      | none =>
          simp only [ho]
          exact ⟨trivial, hbad ho⟩
      | some order =>
          simp only [ho]
          exact ⟨trivial, hok order ho⟩

theorem ensures_obtainEntry {arch : Arch} {gpt : GptEsp} {entries : List (UInt16 × LoadOption)} {used : List UInt16}
    {Q : Except EfiBootError (UInt16 × Outcome) → World → Prop}
    (hfull : choose arch gpt entries used = none → Q (.error .noFreeEntry) w)
    (hrefused : ∀ n outcome e, choose arch gpt entries used = some (n, outcome) → outcome ≠ .reused →
      faults.writes = true → Q (.error (.writeVar (bootVarName n) e)) { w with writes := w.writes ++ [⟨bootVarName n, false⟩] })
    (hok : ∀ n outcome, choose arch gpt entries used = some (n, outcome) →
      Q (.ok (n, outcome)) (w.withEntry arch gpt n outcome)) :
    Ensures faults (obtainEntry arch gpt entries used) w Q := by
  rw [obtainEntry]
  rw [choose] at hfull hrefused hok
  cases hp : pickExisting entries gpt arch.espLoaderPath with
  | some n =>
      simp only [hp] at hok ⊢
      exact ⟨trivial, hok n .reused rfl⟩
  | none =>
      cases hv : previousEntry entries with
      | some n =>
          simp only [hp, hv] at hrefused hok ⊢
          refine (Try.wp_bind _ _).mpr ⟨trivial, ?_⟩
          refine (Try.wp_bind _ _).mpr (ensures_write (fun e hf => hrefused n .replaced e rfl nofun hf) ?_)
          exact ⟨trivial, hok n .replaced rfl⟩
      | none =>
          cases hf : freeBootNumber used with
          | some n =>
              simp only [hp, hv, hf] at hrefused hok ⊢
              refine (Try.wp_bind _ _).mpr ⟨trivial, ?_⟩
              refine (Try.wp_bind _ _).mpr (ensures_write (fun e hf => hrefused n .created e rfl nofun hf) ?_)
              exact ⟨trivial, hok n .created rfl⟩
          | none =>
              simp only [hp, hv, hf] at hfull ⊢
              exact (Try.wp_bind _ _).mpr ⟨trivial, hfull rfl⟩

/-- The master inversion of a run. -/
theorem ensureIn_ended (faults : Faults) (arch : Arch) (gpt : GptEsp) (w : World) :
    Ensures faults (ensureIn arch gpt) w (Ended faults arch gpt w) := by
  refine (Try.wp_bind _ _).mpr (ensures_readBootEntries .listRefused .readRefused fun names hn => ?_)
  refine (Try.wp_bind _ _).mpr (ensures_readBootOrder .readRefused .badOrder fun previous hp => ?_)
  refine (Try.wp_bind _ _).mpr (ensures_obtainEntry (.noFree names hn) ?_ ?_)
  · intro n outcome e hc ho hf
    exact .entryRefused ⟨names, hn, previous, hp, n, outcome, hc⟩ ho e hf
  · intro n outcome hc
    let d : Decision arch gpt w.store := ⟨names, hn, previous, hp, n, outcome, hc⟩
    have hdone : Ended faults arch gpt w (.ok d.entry) _ := .done d
    by_cases ho : d.order = d.previous
    · rw [World.withOrder, if_pos ho] at hdone
      change Ensures faults (if d.order ≠ d.previous then _ else _) _ _
      rw [if_neg (not_not.mpr ho)]
      exact ⟨trivial, hdone⟩
    · rw [World.withOrder, if_neg ho] at hdone
      change Ensures faults (if d.order ≠ d.previous then _ else _) _ _
      rw [if_pos ho]
      exact (Try.wp_bind _ _).mpr (ensures_write (fun e hf => .orderRefused d ho e hf) ⟨trivial, hdone⟩)

/-- A run on the store `s`, with the choices the firmware makes. -/
def ensureRun (faults : Faults) (arch : Arch) (gpt : GptEsp) (plan : Nat → Choice) (s : Store) :
    Ending (Except EfiBootError BootEntry) World :=
  (ensureIn arch gpt).run.run (firmware faults) plan ⟨s, []⟩

theorem ensureRun_ended (faults : Faults) (arch : Arch) (gpt : GptEsp) (plan : Nat → Choice) (s : Store) :
    Ended faults arch gpt ⟨s, []⟩ (ensureRun faults arch gpt plan s).value (ensureRun faults arch gpt plan s).final :=
  Prog.value_of_wp (ensureIn_ended faults arch gpt ⟨s, []⟩) plan

end

end Beskar7Inspector.VarStore
