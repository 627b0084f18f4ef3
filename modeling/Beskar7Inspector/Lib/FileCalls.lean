import Beskar7Inspector.Lib.Files
import Beskar7Inspector.Lib.Recorder

namespace Beskar7Inspector.Lib.FileCalls

open Os Files Program Recorder

variable {Name : Type} [DecidableEq Name] {fold : Name → Name}

/-- The file calls of a program, one operation of the standard library each. A
listing is read entry by entry, and `discard` is a removal whose result is ignored. -/
inductive FileOp (Name : Type) : Type → Type
  | readDir (dir : Path Name) : FileOp Name (Except IoError (List Name))
  | nextEntry (dir : Path Name) : FileOp Name (Except IoError Unit)
  | isFile (p : Path Name) : FileOp Name Bool
  | isDir (p : Path Name) : FileOp Name Bool
  | read (p : Path Name) : FileOp Name (Except IoError (List UInt8))
  | createDirAll (p : Path Name) : FileOp Name (Except IoError Unit)
  | openTruncated (p : Path Name) (mode : Nat) : FileOp Name (Except IoError Unit)
  | setPermissions (p : Path Name) (mode : Nat) : FileOp Name (Except IoError Unit)
  | writeAll (p : Path Name) (data : List UInt8) : FileOp Name (Except IoError Unit)
  | syncFile (p : Path Name) : FileOp Name (Except IoError Unit)
  | syncDir (p : Path Name) : FileOp Name (Except IoError Unit)
  | rename (p q : Path Name) : FileOp Name (Except IoError Unit)
  | removeFile (p : Path Name) : FileOp Name (Except IoError Unit)
  | discard (p : Path Name) : FileOp Name Unit

/-- A failing call: its error, and how much of a write or of a chain of
directories it got done before. -/
structure Fault where
  error : IoError
  done : Nat

section

variable (fault : Option Fault) (t : FileTree fold)

/-- The answer of a call that only looks. -/
def looked {α : Type} (r : Except Errno α) : Except IoError α × FileTree fold :=
  match fault with
  | some f => (.error f.error, t)
  | none => (r.mapError .os, t)

/-- The answer of a call that changes the files: `partly` when it fails. -/
def changed (partly : Nat → FileTree fold) (r : Except Errno (FileTree fold)) : Except IoError Unit × FileTree fold :=
  match fault with
  | some f => (.error f.error, partly f.done)
  | none => match r with
      | .ok t' => (.ok (), t')
      | .error e => (.error (.os e), t)

end

/-- What a call does. One that fails leaves the files as they were, but for a
write, of which a part may be done, and for a chain of directories, of which
some may be made. -/
def act : ∀ {β : Type}, FileOp Name β → Option Fault → FileTree fold → β × FileTree fold
  | _, .readDir dir, f, t => looked f t (t.readDir dir)
  | _, .nextEntry _, f, t => looked f t (.ok ())
  | _, .isFile p, f, t => (f.isNone && t.isFile p, t)
  | _, .isDir p, f, t => (f.isNone && t.isDir p, t)
  | _, .read p, f, t => looked f t (t.read p)
  | _, .createDirAll p, f, t =>
      changed f t (fun n => (t.createDirAll (p.upTo (min n (p.depth - 1)))).toOption.getD t) (t.createDirAll p)
  | _, .openTruncated p mode, f, t => changed f t (fun _ => t) (t.openTruncated p mode)
  | _, .setPermissions p mode, f, t => changed f t (fun _ => t) (t.setPermissions p mode)
  | _, .writeAll p data, f, t =>
      changed f t (fun n => (t.append p (data.take n)).toOption.getD t) (t.append p data)
  | _, .syncFile _, f, t => looked f t (.ok ())
  | _, .syncDir _, f, t => looked f t (.ok ())
  | _, .rename p q, f, t => changed f t (fun _ => t) (t.rename p q)
  | _, .removeFile p, f, t => changed f t (fun _ => t) (t.unlink p)
  | _, .discard p, f, t => ((), if f.isNone then (t.unlink p).toOption.getD t else t)

/-- Two kinds of failures that a program does not notice: of a removal whose
result it ignores, and of a look that then passes for a missing file. -/
structure Unnoticed where
  cleanUps : Bool
  looks : Bool

def Unnoticed.allow (may : Unnoticed) : ∀ {β : Type}, FileOp Name β → Option Fault → Option Fault
  | _, .discard _, f => if may.cleanUps then f else none
  | _, .isFile _, f => if may.looks then f else none
  | _, .isDir _, f => if may.looks then f else none
  | _, .readDir _, f => if may.looks then f else f.filter fun x => !x.error.isNotFound
  | _, _, f => f

/-- The files below a mount point, where any call may fail with any error, the
unnoticed failures as far as `may` admits them. -/
def disk (may : Unnoticed) : Machine (FileOp Name) (Option Fault) (FileTree fold) where
  step o f t := act o (may.allow o f) t

inductive Call
  | readDir
  | nextEntry
  | stat
  | read
  | createDirAll
  | openTruncated
  | setPermissions
  | writeAll
  | syncFile
  | syncDir
  | rename
  | removeFile
  | discard
  deriving DecidableEq, Repr

/-- The calls that only look. -/
def Call.isLook : Call → Bool
  | .readDir | .nextEntry | .stat | .read => true
  | _ => false

/-- A call that was made: the path it was for (of a rename, the new name) and
the error it failed with. -/
structure Event (Name : Type) where
  call : Call
  path : Path Name
  failure : Option IoError
  deriving DecidableEq

@[simp] def failureOf {α : Type} : Except IoError α → Option IoError
  | .ok _ => none
  | .error e => some e

def event : ∀ {β : Type}, FileOp Name β → β → Event Name
  | _, .readDir p, r => ⟨.readDir, p, failureOf r⟩
  | _, .nextEntry p, r => ⟨.nextEntry, p, failureOf r⟩
  | _, .isFile p, _ => ⟨.stat, p, none⟩
  | _, .isDir p, _ => ⟨.stat, p, none⟩
  | _, .read p, r => ⟨.read, p, failureOf r⟩
  | _, .createDirAll p, r => ⟨.createDirAll, p, failureOf r⟩
  | _, .openTruncated p _, r => ⟨.openTruncated, p, failureOf r⟩
  | _, .setPermissions p _, r => ⟨.setPermissions, p, failureOf r⟩
  | _, .writeAll p _, r => ⟨.writeAll, p, failureOf r⟩
  | _, .syncFile p, r => ⟨.syncFile, p, failureOf r⟩
  | _, .syncDir p, r => ⟨.syncDir, p, failureOf r⟩
  | _, .rename _ q, r => ⟨.rename, q, failureOf r⟩
  | _, .removeFile p, r => ⟨.removeFile, p, failureOf r⟩
  | _, .discard p, _ => ⟨.discard, p, none⟩

/-- The entries of a directory, if it exists. -/
def listing (dir : Path Name) : Try (FileOp Name) IoError (Option (List Name)) := do
  let entries ← always (.readDir dir)
  match entries with
  | .ok names => pure (some names)
  | .error e => if e.isNotFound then pure none else throw e

section Rules

variable {α β δ ε : Type} {may : Unnoticed} {I : FileTree fold → Prop} {t : FileTree fold}

section

variable {p q : Path Name} {tag : IoError → ε} {Q : Except ε Unit → FileTree fold → List (Event Name) → Prop}

theorem does_changed_of {φ : Type} {M : Machine (FileOp Name) φ (FileTree fold)} {o : FileOp Name (Except IoError Unit)}
    {g : Nat → FileTree fold} {r : Except Errno (FileTree fold)}
    (ho : ∀ f, ∃ fault : Option Fault, M.step o f t = changed fault t g r) (hI : I t)
    (herr : ∀ e t', t' = t ∨ (∃ n, t' = g n) → I t' ∧ Q (.error (tag e)) t' [event o (.error e)])
    (hok : ∀ t', r = .ok t' → I t' ∧ Q (.ok ()) t' [event o (.ok ())]) :
    Does event M I (attempt o tag) t Q := by
  refine Does.attempt hI fun f => ?_
  obtain ⟨fault, hstep⟩ := ho f
  rw [hstep]
  cases fault with
  | some x => exact herr x.error _ (.inr ⟨x.done, rfl⟩)
  | none =>
      cases r with
      | ok t' => exact hok t' rfl
      | error e => exact herr (.os e) t (.inl rfl)

theorem does_changed {o : FileOp Name (Except IoError Unit)} {g : Nat → FileTree fold}
    {r : Except Errno (FileTree fold)} (ho : ∀ f, act o f t = changed f t g r) (hI : I t)
    (herr : ∀ e t', t' = t ∨ (∃ n, t' = g n) → I t' ∧ Q (.error (tag e)) t' [event o (.error e)])
    (hok : ∀ t', r = .ok t' → I t' ∧ Q (.ok ()) t' [event o (.ok ())]) :
    Does event (disk may) I (attempt o tag) t Q :=
  does_changed_of (fun f => ⟨may.allow o f, ho _⟩) hI herr hok

theorem does_looked_of {φ : Type} {M : Machine (FileOp Name) φ (FileTree fold)} {o : FileOp Name (Except IoError Unit)}
    (ho : ∀ f, ∃ fault : Option Fault, M.step o f t = looked fault t (.ok ())) (hI : I t)
    (herr : ∀ e, Q (.error (tag e)) t [event o (.error e)]) (hok : Q (.ok ()) t [event o (.ok ())]) :
    Does event M I (attempt o tag) t Q := by
  refine Does.attempt hI fun f => ?_
  obtain ⟨fault, hstep⟩ := ho f
  rw [hstep]
  cases fault with
  | some x => exact ⟨hI, herr x.error⟩
  | none => exact ⟨hI, hok⟩

theorem does_looked {o : FileOp Name (Except IoError Unit)} (ho : ∀ f, act o f t = looked f t (.ok ())) (hI : I t)
    (herr : ∀ e, Q (.error (tag e)) t [event o (.error e)]) (hok : Q (.ok ()) t [event o (.ok ())]) :
    Does event (disk may) I (attempt o tag) t Q :=
  does_looked_of (fun f => ⟨may.allow o f, ho _⟩) hI herr hok

theorem does_listing {Q : Except IoError (Option (List Name)) → FileTree fold → List (Event Name) → Prop} (hI : I t)
    (herr : ∀ e, e.isNotFound = false → Q (.error e) t [⟨.readDir, p, some e⟩])
    (hmiss : ∀ e, e.isNotFound = true → may.looks = true ∨ t.node? p = none → Q (.ok none) t [⟨.readDir, p, some e⟩])
    (hok : Q (.ok (some (t.names p))) t [⟨.readDir, p, none⟩]) : Does event (disk may) I (listing p) t Q := by
  have hfail (e : IoError) (he : e.isNotFound = true → may.looks = true ∨ t.node? p = none) :
      Does event (disk may) I (if e.isNotFound then pure none else throw e) t
        (fun r t' trace => Q r t' (⟨.readDir, p, some e⟩ :: trace)) := by
    split
    · rename_i hn
      exact Does.pure hI (hmiss e hn (he hn))
    · rename_i hn
      exact Does.throw hI (herr e (Bool.eq_false_iff.mpr hn))
  refine Does.always_bind hI fun f => ?_
  have hstep : (disk may).step (.readDir p) f t = looked (may.allow (.readDir p) f) t (t.readDir p) := rfl
  rw [hstep]
  cases hf : may.allow (.readDir p) f with
  | some x =>
      refine ⟨hI, hfail x.error fun hx => .inl ?_⟩
      cases hm : may.looks with
      | true => rfl
      | false =>
          simp only [Unnoticed.allow, hm, Bool.false_eq_true, if_false, Option.filter_eq_some_iff, hx] at hf
          simp at hf
  | none =>
      refine ⟨hI, ?_⟩
      cases hn : t.node? p with
      | none =>
          rw [FileTree.readDir, hn]
          exact hfail _ fun _ => .inr hn
      | some node =>
          cases node with
          | dir =>
              rw [FileTree.readDir, hn]
              exact Does.pure hI hok
          | file mode contents =>
              rw [FileTree.readDir, hn]
              refine hfail _ fun he => ?_
              simp [IoError.isNotFound, IoError.rawOsError, ENOTDIR, ENOENT] at he

theorem does_createDirAll (hI : ∀ t' : FileTree fold, (∀ r, t'.contents? r = t.contents? r) → I t')
    (herr : ∀ e t', (∀ r, t'.contents? r = t.contents? r) → Q (.error (tag e)) t' [⟨.createDirAll, p, some e⟩])
    (hok : ∀ t', (∀ r, t'.contents? r = t.contents? r) → Q (.ok ()) t' [⟨.createDirAll, p, none⟩]) :
    Does event (disk may) I (attempt (.createDirAll p) tag) t Q := by
  refine does_changed (fun _ => by rw [act]) (hI t fun _ => rfl) ?_ ?_
  · rintro e t' (rfl | ⟨n, rfl⟩)
    · exact ⟨hI _ fun _ => rfl, herr e _ fun _ => rfl⟩
    · have hsame (r : Path Name) : ((t.createDirAll (p.upTo (min n (p.depth - 1)))).toOption.getD t).contents? r =
          t.contents? r := by
        cases hd : t.createDirAll (p.upTo (min n (p.depth - 1))) with
        | ok t₁ => exact FileTree.contents?_createDirAll hd
        | error e => rfl
      exact ⟨hI _ hsame, herr e _ hsame⟩
  · intro t' ht
    exact ⟨hI _ fun _ => FileTree.contents?_createDirAll ht, hok t' fun _ => FileTree.contents?_createDirAll ht⟩

theorem does_openTruncated {mode : Nat} (hI : I t) (herr : ∀ e, Q (.error (tag e)) t [⟨.openTruncated, p, some e⟩])
    (hok : ∀ t', (∀ r, t'.contents? r = if r.map fold = p.map fold then some [] else t.contents? r) →
      I t' ∧ Q (.ok ()) t' [⟨.openTruncated, p, none⟩]) :
    Does event (disk may) I (attempt (.openTruncated p mode) tag) t Q := by
  refine does_changed (fun _ => by rw [act]) hI ?_ fun t' ht => hok t' fun _ => FileTree.contents?_openTruncated ht
  rintro e t' (rfl | ⟨_, rfl⟩) <;> exact ⟨hI, herr e⟩

theorem does_writeAll {data : List UInt8} (hI : I t)
    (herr : ∀ e t', (∀ r, r.map fold ≠ p.map fold → t'.contents? r = t.contents? r) →
      I t' ∧ Q (.error (tag e)) t' [⟨.writeAll, p, some e⟩])
    (hok : ∀ t' contents, t.contents? p = some contents → (∀ r, t'.contents? r =
      if r.map fold = p.map fold then some (contents ++ data) else t.contents? r) →
      I t' ∧ Q (.ok ()) t' [⟨.writeAll, p, none⟩]) :
    Does event (disk may) I (attempt (.writeAll p data) tag) t Q := by
  refine does_changed (fun _ => by rw [act]) hI ?_ ?_
  · rintro e t' (rfl | ⟨n, rfl⟩)
    · exact herr e _ fun _ _ => rfl
    · refine herr e _ fun r hr => ?_
      cases ha : t.append p (data.take n) with
      | ok t₁ =>
          obtain ⟨contents, _, hc⟩ := FileTree.contents?_append ha
          exact (hc r).trans (if_neg hr)
      | error e => rfl
  · intro t' ht
    obtain ⟨contents, hp, hc⟩ := FileTree.contents?_append ht
    exact hok t' contents hp hc

theorem does_rename (hpq : q.map fold ≠ p.map fold) (hI : I t) (herr : ∀ e, Q (.error (tag e)) t [⟨.rename, q, some e⟩])
    (hok : ∀ t' contents, t.rename p q = .ok t' → t.contents? p = some contents → (∀ r, t'.contents? r =
      if r.map fold = q.map fold then some contents else if r.map fold = p.map fold then none else t.contents? r) →
      I t' ∧ Q (.ok ()) t' [⟨.rename, q, none⟩]) :
    Does event (disk may) I (attempt (.rename p q) tag) t Q := by
  refine does_changed (fun _ => by rw [act]) hI ?_ ?_
  · rintro e t' (rfl | ⟨_, rfl⟩) <;> exact ⟨hI, herr e⟩
  · intro t' ht
    obtain ⟨contents, hp, hc⟩ := FileTree.contents?_rename ht hpq
    exact hok t' contents ht hp hc

theorem does_removeFile (hI : I t) (herr : ∀ e, Q (.error (tag e)) t [⟨.removeFile, p, some e⟩])
    (hok : ∀ t', t.contents? p ≠ none → (∀ r, t'.contents? r = if r.map fold = p.map fold then none else t.contents? r) →
      I t' ∧ Q (.ok ()) t' [⟨.removeFile, p, none⟩]) :
    Does event (disk may) I (attempt (.removeFile p) tag) t Q := by
  refine does_changed (fun _ => by rw [act]) hI ?_ ?_
  · rintro e t' (rfl | ⟨_, rfl⟩) <;> exact ⟨hI, herr e⟩
  · intro t' ht
    obtain ⟨hp, hc⟩ := FileTree.contents?_unlink ht
    exact hok t' hp hc

theorem does_discard (hI : I t) (hfail : may.cleanUps = true → Q (.ok ()) t [⟨.discard, p, none⟩])
    (hok : ∀ t', (∀ r, t'.contents? r = if r.map fold = p.map fold then none else t.contents? r) →
      I t' ∧ Q (.ok ()) t' [⟨.discard, p, none⟩]) : Does event (disk may) I (always (.discard p)) t Q := by
  refine Does.always hI fun f => ?_
  simp only [disk, Unnoticed.allow, act]
  have hdone : I ((t.unlink p).toOption.getD t) ∧ Q (.ok ()) ((t.unlink p).toOption.getD t) [⟨.discard, p, none⟩] := by
    cases hu : t.unlink p with
    | ok t' => exact hok t' (FileTree.contents?_unlink hu).2
    | error e =>
        refine hok t fun r => ?_
        split
        · rename_i hr
          rw [FileTree.contents?_congr hr, FileTree.contents?_of_unlink_error hu]
        · rfl
  cases f with
  | none => simpa [event] using hdone
  | some x =>
      cases hc : may.cleanUps with
      | true => exact ⟨hI, hfail hc⟩
      | false => simpa [event] using hdone

end

/-- `p` keeps the files as they are, makes only looks, and ends with a result
that satisfies `R`. One that ends well met no failure but of a missing file. -/
def Looks (may : Unnoticed) (p : Try (FileOp Name) ε α) (t : FileTree fold) (R : Except ε α → Prop) : Prop :=
  ∀ I : FileTree fold → Prop, I t → Does event (disk may) I p t
    (fun r t' trace => t' = t ∧ (∀ ev ∈ trace, ev.call.isLook = true) ∧
      (∀ a, r = .ok a → ∀ ev ∈ trace, ev.failure.all IoError.isNotFound = true) ∧ R r)

namespace Looks

variable {R : Except ε α → Prop}

theorem pure {a : α} (h : R (.ok a)) : Looks may (pure a : Try (FileOp Name) ε α) t R :=
  fun _ hI => Does.pure hI ⟨rfl, by simp, by simp, h⟩

theorem mono {p : Try (FileOp Name) ε α} {S : Except ε α → Prop} (h : Looks may p t S) (hR : ∀ r, S r → R r) :
    Looks may p t R :=
  fun I hI => (h I hI).mono fun r _ _ _ hr => ⟨hr.1, hr.2.1, hr.2.2.1, hR r hr.2.2.2⟩

theorem and {p : Try (FileOp Name) ε α} {S : Except ε α → Prop} (h : Looks may p t R) (h' : Looks may p t S) :
    Looks may p t (fun r => R r ∧ S r) := by
  intro I hI
  refine ((h I hI).and ((h' I hI).mono fun r t' _ _ hr => (hr.2.2.2 : S r))).mono ?_
  rintro r t' trace _ ⟨⟨ht, hl, hn, hr⟩, hs⟩
  exact ⟨ht, hl, hn, hr, hs⟩

theorem bind {x : Try (FileOp Name) ε β} {f : β → Try (FileOp Name) ε α} {S : Except ε β → Prop} (hx : Looks may x t S)
    (hstop : ∀ e, S (.error e) → R (.error e)) (hf : ∀ b, S (.ok b) → Looks may (f b) t R) : Looks may (x >>= f) t R := by
  refine fun I hI => Does.bind (hx I hI) ?_ ?_
  · rintro e _ trace _ ⟨rfl, hl, _, hr⟩
    exact ⟨rfl, hl, by simp, hstop e hr⟩
  · rintro b _ trace _ ⟨rfl, hl, hn, hr⟩
    exact (hf b hr I hI).mono fun r _ trace' _ h => ⟨h.1, List.forall_mem_append.mpr ⟨hl, h.2.1⟩,
      fun a ha => List.forall_mem_append.mpr ⟨hn b rfl, h.2.2.1 a ha⟩, h.2.2.2⟩

theorem mapErr {x : Try (FileOp Name) δ α} {tag : δ → ε} (h : Looks may x t (fun r => R (r.mapError tag))) :
    Looks may (mapErr tag x) t R := by
  refine fun I hI => Does.mapResult ((h I hI).mono fun r t' trace _ hr => ⟨hr.1, hr.2.1, fun a ha => ?_, hr.2.2.2⟩)
  cases r with
  | ok b => exact hr.2.2.1 b rfl
  | error e => cases ha

theorem isFile {p : Path Name} {R : Except ε Bool → Prop} (hmiss : may.looks = true → R (.ok false))
    (h : R (.ok (t.isFile p))) : Looks may (always (.isFile p)) t R := by
  refine fun I hI => Does.always hI fun f => ⟨hI, rfl, by simp [event, Call.isLook], by simp [event], ?_⟩
  simp only [disk, Unnoticed.allow, act]
  cases f with
  | none => simpa using h
  | some f => cases hl : may.looks <;> simp_all

theorem read {p : Path Name} {tag : IoError → ε} {R : Except ε (List UInt8) → Prop} (hfail : ∀ e, R (.error (tag e)))
    (h : ∀ contents, t.contents? p = some contents → R (.ok contents)) : Looks may (attempt (.read p) tag) t R := by
  refine fun I hI => Does.attempt hI fun f => ?_
  have hstep : (disk may).step (.read p) f t = looked (may.allow (.read p) f) t (t.read p) := rfl
  rw [hstep]
  cases may.allow (.read p) f with
  | some f => exact ⟨hI, rfl, by simp [event, Call.isLook], by simp [looked], hfail _⟩
  | none =>
      cases hr : t.read p with
      | ok contents =>
          exact ⟨hI, rfl, by simp [event, Call.isLook], by simp [looked, event],
            h contents (FileTree.read_eq_ok_iff.mp hr)⟩
      | error e => exact ⟨hI, rfl, by simp [event, Call.isLook], by simp [looked], hfail _⟩

theorem nextEntry {p : Path Name} {tag : IoError → ε} {R : Except ε Unit → Prop} (hfail : ∀ e, R (.error (tag e)))
    (h : R (.ok ())) : Looks may (attempt (.nextEntry p) tag) t R := by
  refine fun I hI => does_looked (fun _ => by rw [act]) hI (fun e => ?_) ?_
  · exact ⟨rfl, by simp [event, Call.isLook], by simp, hfail e⟩
  · exact ⟨rfl, by simp [event, Call.isLook], by simp [event], h⟩

theorem listing {p : Path Name} {R : Except IoError (Option (List Name)) → Prop} (hfail : ∀ e, R (.error e))
    (hmiss : may.looks = true ∨ t.node? p = none → R (.ok none)) (h : R (.ok (some (t.names p)))) :
    Looks may (listing p) t R := by
  refine fun I hI => does_listing hI (fun e _ => ?_) (fun e he hn => ?_) ?_
  · exact ⟨rfl, by simp [Call.isLook], by simp, hfail e⟩
  · exact ⟨rfl, by simp [Call.isLook], by simp [he], hmiss hn⟩
  · exact ⟨rfl, by simp [Call.isLook], by simp, h⟩

end Looks

end Rules

end Beskar7Inspector.Lib.FileCalls
