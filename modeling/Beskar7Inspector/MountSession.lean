import Beskar7Inspector.Lib.FileModes
import Beskar7Inspector.Pipeline

namespace Beskar7Inspector.MountSession

open Lib.Program Lib.Recorder Lib.Os Lib.Files Lib.FileCalls Lib.FileModes Deploy Pipeline

def MS_RDONLY : Nat := 1

structure PrivateMount where
  part : Part
  node : String
  mountpoint : String
  fstype : String
  data : Option String
  readOnly : Bool

inductive MountOp : Type → Type
  | removeNode (path : String) : MountOp (Except IoError Unit)
  | mknod (path : String) (mode : Nat) (dev : UInt64) : MountOp (Except Errno Unit)
  | createMountpoint (path : String) : MountOp (Except IoError Unit)
  | mount (source target fstype : String) (flags : Nat) (data : Option String) : MountOp (Except Errno Unit)
  | umount (target : String) (detach : Bool) : MountOp (Except Errno Unit)
  | removeDir (path : String) : MountOp (Except IoError Unit)

abbrev Calls (Name : Type) (β : Type) : Type := MountOp β ⊕ FileOp Name β

/-- The private node with its device number, the mountpoint, and the files: those
of the partition, and those that the mountpoint itself holds. -/
structure World {Name : Type} [DecidableEq Name] (fold : Name → Name) where
  node : Option UInt64
  mountpoint : Bool
  mounted : Bool
  hidden : FileTree fold
  files : FileTree fold

variable {Name : Type} [DecidableEq Name] {fold : Name → Name}

abbrev MountIo (Name : Type) := Try (Calls Name) DeployError

def errno (f : Fault) : Errno := f.error.rawOsError.getD EIO

def actMount : ∀ {β : Type}, MountOp β → Option Fault → World fold → β × World fold
  | _, .removeNode _, some f, w => (.error f.error, w)
  | _, .removeNode _, none, w => if w.node.isSome then (.ok (), { w with node := none }) else (.error (.os ENOENT), w)
  | _, .mknod .., some f, w => (.error (errno f), w)
  | _, .mknod _ _ dev, none, w => if w.node.isSome then (.error EEXIST, w) else (.ok (), { w with node := some dev })
  | _, .createMountpoint _, some f, w => (.error f.error, w)
  | _, .createMountpoint _, none, w => (.ok (), { w with mountpoint := true })
  | _, .mount .., some f, w => (.error (errno f), w)
  | _, .mount .., none, w =>
      if w.node.isSome ∧ w.mountpoint then (.ok (), { w with mounted := true }) else (.error ENOENT, w)
  | _, .umount .., some f, w => (.error (errno f), w)
  | _, .umount .., none, w => if w.mounted then (.ok (), { w with mounted := false }) else (.error EINVAL, w)
  | _, .removeDir _, some f, w => (.error f.error, w)
  | _, .removeDir _, none, w =>
      if w.mounted then (.error (.os EBUSY), w)
      else if !w.mountpoint then (.error (.os ENOENT), w)
      else if !(w.hidden.names .root).isEmpty then (.error (.os ENOTEMPTY), w)
      else (.ok (), { w with mountpoint := false })

/-- A file call works on the partition while it is mounted, else on the mountpoint. -/
def actFile (umask : Nat) (may : Unnoticed) {β : Type} (o : FileOp Name β) (f : Option Fault) (w : World fold) :
    β × World fold :=
  let out := (diskUnder umask may).step o f (if w.mounted then w.files else w.hidden)
  (out.1, if w.mounted then { w with files := out.2 } else { w with hidden := out.2 })

/-- Any call may fail with any error; the unnoticed failures of file calls as far as `may` admits them. -/
def host (umask : Nat) (may : Unnoticed) : Machine (Calls Name) (Option Fault) (World fold) where
  step o f w := match o with
    | .inl o => actMount o f w
    | .inr o => actFile umask may o f w

section

variable (spec : PrivateMount) (dev : String)

def mountFlags : Nat := MS_NODEV + MS_NOSUID + MS_NOEXEC + (if spec.readOnly then MS_RDONLY else 0)

/-- Unmount; lazily when the partition is busy, with the error of the first try. -/
def unmount : MountIo Name (Except DeployError Unit) := do
  let eager ← always (.inl (.umount spec.mountpoint false))
  match eager with
  | .ok () => pure (.ok ())
  | .error e => do
      let _ ← always (.inl (.umount spec.mountpoint true))
      pure (.error (.unmount spec.part spec.mountpoint e))

def mountWriteUnmount (write : Try (FileOp Name) DeployError Unit) : MountIo Name Unit := do
  attempt (.inl (.createMountpoint spec.mountpoint)) (.mountpoint spec.part spec.mountpoint)
  let mounted ← always (.inl (.mount spec.node spec.mountpoint spec.fstype (mountFlags spec) spec.data))
  match mounted with
  | .error e => do
      let _ ← always (.inl (.removeDir spec.mountpoint))
      throw (.mount spec.part dev e)
  | .ok () => do
      let written ← outcome (embed .inr write)
      let unmounted ← unmount spec
      let _ ← always (.inl (.removeDir spec.mountpoint))
      ofExcept written
      ofExcept unmounted

/-- Run `write` on the partition that was enumerated as `devNumber`. -/
def withPrivateMount (devNumber : String) (write : Try (FileOp Name) DeployError Unit) : MountIo Name Unit :=
  match parseDevNumber devNumber with
  | none => throw (.badDeviceNumber dev)
  | some devnum => do
      let _ ← always (.inl (.removeNode spec.node))
      attempt (.inl (.mknod spec.node 0o600 devnum)) (.makeNode spec.part dev)
      let result ← outcome (mountWriteUnmount spec dev write)
      let _ ← always (.inl (.removeNode spec.node))
      ofExcept result

end

/-- A call that was made, with its answer. -/
inductive MountEvent (Name : Type)
  | removeNode (r : Except IoError Unit)
  | mknod (dev : UInt64) (r : Except Errno Unit)
  | createMountpoint (r : Except IoError Unit)
  | mount (r : Except Errno Unit)
  | umount (detach : Bool) (r : Except Errno Unit)
  | removeDir (r : Except IoError Unit)
  | file (ev : Lib.FileCalls.Event Name)
  deriving DecidableEq

def mountEvent : ∀ {β : Type}, Calls Name β → β → MountEvent Name
  | _, .inl (.removeNode _), r => .removeNode r
  | _, .inl (.mknod _ _ dev), r => .mknod dev r
  | _, .inl (.createMountpoint _), r => .createMountpoint r
  | _, .inl (.mount ..), r => .mount r
  | _, .inl (.umount _ detach), r => .umount detach r
  | _, .inl (.removeDir _), r => .removeDir r
  | _, .inr o, r => .file (Lib.FileCalls.event o r)

/-- The same files, mounted or not as before. -/
def Kept (w w' : World fold) : Prop := w'.files = w.files ∧ w'.mounted = w.mounted

/-- What a call around the mount can have done, by its answer. -/
def Did (w w' : World fold) : ∀ {β : Type}, MountOp β → β → Prop
  | _, .removeNode _, r => Kept w w' ∧ (w'.node = w.node ∨ w'.node = none) ∧ (r = .ok () → w'.node = none)
  | _, .mknod .., r => Kept w w' ∧ (r ≠ .ok () → w'.node = w.node)
  | _, .createMountpoint _, _ => Kept w w' ∧ w'.node = w.node
  | _, .mount .., r => w'.files = w.files ∧ w'.node = w.node ∧ w'.mounted = (w.mounted || r.isOk)
  | _, .umount .., r => w'.files = w.files ∧ w'.node = w.node ∧ w'.mounted = (w.mounted && !r.isOk)
  | _, .removeDir _, _ => Kept w w' ∧ w'.node = w.node

theorem did_actMount {β : Type} (o : MountOp β) (f : Option Fault) (w : World fold) :
    Did w (actMount o f w).2 o (actMount o f w).1 := by
  cases o with
  | removeNode path =>
      cases f with
      | some f => exact ⟨⟨rfl, rfl⟩, .inl rfl, by simp [actMount]⟩
      | none => by_cases hn : w.node.isSome <;> simp [actMount, Did, Kept, hn]
  | mknod path mode dev =>
      cases f with
      | some f => exact ⟨⟨rfl, rfl⟩, fun _ => rfl⟩
      | none => by_cases hn : w.node.isSome <;> simp [actMount, Did, Kept, hn]
  | createMountpoint path => cases f <;> exact ⟨⟨rfl, rfl⟩, rfl⟩
  | mount source target fstype flags data =>
      cases f with
      | some f => simp [actMount, Did, Except.isOk, Except.toBool]
      | none => by_cases hn : w.node.isSome ∧ w.mountpoint <;> simp [actMount, Did, hn, Except.isOk, Except.toBool]
  | umount target detach =>
      cases f with
      | some f => simp [actMount, Did, Except.isOk, Except.toBool]
      | none => by_cases hm : w.mounted <;> simp [actMount, Did, hm, Except.isOk, Except.toBool]
  | removeDir path =>
      cases f with
      | some f => exact ⟨⟨rfl, rfl⟩, rfl⟩
      | none =>
          simp only [actMount]
          split_ifs <;> exact ⟨⟨rfl, rfl⟩, rfl⟩

theorem Did.files {β : Type} {o : MountOp β} {r : β} {w w' : World fold} (h : Did w w' o r) : w'.files = w.files := by
  cases o with
  | removeNode | mknod | createMountpoint | removeDir => exact h.1.1
  | mount | umount => exact h.1

section Rules

variable {α β δ : Type} {umask : Nat} {may : Unnoticed} {I : FileTree fold → Prop} {w : World fold}
  {Q : Except DeployError α → World fold → List (MountEvent Name) → Prop}

theorem does_call_bind {o : MountOp β} {k : β → MountIo Name α} (hI : I w.files)
    (h : ∀ r w', Did w w' o r → Does mountEvent (host umask may) (fun w => I w.files) (k r) w'
      (fun r' w'' trace => Q r' w'' (mountEvent (.inl o) r :: trace))) :
    Does mountEvent (host umask may) (fun w => I w.files) (always (.inl o) >>= k) w Q := by
  refine Does.always_bind hI fun f => ?_
  have hdid := did_actMount o f w
  exact ⟨hdid.files ▸ hI, h _ _ hdid⟩

theorem does_attempt_bind {o : MountOp (Except δ β)} {tag : δ → DeployError} {k : β → MountIo Name α} (hI : I w.files)
    (herr : ∀ e w', Did w w' o (.error e) → Q (.error (tag e)) w' [mountEvent (.inl o) (.error e)])
    (hok : ∀ b w', Did w w' o (.ok b) → Does mountEvent (host umask may) (fun w => I w.files) (k b) w'
      (fun r w'' trace => Q r w'' (mountEvent (.inl o) (.ok b) :: trace))) :
    Does mountEvent (host umask may) (fun w => I w.files) (attempt (.inl o) tag >>= k) w Q := by
  refine Does.attempt_bind hI (fun f => ?_) (fun f e he => ?_) fun f b hb => ?_
  · exact (did_actMount o f w).files ▸ hI
  · have hdid := did_actMount o f w
    have hr : (actMount o f w).1 = .error e := he
    rw [hr] at hdid
    exact herr e _ hdid
  · have hdid := did_actMount o f w
    have hr : (actMount o f w).1 = .ok b := hb
    rw [hr] at hdid
    exact hok b _ hdid

end Rules

section

variable (spec : PrivateMount) (dev : String)
  (Wrote : Except DeployError Unit → FileTree fold → List (Lib.FileCalls.Event Name) → Prop)

/-- The calls of an unmount that fails, and the lazy one after it. -/
def busy (e : Errno) (lazy : Except Errno Unit) : List (MountEvent Name) := [.umount false (.error e), .umount true lazy]

/-- How a mount, what is written and the unmount can go. -/
inductive Mounting (w : World fold) : Except DeployError Unit → World fold → List (MountEvent Name) → Prop
  | noMountpoint {w' : World fold} (e : IoError) (h : Kept w w') :
      Mounting w (.error (.mountpoint spec.part spec.mountpoint e)) w' [.createMountpoint (.error e)]
  | noMount {w' : World fold} (e : Errno) (r : Except IoError Unit) (h : Kept w w') :
      Mounting w (.error (.mount spec.part dev e)) w' [.createMountpoint (.ok ()), .mount (.error e), .removeDir r]
  | unmounted {w' : World fold} {written : Except DeployError Unit} {writes : List (Lib.FileCalls.Event Name)}
      (r : Except IoError Unit) (h : Wrote written w'.files writes) (hm : w'.mounted = false) :
      Mounting w written w' (.createMountpoint (.ok ()) :: .mount (.ok ()) :: writes.map .file ++
        [.umount false (.ok ()), .removeDir r])
  | busy {w' : World fold} {written : Except DeployError Unit} {writes : List (Lib.FileCalls.Event Name)}
      (e : Errno) (lazy : Except Errno Unit) (r : Except IoError Unit) (h : Wrote written w'.files writes)
      (hm : lazy = .ok () → w'.mounted = false) :
      Mounting w (written.bind fun _ => .error (.unmount spec.part spec.mountpoint e)) w'
        (.createMountpoint (.ok ()) :: .mount (.ok ()) :: writes.map .file ++ (busy e lazy ++ [.removeDir r]))

/-- How a whole session can go, the private node included. -/
inductive Session (devNumber : String) (w : World fold) : Except DeployError Unit → World fold → List (MountEvent Name) → Prop
  | badNumber (h : parseDevNumber devNumber = none) : Session devNumber w (.error (.badDeviceNumber dev)) w []
  | noNode {w' : World fold} {devnum : UInt64} (hnum : parseDevNumber devNumber = some devnum)
      (r : Except IoError Unit) (e : Errno) (h : Kept w w') (hn : w'.node = w.node ∨ w'.node = none) :
      Session devNumber w (.error (.makeNode spec.part dev e)) w' [.removeNode r, .mknod devnum (.error e)]
  | mounting {w₁ w₂ w' : World fold} {devnum : UInt64} {result : Except DeployError Unit} {trace : List (MountEvent Name)}
      (hnum : parseDevNumber devNumber = some devnum) (r r' : Except IoError Unit) (hw : Kept w w₁)
      (h : Mounting spec dev Wrote w₁ result w₂ trace) (hk : Kept w₂ w') (hn : r' = .ok () → w'.node = none) :
      Session devNumber w result w' (.removeNode r :: .mknod devnum (.ok ()) :: trace ++ [.removeNode r'])

/-- The write closure runs once, right after the mount and before any unmount,
and its error comes before that of the unmount. -/
inductive Written (r : Except DeployError Unit) (files : FileTree fold) : List (MountEvent Name) → Prop
  | intro {before after : List (MountEvent Name)} {writes : List (Lib.FileCalls.Event Name)}
      {written : Except DeployError Unit} (quiet : ∀ ev, .file ev ∉ before ++ after)
      (mounted : before.getLast? = some (.mount (.ok ()))) (attached : ∀ detach r, .umount detach r ∉ before)
      (wrote : Wrote written files writes)
      (result : (∀ e, .umount false (.error e) ∉ after) ∧ r = written ∨
        ∃ e, .umount false (.error e) ∈ after ∧ r = written.bind fun _ => .error (.unmount spec.part spec.mountpoint e)) :
      Written r files (before ++ writes.map .file ++ after)

def Unwritten (w : World fold) (r : Except DeployError Unit) (w' : World fold) (trace : List (MountEvent Name)) : Prop :=
  r ≠ .ok () ∧ w'.files = w.files ∧ (∀ ev, .file ev ∉ trace) ∧ ∀ detach r, .umount detach r ∉ trace

variable {spec dev Wrote} {umask : Nat} {may : Unnoticed} {I : FileTree fold → Prop} {w : World fold}
  {write : Try (FileOp Name) DeployError Unit}

theorem does_written (hm : w.mounted = true)
    (hwrite : Does Lib.FileCalls.event (diskUnder umask may) I write w.files Wrote) :
    Does mountEvent (host umask may) (fun w => I w.files) (embed .inr write) w (fun r w' trace =>
      w'.mounted = true ∧ ∃ writes, trace = writes.map .file ∧ Wrote r w'.files writes) := by
  have hstep {β : Type} (o : FileOp Name β) (f : Option Fault) (t : FileTree fold) :
      (host umask may).step (.inr o) f { w with files := t } =
        (((diskUnder umask may).step o f t).1, { w with files := ((diskUnder umask may).step o f t).2 }) := by
    simp only [host, actFile, hm, if_true]
  refine Does.mono (hwrite.embed id (fun t => { w with files := t }) MountEvent.file hstep (fun _ _ => rfl) ?_) ?_
  · exact fun _ h => h
  · rintro r _ _ _ ⟨t, writes, rfl, rfl, h⟩
    exact ⟨hm, writes, rfl, h⟩

theorem does_unmount (hI : I w.files) :
    Does mountEvent (host umask may) (fun w => I w.files) (unmount spec) w (fun r w' trace => w'.files = w.files ∧
      ((r = .ok (.ok ()) ∧ trace = [.umount false (.ok ())] ∧ w'.mounted = false) ∨
        ∃ e lazy, r = .ok (.error (.unmount spec.part spec.mountpoint e)) ∧ trace = busy e lazy ∧
          (lazy = .ok () → w'.mounted = false))) := by
  refine does_call_bind hI fun eager w₁ hdid => ?_
  have hI₁ : I w₁.files := hdid.files ▸ hI
  cases eager with
  | ok _ => exact Does.pure hI₁ ⟨hdid.files, .inl ⟨rfl, rfl, by simp [hdid.2.2, Except.isOk, Except.toBool]⟩⟩
  | error e =>
      refine does_call_bind hI₁ fun lazy w₂ hlazy => Does.pure (hlazy.files ▸ hI₁) ?_
      refine ⟨hlazy.files.trans hdid.files, .inr ⟨e, lazy, rfl, rfl, ?_⟩⟩
      rintro rfl
      simp [hlazy.2.2, Except.isOk, Except.toBool]

theorem does_mountWriteUnmount (hI : I w.files)
    (hwrite : Does Lib.FileCalls.event (diskUnder umask may) I write w.files Wrote) :
    Does mountEvent (host umask may) (fun w => I w.files) (mountWriteUnmount spec dev write) w (Mounting spec dev Wrote w) := by
  refine does_attempt_bind hI (fun e w' hdid => .noMountpoint e hdid.1) fun _ w₁ hpoint => ?_
  have hI₁ : I w₁.files := hpoint.files ▸ hI
  refine does_call_bind hI₁ fun mounted w₂ hmount => ?_
  have hI₂ : I w₂.files := hmount.files ▸ hI₁
  cases mounted with
  | error e =>
      refine does_call_bind hI₂ fun r w₃ hdir => Does.throw (hdir.files ▸ hI₂) ?_
      have hsame : w₂.mounted = w₁.mounted := by simpa [Except.isOk, Except.toBool] using hmount.2.2
      exact .noMount e r ⟨(hdir.files.trans hmount.files).trans hpoint.files,
        (hdir.1.2.trans hsame).trans hpoint.1.2⟩
  | ok _ =>
      have hm : w₂.mounted = true := by simp [hmount.2.2, Except.isOk, Except.toBool]
      have hfiles : w₂.files = w.files := hmount.files.trans hpoint.files
      refine Does.outcome_bind (does_written hm (hfiles ▸ hwrite)) ?_
      rintro written w₃ _ hI₃ ⟨hm₃, writes, rfl, hwrote⟩
      refine Does.bind (does_unmount hI₃) (fun e w' trace _ h => ?_) fun unmounted w₄ trace hI₄ h => ?_
      · rcases h with ⟨_, ⟨h, _⟩ | ⟨_, _, h, _⟩⟩ <;> cases h
      refine does_call_bind hI₄ fun r w₅ hdir => ?_
      have hI₅ : I w₅.files := hdir.files ▸ hI₄
      have hwrote₅ : Wrote written w₅.files writes := by
        rw [hdir.files, h.1]
        exact hwrote
      rcases h with ⟨_, ⟨hr, rfl, hm₄⟩ | ⟨e, lazy, hr, rfl, hm₄⟩⟩
      · obtain rfl := Except.ok.inj hr
        have hend : Mounting spec dev Wrote w written w₅ (.createMountpoint (.ok ()) :: .mount (.ok ()) ::
            writes.map .file ++ [.umount false (.ok ()), .removeDir r]) := .unmounted r hwrote₅ (hdir.1.2.trans hm₄)
        cases written with
        | error e => exact Does.throw hI₅ (by simpa [mountEvent] using hend)
        | ok _ => exact Does.pure hI₅ (by simpa [mountEvent] using hend)
      · obtain rfl := Except.ok.inj hr
        have hend : Mounting spec dev Wrote w (written.bind fun _ => .error (.unmount spec.part spec.mountpoint e)) w₅
            (.createMountpoint (.ok ()) :: .mount (.ok ()) :: writes.map .file ++ (busy e lazy ++ [.removeDir r])) :=
          .busy e lazy r hwrote₅ fun hl => hdir.1.2.trans (hm₄ hl)
        cases written with
        | error e' => exact Does.throw hI₅ (by simpa [mountEvent, Except.bind] using hend)
        | ok _ => exact Does.throw hI₅ (by simpa [mountEvent, Except.bind] using hend)

theorem does_withPrivateMount {devNumber : String} (hI : I w.files)
    (hwrite : Does Lib.FileCalls.event (diskUnder umask may) I write w.files Wrote) :
    Does mountEvent (host umask may) (fun w => I w.files) (withPrivateMount spec dev devNumber write) w
      (Session spec dev Wrote devNumber w) := by
  rw [withPrivateMount]
  cases hnum : parseDevNumber devNumber with
  | none => exact Does.throw hI (.badNumber hnum)
  | some devnum =>
      refine does_call_bind hI fun r w₁ hremove => ?_
      have hI₁ : I w₁.files := hremove.files ▸ hI
      refine does_attempt_bind hI₁ (fun e w₂ hmknod => ?_) fun _ w₂ hmknod => ?_
      · refine .noNode hnum r e ⟨hmknod.files.trans hremove.files, hmknod.1.2.trans hremove.1.2⟩ ?_
        rw [hmknod.2 (by simp)]
        exact hremove.2.1
      · have hkept : Kept w w₂ := ⟨hmknod.files.trans hremove.files, hmknod.1.2.trans hremove.1.2⟩
        refine Does.outcome_bind (does_mountWriteUnmount (hmknod.files ▸ hI₁) (hkept.1 ▸ hwrite)) ?_
        intro result w₃ trace hI₃ hmounting
        refine does_call_bind hI₃ fun r' w₄ hlast => ?_
        have hI₄ : I w₄.files := hlast.files ▸ hI₃
        have hend := Session.mounting hnum r r' hkept hmounting hlast.1 hlast.2.2
        cases result with
        | error e => exact Does.throw hI₄ (by simpa [mountEvent] using hend)
        | ok _ => exact Does.pure hI₄ (by simpa [mountEvent] using hend)

variable {devNumber : String} {r : Except DeployError Unit} {w' : World fold} {trace : List (MountEvent Name)}

theorem Session.written_or (h : Session spec dev Wrote devNumber w r w' trace) :
    Unwritten w r w' trace ∨ Written spec Wrote r w'.files trace := by
  cases h with
  | badNumber => exact .inl ⟨by simp, rfl, by simp, by simp⟩
  | noNode hnum r e h => exact .inl ⟨by simp, h.1, by simp, by simp⟩
  | @mounting w₁ w₂ _ devnum _ _ hnum r₀ r₁ hw h hk hn =>
      have hfiles := hk.1
      cases h with
      | noMountpoint e h => exact .inl ⟨by simp, (hfiles.trans h.1).trans hw.1, by simp, by simp⟩
      | noMount e r h => exact .inl ⟨by simp, (hfiles.trans h.1).trans hw.1, by simp, by simp⟩
      | @unmounted _ _ writes r₂ hwrote hm =>
          have h : Written spec Wrote r w'.files ([.removeNode r₀, .mknod devnum (.ok ()), .createMountpoint (.ok ()),
              .mount (.ok ())] ++ writes.map .file ++ [.umount false (.ok ()), .removeDir r₂, .removeNode r₁]) :=
            .intro (by simp) (by simp) (by simp) (hfiles ▸ hwrote) (.inl ⟨by simp, rfl⟩)
          exact .inr (by simpa using h)
      | @busy _ _ writes e lazy r₂ hwrote hm =>
          have h : Written spec Wrote _ w'.files ([.removeNode r₀, .mknod devnum (.ok ()), .createMountpoint (.ok ()),
              .mount (.ok ())] ++ writes.map .file ++ (busy e lazy ++ [.removeDir r₂, .removeNode r₁])) :=
            .intro (by simp [busy]) (by simp) (by simp) (hfiles ▸ hwrote) (.inr ⟨e, by simp [busy], rfl⟩)
          exact .inr (by simpa using h)

/-- After a session nothing is mounted, unless both unmounts failed. -/
theorem Session.detached (h : Session spec dev Wrote devNumber w r w' trace) (hm : w.mounted = false) :
    w'.mounted = false ∨ ∃ e e', .umount false (.error e) ∈ trace ∧ .umount true (.error e') ∈ trace := by
  cases h with
  | badNumber => exact .inl hm
  | noNode hnum r e h => exact .inl (h.2.trans hm)
  | mounting hnum r₀ r₁ hw h hk hn =>
      cases h with
      | noMountpoint e h => exact .inl (((hk.2.trans h.2).trans hw.2).trans hm)
      | noMount e r h => exact .inl (((hk.2.trans h.2).trans hw.2).trans hm)
      | unmounted r hwrote hm => exact .inl (hk.2.trans hm)
      | busy e lazy r hwrote hm =>
          cases lazy with
          | ok _ => exact .inl (hk.2.trans (hm rfl))
          | error e' => exact .inr ⟨e, e', by simp [busy], by simp [busy]⟩

/-- The node a session made is removed by its last call, if that succeeds. -/
def NodeRemoved (w w' : World fold) (trace : List (MountEvent Name)) : Prop :=
  (∃ dev r, .mknod dev (.ok ()) ∈ trace ∧ trace.getLast? = some (.removeNode r) ∧ (r = .ok () → w'.node = none)) ∨
    (∀ dev, .mknod dev (.ok ()) ∉ trace) ∧ (w'.node = w.node ∨ w'.node = none)

theorem Session.nodeRemoved (h : Session spec dev Wrote devNumber w r w' trace) : NodeRemoved w w' trace := by
  cases h with
  | badNumber => exact .inr ⟨by simp, .inl rfl⟩
  | noNode hnum r e h hn => exact .inr ⟨by simp, hn⟩
  | @mounting _ _ _ devnum _ _ hnum r₀ r₁ hw h hk hn => exact .inl ⟨devnum, r₁, by simp, List.getLast?_concat, hn⟩

end

end Beskar7Inspector.MountSession
