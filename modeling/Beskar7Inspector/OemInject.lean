import Beskar7Inspector.MountSession

namespace Beskar7Inspector.OemInject

open Lib.Program Lib.Recorder Lib.Os Lib.Text Lib.Files Lib.FileCalls Lib.FileModes Deploy Oem MountSession

def OEM_MOUNT : PrivateMount := ⟨.oem, "/run/beskar7-oem.dev", "/run/beskar7-oem", "ext4", none, false⟩

abbrev OemTree := FileTree (id : String → String)

abbrev OemEvent := Lib.FileCalls.Event String

def configPath : Path String := .join .root "99_beskar7.yaml"

def providerIdDir : Path String := .join .root "beskar7"

def providerIdPath : Path String := providerIdDir.join "provider-id"

def secretMode : Nat := 0o600

abbrev OemIo := Try (FileOp String) DeployError

def syncEach (tag : IoError → DeployError) : List (Path String) → OemIo Unit
  | [] => pure ()
  | dir :: dirs => do
      attempt (.syncDir dir) tag
      syncEach tag dirs

/-- Write a file of that mode, and flush it and the directories above it. -/
def writeAndSync (tag : IoError → DeployError) (path : Path String) (contents : List UInt8) (dirs : List (Path String)) :
    OemIo Unit := do
  attempt (.openTruncated path secretMode) tag
  attempt (.setPermissions path secretMode) tag
  attempt (.writeAll path contents) tag
  attempt (.syncFile path) tag
  syncEach tag dirs

def writeAndSyncConfig (contents : List UInt8) : OemIo Unit := writeAndSync .configWrite configPath contents [.root]

def writeAndSyncProviderId (providerId : String) : OemIo Unit := do
  attempt (.createDirAll providerIdDir) .providerIdWrite
  writeAndSync .providerIdWrite providerIdPath (utf8 providerId) [providerIdDir, .root]

/-- Both files, or neither. -/
def writeBoth (userData : List UInt8) (providerId : String) : OemIo Unit := do
  let inject ← outcome (do
    writeAndSyncConfig userData
    writeAndSyncProviderId providerId)
  match inject with
  | .ok () => pure ()
  | .error e => do
      always (.discard configPath)
      always (.discard providerIdPath)
      throw e

def injectOemConfig (oem : OemPartition) (userData : List UInt8) (providerId : String) : MountIo String Unit :=
  withPrivateMount OEM_MOUNT oem.devPath oem.devNumber (writeBoth userData providerId)

/-- The config is as it was at the start, or empty, or for root alone. -/
def Guarded (t₀ t : OemTree) : Prop := ∀ mode contents, t.node? configPath = some (.file mode contents) →
  mode = secretMode ∨ contents = [] ∨ t₀.node? configPath = some (.file mode contents)

def Tagged (source : IoError) (e : DeployError) : Prop := e = .configWrite source ∨ e = .providerIdWrite source

/-- These calls one after the other, up to the first that fails. -/
def Stopped (calls : List OemEvent) (r : Except DeployError Unit) (trace : List OemEvent) : Prop :=
  match r with
  | .ok () => trace = calls
  | .error e => ∃ done ev rest source, calls = done ++ ev :: rest ∧
      trace = done ++ [{ ev with failure := some source }] ∧ Tagged source e

/-- Such calls, with `P` of the files when none fails. -/
def Progress (calls : List OemEvent) (P : OemTree → Prop) (r : Except DeployError Unit) (t : OemTree)
    (trace : List OemEvent) : Prop := Stopped calls r trace ∧ (r = .ok () → P t)

section

variable {umask : Nat} {may : Unnoticed} {I P R S : OemTree → Prop} {t t₀ t' : OemTree} {calls calls' : List OemEvent}
  {path : Path String} {contents : List UInt8} {tag : IoError → DeployError}

theorem Progress.fail (call : Call) (e : IoError) (htag : Tagged e (tag e)) :
    Progress [⟨call, path, none⟩] P (.error (tag e)) t [⟨call, path, some e⟩] :=
  ⟨⟨[], ⟨call, path, none⟩, [], e, rfl, rfl, htag⟩, by simp⟩

theorem Progress.done (call : Call) (h : P t) : Progress [⟨call, path, none⟩] P (.ok ()) t [⟨call, path, none⟩] :=
  ⟨rfl, fun _ => h⟩

theorem does_andThen {x : OemIo Unit} {f : Unit → OemIo Unit}
    (hx : Does event (diskUnder umask may) I x t (Progress calls P))
    (hf : ∀ t₁, I t₁ → P t₁ → Does event (diskUnder umask may) I (f ()) t₁ (Progress calls' R)) :
    Does event (diskUnder umask may) I (x >>= f) t (Progress (calls ++ calls') R) := by
  refine Does.bind hx ?_ ?_
  · rintro e _ trace _ ⟨⟨done, ev, rest, source, rfl, rfl, htag⟩, _⟩
    exact ⟨⟨done, ev, rest ++ calls', source, by simp, rfl, htag⟩, by simp⟩
  · rintro _ t₁ trace hI ⟨htrace, hP⟩
    obtain rfl : trace = calls := htrace
    refine (hf t₁ hI (hP rfl)).mono ?_
    rintro r t' trace' _ ⟨hstop, hR⟩
    refine ⟨?_, hR⟩
    cases r with
    | ok _ => exact congrArg (trace ++ ·) hstop
    | error e =>
        obtain ⟨done, ev, rest, source, rfl, rfl, htag⟩ := hstop
        exact ⟨trace ++ done, ev, rest, source, by simp, by simp, htag⟩

theorem does_step {x : OemIo Unit} {f : Unit → OemIo Unit} {ev : OemEvent}
    (hx : Does event (diskUnder umask may) I x t (Progress [ev] P))
    (hf : ∀ t₁, I t₁ → P t₁ → Does event (diskUnder umask may) I (f ()) t₁ (Progress calls' R)) :
    Does event (diskUnder umask may) I (x >>= f) t (Progress (ev :: calls') R) :=
  does_andThen hx hf

def syncCalls (dirs : List (Path String)) : List OemEvent := dirs.map fun dir => ⟨.syncDir, dir, none⟩

theorem does_syncEach (htag : ∀ source, Tagged source (tag source)) (dirs : List (Path String)) (hI : I t) :
    Does event (diskUnder umask may) I (syncEach tag dirs) t (fun r t' trace => Progress (syncCalls dirs) (· = t) r t' trace) := by
  induction dirs with
  | nil => exact Does.pure hI ⟨rfl, fun _ => rfl⟩
  | cons dir dirs ih =>
      refine does_step (P := (· = t))
        (does_syncDir_under hI (fun e => Progress.fail _ e (htag e)) (Progress.done _ rfl)) ?_
      rintro _ _ rfl
      exact ih

def writeCalls (path : Path String) (dirs : List (Path String)) : List OemEvent :=
  ⟨.openTruncated, path, none⟩ :: ⟨.setPermissions, path, none⟩ :: ⟨.writeAll, path, none⟩ :: ⟨.syncFile, path, none⟩ ::
    syncCalls dirs

theorem does_writeAndSync (htag : ∀ source, Tagged source (tag source)) (hS : S t) (hI : I t)
    (htouched : ∀ t t', Touched path t t' → S t → S t')
    (hempty : ∀ t m, S t → t.node? path = some (.file m []) → I t)
    (hsecret : ∀ t written, S t → t.node? path = some (.file secretMode written) → I t) (dirs : List (Path String)) :
    Does event (diskUnder umask may) I (writeAndSync tag path contents dirs) t
      (Progress (writeCalls path dirs) (fun t' => S t' ∧ t'.node? path = some (.file secretMode contents))) := by
  have hfail {P : OemTree → Prop} {t : OemTree} (call : Call) (e : IoError) :
      Progress [⟨call, path, none⟩] P (.error (tag e)) t [⟨call, path, some e⟩] := .fail call e (htag e)
  refine does_step (P := fun t' => S t' ∧ ∃ m, t'.node? path = some (.file m []))
    (does_openTruncated_under hI (hfail _) fun t' m ht hm => ?_) fun t₁ hI₁ ⟨hS₁, m, hm⟩ => ?_
  · have hS' := htouched _ _ ht hS
    exact ⟨hempty t' m hS' hm, .done _ ⟨hS', m, hm⟩⟩
  refine does_step (P := fun t' => S t' ∧ t'.node? path = some (.file secretMode []))
    (does_setPermissions_under hm hI₁ (hfail _) fun t' ht hm => ?_) fun t₂ hI₂ ⟨hS₂, hm₂⟩ => ?_
  · have hS' := htouched _ _ ht hS₁
    exact ⟨hempty t' _ hS' hm, .done _ ⟨hS', hm⟩⟩
  refine does_step (P := fun t' => S t' ∧ t'.node? path = some (.file secretMode contents))
    (does_writeAll_under hm₂ hI₂ (fun e t' written ht hm => ?_) fun t' ht hm => ?_) fun t₃ hI₃ ⟨hS₃, hm₃⟩ => ?_
  · exact ⟨hsecret t' written (htouched _ _ ht hS₂) hm, hfail _ e⟩
  · have hS' := htouched _ _ ht hS₂
    exact ⟨hsecret t' _ hS' hm, .done _ ⟨hS', hm⟩⟩
  refine does_step (P := (· = t₃)) (does_syncFile_under hI₃ (hfail _) (.done _ rfl)) ?_
  rintro _ hI₄ rfl
  refine (does_syncEach htag dirs hI₄).mono ?_
  rintro r t' trace _ ⟨hstop, hsame⟩
  exact ⟨hstop, fun hr => hsame hr ▸ ⟨hS₃, hm₃⟩⟩

def configCalls : List OemEvent := writeCalls configPath [.root]

def providerIdCalls : List OemEvent := ⟨.createDirAll, providerIdDir, none⟩ :: writeCalls providerIdPath [providerIdDir, .root]

def HasConfig (userData : List UInt8) (t : OemTree) : Prop := t.node? configPath = some (.file secretMode userData)

def HasProviderId (providerId : String) (t : OemTree) : Prop :=
  t.node? providerIdPath = some (.file secretMode (utf8 providerId))

theorem Guarded.of_secret {written : List UInt8} (h : t.node? configPath = some (.file secretMode written)) :
    Guarded t₀ t := by
  intro mode contents hc
  rw [h] at hc
  cases hc
  exact .inl rfl

theorem Guarded.of_empty {m : Nat} (h : t.node? configPath = some (.file m [])) : Guarded t₀ t := by
  intro mode contents hc
  rw [h] at hc
  cases hc
  exact .inr (.inl rfl)

theorem Guarded.of_none (h : t.contents? configPath = none) : Guarded t₀ t := by
  intro mode contents hc
  rw [FileTree.contents?_of_file hc] at h
  cases h

theorem Guarded.touched (h : Guarded t₀ t) (ht : Touched providerIdPath t t') : Guarded t₀ t' := by
  intro mode contents hc
  rw [ht configPath (by decide)] at hc
  exact h mode contents hc

theorem does_writeAndSyncConfig {userData : List UInt8} (hI : Guarded t₀ t) :
    Does event (diskUnder umask may) (Guarded t₀) (writeAndSyncConfig userData) t
      (Progress configCalls (HasConfig userData)) := by
  refine (does_writeAndSync (S := fun _ => True) (fun _ => .inl rfl) trivial hI (fun _ _ _ _ => trivial)
    (fun t m _ hm => .of_empty hm) (fun t written _ hm => .of_secret hm) _).mono ?_
  rintro r t' trace _ ⟨hstop, h⟩
  exact ⟨hstop, fun hr => (h hr).2⟩

theorem does_writeAndSyncProviderId {userData : List UInt8} {providerId : String} (h : HasConfig userData t) :
    Does event (diskUnder umask may) (Guarded t₀) (writeAndSyncProviderId providerId) t
      (Progress providerIdCalls (fun t' => HasConfig userData t' ∧ HasProviderId providerId t')) := by
  have hgrown {t' : OemTree} (hg : Grown t t') : HasConfig userData t' := hg.file_iff.mpr h
  refine does_step (P := HasConfig userData) (does_createDirAll_under (fun t' hg => .of_secret (hgrown hg))
    (fun e t' _ => .fail _ e (.inr rfl)) fun t' hg => .done _ (hgrown hg)) fun t₁ hI₁ h₁ => ?_
  refine does_writeAndSync (fun _ => .inr rfl) h₁ hI₁ (fun t t' ht hc => ?_) (fun t m hc _ => .of_secret hc)
    (fun t written hc _ => .of_secret hc) _
  rw [HasConfig, ht configPath (by decide)]
  exact hc

def injectCalls : List OemEvent := configCalls ++ providerIdCalls

def cleanUpCalls : List OemEvent := [⟨.discard, configPath, none⟩, ⟨.discard, providerIdPath, none⟩]

/-- Both files are written, or a call failed and what was written is removed. -/
def Wrote (may : Unnoticed) (userData : List UInt8) (providerId : String) (r : Except DeployError Unit) (t : OemTree)
    (trace : List OemEvent) : Prop :=
  match r with
  | .ok () => trace = injectCalls ∧ HasConfig userData t ∧ HasProviderId providerId t
  | .error e => ∃ done ev rest source, injectCalls = done ++ ev :: rest ∧
      trace = done ++ { ev with failure := some source } :: cleanUpCalls ∧ Tagged source e ∧
      (may.cleanUps = false → t.contents? configPath = none ∧ t.contents? providerIdPath = none)

theorem does_writeBoth {userData : List UInt8} {providerId : String} :
    Does event (diskUnder umask may) (Guarded t) (writeBoth userData providerId) t (Wrote may userData providerId) := by
  have hstart : Guarded t t := fun _ _ h => .inr (.inr h)
  refine Does.outcome_bind (does_andThen (does_writeAndSyncConfig hstart)
    fun t₁ _ h₁ => does_writeAndSyncProviderId h₁) fun r t₁ trace hI₁ ⟨hstop, hP⟩ => ?_
  cases r with
  | ok _ => exact Does.pure hI₁ ⟨(List.append_nil trace).trans hstop, hP rfl⟩
  | error e =>
      obtain ⟨done, ev, rest, source, hcalls, rfl, htag⟩ := hstop
      refine Does.bind (P := fun r t' trace => r = .ok () ∧ trace = [⟨.discard, configPath, none⟩] ∧
        (may.cleanUps = false → t'.contents? configPath = none))
        (does_discard_under hI₁ (fun hc => ⟨rfl, rfl, by simp [hc]⟩) fun t' _ hn =>
          ⟨.of_none hn, rfl, rfl, fun _ => hn⟩) (fun _ _ _ _ h => by cases h.1) ?_
      rintro _ t₂ _ hI₂ ⟨_, rfl, hconfig⟩
      refine Does.bind (P := fun r t' trace => r = .ok () ∧ trace = [⟨.discard, providerIdPath, none⟩] ∧
        (may.cleanUps = false → t'.contents? configPath = none ∧ t'.contents? providerIdPath = none))
        (does_discard_under hI₂ (fun hc => ⟨rfl, rfl, by simp [hc]⟩) fun t' ht hn =>
          ⟨hI₂.touched ht, rfl, rfl, fun hc => ⟨?_, hn⟩⟩) (fun _ _ _ _ h => by cases h.1) ?_
      · rw [FileTree.contents?, ht configPath (by decide)]
        exact hconfig hc
      rintro _ t₃ _ hI₃ ⟨_, rfl, hboth⟩
      exact Does.throw hI₃ ⟨done, ev, rest, source, hcalls, by simp [cleanUpCalls], htag, hboth⟩

theorem does_injectOemConfig {oem : OemPartition} {userData : List UInt8} {providerId : String}
    {w : World (id : String → String)} :
    Does mountEvent (host umask may) (fun w' => Guarded w.files w'.files) (injectOemConfig oem userData providerId) w
      (Session OEM_MOUNT oem.devPath (Wrote may userData providerId) oem.devNumber w) :=
  does_withPrivateMount (I := Guarded w.files) (fun _ _ h => .inr (.inr h)) does_writeBoth

end

end Beskar7Inspector.OemInject
