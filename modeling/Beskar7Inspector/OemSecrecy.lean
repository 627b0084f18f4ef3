import Beskar7Inspector.OemInject

namespace Beskar7Inspector.OemSecrecy

open Lib.Program Lib.Recorder Lib.Os Lib.Text Lib.Files Lib.FileCalls Deploy Oem MountSession OemInject

abbrev OemWorld := World (id : String → String)

/-- The calls of the write closure, once, up to the first that fails and the clean-up after it. -/
def OnceThrough (writes : List OemEvent) : Prop :=
  writes = injectCalls ∨ ∃ done ev rest source, injectCalls = done ++ ev :: rest ∧
    writes = done ++ { ev with failure := some source } :: cleanUpCalls

/-- The files are written at most once, right after the mount and before any unmount. -/
def WritesMounted (trace : List (MountEvent String)) : Prop :=
  (∀ ev, .file ev ∉ trace) ∨ ∃ before writes after, trace = before ++ writes.map .file ++ after ∧
    (∀ ev, .file ev ∉ before ++ after) ∧ before.getLast? = some (.mount (.ok ())) ∧
    (∀ detach r, .umount detach r ∉ before) ∧ OnceThrough writes

section

variable {may : Unnoticed} {userData : List UInt8} {providerId dev devNumber : String} {w w' : OemWorld}
  {r written : Except DeployError Unit} {t : OemTree} {writes : List OemEvent} {trace : List (MountEvent String)}

theorem failure_injectCalls : ∀ ev ∈ injectCalls, ev.failure = none := by decide

theorem onceThrough_of_wrote (h : Wrote may userData providerId written t writes) : OnceThrough writes := by
  cases written with
  | ok _ => exact .inl h.1
  | error e =>
      obtain ⟨done, ev, rest, source, hcalls, htrace, _⟩ := h
      exact .inr ⟨done, ev, rest, source, hcalls, htrace⟩

theorem failure_of_wrote (h : Wrote may userData providerId written t writes) :
    (∀ ev source, ev ∈ writes → ev.failure = some source → ∃ e, written = .error e ∧ Tagged source e) ∧
      ∀ e, written = .error e → ∃ ev source, ev ∈ writes ∧ ev.failure = some source := by
  cases written with
  | ok _ =>
      refine ⟨fun ev source hev hfail => ?_, by simp⟩
      rw [h.1] at hev
      rw [failure_injectCalls ev hev] at hfail
      cases hfail
  | error e =>
      obtain ⟨done, ev, rest, source, hcalls, rfl, htag, _⟩ := h
      have hdone : ∀ x ∈ done, x.failure = none := by
        intro x hx
        apply failure_injectCalls
        rw [hcalls]
        exact List.mem_append_left _ hx
      refine ⟨fun x source' hx hfail => ⟨e, rfl, ?_⟩, fun _ _ => ⟨{ ev with failure := some source }, source, by simp, rfl⟩⟩
      rcases List.mem_append.mp hx with hx | hx
      · rw [hdone x hx] at hfail
        cases hfail
      rcases List.mem_cons.mp hx with rfl | hx
      · cases hfail
        exact htag
      · have hclean : ∀ y ∈ cleanUpCalls, y.failure = none := by decide
        rw [hclean x hx] at hfail
        cases hfail

theorem mem_writes {before after : List (MountEvent String)} {ev : OemEvent} (hquiet : ∀ ev, .file ev ∉ before ++ after) :
    .file ev ∈ before ++ writes.map MountEvent.file ++ after ↔ ev ∈ writes := by
  have := hquiet ev
  rw [List.mem_append, not_or] at this
  simp [this]

theorem writesMounted (h : Session OEM_MOUNT dev (Wrote may userData providerId) devNumber w r w' trace) :
    WritesMounted trace := by
  rcases h.written_or with hnot | hwritten
  · exact .inl hnot.2.2.1
  · cases hwritten with
    | @intro before after writes written quiet mounted attached wrote result =>
        exact .inr ⟨before, writes, after, rfl, quiet, mounted, attached, onceThrough_of_wrote wrote⟩

theorem error_of_failure (h : Session OEM_MOUNT dev (Wrote may userData providerId) devNumber w r w' trace)
    {ev : OemEvent} {source : IoError} (hev : .file ev ∈ trace) (hfail : ev.failure = some source) :
    ∃ e, r = .error e ∧ Tagged source e := by
  rcases h.written_or with hnot | hwritten
  · exact absurd hev (hnot.2.2.1 ev)
  · cases hwritten with
    | @intro before after writes written quiet mounted attached wrote result =>
        rw [mem_writes quiet] at hev
        obtain ⟨e, rfl, htag⟩ := (failure_of_wrote wrote).1 ev source hev hfail
        rcases result with ⟨_, rfl⟩ | ⟨_, _, rfl⟩
        · exact ⟨e, rfl, htag⟩
        · exact ⟨e, rfl, htag⟩

theorem files_of_ok (h : Session OEM_MOUNT dev (Wrote may userData providerId) devNumber w (.ok ()) w' trace) :
    HasConfig userData w'.files ∧ HasProviderId providerId w'.files := by
  rcases h.written_or with hnot | hwritten
  · exact absurd rfl hnot.1
  · generalize hr : (Except.ok () : Except DeployError Unit) = r at hwritten
    cases hwritten with
    | @intro before after writes written quiet mounted attached wrote result =>
        cases written with
        | ok _ => exact wrote.2
        | error e => rcases result with ⟨_, h⟩ | ⟨_, _, h⟩ <;> rw [← hr] at h <;> cases h

end

/-- In every run the secret is guarded at each step, the files are written at
most once and on the mounted partition, a failed write is what is reported, the
partition is detached, the node removed, and after `Ok` both files are exact. -/
theorem injectOemConfig_secret (umask : Nat) (may : Unnoticed) (oem : OemPartition) (userData : List UInt8)
    (providerId : String) (node : Option UInt64) (mountpoint : Bool) (hidden files : OemTree)
    (plan : Nat → Option Fault) :
    let start : OemWorld := ⟨node, mountpoint, false, hidden, files⟩
    let ending := (injectOemConfig oem userData providerId).run.run (logged mountEvent (host umask may)) plan (start, [])
    (∀ x ∈ ending.visited, Guarded files x.1.files) ∧ WritesMounted ending.final.2 ∧
    (∀ ev source, .file ev ∈ ending.final.2 → ev.failure = some source →
      ∃ e, ending.value = .error e ∧ Tagged source e) ∧
    (ending.final.1.mounted = false ∨
      ∃ e e', .umount false (.error e) ∈ ending.final.2 ∧ .umount true (.error e') ∈ ending.final.2) ∧
    NodeRemoved start ending.final.1 ending.final.2 ∧
    (ending.value = .ok () → HasConfig userData ending.final.1.files ∧ HasProviderId providerId ending.final.1.files) := by
  intro start ending
  have hdoes : Does mountEvent (host umask may) (fun w => Guarded start.files w.files)
      (injectOemConfig oem userData providerId) start
      (Session OEM_MOUNT oem.devPath (Wrote may userData providerId) oem.devNumber start) := does_injectOemConfig
  obtain ⟨hvisited, hsession⟩ := hdoes.run plan
  refine ⟨hvisited, writesMounted hsession, fun ev source => error_of_failure hsession, hsession.detached rfl,
    hsession.nodeRemoved, fun hok => ?_⟩
  have hvalue : ending.value = .ok () := hok
  exact files_of_ok (hvalue ▸ hsession)

/-- The call opened this file for writing, and it is on the partition. -/
def Left (trace : List (MountEvent String)) (t : OemTree) (p : Path String) : Prop :=
  .file ⟨.openTruncated, p, none⟩ ∈ trace ∧ t.contents? p ≠ none

/-- An error leaves neither file of this call. -/
def ErrorLeavesNone (r : Except DeployError Unit) (t : OemTree) (trace : List (MountEvent String)) : Prop :=
  ∀ e, r = .error e → ¬Left trace t configPath ∧ ¬Left trace t providerIdPath

/-- The eager unmount does not fail, or a call on the partition failed before it. -/
def CleanedUp (trace : List (MountEvent String)) : Prop :=
  (∀ e, .umount false (.error e) ∉ trace) ∨ ∃ ev source, .file ev ∈ trace ∧ ev.failure = some source

theorem errorLeavesNone_iff {looks : Bool} {userData : List UInt8} {providerId dev devNumber : String} {w w' : OemWorld}
    {r : Except DeployError Unit} {trace : List (MountEvent String)}
    (h : Session OEM_MOUNT dev (Wrote ⟨false, looks⟩ userData providerId) devNumber w r w' trace) :
    ErrorLeavesNone r w'.files trace ↔ CleanedUp trace := by
  rcases h.written_or with ⟨_, _, hfiles, humount⟩ | hwritten
  · exact iff_of_true (fun _ _ => ⟨fun h => hfiles _ h.1, fun h => hfiles _ h.1⟩) (.inl fun e => humount false _)
  cases hwritten with
  | @intro before after writes written quiet mounted attached wrote result =>
      have hmem (ev : OemEvent) : .file ev ∈ before ++ writes.map MountEvent.file ++ after ↔ ev ∈ writes := mem_writes quiet
      cases written with
      | error e =>
          -- the clean-up ran, so whatever comes after it there are no files to leave
          obtain ⟨ev, source, hev, hfail⟩ := (failure_of_wrote wrote).2 e rfl
          obtain ⟨_, _, _, _, _, _, _, hgone⟩ := wrote
          obtain ⟨hconfig, hprovider⟩ := hgone rfl
          exact iff_of_true (fun _ _ => ⟨fun h => h.2 hconfig, fun h => h.2 hprovider⟩)
            (.inr ⟨ev, source, (hmem ev).mpr hev, hfail⟩)
      | ok _ =>
          obtain ⟨hcalls, hconfig, _⟩ := wrote
          rcases result with ⟨hunmounted, rfl⟩ | ⟨e, hbusy, rfl⟩
          · refine iff_of_true (by simp [ErrorLeavesNone]) (.inl fun e he => ?_)
            rw [List.append_assoc, List.mem_append, List.mem_append] at he
            rcases he with he | he | he
            · exact attached _ _ he
            · simp at he
            · exact hunmounted e he
          · refine iff_of_false (fun hnone => ?_) ?_
            · refine (hnone _ rfl).1 ⟨(hmem _).mpr (hcalls ▸ by decide), ?_⟩
              rw [FileTree.contents?_of_file hconfig]
              simp
            · rintro (hnot | ⟨ev, source, hev, hfail⟩)
              · exact hnot e (List.mem_append_right _ hbusy)
              · rw [hmem, hcalls] at hev
                rw [failure_injectCalls ev hev] at hfail
                cases hfail

/-- Where removals succeed, an error leaves neither file exactly in the runs
whose eager unmount does not fail or comes after a failed call on the partition. -/
theorem injectOemConfig_leavesNone_iff (umask : Nat) (looks : Bool) (oem : OemPartition) (userData : List UInt8)
    (providerId : String) (w : OemWorld) (plan : Nat → Option Fault) :
    let ending := (injectOemConfig oem userData providerId).run.run (logged mountEvent (host umask ⟨false, looks⟩)) plan (w, [])
    ErrorLeavesNone ending.value ending.final.1.files ending.final.2 ↔ CleanedUp ending.final.2 :=
  errorLeavesNone_iff (does_injectOemConfig.run plan).2

/-- An empty partition whose eager unmount finds it busy. -/
def busyInject : Ending (Except DeployError Unit) (OemWorld × List (MountEvent String)) :=
  (injectOemConfig ⟨"sda2", "8:2"⟩ (utf8 "token: abcdef") "b7://ns/host").run.run (logged mountEvent (host 0o022 ⟨false, false⟩))
    (fun n => if n = 16 then some ⟨.os EBUSY, 0⟩ else none) (⟨none, false, false, .empty, .empty⟩, [])

/-- It is an error, and the join secret stays on the partition. -/
theorem not_errorLeavesNone_busy :
    ¬ErrorLeavesNone busyInject.value busyInject.final.1.files busyInject.final.2 := by
  intro h
  have hvalue : busyInject.value = .error (.unmount .oem "/run/beskar7-oem" EBUSY) := by decide +kernel
  have hconfig : busyInject.final.1.files.contents? configPath = some (utf8 "token: abcdef") := by decide +kernel
  have hopened : .file ⟨.openTruncated, configPath, none⟩ ∈ busyInject.final.2 := by decide +kernel
  exact (h _ hvalue).1 ⟨hopened, by rw [hconfig]; simp⟩

end Beskar7Inspector.OemSecrecy
