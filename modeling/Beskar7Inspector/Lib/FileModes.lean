import Beskar7Inspector.Lib.FileCalls

namespace Beskar7Inspector.Lib.FileModes

open Os Files Program Recorder FileCalls

variable {Name : Type} [DecidableEq Name] {fold : Name → Name}

/-- The call as the kernel takes it from a process with that umask. -/
def masked (umask : Nat) : ∀ {β : Type}, FileOp Name β → FileOp Name β
  | _, .openTruncated p mode => .openTruncated p (mode - (mode &&& umask))
  | _, o => o

/-- The files below a mount point, for a process with that umask. -/
def diskUnder (umask : Nat) (may : Unnoticed) : Machine (FileOp Name) (Option Fault) (FileTree fold) where
  step o f t := act (masked umask o) (may.allow o f) t

/-- Nothing but the entry at `p` differs. -/
def Touched (p : Path Name) (t t' : FileTree fold) : Prop := ∀ r, r.map fold ≠ p.map fold → t'.node? r = t.node? r

/-- Nothing but new directories differs. -/
def Grown (t t' : FileTree fold) : Prop := ∀ r, t'.node? r = t.node? r ∨ t.node? r = none ∧ t'.node? r = some .dir

section

variable {t t' u : FileTree fold} {p q : Path Name} {node : Node} {mode mode' : Nat} {contents data : List UInt8}

@[simp] theorem Touched.refl : Touched p t t := fun _ _ => rfl

theorem Grown.refl : Grown t t := fun _ => .inl rfl

theorem Grown.trans (h : Grown t t') (h' : Grown t' u) : Grown t u := by
  intro r
  rcases h' r with hr | ⟨hn, hd⟩
  · rw [hr]
    exact h r
  · rcases h r with hr | ⟨_, hd'⟩
    · exact .inr ⟨hr ▸ hn, hd⟩
    · rw [hd'] at hn
      cases hn

theorem Grown.file_iff (h : Grown t t') : t'.node? p = some (.file mode contents) ↔ t.node? p = some (.file mode contents) := by
  rcases h p with hp | ⟨hn, hd⟩
  · rw [hp]
  · rw [hn, hd]
    simp

theorem touched_insert (dir : Path Name) (name : Name) : Touched (.join dir name) t (t.insert dir name node) :=
  fun _ hr => FileTree.node?_insert_ne hr

theorem openTruncated_ok (h : t.openTruncated p mode = .ok t') :
    Touched p t t' ∧ ∃ m, t'.node? p = some (.file m []) := by
  cases p with
  | root => cases h
  | join dir name =>
      simp only [FileTree.openTruncated] at h
      split at h
      · rename_i m _ hn
        cases h
        exact ⟨touched_insert dir name, m,
          FileTree.node?_insert_same (FileTree.node?_parent hn) (by rw [hn]; simp) rfl⟩
      · cases h
      · rename_i hn
        split at h
        · cases h
        · rename_i hp
          cases h
          exact ⟨touched_insert dir name, mode,
            FileTree.node?_insert_same (FileTree.parentError_eq_none hp) (by rw [hn]; simp) rfl⟩

theorem setPermissions_ok (h : t.setPermissions p mode' = .ok t') (hp : t.node? p = some (.file mode contents)) :
    Touched p t t' ∧ t'.node? p = some (.file mode' contents) := by
  cases p with
  | root => cases hp
  | join dir name =>
      simp only [FileTree.setPermissions, hp] at h
      cases h
      exact ⟨touched_insert dir name, FileTree.node?_insert_same (FileTree.node?_parent hp) (by rw [hp]; simp) rfl⟩

theorem append_ok (h : t.append p data = .ok t') (hp : t.node? p = some (.file mode contents)) :
    Touched p t t' ∧ t'.node? p = some (.file mode (contents ++ data)) := by
  cases p with
  | root => cases hp
  | join dir name =>
      simp only [FileTree.append, hp] at h
      cases h
      exact ⟨touched_insert dir name, FileTree.node?_insert_same (FileTree.node?_parent hp) (by rw [hp]; simp) rfl⟩

theorem grown_insert_dir {dir : Path Name} {name : Name} (h : t.node? (.join dir name) = none) :
    Grown t (t.insert dir name .dir) := by
  intro r
  by_cases hr : r.map fold = Files.Path.map fold (.join dir name)
  · by_cases hd : t.node? dir = some .dir
    · exact .inr ⟨by rw [FileTree.node?_congr hr, h], FileTree.node?_insert_same hd (by rw [h]; simp) hr⟩
    · rw [FileTree.insert, dif_neg fun hplace => hd hplace.1]
      exact .inl rfl
  · exact .inl (FileTree.node?_insert_ne hr)

theorem createDirAll_ok (h : t.createDirAll p = .ok t') : Grown t t' := by
  induction p generalizing t' with
  | root =>
      cases h
      exact .refl
  | join dir name ih =>
      simp only [FileTree.createDirAll] at h
      split at h
      · cases h
        exact .refl
      · cases h
      · rename_i hn
        split at h
        · cases h
          exact grown_insert_dir hn
        · split at h
          · cases h
          · cases hd : t.createDirAll dir with
            | error e => rw [hd] at h; cases h
            | ok t₁ =>
                rw [hd] at h
                cases h
                rcases ih hd (.join dir name) with hsame | ⟨_, hdir⟩
                · exact (ih hd).trans (grown_insert_dir (hsame.trans hn))
                · rw [FileTree.insert, dif_neg fun hplace => hplace.2 hdir]
                  exact ih hd

theorem unlink_ok (h : t.unlink p = .ok t') : Touched p t t' := by
  simp only [FileTree.unlink] at h
  split at h
  · cases h
    exact fun r hr => FileTree.node?_erase_ne hr
  · cases h
  · cases h

end

section Rules

variable {ε : Type} {umask : Nat} {may : Unnoticed} {I : FileTree fold → Prop} {t : FileTree fold} {p : Path Name}
  {mode mode' : Nat} {contents data : List UInt8} {tag : IoError → ε}
  {Q : Except ε Unit → FileTree fold → List (FileCalls.Event Name) → Prop}

theorem does_openTruncated_under (hI : I t) (herr : ∀ e, Q (.error (tag e)) t [⟨.openTruncated, p, some e⟩])
    (hok : ∀ t' m, Touched p t t' → t'.node? p = some (.file m []) → I t' ∧ Q (.ok ()) t' [⟨.openTruncated, p, none⟩]) :
    Does event (diskUnder umask may) I (attempt (.openTruncated p mode) tag) t Q := by
  refine does_changed_of (fun f => ⟨_, by simp only [diskUnder, masked, act]; rfl⟩) hI ?_ ?_
  · rintro e t' (rfl | ⟨_, rfl⟩) <;> exact ⟨hI, herr e⟩
  · intro t' ht
    obtain ⟨htouched, m, hp⟩ := openTruncated_ok ht
    exact hok t' m htouched hp

theorem does_setPermissions_under (hp : t.node? p = some (.file mode contents)) (hI : I t)
    (herr : ∀ e, Q (.error (tag e)) t [⟨.setPermissions, p, some e⟩])
    (hok : ∀ t', Touched p t t' → t'.node? p = some (.file mode' contents) →
      I t' ∧ Q (.ok ()) t' [⟨.setPermissions, p, none⟩]) :
    Does event (diskUnder umask may) I (attempt (.setPermissions p mode') tag) t Q := by
  refine does_changed_of (fun f => ⟨_, by simp only [diskUnder, masked, act]; rfl⟩) hI ?_ ?_
  · rintro e t' (rfl | ⟨_, rfl⟩) <;> exact ⟨hI, herr e⟩
  · intro t' ht
    obtain ⟨htouched, hnode⟩ := setPermissions_ok ht hp
    exact hok t' htouched hnode

theorem does_writeAll_under (hp : t.node? p = some (.file mode contents)) (hI : I t)
    (herr : ∀ e t' written, Touched p t t' → t'.node? p = some (.file mode written) →
      I t' ∧ Q (.error (tag e)) t' [⟨.writeAll, p, some e⟩])
    (hok : ∀ t', Touched p t t' → t'.node? p = some (.file mode (contents ++ data)) →
      I t' ∧ Q (.ok ()) t' [⟨.writeAll, p, none⟩]) :
    Does event (diskUnder umask may) I (attempt (.writeAll p data) tag) t Q := by
  refine does_changed_of (fun f => ⟨_, by simp only [diskUnder, masked, act]; rfl⟩) hI ?_ ?_
  · rintro e t' (rfl | ⟨n, rfl⟩)
    · exact herr e t' contents .refl hp
    · cases ha : t.append p (data.take n) with
      | ok t' =>
          obtain ⟨htouched, hnode⟩ := append_ok ha hp
          exact herr e t' _ htouched hnode
      | error _ => exact herr e t contents .refl hp
  · intro t' ht
    obtain ⟨htouched, hnode⟩ := append_ok ht hp
    exact hok t' htouched hnode

theorem does_createDirAll_under (hI : ∀ t' : FileTree fold, Grown t t' → I t')
    (herr : ∀ e t', Grown t t' → Q (.error (tag e)) t' [⟨.createDirAll, p, some e⟩])
    (hok : ∀ t', Grown t t' → Q (.ok ()) t' [⟨.createDirAll, p, none⟩]) :
    Does event (diskUnder umask may) I (attempt (.createDirAll p) tag) t Q := by
  refine does_changed_of (fun f => ⟨_, by simp only [diskUnder, masked, act]; rfl⟩) (hI t .refl) ?_ ?_
  · rintro e t' (rfl | ⟨n, rfl⟩)
    · exact ⟨hI _ .refl, herr e _ .refl⟩
    · cases hd : t.createDirAll (p.upTo (min n (p.depth - 1))) with
      | ok t' => exact ⟨hI t' (createDirAll_ok hd), herr e t' (createDirAll_ok hd)⟩
      | error _ => exact ⟨hI t .refl, herr e t .refl⟩
  · intro t' ht
    exact ⟨hI t' (createDirAll_ok ht), hok t' (createDirAll_ok ht)⟩

theorem does_syncFile_under (hI : I t) (herr : ∀ e, Q (.error (tag e)) t [⟨.syncFile, p, some e⟩])
    (hok : Q (.ok ()) t [⟨.syncFile, p, none⟩]) : Does event (diskUnder umask may) I (attempt (.syncFile p) tag) t Q :=
  does_looked_of (fun f => ⟨_, by simp only [diskUnder, masked, act]; rfl⟩) hI herr hok

theorem does_syncDir_under (hI : I t) (herr : ∀ e, Q (.error (tag e)) t [⟨.syncDir, p, some e⟩])
    (hok : Q (.ok ()) t [⟨.syncDir, p, none⟩]) : Does event (diskUnder umask may) I (attempt (.syncDir p) tag) t Q :=
  does_looked_of (fun f => ⟨_, by simp only [diskUnder, masked, act]; rfl⟩) hI herr hok

theorem does_discard_under (hI : I t) (hfail : may.cleanUps = true → Q (.ok ()) t [⟨.discard, p, none⟩])
    (hok : ∀ t', Touched p t t' → t'.contents? p = none → I t' ∧ Q (.ok ()) t' [⟨.discard, p, none⟩]) :
    Does event (diskUnder umask may) I (always (.discard p)) t Q := by
  refine Does.always hI fun f => ?_
  simp only [diskUnder, masked, Unnoticed.allow, act]
  have hdone : I ((t.unlink p).toOption.getD t) ∧ Q (.ok ()) ((t.unlink p).toOption.getD t) [⟨.discard, p, none⟩] := by
    cases hu : t.unlink p with
    | ok t' => exact hok t' (unlink_ok hu) (((FileTree.contents?_unlink hu).2 p).trans (if_pos rfl))
    | error e => exact hok t .refl (FileTree.contents?_of_unlink_error hu)
  cases f with
  | none => simpa [event] using hdone
  | some x =>
      cases hc : may.cleanUps with
      | true => exact ⟨hI, hfail hc⟩
      | false => simpa [event] using hdone

end Rules

end Beskar7Inspector.Lib.FileModes
