import Beskar7Inspector.Deploy

namespace Beskar7Inspector.WriteImage

open Lib.Os Image Deploy DiskSelection

/-- The whole-disk node as opened exclusively for writing: its metadata, and the
faults of the writes and of the final sync. -/
structure OpenedNode where
  metadata : Except IoError FileMeta
  faults : List (Option WriteFault)
  syncFault : Option IoError

/-- What the host answers: opening a node by path, and fetching a URL. -/
structure Host where
  openWrite : String → Except IoError OpenedNode
  answer : String → Except String Response

/-- The result, and the bytes the device was handed. -/
def writeImage (H : Sha256) (host : Host) (target : TargetDisk) (imageUrl targetDigest : String)
    (buildMaxBytes : UInt64) : Except DeployError Nat × List UInt8 :=
  match Sha256Digest.parse targetDigest with
  | .error e => (.error (.image e), [])
  | .ok digest =>
      let cap := effectiveMaxBytes buildMaxBytes target.sizeBytes
      let path := target.devPath
      match host.openWrite path with
      | .error source => (.error (.openTarget path source), [])
      | .ok node => match verifyNodeIdentity node.metadata path target.devNumber with
          | .error e => (.error e, [])
          | .ok () => match fetchTo H host.answer imageUrl digest cap ⟨[], node.faults, none⟩ with
              | (.error e, sink) => (.error (.image e), sink.written)
              | (.ok written, sink) => match node.syncFault with
                  | some e => (.error (.sync e), sink.written)
                  | none => (.ok written, sink.written)

/-- The body the server sends for `url`. -/
def Host.body (host : Host) (url : String) : List UInt8 :=
  match host.answer url with
  | .ok resp => bodyBytes resp.body
  | .error _ => []

section

variable (H : Sha256) (host : Host) (target : TargetDisk) (url digest : String) (buildMax : UInt64)

/-- The digest string is well formed and the opened node is the selected disk. -/
def Gated : Prop :=
  (∃ d, Sha256Digest.parse digest = .ok d) ∧ target.devNumber ≠ "" ∧
    ∃ node info, host.openWrite target.devPath = .ok node ∧ node.metadata = .ok info ∧
      info.blockDevice = true ∧ majorMinor info.rdev = target.devNumber

/-- Nothing stops the fetch before the body is read, and neither a read nor a
write fails after that. -/
def Undisturbed : Prop :=
  Gated host target digest ∧ validateImageScheme url = .ok () ∧
    ∃ resp, host.answer url = .ok resp ∧ 200 ≤ resp.status ∧ resp.status < 300 ∧
      (∀ event ∈ resp.body, ∃ c, event = .data c) ∧
      ∀ node, host.openWrite target.devPath = .ok node → ∀ fault ∈ node.faults, fault = none

structure Guarded : Prop where
  gated : (writeImage H host target url digest buildMax).2 ≠ [] → Gated host target digest
  isPrefix : (writeImage H host target url digest buildMax).2 <+: host.body url
  capped : (writeImage H host target url digest buildMax).2.length ≤
    (effectiveMaxBytes buildMax target.sizeBytes).toNat
  capacity : target.sizeBytes ≠ 0 →
    (writeImage H host target url digest buildMax).2.length ≤ target.sizeBytes.toNat

structure Decided : Prop where
  verified : ∀ n, (writeImage H host target url digest buildMax).1 = .ok n →
    (writeImage H host target url digest buildMax).2 = host.body url ∧ (host.body url).length = n ∧
      n ≤ (effectiveMaxBytes buildMax target.sizeBytes).toNat ∧
      Sha256Digest.parse digest = .ok (H.hash (host.body url))
  tooLarge : Undisturbed host target url digest →
    ((writeImage H host target url digest buildMax).1 =
        .error (.image (.tooLarge (effectiveMaxBytes buildMax target.sizeBytes))) ↔
      (effectiveMaxBytes buildMax target.sizeBytes).toNat < (host.body url).length)
  mismatch : Undisturbed host target url digest →
    ((∃ expected computed, (writeImage H host target url digest buildMax).1 =
        .error (.image (.digestMismatch expected computed))) ↔
      (host.body url).length ≤ (effectiveMaxBytes buildMax target.sizeBytes).toNat ∧
        Sha256Digest.parse digest ≠ .ok (H.hash (host.body url)))

/-- The part of a run after every check has passed: the stream, then the sync. -/
def finish (node : OpenedNode) (r : Except ImageError Nat × Sink) : Except DeployError Nat × List UInt8 :=
  match r with
  | (.error e, sink) => (.error (.image e), sink.written)
  | (.ok written, sink) => match node.syncFault with
      | some e => (.error (.sync e), sink.written)
      | none => (.ok written, sink.written)

/-- Either a check fails before the stream and nothing is written, or every
check passed and the run is the stream's. -/
theorem writeImage_cases :
    (¬ Undisturbed host target url digest ∧ ∃ e, writeImage H host target url digest buildMax = (.error e, [])) ∨
      ∃ d node resp, Sha256Digest.parse digest = .ok d ∧ Gated host target digest ∧
        host.openWrite target.devPath = .ok node ∧ host.answer url = .ok resp ∧
        writeImage H host target url digest buildMax = finish node (streamVerify H resp.body d
          (effectiveMaxBytes buildMax target.sizeBytes) ⟨[], node.faults, none⟩) := by
  cases hd : Sha256Digest.parse digest with
  | error e =>
      refine .inl ⟨?_, .image e, by simp [writeImage, hd]⟩
      rintro ⟨⟨⟨d, hd'⟩, _⟩, _⟩
      cases hd.symm.trans hd'
  | ok d => cases ho : host.openWrite target.devPath with
    | error e =>
        refine .inl ⟨?_, .openTarget target.devPath e, by simp [writeImage, hd, ho]⟩
        rintro ⟨⟨_, _, node, _, ho', _⟩, _⟩
        cases ho.symm.trans ho'
    | ok node => cases hv : verifyNodeIdentity node.metadata target.devPath target.devNumber with
      | error e =>
          refine .inl ⟨?_, e, by simp [writeImage, hd, ho, hv]⟩
          rintro ⟨⟨_, hne, node', info, ho', hinfo⟩, _⟩
          cases ho.symm.trans ho'
          cases hv.symm.trans (verifyNodeIdentity_ok_iff.mpr ⟨hne, info, hinfo⟩)
      | ok u =>
          obtain ⟨hne, info, hinfo⟩ := verifyNodeIdentity_ok_iff.mp hv
          have hgate : Gated host target digest := ⟨⟨d, hd⟩, hne, node, info, ho, hinfo⟩
          cases hs : validateImageScheme url with
          | error e =>
              refine .inl ⟨?_, .image e, by simp [writeImage, hd, ho, hv, fetchTo, hs]⟩
              rintro ⟨_, hs', _⟩
              cases hs.symm.trans hs'
          | ok u => cases ha : host.answer url with
            | error kind =>
                refine .inl ⟨?_, .image (.transport kind), by simp [writeImage, hd, ho, hv, fetchTo, hs, ha]⟩
                rintro ⟨_, _, resp, ha', _⟩
                cases ha.symm.trans ha'
            | ok resp =>
                by_cases hstatus : 200 ≤ resp.status ∧ resp.status < 300
                · refine .inr ⟨d, node, resp, rfl, hgate, rfl, rfl, ?_⟩
                  simp only [writeImage, hd, ho, hv, fetchTo, hs, ha, if_neg (not_not.mpr hstatus), finish]
                · refine .inl ⟨?_, .image (.http resp.status), ?_⟩
                  · rintro ⟨_, _, resp', ha', h200, h300, _⟩
                    cases ha.symm.trans ha'
                    exact hstatus ⟨h200, h300⟩
                  · simp [writeImage, hd, ho, hv, fetchTo, hs, ha, hstatus]

theorem finish_written (node : OpenedNode) (r : Except ImageError Nat × Sink) :
    (finish node r).2 = r.2.written := by
  unfold finish
  split
  · rfl
  · split <;> rfl

theorem finish_ok {node : OpenedNode} {r : Except ImageError Nat × Sink} {n : Nat}
    (h : (finish node r).1 = .ok n) : r.1 = .ok n := by
  unfold finish at h
  split at h
  · cases h
  · split at h <;> cases h
    rfl

theorem finish_image_iff {node : OpenedNode} {r : Except ImageError Nat × Sink} {e : ImageError} :
    (finish node r).1 = .error (.image e) ↔ r.1 = .error e := by
  unfold finish
  split
  · simp
  · split <;> simp

theorem writeImage_guarded : Guarded H host target url digest buildMax := by
  have hsafe : ((writeImage H host target url digest buildMax).2 ≠ [] → Gated host target digest) ∧
      (writeImage H host target url digest buildMax).2 <+: host.body url ∧
      (writeImage H host target url digest buildMax).2.length ≤
        (effectiveMaxBytes buildMax target.sizeBytes).toNat := by
    rcases writeImage_cases H host target url digest buildMax with
      ⟨_, e, hr⟩ | ⟨d, node, resp, _, hgate, _, ha, hr⟩
    · rw [hr]
      exact ⟨nofun, List.nil_prefix, Nat.zero_le _⟩
    · obtain ⟨taken, hv⟩ := streamVerify_outcome H resp.body d (effectiveMaxBytes buildMax target.sizeBytes)
        ⟨[], node.faults, none⟩
      have hw := hv.written
      rw [List.nil_append] at hw
      rw [hr, finish_written, hw, Host.body, ha]
      exact ⟨fun _ => hgate, hv.isPrefix, hv.bounded⟩
  obtain ⟨hgate, hfront, hcap⟩ := hsafe
  exact ⟨hgate, hfront, hcap, fun h => hcap.trans (effectiveMaxBytes_le_capacity buildMax h)⟩

theorem writeImage_decided (hsize : (effectiveMaxBytes buildMax target.sizeBytes).toNat < 2 ^ 64 - 1 ∨
    (host.body url).length < 2 ^ 64) : Decided H host target url digest buildMax := by
  rcases writeImage_cases H host target url digest buildMax with
    ⟨hdis, e, hr⟩ | ⟨d, node, resp, hd, _, ho, ha, hr⟩
  · exact ⟨by simp [hr], fun h => absurd h hdis, fun h => absurd h hdis⟩
  · have hbody : host.body url = bodyBytes resp.body := by
      rw [Host.body, ha]
    rw [hbody] at hsize
    have hquiet : Undisturbed host target url digest →
        (∀ event ∈ resp.body, ∃ c, event = .data c) ∧ ∀ fault ∈ node.faults, fault = none := by
      rintro ⟨_, _, resp', ha', _, _, hread, hsink⟩
      cases ha.symm.trans ha'
      exact ⟨hread, hsink node ho⟩
    constructor
    · intro n hn
      obtain ⟨taken, hv⟩ := streamVerify_outcome H resp.body d (effectiveMaxBytes buildMax target.sizeBytes)
        ⟨[], node.faults, none⟩
      rw [hr] at hn
      obtain ⟨hlen, hhash, hfull⟩ := hv.verified n (finish_ok hn)
      have hall := eq_of_prefix_of_full hv.isPrefix hv.bounded hsize hfull
      rw [hr, finish_written, hv.written, List.nil_append, hbody, hall, ← hall, hhash, hd]
      exact ⟨rfl, hlen.symm, hlen ▸ hv.bounded, rfl⟩
    · intro hun
      obtain ⟨hread, hsink⟩ := hquiet hun
      have hres := streamVerify_undisturbed H resp.body d (effectiveMaxBytes buildMax target.sizeBytes)
        ⟨[], node.faults, none⟩ hread hsink rfl hsize
      rw [hr, finish_image_iff, hres, hbody]
      split
      · simpa
      · split <;> simp <;> omega
    · intro hun
      obtain ⟨hread, hsink⟩ := hquiet hun
      have hres := streamVerify_undisturbed H resp.body d (effectiveMaxBytes buildMax target.sizeBytes)
        ⟨[], node.faults, none⟩ hread hsink rfl hsize
      simp only [hr, finish_image_iff, hres, hbody, hd]
      split
      · simp
        omega
      · rename_i hfit
        have hle := Nat.le_of_not_lt hfit
        split
        · rename_i he
          simp [he]
        · rename_i he
          simp [hle, Ne.symm he]

/-- Safety holds of every run. What the result says about the body needs the
bound, or the body, to be below the largest 64-bit number. -/
theorem writeImage_digest_gated :
    Guarded H host target url digest buildMax ∧
      ((effectiveMaxBytes buildMax target.sizeBytes).toNat < 2 ^ 64 - 1 ∨ (host.body url).length < 2 ^ 64 →
        Decided H host target url digest buildMax) :=
  ⟨writeImage_guarded H host target url digest buildMax, writeImage_decided H host target url digest buildMax⟩

end

section

def abcDigest : Sha256Digest :=
  ⟨[0xba, 0x78, 0x16, 0xbf, 0x8f, 0x01, 0xcf, 0xea, 0x41, 0x41, 0x40, 0xde, 0x5d, 0xae, 0x22, 0x23,
    0xb0, 0x03, 0x61, 0xa3, 0x96, 0x17, 0x7a, 0x9c, 0xb4, 0x10, 0xff, 0x61, 0xf2, 0x00, 0x15, 0xad], rfl⟩

def sdb (sizeBytes : UInt64) : TargetDisk := ⟨"sdb", sizeBytes, "8:16"⟩

/-- A host that serves `body` and whose target node is a healthy `sdb`. -/
def healthyHost (body : List BodyEvent) : Host where
  openWrite _ := .ok ⟨.ok ⟨true, makedev 8 16⟩, [], none⟩
  answer _ := .ok ⟨200, body⟩

theorem undisturbed_healthyHost (chunks : List Chunk) (sizeBytes : UInt64) :
    Undisturbed (healthyHost (chunks.map .data)) (sdb sizeBytes) "http://images/os.raw" abcDigest.display := by
  have hdev : majorMinor (makedev 8 16) = "8:16" := by decide
  refine ⟨⟨⟨abcDigest, by decide⟩, by simp [sdb], _, _, rfl, rfl, rfl, hdev⟩, by decide, _, rfl, by simp, by simp,
    ?_, ?_⟩
  · intro event he
    obtain ⟨c, _, rfl⟩ := List.mem_map.mp he
    exact ⟨c, rfl⟩
  · rintro node ⟨⟩
    nofun

def abcChunks : List Chunk := [⟨[97], nofun, by decide⟩, ⟨[98, 99], nofun, by decide⟩]

theorem writeImage_digest_gated_abc :
    writeImage (.buffered fun _ => abcDigest) (healthyHost (abcChunks.map .data)) (sdb 4096) "http://images/os.raw"
        abcDigest.display 3 = (.ok 3, [97, 98, 99]) ∧
      Guarded (.buffered fun _ => abcDigest) (healthyHost (abcChunks.map .data)) (sdb 4096) "http://images/os.raw"
        abcDigest.display 3 ∧
      Decided (.buffered fun _ => abcDigest) (healthyHost (abcChunks.map .data)) (sdb 4096) "http://images/os.raw"
        abcDigest.display 3 := by
  obtain ⟨hguarded, hdecided⟩ := writeImage_digest_gated (.buffered fun _ => abcDigest)
    (healthyHost (abcChunks.map .data)) (sdb 4096) "http://images/os.raw" abcDigest.display 3
  exact ⟨rfl, hguarded, hdecided (.inl (by decide))⟩

def zeroChunk : Chunk where
  bytes := List.replicate readBufBytes 0
  nonempty h := absurd (congrArg List.length h) (by rw [List.length_replicate]; decide)
  fits := (List.length_replicate ..).le

theorem bodyBytes_replicate_length (n : Nat) :
    (bodyBytes ((List.replicate n zeroChunk).map .data)).length = n * readBufBytes := by
  induction n with
  | zero => rw [Nat.zero_mul]; rfl
  | succ n ih =>
      rw [List.replicate_succ, List.map_cons, bodyBytes, List.length_append, ih, Nat.succ_mul, Nat.add_comm]
      exact congrArg _ (List.length_replicate ..)

/-- A disk of unknown capacity, the largest bound, and two to the 64 bytes: the
bounded reader ends one byte short of noticing. -/
theorem not_decided_at_largest_bound :
    ¬ ∃ H, Decided H (healthyHost ((List.replicate (2 ^ 44) zeroChunk).map .data)) (sdb 0)
      "http://images/os.raw" abcDigest.display 0xffffffffffffffff := by
  rintro ⟨H, hdecided⟩
  have hlen := bodyBytes_replicate_length (2 ^ 44)
  have hcap : (effectiveMaxBytes 0xffffffffffffffff (sdb 0).sizeBytes).toNat = 2 ^ 64 - 1 := rfl
  generalize List.replicate (2 ^ 44) zeroChunk = chunks at hdecided hlen
  have hun := undisturbed_healthyHost chunks 0
  have hbody : (healthyHost (chunks.map .data)).body "http://images/os.raw" = bodyBytes (chunks.map .data) := rfl
  have hover := (hdecided.tooLarge hun).mpr (by simp [hbody, hlen, hcap, readBufBytes])
  rcases writeImage_cases H (healthyHost (chunks.map .data)) (sdb 0) "http://images/os.raw" abcDigest.display
    0xffffffffffffffff with ⟨hdis, _⟩ | ⟨d, node, resp, _, _, _, _, hr⟩
  · exact hdis hun
  · rw [hr, finish_image_iff] at hover
    exact streamVerify_ne_tooLarge H resp.body d _ hcap _ hover

end

end Beskar7Inspector.WriteImage
