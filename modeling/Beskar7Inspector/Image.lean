import Beskar7Inspector.Lib.Text
import Beskar7Inspector.Lib.Os

namespace Beskar7Inspector.Image

open Lib.Text Lib.Os

def defaultMaxImageBytes : UInt64 := 16 * 1024 * 1024 * 1024

def readBufBytes : Nat := 1024 * 1024

structure Sha256Digest where
  bytes : List UInt8
  size : bytes.length = 32
  deriving DecidableEq

def hexNibble (b : UInt8) : Option UInt8 :=
  if 48 ≤ b ∧ b ≤ 57 then some (b - 48)
  else if 97 ≤ b ∧ b ≤ 102 then some (b - 97 + 10)
  else none

/-- Two hex digits at a time; an odd one at the end is not looked at. -/
def hexPairs : List UInt8 → Option (List UInt8)
  | hi :: lo :: rest => do
      let h ← hexNibble hi
      let l ← hexNibble lo
      let bytes ← hexPairs rest
      some ((h <<< 4 ||| l) :: bytes)
  | _ => some []

theorem hexPairs_length : ∀ (bs out : List UInt8), hexPairs bs = some out → out.length = bs.length / 2
  | [], out, h => by
      cases h
      rfl
  | [b], out, h => by
      cases h
      simp
  | hi :: lo :: rest, out, h => by
      simp only [hexPairs, Option.bind_eq_bind, Option.bind_eq_some_iff, Option.some.injEq] at h
      obtain ⟨x, _, y, _, bytes, hb, rfl⟩ := h
      have ih := hexPairs_length rest bytes hb
      simp only [List.length_cons]
      omega

inductive ImageError
  | invalidDigestFormat
  | unsupportedScheme
  | http (status : Nat)
  | transport (kind : String)
  | tooLarge (maxBytes : UInt64)
  | read (source : IoError)
  | write (source : IoError)
  | digestMismatch (expected computed : String)
  deriving DecidableEq, Repr

def Sha256Digest.parse (s : String) : Except ImageError Sha256Digest :=
  match stripPrefix "sha256:" s with
  | none => .error .invalidDigestFormat
  | some hex =>
      if hlen : (utf8 hex).length ≠ 64 then .error .invalidDigestFormat
      else match hp : hexPairs (utf8 hex) with
        | none => .error .invalidDigestFormat
        | some bytes => .ok ⟨bytes, by rw [hexPairs_length _ _ hp]; omega⟩

def hexDigit (n : UInt8) : Char := if n < 10 then Char.ofNat (48 + n.toNat) else Char.ofNat (87 + n.toNat)

def hexByte (b : UInt8) : List Char := [hexDigit (b >>> 4), hexDigit (b &&& 15)]

def Sha256Digest.display (d : Sha256Digest) : String :=
  "sha256:" ++ String.ofList (d.bytes.flatMap hexByte)

/-- SHA-256 as the sha2 crate provides it, with the one law the code rests on:
updates hash the concatenation of what they were given. -/
structure Sha256 where
  State : Type
  new : State
  update : State → List UInt8 → State
  finalize : State → Sha256Digest
  hash : List UInt8 → Sha256Digest
  finalize_updates : ∀ chunks : List (List UInt8), finalize (chunks.foldl update new) = hash chunks.flatten

/-- The implementation that keeps everything it was given and hashes at the end. -/
def Sha256.buffered (hash : List UInt8 → Sha256Digest) : Sha256 where
  State := List UInt8
  new := []
  update := (· ++ ·)
  finalize := hash
  hash := hash
  finalize_updates chunks := by
    have hfold : ∀ (cs : List (List UInt8)) (s : List UInt8), cs.foldl (· ++ ·) s = s ++ cs.flatten := by
      intro cs
      induction cs with
      | nil => simp
      | cons c cs ih => simp [ih]
    rw [hfold, List.nil_append]

/-- What one read of the response body gives at most: a read of zero bytes is
the end of the body, and no read gives more than the buffer holds. -/
structure Chunk where
  bytes : List UInt8
  nonempty : bytes ≠ []
  fits : bytes.length ≤ readBufBytes

inductive BodyEvent
  | data (c : Chunk)
  | error (e : IoError)

/-- The whole body, however it is delivered. -/
def bodyBytes : List BodyEvent → List UInt8
  | [] => []
  | .data c :: events => c.bytes ++ bodyBytes events
  | .error _ :: events => bodyBytes events

/-- A write that fails after the device took some of its bytes. -/
structure WriteFault where
  error : IoError
  accepted : Nat

/-- The sink of a streamed image: what the device took so far, the faults of the
writes still to come, and that of the flush. -/
structure Sink where
  written : List UInt8
  faults : List (Option WriteFault)
  flushFault : Option IoError

def Sink.writeAll (k : Sink) (bytes : List UInt8) : Except IoError Unit × Sink :=
  match k.faults with
  | [] => (.ok (), { k with written := k.written ++ bytes })
  | none :: rest => (.ok (), { k with written := k.written ++ bytes, faults := rest })
  | some f :: rest => (.error f.error, { k with written := k.written ++ bytes.take f.accepted, faults := rest })

def Sink.flush (k : Sink) : Except IoError Unit :=
  match k.flushFault with
  | none => .ok ()
  | some e => .error e

def saturatingSucc (n : UInt64) : Nat := min (n.toNat + 1) (2 ^ 64 - 1)

/-- The read and write loop. `limit` is what the bounded reader may still give:
once it is used up, reads report the end of the body. -/
def streamLoop (H : Sha256) (maxBytes : UInt64) : List BodyEvent → Nat → Nat → H.State → Sink →
    Except ImageError (Nat × H.State) × Sink
  | [], _, total, hasher, sink => (.ok (total, hasher), sink)
  | .error e :: _, limit, total, hasher, sink =>
      if limit = 0 then (.ok (total, hasher), sink) else (.error (.read e), sink)
  | .data c :: events, limit, total, hasher, sink =>
      if limit = 0 then (.ok (total, hasher), sink)
      else
        let chunk := c.bytes.take limit
        let total := total + chunk.length
        if maxBytes.toNat < total then (.error (.tooLarge maxBytes), sink)
        else match sink.writeAll chunk with
          | (.error e, sink) => (.error (.write e), sink)
          | (.ok (), sink) =>
              streamLoop H maxBytes events (limit - chunk.length) total (H.update hasher chunk) sink

def streamVerify (H : Sha256) (events : List BodyEvent) (expected : Sha256Digest) (maxBytes : UInt64)
    (sink : Sink) : Except ImageError Nat × Sink :=
  match streamLoop H maxBytes events (saturatingSucc maxBytes) 0 H.new sink with
  | (.error e, sink) => (.error e, sink)
  | (.ok (total, hasher), sink) => match sink.flush with
      | .error e => (.error (.write e), sink)
      | .ok () =>
          let computed := H.finalize hasher
          if computed ≠ expected then
            (.error (.digestMismatch expected.display computed.display), sink)
          else (.ok total, sink)

/-- The scheme of a URL: what stands before the first `://`. -/
def splitScheme : List Char → Option (List Char)
  | ':' :: '/' :: '/' :: _ => some []
  | c :: cs => (splitScheme cs).map (c :: ·)
  | [] => none

def validateImageScheme (url : String) : Except ImageError Unit :=
  match splitScheme url.toList with
  | some scheme =>
      if scheme.map Char.toLower = "http".toList ∨ scheme.map Char.toLower = "https".toList then .ok ()
      else .error .unsupportedScheme
  | none => .error .unsupportedScheme

structure Response where
  status : Nat
  body : List BodyEvent

/-- Fetch `url` and stream it to `sink`; `answer` is what the server gives. -/
def fetchTo (H : Sha256) (answer : String → Except String Response) (url : String) (expected : Sha256Digest)
    (maxBytes : UInt64) (sink : Sink) : Except ImageError Nat × Sink :=
  match validateImageScheme url with
  | .error e => (.error e, sink)
  | .ok () => match answer url with
      | .error kind => (.error (.transport kind), sink)
      | .ok resp =>
          if ¬ (200 ≤ resp.status ∧ resp.status < 300) then (.error (.http resp.status), sink)
          else streamVerify H resp.body expected maxBytes sink

/-! What the loop does, for any delivery of the body. -/

theorem Sink.writeAll_written (k : Sink) (bytes : List UInt8) :
    ∃ taken, taken <+: bytes ∧ (k.writeAll bytes).2.written = k.written ++ taken ∧
      (k.writeAll bytes).2.flushFault = k.flushFault ∧ ((k.writeAll bytes).1 = .ok () → taken = bytes) := by
  rw [Sink.writeAll]
  split
  · exact ⟨bytes, List.prefix_refl _, rfl, rfl, fun _ => rfl⟩
  · exact ⟨bytes, List.prefix_refl _, rfl, rfl, fun _ => rfl⟩
  · exact ⟨_, List.take_prefix _ _, rfl, rfl, nofun⟩

theorem le_saturatingSucc (n : UInt64) : n.toNat ≤ saturatingSucc n := by
  have h := n.toNat_lt
  rw [saturatingSucc]
  omega

/-- Every outcome of the loop: what reached the device is a prefix of the body
within the bound; a loop that ends well took the whole body, or all the bounded
reader may give; one that stops at the bound was given more than it allows. -/
structure LoopOutcome (H : Sha256) (maxBytes : UInt64) (body : List UInt8) (total : Nat) (hasher : H.State)
    (before : Sink) (r : Except ImageError (Nat × H.State) × Sink) (taken : List UInt8) : Prop where
  written : r.2.written = before.written ++ taken
  flushFault : r.2.flushFault = before.flushFault
  isPrefix : taken <+: body
  bounded : total + taken.length ≤ maxBytes.toNat
  ended : ∀ t h, r.1 = .ok (t, h) → t = total + taken.length ∧
    (∃ chunks : List (List UInt8), taken = chunks.flatten ∧ h = chunks.foldl H.update hasher) ∧
    (taken = body ∨ t = saturatingSucc maxBytes)
  tooLarge : ∀ m, r.1 = .error (.tooLarge m) → m = maxBytes ∧ maxBytes.toNat < total + body.length

/-- One more chunk in front. A chunk that the bounded reader cuts short uses up
the limit, so that nothing comes after it. -/
theorem LoopOutcome.cons {H : Sha256} {maxBytes : UInt64} {bytes body rest put : List UInt8} {limit total : Nat}
    {hasher : H.State} {before sink : Sink} {r : Except ImageError (Nat × H.State) × Sink}
    (hr : LoopOutcome H maxBytes body (total + (bytes.take limit).length) (H.update hasher (bytes.take limit))
      sink r rest)
    (hwritten : sink.written = before.written ++ put) (hflush : sink.flushFault = before.flushFault)
    (hput : put = bytes.take limit) (hlimit : limit + total = saturatingSucc maxBytes) :
    LoopOutcome H maxBytes (bytes ++ body) total hasher before r (bytes.take limit ++ rest) := by
  have hmax := le_saturatingSucc maxBytes
  have hbounded := hr.bounded
  have hshort : bytes.take limit = bytes ∨ (rest = [] ∧ total + (bytes.take limit).length = saturatingSucc maxBytes) := by
    by_cases hb : bytes.length ≤ limit
    · exact .inl (List.take_of_length_le hb)
    · have hlen : (bytes.take limit).length = limit := by
        rw [List.length_take]
        omega
      exact .inr ⟨List.eq_nil_of_length_eq_zero (by omega), by omega⟩
  refine ⟨?_, hr.flushFault.trans hflush, ?_, ?_, ?_, ?_⟩
  · rw [hr.written, hwritten, hput, List.append_assoc]
  · rcases hshort with he | ⟨hnil, _⟩
    · rw [he]
      exact (List.prefix_append_right_inj _).mpr hr.isPrefix
    · rw [hnil, List.append_nil]
      exact (List.take_prefix _ _).trans (List.prefix_append _ _)
  · rw [List.length_append]
    omega
  · intro t h he
    obtain ⟨ht, ⟨chunks, hc, hh⟩, hend⟩ := hr.ended t h he
    refine ⟨by rw [ht, List.length_append]; omega, ⟨bytes.take limit :: chunks, ?_, ?_⟩, ?_⟩
    · rw [hc, List.flatten_cons]
    · rw [hh, List.foldl_cons]
    · rcases hshort with he | ⟨hnil, hfull⟩
      · rw [he]
        exact hend.imp_left (fun h : rest = body => by rw [h])
      · rw [ht, hnil]
        exact .inr (by simpa using hfull)
  · intro m he
    obtain ⟨hm, hlt⟩ := hr.tooLarge m he
    have hlen := List.length_take_le' limit bytes
    refine ⟨hm, ?_⟩
    rw [List.length_append]
    omega

theorem streamLoop_outcome (H : Sha256) (maxBytes : UInt64) (events : List BodyEvent) (limit total : Nat)
    (hasher : H.State) (sink : Sink) (hlimit : limit + total = saturatingSucc maxBytes)
    (htotal : total ≤ maxBytes.toNat) :
    ∃ taken, LoopOutcome H maxBytes (bodyBytes events) total hasher sink
      (streamLoop H maxBytes events limit total hasher sink) taken := by
  induction events generalizing limit total hasher sink with
  | nil =>
      refine ⟨[], by simp [streamLoop], rfl, List.nil_prefix, by simpa using htotal, ?_, nofun⟩
      rintro t h ⟨⟩
      exact ⟨by simp, ⟨[], rfl, rfl⟩, .inl rfl⟩
  | cons event events ih =>
      by_cases hl : limit = 0
      · have hr : streamLoop H maxBytes (event :: events) limit total hasher sink = (.ok (total, hasher), sink) := by
          cases event <;> simp [streamLoop, hl]
        rw [hr]
        refine ⟨[], by simp, rfl, List.nil_prefix, by simpa using htotal, ?_, nofun⟩
        rintro t h ⟨⟩
        exact ⟨by simp, ⟨[], rfl, rfl⟩, .inr (by omega)⟩
      · cases event with
        | error e =>
            refine ⟨[], by simp [streamLoop, hl], by simp [streamLoop, hl], List.nil_prefix,
              by simpa using htotal, ?_, ?_⟩ <;> simp [streamLoop, hl]
        | data c =>
            simp only [streamLoop, if_neg hl, bodyBytes]
            split
            · rename_i hover
              refine ⟨[], by simp, rfl, List.nil_prefix, by simpa using htotal, nofun, ?_⟩
              rintro m ⟨⟩
              refine ⟨rfl, ?_⟩
              have := List.length_take_le limit c.bytes
              have := List.length_take_le' limit c.bytes
              simp only [List.length_append]
              omega
            · rename_i hfit
              obtain ⟨put, hput, hwritten, hflush, hall⟩ := sink.writeAll_written (c.bytes.take limit)
              have hlen := List.length_take_le limit c.bytes
              cases hw : sink.writeAll (c.bytes.take limit) with
              | mk res sink' =>
                  rw [hw] at hwritten hflush hall
                  cases res with
                  | error e =>
                      have hputlen := hput.length_le
                      refine ⟨put, hwritten, hflush, ?_, by omega, nofun, nofun⟩
                      exact (hput.trans (List.take_prefix _ _)).trans (List.prefix_append _ _)
                  | ok u =>
                      obtain ⟨rest, hr⟩ := ih (limit - (c.bytes.take limit).length)
                        (total + (c.bytes.take limit).length) (H.update hasher (c.bytes.take limit)) sink'
                        (by omega) (by omega)
                      have hput' : put = c.bytes.take limit := hall rfl
                      exact ⟨_, hr.cons hwritten hflush hput' hlimit⟩

theorem streamLoop_undisturbed (H : Sha256) (maxBytes : UInt64) (events : List BodyEvent) (limit total : Nat)
    (hasher : H.State) (sink : Sink) (hread : ∀ event ∈ events, ∃ c, event = .data c)
    (hsink : ∀ fault ∈ sink.faults, fault = none) :
    (∃ r, (streamLoop H maxBytes events limit total hasher sink).1 = .ok r) ∨
      (streamLoop H maxBytes events limit total hasher sink).1 = .error (.tooLarge maxBytes) := by
  induction events generalizing limit total hasher sink with
  | nil => exact .inl ⟨_, rfl⟩
  | cons event events ih =>
      obtain ⟨c, rfl⟩ := hread event (List.mem_cons_self ..)
      obtain ⟨sink', hw, hsink'⟩ : ∃ sink', sink.writeAll (c.bytes.take limit) = (.ok (), sink') ∧
          ∀ fault ∈ sink'.faults, fault = none := by
        rw [Sink.writeAll]
        split
        · exact ⟨_, rfl, hsink⟩
        · rename_i rest hf
          exact ⟨_, rfl, fun fault h => hsink fault (hf ▸ List.mem_cons_of_mem _ h)⟩
        · rename_i f rest hf
          cases hsink (some f) (hf ▸ List.mem_cons_self ..)
      simp only [streamLoop, hw]
      split
      · exact .inl ⟨_, rfl⟩
      · split
        · exact .inr rfl
        · exact ih _ _ _ _ (fun e he => hread e (List.mem_cons_of_mem _ he)) hsink'

/-- A bounded reader that ends at the bound hides that the body goes on. -/
theorem streamLoop_ne_tooLarge (H : Sha256) (maxBytes : UInt64) (events : List BodyEvent) (limit total : Nat)
    (hasher : H.State) (sink : Sink) (hlimit : limit + total ≤ maxBytes.toNat) (m : UInt64) :
    (streamLoop H maxBytes events limit total hasher sink).1 ≠ .error (.tooLarge m) := by
  induction events generalizing limit total hasher sink with
  | nil => nofun
  | cons event events ih =>
      cases event with
      | error e =>
          by_cases hl : limit = 0 <;> simp [streamLoop, hl]
      | data c =>
          have hlen := List.length_take_le limit c.bytes
          simp only [streamLoop]
          split
          · nofun
          · rw [if_neg (by omega)]
            cases hw : sink.writeAll (c.bytes.take limit) with
            | mk res sink' =>
                cases res with
                | error e => nofun
                | ok u => exact ih _ _ _ _ (by omega)

theorem streamVerify_ne_tooLarge (H : Sha256) (events : List BodyEvent) (expected : Sha256Digest)
    {maxBytes : UInt64} (sink : Sink) (hmax : maxBytes.toNat = 2 ^ 64 - 1) (m : UInt64) :
    (streamVerify H events expected maxBytes sink).1 ≠ .error (.tooLarge m) := by
  have hloop := streamLoop_ne_tooLarge H maxBytes events (saturatingSucc maxBytes) 0 H.new sink
    (by rw [saturatingSucc]; omega) m
  rw [streamVerify]
  split
  · rename_i e sink' hr
    intro he
    rw [hr] at hloop
    cases he
    exact hloop rfl
  · split
    · nofun
    · dsimp only
      split <;> nofun

/-- What a fetch leaves on the device, and what a verified one says about it. -/
structure VerifyOutcome (H : Sha256) (maxBytes : UInt64) (body : List UInt8) (expected : Sha256Digest)
    (before : Sink) (r : Except ImageError Nat × Sink) (taken : List UInt8) : Prop where
  written : r.2.written = before.written ++ taken
  isPrefix : taken <+: body
  bounded : taken.length ≤ maxBytes.toNat
  verified : ∀ n, r.1 = .ok n → n = taken.length ∧ H.hash taken = expected ∧
    (taken = body ∨ taken.length = saturatingSucc maxBytes)

theorem streamVerify_outcome (H : Sha256) (events : List BodyEvent) (expected : Sha256Digest)
    (maxBytes : UInt64) (sink : Sink) :
    ∃ taken, VerifyOutcome H maxBytes (bodyBytes events) expected sink
      (streamVerify H events expected maxBytes sink) taken := by
  obtain ⟨taken, hloop⟩ := streamLoop_outcome H maxBytes events (saturatingSucc maxBytes) 0 H.new sink
    rfl (Nat.zero_le _)
  have hbounded := hloop.bounded
  have hwritten := hloop.written
  have hended := hloop.ended
  refine ⟨taken, ?_, hloop.isPrefix, by omega, ?_⟩
  · rw [streamVerify]
    split
    · rename_i hr
      rwa [hr] at hwritten
    · rename_i hr
      rw [hr] at hwritten
      split
      · exact hwritten
      · dsimp only
        split <;> exact hwritten
  · intro n hn
    rw [streamVerify] at hn
    split at hn
    · cases hn
    · rename_i total hasher sink' hr
      obtain ⟨ht, ⟨chunks, hc, hh⟩, hend⟩ := hended total hasher (by rw [hr])
      split at hn
      · cases hn
      · dsimp only at hn
        split at hn
        · cases hn
        · rename_i heq
          cases hn
          rw [Nat.zero_add] at ht
          refine ⟨ht, ?_, ht ▸ hend⟩
          rw [← not_not.mp heq, hh, hc, H.finalize_updates]

/-- A prefix of the body as long as the bounded reader allows is the body, when
the bound is below the largest one or the body is. -/
theorem eq_of_prefix_of_full {maxBytes : UInt64} {taken body : List UInt8} (hp : taken <+: body)
    (hle : taken.length ≤ maxBytes.toNat) (hsize : maxBytes.toNat < 2 ^ 64 - 1 ∨ body.length < 2 ^ 64)
    (h : taken = body ∨ taken.length = saturatingSucc maxBytes) : taken = body := by
  rcases h with h | h
  · exact h
  · have hmax := maxBytes.toNat_lt
    have hlen := hp.length_le
    rw [saturatingSucc] at h
    exact hp.eq_of_length (by omega)

/-- The result of an undisturbed fetch, by the body alone. -/
theorem streamVerify_undisturbed (H : Sha256) (events : List BodyEvent) (expected : Sha256Digest)
    (maxBytes : UInt64) (sink : Sink) (hread : ∀ event ∈ events, ∃ c, event = .data c)
    (hsink : ∀ fault ∈ sink.faults, fault = none) (hflush : sink.flushFault = none)
    (hsize : maxBytes.toNat < 2 ^ 64 - 1 ∨ (bodyBytes events).length < 2 ^ 64) :
    (streamVerify H events expected maxBytes sink).1 =
      if maxBytes.toNat < (bodyBytes events).length then .error (.tooLarge maxBytes)
      else if H.hash (bodyBytes events) = expected then .ok (bodyBytes events).length
      else .error (.digestMismatch expected.display (H.hash (bodyBytes events)).display) := by
  obtain ⟨taken, hloop⟩ := streamLoop_outcome H maxBytes events (saturatingSucc maxBytes) 0 H.new sink
    rfl (Nat.zero_le _)
  have hbounded := hloop.bounded
  have hflushed := hloop.flushFault
  have hended := hloop.ended
  have hover := hloop.tooLarge
  rw [Nat.zero_add] at hbounded
  rw [streamVerify]
  cases hs : streamLoop H maxBytes events (saturatingSucc maxBytes) 0 H.new sink with
  | mk res sink' =>
      rw [hs] at hflushed hended hover
      rcases streamLoop_undisturbed H maxBytes events (saturatingSucc maxBytes) 0 H.new sink hread hsink with
        ⟨⟨total, hasher⟩, hr⟩ | hr
      · rw [hs] at hr
        cases hr
        obtain ⟨ht, ⟨chunks, hc, hh⟩, hend⟩ := hended total hasher rfl
        rw [Nat.zero_add] at ht
        have hbody := eq_of_prefix_of_full hloop.isPrefix hbounded hsize (ht ▸ hend)
        have hhash : H.finalize hasher = H.hash (bodyBytes events) := by
          rw [hh, H.finalize_updates, ← hc, hbody]
        have hk : sink'.flush = .ok () := by
          rw [Sink.flush, hflushed, hflush]
        rw [if_neg (by rw [← hbody]; omega)]
        simp only [hk, hhash, ht, hbody]
        by_cases he : H.hash (bodyBytes events) = expected <;> simp [he]
      · rw [hs] at hr
        cases hr
        obtain ⟨_, hlt⟩ := hover maxBytes rfl
        rw [if_pos (by omega)]

end Beskar7Inspector.Image
