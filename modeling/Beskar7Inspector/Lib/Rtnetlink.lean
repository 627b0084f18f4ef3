import Beskar7Inspector.Lib.LittleEndian
import Mathlib.Data.List.Basic

namespace Beskar7Inspector.Lib.Rtnetlink

open LittleEndian

abbrev Bytes := List UInt8

/-- What stands before the attributes of a request, by its type. -/
inductive Body
  | link (family : UInt8) (device : UInt16) (index flags change : UInt32)
  | address (family prefixLen flags scope : UInt8) (index : UInt32)
  | route (family dstLen srcLen tos table protocol scope type : UInt8) (flags : UInt32)
  deriving DecidableEq

/-- A request, of which the attributes are pairs of a type and a payload. -/
structure Message where
  flags : UInt16
  seq : UInt32
  pid : UInt32
  body : Body
  attrs : List (UInt16 × Bytes)
  deriving DecidableEq

/-- The next multiple of four. -/
def aligned (n : Nat) : Nat := (n + 3) / 4 * 4

/-- The length covers the header and the payload, not the padding. -/
def encodeAttr (attr : UInt16 × Bytes) : Bytes :=
  encode 2 (4 + attr.2.length) ++ encode 2 attr.1.toNat ++ attr.2 ++
    List.replicate (aligned attr.2.length - attr.2.length) 0

def Body.type : Body → Nat
  | .link .. => 16
  | .address .. => 20
  | .route .. => 24

def Body.encode : Body → Bytes
  | .link family device index flags change => [family, 0] ++ LittleEndian.encode 2 device.toNat ++
      LittleEndian.encode 4 index.toNat ++ LittleEndian.encode 4 flags.toNat ++ LittleEndian.encode 4 change.toNat
  | .address family prefixLen flags scope index =>
      [family, prefixLen, flags, scope] ++ LittleEndian.encode 4 index.toNat
  | .route family dstLen srcLen tos table protocol scope type flags =>
      [family, dstLen, srcLen, tos, table, protocol, scope, type] ++ LittleEndian.encode 4 flags.toNat

/-- A message behind its header, of which the length covers both. -/
def frame (type : Nat) (flags : UInt16) (seq pid : UInt32) (rest : Bytes) : Bytes :=
  encode 4 (16 + rest.length) ++ encode 2 type ++ encode 2 flags.toNat ++ encode 4 seq.toNat ++ encode 4 pid.toNat ++ rest

def Message.encode (m : Message) : Bytes :=
  frame m.body.type m.flags m.seq m.pid (m.body.encode ++ m.attrs.flatMap encodeAttr)

/-! Reading, which fails on what is cut off. -/

def readAttrs : Nat → Bytes → Option (List (UInt16 × Bytes))
  | _, [] => some []
  | 0, _ => none
  | fuel + 1, bs => do
      let (len, rest) ← split 2 bs
      let (type, rest) ← split 2 rest
      let (payload, _) ← split (decode len - 4) rest
      let (_, next) ← split (aligned (decode len)) bs
      if decode len < 4 then none
      else return (UInt16.ofNat (decode type), payload) :: (← readAttrs fuel next)

def word (bs : Bytes) : UInt32 := UInt32.ofNat (decode bs)

def readLink : Bytes → Option Body
  | [family, _, d0, d1, i0, i1, i2, i3, f0, f1, f2, f3, c0, c1, c2, c3] => some (.link family
      (UInt16.ofNat (decode [d0, d1])) (word [i0, i1, i2, i3]) (word [f0, f1, f2, f3]) (word [c0, c1, c2, c3]))
  | _ => none

def readAddress : Bytes → Option Body
  | [family, prefixLen, flags, scope, i0, i1, i2, i3] =>
      some (.address family prefixLen flags scope (word [i0, i1, i2, i3]))
  | _ => none

def readRoute : Bytes → Option Body
  | [family, dstLen, srcLen, tos, table, protocol, scope, type, f0, f1, f2, f3] =>
      some (.route family dstLen srcLen tos table protocol scope type (word [f0, f1, f2, f3]))
  | _ => none

/-- The length of what stands before the attributes, and its reading, by the type of the message. -/
def bodyOf : Nat → Option (Nat × (Bytes → Option Body))
  | 16 => some (16, readLink)
  | 20 => some (8, readAddress)
  | 24 => some (12, readRoute)
  | _ => none

/-- A datagram with one request in it, and nothing else. -/
def readMessage (bs : Bytes) : Option Message := do
  let (len, rest) ← split 4 bs
  let (type, rest) ← split 2 rest
  let (flags, rest) ← split 2 rest
  let (seq, rest) ← split 4 rest
  let (pid, rest) ← split 4 rest
  if decode len ≠ bs.length then none
  else
    let (n, read) ← bodyOf (decode type)
    let (body, rest) ← split n rest
    return ⟨UInt16.ofNat (decode flags), word seq, word pid, ← read body, ← readAttrs rest.length rest⟩

theorem aligned_ge (n : Nat) : n ≤ aligned n := by
  rw [aligned]
  omega

theorem aligned_add_four (n : Nat) : aligned (4 + n) = 4 + aligned n := by
  rw [aligned, aligned]
  omega

theorem length_encodeAttr (attr : UInt16 × Bytes) : (encodeAttr attr).length = 4 + aligned attr.2.length := by
  have := aligned_ge attr.2.length
  simp only [encodeAttr, List.length_append, encode_length, List.length_replicate]
  omega

theorem word_encode (n : UInt32) : word (encode 4 n.toNat) = n := by
  rw [word, decode_encode n.toNat_lt, UInt32.ofNat_toNat]

/-- Attributes are read as they were written, whatever length they have. -/
theorem readAttrs_encode {attrs : List (UInt16 × Bytes)} (h : ∀ a ∈ attrs, 4 + a.2.length < 2 ^ 16) {fuel : Nat}
    (hfuel : attrs.length ≤ fuel) : readAttrs fuel (attrs.flatMap encodeAttr) = some attrs := by
  induction attrs generalizing fuel with
  | nil => cases fuel <;> rfl
  | cons attr attrs ih =>
      rw [List.forall_mem_cons] at h
      obtain ⟨hlen, hattrs⟩ := h
      cases fuel with
      | zero => exact absurd hfuel (by simp)
      | succ fuel =>
          have hrest := ih hattrs (by simpa using hfuel)
          have hbytes : (attr :: attrs).flatMap encodeAttr = encode 2 (4 + attr.2.length) ++ (encode 2 attr.1.toNat ++
              (attr.2 ++ (List.replicate (aligned attr.2.length - attr.2.length) 0 ++ attrs.flatMap encodeAttr))) := by
            simp only [List.flatMap_cons, encodeAttr, List.append_assoc]
          have hdecode : decode (encode 2 (4 + attr.2.length)) = 4 + attr.2.length := decode_encode (by omega)
          have hnext : split (aligned (4 + attr.2.length)) ((attr :: attrs).flatMap encodeAttr) =
              some (encodeAttr attr, attrs.flatMap encodeAttr) := by
            rw [List.flatMap_cons, aligned_add_four]
            exact split_append (length_encodeAttr attr) _
          have htype : UInt16.ofNat (decode (encode 2 attr.1.toNat)) = attr.1 := by
            rw [decode_encode_unit, UInt16.ofNat_toNat]
          have hne : (attr :: attrs).flatMap encodeAttr ≠ [] := by
            intro hnil
            rw [hbytes] at hnil
            cases hnil
          rw [readAttrs.eq_3 _ _ hne, hbytes]
          simp only [split_append (encode_length _ _), Option.bind_eq_bind, Option.bind_some, hdecode,
            Nat.add_sub_cancel_left, split_append rfl]
          rw [← hbytes, hnext, Option.bind_some, if_neg (by omega), hrest, htype]
          rfl

theorem bodyOf_type (b : Body) : ∃ n read, bodyOf b.type = some (n, read) ∧ b.encode.length = n ∧ read b.encode = some b := by
  cases b with
  | link family device index flags change =>
      refine ⟨16, readLink, rfl, rfl, ?_⟩
      have hdevice : UInt16.ofNat (decode (encode 2 device.toNat)) = device := by
        rw [decode_encode_unit, UInt16.ofNat_toNat]
      change some (Body.link family (UInt16.ofNat (decode (encode 2 device.toNat))) (word (encode 4 index.toNat))
        (word (encode 4 flags.toNat)) (word (encode 4 change.toNat))) = _
      rw [hdevice, word_encode, word_encode, word_encode]
  | address family prefixLen flags scope index =>
      refine ⟨8, readAddress, rfl, rfl, ?_⟩
      change some (Body.address family prefixLen flags scope (word (encode 4 index.toNat))) = _
      rw [word_encode]
  | route family dstLen srcLen tos table protocol scope type flags =>
      refine ⟨12, readRoute, rfl, rfl, ?_⟩
      change some (Body.route family dstLen srcLen tos table protocol scope type (word (encode 4 flags.toNat))) = _
      rw [word_encode]

theorem length_frame (type : Nat) (flags : UInt16) (seq pid : UInt32) (rest : Bytes) :
    (frame type flags seq pid rest).length = 16 + rest.length := by
  simp only [frame, List.length_append, encode_length]

theorem length_le_flatMap (attrs : List (UInt16 × Bytes)) : attrs.length ≤ (attrs.flatMap encodeAttr).length := by
  induction attrs with
  | nil => exact Nat.le_refl 0
  | cons attr attrs ih =>
      rw [List.flatMap_cons, List.length_append, length_encodeAttr, List.length_cons]
      omega

/-- A message is read as it was written. -/
theorem readMessage_encode {m : Message} (hattrs : ∀ a ∈ m.attrs, 4 + a.2.length < 2 ^ 16)
    (hlen : m.encode.length < 2 ^ 32) : readMessage m.encode = some m := by
  obtain ⟨n, read, hbody, hn, hread⟩ := bodyOf_type m.body
  have htype : decode (encode 2 m.body.type) = m.body.type := by
    refine decode_encode ?_
    cases m.body <;> simp [Body.type]
  have hflags : UInt16.ofNat (decode (encode 2 m.flags.toNat)) = m.flags := by
    rw [decode_encode_unit, UInt16.ofNat_toNat]
  rw [Message.encode, length_frame] at hlen
  rw [readMessage, Message.encode, length_frame]
  simp only [frame, List.append_assoc, split_append (encode_length _ _), Option.bind_eq_bind, Option.bind_some]
  rw [decode_encode hlen, if_neg (not_not.mpr rfl), htype, hbody, Option.bind_some, split_append hn, Option.bind_some]
  dsimp only
  rw [hread, Option.bind_some, readAttrs_encode hattrs (length_le_flatMap _), Option.bind_some, hflags, word_encode,
    word_encode]
  rfl

end Beskar7Inspector.Lib.Rtnetlink
