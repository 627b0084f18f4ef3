import Beskar7Inspector.Dhcp
import Beskar7Inspector.Lib.Slices
import Mathlib.Data.List.Induction

namespace Beskar7Inspector.DhcpOptions

open Lib.LittleEndian Lib.Slices Net Dhcp

/-! The parser as it reads the buffer, by index. `none` is an index out of range,
or a loop that did not come to its end within `fuel` rounds. -/

def ip4At (b : List UInt8) : Option Ipv4Addr :=
  match b[0]?, b[1]?, b[2]?, b[3]? with
  | some x, some y, some z, some w => some ⟨x, y, z, w⟩
  | _, _, _, _ => none

def setOptionAt (r : Reply) (code : UInt8) (len : Nat) (val : List UInt8) : Option Reply :=
  if code = OPT_MSG_TYPE ∧ 1 ≤ len then val[0]?.map fun b => { r with msgType := b }
  else if code = OPT_SERVER_ID ∧ 4 ≤ len then (ip4At val).map fun ip => { r with serverId := some ip }
  else if code = OPT_SUBNET_MASK ∧ 4 ≤ len then (ip4At val).map fun ip => { r with mask := some ip }
  else if code = OPT_ROUTER ∧ 4 ≤ len then (ip4At val).map fun ip => { r with router := some ip }
  else if code = OPT_DNS then
    ((chunksExact 4 val).mapM ip4At).map fun ips => { r with dns := r.dns ++ ips }
  else some r

def optionLoop (buf : List UInt8) : Nat → Nat → Reply → Option Reply
  | 0, _, _ => none
  | fuel + 1, i, r =>
      if i < buf.length then
        match buf[i]? with
        | none => none
        | some code =>
            if code = OPT_PAD then optionLoop buf fuel (i + 1) r
            else if code = OPT_END then some r
            else if buf.length ≤ i + 1 then some r
            else match buf[i + 1]? with
              | none => none
              | some len =>
                  if buf.length < i + 2 + len.toNat then some r
                  else match slice buf (i + 2) (i + 2 + len.toNat) with
                    | none => none
                    | some val => match setOptionAt r code len.toNat val with
                        | none => none
                        | some r => optionLoop buf fuel (i + 2 + len.toNat) r
      else some r

def parseReplyAt (buf : List UInt8) (xid : UInt32) : Option (Option Reply) :=
  if buf.length < COOKIE_OFFSET + 4 then some none
  else match buf[0]?, slice buf XID_OFFSET (XID_OFFSET + 4), slice buf COOKIE_OFFSET (COOKIE_OFFSET + 4) with
    | some op, some id, some cookie =>
        if op ≠ OP_REPLY ∨ decode id.reverse ≠ xid.toNat ∨ cookie ≠ MAGIC then some none
        else match (slice buf YIADDR_OFFSET (YIADDR_OFFSET + 4)).bind ip4At with
          | none => none
          | some yiaddr =>
              match optionLoop buf buf.length (COOKIE_OFFSET + 4) ⟨0, yiaddr, none, none, none, []⟩ with
              | none => none
              | some r => some (if r.msgType ≠ 0 then some r else none)
    | _, _, _ => none

theorem ip4At_eq (b : List UInt8) : ip4At b = ip4 b := by
  match b with
  | [] => rfl
  | [_] => rfl
  | [_, _] => rfl
  | [_, _, _] => rfl
  | _ :: _ :: _ :: _ :: _ => rfl

theorem ip4_of_le {b : List UInt8} (h : 4 ≤ b.length) : ∃ ip, ip4 b = some ip := by
  match b, h with
  | x :: y :: z :: w :: _, _ => exact ⟨⟨x, y, z, w⟩, rfl⟩

theorem ip4_of_lt {b : List UInt8} (h : b.length < 4) : ip4 b = none := by
  match b, h with
  | [], _ => rfl
  | [_], _ => rfl
  | [_, _], _ => rfl
  | [_, _, _], _ => rfl

theorem ip4_take (b : List UInt8) : ip4 (b.take 4) = ip4 b := by
  match b with
  | [] | [_] | [_, _] | [_, _, _] => rfl
  | _ :: _ :: _ :: _ :: _ => rfl

theorem mapM_chunks : ∀ val : List UInt8, (chunksExact 4 val).mapM ip4At = some (ip4s val)
  | [] | [_] | [_, _] | [_, _, _] => by
      rw [chunksExact_short (by simp)]
      rfl
  | a :: b :: c :: d :: rest => by
      have hchunks : chunksExact 4 ([a, b, c, d] ++ rest) = [a, b, c, d] :: chunksExact 4 rest :=
        chunksExact_append (by omega) rfl
      change (chunksExact 4 ([a, b, c, d] ++ rest)).mapM ip4At = _
      rw [hchunks, List.mapM_cons, mapM_chunks rest]
      rfl

theorem setOptionAt_eq (r : Reply) (code : UInt8) (val : List UInt8) :
    setOptionAt r code val.length val = some (r.setOption (code, val)) := by
  have haddress : ∀ set : Ipv4Addr → Reply, 4 ≤ val.length →
      (ip4At val).map set = some (set ((ip4 val).getD ⟨0, 0, 0, 0⟩)) := by
    intro set hlong
    obtain ⟨ip, hip⟩ := ip4_of_le hlong
    rw [ip4At_eq, hip]
    rfl
  simp only [setOptionAt, Reply.setOption, mapM_chunks]
  by_cases hmsg : code = OPT_MSG_TYPE
  · cases val with
    | nil => simp [hmsg, OPT_MSG_TYPE, OPT_SERVER_ID, OPT_SUBNET_MASK, OPT_ROUTER, OPT_DNS]
    | cons b rest => simp [hmsg]
  · by_cases hlong : 4 ≤ val.length
    · obtain ⟨ip, hip⟩ := ip4_of_le hlong
      simp only [hmsg, hlong, haddress _ hlong, hip, false_and, and_true, if_false]
      grind
    · have hnone := ip4_of_lt (Nat.lt_of_not_le hlong)
      cases r
      simp only [hmsg, hlong, hnone, false_and, and_false, if_false, Option.none_or]
      grind [OPT_SERVER_ID, OPT_SUBNET_MASK, OPT_ROUTER, OPT_DNS]

/-- The loop by index is the reading of what is left of the buffer. -/
theorem optionLoop_eq {buf : List UInt8} {fuel i : Nat} {r : Reply} (hi : i ≤ buf.length)
    (hfuel : buf.length < i + fuel) :
    optionLoop buf fuel i r = some ((optionsFrom fuel (buf.drop i)).foldl Reply.setOption r) := by
  induction fuel generalizing i r with
  | zero => omega
  | succ fuel ih =>
      rw [optionLoop]
      cases hrest : buf.drop i with
      | nil =>
          have hend : buf.length ≤ i := List.drop_eq_nil_iff.mp hrest
          rw [if_neg (by omega)]
          rfl
      | cons code rest =>
          have hlt : i < buf.length := by
            have := congrArg List.length hrest
            rw [List.length_drop, List.length_cons] at this
            omega
          have hdrop : buf.drop (i + 1) = rest := drop_succ_of_drop hrest
          rw [if_pos hlt, getElem?_of_drop hrest]
          simp only [optionsFrom]
          by_cases hpad : code = OPT_PAD
          · rw [if_pos hpad, if_pos hpad, ih (by omega) (by omega), hdrop]
          · rw [if_neg hpad, if_neg hpad]
            by_cases hstop : code = OPT_END
            · rw [if_pos hstop, if_pos hstop]
              rfl
            · rw [if_neg hstop, if_neg hstop]
              cases hlen : rest with
              | nil =>
                  have hend : buf.length ≤ i + 1 := List.drop_eq_nil_iff.mp (hdrop.trans hlen)
                  rw [if_pos hend]
                  rfl
              | cons len more =>
                  have hnext : buf.drop (i + 1) = len :: more := hdrop.trans hlen
                  have hmore : buf.drop (i + 2) = more := drop_succ_of_drop hnext
                  have hcount : more.length + (i + 2) = buf.length := by
                    have := congrArg List.length hnext
                    rw [List.length_drop, List.length_cons] at this
                    omega
                  rw [if_neg (by omega), getElem?_of_drop hnext]
                  simp only
                  by_cases hfit : buf.length < i + 2 + len.toNat
                  · rw [if_pos hfit, if_pos (by omega)]
                    rfl
                  · have hval : (more.take len.toNat).length = len.toNat := by
                      rw [List.length_take]
                      omega
                    have hset := setOptionAt_eq r code (more.take len.toNat)
                    rw [hval] at hset
                    rw [if_neg hfit, if_neg (by omega), slice_of_le (by omega), hmore]
                    simp only [hset, List.foldl_cons]
                    rw [ih (by omega) (by omega), ← List.drop_drop, hmore]

theorem parseReplyAt_eq (buf : List UInt8) (xid : UInt32) : parseReplyAt buf xid = some (parseReply buf xid) := by
  rw [parseReplyAt, parseReply]
  by_cases hshort : buf.length < COOKIE_OFFSET + 4
  · rw [if_pos hshort, if_pos (.inl hshort)]
  · have hlong : COOKIE_OFFSET + 4 ≤ buf.length := Nat.le_of_not_lt hshort
    have hoffsets : XID_OFFSET + 4 ≤ COOKIE_OFFSET + 4 ∧ YIADDR_OFFSET + 4 ≤ COOKIE_OFFSET + 4 := by decide
    have hyiaddr : 4 ≤ (buf.drop YIADDR_OFFSET).length := by
      rw [List.length_drop]
      omega
    have hhead : ∃ op, buf[0]? = some op ∧ buf.head? = some op := by
      cases buf with
      | nil => simp at hlong
      | cons op rest => exact ⟨op, rfl, rfl⟩
    obtain ⟨op, hop, hhead⟩ := hhead
    obtain ⟨yiaddr, hip⟩ := ip4_of_le hyiaddr
    have htake : ip4At ((buf.drop YIADDR_OFFSET).take 4) = some yiaddr := by
      rw [ip4At_eq, ip4_take, hip]
    rw [if_neg hshort, slice_of_le (by omega), slice_of_le (by omega), slice_of_le (by omega), hop, hhead, hip]
    simp only [Option.bind_some, htake, Option.some.injEq, hshort, false_or, ne_eq]
    have hloop : optionLoop buf buf.length (COOKIE_OFFSET + 4) ⟨0, yiaddr, none, none, none, []⟩ = _ :=
      optionLoop_eq hlong (by rw [COOKIE_OFFSET]; omega)
    rw [hloop, options]
    by_cases hbad : op ≠ OP_REPLY ∨ decode ((buf.drop XID_OFFSET).take 4).reverse ≠ xid.toNat ∨
        (buf.drop COOKIE_OFFSET).take 4 ≠ MAGIC
    · rw [if_pos hbad]
      exact (congrArg some (if_pos hbad)).symm
    · rw [if_neg hbad]
      exact (congrArg some (if_neg hbad)).symm

/-! The options as they are meant to be read. -/

/-- Code, length and value, one item after the other, as far as the end mark or
the first item that does not fit. -/
inductive Reading : List UInt8 → List (UInt8 × List UInt8) → Prop
  | done : Reading [] []
  | pad {rest items} : Reading rest items → Reading (OPT_PAD :: rest) items
  | stop {rest} : Reading (OPT_END :: rest) []
  | item {code len val rest items} (hcode : code ≠ OPT_PAD ∧ code ≠ OPT_END) (hlen : len.toNat = val.length) :
      Reading rest items → Reading (code :: len :: (val ++ rest)) ((code, val) :: items)
  | cut {code rest} (hcode : code ≠ OPT_PAD ∧ code ≠ OPT_END)
      (hcut : ∀ len val more, rest = len :: (val ++ more) → len.toNat ≠ val.length) : Reading (code :: rest) []

theorem reading_optionsFrom {fuel : Nat} {bytes : List UInt8} (hfuel : bytes.length ≤ fuel) :
    Reading bytes (optionsFrom fuel bytes) := by
  induction fuel generalizing bytes with
  | zero =>
      rw [List.length_eq_zero_iff.mp (Nat.le_zero.mp hfuel)]
      exact .done
  | succ fuel ih =>
      cases bytes with
      | nil => exact .done
      | cons code rest =>
          rw [List.length_cons] at hfuel
          simp only [optionsFrom]
          by_cases hpad : code = OPT_PAD
          · rw [if_pos hpad, hpad]
            exact .pad (ih (by omega))
          · rw [if_neg hpad]
            by_cases hend : code = OPT_END
            · rw [if_pos hend, hend]
              exact .stop
            · rw [if_neg hend]
              cases rest with
              | nil =>
                  apply Reading.cut ⟨hpad, hend⟩
                  intro len val more h
                  cases h
              | cons len rest =>
                  by_cases hfit : rest.length < len.toNat
                  · simp only [hfit, if_true]
                    apply Reading.cut ⟨hpad, hend⟩
                    intro len' val more h
                    obtain ⟨rfl, rfl⟩ := List.cons.inj h
                    rw [List.length_append] at hfit
                    omega
                  · simp only [hfit, if_false]
                    have hlen : len.toNat = (rest.take len.toNat).length := by
                      rw [List.length_take]
                      omega
                    have hrest : (rest.drop len.toNat).length ≤ fuel := by
                      rw [List.length_drop]
                      rw [List.length_cons] at hfuel
                      omega
                    have hitem := Reading.item ⟨hpad, hend⟩ hlen (ih hrest)
                    rwa [List.take_append_drop] at hitem

theorem Reading.unique {bytes : List UInt8} {items items' : List (UInt8 × List UInt8)} (h : Reading bytes items)
    (h' : Reading bytes items') : items = items' := by
  induction h generalizing items' with
  | done =>
      cases h'
      rfl
  | pad _ ih =>
      cases h' with
      | pad h' => exact ih h'
      | item hcode _ _ => exact absurd rfl hcode.1
      | cut hcode _ => exact absurd rfl hcode.1
  | stop =>
      cases h' with
      | stop => rfl
      | item hcode _ _ => exact absurd rfl hcode.2
      | cut hcode _ => rfl
  | item hcode hlen hrest ih =>
      rename_i code len val rest items
      generalize hbytes : code :: len :: (val ++ rest) = bytes at h'
      cases h' with
      | done => cases hbytes
      | pad h' => exact absurd (List.cons.inj hbytes).1 hcode.1
      | stop => exact absurd (List.cons.inj hbytes).1 hcode.2
      | item _ hlen' h' =>
          obtain ⟨rfl, htail⟩ := List.cons.inj hbytes
          obtain ⟨rfl, hvalue⟩ := List.cons.inj htail
          obtain ⟨rfl, rfl⟩ := List.append_inj hvalue (hlen.symm.trans hlen')
          rw [ih h']
      | cut _ hcut =>
          obtain ⟨rfl, htail⟩ := List.cons.inj hbytes
          exact absurd hlen (hcut _ _ _ htail.symm)
  | cut hcode hcut =>
      rename_i code rest
      generalize hbytes : code :: rest = bytes at h'
      cases h' with
      | done => cases hbytes
      | pad h' => exact absurd (List.cons.inj hbytes).1 hcode.1
      | stop => rfl
      | item _ hlen h' => exact absurd hlen (hcut _ _ _ (List.cons.inj hbytes).2)
      | cut _ _ => rfl

/-- The value of the last item with the code that has `least` bytes or more. -/
def lastOf (code : UInt8) (least : Nat) (items : List (UInt8 × List UInt8)) : Option (List UInt8) :=
  ((items.filter (fun item => item.1 = code ∧ least ≤ item.2.length)).map Prod.snd).getLast?

theorem lastOf_concat (code : UInt8) (least : Nat) (items : List (UInt8 × List UInt8)) (item : UInt8 × List UInt8) :
    lastOf code least (items ++ [item]) =
      if item.1 = code ∧ least ≤ item.2.length then some item.2 else lastOf code least items := by
  rw [lastOf, List.filter_append, List.map_append]
  by_cases h : item.1 = code ∧ least ≤ item.2.length
  · rw [if_pos h, List.filter_cons_of_pos (by simpa using h)]
    simp
  · rw [if_neg h, List.filter_cons_of_neg (by simpa using h)]
    simp [lastOf]

/-- What a reply carries, by its items. -/
def carried (yiaddr : Ipv4Addr) (items : List (UInt8 × List UInt8)) : Reply where
  msgType := ((lastOf OPT_MSG_TYPE 1 items).bind List.head?).getD 0
  yiaddr := yiaddr
  serverId := (lastOf OPT_SERVER_ID 4 items).bind ip4
  mask := (lastOf OPT_SUBNET_MASK 4 items).bind ip4
  router := (lastOf OPT_ROUTER 4 items).bind ip4
  dns := (items.filter (fun item => item.1 = OPT_DNS)).flatMap (fun item => ip4s item.2)

/-- One more item changes what is carried as it changes the reply. -/
theorem carried_concat (yiaddr : Ipv4Addr) (items : List (UInt8 × List UInt8)) (item : UInt8 × List UInt8) :
    carried yiaddr (items ++ [item]) = (carried yiaddr items).setOption item := by
  obtain ⟨code, val⟩ := item
  simp only [carried, lastOf_concat, List.filter_append, List.flatMap_append, Reply.setOption]
  by_cases hmsg : code = OPT_MSG_TYPE
  · subst hmsg
    cases val with
    | nil => simp [OPT_MSG_TYPE, OPT_SERVER_ID, OPT_SUBNET_MASK, OPT_ROUTER, OPT_DNS]
    | cons b rest => simp [OPT_MSG_TYPE, OPT_SERVER_ID, OPT_SUBNET_MASK, OPT_ROUTER, OPT_DNS]
  · have hdns : ([(code, val)].filter (fun item => item.1 = OPT_DNS)).flatMap (fun item => ip4s item.2) =
        if code = OPT_DNS then ip4s val else [] := by
      by_cases h : code = OPT_DNS <;> simp [h]
    rw [hdns]
    by_cases hlong : 4 ≤ val.length
    · obtain ⟨ip, hip⟩ := ip4_of_le hlong
      simp only [hmsg, hlong, hip, and_true, false_and, if_false, Option.some_or]
      grind [OPT_SERVER_ID, OPT_SUBNET_MASK, OPT_ROUTER, OPT_DNS]
    · have hnone := ip4_of_lt (Nat.lt_of_not_le hlong)
      simp only [hmsg, hlong, hnone, and_false, false_and, if_false, Option.none_or]
      grind [OPT_SERVER_ID, OPT_SUBNET_MASK, OPT_ROUTER, OPT_DNS]

theorem foldl_setOption (yiaddr : Ipv4Addr) (items : List (UInt8 × List UInt8)) :
    items.foldl Reply.setOption ⟨0, yiaddr, none, none, none, []⟩ = carried yiaddr items := by
  induction items using List.reverseRecOn with
  | nil => rfl
  | append_singleton items item ih => rw [List.foldl_append, List.foldl_cons, List.foldl_nil, ih, carried_concat]

/-- A BOOTP reply with this transaction id and the magic cookie. -/
structure FixedArea (buf : List UInt8) (xid : UInt32) (yiaddr : Ipv4Addr) : Prop where
  long : COOKIE_OFFSET + 4 ≤ buf.length
  op : buf.head? = some OP_REPLY
  xid : decode ((buf.drop XID_OFFSET).take 4).reverse = xid.toNat
  cookie : (buf.drop COOKIE_OFFSET).take 4 = MAGIC
  yiaddr : (buf.drop YIADDR_OFFSET).take 4 = octets yiaddr

/-- The last message type that is not empty is not zero. -/
def HasType (items : List (UInt8 × List UInt8)) : Prop :=
  ∃ b rest, lastOf OPT_MSG_TYPE 1 items = some (b :: rest) ∧ b ≠ 0

theorem carried_msgType (yiaddr : Ipv4Addr) (items : List (UInt8 × List UInt8)) :
    (carried yiaddr items).msgType ≠ 0 ↔ HasType items := by
  rw [HasType]
  change ((lastOf OPT_MSG_TYPE 1 items).bind List.head?).getD 0 ≠ 0 ↔ _
  cases lastOf OPT_MSG_TYPE 1 items with
  | none => simp
  | some val =>
      cases val with
      | nil => simp
      | cons b rest => simp

theorem ip4_eq_some_iff {b : List UInt8} {ip : Ipv4Addr} : ip4 b = some ip ↔ b.take 4 = octets ip := by
  match b with
  | [] | [_] | [_, _] | [_, _, _] => simp [ip4, octets]
  | x :: y :: z :: w :: _ =>
      rw [ip4, Option.some.injEq]
      constructor
      · intro h
        subst h
        rfl
      · intro h
        cases h
        rfl

theorem parseReply_eq_some_iff {buf : List UInt8} {xid : UInt32} {r : Reply} : parseReply buf xid = some r ↔
    ∃ yiaddr items, FixedArea buf xid yiaddr ∧ Reading (buf.drop (COOKIE_OFFSET + 4)) items ∧ HasType items ∧
      r = carried yiaddr items := by
  have hreading : Reading (buf.drop (COOKIE_OFFSET + 4)) (options buf) := by
    apply reading_optionsFrom
    rw [List.length_drop]
    omega
  rw [parseReply]
  constructor
  · intro h
    split at h
    · cases h
    · rename_i hfixed
      simp only [not_or, not_not, Nat.not_lt, ne_eq] at hfixed
      obtain ⟨hlong, hop, hxid, hcookie⟩ := hfixed
      obtain ⟨yiaddr, hyiaddr, h⟩ := Option.bind_eq_some_iff.mp h
      simp only [foldl_setOption] at h
      split at h
      · rename_i htype
        cases h
        exact ⟨yiaddr, options buf, ⟨hlong, hop, hxid, hcookie, ip4_eq_some_iff.mp hyiaddr⟩, hreading,
          (carried_msgType _ _).mp htype, rfl⟩
      · cases h
  · intro h
    obtain ⟨yiaddr, items, hfixed, hitems, htype, rfl⟩ := h
    have hsame := hreading.unique hitems
    have hgood : ¬ (buf.length < COOKIE_OFFSET + 4 ∨ buf.head? ≠ some OP_REPLY ∨
        decode ((buf.drop XID_OFFSET).take 4).reverse ≠ xid.toNat ∨ (buf.drop COOKIE_OFFSET).take 4 ≠ MAGIC) := by
      simp only [not_or, not_not, Nat.not_lt, ne_eq]
      exact ⟨hfixed.long, hfixed.op, hfixed.xid, hfixed.cookie⟩
    rw [if_neg hgood, ip4_eq_some_iff.mpr hfixed.yiaddr, Option.bind_some, hsame]
    simp only [foldl_setOption]
    exact if_pos ((carried_msgType _ _).mpr htype)

/-- An option that can be sent. -/
structure DhcpOption where
  code : UInt8
  value : List UInt8
  coded : code ≠ OPT_PAD ∧ code ≠ OPT_END
  fits : value.length ≤ 255

def DhcpOption.encode (o : DhcpOption) : List UInt8 := o.code :: UInt8.ofNat o.value.length :: o.value

def DhcpOption.item (o : DhcpOption) : UInt8 × List UInt8 := (o.code, o.value)

/-- Options one after the other, each behind some pad bytes. -/
def encodeOptions (padded : List (Nat × DhcpOption)) : List UInt8 :=
  padded.flatMap (fun p => List.replicate p.1 OPT_PAD ++ p.2.encode)

theorem Reading.pads {bytes : List UInt8} {items : List (UInt8 × List UInt8)} (h : Reading bytes items) (n : Nat) :
    Reading (List.replicate n OPT_PAD ++ bytes) items := by
  induction n with
  | zero => exact h
  | succ n ih => exact .pad ih

theorem reading_encodeOptions {padded : List (Nat × DhcpOption)} {rest : List UInt8} (h : Reading rest []) :
    Reading (encodeOptions padded ++ rest) (padded.map (fun p => p.2.item)) := by
  induction padded with
  | nil => exact h
  | cons p padded ih =>
      have hlen : (UInt8.ofNat p.2.value.length).toNat = p.2.value.length := by
        have := p.2.fits
        exact UInt8.toNat_ofNat_of_lt (by simp [UInt8.size]; omega)
      have hitem := (Reading.item p.2.coded hlen ih).pads p.1
      have hbytes : encodeOptions (p :: padded) ++ rest = List.replicate p.1 OPT_PAD ++
          p.2.code :: UInt8.ofNat p.2.value.length :: (p.2.value ++ (encodeOptions padded ++ rest)) := by
        simp [encodeOptions, DhcpOption.encode]
      rw [hbytes]
      exact hitem

theorem reading_end {tail : List UInt8} (h : tail = [] ∨ tail.head? = some OPT_END) : Reading tail [] := by
  rcases h with rfl | h
  · exact .done
  · cases tail with
    | nil => exact .done
    | cons code rest =>
        rw [List.head?_cons, Option.some.injEq] at h
        rw [h]
        exact .stop

theorem FixedArea.append {fixed : List UInt8} {xid : UInt32} {yiaddr : Ipv4Addr} (h : FixedArea fixed xid yiaddr)
    (rest : List UInt8) : FixedArea (fixed ++ rest) xid yiaddr := by
  have hlong := h.long
  have hfield : ∀ offset, offset + 4 ≤ COOKIE_OFFSET + 4 →
      ((fixed ++ rest).drop offset).take 4 = (fixed.drop offset).take 4 := by
    intro offset hoffset
    rw [List.drop_append_of_le_length (by omega), List.take_append_of_le_length (by rw [List.length_drop]; omega)]
  constructor
  · rw [List.length_append]
    omega
  · rw [List.head?_append, h.op]
    rfl
  · rw [hfield _ (by decide), h.xid]
  · rw [hfield _ (by decide), h.cookie]
  · rw [hfield _ (by decide), h.yiaddr]

/-- The parser reads no byte that is not there, and a reply as its items say;
options that were sent are found as they were sent, with pad bytes between them. -/
theorem parseReply_reads :
    (∀ buf xid, parseReplyAt buf xid = some (parseReply buf xid)) ∧
    (∀ buf xid r, parseReply buf xid = some r ↔
      ∃ yiaddr items, FixedArea buf xid yiaddr ∧ Reading (buf.drop (COOKIE_OFFSET + 4)) items ∧ HasType items ∧
        r = carried yiaddr items) ∧
    ∀ (fixed : List UInt8) (xid : UInt32) (yiaddr : Ipv4Addr) (padded : List (Nat × DhcpOption)) (pads : Nat)
      (tail : List UInt8), fixed.length = COOKIE_OFFSET + 4 → FixedArea fixed xid yiaddr →
        (tail = [] ∨ tail.head? = some OPT_END) →
        ∀ r, parseReply (fixed ++ (encodeOptions padded ++ (List.replicate pads OPT_PAD ++ tail))) xid = some r ↔
          HasType (padded.map (fun p => p.2.item)) ∧ r = carried yiaddr (padded.map (fun p => p.2.item)) := by
  refine ⟨parseReplyAt_eq, fun buf xid r => parseReply_eq_some_iff, ?_⟩
  intro fixed xid yiaddr padded pads tail hlen hfixed htail r
  have hwhole := hfixed.append (encodeOptions padded ++ (List.replicate pads OPT_PAD ++ tail))
  have hread : Reading ((fixed ++ (encodeOptions padded ++ (List.replicate pads OPT_PAD ++ tail))).drop
      (COOKIE_OFFSET + 4)) (padded.map (fun p => p.2.item)) := by
    rw [← hlen, List.drop_left]
    exact reading_encodeOptions ((reading_end htail).pads pads)
  rw [parseReply_eq_some_iff]
  constructor
  · intro h
    obtain ⟨yiaddr', items, hfixed', hitems, htype, rfl⟩ := h
    have hip : yiaddr' = yiaddr := by
      apply Option.some.inj
      rw [← ip4_eq_some_iff.mpr hfixed'.yiaddr, ip4_eq_some_iff.mpr hwhole.yiaddr]
    subst hip
    rw [hitems.unique hread] at htype ⊢
    exact ⟨htype, rfl⟩
  · intro h
    exact ⟨yiaddr, _, hwhole, hread, h.1, h.2⟩

end Beskar7Inspector.DhcpOptions
