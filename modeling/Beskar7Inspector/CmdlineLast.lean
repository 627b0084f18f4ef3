import Beskar7Inspector.Cmdline
import Mathlib.Data.List.Induction

namespace Beskar7Inspector.CmdlineLast

open Lib.Text Net Cmdline

def values (key : Key) (params : List (Key × String)) : List String :=
  (params.filter (fun p => p.1 = key)).map Prod.snd

def lastValue (key : Key) (params : List (Key × String)) : Option String := (values key params).getLast?

/-- The error of a value that is neither empty nor well-formed. -/
def malformed : Key × String → Option CmdlineError
  | (.ip, v) => if v ≠ "" ∧ StaticIp.parse v = none then some .invalidStaticIp else none
  | (.timeout, v) => if v ≠ "" ∧ parseU64 v = none then some .invalidTimeout else none
  | _ => none

def refusal (params : List (Key × String)) : Option CmdlineError := params.findSome? malformed

/-- The last value that is not empty. -/
def lastGiven (key : Key) (params : List (Key × String)) : Option String :=
  ((values key params).filter (· ≠ "")).getLast?

def given (params : List (Key × String)) : Seen where
  api := (lastValue .api params).bind nonEmpty
  namespace_ := (lastValue .namespace_ params).bind nonEmpty
  host := (lastValue .host params).bind nonEmpty
  token := (lastValue .token params).bind nonEmpty
  target := (lastValue .target params).bind nonEmpty
  targetDigest := (lastValue .targetDigest params).bind nonEmpty
  providerId := (lastValue .providerId params).bind nonEmpty
  ca := (lastValue .ca params).bind nonEmpty
  disk := (lastValue .disk params).bind nonEmpty
  bootif := (lastValue .bootif params).bind nonEmpty
  ip := (lastGiven .ip params).bind StaticIp.parse
  timeout := (lastGiven .timeout params).bind parseU64
  debug := (lastValue .debug params).any (fun v => eqIgnoreAsciiCase v "true")

section

variable {params : List (Key × String)} {key other : Key} {value : String}

theorem values_snoc : values other (params ++ [(key, value)]) =
    if key = other then values other params ++ [value] else values other params := by
  by_cases h : key = other
  · simp [values, h]
  · simp [values, h]

theorem lastValue_snoc_self : lastValue key (params ++ [(key, value)]) = some value := by
  rw [lastValue, values_snoc, if_pos rfl, List.getLast?_concat]

theorem lastValue_snoc_ne (h : key ≠ other) :
    lastValue other (params ++ [(key, value)]) = lastValue other params := by
  rw [lastValue, values_snoc, if_neg h, lastValue]

theorem lastGiven_snoc_self (h : value ≠ "") : lastGiven key (params ++ [(key, value)]) = some value := by
  rw [lastGiven, values_snoc, if_pos rfl, List.filter_append, List.filter_cons_of_pos (by simpa using h),
    List.filter_nil, List.getLast?_concat]

theorem lastGiven_snoc_empty : lastGiven key (params ++ [(key, "")]) = lastGiven key params := by
  rw [lastGiven, values_snoc, if_pos rfl, List.filter_append, List.filter_cons_of_neg (by simp), List.filter_nil,
    List.append_nil, lastGiven]

theorem lastGiven_snoc_ne (h : key ≠ other) :
    lastGiven other (params ++ [(key, value)]) = lastGiven other params := by
  rw [lastGiven, values_snoc, if_neg h, lastGiven]

theorem isEmpty_eq_false_iff : value.isEmpty = false ↔ value ≠ "" := by
  rw [ne_eq, ← String.isEmpty_iff, Bool.not_eq_true]

/-- One more parameter: it is refused, or becomes the last value of its key. -/
theorem set_given (params : List (Key × String)) (key : Key) (value : String) : (given params).set key value =
    match malformed (key, value) with
    | some e => .error e
    | none => .ok (given (params ++ [(key, value)])) := by
  cases key with
  | ip =>
      by_cases h : value = ""
      · subst h
        simp [Seen.set, malformed, nonEmpty, given, lastValue_snoc_ne, lastGiven_snoc_ne, lastGiven_snoc_empty]
      · have hempty := isEmpty_eq_false_iff.mpr h
        cases hp : StaticIp.parse value with
        | none => simp [Seen.set, malformed, nonEmpty, hempty, hp, h]
        | some addr =>
            simp [Seen.set, malformed, nonEmpty, hempty, hp, given, lastValue_snoc_ne, lastGiven_snoc_ne,
              lastGiven_snoc_self h]
  | timeout =>
      by_cases h : value = ""
      · subst h
        simp [Seen.set, malformed, given, lastValue_snoc_ne, lastGiven_snoc_ne, lastGiven_snoc_empty]
      · have hempty := isEmpty_eq_false_iff.mpr h
        cases hp : parseU64 value with
        | none => simp [Seen.set, malformed, hempty, hp, h]
        | some secs =>
            simp [Seen.set, malformed, hempty, hp, given, lastValue_snoc_ne, lastGiven_snoc_ne, lastGiven_snoc_self h]
  | _ => simp [Seen.set, malformed, given, lastValue_snoc_self, lastValue_snoc_ne, lastGiven_snoc_ne]

end

def paramsOf (tokens : List String) : List (Key × String) := tokens.filterMap param?

theorem paramsOf_snoc (tokens : List String) (token : String) :
    paramsOf (tokens ++ [token]) = paramsOf tokens ++ (param? token).toList := by
  cases h : param? token <;> simp [paramsOf, h]

theorem refusal_append (ps qs : List (Key × String)) : refusal (ps ++ qs) = (refusal ps).or (refusal qs) :=
  List.findSome?_append

/-- The loop over the tokens stops at the first malformed value, or has the last values. -/
theorem foldlM_readToken (tokens : List String) : tokens.foldlM Seen.readToken Seen.nothing =
    match refusal (paramsOf tokens) with
    | some e => .error e
    | none => .ok (given (paramsOf tokens)) := by
  induction tokens using List.reverseRecOn with
  | nil => rfl
  | append_singleton tokens token ih =>
      rw [List.foldlM_append, ih, paramsOf_snoc, refusal_append]
      cases hr : refusal (paramsOf tokens) with
      | some e => rfl
      | none =>
          change List.foldlM Seen.readToken (given (paramsOf tokens)) [token] = _
          cases hp : param? token with
          | none => simp [Seen.readToken, hp, refusal]
          | some p =>
              obtain ⟨key, value⟩ := p
              have hset := set_given (paramsOf tokens) key value
              cases hm : malformed (key, value) with
              | none => simpa [Seen.readToken, hp, hm, refusal] using hset
              | some e => simpa [Seen.readToken, hp, hm, refusal] using hset

theorem parse_eq (cmdline : String) : BootParams.parse cmdline =
    match refusal (paramsOf (splitAsciiWhitespace cmdline)) with
    | some e => .error e
    | none => (given (paramsOf (splitAsciiWhitespace cmdline))).finish := by
  rw [BootParams.parse, foldlM_readToken]
  cases refusal (paramsOf (splitAsciiWhitespace cmdline)) <;> rfl

theorem missing_given (params : List (Key × String)) : (given params).missing =
    (Key.required.filter (fun key => !((lastValue key params).bind nonEmpty).isSome)).map Key.text := by
  have hpresence : (given params).presence =
      Key.required.map (fun key => (key, ((lastValue key params).bind nonEmpty).isSome)) := rfl
  rw [Seen.missing, hpresence, List.filter_map, List.map_map]
  rfl

/-- The tokens without those that a later one sets the same key as. -/
def keepLast : List String → List String
  | [] => []
  | token :: tokens =>
      if (param? token).any (fun p => (paramsOf tokens).any (fun q => q.1 = p.1)) then keepLast tokens
      else token :: keepLast tokens

/-- The cmdline with only the last occurrence of each key that is read. -/
def lastOnly (cmdline : String) : String := String.intercalate " " (keepLast (splitAsciiWhitespace cmdline))

theorem mem_of_mem_keepLast {tokens : List String} {token : String} (h : token ∈ keepLast tokens) : token ∈ tokens := by
  induction tokens with
  | nil => exact h
  | cons first tokens ih =>
      rw [keepLast] at h
      split at h
      · exact List.mem_cons_of_mem _ (ih h)
      · rw [List.mem_cons] at h ⊢
        exact h.imp_right ih

theorem values_cons (key : Key) (p : Key × String) (params : List (Key × String)) :
    values key (p :: params) = if p.1 = key then p.2 :: values key params else values key params := by
  by_cases h : p.1 = key <;> simp [values, h]

theorem values_ne_nil_iff {key : Key} {params : List (Key × String)} :
    values key params ≠ [] ↔ params.any (fun q => q.1 = key) = true := by
  simp [values]

theorem values_keepLast (key : Key) (tokens : List String) :
    values key (paramsOf (keepLast tokens)) = (lastValue key (paramsOf tokens)).toList := by
  induction tokens with
  | nil => rfl
  | cons token tokens ih =>
      rw [keepLast]
      cases hp : param? token with
      | none => simpa [paramsOf, hp] using ih
      | some p =>
          have hparams : paramsOf (token :: tokens) = p :: paramsOf tokens := by simp [paramsOf, hp]
          rw [Option.any_some, hparams, lastValue, values_cons]
          by_cases hlater : (paramsOf tokens).any (fun q => q.1 = p.1) = true
          · rw [if_pos hlater, ih, lastValue]
            by_cases hkey : p.1 = key
            · rw [if_pos hkey, List.getLast?_cons_of_ne_nil (values_ne_nil_iff.mpr (hkey ▸ hlater))]
            · rw [if_neg hkey]
          · have hkept : paramsOf (token :: keepLast tokens) = p :: paramsOf (keepLast tokens) := by simp [paramsOf, hp]
            rw [if_neg hlater, hkept, values_cons, ih, lastValue]
            by_cases hkey : p.1 = key
            · have hnil : values key (paramsOf tokens) = [] := by
                by_contra hne
                exact hlater (hkey ▸ values_ne_nil_iff.mp hne)
              simp [hkey, hnil]
            · rw [if_neg hkey, if_neg hkey]

theorem splitAsciiWhitespace_lastOnly (cmdline : String) :
    splitAsciiWhitespace (lastOnly cmdline) = keepLast (splitAsciiWhitespace cmdline) :=
  splitAsciiWhitespace_intercalate fun _ h => mem_splitAsciiWhitespace (mem_of_mem_keepLast h)

theorem lastValue_keepLast (key : Key) (tokens : List String) :
    lastValue key (paramsOf (keepLast tokens)) = lastValue key (paramsOf tokens) := by
  rw [lastValue, values_keepLast]
  cases lastValue key (paramsOf tokens) <;> rfl

theorem lastGiven_keepLast (key : Key) (tokens : List String) :
    lastGiven key (paramsOf (keepLast tokens)) = (lastValue key (paramsOf tokens)).bind nonEmpty := by
  rw [lastGiven, values_keepLast]
  cases lastValue key (paramsOf tokens) with
  | none => rfl
  | some v =>
      by_cases h : v = ""
      · subst h
        rfl
      · simp [h, nonEmpty, isEmpty_eq_false_iff.mpr h]

/-- The parameters as one value for each key gives them. -/
def seenOf (value : Key → Option String) : Seen where
  api := value .api
  namespace_ := value .namespace_
  host := value .host
  token := value .token
  target := value .target
  targetDigest := value .targetDigest
  providerId := value .providerId
  ca := value .ca
  disk := value .disk
  bootif := value .bootif
  ip := (value .ip).bind StaticIp.parse
  timeout := (value .timeout).bind parseU64
  debug := (value .debug).any (fun v => eqIgnoreAsciiCase v "true")

/-- Every required key has a value, and every value is well-formed. -/
def Complete (value : Key → Option String) : Prop :=
  (∀ key ∈ Key.required, (value key).isSome = true) ∧
    (∀ v, value .ip = some v → (StaticIp.parse v).isSome = true) ∧
      ∀ v, value .timeout = some v → (parseU64 v).isSome = true

/-- The last value of each key, with an empty one as none. -/
def lasts (tokens : List String) (key : Key) : Option String := (lastValue key (paramsOf tokens)).bind nonEmpty

theorem given_keepLast (tokens : List String) : given (paramsOf (keepLast tokens)) = seenOf (lasts tokens) := by
  have hdebug : (lastValue .debug (paramsOf tokens)).any (fun v => eqIgnoreAsciiCase v "true") =
      (lasts tokens .debug).any (fun v => eqIgnoreAsciiCase v "true") := by
    rw [lasts]
    cases lastValue .debug (paramsOf tokens) with
    | none => rfl
    | some v =>
        by_cases h : v = ""
        · subst h
          rfl
        · simp [nonEmpty, isEmpty_eq_false_iff.mpr h]
  simp only [given, lastValue_keepLast, lastGiven_keepLast, hdebug]
  rfl

theorem refusal_eq_none_iff {params : List (Key × String)} : refusal params = none ↔
    (∀ v ∈ values .ip params, v ≠ "" → (StaticIp.parse v).isSome = true) ∧
      ∀ v ∈ values .timeout params, v ≠ "" → (parseU64 v).isSome = true := by
  have hmem (key : Key) (v : String) : v ∈ values key params ↔ (key, v) ∈ params := by simp [values]
  rw [refusal, List.findSome?_eq_none_iff]
  simp only [hmem]
  constructor
  · intro h
    constructor
    · intro v hv hne
      simpa [malformed, hne, ← Option.isSome_iff_ne_none] using h _ hv
    · intro v hv hne
      simpa [malformed, hne, ← Option.isSome_iff_ne_none] using h _ hv
  · intro ⟨hip, htimeout⟩ ⟨key, v⟩ hv
    cases key with
    | ip => simpa [malformed, ← Option.isSome_iff_ne_none] using hip v hv
    | timeout => simpa [malformed, ← Option.isSome_iff_ne_none] using htimeout v hv
    | _ => rfl

theorem refusal_kind {params : List (Key × String)} {e : CmdlineError} (h : refusal params = some e) :
    e = .invalidStaticIp ∨ e = .invalidTimeout := by
  obtain ⟨⟨key, v⟩, _, hm⟩ := List.exists_of_findSome?_eq_some h
  cases key <;> simp [malformed] at hm <;> simp [← hm.2]

theorem finish_ne_refusal {seen : Seen} {params : List (Key × String)} {e : CmdlineError}
    (h : refusal params = some e) : seen.finish ≠ .error e := by
  intro hf
  rw [Seen.finish] at hf
  split at hf
  · cases hf
    simpa using refusal_kind h
  · cases hf

theorem missing_given_eq_nil_iff (params : List (Key × String)) :
    (given params).missing = [] ↔ ∀ key ∈ Key.required, ((lastValue key params).bind nonEmpty).isSome = true := by
  rw [missing_given, List.map_eq_nil_iff, List.filter_eq_nil_iff]
  simp only [Bool.not_eq_true', Bool.not_eq_false]

theorem refusal_keepLast_eq_none_iff (tokens : List String) : refusal (paramsOf (keepLast tokens)) = none ↔
    (∀ v, lasts tokens .ip = some v → (StaticIp.parse v).isSome = true) ∧
      ∀ v, lasts tokens .timeout = some v → (parseU64 v).isSome = true := by
  have hgiven (last : Option String) (P : String → Prop) :
      (∀ v ∈ last.toList, v ≠ "" → P v) ↔ ∀ v, last.bind nonEmpty = some v → P v := by
    cases last with
    | none => simp
    | some u =>
        by_cases h : u = ""
        · simp [h, nonEmpty]
        · simp [h, nonEmpty, isEmpty_eq_false_iff.mpr h]
  rw [refusal_eq_none_iff, values_keepLast, values_keepLast, hgiven, hgiven]
  rfl

/-- Once nothing repeats, the result is the one the last values give. -/
theorem parse_lastOnly_eq_ok_iff {cmdline : String} {params : BootParams} :
    BootParams.parse (lastOnly cmdline) = .ok params ↔
      Complete (lasts (splitAsciiWhitespace cmdline)) ∧
        params = (seenOf (lasts (splitAsciiWhitespace cmdline))).toParams := by
  rw [parse_eq, splitAsciiWhitespace_lastOnly, Complete, ← refusal_keepLast_eq_none_iff]
  have hmissing := missing_given_eq_nil_iff (paramsOf (keepLast (splitAsciiWhitespace cmdline)))
  simp only [lastValue_keepLast] at hmissing
  change _ ↔ ∀ key ∈ Key.required, (lasts (splitAsciiWhitespace cmdline) key).isSome = true at hmissing
  rw [← hmissing, given_keepLast]
  cases refusal (paramsOf (keepLast (splitAsciiWhitespace cmdline))) with
  | some e => simp
  | none =>
      by_cases hm : (seenOf (lasts (splitAsciiWhitespace cmdline))).missing = []
      · simp [Seen.finish, hm, eq_comm]
      · simp [Seen.finish, hm]

/-- With well-formed values, the last one given is the last one unless that is
empty and another one is not. -/
theorem bind_lastGiven_eq_iff {α : Type} {key : Key} {params : List (Key × String)} {f : String → Option α}
    (h : ∀ v ∈ values key params, v ≠ "" → (f v).isSome = true) :
    (lastGiven key params).bind f = ((lastValue key params).bind nonEmpty).bind f ↔
      (lastValue key params = some "" → ∀ v ∈ values key params, v = "") := by
  rw [lastGiven, lastValue]
  generalize values key params = vs at h
  cases hlast : vs.getLast? with
  | none =>
      rw [List.getLast?_eq_none_iff] at hlast
      simp [hlast]
  | some v =>
      obtain ⟨front, rfl⟩ := List.getLast?_eq_some_iff.mp hlast
      by_cases hv : v = ""
      · subst hv
        simp only [nonEmpty, Option.bind_some, true_imp_iff]
        constructor
        · intro hnone u hu
          by_contra hne
          have hmem : u ∈ (front ++ [""]).filter (· ≠ "") := by simpa [hne] using hu
          obtain ⟨w, hw⟩ := Option.ne_none_iff_exists'.mp (mt List.getLast?_eq_none_iff.mp (List.ne_nil_of_mem hmem))
          have hwmem := List.mem_of_getLast? hw
          rw [List.mem_filter] at hwmem
          have hsome := h w hwmem.1 (by simpa using hwmem.2)
          rw [hw] at hnone
          simp at hnone
          simp [hnone] at hsome
        · intro hall
          have hnil : (front ++ [""]).filter (· ≠ "") = [] := by
            rw [List.filter_eq_nil_iff]
            intro u hu
            simp [hall u hu]
          rw [hnil]
          rfl
      · simp [hv, nonEmpty, isEmpty_eq_false_iff.mpr hv]

/-- The first error is the first one among the last values, and without one and
with every required key a key of its own grammar is only empty last if it is always. -/
def SettledByLast (tokens : List String) : Prop :=
  refusal (paramsOf tokens) = refusal (paramsOf (keepLast tokens)) ∧
    (refusal (paramsOf tokens) = none → (given (paramsOf tokens)).missing = [] →
      ∀ key ∈ [Key.ip, Key.timeout], lastValue key (paramsOf tokens) = some "" →
        ∀ v ∈ values key (paramsOf tokens), v = "")

theorem finish_eq_iff {tokens : List String} (hr : refusal (paramsOf tokens) = none) :
    (given (paramsOf tokens)).finish = (given (paramsOf (keepLast tokens))).finish ↔
      ((given (paramsOf tokens)).missing = [] → ∀ key ∈ [Key.ip, Key.timeout],
        lastValue key (paramsOf tokens) = some "" → ∀ v ∈ values key (paramsOf tokens), v = "") := by
  have hsame : (given (paramsOf (keepLast tokens))).missing = (given (paramsOf tokens)).missing := by
    simp only [missing_given, lastValue_keepLast]
  obtain ⟨hip, htimeout⟩ := refusal_eq_none_iff.mp hr
  by_cases hm : (given (paramsOf tokens)).missing = []
  · rw [List.forall_mem_cons, List.forall_mem_singleton, ← bind_lastGiven_eq_iff hip, ← bind_lastGiven_eq_iff htimeout]
    rw [Seen.finish, Seen.finish, hsame, if_neg (not_not.mpr hm), if_neg (not_not.mpr hm), imp_iff_right hm]
    simp [Seen.toParams, given, lastValue_keepLast, lastGiven_keepLast]
  · simp [Seen.finish, hsame, hm]

/-- The last occurrence of each key settles the result exactly when it settles
the two keys that are not plainly overwritten. -/
theorem parse_lastOnly_iff (cmdline : String) :
    (BootParams.parse cmdline = BootParams.parse (lastOnly cmdline) ↔ SettledByLast (splitAsciiWhitespace cmdline)) ∧
      ∀ params, BootParams.parse (lastOnly cmdline) = .ok params ↔
        Complete (lasts (splitAsciiWhitespace cmdline)) ∧
          params = (seenOf (lasts (splitAsciiWhitespace cmdline))).toParams := by
  refine ⟨?_, fun params => parse_lastOnly_eq_ok_iff⟩
  rw [parse_eq, parse_eq, splitAsciiWhitespace_lastOnly, SettledByLast]
  generalize splitAsciiWhitespace cmdline = tokens
  cases hr : refusal (paramsOf tokens) with
  | some e =>
      cases hl : refusal (paramsOf (keepLast tokens)) with
      | some e' => simp
      | none => simpa using (finish_ne_refusal hr).symm
  | none =>
      cases hl : refusal (paramsOf (keepLast tokens)) with
      | some e' => simpa using finish_ne_refusal hl
      | none => simpa using finish_eq_iff hr

/-- A timeout that a later empty one does not take back. -/
def repeatedCmdline : String :=
  "beskar7.api=https://h beskar7.namespace=n beskar7.host=h beskar7.token=t beskar7.target=https://t " ++
    "beskar7.target-digest=sha256:0 beskar7.provider-id=b7://n/h beskar7.ca=Zm9v beskar7.timeout=60 beskar7.timeout="

def repeatedTokens : List String :=
  ["beskar7.api=https://h", "beskar7.namespace=n", "beskar7.host=h", "beskar7.token=t", "beskar7.target=https://t",
    "beskar7.target-digest=sha256:0", "beskar7.provider-id=b7://n/h", "beskar7.ca=Zm9v", "beskar7.timeout=60",
    "beskar7.timeout="]

theorem splitAsciiWhitespace_repeatedCmdline : splitAsciiWhitespace repeatedCmdline = repeatedTokens := by
  have hjoined : repeatedCmdline = String.intercalate " " repeatedTokens := by decide +kernel
  rw [hjoined, splitAsciiWhitespace_intercalate (words_of_any (by decide +kernel))]

theorem not_lastWins_repeatedCmdline :
    BootParams.parse repeatedCmdline ≠ BootParams.parse (lastOnly repeatedCmdline) := by
  intro h
  have hgiven : (BootParams.parse repeatedCmdline).toOption.bind BootParams.timeout = some 60 := by
    rw [BootParams.parse, splitAsciiWhitespace_repeatedCmdline]
    decide +kernel
  cases hp : BootParams.parse repeatedCmdline with
  | error e =>
      rw [hp] at hgiven
      cases hgiven
  | ok params =>
      have hlast := congrArg BootParams.timeout (parse_lastOnly_eq_ok_iff.mp (h ▸ hp)).2
      rw [splitAsciiWhitespace_repeatedCmdline] at hlast
      rw [hp] at hgiven
      have hnone : (some 60 : Option UInt64) = none := hgiven.symm.trans (hlast.trans (by decide +kernel))
      cases hnone

end Beskar7Inspector.CmdlineLast
