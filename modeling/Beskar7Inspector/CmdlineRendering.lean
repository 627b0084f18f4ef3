import Beskar7Inspector.CmdlineLast

namespace Beskar7Inspector.CmdlineRendering

open Lib.Text Net Cmdline CmdlineLast

def setting (key : Key) (value : String) : String := key.text ++ String.singleton '=' ++ value

/-- The tokens are the settings of the chosen values in any order, among others
that set no key that is read. -/
structure Renders (chosen : Key → Option String) (tokens : List String) : Prop where
  words : ∀ token ∈ tokens, token ≠ "" ∧ ∀ c ∈ token.toList, isAsciiWhitespace c = false
  settings : (tokens.filter (fun token => (param? token).isSome)).Perm
    (Key.all.filterMap fun key => (chosen key).map (setting key))

/-- What is chosen for the optional keys is not empty and of the key's own grammar. -/
structure OptionalsWellFormed (chosen : Key → Option String) : Prop where
  disk : ∀ v, chosen .disk = some v → v ≠ ""
  bootif : ∀ v, chosen .bootif = some v → v ≠ ""
  ip : ∀ v, chosen .ip = some v → (StaticIp.parse v).isSome = true
  timeout : ∀ v, chosen .timeout = some v → (parseU64 v).isSome = true

def leftOut (chosen : Key → Option String) : List Key :=
  Key.required.filter (fun key => chosen key = none ∨ chosen key = some "")

structure Carries (chosen : Key → Option String) (params : BootParams) : Prop where
  api : chosen .api = some params.api
  namespace_ : chosen .namespace_ = some params.namespace_
  host : chosen .host = some params.host
  token : chosen .token = some params.token
  target : chosen .target = some params.target
  targetDigest : chosen .targetDigest = some params.targetDigest
  providerId : chosen .providerId = some params.providerId
  ca : chosen .ca = some params.ca
  disk : chosen .disk = params.disk
  bootif : chosen .bootif = params.bootif
  ip : (chosen .ip).bind StaticIp.parse = params.ip
  timeout : (chosen .timeout).bind parseU64 = params.timeout
  debug : (chosen .debug).any (fun v => eqIgnoreAsciiCase v "true") = params.debug

section

variable {chosen : Key → Option String} {tokens : List String}

theorem param?_setting (key : Key) (value : String) : param? (setting key value) = some (key, value) := by
  have hkey : '=' ∉ key.text.toList := by cases key <;> decide
  have hof : Key.ofText key.text = some key := by cases key <;> decide
  rw [param?, setting, splitOnce_append hkey, Option.bind_some]
  dsimp only
  rw [hof]
  rfl

theorem paramsOf_perm (h : Renders chosen tokens) :
    (paramsOf tokens).Perm (Key.all.filterMap fun key => (chosen key).map (key, ·)) := by
  have hfilter : paramsOf tokens = paramsOf (tokens.filter fun token => (param? token).isSome) := by
    rw [paramsOf, paramsOf, List.filterMap_filter]
    apply List.filterMap_congr
    intro token _
    cases param? token <;> rfl
  have hsettings : paramsOf (Key.all.filterMap fun key => (chosen key).map (setting key)) =
      Key.all.filterMap fun key => (chosen key).map (key, ·) := by
    rw [paramsOf, List.filterMap_filterMap]
    apply List.filterMap_congr
    intro key _
    cases chosen key with
    | none => rfl
    | some v => exact param?_setting key v
  rw [hfilter, ← hsettings]
  exact h.settings.filterMap _

theorem values_rendered (h : Renders chosen tokens) (key : Key) :
    values key (paramsOf tokens) = (chosen key).toList := by
  have hperm : (values key (paramsOf tokens)).Perm (chosen key).toList := by
    have hone : values key (Key.all.filterMap fun key => (chosen key).map (key, ·)) = (chosen key).toList := by
      have hpick (k : Key) : (((chosen k).map (k, ·)).filter (fun p => decide (p.1 = key))).map Prod.snd =
          if k = key then chosen k else none := by
        cases chosen k <;> by_cases hk : k = key <;> simp [hk]
      rw [values, List.filter_filterMap, List.map_filterMap]
      simp only [hpick]
      cases hc : chosen key <;> cases key <;> simp [Key.all, Key.required, hc]
    rw [← hone]
    exact ((paramsOf_perm h).filter _).map _
  cases hc : chosen key with
  | none =>
      rw [hc] at hperm
      exact hperm.eq_nil
  | some v =>
      rw [hc] at hperm
      exact List.perm_singleton.mp hperm

theorem lastValue_rendered (h : Renders chosen tokens) (key : Key) :
    lastValue key (paramsOf tokens) = chosen key := by
  rw [lastValue, values_rendered h]
  cases chosen key <;> rfl

theorem refusal_rendered (h : Renders chosen tokens) (hopt : OptionalsWellFormed chosen) :
    refusal (paramsOf tokens) = none := by
  rw [refusal_eq_none_iff, values_rendered h, values_rendered h]
  simp only [Option.mem_toList]
  exact ⟨fun v hv _ => hopt.ip v hv, fun v hv _ => hopt.timeout v hv⟩

theorem missing_rendered (h : Renders chosen tokens) :
    (given (paramsOf tokens)).missing = (leftOut chosen).map Key.text := by
  have hleft (key : Key) : (!((chosen key).bind nonEmpty).isSome) = decide (chosen key = none ∨ chosen key = some "") := by
    cases chosen key with
    | none => rfl
    | some v => by_cases hv : v = "" <;> simp [nonEmpty, hv]
  simp only [missing_given, lastValue_rendered h, hleft, leftOut]

theorem bind_nonEmpty_of_ne {last : Option String} (h : ∀ v, last = some v → v ≠ "") : last.bind nonEmpty = last := by
  cases last with
  | none => rfl
  | some v => simp [nonEmpty, h v rfl]

theorem lastGiven_rendered (h : Renders chosen tokens) {key : Key} (hne : ∀ v, chosen key = some v → v ≠ "") :
    lastGiven key (paramsOf tokens) = chosen key := by
  rw [lastGiven, values_rendered h]
  cases hc : chosen key with
  | none => rfl
  | some v => simp [hne v hc]

theorem carries_rendered (h : Renders chosen tokens) (hopt : OptionalsWellFormed chosen) (hleft : leftOut chosen = []) :
    Carries chosen (given (paramsOf tokens)).toParams := by
  have hrequired {key : Key} (hkey : key ∈ Key.required) :
      chosen key = some (((chosen key).bind nonEmpty).getD "") := by
    rw [leftOut, List.filter_eq_nil_iff] at hleft
    have hkept := hleft key hkey
    cases hc : chosen key with
    | none => simp [hc] at hkept
    | some v =>
        have hv : v ≠ "" := by simpa [hc] using hkept
        simp [nonEmpty, hv]
  have hip : ∀ v, chosen .ip = some v → v ≠ "" := by
    rintro v hv rfl
    exact absurd (hopt.ip "" hv) (by decide +kernel)
  have htimeout : ∀ v, chosen .timeout = some v → v ≠ "" := by
    rintro v hv rfl
    exact absurd (hopt.timeout "" hv) (by decide +kernel)
  constructor
  case disk => simp [Seen.toParams, given, lastValue_rendered h, bind_nonEmpty_of_ne hopt.disk]
  case bootif => simp [Seen.toParams, given, lastValue_rendered h, bind_nonEmpty_of_ne hopt.bootif]
  case ip => simp [Seen.toParams, given, lastGiven_rendered h hip]
  case timeout => simp [Seen.toParams, given, lastGiven_rendered h htimeout]
  case debug => simp [Seen.toParams, given, lastValue_rendered h]
  all_goals
    simp only [Seen.toParams, given, lastValue_rendered h]
    exact hrequired (by decide)

/-- Rendering then parsing loses nothing, whatever the order and whatever stands between. -/
theorem parse_rendered {chosen : Key → Option String} {tokens : List String} (h : Renders chosen tokens)
    (hopt : OptionalsWellFormed chosen) :
    (leftOut chosen = [] →
      ∃ params, BootParams.parse (String.intercalate " " tokens) = .ok params ∧ Carries chosen params) ∧
    (leftOut chosen ≠ [] → BootParams.parse (String.intercalate " " tokens) =
      .error (.missingRequired (String.intercalate ", " ((leftOut chosen).map Key.text)))) ∧
    ∀ cmdline, splitAsciiWhitespace cmdline = tokens →
      BootParams.parse cmdline = BootParams.parse (String.intercalate " " tokens) := by
  have htokens := splitAsciiWhitespace_intercalate h.words
  have hparse : BootParams.parse (String.intercalate " " tokens) = (given (paramsOf tokens)).finish := by
    rw [parse_eq, htokens, refusal_rendered h hopt]
  refine ⟨fun hleft => ?_, fun hleft => ?_, fun cmdline hc => ?_⟩
  · refine ⟨_, ?_, carries_rendered h hopt hleft⟩
    rw [hparse, Seen.finish, missing_rendered h, hleft]
    rfl
  · rw [hparse, Seen.finish, missing_rendered h, if_pos (by simpa using hleft)]
  · rw [parse_eq, parse_eq, htokens, hc]

end

/-- The values of a host whose token and CA end in padding. -/
def paddedHost : Key → Option String
  | .api => some "https://beskar7.example.com:8082"
  | .namespace_ => some "tenant-a"
  | .host => some "node-01"
  | .token => some "Zm9vYg=="
  | .target => some "https://images.example.com/os.raw?sig=a=b"
  | .targetDigest => some "sha256:0"
  | .providerId => some "b7://tenant-a/node-01"
  | .ca => some "LS0tLS1CRUdJTg=="
  | .timeout => some "600"
  | _ => none

def paddedTokens : List String :=
  ["quiet", "beskar7.timeout=600", "beskar7.ca=LS0tLS1CRUdJTg==", "beskar7.host=node-01", "root=/dev/sda1",
    "beskar7.target=https://images.example.com/os.raw?sig=a=b", "beskar7.namespace=tenant-a",
    "beskar7.target-digest=sha256:0", "beskar7.token=Zm9vYg==", "beskar7.provider-id=b7://tenant-a/node-01",
    "beskar7.api=https://beskar7.example.com:8082"]

theorem parse_rendered_paddedHost : ∃ params,
    BootParams.parse (String.intercalate " " paddedTokens) = .ok params ∧ Carries paddedHost params := by
  have hrenders : Renders paddedHost paddedTokens := ⟨words_of_any (by decide +kernel), by decide +kernel⟩
  have hopt : OptionalsWellFormed paddedHost := by
    refine ⟨by simp [paddedHost], by simp [paddedHost], by simp [paddedHost], ?_⟩
    simp only [paddedHost]
    decide +kernel
  exact (parse_rendered hrenders hopt).1 (by decide +kernel)

end Beskar7Inspector.CmdlineRendering
