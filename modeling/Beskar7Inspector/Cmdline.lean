import Beskar7Inspector.Net

namespace Beskar7Inspector.Cmdline

open Lib.Os Lib.Text Net

/-- The `beskar7.*` parameters of the kernel cmdline; the timeout is in seconds. -/
structure BootParams where
  api : String
  namespace_ : String
  host : String
  token : String
  target : String
  targetDigest : String
  providerId : String
  ca : String
  disk : Option String
  bootif : Option String
  ip : Option StaticIp
  timeout : Option UInt64
  debug : Bool
  deriving DecidableEq, Repr

inductive CmdlineError
  | missingRequired (names : String)
  | invalidTimeout
  | invalidStaticIp
  | io (source : IoError)
  deriving DecidableEq, Repr

inductive Key
  | api
  | namespace_
  | host
  | token
  | target
  | targetDigest
  | providerId
  | ca
  | disk
  | bootif
  | ip
  | timeout
  | debug
  deriving DecidableEq

namespace Key

def text : Key → String
  | api => "beskar7.api"
  | namespace_ => "beskar7.namespace"
  | host => "beskar7.host"
  | token => "beskar7.token"
  | target => "beskar7.target"
  | targetDigest => "beskar7.target-digest"
  | providerId => "beskar7.provider-id"
  | ca => "beskar7.ca"
  | disk => "beskar7.disk"
  | bootif => "BOOTIF"
  | ip => "beskar7.ip"
  | timeout => "beskar7.timeout"
  | debug => "beskar7.debug"

def required : List Key := [api, namespace_, host, token, target, targetDigest, providerId, ca]

def all : List Key := required ++ [disk, bootif, ip, timeout, debug]

def ofText (s : String) : Option Key := all.find? (fun key => key.text == s)

end Key

def nonEmpty (value : String) : Option String := if value.isEmpty then none else some value

/-- What the loop over the tokens has set so far. -/
structure Seen where
  api : Option String
  namespace_ : Option String
  host : Option String
  token : Option String
  target : Option String
  targetDigest : Option String
  providerId : Option String
  ca : Option String
  disk : Option String
  bootif : Option String
  ip : Option StaticIp
  timeout : Option UInt64
  debug : Bool
  deriving DecidableEq

def Seen.nothing : Seen := ⟨none, none, none, none, none, none, none, none, none, none, none, none, false⟩

def Seen.set (seen : Seen) (key : Key) (value : String) : Except CmdlineError Seen :=
  match key with
  | .api => .ok { seen with api := nonEmpty value }
  | .namespace_ => .ok { seen with namespace_ := nonEmpty value }
  | .host => .ok { seen with host := nonEmpty value }
  | .token => .ok { seen with token := nonEmpty value }
  | .target => .ok { seen with target := nonEmpty value }
  | .targetDigest => .ok { seen with targetDigest := nonEmpty value }
  | .providerId => .ok { seen with providerId := nonEmpty value }
  | .ca => .ok { seen with ca := nonEmpty value }
  | .disk => .ok { seen with disk := nonEmpty value }
  | .bootif => .ok { seen with bootif := nonEmpty value }
  | .ip => match nonEmpty value with
      | none => .ok seen
      | some v => match StaticIp.parse v with
          | some ip => .ok { seen with ip := some ip }
          | none => .error .invalidStaticIp
  | .timeout =>
      if value.isEmpty then .ok seen
      else match parseU64 value with
        | some secs => .ok { seen with timeout := some secs }
        | none => .error .invalidTimeout
  | .debug => .ok { seen with debug := eqIgnoreAsciiCase value "true" }

/-- A token of the cmdline that sets a key, split at its first `=`. -/
def param? (token : String) : Option (Key × String) :=
  (splitOnce '=' token).bind (fun (key, value) => (Key.ofText key).map (·, value))

def Seen.readToken (seen : Seen) (token : String) : Except CmdlineError Seen :=
  match param? token with
  | none => .ok seen
  | some (key, value) => seen.set key value

/-- Whether each required key has a value. -/
def Seen.presence (seen : Seen) : List (Key × Bool) :=
  [(.api, seen.api.isSome), (.namespace_, seen.namespace_.isSome), (.host, seen.host.isSome),
    (.token, seen.token.isSome), (.target, seen.target.isSome), (.targetDigest, seen.targetDigest.isSome),
    (.providerId, seen.providerId.isSome), (.ca, seen.ca.isSome)]

def Seen.missing (seen : Seen) : List String := (seen.presence.filter (fun p => !p.2)).map (fun p => p.1.text)

def Seen.toParams (seen : Seen) : BootParams where
  api := seen.api.getD ""
  namespace_ := seen.namespace_.getD ""
  host := seen.host.getD ""
  token := seen.token.getD ""
  target := seen.target.getD ""
  targetDigest := seen.targetDigest.getD ""
  providerId := seen.providerId.getD ""
  ca := seen.ca.getD ""
  disk := seen.disk
  bootif := seen.bootif
  ip := seen.ip
  timeout := seen.timeout
  debug := seen.debug

/-- The parameters, once no required one is missing. -/
def Seen.finish (seen : Seen) : Except CmdlineError BootParams :=
  if seen.missing ≠ [] then .error (.missingRequired (String.intercalate ", " seen.missing)) else .ok seen.toParams

def BootParams.parse (cmdline : String) : Except CmdlineError BootParams := do
  let seen ← (splitAsciiWhitespace cmdline).foldlM Seen.readToken Seen.nothing
  seen.finish

end Beskar7Inspector.Cmdline
