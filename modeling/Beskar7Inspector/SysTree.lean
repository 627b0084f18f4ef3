import Beskar7Inspector.Lib.Text
import Mathlib.Data.List.Nodup

namespace Beskar7Inspector.SysTree

open Lib.Text

/-- A sysfs node with symbolic links followed. An attribute that cannot be read
as text has no text. -/
inductive SysNode
  | attr (text : Option String)
  | dir (children : List (String × SysNode))

namespace SysNode

def children : SysNode → List (String × SysNode)
  | .attr _ => []
  | .dir cs => cs

def isDir : SysNode → Bool
  | .attr _ => false
  | .dir _ => true

def find : SysNode → List String → Option SysNode
  | node, [] => some node
  | node, name :: path => match node.children.lookup name with
      | none => none
      | some child => child.find path

end SysNode

/-- A directory such as `/sys/block`, whose entries have distinct names. -/
structure SysDir where
  entries : List (String × SysNode)
  distinct : (entries.map Prod.fst).Nodup

namespace SysDir

def find (d : SysDir) (path : List String) : Option SysNode := (SysNode.dir d.entries).find path

def pathExists (d : SysDir) (path : List String) : Bool := (d.find path).isSome

def isDir (d : SysDir) (path : List String) : Bool := (d.find path).any SysNode.isDir

/-- The names in a directory, in the order the filesystem lists them. -/
def readDir (d : SysDir) (path : List String) : Option (List String) :=
  match d.find path with
  | some (.dir cs) => some (cs.map Prod.fst)
  | _ => none

def readToString (d : SysDir) (path : List String) : Option String :=
  match d.find path with
  | some (.attr text) => text
  | _ => none

/-- An attribute's text without surrounding white space; blank counts as absent. -/
def readTrimmed (d : SysDir) (path : List String) : Option String :=
  match d.readToString path with
  | none => none
  | some raw => if (trim raw) = "" then none else some (trim raw)

end SysDir

end Beskar7Inspector.SysTree
