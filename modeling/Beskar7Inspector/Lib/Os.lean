import Mathlib.Logic.Basic

namespace Beskar7Inspector.Lib.Os

/-- A raw Linux error number. -/
abbrev Errno := Nat

def ENOENT : Errno := 2
def EIO : Errno := 5
def EBUSY : Errno := 16
def EEXIST : Errno := 17
def ENOTDIR : Errno := 20
def EISDIR : Errno := 21
def EINVAL : Errno := 22
def ENOSPC : Errno := 28
def EROFS : Errno := 30
def ENOTEMPTY : Errno := 39

/-- An I/O error: one the kernel reported, or one the standard library made. -/
inductive IoError
  | os (errno : Errno)
  | other (what : String)
  deriving DecidableEq, Repr

def IoError.rawOsError : IoError → Option Errno
  | .os e => some e
  | .other _ => none

def IoError.isNotFound (e : IoError) : Bool := e.rawOsError == some ENOENT

end Beskar7Inspector.Lib.Os
