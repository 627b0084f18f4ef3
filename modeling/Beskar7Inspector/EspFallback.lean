import Beskar7Inspector.Deploy
import Beskar7Inspector.Lib.FileCalls
import Beskar7Inspector.Lib.Text
import Beskar7Inspector.Lib.Utf8

namespace Beskar7Inspector.EspFallback

open Lib.Program Lib.Os Lib.Text Lib.Files Lib.FileCalls Deploy

def markerDirName : String := "beskar7"

def startupNshFilename : String := "startup.nsh"

/-- Where the EFI Shell looks for a start-up script, in its order. -/
def startupNshDirs : List (List String) := [["EFI", "tools"], ["EFI", "BOOT"], []]

def startupNshSignature : String := "# Written by beskar7-inspector"

def startupNshMappings : Nat := 32

def markerContents : List UInt8 := utf8 "beskar7 deploy marker\r\n"

/-- The files of the ESP. Its names are ASCII, and FAT ignores their case. -/
abbrev EspTree := FileTree asciiLower

abbrev EspPath := Path String

structure StepError where
  step : String
  source : IoError
  deriving DecidableEq

def reading : IoError → StepError := StepError.mk "reading the ESP"

def removingScript : IoError → StepError := StepError.mk "removing an earlier startup.nsh of ours"

def placing : IoError → StepError := StepError.mk "putting the marker and startup.nsh in place"

abbrev FileIo := Try (FileOp String) IoError

abbrev EspIo := Try (FileOp String) StepError

def renderStartupNsh (arch : Arch) (marker : String) : String :=
  let last := Nat.repr (startupNshMappings - 1)
  let loader := arch.espLoaderPath
  let lines := ["@echo -off",
    startupNshSignature ++ ": boot the disk provisioned with marker " ++ marker ++ ".",
    "set -v b7found 0",
    "for %i run (0 " ++ last ++ ")",
    "  if exist FS%i:\\EFI\\" ++ markerDirName ++ "\\" ++ marker ++ ".id then",
    "    set -v b7found 1",
    "    echo beskar7: starting FS%i:" ++ loader,
    "    FS%i:" ++ loader,
    "    echo beskar7: " ++ loader ++ " on FS%i: returned",
    "  endif",
    "endfor",
    "if %b7found% == 0 then",
    "  echo beskar7: no disk with marker " ++ marker ++ " found, stopping at the Shell prompt",
    "endif"]
  String.intercalate "\r\n" lines ++ "\r\n"

/-- The first entry of a listing with the wanted name. -/
def findEntry (dir : EspPath) (name : String) : List String → FileIo (Option EspPath)
  | [] => do
      attempt (.nextEntry dir) id
      pure none
  | stored :: rest => do
      attempt (.nextEntry dir) id
      if eqIgnoreAsciiCase stored name then pure (some (dir.join stored)) else findEntry dir name rest

/-- The entry of a directory by its name, in whatever case. -/
def child (dir : EspPath) (name : String) : FileIo (Option EspPath) := do
  let entries ← listing dir
  match entries with
  | none => pure none
  | some names => findEntry dir name names

def resolveFrom : EspPath → List String → FileIo (Option EspPath)
  | path, [] => do
      let file ← always (.isFile path)
      pure (if file then some path else none)
  | path, part :: parts => do
      let next ← child path part
      match next with
      | none => pure none
      | some next => resolveFrom next parts

/-- The regular file at the given names, in whatever case. -/
def resolveFile (parts : List String) : FileIo (Option EspPath) := resolveFrom .root parts

/-- The UEFI path, by the stored names. -/
def uefiPath : EspPath → String
  | .root => ""
  | .join dir name => uefiPath dir ++ "\\" ++ name

/-- The text of the signature stands in the contents, by its bytes. -/
def hasSignature (contents : List UInt8) : Bool := decide (utf8 startupNshSignature <:+: contents)

/-- It stands in their lossy decoding just then. -/
theorem hasSignature_iff (contents : List UInt8) :
    hasSignature contents = true ↔ startupNshSignature.toList <:+: (Lib.Utf8.fromUtf8Lossy contents).toList := by
  have hascii : startupNshSignature.toList.all (fun c => decide (c.toNat < 128)) = true := by decide
  rw [hasSignature, decide_eq_true_eq]
  exact (Lib.Utf8.infix_fromUtf8Lossy_iff (by simpa using hascii) (by decide) contents).symm

def isOurs (path : EspPath) : FileIo Bool := do
  let contents ← attempt (.read path) id
  pure (hasSignature contents)

/-- The scripts found: ours with whether it is the one at the root, and the
first that is the image's. -/
structure Scripts where
  ours : List (Bool × EspPath)
  imageScript : Option EspPath

def scanScripts : List (List String) → Scripts → EspIo Scripts
  | [], found => pure found
  | dir :: dirs, found => do
      let file ← mapErr reading (resolveFile (dir ++ [startupNshFilename]))
      match file with
      | none => scanScripts dirs found
      | some path => do
          let mine ← mapErr reading (isOurs path)
          if mine then scanScripts dirs { found with ours := found.ours ++ [(dir.isEmpty, path)] }
          else if found.imageScript.isNone then scanScripts dirs { found with imageScript := some path }
          else scanScripts dirs found

/-- The extension of a file name: what follows its last dot, unless that dot comes first. -/
def extension (name : String) : Option String :=
  let ext := (name.toList.reverse.takeWhile (· ≠ '.')).reverse
  if ext.length + 1 < name.toList.length then some (String.ofList ext) else none

def isMarkerName (name : String) : Bool := (extension name).any (eqIgnoreAsciiCase · "id")

def removeEach (markerDir : EspPath) (keep : Option EspPath) : List String → EspIo Unit
  | [] => attempt (.nextEntry markerDir) reading
  | name :: rest => do
      attempt (.nextEntry markerDir) reading
      let path := markerDir.join name
      if isMarkerName name ∧ some path ≠ keep then
        attempt (.removeFile path) (StepError.mk "removing an old marker")
      removeEach markerDir keep rest

/-- Remove every marker but the one to keep. A missing directory has none. -/
def removeMarkers (markerDir : EspPath) (keep : Option EspPath) : EspIo Unit := do
  let entries ← mapErr reading (listing markerDir)
  match entries with
  | none => pure ()
  | some names => removeEach markerDir keep names

def removeScripts : List EspPath → EspIo Unit
  | [] => pure ()
  | path :: rest => do
      attempt (.removeFile path) removingScript
      removeScripts rest

def syncDirs : List EspPath → EspIo Unit
  | [] => pure ()
  | dir :: rest => do
      let isDir ← always (.isDir dir)
      if isDir then attempt (.syncDir dir) (StepError.mk "flushing the ESP directories")
      syncDirs rest

/-- The mode a new file gets: read and write for all. -/
def defaultMode : Nat := 0o666

def writeSynced (path : EspPath) (contents : List UInt8) : FileIo Unit := do
  attempt (.openTruncated path defaultMode) id
  attempt (.writeAll path contents) id
  attempt (.syncFile path) id

def discardAll : List EspPath → EspIo Unit
  | [] => pure ()
  | path :: rest => do
      always (.discard path)
      discardAll rest

/-- The paths of a run, once the directory `EFI` is found. -/
structure Places where
  efiDir : EspPath
  marker : String

namespace Places

variable (pl : Places)

def markerDir : EspPath := pl.efiDir.join markerDirName

def newMarker : EspPath := pl.markerDir.join (pl.marker ++ ".id")

def tmpMarker : EspPath := pl.markerDir.join (pl.marker ++ ".id.tmp")

def dirs : List EspPath := [.root, pl.efiDir, pl.markerDir]

end Places

def script : EspPath := .join .root startupNshFilename

def tmpScript : EspPath := .join .root (startupNshFilename ++ ".tmp")

/-- The image's script stays; what is ours goes. -/
def leaveInPlace (pl : Places) (ours : List (Bool × EspPath)) (imageScript : EspPath) : EspIo StartupNsh := do
  removeScripts (ours.map Prod.snd)
  removeMarkers pl.markerDir none
  syncDirs pl.dirs
  pure (.leftInPlace (uefiPath imageScript))

def writeTemporaries (arch : Arch) (pl : Places) : EspIo Unit := do
  mapErr (StepError.mk "writing the marker") (writeSynced pl.tmpMarker markerContents)
  mapErr (StepError.mk "writing startup.nsh") (writeSynced tmpScript (utf8 (renderStartupNsh arch pl.marker)))

/-- Undo what was written, then stop. -/
def undo (pl : Places) (also : List EspPath) (e : StepError) : EspIo Unit := do
  discardAll ([pl.tmpMarker, tmpScript] ++ also)
  throw e

/-- Both files under temporary names, then into place: the marker, then the script. -/
def putInPlace (arch : Arch) (pl : Places) : EspIo Unit := do
  let written ← outcome (writeTemporaries arch pl)
  match written with
  | .error e => undo pl [] e
  | .ok () => do
      let placed ← outcome (attempt (.rename pl.tmpMarker pl.newMarker) placing)
      match placed with
      | .error e => undo pl [] e
      | .ok () => do
          let placed ← outcome (attempt (.rename tmpScript script) placing)
          match placed with
          | .error e => undo pl [pl.newMarker] e
          | .ok () => pure ()

/-- Older markers, and scripts of ours outside the root. -/
def removeStale (pl : Places) (ours : List (Bool × EspPath)) : EspIo Unit := do
  removeMarkers pl.markerDir (some pl.newMarker)
  removeScripts ((ours.filter (!·.1)).map Prod.snd)
  syncDirs pl.dirs

def writePair (arch : Arch) (pl : Places) (ours : List (Bool × EspPath)) : EspIo StartupNsh := do
  attempt (.createDirAll pl.markerDir) (StepError.mk "creating \\EFI\\beskar7")
  putInPlace arch pl
  removeStale pl ours
  pure (.written (!ours.isEmpty))

def writeEspFiles (arch : Arch) (marker : String) : EspIo StartupNsh := do
  let efi ← mapErr reading (child .root "EFI")
  let pl : Places := ⟨efi.getD (.join .root "EFI"), marker⟩
  let found ← scanScripts startupNshDirs ⟨[], none⟩
  match found.imageScript with
  | some imageScript => leaveInPlace pl found.ours imageScript
  | none => writePair arch pl found.ours

def isFullOrReadOnly (e : IoError) : Bool := e.rawOsError == some ENOSPC || e.rawOsError == some EROFS

/-- A full or read-only ESP only skips the fallback. The text of the error is
the standard library's. -/
def fallbackOutcome (text : IoError → String) : Except StepError StartupNsh → Except DeployError StartupNsh
  | .ok outcome => .ok outcome
  | .error e =>
      if isFullOrReadOnly e.source then .ok (.notWritten (e.step ++ ": " ++ text e.source))
      else .error (.espWrite e.step e.source)

def writeEspFallback (text : IoError → String) (arch : Arch) (marker : String) : Try (FileOp String) DeployError StartupNsh :=
  mapResult (fallbackOutcome text) (writeEspFiles arch marker)

end Beskar7Inspector.EspFallback
