import TilePyramid.Command.Report
import TilePyramid.Store.FileBytes

/-!
# The program

Reads the named files from the disk, carries out the job, and writes what it makes below the
current directory.
-/
namespace TilePyramid.Disk

/-- Adds the files that can be read to a tree. -/
def fetch (t : FileTree Float32) (paths : List Path) : IO (FileTree Float32) :=
  paths.foldlM (fun t path => do
    try
      let content := FileContent.ofBytes (← IO.FS.readBinFile path.text)
      return (t.write path content).toOption.getD t
    catch _ => return t) t

/-- Writes a file, making the directories above it. -/
def store (path : Path) (bytes : ByteArray) : IO (Except Error Unit) := do
  try
    let above := ((path.parent?).map Path.text).getD ""
    if !above.isEmpty then IO.FS.createDirAll above
    IO.FS.writeBinFile path.text bytes
    return .ok ()
  catch e => return .error (.io e.toString)

/-- Stores encoded tiles and metadata on the disk. -/
def writer (settings : EncodeSettings) : TileWriter IO Float32 where
  writeTile path raster := do
    match tileExtension path >>= fun ext => raster.encode ext settings with
    | .error e => return .error e
    | .ok encoded => store path encoded.bytes
  writeMetadata path text := store path text.toUTF8

/-- Prints a line of the log if it is wanted. -/
def log (limit : Command.LogLevel) (line : Command.LogLine) : IO Unit :=
  if limit.admits line.level then IO.println line.render else return ()

/-- Logs a report that reaches a further tenth of the work. -/
def logProgress (limit : Command.LogLevel) (last : IO.Ref Int) (fraction : Float) : IO Unit := do
  for tenth in loggedTenths (← last.get) [fraction] do
    last.set tenth
    for text in progressLog Command.task [fraction] do
      log limit ⟨.info, text⟩

/-- Carries out a job. -/
def carryOut (limit : Command.LogLevel) (j : Command.Job Float Float32) :
    IO (Except Command.Failure Unit) := do
  j.openingLines.forM (log limit)
  let last ← IO.mkRef (-1)
  match ← j.plan.execute (writer j.options.encodeSettings) (logProgress limit last) with
  | .error e => return .error (.notBuilt e)
  | .ok summary =>
    log limit (Command.closingLine summary)
    return .ok ()

/-- Carries out a command line. -/
def run (words : List String) : IO (Except Command.Failure Unit) := do
  match Arguments.read words with
  | .error fault => return .error (.usage fault)
  | .ok a =>
    let known ← fetch .empty a.optionsFile.toList
    let t ← fetch known (Command.inputPaths known a)
    match Command.job t a with
    | .error failure => return .error failure
    | .ok j => carryOut (.ofText a.logLevel) j

end TilePyramid.Disk

open TilePyramid in
/-- The command line. -/
def main (words : List String) : IO UInt32 := do
  match ← Disk.run words with
  | .ok () => return 0
  | .error failure =>
    if failure.status = 0 then IO.println failure.report else IO.eprintln failure.report
    return UInt32.ofNat failure.status
