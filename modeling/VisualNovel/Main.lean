import VisualNovel.Disk.Bytes
import VisualNovel.Disk.Change
import VisualNovel.Program
import Std.Time.Format

/-!
# The command line

The player reads commands from the standard input and prints what is shown; when
the first word is `scenario-check`, the scenarios are checked instead. Both work on the
files below the working directory. They are read before every command, because
others may have changed them, and what a command changes is written back after it.
-/

namespace VisualNovel.CommandLine

/-- The present moment. -/
def readClock : IO Clock := do
  let seconds := (← Std.Time.Timestamp.now).toSecondsSinceUnixEpoch.val.toNat
  return ⟨seconds, (← Std.Time.PlainDateTime.now).format "uuuu-MM-dd HH-mm-ss"⟩

/-- The path of a location. -/
def pathOf (location : Location) : String := "/".intercalate location

/-- What is under a name of a directory; a file that cannot be read counts as bytes without a
length. -/
partial def readEntry (entry : IO.FS.DirEntry) : IO (String × Tree) := do
  if ← entry.path.isDir then
    let entries ← (← entry.path.readDir).toList.mapM readEntry
    return (entry.fileName, .directory ⟨entries⟩)
  else
    let content ← try Content.ofBytes <$> IO.FS.readBinFile entry.path
      catch _ => pure (Content.binary 0)
    return (entry.fileName, .file content)

/-- The files below the working directory. -/
def readDisk : IO Disk := do
  let entries ← (← (← IO.currentDir).readDir).toList.mapM readEntry
  return ⟨⟨entries⟩⟩

/-- Does to the files what has to be done. -/
def apply : Change → IO Unit
  | .makeDirectory location => IO.FS.createDirAll (pathOf location)
  | .writeText location text => IO.FS.writeFile (pathOf location) text
  | .removeFile location => IO.FS.removeFile (pathOf location)

/-- Prints what a session has printed, and writes back what it has changed. -/
def release (before : Disk) (s : Session) : IO Session := do
  (before.changes s.disk).forM apply
  let ((printed, _), s) := s.takeOutput
  printed.forM IO.println
  (← IO.getStdout).flush
  return s

/-- Prints usage, and says with which code a program ends that does not run. -/
def stop (usage : List String) (reason : Program.Stop) : IO UInt32 := do
  let (code, output) := Program.stopped usage reason
  output.forM IO.println
  if reason == .badArguments then usage.forM IO.eprintln
  return UInt32.ofNat code

/-- The next line of an input with the line feed that ends it, after bytes that were already
read; no bytes at all, if there are no more lines. -/
partial def readLine (input : IO.FS.Stream) (bytes : ByteArray) : IO ByteArray := do
  let next ← input.read 1
  if next.isEmpty then return bytes
  else if next.toList = [10] then return bytes ++ next
  else readLine input (bytes ++ next)

/-- Takes commands until there are no more; a line that is no text ends the program badly. -/
partial def converse (s : Session) : IO UInt32 := do
  let bytes ← readLine (← IO.getStdin) .empty
  if bytes.isEmpty then return 0
  match String.fromUTF8? bytes with
  | none => return 1
  | some line =>
    let before ← readDisk
    let (s, response) := Program.feed { s with disk := before, clock := ← readClock } line
    let s ← release before s
    match response with
    | .quit => return 0
    | .brokenOff => return UInt32.ofNat Program.brokenOffCode
    | .unknown reason | .settled (.error reason) _ =>
      IO.eprintln reason.message
      converse s
    | .settled (.ok ()) _ => converse s

/-- Runs the player. -/
def play (args : List String) : IO UInt32 := do
  match Program.readPlayer args with
  | .error reason => stop Program.playerUsage reason
  | .ok o =>
    let before ← readDisk
    match Program.open? (Program.configure o before) (o.has "scenario-editor")
        (o.has "skip-intro") (← readClock) before with
    | (after, .error reason) =>
      (before.changes after).forM apply
      IO.eprintln reason.message
      return 1
    | (_, .ok (s, frame)) =>
      let s ← release before s
      if frame.isSome then converse s else return UInt32.ofNat Program.brokenOffCode

/-- Runs the checker, whose report goes to the standard error. -/
def check (args : List String) : IO UInt32 := do
  let ending := Program.runChecker args (← readDisk)
  ending.output.forM IO.println
  ending.report.forM IO.eprintln
  return UInt32.ofNat ending.code

end VisualNovel.CommandLine

/-- Runs the program that the first word names. -/
def main (args : List String) : IO UInt32 :=
  match args with
  | "scenario-check" :: _ => VisualNovel.CommandLine.check args
  | _ => VisualNovel.CommandLine.play args
