import SecondChance.Scan.Workload

/-!
The scan program as a command: it brings the file that the arguments name into a drive, works there,
and takes the result back to the operating system.
-/

namespace SecondChance.Scan

def helpText : String :=
  "Runs a sequential-scan workload through a clock buffer pool and prints\n"
    ++ "the frame table afterwards\n\n"
    ++ "Options:\n"
    ++ "      --path <PATH>            Page file to scan, created if missing\n"
    ++ "      --pool-size <POOL_SIZE>  Number of buffer frames\n"
    ++ "      --pages <PAGES>          Number of pages the file should hold\n"
    ++ "      --passes <PASSES>        Number of full scans; each scan bumps a counter on every page"

def placesOf (path : String) : List String :=
  let names := (Drive.namesIn path.toList).filter (· ≠ ".")
  (List.range names.length).map fun n =>
    Drive.base path.toList ++ "/".intercalate (names.take (n + 1)) ++ "/"

def isDirectory (place : String) : IO Bool := do
  match ← (IO.FS.realPath (place ++ ".")).toBaseIO with
  | .ok _ => return true
  | .error _ => return false

/-- The part of the operating system's files that a path concerns. -/
def driveOf (path : String) : IO Drive := do
  let directories ← (placesOf path).filterM isDirectory
  let drive : Drive := { Drive.empty with directories := directories }
  match drive.resolve path, ← (IO.FS.readBinFile path).toBaseIO with
  | .ok place, .ok bytes => return drive.put place bytes.data
  | _, _ => return drive

def elapsedText (nanoseconds : Nat) : String :=
  let micros := nanoseconds / 1000
  let fraction := toString (micros % 1000)
  s!"{micros / 1000}." ++ "".pushn '0' (3 - fraction.length) ++ fraction ++ "ms"

/-- Runs the program and brings the file it worked on back to the operating system. -/
def runOnSystem (a : Arguments) : IO UInt32 := do
  let before ← driveOf a.path
  let start ← IO.monoNanosNow
  let outcome := run before a
  if let .ok place := outcome.drive.resolve a.path then
    if let some bytes := outcome.drive.contents? place then
      IO.FS.writeBinFile a.path ⟨bytes⟩
  let stop ← IO.monoNanosNow
  let last := outcome.output.length - 1
  for (line, n) in outcome.output.zipIdx do
    IO.println (if n = last then line ++ " in " ++ elapsedText (stop - start) else line)
  if let some text := outcome.complaint then IO.eprint text
  return outcome.code.toUInt32

end SecondChance.Scan

open SecondChance.Scan in
def main (args : List String) : IO UInt32 := do
  match parse args with
  | .run a => runOnSystem a
  | .inform =>
    IO.println helpText
    return 0
  | .invalid =>
    IO.eprintln "error: invalid arguments\n\nFor more information, try '--help'."
    return 2
