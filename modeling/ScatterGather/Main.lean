import Std.Time.DateTime.Timestamp
import ScatterGather.Cli.Session
/-!
The command line: the sessions of `Cli` played for real.
-/
namespace ScatterGather.Cli

def faultOf : IO.Error → FileError
  | .noFileOrDirectory .. => .notFound
  | .inappropriateType _ 21 _ => .isDirectory
  | .inappropriateType .. => .notDirectory
  | .invalidArgument _ 36 _ => .nameTooLong
  | .permissionDenied _ code _ => .other s!"Permission denied (os error {code})"
  | e => .other (toString e)

def readFile (path : String) : IO FileContent := do
  match ← (IO.FS.readBinFile path).toBaseIO with
  | .ok bytes => return .ok bytes
  | .error e => return .error (faultOf e)

def writeFile (path content : String) : IO (Except FileError Unit) := do
  match ← (IO.FS.writeFile path content).toBaseIO with
  | .ok () => return .ok ()
  | .error e => return .error (faultOf e)

/-- Plays a session, and answers with the exit code. -/
def perform : Session → IO UInt32
  | .finish (.ok ()) => return 0
  | .finish (.error f) => do
    IO.eprint f.report
    return 1
  | .print line next => do
    IO.println line
    perform next
  | .pause milliseconds next => do
    IO.sleep (UInt32.ofNat milliseconds)
    perform next
  | .load path next => do
    let content ← readFile path
    perform (next content)
  | .save path content next => do
    let result ← writeFile path content
    perform (next result)

/-- A random identifier of version 4. -/
def freshUuid : IO Uuid := do
  let bytes ← IO.getRandomBytes 16
  let drawn := bytes.toList.foldl (fun n b => 256 * n + b.toNat) 0
  let masked := drawn &&& 0xffffffffffff0fff3fffffffffffffff
  return .ofNat (masked ||| 0x00000000000040008000000000000000)

def ambient : IO Ambient := do
  let now ← Std.Time.Timestamp.now
  let supply ← freshUuid
  return {
    now := Int64.ofInt now.toMillisecondsSinceUnixEpoch.val
    executionId := ⟨← freshUuid⟩
    queryId := ⟨← freshUuid⟩
    subQueryIds := fun i => ⟨.ofNat (supply.bits.toNat ^^^ i)⟩ }

def usageLines : List String := [
  "Usage: qe-shard [OPTIONS] run --metrics <METRICS> [OPTIONS]",
  "       qe-shard [OPTIONS] config [OPTIONS]"]

def answer (words : List String) : IO UInt32 := do
  match Invocation.ofWords words with
  | .ok i => perform (session i (← ambient))
  | .error .version =>
    IO.println versionLine
    return 0
  | .error .help =>
    usageLines.forM IO.println
    return 0
  | .error .misuse =>
    usageLines.forM IO.eprintln
    return 2

end ScatterGather.Cli

def main (args : List String) : IO UInt32 := ScatterGather.Cli.answer args
