import TriGraph.CommandLine
import TriGraph.Text.Uuid

/-!
# The program

Reads the one file that a command line asks for and hands its contents on; all else is decided there.
-/

namespace TriGraph.Main

def fault : IO.Error → FileFault
  | .noFileOrDirectory .. => .absent
  | .inappropriateType _ code _ => if code = 21 then .isDirectory else .notDirectory
  | .permissionDenied .. => .denied
  | e => .other (toString e)

def readFile (path : String) : IO (Except FileFault ByteArray) := do
  try
    return .ok (← IO.FS.readBinFile path)
  catch e =>
    return .error (fault e)

def settings? : IO (Option String) := do
  match ← IO.getEnv "XDG_CONFIG_HOME", ← IO.getEnv "HOME" with
  | some dir, home => return if dir.startsWith "/" then some dir else home.map (· ++ "/.config")
  | none, home => return home.map (· ++ "/.config")

def standardSeed? : IO (Option String) := do
  match (← settings?).map (· ++ "/" ++ CommandLine.defaultSeed) with
  | some path =>
    match ← readFile path with
    | .error .absent => return none
    | .error .notDirectory => return none
    | _ => return some path
  | none => return none

def drawNumber : IO Nat := do
  let bytes ← IO.getRandomBytes 16
  return bytes.toList.foldl (fun n b => 256 * n + b.toNat) 0

end TriGraph.Main

open TriGraph in
def main (args : List String) : IO UInt32 := do
  let standard ← Main.standardSeed?
  let contents ← match CommandLine.seedPath? standard args with
    | some path => Main.readFile path
    | none => pure (.error .absent)
  let number ← Main.drawNumber
  let fresh (n : Nat) := Text.Uuid.ofNumber (number + n)
  let outcome := CommandLine.run fresh (fun _ => contents) standard args
  IO.print outcome.output
  outcome.errors.forM fun line => IO.eprintln line
  return outcome.code.toUInt32
