import Mips32.CommandLine.Platform

/-! # The command line

    The operating system answers what the program asks for: its arguments, the
    filter for the log, the bytes of the binary, the file for the listing.  The log
    shows no time. -/

namespace Mips32.CommandLine

/-- What the operating system calls a failure, and the number it has for it. -/
def systemText (code : UInt32) (details : String) : String :=
  details.capitalize ++ " (os error " ++ Numeral.decimal code.toNat ++ ")"

/-- The wording of a failed file operation. -/
def failureText : IO.Error → String
  | .noFileOrDirectory _ code details => systemText code details
  | .inappropriateType _ code details => systemText code details
  | .permissionDenied _ code details => systemText code details
  | .resourceExhausted _ code details => systemText code details
  | e => e.toString

/-- The filter that the environment asks for. -/
def logFilter : IO Log.Filter := do
  let word ← IO.getEnv "RUST_LOG"
  return (word.bind Log.Filter.named?).getD Program.defaultFilter

/-- Reads the binary. -/
def readBinary (path : String) : IO (Except String (List UInt8)) := do
  try
    let handle ← IO.FS.Handle.mk path .read
    let bytes ← handle.readBinToEnd
    return .ok bytes.toList
  catch e => return .error (failureText e)

/-- Opens the output, if it is a file. -/
def openOutput (o : Options String) : IO (Except String (Option IO.FS.Handle)) := do
  if o.stdout then return .ok none
  try
    let handle ← IO.FS.Handle.mk o.save .write
    return .ok (some handle)
  catch e => return .error (failureText e)

/-- Shows a report, and gives its exit code. -/
def present (r : Program.Report) : IO UInt32 := do
  let out ← IO.getStdout
  out.write ⟨r.stdout.toArray⟩
  out.flush
  let err ← IO.getStderr
  err.putStr r.stderr
  return r.exit.toUInt32

/-- Saves what was written; a refusal is the run's failure. -/
def saveTo (handle : IO.FS.Handle) (o : Options String) (outcome : Program.Outcome)
    (bytes : Array UInt8) : IO Program.Outcome := do
  try
    handle.write ⟨bytes⟩
    handle.flush
    return outcome
  catch e =>
    let refusal := Listing.Error.write ⟨.other, failureText e⟩
    return { outcome with
      failure := some (Program.failureAt "disassemble" o.file refusal.message) }

/-- Runs the program with options. -/
def runWith (o : Options String) : IO UInt32 := do
  let filter ← logFilter
  let reading ← readBinary o.file
  let opened ← if reading.toBool then openOutput o else pure (.ok none)
  let libraries := libraries fun _ => ""
  let listed := Program.disassemble libraries o reading (opened.map fun _ => {})
  let outcome ←
    match opened, listed.written with
    | .ok (some handle), some bytes => saveTo handle o listed bytes
    | _, _ => pure listed
  present (Program.report libraries o filter outcome)

end Mips32.CommandLine

def main (arguments : List String) : IO UInt32 :=
  match Mips32.Options.parse arguments with
  | .error h => Mips32.CommandLine.present (Mips32.CommandLine.halted h)
  | .ok o => Mips32.CommandLine.runWith o
