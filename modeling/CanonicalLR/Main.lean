import CanonicalLR.CommandLine.Run

/-!
Contract: the program.

Owns:
- the connection of the commands to the file system, the environment and the
  standard streams.

Does not own: any decision on what to read, make or write.
-/

namespace CanonicalLR

/-- The environment variable that sets the verbosity. -/
def verbosityVariable : String := "RUST_LOG"

def usageText : String :=
  "usage: lrtab table FILE [--csv FILE]\n" ++
  "       lrtab text FILE [-o FILE]\n" ++
  "       lrtab graph FILE -o FILE\n" ++
  "       lrtab sets FILE\n" ++
  "options: --eof NAME, --allow-conflicts, --version\n"

/-- The number and the description of an error of the file system. -/
def FileError.ofSystem : IO.Error → FileError
  | .noFileOrDirectory _ code description => .system code.toNat description
  | .inappropriateType _ code description => .system code.toNat description
  | .permissionDenied _ code description => .system code.toNat description
  | .invalidArgument _ code description => .system code.toNat description
  | .resourceExhausted _ code description => .system code.toNat description
  | .illegalOperation code description => .system code.toNat description
  | .otherError code description => .system code.toNat description
  | cause => .system 0 (toString cause)

/-- The files of the machine. -/
def systemFiles : FileAccess IO where
  readText path := do
    try
      let content ← (← IO.FS.Handle.mk path .read).readBinToEnd
      match String.fromUTF8? content with
      | some text => return .ok text
      | none => return .error .notText
    catch cause => return .error (.ofSystem cause)
  writeText path text := do
    try
      IO.FS.writeFile path text
      return .ok ()
    catch cause => return .error (.ofSystem cause)

def program (arguments : List String) : IO UInt32 := do
  let setting := LogSetting.ofText ((← IO.getEnv verbosityVariable).getD "")
  let report ← (Request.ofArguments arguments).report systemFiles setting usageText
  IO.print report.stdout
  IO.eprint report.stderr
  return report.exitStatus.toUInt32

end CanonicalLR

def main (arguments : List String) : IO UInt32 :=
  CanonicalLR.program arguments
