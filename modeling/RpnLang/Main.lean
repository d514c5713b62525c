import RpnLang.CommandLine

/-!
# The executable

Reads the program file and standard input, hands both to the command line, and writes what it
answers. Nothing is decided here beyond turning system errors into the command line's file
errors.
-/

open RpnLang

/-- The file error that a system error stands for. -/
def fileErrorOf : IO.Error → FileError
  | .noFileOrDirectory .. => .notFound
  | .inappropriateType _ 21 _ => .isDirectory
  | .inappropriateType _ 20 _ => .notDirectory
  | .otherError 21 _ => .isDirectory
  | .otherError 20 _ => .notDirectory
  | e => .other (toString e)

/-- The text of a file, or why it cannot be read. -/
def readProgram (path : String) : IO (Except FileError String) := do
  try
    let bytes ← IO.FS.readBinFile path
    match String.fromUTF8? bytes with
    | some t => pure (.ok t)
    | none => pure (.error .invalidUtf8)
  catch e => pure (.error (fileErrorOf e))

/-- All bytes of a stream. -/
partial def readAll (h : IO.FS.Stream) (acc : ByteArray) : IO ByteArray := do
  let chunk ← h.read 65536
  if chunk.isEmpty then pure acc else readAll h (acc ++ chunk)

/-- Runs the command line on the process's arguments, file and input. -/
def main (args : List String) : IO UInt32 := do
  let (file, needsInput) ← match readArgs args with
    | .ok (.run o) => do pure (← readProgram o.file, !(Flag.checkOnly ∈ o.flags))
    | _ => pure (.error .notFound, false)
  let input ← if needsInput then readAll (← IO.getStdin) ByteArray.empty else pure ByteArray.empty
  let r := commandLine args (fun _ => file) input.toList
  let out ← IO.getStdout
  out.putStr r.stdout
  out.flush
  let err ← IO.getStderr
  err.putStr r.stderr
  err.flush
  pure r.exit.toUInt32
