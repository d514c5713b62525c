/-!
# Reading input lines

The program's input is a sequence of bytes. A line is everything up to and including the next
line feed, or the rest of the bytes if there is none. Reading fails at the end of the bytes, and
when the line is not valid UTF-8; such a line is still consumed.
-/

namespace RpnLang

/-- Why no input line could be read. -/
inductive InputFailure where
  /-- No bytes are left. -/
  | endOfInput
  /-- The line's bytes are not valid UTF-8. -/
  | invalidUtf8
  deriving DecidableEq, Repr

/-- The failure in words. -/
def InputFailure.text : InputFailure → String
  | .endOfInput => "end of input reached"
  | .invalidUtf8 => "stream did not contain valid UTF-8"

/-- The bytes of a line, up to and including its line feed, and the bytes after it. -/
def splitLine (bytes : List UInt8) : List UInt8 × List UInt8 :=
  match bytes.span (· != 10) with
  | (line, nl :: rest) => (line ++ [nl], rest)
  | (line, []) => (line, [])

/-- Reads the next line as text: the text or why there is none, and the bytes left. A line that
is not valid UTF-8 is consumed all the same. -/
def readLine (bytes : List UInt8) : Except InputFailure String × List UInt8 :=
  if bytes.isEmpty then (.error .endOfInput, bytes)
  else
    let (line, rest) := splitLine bytes
    match String.fromUTF8? line.toByteArray with
    | some s => (.ok s, rest)
    | none => (.error .invalidUtf8, rest)

end RpnLang
