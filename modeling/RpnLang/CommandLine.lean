import RpnLang.Pipeline

/-!
# The command line

`luminax [--trace] [--postfix] [--check] FILE` translates the program in FILE and runs it on
standard input. Info lines, trace lines (with `--trace`), the code (with `--postfix`) and the
program's output go to standard output, errors to standard error. The exit status is 0 on
success, 1 when translation fails, 2 on a runtime error or a bad command line, and 3 when the
file cannot be read. `--check` stops after translation.

Arguments are read left to right. `-h`/`--help` and `-V`/`--version` answer as soon as they
are met. A flag given twice, an unknown flag, a value attached to a flag, a second file or a
missing file is an error, reported with a usage line; an unknown long flag that resembles a
known one is answered with a suggestion. After `--` every argument is a file name.

Everything here is pure: the file's contents and the input bytes are given, and the result is
the exit status with the two output texts.
-/

namespace RpnLang

/-- The flags that switch something on. -/
inductive Flag where
  /-- Show a trace line per consumed record. -/
  | trace
  /-- Show the code after translation. -/
  | showCode
  /-- Stop after translation. -/
  | checkOnly
  deriving DecidableEq, Repr

/-- The flag's spelling. -/
def Flag.spelling : Flag → String
  | .trace => "--trace"
  | .showCode => "--postfix"
  | .checkOnly => "--check"

/-- An argument that the command line accepted, for usage lines. -/
inductive Given where
  /-- A flag. -/
  | flag (f : Flag)
  /-- The file name. -/
  | file
  /-- The help flag, named only when suggested. -/
  | help
  /-- The version flag, named only when suggested. -/
  | version
  deriving DecidableEq, Repr

/-- What the command line asks for. -/
structure Options where
  /-- The program's file name. -/
  file : String
  /-- The flags given. -/
  flags : List Flag
  deriving Repr

/-- A request read from the arguments. -/
inductive Request where
  /-- Show the help text. -/
  | help
  /-- Show the version. -/
  | version
  /-- Translate, and run unless `--check` was given. -/
  | run (o : Options)
  deriving Repr

/-- Why the arguments could not be read. -/
inductive ArgError where
  /-- No file name was given. -/
  | missingFile (given : List Given)
  /-- An argument is no known flag; a similar flag may be suggested. -/
  | unknown (arg : String) (suggestion : Option String) (given : List Given)
  /-- A short flag is unknown. -/
  | unknownShort (arg : String)
  /-- A flag was given twice. -/
  | repeated (flag : String)
  /-- A value was attached to a flag that takes none; `earlier` are the arguments accepted
  before that flag. -/
  | attachedValue (value : String) (flag : Given) (earlier : List Given)
  /-- A second file name. -/
  | extra (arg : String)
  deriving Repr

/-- The spelling of an accepted argument in a usage line. -/
def Given.spelling : Given → Option String
  | .flag f => some f.spelling
  | .help => some "--help"
  | .version => some "--version"
  | .file => none

/-- The usage line: the generic one when nothing was accepted yet, else the flags accepted so
far and the file. A missing file counts as accepted, so its usage line is never generic. -/
def usageLine (given : List Given) : String :=
  if given.isEmpty then "Usage: luminax [OPTIONS] <FILE>"
  else "Usage: luminax " ++ " ".intercalate (given.filterMap Given.spelling ++ ["<FILE>"])

/-- The text after the error line: the usage line and a pointer to the help. -/
def errorTail (given : List Given) : String :=
  "\n\n" ++ usageLine given ++ "\n\nFor more information, try '--help'.\n"

/-- The file and the three working flags form one group of the command; help and version stand
outside it. -/
def Given.inGroup : Given → Bool
  | .flag _ | .file => true
  | .help | .version => false

/-- The usage line after a value was attached to a flag. Before any flag of the group has been
taken in, it names the offending flag and the file. Afterwards it names the whole group in
place of its members, after the offending flag if that flag is outside the group. -/
def attachedUsage (flag : Given) (earlier : List Given) : String :=
  let name := flag.spelling.getD ""
  if earlier.any fun g => g matches .flag _ then
    "Usage: luminax " ++ (if flag.inGroup then "" else name ++ " ") ++
      "<FILE|--trace|--postfix|--check>"
  else "Usage: luminax " ++ name ++ " <FILE>"

/-- The full error text on standard error. -/
def ArgError.text : ArgError → String
  | .missingFile given =>
    "error: the following required arguments were not provided:\n  <FILE>" ++
      errorTail (given ++ [.file])
  | .unknown arg (some s) given =>
    s!"error: unexpected argument '{arg}' found\n\n  tip: a similar argument exists: '{s}'" ++
      errorTail given
  | .unknown arg none given =>
    s!"error: unexpected argument '{arg}' found\n\n  tip: to pass '{arg}' as a value, use '-- {arg}'" ++
      errorTail given
  | .unknownShort arg =>
    s!"error: unexpected argument '{arg}' found\n\n  tip: to pass '{arg}' as a value, use '-- {arg}'" ++
      errorTail []
  | .repeated flag => s!"error: the argument '{flag}' cannot be used multiple times" ++ errorTail []
  | .attachedValue value flag earlier =>
    "error: unexpected value '" ++ value ++ "' for '" ++ flag.spelling.getD "" ++
      "' found; no more were expected\n\n" ++ attachedUsage flag earlier ++
      "\n\nFor more information, try '--help'.\n"
  | .extra arg => s!"error: unexpected argument '{arg}' found" ++ errorTail []

/-- The long flags in the order they are offered as suggestions. -/
def longNames : List String := ["trace", "postfix", "check", "help", "version"]

/-- The matches and transpositions of two words in the Jaro measure: characters match when
equal and at most half the longer length less one apart, each used once, every character of
the first word taking the first free equal character of the second; the transpositions are
half the matched pairs that differ when both words' matched characters are read in order. -/
def jaroCounts (a b : List Char) : Nat × Nat :=
  let range := max a.length b.length / 2 - 1
  let step := fun (acc : List Bool × List Bool) (p : Char × Nat) =>
    let (c, i) := p
    let lo := i - range
    let hi := min b.length (i + range + 1)
    match (List.range b.length).find? fun j =>
        lo ≤ j && j < hi && b[j]? == some c && acc.2[j]? == some false with
    | some j => (acc.1 ++ [true], acc.2.set j true)
    | none => (acc.1 ++ [false], acc.2)
  let (aFlags, bFlags) := a.zipIdx.foldl step ([], List.replicate b.length false)
  let am := (a.zip aFlags).filterMap fun (c, f) => if f then some c else none
  let bm := (b.zip bFlags).filterMap fun (c, f) => if f then some c else none
  (am.length, ((am.zip bm).filter fun (x, y) => x != y).length / 2)

/-- Jaro similarity of two words in double precision: the average of the matched shares of
both words and the share of matches that are not transposed, summed in that order. The sums
are rounded as doubles, so a similarity of exactly 0.7 can come out just above 0.7; the
suggestion threshold sees that rounded value. -/
def jaro (a b : List Char) : Float :=
  if a.isEmpty && b.isEmpty then 1
  else if a.isEmpty || b.isEmpty then 0
  else
    let (m, t) := jaroCounts a b
    if m = 0 then 0
    else
      let mf := Float.ofNat m
      (mf / Float.ofNat a.length + mf / Float.ofNat b.length + Float.ofNat (m - t) / mf) / 3

/-- The known long flag most similar to an unknown one, if its similarity exceeds 0.7; of
equally similar ones the last. -/
def suggestion? (name : String) : Option String :=
  let scored := longNames.filterMap fun n =>
    let x := jaro name.toList n.toList
    if x > 0.7 then some (n, x) else none
  let better := fun (acc : Option (String × Float)) (c : String × Float) =>
    match acc with
    | none => some c
    | some (_, x) => if c.2 ≥ x then some c else acc
  (scored.foldl better none).map (·.1)

/-- What has been read from the arguments so far. -/
structure ArgState where
  /-- The file name, once given. -/
  file : Option String := none
  /-- The flags given, in order. -/
  flags : List Flag := []
  /-- The accepted arguments, in order. -/
  given : List Given := []
  /-- A `--` has been met. -/
  onlyFiles : Bool := false

/-- Accepts a file name. -/
def ArgState.addFile (st : ArgState) (arg : String) : Except ArgError ArgState :=
  match st.file with
  | none => .ok { st with file := some arg, given := st.given ++ [.file] }
  | some _ => .error (.extra arg)

/-- The flag of a long name. -/
def Flag.ofName? : String → Option Flag
  | "trace" => some .trace
  | "postfix" => some .showCode
  | "check" => some .checkOnly
  | _ => none

/-- What one argument leads to: more arguments to read, a finished request, or an error. -/
inductive ArgStep where
  /-- Read on. -/
  | next (st : ArgState)
  /-- A request that answers at once. -/
  | done (r : Request)
  /-- The arguments are bad. -/
  | fail (e : ArgError)

/-- Reads a long flag, with its attached value if any. -/
def ArgState.long (st : ArgState) (name : String) (value : Option String) : ArgStep :=
  match name, value with
  | "help", none => .done .help
  | "version", none => .done .version
  | "help", some v => .fail (.attachedValue v .help st.given)
  | "version", some v => .fail (.attachedValue v .version st.given)
  | _, _ =>
    match Flag.ofName? name with
    | some f =>
      match value with
      | some v => .fail (.attachedValue v (.flag f) st.given)
      | none =>
        if f ∈ st.flags then .fail (.repeated f.spelling)
        else .next { st with flags := st.flags ++ [f], given := st.given ++ [.flag f] }
    | none =>
      let arg := "--" ++ name
      match suggestion? name with
      | some s =>
        let g : Given := match Flag.ofName? s with
          | some f => .flag f
          | none => if s = "help" then .help else .version
        .fail (.unknown arg (some ("--" ++ s)) (if g ∈ st.given then st.given else st.given ++ [g]))
      | none => .fail (.unknown arg none st.given)

/-- Reads a cluster of short flags: `h` and `V` answer at once, any other letter is unknown. -/
def shortFlags : List Char → ArgStep → ArgStep
  | [], step => step
  | c :: cs, step =>
    if c = 'h' then .done .help
    else if c = 'V' then .done .version
    else
      match step with
      | .next _ => .fail (.unknownShort ("-" ++ String.singleton c))
      | other => shortFlags cs other

/-- Reads one argument. -/
def ArgState.read (st : ArgState) (arg : String) : ArgStep :=
  let cs := arg.toList
  if st.onlyFiles then
    match st.addFile arg with
    | .ok st => .next st
    | .error e => .fail e
  else if arg = "--" then .next { st with onlyFiles := true }
  else
    match cs with
    | '-' :: '-' :: rest =>
      match rest.span (· != '=') with
      | (name, []) => st.long (String.ofList name) none
      | (name, _ :: value) => st.long (String.ofList name) (some (String.ofList value))
    | '-' :: c :: rest => shortFlags (c :: rest) (.next st)
    | _ =>
      match st.addFile arg with
      | .ok st => .next st
      | .error e => .fail e

/-- Reads all arguments. -/
def readArgs (args : List String) : Except ArgError Request :=
  let rec go (st : ArgState) : List String → Except ArgError Request
    | [] =>
      match st.file with
      | some f => .ok (.run ⟨f, st.flags⟩)
      | none => .error (.missingFile st.given)
    | a :: rest =>
      match st.read a with
      | .next st => go st rest
      | .done r => .ok r
      | .fail e => .error e
  go {} args

/-- The help text. -/
def helpText : String :=
  "Usage: luminax [OPTIONS] <FILE>\n\nArguments:\n  <FILE>  Path of the program source\n\n" ++
  "Options:\n      --trace    Show every token accepted by the parser\n" ++
  "      --postfix  Print the postfix code after translation\n" ++
  "      --check    Translate only, do not run the program\n" ++
  "  -h, --help     Print help\n  -V, --version  Print version\n"

/-- The version text. -/
def versionText : String := "luminax 0.1.0\n"

/-- Why the program's file could not be read. -/
inductive FileError where
  /-- There is no such file. -/
  | notFound
  /-- The name is a directory. -/
  | isDirectory
  /-- A directory in the name is a file. -/
  | notDirectory
  /-- The file is not valid UTF-8. -/
  | invalidUtf8
  /-- Another system error, with its text. -/
  | other (text : String)
  deriving DecidableEq, Repr

/-- The error's text, as the operating system reports it. -/
def FileError.text : FileError → String
  | .notFound => "No such file or directory (os error 2)"
  | .isDirectory => "Is a directory (os error 21)"
  | .notDirectory => "Not a directory (os error 20)"
  | .invalidUtf8 => "stream did not contain valid UTF-8"
  | .other t => t

/-- The lines of a text: split at line feeds, a carriage return before a line feed dropped, and
no empty last line after a final line feed. -/
def splitLines (text : String) : List String :=
  let pieces := text.splitOn "\n"
  let pieces := if text.endsWith "\n" then pieces.dropLast else pieces
  let pieces := if text.isEmpty then [] else pieces
  let n := pieces.length
  pieces.zipIdx.map fun (p, i) =>
    if (i + 1 < n || text.endsWith "\n") && p.endsWith "\r" then String.ofList p.toList.dropLast
    else p

/-- What a run of the command line yields. -/
structure CliResult where
  /-- The exit status. -/
  exit : Nat
  /-- Standard output. -/
  stdout : String := ""
  /-- Standard error. -/
  stderr : String := ""
  deriving Repr

/-- Writes diagnostics to the two outputs: trace lines only when asked for, errors to standard
error, all else to standard output, one per line. -/
def CliResult.write (r : CliResult) (showTrace : Bool) (ds : List Diagnostic) : CliResult :=
  let put := fun (r : CliResult) (d : Diagnostic) =>
    match d with
    | .info t | .output t => { r with stdout := r.stdout ++ t ++ "\n" }
    | .trace t => if showTrace then { r with stdout := r.stdout ++ t ++ "\n" } else r
    | .error t => { r with stderr := r.stderr ++ t ++ "\n" }
  ds.foldl put r

/-- Carries out a run request, given the file's contents (or why it could not be read) and
the input bytes. -/
def respond (o : Options) (file : Except FileError String) (input : List UInt8) : CliResult :=
  match file with
  | .error e => { exit := 3, stderr := o.file ++ ": " ++ e.text ++ "\n" }
  | .ok text =>
    let showTrace := Flag.trace ∈ o.flags
    match translate (splitLines text) with
    | (ds, .error e) => ({ exit := 1 } : CliResult).write showTrace (ds ++ e.report)
    | (ds, .ok t) =>
      let r := ({ exit := 0 } : CliResult).write showTrace ds
      let r := if Flag.showCode ∈ o.flags then
          r.write showTrace [.output ("Postfix: " ++ renderCode t.code)]
        else r
      if Flag.checkOnly ∈ o.flags then r
      else
        let (ds, outcome, _) := execute t input
        let r := r.write showTrace ds
        { r with exit := if outcome = .success then 0 else 2 }

/-- The whole command line: arguments, a reader for files and the input bytes. -/
def commandLine (args : List String) (readFile : String → Except FileError String)
    (input : List UInt8) : CliResult :=
  match readArgs args with
  | .error e => { exit := 2, stderr := e.text }
  | .ok .help => { exit := 0, stdout := helpText }
  | .ok .version => { exit := 0, stdout := versionText }
  | .ok (.run o) => respond o (readFile o.file) input

end RpnLang
