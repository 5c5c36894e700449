/-
The texts for those who ask: what the options are, in short or in full, and which version this is.
Each option is shown with its environment variable and the value that it has. The texts are styled
for terminals: titles are underlined, and what is to be typed as it stands is bold.
-/
import SerialAck.Settings.CommandLine
import SerialAck.Text.Terminal

namespace SerialAck.Settings

/-- The variables that give settings, with the values they have. -/
abbrev Environment := Setting → Option (List UInt8)

namespace Help

def programName : String := "ack-server"

def version : String := programName ++ " 0.1.0\n"

def about : Setting → String
  | .config => "Path to TOML configuration file"
  | .host => "Host to bind to"
  | .port => "Port to bind to"
  | .mode => "Read mode: one byte per read, or up to 1024 bytes per read"
  | .ack => "Acknowledgment sent after every read (defaults per mode)"
  | .idle => "Idle read timeout in seconds (0 = wait forever)"
  | .level => "Log level (trace, debug, info, warn, error)"

def spaces (n : Nat) : String :=
  .ofList (List.replicate n ' ')

/-- The options as the left column names them. -/
def column (s : Setting) : String :=
  (match s.short? with
  | some c => "  " ++ Terminal.bold ("-" ++ .singleton c) ++ ", "
  | none => "      ") ++ Terminal.bold ("--" ++ s.long) ++ " <" ++ s.placeholder ++ ">"

/-- The left column of a request. -/
def requestColumn (short long : String) : String :=
  "  " ++ Terminal.bold short ++ ", " ++ Terminal.bold long

/-- Line ends within a value do not leave the column. -/
def indent (n : Nat) (s : String) : String :=
  .ofList (s.toList.flatMap fun c => if c = '\n' then ("\n" ++ spaces n).toList else [c])

def variableNote (env : Environment) (s : Setting) : String :=
  "[env: " ++ s.variableName ++ "=" ++ Utf8.toString ((env s).getD []) ++ "]"

def opening : String :=
  "A serial TCP server that acknowledges every read\n\n" ++
  Terminal.underlined "Usage:" ++ " " ++ Terminal.bold programName ++ " [OPTIONS]\n\n" ++
  Terminal.underlined "Options:" ++ "\n"

/-- Where the right column of the summary begins. -/
def width : Nat :=
  (Setting.all.map fun s => (Terminal.plain (column s)).length).foldl max 0 + 2

def pad (s : String) : String :=
  s ++ spaces (width - (Terminal.plain s).length)

def summaryLine (env : Environment) (s : Setting) : String :=
  pad (column s) ++ about s ++ " " ++ indent width (variableNote env s) ++
    (if s.possible.isEmpty then "" else
      " [possible values: " ++ String.intercalate ", " s.possible ++ "]") ++ "\n"

def summary (env : Environment) : String :=
  opening ++ .join (Setting.all.map (summaryLine env)) ++
  pad (requestColumn "-h" "--help") ++ "Print help (see more with '--help')\n" ++
  pad (requestColumn "-V" "--version") ++ "Print version\n"

/-- Modes are the only possible values that are explained. -/
def explanation (s : Setting) : String :=
  if s.possible.isEmpty then "" else
    "\n" ++ spaces 10 ++ "Possible values:\n" ++
    spaces 10 ++ "- " ++ Terminal.bold "byte" ++
      ":  One byte per read, with terminator handling\n" ++
    spaces 10 ++ "- " ++ Terminal.bold "chunk" ++ ": Up to \x60CHUNK_SIZE\x60 bytes per read\n"

def detail (env : Environment) (s : Setting) : String :=
  column s ++ "\n" ++ spaces 10 ++ about s ++ "\n" ++ explanation s ++
  spaces 10 ++ "\n" ++ spaces 10 ++ indent 10 (variableNote env s) ++ "\n\n"

def details (env : Environment) : String :=
  opening ++ .join (Setting.all.map (detail env)) ++
  requestColumn "-h" "--help" ++ "\n" ++ spaces 10 ++ "Print help (see a summary with '-h')\n\n" ++
  requestColumn "-V" "--version" ++ "\n" ++ spaces 10 ++ "Print version\n"

end Help

/-- What a request is answered with, on a terminal. -/
def Request.answer (env : Environment) : Request → String
  | .help false => Help.summary env
  | .help true => Help.details env
  | .version => Help.version

end SerialAck.Settings
