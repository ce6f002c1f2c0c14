import VisualNovel.ScenarioCheck
import VisualNovel.Session

/-!
# The programs

Two programs are started from a command line: the player, which reads commands
line by line, and the checker of scenarios. This module reads their options and
says what they do; it neither reads nor prints anything itself.
-/

namespace VisualNovel.Program

/-- The options that a program knows. -/
structure OptionTable where
  flags : List String
  valued : List String
  positionals : Nat
  hasVersion : Bool

/-- The options that were given. -/
structure Options where
  flags : List String
  values : List (String × String)
  positionals : List String

/-- Nothing was given. -/
def Options.none : Options := ⟨[], [], []⟩

/-- Whether a flag was given. -/
def Options.has (o : Options) (flag : String) : Bool := o.flags.contains flag

/-- The value of an option. -/
def Options.value? (o : Options) (name : String) : Option String :=
  (o.values.find? (·.1 == name)).map (·.2)

/-- Why a program does not run. -/
inductive Stop where
  | badArguments
  | help
  | version
deriving DecidableEq, Repr

/-- Adds a flag, which can be given once. -/
def Options.addFlag (o : Options) (flag : String) : Except Stop Options :=
  if o.flags.contains flag then .error .badArguments
  else .ok { o with flags := o.flags ++ [flag] }

/-- Adds a value, which cannot be empty, to an option that can be given once. -/
def Options.addValue (o : Options) (name value : String) : Except Stop Options :=
  if value = "" || (o.value? name).isSome then .error .badArguments
  else .ok { o with values := o.values ++ [(name, value)] }

/-- Adds an argument that is no option. -/
def Options.addPositional (table : OptionTable) (o : Options) (value : String) :
    Except Stop Options :=
  if value = "" || table.positionals ≤ o.positionals.length then .error .badArguments
  else .ok { o with positionals := o.positionals ++ [value] }

/-- What a word that begins with one or two dashes asks for. -/
inductive Mark where
  | long (name : String) (value : Option String)
  | short (letter : Char)
  | endOfOptions
  | plain

/-- How a word begins. -/
def Mark.of (word : String) : Mark :=
  match word.toList with
  | ['-', '-'] => .endOfOptions
  | '-' :: '-' :: rest =>
    match Text.cutAtFirst (· == '=') rest with
    | some (name, value) => .long (String.ofList name) (some (String.ofList value))
    | none => .long (String.ofList rest) .none
  | '-' :: c :: _ => .short c
  | _ => .plain

/-- Reads words, of which the first may be the value of an option that came before. -/
def readWords (table : OptionTable) : Option String → Options → List String → Except Stop Options
  | some _, _, [] => .error .badArguments
  | none, o, [] => .ok o
  | waiting, o, word :: words =>
    match Mark.of word, waiting with
    | .plain, some name => do readWords table .none (← o.addValue name word) words
    | .plain, none => do readWords table .none (← o.addPositional table word) words
    | _, some _ => .error .badArguments
    | .endOfOptions, none => words.foldlM (Options.addPositional table) o
    | .short 'h', none => .error .help
    | .short 'V', none => .error (if table.hasVersion then .version else .badArguments)
    | .short _, none => .error .badArguments
    | .long "help" none, none => .error .help
    | .long name value, none =>
      if table.hasVersion && name == "version" && value.isNone then .error .version
      else if table.flags.contains name && value.isNone then do
        readWords table .none (← o.addFlag name) words
      else if table.valued.contains name then
        match value with
        | some value => do readWords table .none (← o.addValue name value) words
        | none => readWords table (some name) o words
      else .error .badArguments

/-- The options of the player. -/
def playerOptions : OptionTable where
  flags := ["scenario-editor", "advanced-scenes", "disable-presence", "skip-intro"]
  valued := ["config", "root"]
  positionals := 0
  hasVersion := true

/-- How a program ends: its exit code, what it has printed, and the disk that it leaves. -/
structure Ending where
  code : Nat
  output : List String
  disk : Disk

/-- The configuration of a file as the options change it. -/
def configure (o : Options) (disk : Disk) : Config :=
  let config := Config.load disk ((o.value? "config").getD "config.json")
  { config with
    gameRoot := (o.value? "root").getD config.gameRoot
    advancedScenes := config.advancedScenes || o.has "advanced-scenes"
    presence := { config.presence with
      enabled := config.presence.enabled && !o.has "disable-presence" } }

/-- Begins a session: shows the intro and settles for the first time. -/
def open? (config : Config) (editing skipIntro : Bool) (clock : Clock) (disk : Disk) :
    Disk × Except Failure (Session × Option Frame) :=
  match config.validate with
  | .error fault => (disk, .error (.config fault))
  | .ok () =>
    let languages := Languages.load disk (GameFolder.ofConfig config).languages
    match Session.start config editing languages clock disk with
    | (disk, .error e) => (disk, .error e)
    | (disk, .ok session) => (disk, .ok (session.runIntro skipIntro).settle)

/-- What a line that was typed comes to. -/
inductive Response where
  | unknown (reason : Failure)
  | quit
  | brokenOff
  | settled (result : Except Failure Unit) (frame : Frame)

/-- Takes a line that was typed: carries out its command, and settles unless it was to quit. Either
may break the program off. -/
def feed (s : Session) (line : String) : Session × Response :=
  match Command.parse line with
  | .error e => (s, .unknown e)
  | .ok command =>
    match s.execute command with
    | (s, .ok .quit) => (s, .quit)
    | (s, .ok .breakOff) => (s, .brokenOff)
    | (s, result) =>
      match s.settle with
      | (s, none) => (s, .brokenOff)
      | (s, some frame) => (s, .settled (result.map fun _ => ()) frame)

/-- The exit code of a program that breaks off. -/
def brokenOffCode : Nat := 101

/-- Takes lines until one of them quits; a line that is no text ends the program badly. -/
def feedAll : Session → List (Option String) → Session × Nat
  | s, [] => (s, 0)
  | s, none :: _ => (s, 1)
  | s, some line :: lines =>
    match feed s line with
    | (s, .quit) => (s, 0)
    | (s, .brokenOff) => (s, brokenOffCode)
    | (s, .unknown _) | (s, .settled _ _) => feedAll s lines

/-- The lines of an input; one that is no text is none. -/
def inputLines (input : ByteArray) : List (Option String) :=
  let pieces := Text.pieces 10 input.toList
  let pieces := if pieces.getLast? = some [] then pieces.dropLast else pieces
  pieces.map fun bytes => String.fromUTF8? ⟨bytes.toArray⟩

/-- The version of the player. -/
def version : String := "sc-host 0.1.0"

/-- How the player is used. -/
def playerUsage : List String :=
  ["Usage: sc-host [OPTIONS]", "", "Options:",
    "      --scenario-editor", "      --advanced-scenes", "      --disable-presence",
    "      --config <CONFIG>", "      --root <ROOT>", "      --skip-intro",
    "  -h, --help", "  -V, --version"]

/-- The exit code and the output of a program that does not run. -/
def stopped (usage : List String) : Stop → Nat × List String
  | .badArguments => (2, [])
  | .help => (0, usage)
  | .version => (0, [version])

/-- The options of the player as they were given. -/
def readPlayer (args : List String) : Except Stop Options :=
  readWords playerOptions .none .none args

/-- A whole run of the player over an input that is known beforehand. -/
def play (clock : Clock) (args : List String) (input : ByteArray) (disk : Disk) : Ending :=
  match readPlayer args with
  | .error stop =>
    let (code, output) := stopped playerUsage stop
    ⟨code, output, disk⟩
  | .ok o =>
    match open? (configure o disk) (o.has "scenario-editor") (o.has "skip-intro") clock disk with
    | (disk, .error _) => ⟨1, [], disk⟩
    | (_, .ok (session, none)) => ⟨brokenOffCode, session.printed, session.disk⟩
    | (_, .ok (session, some _)) =>
      let (session, code) := feedAll session (inputLines input)
      ⟨code, session.printed, session.disk⟩

/-- The options of the checker. -/
def checkerOptions : OptionTable where
  flags := ["advanced"]
  valued := ["root"]
  positionals := 1
  hasVersion := false

/-- The options of a program that has none but those that show its help. -/
def noOptions : OptionTable where
  flags := []
  valued := []
  positionals := 0
  hasVersion := false

/-- What the checker can be told to do. Two of its tasks need tools of the workspace that a game
is developed in; of them only the help can be shown. -/
inductive Task where
  | scenarioCheck
  | checkAll
  | coverage
deriving DecidableEq, Repr

/-- The task of a name. -/
def Task.ofName? (name : String) : Option Task :=
  if name = "scenario-check" then some .scenarioCheck
  else if name = "check-all" then some .checkAll
  else if name = "cov-runtime" then some .coverage
  else none

/-- The options of a task. -/
def Task.options : Task → OptionTable
  | .scenarioCheck => checkerOptions
  | .checkAll | .coverage => noOptions

/-- Whether there is help about a topic: about everything, about a task, or about help. -/
def hasHelp : List String → Bool
  | [] => true
  | [topic] => topic == "help" || (Task.ofName? topic).isSome
  | _ => false

/-- The task that words begin with, and its options. Without a task, only help can be shown. -/
def readTask : List String → Except Stop (Task × Options)
  | [] => .error .badArguments
  | "help" :: topics => .error (if hasHelp topics then .help else .badArguments)
  | word :: words =>
    match Task.ofName? word with
    | some task => do return (task, ← readWords task.options .none .none words)
    | none => do
      let _ ← readWords noOptions .none .none (word :: words)
      throw .badArguments

/-- How the checker is used. -/
def checkerUsage : List String :=
  ["Usage: scenario-check [OPTIONS] [PATH]", "", "Options:",
    "      --root <ROOT>", "      --advanced", "  -h, --help"]

/-- How a run of the checker ends: its exit code, what it has printed, and its report. -/
structure CheckerEnding where
  code : Nat
  output : List String
  report : List String

/-- How the checker ends when it does not run. -/
def checkerStopped (stop : Stop) : CheckerEnding :=
  let (code, output) := stopped checkerUsage stop
  ⟨code, output, []⟩

/-- A whole run of the checker. -/
def runChecker (args : List String) (disk : Disk) : CheckerEnding :=
  match readTask args with
  | .error stop => checkerStopped stop
  | .ok (.scenarioCheck, o) =>
    let verdict := ScenarioCheck.check disk ((o.value? "root").getD "game") o.positionals.head?
      (.ofFlag (o.has "advanced"))
    ⟨if verdict.passed then 0 else 1, [], verdict.report⟩
  | .ok _ => ⟨1, [], []⟩

end VisualNovel.Program
