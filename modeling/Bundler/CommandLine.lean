import Bundler.Settings

/-!
# The command line

A word of the command line is a flag if it is one of its names or the beginning of just one long
name; flags take no value. All words up to `--` are classified before any is obeyed, so a word that
is the beginning of several names is refused first. Then the words are obeyed from left to right
(`obey`): help ends the run at once, a flag with a value is refused at once, and words that are no
flags are collected and refused in the end.
-/

namespace Bundler.CommandLine

/-- The flags of the command line. -/
inductive Flag where
  | help
  | watch
  | diff
  | verbose
  | noRefresh
deriving DecidableEq, Repr

/-- The names of a flag. -/
def Flag.names : Flag → List String
  | .help => ["-h", "--help"]
  | .watch => ["--watch"]
  | .diff => ["--diff"]
  | .verbose => ["--verbose"]
  | .noRefresh => ["--no-refresh"]

/-- All names with their flags. -/
def names : List (String × Flag) :=
  [Flag.help, .watch, .diff, .verbose, .noRefresh].flatMap fun flag =>
    flag.names.map fun name => (name, flag)

/-- What a word of the command line is. -/
inductive Word where
  | stranger (text : String)
  | flag (flag : Flag) (value : Option String)
  /-- `-h` with the text behind it, which may be more of the same letter. -/
  | helps (letters : String)
deriving DecidableEq, Repr

/-- Why a command line is refused. -/
inductive UsageError where
  | ambiguous (word : String) (names : List String)
  | unwantedValue (flag : Flag) (value : String)
  | strangers (words : List String)
deriving DecidableEq, Repr

/-- A refusal in words. -/
def UsageError.message : UsageError → String
  | .ambiguous word names =>
    "ambiguous option: " ++ word ++ " could match " ++ ", ".intercalate names
  | .unwantedValue flag value =>
    "argument " ++ "/".intercalate flag.names ++ ": ignored explicit argument "
      ++ Text.quoted value
  | .strangers words => "unrecognized arguments: " ++ " ".intercalate words

/-- The text before the first equals sign, and the text behind it if there is one. -/
def splitValue (word : String) : String × Option String :=
  let front := word.toList.takeWhile (· ≠ '=')
  match word.toList.dropWhile (· ≠ '=') with
  | [] => (word, none)
  | _ :: value => (String.ofList front, some (String.ofList value))

/-- The names that start with the text. -/
def completions (text : String) : List (String × Flag) :=
  names.filter fun row => text.toList.isPrefixOf row.1.toList

/-- What a word is. -/
def classify (word : String) : Except UsageError Word :=
  let (front, value) := splitValue word
  match names.lookup word, names.lookup front, word.toList with
  | some flag, _, _ => .ok (.flag flag none)
  | none, some flag, chars =>
    if chars.take 2 = ['-', 'h'] then .ok (.helps (value.getD ""))
    else .ok (.flag flag value)
  | none, none, '-' :: '-' :: _ =>
    match completions front with
    | [] => .ok (.stranger word)
    | [(_, flag)] => .ok (.flag flag value)
    | several => .error (.ambiguous word (several.map (·.1)))
  | none, none, '-' :: 'h' :: letters => .ok (.helps (String.ofList letters))
  | _, _, _ => .ok (.stranger word)

/-- What the words are. From `--` on, no word is a flag. -/
def classifyAll : List String → Except UsageError (List Word)
  | [] => .ok []
  | word :: rest =>
    if word = "--" then .ok ((word :: rest).map .stranger)
    else
      match classify word with
      | .error error => .error error
      | .ok first => (classifyAll rest).map (first :: ·)

/-- What the flags switch on. -/
structure Options where
  watch : Bool := false
  diff : Bool := false
  verbose : Bool := false
  noRefresh : Bool := false
deriving DecidableEq, Repr

/-- The options with one more flag. -/
def Options.add (options : Options) : Flag → Options
  | .help => options
  | .watch => { options with watch := true }
  | .diff => { options with diff := true }
  | .verbose => { options with verbose := true }
  | .noRefresh => { options with noRefresh := true }

/-- The settings of a run with the options. The files are fixed. -/
def Options.config (options : Options) : Config where
  entry := "src/index.js"
  output := "dist/bundle.js"
  watch := options.watch
  diff := options.diff
  refreshWatches := !options.noRefresh

/-- What a command line asks for. -/
inductive Request where
  | run (options : Options)
  | help
  | refused (error : UsageError)
deriving DecidableEq, Repr

/-- Obeys the words from left to right. -/
def obey (options : Options) (strangers : List String) : List Word → Request
  | [] => if strangers.isEmpty then .run options else .refused (.strangers strangers)
  | .stranger text :: rest => obey options (strangers ++ [text]) rest
  | .flag .help none :: _ => .help
  | .flag flag none :: rest => obey (options.add flag) strangers rest
  | .flag flag (some value) :: _ => .refused (.unwantedValue flag value)
  | .helps letters :: _ =>
    let others := letters.toList.dropWhile (· = 'h')
    if letters ≠ "" && others.isEmpty then .help
    else .refused (.unwantedValue .help (String.ofList others))

/-- What a command line asks for. -/
def parse (words : List String) : Request :=
  match classifyAll words with
  | .error error => .refused error
  | .ok words => obey {} [] words

/-- The line that says how to call the program. -/
def usage : String :=
  "usage: knit [-h] [--watch] [--diff] [--verbose] [--no-refresh]\n"

/-- What the program does and what its flags mean. -/
def helpText : String :=
  usage ++ String.join
    ["\n",
      "Knit: inline the relative imports of src/index.js into dist/bundle.js\n",
      "\n",
      "options:\n",
      "  -h, --help    show this help message and exit\n",
      "  --watch       Rebuild whenever a bundled file changes\n",
      "  --diff        Show which output lines changed on every build\n",
      "  --verbose     Enable verbose output (sent to stderr)\n",
      "  --no-refresh  In watch mode, keep the frozen watch set from startup: files\n",
      "                imported later are not watched until knit is restarted\n"]

/-- What a refused command line shows. -/
def UsageError.render (error : UsageError) : String :=
  usage ++ "knit: error: " ++ error.message ++ "\n"

end Bundler.CommandLine
