import WindowLex.CommandLine.Arguments
import WindowLex.Text.Likeness
import WindowLex.Text.Quoted

/-! What the listing command says about itself and about arguments it cannot use. -/
namespace WindowLex.CommandLine

def programName : String := "lexdump"

def version : String := "1.0.0"

def versionLine : String := programName ++ ", version " ++ version

def usageLine : String := "Usage: lexdump [OPTIONS] [INPUT_FILE]"

def helpLines : List String := [
  usageLine,
  "",
  "  List the tokens of a source file.",
  "",
  "  INPUT_FILE is the text file to tokenize (default: input.txt).",
  "",
  "  Examples:",
  "      lexdump                      # Tokenize input.txt",
  "      lexdump main.src             # Tokenize main.src",
  "      lexdump -k let -k fn a.src   # Custom keyword set",
  "      lexdump --strict main.src    # Non-zero exit on diagnostics",
  "",
  "Options:",
  "  --buffer-width INTEGER RANGE  Characters per read-ahead window (default:",
  "                                4096 or $STREAMLEX_BUFFER_WIDTH)  [x>=1]",
  "  -k, --keyword TEXT            Treat WORD as a keyword (can be repeated;",
  "                                replaces the default set)",
  "  --skip-comments               Do not list COMMENT tokens",
  "  --strict                      Exit with an error if the scan recorded any",
  "                                diagnostics",
  "  -v, --verbose                 Verbose output (debug logging of buffers and",
  "                                tokens)",
  "  --version                     Show the version and exit.",
  "  --help                        Show this message and exit."]

def suggestion : List String → String
  | [] => ""
  | [name] => " Did you mean " ++ name ++ "?"
  | names => " (Possible options: " ++ ", ".intercalate names ++ ")"

namespace UsageIssue

def text : UsageIssue → String
  | noSuchOption name =>
    "No such option: " ++ name ++ suggestion (Text.closest 3 name (longOptions.map Prod.fst))
  | needsValue name => "Option '" ++ name ++ "' requires an argument."
  | takesNoValue name => "Option '" ++ name ++ "' does not take a value."
  | notAnInteger value =>
    "Invalid value for '--buffer-width': " ++ Text.quoted value ++ " is not a valid integer range."
  | belowRange value =>
    "Invalid value for '--buffer-width': " ++ toString value ++ " is not in the range x>=1."
  | folderGiven path =>
    "Invalid value for '[INPUT_FILE]': File " ++ Text.quoted path ++ " is a directory."
  | extraArguments [argument] => "Got unexpected extra argument (" ++ argument ++ ")"
  | extraArguments arguments =>
    "Got unexpected extra arguments (" ++ " ".intercalate arguments ++ ")"

def showsUsage : UsageIssue → Bool
  | needsValue _ | takesNoValue _ => false
  | _ => true

def lines (issue : UsageIssue) : List String :=
  (if issue.showsUsage then [usageLine, "Try 'lexdump --help' for help.", ""] else [])
    ++ ["Error: " ++ issue.text]

end UsageIssue

end WindowLex.CommandLine
