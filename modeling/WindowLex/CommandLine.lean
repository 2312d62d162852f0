import WindowLex.CommandLine.Outcome
import WindowLex.CommandLine.Wording
import WindowLex.Config.Environment
import WindowLex.Lexer

/-! The listing command: one line for each token of a file, and how many there were. -/
namespace WindowLex.CommandLine

structure Invocation where
  path : String
  width : Option Int := none
  keywords : List String := []
  skipComments : Bool := false
  strict : Bool := false
  verbose : Bool := false
  deriving DecidableEq, Repr

inductive Command where
  | version
  | help
  | list (invocation : Invocation)
  deriving DecidableEq, Repr

def defaultPath : String := "input.txt"

def Given.path (g : Given) : String := g.arguments.headD defaultPath

def Given.valuesOf (g : Given) (valued : Valued) : List String :=
  (g.values.filter (·.1 = valued)).map Prod.snd

def Given.width (g : Given) : Except UsageIssue (Option Int) :=
  match (g.valuesOf .bufferWidth).getLast? with
  | none => .ok none
  | some text =>
    match Text.integer? text with
    | none => .error (.notAnInteger text)
    | some value => if 0 < value then .ok (some value) else .error (.belowRange value)

inductive Refusal where
  | usage (issue : UsageIssue)
  | fault (fault : Fault)
  deriving DecidableEq, Repr

def nullInPath : Fault := ⟨.badValue, OpenIssue.badPath.message⟩

def Given.invocation (g : Given) (files : Files) : Except Refusal Invocation := do
  let width ← g.width.mapError .usage
  if g.path.toList.contains '\x00' then .error (.fault nullInPath)
  else if files g.path = .folder then .error (.usage (.folderGiven g.path))
  else if 1 < g.arguments.length then .error (.usage (.extraArguments (g.arguments.drop 1)))
  else return {
    path := normalPath g.path
    width
    keywords := g.valuesOf .keyword
    skipComments := g.switches.contains .skipComments
    strict := g.switches.contains .strict
    verbose := g.switches.contains .verbose }

def Given.command (g : Given) (files : Files) : Except Refusal Command :=
  match g.switches.find? fun switch => switch = .version || switch = .help with
  | some .version => .ok .version
  | some _ => .ok .help
  | none => (g.invocation files).map .list

def recordLines (verbose : Bool) (journal : List Event) : List String :=
  if verbose then journal.map fun e => e.level.name ++ ": " ++ e.message
  else (journal.filter (·.level = .warning)).map Event.message

def Invocation.sized (i : Invocation) (c : Config) : Except Config.Issue Config :=
  match i.width with
  | none => .ok c
  | some width => c.withWidth (.integer width)

def Invocation.worded (i : Invocation) (c : Config) : Except Config.Issue Config :=
  if i.keywords = [] then .ok c else c.withKeywords (.words i.keywords)

def Invocation.config (i : Invocation) (c : Config) : Except Config.Issue Config := do
  i.worded (← i.sized c)

def Outcome.after (o : Outcome) (verbose : Bool) (journal : List Event) : Outcome :=
  { o with errors := recordLines verbose journal ++ o.errors }

def Invocation.listing (i : Invocation) (tokens : List Token) (total : Nat) : List String :=
  ((tokens.filter fun t => !(i.skipComments && t.kind = .comment)).map Token.row)
    ++ ["Total tokens: " ++ toString total]

def Invocation.report (i : Invocation) (diagnostics : Collector) (console : Console) : Outcome :=
  if diagnostics.hasAny then
    .ofMessages (if i.strict then .diagnostics else .success) [diagnostics.report] console
  else {}

def Invocation.fail (i : Invocation) (failure : Failure) (journal : List Event) (console : Console) : Outcome :=
  (failure.outcome false console).after i.verbose journal

def Invocation.list (i : Invocation) (started : Except Fault Unit × Lexer) (before : List Event)
    (console : Console) : Outcome :=
  match started with
  | (.error fault, l) => i.fail (.fault fault) (before ++ l.source.journal.toList) console
  | (.ok _, l) =>
    match l.tokenizeAndClose with
    | (.error fault, l) => i.fail (.fault fault) (before ++ l.source.journal.toList) console
    | (.ok tokens, l) =>
      { i.report l.diagnostics console with
        output := (i.listing tokens l.tokenCount).map console.shown }.after i.verbose
          (before ++ l.source.journal.toList)

def longName (path : String) : Fault :=
  ⟨.system, "[Errno 36] " ++ Obstacle.longName.reason ++ ": " ++ Text.quoted path⟩

def isPresent (files : Files) (path : String) : Except Fault Bool :=
  if path.toList.contains '\x00' then .ok false
  else match files path with
    | .missing .longName => .error (longName path)
    | .missing (.other _) | .file _ | .folder => .ok true
    | .missing _ => .ok false

def Invocation.runPresent (i : Invocation) (environment : Environment) (files : Files)
    (console : Console := .standard) (layer : TextLayer := .standard) : Outcome :=
  let (loaded, ignored) := environment.load
  match loaded.bind i.config with
  | .error issue => i.fail (.ofConfigIssue issue) ignored console
  | .ok config =>
    match Lexer.ofFile files i.path config layer with
    | .error issue => i.fail (.ofOpenIssue issue) ignored console
    | .ok started => i.list started ignored console

def Invocation.run (i : Invocation) (environment : Environment) (files : Files)
    (console : Console := .standard) (layer : TextLayer := .standard) : Except Fault Outcome := do
  if ← isPresent files i.path then return i.runPresent environment files console layer
  else return .ofMessages .unusable ["Error: file not found: " ++ i.path] console

def paths (arguments : List String) : List String :=
  match readArguments arguments with
  | .ok given => [given.path, normalPath given.path]
  | .error _ => []

def command (arguments : List String) (files : Files) : Except Refusal Command := do
  let given ← (readArguments arguments).mapError .usage
  given.command files

def run (arguments : List String) (environment : Environment) (files : Files) :
    Except Fault Outcome :=
  match command arguments files with
  | .error (.usage issue) => .ok (.ofMessages .unusable issue.lines)
  | .error (.fault fault) => .error fault
  | .ok .version => .ok { output := [versionLine] }
  | .ok .help => .ok { output := helpLines }
  | .ok (.list invocation) => invocation.run environment files

end WindowLex.CommandLine
