/-! The arguments of a listing command: options with and without a value, in one long form each and some
in a short one, mixed freely with other arguments. -/
namespace WindowLex.CommandLine

inductive Switch where
  | skipComments | strict | verbose | version | help
  deriving DecidableEq, Repr

inductive Valued where
  | bufferWidth | keyword
  deriving DecidableEq, Repr

inductive Opt where
  | switch (switch : Switch)
  | valued (valued : Valued)
  deriving DecidableEq, Repr

def longOptions : List (String × Opt) := [
  ("--buffer-width", .valued .bufferWidth), ("--keyword", .valued .keyword),
  ("--skip-comments", .switch .skipComments), ("--strict", .switch .strict),
  ("--verbose", .switch .verbose), ("--version", .switch .version), ("--help", .switch .help)]

def shortOptions : List (Char × Opt) := [('k', .valued .keyword), ('v', .switch .verbose)]

structure Given where
  switches : List Switch := []
  values : List (Valued × String) := []
  arguments : List String := []
  deriving DecidableEq, Repr

inductive UsageIssue where
  | noSuchOption (name : String)
  | needsValue (name : String)
  | takesNoValue (name : String)
  | notAnInteger (text : String)
  | belowRange (value : Int)
  | folderGiven (path : String)
  | extraArguments (arguments : List String)
  deriving DecidableEq, Repr

namespace Given

def addSwitch (g : Given) (switch : Switch) : Given := { g with switches := g.switches ++ [switch] }

def addValue (g : Given) (valued : Valued) (text : String) : Given :=
  { g with values := g.values ++ [(valued, text)] }

def addArgument (g : Given) (argument : String) : Given :=
  { g with arguments := g.arguments ++ [argument] }

abbrev Awaiting := Option (Valued × String)

/-- Short options written together. The rest behind one that takes a value is its value. -/
def addShort (g : Given) : List Char → Except UsageIssue (Given × Awaiting)
  | [] => .ok (g, none)
  | c :: rest =>
    match shortOptions.lookup c with
    | none => .error (.noSuchOption (String.ofList ['-', c]))
    | some (.switch switch) => (g.addSwitch switch).addShort rest
    | some (.valued valued) =>
      if rest.isEmpty then .ok (g, some (valued, String.ofList ['-', c]))
      else .ok (g.addValue valued (String.ofList rest), none)

def addLong (g : Given) (name : String) (opt : Opt) (value : Option String) :
    Except UsageIssue (Given × Awaiting) :=
  match opt, value with
  | .switch switch, none => .ok (g.addSwitch switch, none)
  | .switch _, some _ => .error (.takesNoValue name)
  | .valued valued, none => .ok (g, some (valued, name))
  | .valued valued, some text => .ok (g.addValue valued text, none)

def splitAssignment (text : List Char) : String × Option String :=
  match text.span (· ≠ '=') with
  | (name, _ :: value) => (String.ofList name, some (String.ofList value))
  | (name, []) => (String.ofList name, none)

def addOption (g : Given) (text : List Char) : Except UsageIssue (Given × Awaiting) :=
  let (name, value) := splitAssignment text
  match longOptions.lookup name, text with
  | some opt, _ => g.addLong name opt value
  | none, '-' :: '-' :: _ => .error (.noSuchOption name)
  | none, _ => g.addShort (text.drop 1)

def readFrom (g : Given) (awaiting : Awaiting) : List String → Except UsageIssue Given
  | [] =>
    match awaiting with
    | none => .ok g
    | some (_, name) => .error (.needsValue name)
  | text :: rest =>
    match awaiting with
    | some (valued, _) => (g.addValue valued text).readFrom none rest
    | none =>
      match text.toList with
      | ['-', '-'] => .ok { g with arguments := g.arguments ++ rest }
      | '-' :: c :: more =>
        match g.addOption ('-' :: c :: more) with
        | .ok (g, awaiting) => g.readFrom awaiting rest
        | .error issue => .error issue
      | _ => (g.addArgument text).readFrom none rest

end Given

def readArguments (arguments : List String) : Except UsageIssue Given :=
  Given.readFrom {} none arguments

end WindowLex.CommandLine
