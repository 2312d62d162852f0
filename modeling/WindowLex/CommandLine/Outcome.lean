import WindowLex.Config
import WindowLex.Source.Opening
import WindowLex.Text.Controls

/-! How a command ends: an exit code and what stands on the two output channels. -/
namespace WindowLex.CommandLine

inductive ExitCode where
  | success
  | diagnostics
  | unusable
  | internal
  deriving DecidableEq, Repr

namespace ExitCode

def all : List ExitCode := [success, diagnostics, unusable, internal]

def number : ExitCode → Nat
  | success => 0
  | diagnostics => 1
  | unusable => 2
  | internal => 3

def name : ExitCode → String
  | success => "SUCCESS"
  | diagnostics => "BUILD_ERROR"
  | unusable => "INVALID_ARGS"
  | internal => "INTERNAL_ERROR"

end ExitCode

/-- The terminal that a command writes to: what shows of a text. Text without an escape character shows as it is. -/
structure Console where
  shown : String → String
  plain : ∀ text : String, Text.escapeChar ∉ text.toList → shown text = text

def Console.standard : Console where
  shown := Text.withoutControls
  plain _ := Text.withoutControlsPlain

structure Outcome where
  exitCode : ExitCode := .success
  output : List String := []
  errors : List String := []
  deriving DecidableEq, Repr

def Outcome.ofMessages (exitCode : ExitCode) (messages : List String) (console : Console := .standard) : Outcome :=
  { exitCode, errors := messages.map console.shown }

def textOfLines (lines : List String) : String := String.join (lines.map (· ++ "\n"))

inductive Failure where
  | diagnostic (diagnostic : Diagnostic)
  | badParameter (message : String)
  | fault (fault : Fault)
  deriving DecidableEq, Repr

namespace Failure

def ofConfigIssue (issue : Config.Issue) : Failure :=
  match issue with
  | .unshownWidth | .surrogateInEncoding _ | .nullInEncoding => fault ⟨.badValue, issue.message⟩
  | _ => diagnostic (.config issue.message)

def ofOpenIssue (issue : OpenIssue) : Failure :=
  match issue with
  | .cannotOpen path obstacle => diagnostic (.cannotOpen path obstacle.reason)
  | .unknownEncoding _ => diagnostic (.config issue.message)
  | .badEncoding | .badPath | .unwritablePath _ => fault ⟨.badValue, issue.message⟩
  | .notReadable _ => fault ⟨.other, issue.message⟩

def emptyTrace : String := "NoneType: None"

def outcome (failure : Failure) (traced : Bool := false) (console : Console := .standard) : Outcome :=
  match failure with
  | diagnostic d =>
    match d.family with
    | .cannotOpen | .config => .ofMessages .unusable ["Error: " ++ d.text] console
    | _ => .ofMessages .diagnostics [d.text] console
  | badParameter message => .ofMessages .unusable ["Error: " ++ message] console
  | fault f =>
    match f.kind with
    | .notFound | .denied => .ofMessages .unusable ["Error: " ++ f.message] console
    | _ => .ofMessages .internal
      (("Internal error: " ++ f.message) :: if traced then [emptyTrace] else []) console

end Failure

end WindowLex.CommandLine
