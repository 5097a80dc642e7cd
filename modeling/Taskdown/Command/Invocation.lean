import Taskdown.Command.Environment
import Taskdown.Config.File
import Taskdown.Document.Format
import Taskdown.Text.Quoted

/-!
# The command

The command formats one document and prints the result. Its configuration is in a file that an
argument may name; a missing file stands for the default configuration.
-/

namespace Taskdown

/-- What the command is asked for. -/
structure Invocation where
  document : Text
  /-- The configuration file that an argument names. -/
  config : Option Text
deriving DecidableEq, Repr

/-- What comes out of the command. -/
structure Outcome where
  exitCode : UInt32
  output : Text
  /-- What is said about errors and oddities. -/
  complaints : List String
deriving DecidableEq, Repr

/-- The outcome of a command that fails. -/
def Outcome.failure (complaint : String) : Outcome := ⟨1, [], [complaint]⟩

/-- How the command is used. -/
def Invocation.usage : String := "Usage: taskdown <file.md> [--config <path>]"

namespace Invocation

/-- What arguments ask for. -/
def ofArguments? : List Text → Option Invocation
  | [document] => some ⟨document, none⟩
  | [document, flag, path] => if flag = "--config".toList then some ⟨document, some path⟩ else none
  | _ => none

/-- The path of the configuration file. One that cannot be expanded is taken as it is. -/
def configPath (i : Invocation) (env : Environment) : Text :=
  match i.config with
  | some path => (env.expand? path).getD path
  | none => env.configPath

/-- What is said about a marker that gets no priority. -/
def oddMarkerComplaint (marker : Text) : String :=
  "Warning: ignoring the priority of marker " ++ Text.quoted marker ++ ": not a single character"

/-- The outcome for a configuration file and a document. -/
def outcome (config document : FileState) : Outcome :=
  match Config.load config with
  | .error e => .failure ("Error: failed to load the configuration: " ++ e.message)
  | .ok loaded =>
    match document.text? with
    | none => .failure "Error: failed to read the document"
    | some cs =>
      let c := loaded.getD .standard
      match c.options.format cs with
      | .error _ => .failure "Error: failed to format the document"
      | .ok formatted => ⟨0, formatted.text, c.oddMarkers.map oddMarkerComplaint⟩

/-- Runs the command with the files that `read` finds at their paths. -/
def run (env : Environment) (read : Text → FileState) (arguments : List Text) : Outcome :=
  match ofArguments? arguments with
  | none => .failure usage
  | some i => outcome (read (i.configPath env)) (read i.document)

end Invocation

end Taskdown
