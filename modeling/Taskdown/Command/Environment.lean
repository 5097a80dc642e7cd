import Taskdown.Text.Alphanumeric
import Taskdown.Text.Bytes

/-!
# Paths that depend on the environment

A path may name variables of the environment, as `$name` or as `${name:-default}`, and it may start
with `~` for the home directory. To *expand* a path is to put their values in. Values are not
expanded again.
-/

namespace Taskdown

/-- The variables of the environment. -/
structure Environment where
  bindings : List (Text × Text)

namespace Environment

/-- The value of a variable. -/
def get? (env : Environment) (name : Text) : Option Text := env.bindings.lookup name

/-- The name of the variable that holds the home directory. -/
def homeName : Text := "HOME".toList

/-- The home directory. -/
def home? (env : Environment) : Option Text := (env.get? homeName).filter (!·.isEmpty)

end Environment

/-! ## Pieces of a path -/

/-- A piece of a path. -/
inductive PathPiece where
  | plain (text : Text)
  /-- A variable, and what stands for it if it is not set. -/
  | variable (name : Text) (missing : Option Text)
deriving DecidableEq, Repr

namespace PathPiece

/-- A character of a name. -/
def isNameChar (c : Char) : Bool := Text.isAlphanumeric c || c = '_'

/-- A name up to the first `:-`, and what follows that. -/
def splitDefault : Text → Text × Option Text
  | [] => ([], none)
  | ':' :: '-' :: cs => ([], some cs)
  | c :: cs =>
    let (name, missing) := splitDefault cs
    (c :: name, missing)

/-- The variable within braces. A default needs a name in front of it. -/
def ofBraces (cs : Text) : PathPiece :=
  match splitDefault cs with
  | ([], _) => .variable cs none
  | (name, missing) => .variable name missing

/-- The pieces of a path. A dollar sign is kept where it introduces no variable; two of them stand
    for one. -/
def ofPath : Text → List PathPiece
  | [] => []
  | '$' :: '$' :: cs => .plain ['$'] :: ofPath cs
  | '$' :: '\x7b' :: cs =>
    match h : cs.dropWhile (· ≠ '\x7d') with
    | [] => .plain ['$', '\x7b'] :: ofPath cs
    | _ :: rest =>
      have : rest.length < cs.length := by
        have := (List.dropWhile_sublist (l := cs) (· ≠ '\x7d')).length_le
        rw [h] at this
        exact this
      ofBraces (cs.takeWhile (· ≠ '\x7d')) :: ofPath rest
  | '$' :: c :: cs =>
    if isNameChar c then
      have := (List.dropWhile_sublist (l := cs) isNameChar).length_le
      .variable (c :: cs.takeWhile isNameChar) none :: ofPath (cs.dropWhile isNameChar)
    else .plain ['$'] :: ofPath (c :: cs)
  | c :: cs => .plain [c] :: ofPath cs
termination_by cs => cs.length

/-- The text that a piece stands for. -/
def value? (env : Environment) : PathPiece → Option Text
  | .plain text => some text
  | .variable name missing => (env.get? name).or missing

/-- The name in a piece. -/
def name? : PathPiece → Option Text
  | .plain _ => none
  | .variable name _ => some name

end PathPiece

namespace Environment

/-- The names of the variables that a path depends on. -/
def names (path : Text) : List Text := homeName :: (PathPiece.ofPath path).filterMap PathPiece.name?

/-- A path with the values of its variables, which must all be set or have a default. -/
def substitute? (env : Environment) (path : Text) : Option Text :=
  ((PathPiece.ofPath path).mapM (PathPiece.value? env)).map List.flatten

/-- A path with the home directory in the place of a `~` that stands alone at its start. -/
def expandHome (env : Environment) (path : Text) : Text :=
  match env.home?, path with
  | some home, ['~'] => home
  | some home, '~' :: '/' :: cs => home ++ '/' :: cs
  | _, _ => path

/-- A path expanded. A `~` that comes from a variable is kept. -/
def expand? (env : Environment) (path : Text) : Option Text :=
  (env.substitute? path).map fun expanded =>
    if path.head? ≠ some '~' && expanded.head? = some '~' then expanded else env.expandHome expanded

/-- The path of the configuration file that is used unless another one is named. -/
def configPath (env : Environment) : Text :=
  env.expandHome "~/.config/markdown-basis".toList ++ "/config.toml".toList

end Environment

end Taskdown
