import Taskdown.Toml.Reader

/-!
# Writing a TOML document

Keys are written without quotes where possible, between double quotes if that takes no escapes,
between single quotes otherwise, and with escapes as the last resort.
-/

namespace Taskdown.Toml

/-- A key as it is written. -/
def keyText (key : Text) : Text :=
  if !key.isEmpty && key.all isBareKeyChar then key
  else if key.any isForbidden then basic key
  else if key.all fun c => c ≠ '"' && c ≠ '\\' then basic key
  else if key.all (· ≠ '\'') then literal key
  else basic key

/-- An integer as it is written. -/
def integerText (n : Int) : Text := (toString n).toList

/-- A truth value as it is written. -/
def booleanText (b : Bool) : Text := (if b then "true" else "false").toList

/-- A header. -/
def headerLine (path : List Text) : Text :=
  ['['] ++ ['.'].intercalate (path.map keyText) ++ [']', '\n']

/-- A line that gives a key a value, which is written already. -/
def entryLine (key value : Text) : Text := keyText key ++ " = ".toList ++ value ++ ['\n']

end Taskdown.Toml
