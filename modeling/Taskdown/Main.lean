import Taskdown.Command.Invocation

/-!
# The program

The files and variables of the invocation are fetched, and its outcome is printed.
-/

open Taskdown

/-- Is there anything at a path? -/
def isPresent (name : String) : IO Bool := do
  try
    let _ ← IO.FS.realPath name
    return true
  catch _ => return false

/-- What is found at a path. -/
def readFile (path : Text) : IO FileState := do
  let name := String.ofList path
  if !(← isPresent name) then return .missing
  try
    return .contents (← IO.FS.readBinFile name)
  catch _ => return .unreadable

/-- The variables with some names. -/
def environmentOf (names : List Text) : IO Environment := do
  let bindings ← names.filterMapM fun name => do
    return (← IO.getEnv (String.ofList name)).map (name, ·.toList)
  return ⟨bindings⟩

/-- Prints an outcome. -/
def report (o : Outcome) : IO UInt32 := do
  for complaint in o.complaints do
    IO.eprintln complaint
  IO.print (String.ofList o.output)
  return o.exitCode

def main (arguments : List String) : IO UInt32 := do
  match Invocation.ofArguments? (arguments.map String.toList) with
  | none => report (.failure Invocation.usage)
  | some i =>
    let env ← environmentOf (Environment.names (i.config.getD []))
    let config ← readFile (i.configPath env)
    let document ← readFile i.document
    report (Invocation.outcome config document)
