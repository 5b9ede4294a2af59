import RingScan.Plan.Report

/-!
# The command line

Prints the statement that a reader would execute for one split.  Where a report ends early, only
the outermost message of its fault is printed, without the messages of the causes behind it.
-/

open RingScan

/-- The contents of a file, if it can be read as text. -/
def readFile? (path : String) : IO (Option String) := do
  try
    return some (← IO.FS.readFile path)
  catch _ =>
    return none

/-- How the command line is used. -/
def usage : String :=
  "usage: --config FILE --metadata FILE --start TOKEN --end TOKEN [--replica ENDPOINT]..."

/-- Prints the report that the arguments ask for and, if it ends early, the outermost message of its
fault. -/
def main (words : List String) : IO UInt32 := do
  match Plan.Arguments.parse words with
  | .error .help =>
    IO.println usage
    return 0
  | .error .misuse =>
    IO.eprintln usage
    return 2
  | .ok arguments =>
    let job ← readFile? arguments.config
    let table ← readFile? arguments.metadata
    let pageSize ← IO.getEnv "SPLIT_READER_PAGE_SIZE"
    let files := fun path =>
      if path = arguments.config then job else if path = arguments.metadata then table else none
    let report := Plan.report files pageSize arguments
    for line in report.lines do
      IO.println line
    match report.fault with
    | some fault =>
      IO.eprintln s!"Error: {fault.message}"
      return 1
    | none => return 0
