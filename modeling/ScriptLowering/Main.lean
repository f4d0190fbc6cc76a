import ScriptLowering.CommandLine.Run

/-!
# The program

A run on the files of the system, with what it reports printed.
-/

namespace ScriptLowering.CommandLine

/-- The text of a file, if it can be read. -/
def readText? (path : String) : IO (Option String) :=
  try
    let text ← IO.FS.readFile path
    return some text
  catch _ => return none

/-- Writes a text to a file, and says whether that was possible. -/
def writeText (path text : String) : IO Bool :=
  try
    IO.FS.writeFile path text
    return true
  catch _ => return false

/-- The files of the system. -/
def systemFiles : Files IO := ⟨readText?, writeText⟩

/-- Prints a report, and gives the code to end with. -/
def Report.print (report : Report) : IO UInt32 := do
  IO.print report.output
  report.errorLines.forM IO.eprintln
  return report.exitCode.toUInt32

end ScriptLowering.CommandLine

open ScriptLowering.CommandLine in
/-- The program: lowers the program in a file to a script. -/
def main (arguments : List String) : IO UInt32 := do
  let configHome ← IO.getEnv "XDG_CONFIG_HOME"
  let home ← IO.getEnv "HOME"
  let report ← run .standard systemFiles arguments ⟨configHome, home⟩
  report.print
