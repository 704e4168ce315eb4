import GuestScript.CommandLine

/-!
# The program

The command runs with fuel that no run can use up.
-/

/-- Run the command, write its output and give its exit status. -/
def main (arguments : List String) : IO UInt32 := do
  match GuestScript.CommandLine.run (2 ^ 62) arguments with
  | none => pure 2
  | some outcome =>
      (← IO.getStdout).putStr outcome.output
      pure outcome.status.toUInt32
