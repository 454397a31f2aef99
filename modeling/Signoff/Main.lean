import Signoff.Demo.Seed
import Signoff.Settings.Basic

/-! # The command line

`seed` makes the demonstration and prints a line for each of its steps; `status` prints how many rows
every table has after it. Options of the demonstration follow the command.
-/

namespace Signoff

/-- A site without any rows, on a fixed day. -/
def Site.fresh : Site :=
  { office :=
    { clock := (Moment.ofText? "2024-06-10T08:00:00").getD ⟨0⟩
      settings := Settings.forTests } }

/-- What a command prints. -/
def commandLines (command : String) (options : Demo.Options) : Result (List String) :=
  let (result, site) := (Demo.seed options).run.run Site.fresh
  match command, result with
  | _, .error fault => .error fault
  | "status", .ok _ => .ok site.countLines
  | _, .ok lines => .ok lines

end Signoff

open Signoff in
/-- Carries out a command. -/
def main (arguments : List String) : IO UInt32 := do
  match arguments with
  | [] =>
    IO.eprintln "usage: (seed | status) [--reset] [--request]"
    return 2
  | command :: rest =>
    match Demo.Options.ofArguments? rest with
    | none =>
      IO.eprintln "unknown option"
      return 2
    | some options =>
      match commandLines command options with
      | .ok lines =>
        lines.forM IO.println
        return 0
      | .error fault =>
        IO.eprintln fault.text
        return 1
