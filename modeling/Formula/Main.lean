import Formula.CommandLine.Arguments

/-! The program's entry. The input is read only if an expression stands for it. -/

open Formula.CommandLine in
def main (args : List String) : IO UInt32 := do
  let stdin ← IO.getStdin
  let readAll : IO (Except String String) := do
    let mut text := ""
    try
      let mut line ← stdin.getLine
      while !line.isEmpty do
        text := text ++ line
        line ← stdin.getLine
      return .ok text
    catch e => return .error (toString e)
  let asksForInput := match parse args with
    | some invocation => invocation.expression?.any isInput
    | none => false
  let input ← if asksForInput then readAll else pure (.ok "")
  let outcome := Formula.CommandLine.run args input
  IO.print (String.ofList outcome.stdout)
  IO.eprint (String.ofList outcome.stderr)
  return UInt32.ofNat outcome.exitCode
