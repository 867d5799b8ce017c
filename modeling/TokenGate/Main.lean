import Std.Time.DateTime.Timestamp
import TokenGate.Command

/-!
# The program `bearer-check`

Reads arguments, environment, clock and standard input, runs `Command.run`, prints what it prints
and exits as it exits. Standard input is read only if it is asked for.
-/

namespace TokenGate.Main

/-- the values of all variables that settings are read from, as far as they are texts (see
`Environment`) -/
def environment : IO (List (String × String)) :=
  Variable.all.filterMapM fun v => do
    return (← IO.getEnv v.name).map fun text => (v.name, text)

/-- whether the token has to be read from standard input -/
def wantsInput (args : List String) : Bool :=
  match Command.parse args with
  | .check c => (c.token.filter fun t => t != "-").isNone
  | _ => false

/-- all of standard input, unless it is not asked for or the settings are unusable -/
def readInput (args : List String) (env : Environment) : IO (List UInt8) := do
  if wantsInput args && (Command.gateOf env).isOk then
    let bytes ← (← IO.getStdin).readBinToEnd
    return bytes.data.toList
  else return []

end TokenGate.Main

def main (args : List String) : IO UInt32 := do
  let values ← TokenGate.Main.environment
  let env : TokenGate.Environment := fun name => values.lookup name
  let stdin ← TokenGate.Main.readInput args env
  let now ← Std.Time.Timestamp.now
  let result := TokenGate.Command.run args env stdin now.toSecondsSinceUnixEpoch.val
  IO.print result.stdout
  return result.exit.toUInt32
