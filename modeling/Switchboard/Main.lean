import Switchboard.Startup

/-!
The command. It reads the environment and prints what the node so configured says at its start. The
node itself is a value, which a host steps with the bytes of its connections and its clock.
-/

open Switchboard

def main : IO UInt32 := do
  let values ← Config.variables.mapM fun name => do
    return (name, (← IO.getEnv name).map Text.Utf8.encode)
  let config := Config.ofEnvironment fun name => (values.lookup name).bind id
  match config with
  | .ok config => (Banner.lines config (toString config.port)).forM fun line => IO.eprintln line
  | .error fault => IO.eprintln fault.message
  return Startup.exitCode config
