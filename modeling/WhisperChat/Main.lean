import WhisperChat.Settings.Startup

/-!
# The command

Reads the environment and the file of variables, and says what the server would listen on, or why it
does not start.
-/

namespace WhisperChat

/-- The variables that settings are read from. -/
def settingNames : List String :=
  ["HUSH_JWT_SECRET", "HUSH_DB_PATH", "HUSH_HOST", "HUSH_PORT", "HUSH_MAX_PAGE"]

/-- The variables of the process that settings are read from. -/
def processEnvironment : IO Environment :=
  settingNames.filterMapM fun name ↦ do return (← IO.getEnv name).map (name, ·)

/-- The file of variables, if there is one. -/
def processDirectory : IO Directory := do
  try
    return [(envFileName, .text (← IO.FS.readFile envFileName))]
  catch _ =>
    return []

end WhisperChat

open WhisperChat in
def main : IO UInt32 := do
  match (start (← processEnvironment) (← processDirectory)).1 with
  | .error e =>
    IO.eprintln ("Error: " ++ e.message)
    return 1
  | .ok (config, _) =>
    IO.println ("Hush server listening on " ++ config.host ++ ":" ++ Decimal.ofNat config.port)
    return 0
