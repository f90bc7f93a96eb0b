import WhisperChat.Settings.DatabasePath
import WhisperChat.Settings.EnvFile
import WhisperChat.Settings.SocketAddress

/-!
# Starting

What the server does before it listens: it adds the variables of the file `.env` to its environment,
reads its settings, opens its database, and works out its address, in this order.  The database
stays opened, and its file made, when the address is none.
-/

namespace WhisperChat

inductive StartupError where
  | config (e : ConfigError)
  | database (e : OpenError)
  | address
  deriving DecidableEq

def StartupError.message : StartupError → String
  | config e => e.message
  | database e => e.message
  | address => "invalid socket address syntax"

def envFileName : String := ".env"

/-- The environment with the variables of the directory's file added. -/
def Environment.withFile (env : Environment) (d : Directory) : Environment :=
  match d.lookup envFileName with
  | some (.text content) => EnvFile.load env content
  | _ => env

def Config.address? (c : Config) : Option SocketAddress :=
  SocketAddress.parse? (c.host ++ ":" ++ Decimal.ofNat c.port)

/-- What the server is before it listens: its settings and its address, or why it does not start;
and the directory afterwards. -/
def start (env : Environment) (d : Directory) :
    Except StartupError (Config × SocketAddress) × Directory :=
  match Config.ofEnvironment (env.withFile d) with
  | .error e => (.error (.config e), d)
  | .ok config =>
    match d.openDatabase config.databasePath with
    | .error e => (.error (.database e), d)
    | .ok d =>
      match config.address? with
      | none => (.error .address, d)
      | some address => (.ok (config, address), d)

end WhisperChat
