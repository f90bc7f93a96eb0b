import WhisperChat.Decimal

/-!
# Settings

The settings of the server, read once from the environment when it starts.  A setting that is not
given has a value all the same; the numbers have to be numbers.
-/

namespace WhisperChat

abbrev Environment := List (String × String)

/-- The secret that is used when none is given, for trying things out. -/
def devSecret : String := "dev-secret-change-me"

structure Config where
  secret : String
  databasePath : String
  host : String
  port : Nat
  maxPage : Nat
  port_lt : port < 0x10000
  maxPage_lt : maxPage < 0x10000000000000000
  deriving DecidableEq

inductive ConfigError where
  | port (text : String)
  | maxPage (text : String)
  deriving DecidableEq

def ConfigError.message : ConfigError → String
  | port text => "HUSH_PORT is not a port number: " ++ text
  | maxPage text => "HUSH_MAX_PAGE is not a number: " ++ text

namespace Config

def usesDevSecret (c : Config) : Bool := c.secret = devSecret

/-- A number of the environment that has to be below a bound. -/
def number (bound : Nat) (text : String) (error : String → ConfigError) :
    Except ConfigError { n : Nat // n < bound } :=
  match Decimal.natBelow? bound text with
  | some n => if h : n < bound then .ok ⟨n, h⟩ else .error (error text)
  | none => .error (error text)

/-- The settings of an environment.  The port is looked at first. -/
def ofEnvironment (env : Environment) : Except ConfigError Config := do
  let get (name missing : String) : String := (env.lookup name).getD missing
  let port ← number 0x10000 (get "HUSH_PORT" "3000") .port
  let maxPage ← number 0x10000000000000000 (get "HUSH_MAX_PAGE" "200") .maxPage
  return {
    secret := get "HUSH_JWT_SECRET" devSecret
    databasePath := get "HUSH_DB_PATH" "hush.db"
    host := get "HUSH_HOST" "0.0.0.0"
    port := port.val
    maxPage := maxPage.val
    port_lt := port.property
    maxPage_lt := maxPage.property }

end Config

end WhisperChat
