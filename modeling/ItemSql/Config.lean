import ItemSql.Projection

/-!
# Configuration

The configuration comes from variables of the environment, each of which may be missing.
-/

namespace ItemSql

/-- The name of the service that targets begin with unless another is given. -/
def defaultService : String := "DynamoDB_20120810"

/-- How statements are sent and how rows are read. -/
structure Config where
  /-- Whether a number that is no integer fails its row. -/
  strictNumbers : Bool := false
  /-- The name of the service that targets begin with. -/
  service : String := defaultService
  /-- The filter of log messages. -/
  logLevel : String := "info"
  deriving DecidableEq, Repr, Inhabited

namespace Config

/-- The words that switch something on. -/
def affirmations : List String := ["1", "true", "yes", "TRUE", "YES"]

/-- The configuration of an environment. -/
def ofEnvironment (setting? : String → Option String) : Config where
  strictNumbers := (setting? "DSQL_STRICT_NUMBERS").any affirmations.contains
  service := (setting? "DSQL_TARGET_PREFIX").getD defaultService
  logLevel := (setting? "DSQL_LOG_LEVEL").getD "info"

/-- What becomes of a number that is no integer. -/
def numberPolicy (config : Config) : NumberPolicy :=
  if config.strictNumbers then .strict else .lenient

end Config

end ItemSql
