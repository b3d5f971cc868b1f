import ItemSql.Binding
import ItemSql.Config
import ItemSql.Cursor
import ItemSql.ServiceError
import ItemSql.Statement.Parse
import ItemSql.Wire.Request

/-!
# Connections

A connection runs statements: it binds the parameters, parses the statement, sends the request and
makes a cursor of the answer. How a request gets to the store is a matter of the *transport*, any
action that takes a target and a body and comes back with the body of the answer. The action may run
in any monad, so a transport can be a look-up, a store that changes, or a real exchange.

Transports go by names in a registry.
-/

namespace ItemSql

/-! ## Transports -/

/-- Why a call could not be completed. -/
inductive CallFailure where
  | because (message : String)
  /-- A body is not JSON. -/
  | codec (e : Json.DecodeError)

/-- Why a transport has no answer. -/
inductive TransportError where
  /-- The store reports an error. -/
  | service (e : ServiceError)
  | other (failure : CallFailure)

/-- What a transport comes back with. -/
abbrev Response := Except TransportError Text.Bytes

/-- Sends the body of a request to a target. -/
abbrev Transport (m : Type → Type) := (target : String) → (body : Text.Bytes) → m Response

/-! ## Statements over a transport -/

/-- Why a statement has no result. -/
inductive QueryError where
  | bind (e : BindError)
  | syntaxError (e : SyntaxError)
  | transport (e : TransportError)
  | codec (e : Json.DecodeError)

/-- The cursor of an answer to a request. -/
def cursorOf (config : Config) (request : Request) (answer : Text.Bytes) :
    Except QueryError Cursor :=
  if request.operation.returnsRows then
    match Json.Decode.bytes QueryOutput.decode answer with
    | .ok output =>
      .ok (.of (.of output.items request.projectedColumns?) config.numberPolicy)
    | .error e => .error (.codec e)
  else .ok .empty

/-- The request of a statement with parameters. -/
def prepare (statement : String) (params : List Param) : Except QueryError Request := do
  let source ← (bind statement params).mapError .bind
  (Statement.parse source).mapError .syntaxError

/-- A transport with the configuration of what is sent over it. -/
structure Connection (m : Type → Type) where
  transport : Transport m
  config : Config

namespace Connection

variable {m : Type → Type} [Monad m]

/-- Sends a request and makes a cursor of the answer. -/
def execute (c : Connection m) (request : Request) : m (Except QueryError Cursor) := do
  let target := request.operation.target c.config.service
  match ← c.transport target (Text.utf8 request.body) with
  | .ok answer => return cursorOf c.config request answer
  | .error e => return .error (.transport e)

/-- Runs a statement. -/
def query (c : Connection m) (statement : String) (params : List Param) :
    m (Except QueryError Cursor) :=
  match prepare statement params with
  | .ok request => c.execute request
  | .error e => return .error e

end Connection

/-! ## Registries -/

/-- Transports, or whatever stands for them, by name. -/
abbrev Registry (τ : Type) := NameMap τ

/-- Nothing goes by the name of a connection. -/
structure UnknownConnection where
  name : String
  deriving DecidableEq, Repr

/-- The error in words. -/
def UnknownConnection.message (e : UnknownConnection) : String :=
  "no transport registered as '" ++ e.name ++ "'"

namespace Registry

variable {τ : Type}

/-- Registers a transport, and answers the one that went by the name before. -/
def register (r : Registry τ) (name : String) (transport : τ) : Option τ × Registry τ :=
  (r.get? name, r.insert name transport)

/-- The transport of a name; if there is none, this one is registered. -/
def getOrRegister (r : Registry τ) (name : String) (transport : τ) : τ × Registry τ :=
  match r.get? name with
  | some present => (present, r)
  | none => (transport, r.insert name transport)

/-- Takes a name out, and answers what went by it. -/
def remove (r : Registry τ) (name : String) : Option τ × Registry τ :=
  (r.get? name, r.erase name)

/-- The transport to open a connection over. -/
def connect (r : Registry τ) (name : String) : Except UnknownConnection τ :=
  match r.get? name with
  | some transport => .ok transport
  | none => .error ⟨name⟩

end Registry

end ItemSql
