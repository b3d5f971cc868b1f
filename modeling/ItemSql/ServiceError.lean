import ItemSql.Json.Decode

/-!
# Errors that the store reports

A request that fails is answered with an envelope: a record of the type of the error, which may have
a namespace before it, and a message in words. An answer that is no envelope is an error all the
same, of unknown type and with the whole answer for its message.
-/

namespace ItemSql

/-- The well-known types of errors. -/
inductive ErrorCode where
  | resourceInUse
  | resourceNotFound
  | conditionalCheckFailed
  | throughputExceeded
  | validation
  | serialization
  | internalServer
  | accessDenied
  | unrecognizedClient
  /-- Any other type. -/
  | unknown
  deriving DecidableEq, Repr

namespace ErrorCode

/-- All codes. -/
def all : List ErrorCode :=
  [.resourceInUse, .resourceNotFound, .conditionalCheckFailed, .throughputExceeded, .validation,
   .serialization, .internalServer, .accessDenied, .unrecognizedClient, .unknown]

/-- The code on the wire. -/
def wireName : ErrorCode → String
  | .resourceInUse => "ResourceInUseException"
  | .resourceNotFound => "ResourceNotFoundException"
  | .conditionalCheckFailed => "ConditionalCheckFailedException"
  | .throughputExceeded => "ProvisionedThroughputExceededException"
  | .validation => "ValidationException"
  | .serialization => "SerializationException"
  | .internalServer => "InternalServerError"
  | .accessDenied => "AccessDeniedException"
  | .unrecognizedClient => "UnrecognizedClientException"
  | .unknown => "Unknown"

/-- The characters behind the last `mark`; none if there is no such mark. -/
def behindLast? (mark : Char) (cs : List Char) : Option (List Char) :=
  if mark ∈ cs then some (cs.reverse.takeWhile (· ≠ mark)).reverse else none

/-- The name of an error without its namespace. -/
def shortName (errorType : String) : String :=
  match behindLast? '#' errorType.toList with
  | some name => String.ofList name
  | none => errorType

/-- The code of an error type, with or without its namespace. -/
def ofErrorType (errorType : String) : ErrorCode :=
  (all.find? fun code ↦ code.wireName = shortName errorType).getD .unknown

end ErrorCode

/-- An error that the store reports. -/
structure ServiceError where
  code : ErrorCode
  /-- The type as it was reported. -/
  errorType : String
  message : String
  deriving DecidableEq, Repr

namespace ServiceError

open Json.Decode (Field Fields)

/-- An error of a well-known type. -/
def ofCode (code : ErrorCode) (message : String) : ServiceError :=
  ⟨code, code.wireName, message⟩

/-- Decodes the type and the message of an envelope. -/
def envelope : Json.Decoder (String × String) := fun node ↦
  (Fields.decode "ErrorEnvelope"
    (.field (.defaulted "__type" "" Json.Decode.string) <|
     .field { Field.defaulted "message" "" Json.Decode.string with aliases := ["Message"] } <|
     .none) node).map fun (errorType, message, ()) ↦ (errorType, message)

/-- The error of an answer. -/
def ofBody (body : Text.Bytes) : ServiceError :=
  match Json.Decode.bytes envelope body with
  | .ok (errorType, message) => ⟨.ofErrorType errorType, errorType, message⟩
  | .error _ => .ofCode .unknown (Text.lossy body)

/-- The error in words. -/
def display (e : ServiceError) : String :=
  "store: " ++ e.message ++ " (" ++ e.errorType ++ ")"

end ServiceError

end ItemSql
