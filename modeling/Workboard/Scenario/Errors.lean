import Workboard.Scenario.Report

/-!
Errors that are built from a description and shown.
-/

namespace Workboard.Scenario

open Json

def arg {α : Type} (args : List Value) (n : Nat) (read : Value → Option α) : Got α :=
  need "args" (args[n]?.bind read)

def readDomainError (variant : String) (args : List Value) : Got DomainError := do
  match variant with
  | "ValidationError" => return .validation (← arg args 0 asText) (← arg args 1 asText)
  | "BusinessRuleViolation" => return .businessRule (← arg args 0 asText)
  | s => .error ("variant " ++ s)

def readRepositoryError (variant : String) (args : List Value) : Got RepositoryError := do
  match variant with
  | "NotFound" => return .notFound
  | "Conflict" => return .conflict (← arg args 0 asText)
  | "Storage" => return .storage (← arg args 0 asText)
  | s => .error ("variant " ++ s)

def readOutboxError (variant : String) (args : List Value) : Got OutboxError := do
  match variant with
  | "Storage" => return .storage (← arg args 0 asText)
  | "NotFound" => return .notFound (← arg args 0 asUuid)
  | "Commit" => return .commit (← arg args 0 asText)
  | s => .error ("variant " ++ s)

def readMappingError (variant : String) (args : List Value) : Got MappingError := do
  match variant with
  | "Serialization" => return .serialization "EOF while parsing an object at line 1 column 1"
  | "Rejected" => return .rejected (← arg args 0 asText) (← arg args 1 asText)
  | s => .error ("variant " ++ s)

def readCodecError (variant : String) (args : List Value) : Got CodecError := do
  match variant with
  | "Encode" => return .encode (← arg args 0 asText)
  | "Decode" => return .decode (← arg args 0 asText)
  | "Truncated" => return .truncated (← arg args 0 asNat) (← arg args 1 asNat)
  | "Oversized" => return .oversized (← arg args 0 asNat)
  | s => .error ("variant " ++ s)

def readHubError (variant : String) (args : List Value) : Got HubError := do
  match variant with
  | "NoRooms" => return .noRooms
  | "ShuttingDown" => return .shuttingDown
  | "Permission" => return .permission (← arg args 0 asText)
  | s => .error ("variant " ++ s)

def readBrokerError (variant : String) (args : List Value) : Got BrokerError := do
  match variant with
  | "Publish" => return .publish (← arg args 0 asText) (← arg args 1 asText)
  | "Connection" => return .connection (← arg args 0 asText) (← arg args 1 asText)
  | "Encoding" => return .encoding (← arg args 0 asText)
  | "Closed" => return .closed (← arg args 0 asText)
  | s => .error ("variant " ++ s)

structure Spec where
  variant : String
  args : List Value
  inner : Option Value

def readSpec (v : Value) : Got Spec := do
  return ⟨← get v "variant" asText, ← listOf v "args" .ok, member? v "inner"⟩

def innerSpec (s : Spec) : Got Spec := do readSpec (← need "inner" s.inner)

def readCacheError (s : Spec) : Got CacheError := do
  match s.variant with
  | "Store" => return .store (← arg s.args 0 asText)
  | "Codec" =>
    let i ← innerSpec s
    return .codec (← readCodecError i.variant i.args)
  | v => .error ("variant " ++ v)

def readUnitOfWorkError (s : Spec) : Got UnitOfWorkError := do
  match s.variant with
  | "Outbox" =>
    let i ← innerSpec s
    return .outbox (← readOutboxError i.variant i.args)
  | "Mapping" =>
    let i ← innerSpec s
    return .mapping (← readMappingError i.variant i.args)
  | "Cancelled" => return .cancelled
  | v => .error ("variant " ++ v)

def readServiceError (s : Spec) : Got ServiceError := do
  match s.variant with
  | "Domain" =>
    let i ← innerSpec s
    return .domain (← readDomainError i.variant i.args)
  | "NotFound" => return .notFound (← arg s.args 0 asText)
  | "Repository" =>
    let i ← innerSpec s
    return .repository (← readRepositoryError i.variant i.args)
  | "UnitOfWork" => return .unitOfWork (← readUnitOfWorkError (← innerSpec s))
  | "Cache" => return .cache (← readCacheError (← innerSpec s))
  | "Infrastructure" => return .infrastructure (← arg s.args 0 asText)
  | "Authentication" => return .authentication
  | "Authorization" => return .authorization
  | v => .error ("variant " ++ v)

def runError (v : Value) : Got Value := do
  let s ← readSpec (← get v "spec" some)
  match ← get v "family" asText with
  | "domain" => return domainFailure (← readDomainError s.variant s.args)
  | "repository" =>
    let e ← readRepositoryError s.variant s.args
    return failure (repositoryKind e) e.message
  | "outbox" => return outboxFailure (← readOutboxError s.variant s.args)
  | "mapping" =>
    let e : UnitOfWorkError := .mapping (← readMappingError s.variant s.args)
    return failure (unitOfWorkKind e) e.message
  | "codec" =>
    let e ← readCodecError s.variant s.args
    return failure (codecKind e) e.message
  | "cache" => return cacheFailure (← readCacheError s)
  | "uow" =>
    let e ← readUnitOfWorkError s
    return failure (unitOfWorkKind e) e.message
  | "broker" => return brokerFailure (← readBrokerError s.variant s.args)
  | "hub" => return hubFailure (← readHubError s.variant s.args)
  | "app" =>
    let e ← readServiceError s
    return obj [("error", str (serviceKind e)), ("message", str (cut e.message)),
      ("http", apiError (ApiError.ofService e))]
  | "api" =>
    let text := (arg s.args 0 asText).toOption.getD ""
    return apiError <| match s.variant with
      | "unauthorized" => .unauthorized text
      | "bad_request" => .badRequest text
      | "forbidden" => .forbidden text
      | "not_found" => .notFound text
      | _ => .internal
  | f => .error ("family " ++ f)

end Workboard.Scenario
