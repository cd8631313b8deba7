import StateOwnership.Config.Basic
import StateOwnership.World

/-!
# Clients

A client reaches the services on behalf of one backend. It opens its session when it first needs
one, in the role of the backend if there is one, and keeps it; it keeps the connection to each
service likewise. **What has been established is kept, what has failed is tried again.**
-/

namespace StateOwnership

/-- A text, or none if it is empty. -/
def Text.nonempty? (t : Text) : Option Text :=
  if t = [] then none else some t

/-- A text as a log line shows it when it may be missing. -/
def Text.shown : Option Text → Text
  | none => "None"
  | some t => t

/-- A text as a literal when it may be missing. -/
def Text.quotedOrNone : Option Text → Text
  | none => "None"
  | some t => Text.quote t

/-- How to reach the services. -/
structure Client where
  region : Option Text
  roleArn : Option Text
  externalId : Option Text
  sessionName : Text
  maxRetries : Limit
  timeout : Limit
  deriving DecidableEq, Repr

namespace Client

def standardSessionName : Text := "tfstate-index"

/-- A client from settings that may be empty. -/
def make (region roleArn externalId sessionName : Text) : Client :=
  { region := region.nonempty?
    roleArn := roleArn.nonempty?
    externalId := externalId.nonempty?
    sessionName := sessionName.nonempty?.getD standardSessionName
    maxRetries := Limit.standardRetries
    timeout := Limit.standardTimeout }

def ofBackend (backend : Backend) : Client :=
  make backend.region backend.roleArn backend.externalId backend.sessionName

def withLimits (client : Client) (maxRetries timeout : Limit) : Except RetryFault Client := do
  let maxRetries ← maxRetries.retries
  return { client with maxRetries := maxRetries, timeout := timeout }

def describe (client : Client) : Text :=
  "AWSClient(region=" ++ Text.quotedOrNone client.region ++ ", role_arn=" ++
    Text.quotedOrNone client.roleArn ++ ", max_retries=" ++ client.maxRetries.inSentence ++ ")"

/-- What the log says about a new client. -/
def greeting (client : Client) : Text :=
  "Initialized AWSClient (region=" ++ Text.shown client.region ++ ", role_arn=" ++
    Text.shown client.roleArn ++ ")"

/-! ## 1. Errors -/

def profileError (e : ServiceError) : Error :=
  Error.about (.configuration (some "profile")) ("AWS profile not found: " ++ e.describe)
    ((∅ : OrderedMap Text Json).insert "hint"
      (.str "Check ~/.aws/credentials for available profiles"))

def credentialsError (hint : Text) : Error :=
  Error.about (.fetch none none) "AWS credentials not found"
    ((∅ : OrderedMap Text Json).insert "hint" (.str hint))

def roleError (roleArn : Text) (e : ServiceError) : Error :=
  Error.about (.fetch none none) ("Failed to assume role " ++ roleArn ++ ": " ++ e.describe)
    ((∅ : OrderedMap Text Json).insert "role_arn" (.str roleArn))

def regionError : Error :=
  Error.about (.configuration (some "s3.region")) "Invalid or missing region"
    ((∅ : OrderedMap Text Json).insert "hint" (.str "Specify a region like 'us-east-1'"))

def connectionError (service : Service) (e : ServiceError) : Error :=
  Error.about (.fetch none none)
    ("Failed to create " ++ service.name ++ " client: " ++ e.describe) ∅

def identityError (e : ServiceError) : Error :=
  Error.about (.fetch none none) ("Failed to get caller identity: " ++ e.describe) ∅

def roleHint : Text := "Configure credentials before assuming a role"

def identityHint : Text :=
  "Configure credentials using 'aws configure' or set AWS_ACCESS_KEY_ID and AWS_SECRET_ACCESS_KEY"

def roleFailure (roleArn : Text) (e : ServiceError) : Failure :=
  if e = .noCredentials then .error (credentialsError roleHint)
  else if e.isOfService then .error (roleError roleArn e)
  else .service e

def connectionFailure (service : Service) (e : ServiceError) : Failure :=
  match e with
  | .noRegion => .error regionError
  | .invalidValue _ => .error (connectionError service e)
  | e => if e.isConnectivity then .error (connectionError service e) else .service e

def identityFailure (e : ServiceError) : Failure :=
  if e = .noCredentials then .error (credentialsError identityHint)
  else if e.isOfService then .error (identityError e)
  else .service e

/-- A failure with the words that `report` finds for a service error; errors stay as they are. -/
def reworded (report : ServiceError → Failure) : Failure → Failure
  | .service e => report e
  | failure => failure

/-! ## 2. What is established -/

/-- What a client has established, what was asked of the services, and what the client has to say
to the log, in order. -/
structure State where
  session : Option Session
  connections : List (Service × Connection)
  calls : List Call
  records : List Log.Record
  deriving DecidableEq

/-- The state of a client that has established nothing, after other calls. -/
def State.fresh (calls : List Call) : State := ⟨none, [], calls, []⟩

/-- A computation of a client. What it has established stays established when it fails. -/
abbrev Step (α : Type) := ExceptT Failure (StateM State) α

def record (level : Log.Level) (message : Text) : Step Unit :=
  modify fun s => { s with records := s.records ++ [⟨level, Log.clientSource, message⟩] }

def call (c : Call) : Step Unit :=
  modify fun s => { s with calls := s.calls ++ [c] }

/-- Runs a step and puts the failures of services into words. -/
def rewording {α : Type} (report : ServiceError → Failure) (step : Step α) : Step α :=
  tryCatch step fun failure => throw (reworded report failure)

/-! ## 3. Sessions -/

def openSession (cloud : Cloud) (request : SessionRequest) : Step Session := do
  call (.session request)
  match cloud.session request with
  | .ok region => return ⟨request, region⟩
  | .error e => throw (.service e)

def sessionFailure (e : ServiceError) : Failure :=
  match e with
  | .noProfile _ => .error (profileError e)
  | e => .service e

/-- The session with the credentials of the environment. -/
def baseSession (cloud : Cloud) (client : Client) : Step Session :=
  rewording sessionFailure do
    let session ← openSession cloud ⟨client.region, none⟩
    record Log.debug ("Created boto3 session for region " ++ Text.shown client.region)
    return session

def openConnection (cloud : Cloud) (client : Client) (session : Session) (service : Service) :
    Step Connection := do
  call (.connection service session.region client.maxRetries client.timeout)
  match cloud.connection ⟨service, session⟩ with
  | none => return ⟨service, session⟩
  | some e => throw (.service e)

def assume (cloud : Cloud) (connection : Connection) (request : RoleRequest) :
    Step Credentials := do
  call (.assumeRole request)
  match cloud.assumeRole connection request with
  | .ok credentials => return credentials
  | .error e => throw (.service e)

/-- The session in a role, opened from the session of the environment. -/
def roleSession (cloud : Cloud) (client : Client) (roleArn : Text) (base : Session) :
    Step Session := do
  let credentials ← rewording (roleFailure roleArn) do
    let connection ← openConnection cloud client base .sts
    assume cloud connection ⟨roleArn, client.sessionName, client.externalId⟩
  record Log.info ("Assumed role " ++ roleArn)
  openSession cloud ⟨base.region, some credentials⟩

/-- The session of a client: the one it has, or a new one. -/
def session (cloud : Cloud) (client : Client) : Step Session := do
  match (← get).session with
  | some session => return session
  | none =>
    let base ← baseSession cloud client
    let session ← match client.roleArn with
      | none => pure base
      | some roleArn => roleSession cloud client roleArn base
    modify fun s => { s with session := some session }
    return session

/-! ## 4. Connections -/

/-- The connection of a client to a service: the one it has, or a new one. -/
def connect (cloud : Cloud) (client : Client) (service : Service) : Step Connection := do
  match Entries.get? service (← get).connections with
  | some connection => return connection
  | none =>
    let connection ← rewording (connectionFailure service) do
      let session ← session cloud client
      openConnection cloud client session service
    modify fun s => { s with connections := Entries.put service connection s.connections }
    record Log.debug
      ("Created " ++ service.name ++ " client for " ++ Text.shown client.region)
    return connection

def callerIdentity (cloud : Cloud) (client : Client) : Step Text :=
  rewording identityFailure do
    let connection ← connect cloud client .sts
    call .identity
    match cloud.identity connection with
    | .ok arn => return arn
    | .error e => throw (.service e)

def validateCredentials (cloud : Cloud) (client : Client) : Step Text := do
  let arn ← callerIdentity cloud client
  record Log.info ("Credentials validated for " ++ arn)
  return arn

end Client

/-- Runs a computation of a client that has established nothing yet. A client touches no file, so
what it has to say is written to the log when it is done. -/
def Action.ofClient {α : Type} (step : Client.Step α) : Action α := fun world =>
  match step.run.run (Client.State.fresh world.calls) with
  | (result, state) => (result, { world with calls := state.calls }.recordAll state.records)

end StateOwnership
