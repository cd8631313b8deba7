import StateOwnership.Cloud.Limit
import StateOwnership.Text.Quoted

/-!
# The cloud

Objects are kept by a storage service and roles are lent by a token service. What the services
answer is a value like any other, `Cloud`, and everything that is asked of them is a `Call`, so an
operation is a function of the answers and leaves the list of what it asked.
-/

namespace StateOwnership

inductive Service where
  | s3
  | sts
  deriving DecidableEq, Repr

def Service.name : Service → Text
  | .s3 => "s3"
  | .sts => "sts"

/-- Why a service, or the way to it, fails. -/
inductive ServiceError where
  | refused (code operation message : Text)
  | noCredentials
  | noRegion
  /-- The profile that the environment names is unknown. -/
  | noProfile (name : Text)
  | unreachable (url : Text)
  /-- A parameter has no meaning. -/
  | invalidValue (message : Text)
  /-- The operating system failed. -/
  | system (message : Text)
  | interrupted
  deriving DecidableEq, Repr

namespace ServiceError

def describe : ServiceError → Text
  | .refused code operation message =>
    "An error occurred (" ++ code ++ ") when calling the " ++ operation ++ " operation: " ++
      message
  | .noCredentials => "Unable to locate credentials"
  | .noRegion => "You must specify a region."
  | .noProfile name => "The config profile (" ++ name ++ ") could not be found"
  | .unreachable url => "Could not connect to the endpoint URL: \"" ++ url ++ "\""
  | .invalidValue message => message
  | .system message => message
  | .interrupted => []

/-- Whether an error comes from the way to a service: credentials, region, profile or network. -/
def isConnectivity : ServiceError → Bool
  | .noCredentials | .noRegion | .noProfile _ | .unreachable _ => true
  | _ => false

def isOfService : ServiceError → Bool
  | .refused .. => true
  | e => e.isConnectivity

end ServiceError

/-- Temporary credentials of a role. -/
structure Credentials where
  accessKeyId : Text
  secretAccessKey : Text
  sessionToken : Text
  deriving DecidableEq, Repr

/-- What a session is opened with. Without credentials those of the environment are taken. -/
structure SessionRequest where
  region : Option Text
  credentials : Option Credentials
  deriving DecidableEq, Repr

/-- A session: what it was opened with and the region in force. -/
structure Session where
  request : SessionRequest
  region : Option Text
  deriving DecidableEq, Repr

structure Connection where
  service : Service
  session : Session
  deriving DecidableEq, Repr

structure RoleRequest where
  roleArn : Text
  sessionName : Text
  externalId : Option Text
  deriving DecidableEq, Repr

/-- How the transfer of an object goes. -/
structure Delivery where
  /-- The octets that are written to the local file. -/
  body : Bytes
  fault : Option ServiceError
  /-- Whether it goes wrong before anything is written. -/
  atSubmission : Bool
  /-- After how many waits the transfer is done. -/
  readyAfter : Nat
  deriving DecidableEq, Repr

/-- The answers of the services. -/
structure Cloud where
  /-- The region in force in a session. -/
  session : SessionRequest → Except ServiceError (Option Text)
  /-- What keeps a connection from being made. -/
  connection : Connection → Option ServiceError
  assumeRole : Connection → RoleRequest → Except ServiceError Credentials
  identity : Connection → Except ServiceError Text
  transfer : (bucket key : Text) → Delivery

/-- The answers where no service can be reached. -/
def Cloud.offline (url : Text) : Cloud where
  session request := .ok request.region
  connection _ := some (.unreachable url)
  assumeRole _ _ := .error (.unreachable url)
  identity _ := .error (.unreachable url)
  transfer _ _ := ⟨[], some (.unreachable url), true, 0⟩

inductive Call where
  | session (request : SessionRequest)
  | connection (service : Service) (region : Option Text) (maxRetries timeout : Limit)
  | assumeRole (request : RoleRequest)
  | identity
  | download (bucket key : Text)
  deriving DecidableEq, Repr

end StateOwnership
