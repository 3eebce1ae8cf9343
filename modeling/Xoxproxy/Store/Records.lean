import Xoxproxy.GoText

/-!
# The records of the store

The types that `internal/store/store.go` hands to and expects from a
repository.
-/

namespace Xoxproxy

/-- Points in time, in nanoseconds since the Unix epoch. -/
abbrev Time := Int

/-- `store.ErrNotFound`. -/
def errNotFound : GoError := ⟨"store: not found", [.storeNotFound]⟩

/-- `store.ErrConflict`. -/
def errConflict : GoError := ⟨"store: conflict", [.storeConflict]⟩

/-- `store.AuditEntry`, as handed to the audit service. -/
structure AuditEntry where
  actor : String
  action : String
  target : String
  requestID : String := ""
  sourceIP : String := ""
  userAgent : String := ""
  result : String
  detail : String
  deriving DecidableEq, Repr

inductive UserStatus where
  | active
  | disabled
  | expired
  deriving DecidableEq, Repr

inductive CredentialStatus where
  | active
  | revoked
  deriving DecidableEq, Repr

/-- A proxy account. -/
structure ProxyUser where
  id : Int
  serverID : String
  username : String
  status : UserStatus
  allowedProtocols : List String
  downloadBPS : Int
  uploadBPS : Int
  maxConnections : Int
  quotaBytesDaily : Int
  quotaBytesMonthly : Int
  expiresAt : Option Time
  version : Int
  createdAt : Time
  updatedAt : Time
  lastSeenAt : Option Time
  deriving DecidableEq, Repr

/-- One password generation of a proxy user, as handed to the store. -/
structure Credential where
  engineHash : String
  apiHash : String
  createdAt : Time
  deriving DecidableEq, Repr

/-- An active, unexpired user with the engine hash of its active
credential. -/
structure EngineUser where
  user : ProxyUser
  engineHash : String
  deriving DecidableEq, Repr

/-- The traffic of one user on one day that a flush adds. -/
structure UsageDelta where
  userID : Int
  username : String
  day : String
  month : String
  bytesIn : Int
  bytesOut : Int
  connections : Int
  lastSeenUnix : Int
  deriving DecidableEq, Repr

/-- The traffic to one destination that a flush adds. -/
structure DestinationDelta where
  userID : Int
  day : String
  host : String
  port : Int
  protocol : String
  requests : Int
  blocked : Int
  bytesIn : Int
  bytesOut : Int
  lastSeen : Time
  deriving DecidableEq, Repr

/-- How far the traffic-log tailer has consumed. -/
structure LogCursor where
  path : String
  offset : Int
  deriving DecidableEq, Repr

end Xoxproxy
