/-!
# The log

Log records as data. The outer layer of the program decides where they are
written.
-/

namespace ChatRelay

inductive Level where
  | info
  | warn
  | error
  deriving DecidableEq, Repr

def Level.name : Level → String
  | info => "INFO"
  | warn => "WARN"
  | error => "ERROR"

structure Record where
  level : Level
  message : String
  fields : List (String × String) := []
  deriving DecidableEq, Repr

namespace Record

/-- A record as one line of text. -/
def text (r : Record) : String :=
  r.fields.foldl (fun line (name, value) => s!"{line} {name}={value}")
    s!"{r.level.name} {r.message}"

def completed (requestId : Nat) (method url : String) (code : Nat)
    (status : String) (size : Nat) : Record where
  level := .info
  message := "request completed"
  fields :=
    [("request_id", toString requestId), ("method", method), ("url", url),
      ("status_code", toString code), ("status", status),
        ("response_size", toString size)]

def signedUp (user : Int) (login : String) : Record :=
  ⟨.info, "signed up", [("user_id", toString user), ("login", login)]⟩

/-- A session subscribed to the bus. -/
def newSubscriber (slot : Nat) : Record :=
  ⟨.info, "new subscriber", [("slot_id", toString slot)]⟩

/-- The client of a session closed its connection. -/
def disconnected : Record := ⟨.info, "client disconnected", []⟩

/-- Reading from the client of a session failed. -/
def readFailed (why : String) : Record :=
  ⟨.error, "error to read frame", [("err", why)]⟩

/-- A frame could not be decoded as an event. -/
def rejected (why : String) : Record :=
  ⟨.warn, "rejected event", [("err", why)]⟩

/-- A message could not be stored. -/
def notStored (why : String) : Record :=
  ⟨.error, "failed to create message", [("err", why)]⟩

/-- An event was dropped because the channel of a subscriber was full. -/
def channelFull (kind : String) (slot : Nat) : Record :=
  ⟨.warn, "subscriber channel full, dropping event",
    [("kind", kind), ("slot_id", toString slot)]⟩

/-- The last write of a session did not finish within the grace period. -/
def writerStalled : Record := ⟨.warn, "event writer stalled, aborting", []⟩

/-- A handler offered an upgrade on a protocol without streaming. -/
def upgradeIgnored : Record :=
  ⟨.warn, "handler returned an upgrade for a request/response call", []⟩

def listening (routes : Nat) : Record :=
  ⟨.info, "listening", [("routes", toString routes)]⟩

end Record
end ChatRelay
