import ChatRelay.Frame.Codec
import ChatRelay.Net.Address
import ChatRelay.Toml.Document
/-!
# Settings

The settings of the program. They are read from a document, in which every
setting is optional, and are validated.
-/

namespace ChatRelay

inductive Environment where
  | local
  | dev
  | prod
  deriving DecidableEq, Repr

namespace Environment

def name : Environment → String
  | .local => "local"
  | .dev => "dev"
  | .prod => "prod"

/-- The environment with a given name. -/
def ofName? (s : String) : Option Environment :=
  [.local, .dev, .prod].find? fun e => e.name = s

def logFilter : Environment → String
  | .prod => "info"
  | _ => "tcpchat=debug,info"

end Environment

structure Settings where
  /-- The address to listen on. -/
  address : Address := ⟨.v4 [127, 0, 0, 1], 8080⟩
  /-- The timeout of a call in milliseconds. -/
  timeout : Nat := 5000
  /-- The greatest number of simultaneous connections. -/
  maxConnections : Option Nat := none
  /-- The frame limit. -/
  maxFrameLength : Nat := Frame.defaultLimit
  /-- The channel capacity of a session. -/
  chatBuffer : Nat := 5
  environment : Environment := .local
  deriving DecidableEq, Repr

/-- The ways in which loading the settings can fail. -/
inductive SettingsError where
  /-- The file could not be read. -/
  | unreadable
  /-- The document could not be parsed. -/
  | malformed
  /-- A setting has to be positive. -/
  | notPositive (name : String)
  deriving DecidableEq, Repr

def SettingsError.message : SettingsError → String
  | unreadable => "failed to read config file"
  | malformed => "failed to parse config file"
  | notPositive name => s!"invalid config: {name} must be positive"

namespace Settings

instance : Inhabited Settings := ⟨{}⟩

/-- Reject settings with a zero limit. -/
def validate (s : Settings) : Except SettingsError Settings :=
  if s.timeout = 0 then .error (.notPositive "timeout")
  else if s.maxFrameLength = 0 then .error (.notPositive "max_frame_len")
  else if s.chatBuffer = 0 then .error (.notPositive "chat_buffer")
  else if s.maxConnections = some 0 then .error (.notPositive "max_connections")
  else .ok s

open Toml

def textOf? : Node → Option String
  | .text s => some s
  | _ => none

def numberOf? : Node → Option Nat
  | .integer i => if 0 ≤ i then some i.toNat else none
  | _ => none

/-- Whether a value is an empty list or table. -/
def isEmptyNode : Node → Bool
  | .list items => items.isEmpty
  | .table _ members => members.isEmpty
  | _ => false

/-- The environment named by a string, or by the only key of a table. -/
def environmentOf? : Node → Option Environment
  | .text s => Environment.ofName? s
  | .table _ [(key, node)] =>
    if isEmptyNode node then Environment.ofName? key else none
  | _ => none

/-- Parse the value of one key. -/
def set? (s : Settings) (key : String) (node : Node) : Option Settings :=
  match key with
  | "addr" => do return { s with address := ← Address.parse? (← textOf? node) }
  | "timeout" => do return { s with timeout := ← numberOf? node }
  | "max_connections" =>
    do return { s with maxConnections := some (← numberOf? node) }
  | "max_frame_len" => do return { s with maxFrameLength := ← numberOf? node }
  | "chat_buffer" => do return { s with chatBuffer := ← numberOf? node }
  | "env" => do return { s with environment := ← environmentOf? node }
  | _ => none

/-- Parse the settings of a document without validating them. -/
def read? (document : String) : Option Settings := do
  (← parse? document).foldlM (fun s (key, node) => s.set? key node) {}

/-- Parse and validate the settings of a document. -/
def ofDocument (document : String) : Except SettingsError Settings :=
  match read? document with
  | none => .error .malformed
  | some s => s.validate

/-- The settings in the contents of a file, or the defaults without a file. -/
def ofFile (bytes : Option Bytes) : Except SettingsError Settings :=
  match bytes.bind Utf8.toString? with
  | none => .error .unreadable
  | some document => ofDocument document

end Settings
end ChatRelay
