import ChatRelay.Settings.Settings
/-!
# The command line

Each setting can be given as an option or, failing that, as an environment
variable. Options take precedence over the settings file.
-/

namespace ChatRelay

/-- The options that take a value. -/
inductive Setting where
  | document
  | address
  | timeout
  | maxConnections
  | maxFrameLength
  | chatBuffer
  | environment
  deriving DecidableEq, Repr

namespace Setting

def all : List Setting :=
  [document, address, timeout, maxConnections, maxFrameLength, chatBuffer,
    environment]

/-- The long flag without hyphens. -/
def flag : Setting → String
  | document => "config"
  | address => "addr"
  | timeout => "timeout-ms"
  | maxConnections => "max-connections"
  | maxFrameLength => "max-frame-len"
  | chatBuffer => "chat-buffer"
  | environment => "env"

/-- The environment variable of an option. -/
def variableName : Setting → String
  | document => "TCPCHAT_CONFIG"
  | address => "TCPCHAT_ADDR"
  | timeout => "TCPCHAT_TIMEOUT_MS"
  | maxConnections => "TCPCHAT_MAX_CONNECTIONS"
  | maxFrameLength => "TCPCHAT_MAX_FRAME_LEN"
  | chatBuffer => "TCPCHAT_CHAT_BUFFER"
  | environment => "TCPCHAT_ENV"

/-- The help text of an option. -/
def helpText : Setting → String
  | document => "TOML config file"
  | address => "Address to listen on"
  | timeout => "Request/response deadline in milliseconds"
  | maxConnections => "Maximum concurrent connections"
  | maxFrameLength => "Largest accepted frame in bytes"
  | chatBuffer => "Capacity of each chat session's event channel"
  | environment => "Deployment environment"

/-- The usage form of an option, with a placeholder for its value. -/
def usageForm (s : Setting) : String :=
  let word := s.flag.map fun c => if c = '-' then '_' else c.toUpper
  s!"      --{s.flag} <{word}>"

/-- The option with a given long flag. -/
def ofFlag? (s : String) : Option Setting := all.find? fun o => o.flag = s

end Setting

/-- The ways in which parsing the command line can fail. -/
inductive UsageError where
  /-- A value that is not a valid text. -/
  | invalidText
  /-- A missing value, or one that cannot be parsed. -/
  | invalidValue
  | unknownArgument
  /-- An option that is given twice. -/
  | conflict
  /-- A value for a flag. -/
  | tooManyValues
  /-- The help flag was given. -/
  | help
  /-- The version flag was given. -/
  | version
  deriving DecidableEq, Repr

def UsageError.message : UsageError → String
  | invalidText => "the value of an option is malformed"
  | invalidValue => "the value of an option is missing or not one that it knows"
  | unknownArgument => "unexpected argument found"
  | conflict => "an option cannot be used multiple times"
  | tooManyValues => "an option that takes no value has one"
  | help => "help is wanted"
  | version => "the version is wanted"

structure Options where
  document : Option String := none
  address : Option Address := none
  timeout : Option Nat := none
  maxConnections : Option Nat := none
  maxFrameLength : Option Nat := none
  chatBuffer : Option Nat := none
  environment : Option Environment := none
  deriving DecidableEq, Repr

namespace Options

/-- Whether an option has a value. -/
def has (o : Options) : Setting → Bool
  | .document => o.document.isSome
  | .address => o.address.isSome
  | .timeout => o.timeout.isSome
  | .maxConnections => o.maxConnections.isSome
  | .maxFrameLength => o.maxFrameLength.isSome
  | .chatBuffer => o.chatBuffer.isSome
  | .environment => o.environment.isSome

def number (s : String) : Except UsageError Nat :=
  ((Text.natural? Text.maxNatural s).map Except.ok).getD (.error .invalidText)

/-- Parse the value of an option. -/
def set (o : Options) (setting : Setting) (s : String) :
    Except UsageError Options := do
  match setting with
  | .document =>
    if s = "" then .error .invalidValue
    else return { o with document := some s }
  | .address =>
    match Address.parse? s with
    | some a => return { o with address := some a }
    | none => .error .invalidText
  | .timeout => return { o with timeout := some (← number s) }
  | .maxConnections => return { o with maxConnections := some (← number s) }
  | .maxFrameLength => return { o with maxFrameLength := some (← number s) }
  | .chatBuffer => return { o with chatBuffer := some (← number s) }
  | .environment =>
    match Environment.ofName? s with
    | some e => return { o with environment := some e }
    | none => .error .invalidValue

/-- Parse the value of an option that must not have one yet. -/
def setOnce (o : Options) (setting : Setting) (s : String) :
    Except UsageError Options :=
  if o.has setting then .error .conflict else o.set setting s

/-- The option read last, with its value unless it is still missing. -/
structure PendingOption where
  setting : Setting
  value : Option String
  deriving DecidableEq, Repr

/-- Process the pending option. -/
def resolve (o : Options) : Option PendingOption → Except UsageError Options
  | none => .ok o
  | some ⟨_, none⟩ => .error .invalidValue
  | some ⟨setting, some s⟩ => o.setOnce setting s

/-- Split a long option at its equals sign. -/
def splitLong (text : List Char) : String × Option String :=
  let name := text.takeWhile (· ≠ '=')
  match text.dropWhile (· ≠ '=') with
  | [] => (String.ofList name, none)
  | _ :: value => (String.ofList name, some (String.ofList value))

/-- The flags that request the help or the version. -/
def infoFlag (error : UsageError) (o : Options) (pending : Option PendingOption)
    (value : Option String) : UsageError :=
  if value.isSome then .tooManyValues
  else match o.resolve pending with
    | .error e => e
    | .ok _ => error

def short (o : Options) (pending : Option PendingOption) :
    List Char → UsageError
  | 'h' :: _ => infoFlag .help o pending none
  | 'V' :: _ => infoFlag .version o pending none
  | _ => .unknownArgument

/-- Parse the remaining arguments. An option is processed only when the next one
or the end is reached, so an unknown argument is reported before an error in the
option in front of it. An argument that starts with a hyphen is never a
value. -/
def read (o : Options) (pending : Option PendingOption) :
    List String → Except UsageError Options
  | [] => o.resolve pending
  | arg :: rest =>
    match arg.toList with
    | ['-', '-'] =>
      if rest.isEmpty then o.resolve pending else .error .unknownArgument
    | '-' :: '-' :: long =>
      let (name, value) := splitLong long
      match Setting.ofFlag? name with
      | some setting => do
        let o ← o.resolve pending
        match value with
        | some s => read (← o.setOnce setting s) none rest
        | none => read o (some ⟨setting, none⟩) rest
      | none =>
        if name = "help" then .error (infoFlag .help o pending value)
        else if name = "version" then .error (infoFlag .version o pending value)
        else .error .unknownArgument
    | '-' :: c :: letters => .error (short o pending (c :: letters))
    | _ =>
      match pending with
      | some ⟨setting, none⟩ => read o (some ⟨setting, some arg⟩) rest
      | _ => .error .unknownArgument

/-- Add the values of environment variables for the options that are not
given. -/
def fill (inherited : String → Option String) (o : Options) :
    Except UsageError Options :=
  Setting.all.foldlM (fun o setting =>
    match inherited setting.variableName with
    | some s => if o.has setting then .ok o else o.set setting s
    | none => .ok o) o

/-- Parse arguments and environment variables. -/
def parse (args : List String) (inherited : String → Option String) :
    Except UsageError Options := do
  fill inherited (← read {} none args)

/-- Override settings by the options that are given. -/
def applyTo (o : Options) (s : Settings) : Settings where
  address := o.address.getD s.address
  timeout := o.timeout.getD s.timeout
  maxConnections := o.maxConnections.or s.maxConnections
  maxFrameLength := o.maxFrameLength.getD s.maxFrameLength
  chatBuffer := o.chatBuffer.getD s.chatBuffer
  environment := o.environment.getD s.environment

/-- The effective settings of the program. The settings file is validated on its
own first. -/
def settings (o : Options) (files : String → Option Bytes) :
    Except SettingsError Settings := do
  let base ← match o.document with
    | some path => Settings.ofFile (files path)
    | none => .ok {}
  (o.applyTo base).validate

/-- The name and the version of the program. -/
def version : String := "tcpchat 0.1.0"

/-- A line of the help text. -/
def helpLine (left right : String) : String :=
  left.pushn ' ' (43 - left.length) ++ right

def help : String :=
  let lines := Setting.all.map fun s =>
    let values :=
      if s = .environment then " [possible values: local, dev, prod]" else ""
    helpLine s.usageForm (s.helpText ++ s!" [env: {s.variableName}=]" ++ values)
  "\n".intercalate (
    ["Chat server speaking JSON frames over TCP", "",
      "Usage: tcpchat [OPTIONS]", "", "Options:"] ++
    lines ++ [helpLine "  -h, --help" "Print help", helpLine "  -V, --version"
      "Print version"])

end Options
end ChatRelay
