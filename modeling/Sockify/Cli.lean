import Sockify.Net

/-! The command line of `core/cli.c`, with `sockify_log_level_from_string` of
`core/log.c` and the library's `strtoul`. What `--help` and `--version` print
is left out. -/

namespace Sockify

/-- `isspace` in the C locale. -/
def isSpace (c : UInt8) : Bool := c == 32 || (9 ≤ c && c ≤ 13)

def isDigit (c : UInt8) : Bool := 48 ≤ c && c ≤ 57

def decimal (digits : Bytes) : Nat := digits.foldl (fun value c => value * 10 + (c.toNat - 48)) 0

/-- `ULONG_MAX`. -/
def ulongMax : Nat := 2 ^ 64 - 1

/-- The sign that `strtoul` skips, and whether it is a minus. -/
def skipSign : Bytes → Bool × Bytes
  | 45 :: rest => (true, rest)
  | 43 :: rest => (false, rest)
  | text => (false, text)

/-- `strtoul` in base ten: the value, and the text at `*end`. -/
def strtoul (text : Bytes) : Nat × Bytes :=
  let (negative, rest) := skipSign (text.dropWhile isSpace)
  let value := decimal (rest.takeWhile isDigit)
  if rest.takeWhile isDigit = [] then (0, text)
  else
    (if value > ulongMax then ulongMax else if negative then (2 ^ 64 - value) % 2 ^ 64 else value,
      rest.dropWhile isDigit)

def parseSize (text : Bytes) : Except Err Nat :=
  let (value, rest) := strtoul text
  if rest = text ∨ rest ≠ [] then .error .invalid else .ok value

/-- The value is cast to `unsigned int`. -/
def parseUint (text : Bytes) : Except Err Nat :=
  let (value, rest) := strtoul text
  if rest = text ∨ rest ≠ [] then .error .invalid else .ok (value % 2 ^ 32)

def copyStr (destSize : Nat) (src : Bytes) : Except Err Bytes :=
  if src.length + 1 > destSize then .error .overflow else .ok src

def logLevelFromString (value : Bytes) : LogLevel :=
  if value = ascii "error" then .error
  else if value = ascii "warn" then .warn
  else if value = ascii "info" then .info
  else if value = ascii "debug" then .debug
  else .info

def validateTls (config : Config) : Except Err Unit :=
  let hasPem := config.clientTlsCertFile ≠ [] ∨ config.clientTlsKeyFile ≠ []
  let hasPfx := config.clientTlsPfxFile ≠ []
  let hasStore := config.clientTlsCertStore ≠ [] ∨ config.clientTlsCertThumbprint ≠ []
  if config.targetTlsInsecure ∧ !config.targetTlsEnabled then .error .invalid
  else if config.clientTlsEnabled then
    if hasPem ∧ (config.clientTlsCertFile = [] ∨ config.clientTlsKeyFile = []) then .error .invalid
    else if (if hasPem then 1 else 0) + (if hasPfx then 1 else 0) + (if hasStore then 1 else 0) ≠ 1 then .error .invalid
    else .ok ()
  else .ok ()

/-- `SOCKIFY_PATH_MAX`. -/
def pathMax : Nat := 512

/-- An assignment to the configuration. -/
inductive Setting
  | clientTlsEnabled | targetTlsEnabled | targetTlsInsecure
  | maxConnections (value : Nat)
  | bufferSize (value : Nat)
  | handshakeTimeoutMs (value : Nat)
  | idleTimeoutMs (value : Nat)
  | connectTimeoutMs (value : Nat)
  | logLevel (level : LogLevel)
  | clientTlsCertFile (text : Bytes)
  | clientTlsKeyFile (text : Bytes)
  | clientTlsPfxFile (text : Bytes)
  | clientTlsPfxPassword (text : Bytes)
  | clientTlsCertStore (text : Bytes)
  | clientTlsCertThumbprint (text : Bytes)
  | targetTlsServerName (text : Bytes)
  | targetTlsCaFile (text : Bytes)
  | listenEndpoint (endpoint : Endpoint)
  | targetEndpoint (endpoint : Endpoint)

def Config.set (config : Config) : Setting → Config
  | .clientTlsEnabled => { config with clientTlsEnabled := true }
  | .targetTlsEnabled => { config with targetTlsEnabled := true }
  | .targetTlsInsecure => { config with targetTlsInsecure := true }
  | .maxConnections value => { config with maxConnections := value }
  | .bufferSize value => { config with bufferSize := value }
  | .handshakeTimeoutMs value => { config with handshakeTimeoutMs := value }
  | .idleTimeoutMs value => { config with idleTimeoutMs := value }
  | .connectTimeoutMs value => { config with connectTimeoutMs := value }
  | .logLevel level => { config with logLevel := level }
  | .clientTlsCertFile text => { config with clientTlsCertFile := text }
  | .clientTlsKeyFile text => { config with clientTlsKeyFile := text }
  | .clientTlsPfxFile text => { config with clientTlsPfxFile := text }
  | .clientTlsPfxPassword text => { config with clientTlsPfxPassword := text }
  | .clientTlsCertStore text => { config with clientTlsCertStore := text }
  | .clientTlsCertThumbprint text => { config with clientTlsCertThumbprint := text }
  | .targetTlsServerName text => { config with targetTlsServerName := text }
  | .targetTlsCaFile text => { config with targetTlsCaFile := text }
  | .listenEndpoint endpoint => { config with listenEndpoint := endpoint }
  | .targetEndpoint endpoint => { config with targetEndpoint := endpoint }

/-- What an option with its value assigns. Where nothing is assigned, the call
returns `SOCKIFY_ERR_INVALID`, whatever has failed. -/
def cliOption (arg value : Bytes) : Option Setting :=
  if arg = ascii "--max-connections" then (parseSize value).toOption.map .maxConnections
  else if arg = ascii "--buffer-size" then (parseSize value).toOption.map .bufferSize
  else if arg = ascii "--handshake-timeout" then (parseUint value).toOption.map .handshakeTimeoutMs
  else if arg = ascii "--idle-timeout" then (parseUint value).toOption.map .idleTimeoutMs
  else if arg = ascii "--connect-timeout" then (parseUint value).toOption.map .connectTimeoutMs
  else if arg = ascii "--log-level" then some (.logLevel (logLevelFromString value))
  else if arg = ascii "--client-tls-cert" then (copyStr pathMax value).toOption.map .clientTlsCertFile
  else if arg = ascii "--client-tls-key" then (copyStr pathMax value).toOption.map .clientTlsKeyFile
  else if arg = ascii "--client-tls-pfx" then (copyStr pathMax value).toOption.map .clientTlsPfxFile
  else if arg = ascii "--client-tls-pfx-password" then (copyStr 256 value).toOption.map .clientTlsPfxPassword
  else if arg = ascii "--client-tls-cert-store" then (copyStr 128 value).toOption.map .clientTlsCertStore
  else if arg = ascii "--client-tls-cert-thumbprint" then (copyStr 128 value).toOption.map .clientTlsCertThumbprint
  else if arg = ascii "--target-tls-server-name" then (copyStr 256 value).toOption.map .targetTlsServerName
  else if arg = ascii "--target-tls-ca-file" then (copyStr pathMax value).toOption.map .targetTlsCaFile
  else none

/-- What `sockify_cli_parse_args` returns: `SOCKIFY_OK`, 1 or an error. -/
inductive CliCode
  | ok | exit
  | error (error : Err)
  deriving DecidableEq

/-- Behind the loop. -/
def cliDone (config : Config) (positional : Nat) : Config × CliCode :=
  if positional ≠ 2 then (config, .error .invalid)
  else match validateTls config with
    | .error error => (config, .error error)
    | .ok () => (config, .ok)

/-- The loop over the arguments, with what it has set so far. -/
def cliLoop (config : Config) (positional : Nat) : List Bytes → Config × CliCode
  | [] => cliDone config positional
  | arg :: rest =>
    if arg = ascii "--help" then (config, .exit)
    else if arg = ascii "--version" then (config, .exit)
    else if arg = ascii "--client-tls" then cliLoop (config.set .clientTlsEnabled) positional rest
    else if arg = ascii "--target-tls" then cliLoop (config.set .targetTlsEnabled) positional rest
    else if arg = ascii "--target-tls-insecure" then cliLoop (config.set .targetTlsInsecure) positional rest
    else if arg.getD 0 0 = 45 ∧ arg.getD 1 0 = 45 then
      match rest with
      | [] => (config, .error .invalid)
      | value :: rest =>
        match cliOption arg value with
        | none => (config, .error .invalid)
        | some setting => cliLoop (config.set setting) positional rest
    else if positional = 0 then
      match netParseEndpoint arg config.listenEndpoint with
      | (endpoint, .error _) => (config.set (.listenEndpoint endpoint), .error .invalid)
      | (endpoint, .ok ()) => cliLoop (config.set (.listenEndpoint endpoint)) (positional + 1) rest
    else if positional = 1 then
      match netParseEndpoint arg config.targetEndpoint with
      | (endpoint, .error _) => (config.set (.targetEndpoint endpoint), .error .invalid)
      | (endpoint, .ok ()) => cliLoop (config.set (.targetEndpoint endpoint)) (positional + 1) rest
    else (config, .error .invalid)

/-- `args` is `argv` without the name of the program. -/
def cliParseArgs (args : List Bytes) (config : Config) : Config × CliCode := cliLoop config 0 args

end Sockify
