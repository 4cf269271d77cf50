import Sockify.Core

/-! The proxy configuration and the check that `sockify_proxy_run` makes before
it starts. Text fields hold the bytes before the terminating NUL. -/

namespace Sockify

structure Endpoint where
  host : Bytes
  port : Bytes
  deriving DecidableEq

/-- `enum sockify_log_level`. -/
inductive LogLevel
  | error | warn | info | debug
  deriving DecidableEq

structure Config where
  listenEndpoint : Endpoint
  targetEndpoint : Endpoint
  maxConnections : Nat
  bufferSize : Nat
  acceptBudget : Nat
  readBudget : Nat
  writeBudget : Nat
  backlog : Nat
  handshakeTimeoutMs : Nat
  idleTimeoutMs : Nat
  connectTimeoutMs : Nat
  logLevel : LogLevel
  clientTlsEnabled : Bool
  clientTlsCertFile : Bytes
  clientTlsKeyFile : Bytes
  clientTlsPfxFile : Bytes
  clientTlsPfxPassword : Bytes
  clientTlsCertStore : Bytes
  clientTlsCertThumbprint : Bytes
  targetTlsEnabled : Bool
  targetTlsInsecure : Bool
  targetTlsServerName : Bytes
  targetTlsCaFile : Bytes
  deriving DecidableEq

def proxyConfigInit : Config where
  listenEndpoint := ⟨[], []⟩
  targetEndpoint := ⟨[], []⟩
  maxConnections := 10000
  bufferSize := wsMaxFramePayload
  acceptBudget := 64
  readBudget := 16
  writeBudget := 16
  backlog := 512
  handshakeTimeoutMs := 10000
  idleTimeoutMs := 300000
  connectTimeoutMs := 10000
  logLevel := .info
  clientTlsEnabled := false
  clientTlsCertFile := []
  clientTlsKeyFile := []
  clientTlsPfxFile := []
  clientTlsPfxPassword := []
  clientTlsCertStore := []
  clientTlsCertThumbprint := []
  targetTlsEnabled := false
  targetTlsInsecure := false
  targetTlsServerName := []
  targetTlsCaFile := []

def proxyValidateConfig (config : Config) : Except Err Unit :=
  if config.listenEndpoint.host = [] ∨ config.listenEndpoint.port = [] ∨
      config.targetEndpoint.host = [] ∨ config.targetEndpoint.port = [] then .error .invalid
  else if config.maxConnections = 0 ∨ config.bufferSize = 0 ∨ config.acceptBudget = 0 ∨
      config.readBudget = 0 ∨ config.writeBudget = 0 then .error .invalid
  else if !config.clientTlsEnabled ∧
      (config.clientTlsCertFile ≠ [] ∨ config.clientTlsKeyFile ≠ [] ∨ config.clientTlsPfxFile ≠ [] ∨
        config.clientTlsCertStore ≠ [] ∨ config.clientTlsCertThumbprint ≠ []) then .error .invalid
  else if !config.targetTlsEnabled ∧
      (config.targetTlsInsecure ∨ config.targetTlsServerName ≠ [] ∨ config.targetTlsCaFile ≠ []) then
    .error .invalid
  else .ok ()

/-- A configuration that `sockify_proxy_run` goes on with. -/
def Config.Accepted (config : Config) : Prop := proxyValidateConfig config = .ok ()

instance (config : Config) : Decidable config.Accepted := inferInstanceAs (Decidable (_ = _))

/-- The budgets and sizes of an accepted configuration are not zero. -/
theorem Config.Accepted.positive {config : Config} (accepted : config.Accepted) :
    0 < config.maxConnections ∧ 0 < config.bufferSize ∧ 0 < config.acceptBudget ∧
    0 < config.readBudget ∧ 0 < config.writeBudget := by
  unfold Accepted proxyValidateConfig at accepted
  split at accepted
  · cases accepted
  · split at accepted
    · cases accepted
    · omega

end Sockify
