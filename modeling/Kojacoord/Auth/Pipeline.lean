import Kojacoord.Queue
import Kojacoord.Server

namespace Kojacoord

structure ProfileProperty where
  name : String
  value : String
  signature : Option String
deriving DecidableEq

structure AuthenticatedProfile where
  id : Uuid
  name : String
  properties : List ProfileProperty
deriving DecidableEq

inductive AuthError where
  | rsaDecryptionFailed
  | verifyTokenMismatch
  | sessionServerUnreachable
  | sessionServerRejected
  | sessionServerError (code : UInt16)
  | malformedProfile
  | rateLimited
  | encryptionSetupFailed (why : String)
  | invalidUsername
deriving DecidableEq

def AuthError.reasonText : AuthError → String
  | sessionServerRejected =>
    "Not authenticated! This server is in online mode — log in with a valid Minecraft " ++
      "(Mojang/Microsoft) account."
  | rateLimited => "Authentication servers are busy. Please try again."
  | sessionServerUnreachable => "Could not reach authentication servers."
  | invalidUsername => "Invalid username."
  | _ => "Authentication failed."

def isNameByte (b : UInt8) : Bool :=
  (0x30 ≤ b && b ≤ 0x39) || (0x41 ≤ b && b ≤ 0x5A) || (0x61 ≤ b && b ≤ 0x7A) || b == 0x5F

def isValidUsername (name : String) : Bool :=
  let bytes := name.toUTF8.data.toList
  decide (1 ≤ bytes.length) && decide (bytes.length ≤ 16) && bytes.all isNameByte

inductive AuthEvent where
  | loginStart (username : String) (clientUuid : Option Uuid)
  | encryptionResponse (sharedSecretEnc verifyTokenEnc : List UInt8) (protoVersion : UInt32)

inductive AuthOutbound where
  | encryptionRequest (serverId : String) (publicKey verifyToken : List UInt8)
  | setCompression (threshold : Int32)
  | loginSuccess (uuid : Uuid) (username : String) (properties : List ProfileProperty)
  | loginDisconnect (reason : String)
  | enableEncryption (sharedSecret : List UInt8)
deriving DecidableEq

inductive AuthState where
  | awaitingLoginStart
  | awaitingEncryptionResponse (verifyToken : List UInt8) (username : String) (clientIp : IpAddr)
  | authenticated (profile : AuthenticatedProfile)
  | failed (reason : String)
deriving DecidableEq

structure AuthConfig where
  onlineMode : Bool
  compressionThreshold : Int32
  preventProxyConnections : Bool

/-- The key pair and the functions of the cryptographic libraries. `redText` is the JSON of a red
chat component. -/
structure AuthLibrary where
  pubKeyDer : List UInt8
  rsaDecrypt : List UInt8 → Except AuthError (List UInt8)
  offlineUuid : String → Uuid
  hexDigest : String → List UInt8 → List UInt8 → String
  redText : String → String

abbrev VerifySession (σ : Type) :=
  String → String → Option IpAddr → ExceptT AuthError (StateM σ) AuthenticatedProfile

def AuthConfig.accepted (cfg : AuthConfig) (profile : AuthenticatedProfile) : List AuthOutbound :=
  (if 0 ≤ cfg.compressionThreshold then [.setCompression cfg.compressionThreshold] else []) ++
    [.loginSuccess profile.id profile.name profile.properties]

namespace AuthPipeline

def checkToken (lib : AuthLibrary) (stored tokenEnc : List UInt8) (proto : UInt32) :
    Except AuthError Unit := do
  if tokenEnc = [] then
    if 759 ≤ proto ∧ proto ≤ 760 then return () else throw .verifyTokenMismatch
  else
    let token ← lib.rsaDecrypt tokenEnc
    if token = stored then return () else throw .verifyTokenMismatch

def openSecret (lib : AuthLibrary) (stored secretEnc tokenEnc : List UInt8) (proto : UInt32) :
    Except AuthError (List UInt8) := do
  let secret ← lib.rsaDecrypt secretEnc
  checkToken lib stored tokenEnc proto
  if secret.length = 16 then return secret
  else throw (.encryptionSetupFailed "shared secret not 16 bytes")

def step (cfg : AuthConfig) (lib : AuthLibrary) (token : List UInt8)
    (verifySession : VerifySession σ) (state : AuthState) (event : AuthEvent) (clientIp : IpAddr) :
    ExceptT AuthError (StateM σ) (AuthState × List AuthOutbound) :=
  match state, event with
  | .awaitingLoginStart, .loginStart username _ =>
    if !isValidUsername username then throw .invalidUsername
    else if !cfg.onlineMode then
      let profile := ⟨lib.offlineUuid username, username, []⟩
      return (.authenticated profile, cfg.accepted profile)
    else
      return (.awaitingEncryptionResponse token username clientIp,
        [.encryptionRequest "" lib.pubKeyDer token])
  | .awaitingEncryptionResponse stored username ip,
      .encryptionResponse secretEnc tokenEnc proto => do
    let secret ← openSecret lib stored secretEnc tokenEnc proto
    let serverHash := lib.hexDigest "" secret lib.pubKeyDer
    let profile ← verifySession username serverHash
      (if cfg.preventProxyConnections then some ip else none)
    return (.authenticated profile, .enableEncryption secret :: cfg.accepted profile)
  | .awaitingLoginStart, _ | .awaitingEncryptionResponse .., _ =>
    throw (.encryptionSetupFailed "unexpected event")
  | .authenticated _, _ | .failed _, _ =>
    throw (.encryptionSetupFailed "auth already completed or failed")

def process (cfg : AuthConfig) (lib : AuthLibrary) (token : List UInt8)
    (verifySession : VerifySession σ) (state : AuthState) (event : AuthEvent) (clientIp : IpAddr) :
    StateM σ (AuthState × List AuthOutbound) := do
  match ← (step cfg lib token verifySession state event clientIp).run with
  | .ok r => return r
  | .error e =>
    let reason := lib.redText e.reasonText
    return (.failed reason, [.loginDisconnect reason])

def settle (lib : AuthLibrary) :
    Except AuthError (AuthState × List AuthOutbound) → AuthState × List AuthOutbound
  | .ok r => r
  | .error e => (.failed (lib.redText e.reasonText), [.loginDisconnect (lib.redText e.reasonText)])

theorem process_eq (cfg : AuthConfig) (lib : AuthLibrary) (token : List UInt8)
    (verifySession : VerifySession σ) (state : AuthState) (event : AuthEvent) (clientIp : IpAddr)
    (world : σ) :
    (process cfg lib token verifySession state event clientIp).run world =
      (settle lib ((step cfg lib token verifySession state event clientIp).run world).1,
        ((step cfg lib token verifySession state event clientIp).run world).2) := by
  rw [process, StateT.run_bind, StateT.run]
  rcases (step cfg lib token verifySession state event clientIp).run world with ⟨r, world'⟩
  cases r <;> rfl

end AuthPipeline

end Kojacoord
