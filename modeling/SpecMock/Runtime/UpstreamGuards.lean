import SpecMock.Runtime.WebSocketRoutes

/-!
# Guards on outgoing addresses

The configuration refuses an upstream whose host is a private address, and a
callback to one is skipped.  Of the addresses of version 6 the guards know the
loopback address alone.
-/

namespace SpecMock.Runtime

open SpecMock.Library SpecMock.Core

inductive IpAddr where
  | v4 (address : BitVec 32)
  | v6 (address : BitVec 128)
  deriving DecidableEq

/-- The four bytes of an address, from zero at its front. -/
def octet (address : BitVec 32) (index : Nat) : Nat :=
  address.toNat / 2 ^ (8 * (3 - index)) % 256

def isLoopbackV4 (address : BitVec 32) : Bool := octet address 0 == 127

/-- The ranges of RFC 1918. -/
def isPrivateV4 (address : BitVec 32) : Bool :=
  octet address 0 == 10 ||
    (octet address 0 == 172 && decide (16 ≤ octet address 1 ∧ octet address 1 ≤ 31)) ||
    (octet address 0 == 192 && octet address 1 == 168)

/-- An address is loopback, private or link-local. -/
def isPrivateIp : IpAddr → Bool
  | .v4 address =>
      isLoopbackV4 address || isPrivateV4 address ||
        (octet address 0 == 169 && octet address 1 == 254)
  | .v6 address => address == 1#128

/-- What the guards read of a URL. -/
structure ParsedUrl where
  scheme : String
  /-- The host as it stands in the URL, an address of version 6 in brackets. -/
  hostStr : Option String

/-- The libraries that read URLs and addresses, and the files that exist. -/
structure UrlLibraries where
  parseUrl : String → Except String ParsedUrl
  parseIp : String → Option IpAddr
  pathExists : String → Bool

/-- A host without brackets around it. -/
def trimBrackets (host : String) : String :=
  String.ofList ((host.toList.dropWhile fun char => char == '[').rdropWhile fun char => char == ']')

/-- The host is an address that the guards take for private. -/
def ParsedUrl.isPrivate (libraries : UrlLibraries) (url : ParsedUrl) : Bool :=
  ((url.hostStr.bind fun host => libraries.parseIp (trimBrackets host)).map isPrivateIp).getD false

def ParsedUrl.isHttp (url : ParsedUrl) : Bool := url.scheme == "http" || url.scheme == "https"

/-- A callback may be sent to the URL. -/
def isValidCallbackUrl (libraries : UrlLibraries) (url : String) : Bool :=
  match libraries.parseUrl url with
  | .error _ => false
  | .ok parsed => parsed.isHttp && !parsed.isPrivate libraries

namespace Startup

structure SocketAddr where
  ip : IpAddr
  port : Nat
  deriving DecidableEq

/-- The configuration as it is given, with the paths of its documents. -/
structure ServerConfig where
  openapiSpec : Option String
  asyncapiSpec : Option String
  protoSpec : Option String
  mode : MockMode
  upstream : Option String
  httpAddr : SocketAddr
  grpcAddr : SocketAddr
  wsPath : String
  maxBodySize : Nat
  allowPrivateUpstream : Bool

/-- Refuse the configuration on a condition. -/
def reject (condition : Bool) (message : String) : Except StartError Unit :=
  if condition then .error (.config message) else .ok ()

def privateUpstream : StartError :=
  .config ("upstream URL must not point to a private, loopback, or link-local address " ++
    "(use --allow-private-upstream to override)")

namespace ServerConfig

variable (libraries : UrlLibraries) (config : ServerConfig)

/-- Refuse an upstream that is no HTTP URL, or that the proxy may not reach. -/
def checkUpstream : Except StartError Unit :=
  match config.upstream with
  | none => .ok ()
  | some upstream =>
      match libraries.parseUrl upstream with
      | .error error => .error (.config ("invalid upstream URL: " ++ error))
      | .ok parsed =>
          if parsed.isHttp = false then
            .error (.config ("upstream URL must use http or https scheme, got: " ++ parsed.scheme))
          else if config.mode = .proxy ∧ config.allowPrivateUpstream = false ∧
              parsed.isPrivate libraries = true then .error privateUpstream
          else .ok ()

/-- Refuse a document of some kind that does not exist. -/
def checkPath (kind : String) (path : Option String) : Except StartError Unit :=
  match path with
  | none => .ok ()
  | some path =>
      reject (!libraries.pathExists path) (kind ++ " spec file does not exist: " ++ path)

def checkSpecs : Except StartError Unit :=
  reject (config.openapiSpec.isNone && config.asyncapiSpec.isNone && config.protoSpec.isNone)
    "at least one spec must be provided: openapi_spec, asyncapi_spec, or proto_spec"

def checkMode : Except StartError Unit :=
  reject (config.mode == .proxy && config.upstream.isNone)
    "proxy mode requires upstream base URL (--upstream)"

/-- What is checked behind the upstream. -/
def checkRest : Except StartError Unit := do
  reject (config.httpAddr == config.grpcAddr && config.httpAddr.port != 0 &&
    config.grpcAddr.port != 0) "HTTP and gRPC addresses must be different"
  reject (config.wsPath.toList.head? != some '/') "WebSocket path must start with '/'"
  reject (config.maxBodySize == 0) "max_body_size must be greater than 0"
  checkPath libraries "OpenAPI" config.openapiSpec
  checkPath libraries "AsyncAPI" config.asyncapiSpec
  checkPath libraries "Protobuf" config.protoSpec

/-- Validate the configuration. -/
def validate : Except StartError Unit := do
  config.checkSpecs
  config.checkMode
  config.checkUpstream libraries
  config.checkRest libraries

end ServerConfig

end Startup

/-- An address begins with the first bits of a network. -/
def InNetwork {width : Nat} (network : BitVec width) (bits : Nat) (address : BitVec width) :
    Prop :=
  address >>> (width - bits) = network >>> (width - bits)

instance {width : Nat} (network : BitVec width) (bits : Nat) (address : BitVec width) :
    Decidable (InNetwork network bits address) :=
  inferInstanceAs (Decidable (_ = _))

theorem inNetwork_iff {width : Nat} {network : BitVec width} {bits : Nat}
    {address : BitVec width} :
    InNetwork network bits address ↔
      address.toNat / 2 ^ (width - bits) = network.toNat / 2 ^ (width - bits) := by
  rw [InNetwork, ← BitVec.toNat_inj]
  simp only [BitVec.toNat_ushiftRight, Nat.shiftRight_eq_div_pow]

/-- Loopback `127.0.0.0/8`, the ranges of RFC 1918, link-local `169.254.0.0/16`. -/
def RestrictedV4 (address : BitVec 32) : Prop :=
  InNetwork 0x7f000000#32 8 address ∨
    (InNetwork 0x0a000000#32 8 address ∨ InNetwork 0xac100000#32 12 address ∨
      InNetwork 0xc0a80000#32 16 address) ∨ InNetwork 0xa9fe0000#32 16 address

/--
Link-local `fe80::/10`, unique-local `fc00::/7`, and the mapped form in
`::ffff:0:0/96` of an address that is restricted itself.
-/
def OverlookedV6 (address : BitVec 128) : Prop :=
  InNetwork 0xfe800000000000000000000000000000#128 10 address ∨
    InNetwork 0xfc000000000000000000000000000000#128 7 address ∨
      InNetwork 0xffff00000000#128 96 address ∧ RestrictedV4 (address.setWidth 32)

/-- The addresses that the guards are for. -/
def Restricted : IpAddr → Prop
  | .v4 address => RestrictedV4 address
  | .v6 address => address = 1#128 ∨ OverlookedV6 address

/-- The addresses among them that the guards do not know. -/
def Overlooked : IpAddr → Prop
  | .v4 _ => False
  | .v6 address => OverlookedV6 address

theorem isLoopbackV4_iff {address : BitVec 32} :
    isLoopbackV4 address = true ↔ InNetwork 0x7f000000#32 8 address := by
  have bounded := address.isLt
  rw [isLoopbackV4, beq_iff_eq, octet, inNetwork_iff]
  simp only [BitVec.toNat_ofNat]
  omega

theorem isPrivateV4_iff {address : BitVec 32} :
    isPrivateV4 address = true ↔
      InNetwork 0x0a000000#32 8 address ∨ InNetwork 0xac100000#32 12 address ∨
        InNetwork 0xc0a80000#32 16 address := by
  have bounded := address.isLt
  simp only [isPrivateV4, Bool.or_eq_true, Bool.and_eq_true, beq_iff_eq, decide_eq_true_eq,
    inNetwork_iff, BitVec.toNat_ofNat]
  simp only [octet]
  omega

theorem isLinkLocalV4_iff {address : BitVec 32} :
    (octet address 0 == 169 && octet address 1 == 254) = true ↔
      InNetwork 0xa9fe0000#32 16 address := by
  have bounded := address.isLt
  simp only [Bool.and_eq_true, beq_iff_eq, octet, inNetwork_iff, BitVec.toNat_ofNat]
  omega

theorem not_overlookedV6_loopback : ¬ OverlookedV6 1#128 := by
  rintro (linkLocal | uniqueLocal | ⟨mapped, -⟩)
  · exact absurd linkLocal (by decide)
  · exact absurd uniqueLocal (by decide)
  · exact absurd mapped (by decide)

/-- The guards know a restricted address unless they overlook it. -/
theorem isPrivateIp_iff {address : IpAddr} :
    isPrivateIp address = true ↔ Restricted address ∧ ¬ Overlooked address := by
  cases address with
  | v4 address =>
      rw [isPrivateIp, Bool.or_eq_true, Bool.or_eq_true, isLoopbackV4_iff, isPrivateV4_iff,
        isLinkLocalV4_iff, or_assoc]
      exact (and_iff_left not_false).symm
  | v6 address =>
      rw [isPrivateIp, beq_iff_eq]
      constructor
      · rintro rfl
        exact ⟨.inl rfl, not_overlookedV6_loopback⟩
      · rintro ⟨loopback | overlooked, known⟩
        · exact loopback
        · exact absurd overlooked known

/-- The host of a URL is an address. -/
def HostIs (libraries : UrlLibraries) (url : String) (parsed : ParsedUrl) (address : IpAddr) :
    Prop :=
  libraries.parseUrl url = .ok parsed ∧
    ∃ host, parsed.hostStr = some host ∧ libraries.parseIp (trimBrackets host) = some address

theorem HostIs.isPrivate {libraries : UrlLibraries} {url : String} {parsed : ParsedUrl}
    {address : IpAddr} (written : HostIs libraries url parsed address) :
    parsed.isPrivate libraries = isPrivateIp address := by
  obtain ⟨-, host, given, read⟩ := written
  simp [ParsedUrl.isPrivate, given, read]

/-- An upstream is refused for its address if the address is restricted, and only then. -/
def UpstreamGuarded (libraries : UrlLibraries) (config : Startup.ServerConfig)
    (address : IpAddr) : Prop :=
  (Restricted address → ∃ error, config.validate libraries = .error error) ∧
    (¬ Restricted address → config.validate libraries =
      { config with allowPrivateUpstream := true }.validate libraries)

/-- A callback is refused for its address if the address is restricted, and only then. -/
def CallbackGuarded (libraries : UrlLibraries) (url : String) (parsed : ParsedUrl)
    (address : IpAddr) : Prop :=
  (Restricted address → isValidCallbackUrl libraries url = false) ∧
    (¬ Restricted address → isValidCallbackUrl libraries url = parsed.isHttp)

section Guards

variable {libraries : UrlLibraries} {url : String} {parsed : ParsedUrl} {address : IpAddr}

theorem isValidCallbackUrl_eq (written : HostIs libraries url parsed address) :
    isValidCallbackUrl libraries url = (parsed.isHttp && !isPrivateIp address) := by
  rw [isValidCallbackUrl, written.1]
  exact congrArg (fun restricted => parsed.isHttp && !restricted) written.isPrivate

namespace Startup.ServerConfig

variable {config : ServerConfig}

/-- Without the private branch the upstream is checked as if private ones were allowed. -/
theorem checkUpstream_of_public (upstream : config.upstream = some url)
    (written : HostIs libraries url parsed address) (known : isPrivateIp address = false) :
    config.checkUpstream libraries =
      { config with allowPrivateUpstream := true }.checkUpstream libraries := by
  simp only [checkUpstream, upstream, written.1, written.isPrivate, known]
  simp

theorem checkUpstream_of_private (upstream : config.upstream = some url)
    (proxied : config.mode = .proxy) (guarded : config.allowPrivateUpstream = false)
    (written : HostIs libraries url parsed address) (known : isPrivateIp address = true) :
    ∃ error, config.checkUpstream libraries = .error error := by
  simp only [checkUpstream, upstream, written.1, written.isPrivate, known, proxied, guarded]
  split
  · exact ⟨_, rfl⟩
  · exact ⟨_, rfl⟩

/-- Validation depends on the permission for private upstreams in one check only. -/
theorem validate_congr (same : config.checkUpstream libraries =
      { config with allowPrivateUpstream := true }.checkUpstream libraries) :
    config.validate libraries =
      { config with allowPrivateUpstream := true }.validate libraries := by
  rw [validate, same]
  rfl

theorem validate_of_checkUpstream {error : StartError}
    (refused : config.checkUpstream libraries = .error error) :
    ∃ first, config.validate libraries = .error first := by
  rw [validate]
  cases config.checkSpecs with
  | error first => exact ⟨first, rfl⟩
  | ok _ =>
      cases config.checkMode with
      | error first => exact ⟨first, rfl⟩
      | ok _ =>
          rw [refused]
          exact ⟨error, rfl⟩

end Startup.ServerConfig

theorem isPrivateIp_of_overlooked (overlooked : Overlooked address) :
    Restricted address ∧ isPrivateIp address = false := by
  have unknown : isPrivateIp address = false := by
    rw [← Bool.not_eq_true, isPrivateIp_iff]
    exact fun known => known.2 overlooked
  cases address with
  | v4 address => exact overlooked.elim
  | v6 address => exact ⟨.inr overlooked, unknown⟩

theorem isPrivateIp_of_not_restricted (free : ¬ Restricted address) :
    isPrivateIp address = false := by
  rw [← Bool.not_eq_true, isPrivateIp_iff]
  exact fun known => free known.1

/-- An upstream is guarded unless its address is overlooked and nothing else is refused. -/
theorem upstreamGuarded_iff {config : Startup.ServerConfig}
    (upstream : config.upstream = some url) (proxied : config.mode = .proxy)
    (guarded : config.allowPrivateUpstream = false)
    (written : HostIs libraries url parsed address) :
    UpstreamGuarded libraries config address ↔
      (Overlooked address → ∃ error,
        { config with allowPrivateUpstream := true }.validate libraries = .error error) := by
  have unchanged (unknown : isPrivateIp address = false) :=
    config.validate_congr (config.checkUpstream_of_public upstream written unknown)
  constructor
  · rintro ⟨refused, -⟩ overlooked
    obtain ⟨restricted, unknown⟩ := isPrivateIp_of_overlooked overlooked
    rw [← unchanged unknown]
    exact refused restricted
  · intro otherwise
    refine ⟨fun restricted => ?_, fun free => unchanged (isPrivateIp_of_not_restricted free)⟩
    by_cases overlooked : Overlooked address
    · rw [unchanged (isPrivateIp_of_overlooked overlooked).2]
      exact otherwise overlooked
    · obtain ⟨error, refused⟩ := config.checkUpstream_of_private upstream proxied guarded written
        (isPrivateIp_iff.mpr ⟨restricted, overlooked⟩)
      exact config.validate_of_checkUpstream refused

/-- A callback is guarded unless its address is overlooked in a URL that is HTTP. -/
theorem callbackGuarded_iff (written : HostIs libraries url parsed address) :
    CallbackGuarded libraries url parsed address ↔
      (Overlooked address → parsed.isHttp = false) := by
  rw [CallbackGuarded, isValidCallbackUrl_eq written]
  constructor
  · rintro ⟨refused, -⟩ overlooked
    obtain ⟨restricted, unknown⟩ := isPrivateIp_of_overlooked overlooked
    simpa [unknown] using refused restricted
  · intro otherwise
    refine ⟨fun restricted => ?_, fun free => by simp [isPrivateIp_of_not_restricted free]⟩
    by_cases overlooked : Overlooked address
    · simp [otherwise overlooked]
    · simp [isPrivateIp_iff.mpr ⟨restricted, overlooked⟩]

end Guards

/--
Both guards refuse an address exactly when it is loopback, private or
link-local, unless it is an overlooked one of version 6 in a URL and a
configuration that nothing else speaks against.
-/
theorem guards_hold_iff (libraries : UrlLibraries) (address : IpAddr) :
    (∀ (config : Startup.ServerConfig) (url : String) (parsed : ParsedUrl),
      config.upstream = some url → config.mode = .proxy → config.allowPrivateUpstream = false →
        HostIs libraries url parsed address →
          (UpstreamGuarded libraries config address ↔
            (Overlooked address → ∃ error,
              { config with allowPrivateUpstream := true }.validate libraries = .error error))) ∧
    ∀ (url : String) (parsed : ParsedUrl), HostIs libraries url parsed address →
      (CallbackGuarded libraries url parsed address ↔
        (Overlooked address → parsed.isHttp = false)) :=
  ⟨fun _ _ _ upstream proxied guarded written =>
    upstreamGuarded_iff upstream proxied guarded written,
    fun _ _ written => callbackGuarded_iff written⟩

/-- Two URLs with an address for their host, as the libraries read them. -/
def addressUrls : UrlLibraries where
  parseUrl
    | "http://10.0.0.1/" => .ok ⟨"http", some "10.0.0.1"⟩
    | "http://[fe80::1]/" => .ok ⟨"http", some "[fe80::1]"⟩
    | _ => .error "relative URL without a base"
  parseIp
    | "10.0.0.1" => some (.v4 0x0a000001#32)
    | "fe80::1" => some (.v6 0xfe800000000000000000000000000001#128)
    | _ => none
  pathExists path := path == "pets.openapi.yaml"

/-- A proxy of the pets that may not reach private upstreams. -/
def proxyTo (upstream : String) : Startup.ServerConfig where
  openapiSpec := some "pets.openapi.yaml"
  asyncapiSpec := none
  protoSpec := none
  mode := .proxy
  upstream := some upstream
  httpAddr := ⟨.v4 0x7f000001#32, 0⟩
  grpcAddr := ⟨.v4 0x7f000001#32, 0⟩
  wsPath := "/ws"
  maxBodySize := 10 * 1024 * 1024
  allowPrivateUpstream := false

/-- An address of version 4 is refused at both places. -/
theorem privateAddress_refused :
    UpstreamGuarded addressUrls (proxyTo "http://10.0.0.1/") (.v4 0x0a000001#32) ∧
      CallbackGuarded addressUrls "http://10.0.0.1/" ⟨"http", some "10.0.0.1"⟩
        (.v4 0x0a000001#32) :=
  have written : HostIs addressUrls "http://10.0.0.1/" ⟨"http", some "10.0.0.1"⟩
      (.v4 0x0a000001#32) := ⟨rfl, "10.0.0.1", rfl, by decide⟩
  ⟨((guards_hold_iff addressUrls (.v4 0x0a000001#32)).1 (proxyTo "http://10.0.0.1/")
      "http://10.0.0.1/" ⟨"http", some "10.0.0.1"⟩ rfl rfl rfl written).mpr fun known => known.elim,
    ((guards_hold_iff addressUrls (.v4 0x0a000001#32)).2 "http://10.0.0.1/"
      ⟨"http", some "10.0.0.1"⟩ written).mpr fun known => known.elim⟩

/-- A link-local address of version 6 passes both guards. -/
theorem linkLocalV6_passes :
    HostIs addressUrls "http://[fe80::1]/" ⟨"http", some "[fe80::1]"⟩
        (.v6 0xfe800000000000000000000000000001#128) ∧
      Restricted (.v6 0xfe800000000000000000000000000001#128) ∧
      (proxyTo "http://[fe80::1]/").validate addressUrls = .ok () ∧
      isValidCallbackUrl addressUrls "http://[fe80::1]/" = true ∧
      ¬ UpstreamGuarded addressUrls (proxyTo "http://[fe80::1]/")
          (.v6 0xfe800000000000000000000000000001#128) ∧
      ¬ CallbackGuarded addressUrls "http://[fe80::1]/" ⟨"http", some "[fe80::1]"⟩
          (.v6 0xfe800000000000000000000000000001#128) := by
  have restricted : Restricted (.v6 0xfe800000000000000000000000000001#128) := by
    refine .inr (.inl ?_)
    rw [inNetwork_iff]
    decide
  have accepted : (proxyTo "http://[fe80::1]/").validate addressUrls = .ok () := by decide
  have valid : isValidCallbackUrl addressUrls "http://[fe80::1]/" = true := by decide
  refine ⟨⟨rfl, "[fe80::1]", rfl, by decide⟩, restricted, accepted, valid, ?_, ?_⟩
  · rintro ⟨refused, -⟩
    obtain ⟨error, failed⟩ := refused restricted
    rw [accepted] at failed
    cases failed
  · rintro ⟨refused, -⟩
    rw [refused restricted] at valid
    cases valid

end SpecMock.Runtime
