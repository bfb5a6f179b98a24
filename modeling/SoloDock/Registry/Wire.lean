import SoloDock.Lib.Trace
import SoloDock.Registry.Client

/-!
# The requests of the resolver on the wire

`registry/client.rs` and `registry/auth.rs` below the resolution of `Registry.Client`: the
HTTP requests that fetch a manifest, a bearer token or a configuration blob. URLs are parsed
by the `url` crate, which is a parameter (`Net`) with one law: in `https://authority/…` the
origin is the authority's, whatever follows. Redirects are not followed by the HTTP client;
only `fetch_blob` follows them, at most three in a row.

The resolver of `Registry.Client` becomes a program of HTTP requests by `serve`.
-/

namespace SoloDock.Registry

open Lib Lib.Text
open String (ofList)

/-! ## URLs -/

/-- A parsed URL. -/
structure Url where
  scheme : String
  username : String
  password : Option String
  host : Option String
  port : Option Nat
  path : String
  query : Option String
  fragment : Option String
  deriving DecidableEq, Repr

def Url.portOrKnownDefault (url : Url) : Option Nat :=
  url.port.or
    (if url.scheme = "https" ∨ url.scheme = "wss" then some 443
    else if url.scheme = "http" ∨ url.scheme = "ws" then some 80
    else if url.scheme = "ftp" then some 21
    else none)

def sameOrigin (left right : Url) : Bool :=
  left.scheme = right.scheme && left.host = right.host
    && left.portOrKnownDefault = right.portOrKnownDefault

/-- The characters of an accepted registry. -/
def isAuthorityChar (c : Char) : Bool :=
  c.isLower || c.isDigit || c = '.' || c = '-' || c = ':'

/-- What other crates provide: URLs, the encoding of query pairs, and the JSON decoding of a
token response. -/
structure Net where
  parse : String → Option Url
  join : Url → String → Option Url
  asStr : Url → String
  encodePairs : List (String × String) → String
  tokenOfJson : Bytes → Option (Option String × Option String)
  parse_origin : ∀ (authority rest : List Char) (url : Url), authority ≠ [] →
    authority.all isAuthorityChar = true →
    parse (ofList ("https://".toList ++ authority ++ '/' :: rest)) = some url →
    url.scheme = "https" ∧ ∃ origin,
      parse (ofList ("https://".toList ++ authority ++ ['/'])) = some origin ∧
      sameOrigin url origin = true

/-! ## HTTP -/

inductive Authorization where
  | basic (username secret : String)
  | bearer (token : String)
  deriving DecidableEq, Repr

/-- A GET request. -/
structure HttpRequest where
  url : Url
  accept : Option String
  authorization : Option Authorization
  ifNoneMatch : Option String
  deriving DecidableEq, Repr

/-- A response: a body of unknown length is a stream of chunks, any of which may fail. -/
structure HttpResponse where
  status : Nat
  headers : List (String × Bytes)
  contentLength : Option Nat
  chunks : List (Except RegistryError Bytes)

/-- `HeaderValue::to_str`: visible ASCII and tabs. -/
def headerToStr (value : Bytes) : Option String :=
  if value.all fun b => 32 ≤ b ∧ b < 127 ∨ b = 9 then
    some (ofList (value.map fun b => Char.ofNat b.toNat))
  else none

/-- `HeaderMap::get`: the first value. -/
def HttpResponse.header (response : HttpResponse) (name : String) : Option Bytes :=
  (response.headers.find? (·.1 = name)).map (·.2)

def manifestLimit : Nat := 8 * 1024 * 1024

def configLimit : Nat := 2 * 1024 * 1024

def tokenLimit : Nat := 64 * 1024

def blobRedirectLimit : Nat := 3

/-- The loop of `read_limited`. -/
def readChunks (limit : Nat) : Bytes → List (Except RegistryError Bytes) →
    Except RegistryError Bytes
  | body, [] => .ok body
  | _, .error err :: _ => .error err
  | body, .ok chunk :: chunks =>
    if limit < body.length + chunk.length then .error .protocol
    else readChunks limit (body ++ chunk) chunks

def readLimited (response : HttpResponse) (limit : Nat) : Except RegistryError Bytes :=
  if response.contentLength.any (limit < ·) then .error .protocol
  else readChunks limit [] response.chunks

/-- The response to a manifest request, as the resolver reads it. -/
def HttpResponse.manifest (response : HttpResponse) : Response where
  status := response.status
  wwwAuthenticate := (response.header "www-authenticate").map headerToStr
  etag := (response.header "etag").bind headerToStr
  contentType := (response.header "content-type").bind headerToStr
  dockerContentDigest := (response.header "docker-content-digest").bind headerToStr
  body := readLimited response manifestLimit

/-- What a request is answered with: a response, or a transport error as
`classify_transport` reports it. -/
abbrev HttpAnswer : HttpRequest → Type := fun _ => Except RegistryError HttpResponse

/-- A program of HTTP requests. -/
abbrev Wire := Prog HttpRequest HttpAnswer RegistryError

open Prog

/-- A text that can be a header value; a request with another one cannot be built. -/
def headerText (value : String) : Bool :=
  value.toUTF8.toList.all fun b => 32 ≤ b ∧ b ≠ 127 ∨ b = 9

def send (request : HttpRequest) : Wire HttpResponse := do
  let answer ← ask request
  Prog.accept answer

/-! ## Challenges -/

structure BearerChallenge where
  realm : Url
  service : Option String
  deriving DecidableEq, Repr

/-- `str::trim` on a visible text. -/
def trim (s : List Char) : List Char :=
  let blank := fun c : Char => c = ' ' || c = '\t'
  ((s.dropWhile blank).reverse.dropWhile blank).reverse

def splitOnce (c : Char) : List Char → Option (List Char × List Char)
  | [] => none
  | x :: s =>
    if x = c then some ([], s)
    else (splitOnce c s).map fun (a, b) => (x :: a, b)

/-- The text between two quotes. -/
def unquote : List Char → Option (List Char)
  | '"' :: s => if s.getLast? = some '"' then some s.dropLast else none
  | _ => none

/-- One parameter of a challenge: the realm and the service found so far. -/
def bearerParameter (found : Option String × Option String) (item : List Char) :
    Except RegistryError (Option String × Option String) :=
  match splitOnce '=' (trim item) with
  | none => .error .protocol
  | some (key, raw) =>
    match unquote raw with
    | none => .error .protocol
    | some raw =>
      if raw.any fun c => c.toNat < 0x20 || c.toNat = 0x7f then .error .protocol
      else if key = "realm".toList ∧ found.1 = none then
        .ok (some (ofList raw), found.2)
      else if key = "service".toList ∧ found.2 = none ∧ raw.length ≤ 255 then
        .ok (found.1, some (ofList raw))
      else if key = "scope".toList then .ok found
      else .error .protocol

/-- `parse_bearer`, with `allow_http_loopback` off as in production. -/
def parseBearer (net : Net) (value : Option String) : Except RegistryError BearerChallenge := do
  match value with
  | none => throw .protocol
  | some value =>
    if !"Bearer ".toList.isPrefixOf value.toList then throw .authUnsupported
    let parameters := value.toList.drop 7
    if 2048 < parameters.length then throw .protocol
    let (first, rest) := split ',' parameters
    let (realm, service) ← (first :: rest).foldlM bearerParameter (none, none)
    match realm.bind net.parse with
    | none => throw .protocol
    | some realm =>
      if realm.scheme ≠ "https" ∨ realm.username ≠ "" ∨ realm.password.isSome
          ∨ realm.query.isSome ∨ realm.fragment.isSome then
        throw .protocol
      return { realm, service }

def dockerHubTokenEndpoint : String := "https://auth.docker.io/token"

/-- The root of the image's registry. -/
def registryRoot (image : ImageReference) : String :=
  ofList ("https://".toList ++ image.transportRegistry.toList ++ ['/'])

def validateBearerRealm (net : Net) (image : ImageReference) (realm : Url) :
    Except RegistryError Unit :=
  match net.parse (registryRoot image) with
  | none => .error .protocol
  | some registryOrigin =>
    if sameOrigin realm registryOrigin
        || (image.logicalRegistry = "docker.io" && net.asStr realm = dockerHubTokenEndpoint) then
      .ok ()
    else .error .authRealmUntrusted

/-- The URL that a token is requested from. -/
def tokenUrl (net : Net) (image : ImageReference) (challenge : BearerChallenge) : Url :=
  { challenge.realm with
    query := some (net.encodePairs (challenge.service.toList.map (("service", ·))
      ++ [("scope", "repository:" ++ image.repository ++ ":pull")])) }

/-- The token request that follows a challenge. -/
def requestToken (net : Net) (image : ImageReference) (credential : Option (String × String))
    (challenge : Option String) : Wire String := do
  let challenge ← Prog.accept (parseBearer net challenge)
  let _ ← Prog.accept (validateBearerRealm net image challenge.realm)
  let response ← send {
    url := tokenUrl net image challenge
    accept := none
    authorization := credential.map fun (username, secret) => .basic username secret
    ifNoneMatch := none }
  let _ ← Prog.accept (classifyStatus response.status credential.isSome)
  let body ← Prog.accept (readLimited response tokenLimit)
  let token ← orStop (net.tokenOfJson body) .protocol
  orStop ((token.1.or token.2).filter fun t => !t.isEmpty && t.utf8ByteSize ≤ 16 * 1024)
    .credentialInvalid

/-! ## Manifests and blobs -/

/-- A URL of the image's repository. -/
def repositoryUrl (image : ImageReference) (rest : String) : String :=
  ofList ("https://".toList ++ image.transportRegistry.toList
    ++ '/' :: ("v2/" ++ image.repository ++ "/" ++ rest).toList)

/-- `manifest::ACCEPT`. -/
def acceptManifests : String :=
  ociManifest ++ ", " ++ ociIndex ++ ", " ++ dockerManifest ++ ", " ++ dockerList

/-- `fetch`. -/
def fetchManifest (net : Net) (image : ImageReference) (selector : String)
    (bearer etag : Option String) : Wire HttpResponse := do
  let url ← orStop (net.parse (repositoryUrl image ("manifests/" ++ selector))) .protocol
  let _ ← ensure (bearer.all headerText && etag.all headerText) .protocol
  send { url, accept := some acceptManifests, authorization := bearer.map .bearer,
         ifNoneMatch := etag }

def isFollowableRedirect (status : Nat) : Bool :=
  status = 302 || status = 307

/-- `blob_redirect_target`; `url` is the URL that was requested. -/
def blobRedirectTarget (net : Net) (url : Url) (response : HttpResponse) :
    Except RegistryError Url :=
  match ((response.header "location").bind headerToStr).filter fun v =>
      !v.isEmpty && v.utf8ByteSize ≤ 8 * 1024 with
  | none => .error .protocol
  | some location =>
    match net.join url location with
    | none => .error .protocol
    | some target =>
      if target.scheme ≠ "https" ∨ target.username ≠ "" ∨ target.password.isSome
          ∨ target.fragment.isSome then .error .protocol
      else .ok target

/-- The loop of `fetch_blob`: the redirects that may still be followed. -/
def followBlob (net : Net) (initialUrl : Url) (bearer : Option String) :
    Nat → Url → Wire HttpResponse
  | left, url => do
    let response ← send {
      url
      accept := none
      authorization := if sameOrigin url initialUrl then bearer.map .bearer else none
      ifNoneMatch := none }
    if isFollowableRedirect response.status then
      match left with
      | 0 => stop .protocol
      | left + 1 => do
        let target ← Prog.accept (blobRedirectTarget net url response)
        followBlob net initialUrl bearer left target
    else pure response

def fetchBlob (net : Net) (image : ImageReference) (digest : String) (bearer : Option String) :
    Wire HttpResponse := do
  let initialUrl ← orStop (net.parse (repositoryUrl image ("blobs/" ++ digest))) .protocol
  let _ ← ensure (bearer.all headerText) .protocol
  followBlob net initialUrl bearer blobRedirectLimit initialUrl

def fetchBlobAuthenticated (net : Net) (image : ImageReference) (digest : String)
    (credential : Option (String × String)) : Wire HttpResponse := do
  let first ← fetchBlob net image digest none
  if first.status = 401 then do
    let challenge ← orStop (first.header "www-authenticate") .credentialRequired
    let token ← requestToken net image credential (headerToStr challenge)
    fetchBlob net image digest (some token)
  else pure first

/-! ## The resolver -/

/-- The requests of the resolver, carried out on the wire. -/
def serve (net : Net) (credential : Option (String × String)) :
    (call : RegistryCall) → Wire call.Answer
  | .fetch image selector bearer etag => do
    let result ← (fetchManifest net image selector bearer etag).attempt
    pure (result.map HttpResponse.manifest)
  | .token image challenge => (requestToken net image credential challenge).attempt

/-- `resolve_poll`. -/
@[irreducible] def resolvePollWire (net : Net) (codec : Codec) (image : ImageReference)
    (platform : Platform)
    (credential : Option (String × String)) (etag : Option String) : Wire PollResolve :=
  handle (serve net credential) (resolveInner codec image platform credential.isSome etag)

/-- `resolve`. -/
@[irreducible] def resolveWire (net : Net) (codec : Codec) (image : ImageReference)
    (platform : Platform)
    (credential : Option (String × String)) : Wire ResolvedImage :=
  handle (serve net credential) (resolve codec image platform credential.isSome)

/-- `inspect_config`, up to the verified configuration and the manifest's digest; what
`parse_image_config` makes of it needs no request. -/
@[irreducible] def inspectConfig (net : Net) (codec : Codec) (image : ImageReference)
    (platform : Platform)
    (credential : Option (String × String)) : Wire (Bytes × String) := do
  let resolved ← resolveWire net codec image platform credential
  let response ← fetchBlobAuthenticated net image resolved.localImageId credential
  let _ ← Prog.accept (classifyStatus response.status credential.isSome)
  let body ← Prog.accept (readLimited response configLimit)
  let _ ← ensure (digest codec body = resolved.localImageId) .digestMismatch
  pure (body, resolved.manifestDigest)

end SoloDock.Registry
