import SoloDock.Lib.Prog
import SoloDock.Registry.Reference

/-!
# Resolving a tag

`Platform::canonical`, the manifest checks and `RegistryResolver::resolve_inner`
of `registry/client.rs` and `registry/manifest.rs`. The registry is an interface:
each request is answered by any response. SHA-256 and the JSON decoder belong to
other crates and are the parameters of `Codec`.

`resolveInner_spec` is what the rest of the development uses: whatever the
registry answers, an image that is returned names the canonical reference it was
resolved from, carries a well-formed manifest digest, and a canonical platform.
-/

namespace SoloDock.Registry

open Lib Lib.Text
open Lib.Prog (ends_bind ends_orElse ends_pure ensure orStop)

/-! ## Platforms -/

structure Platform where
  os : String
  architecture : String
  variant : Option String
deriving DecidableEq, Repr

def toAsciiLowercase (s : String) : String :=
  String.ofList (s.toList.map Char.toLower)

/-- The architecture's canonical name and the variant it implies. -/
def canonicalArchitecture (raw : String) : Option (String × Option String) :=
  if raw = "amd64" ∨ raw = "x86_64" ∨ raw = "x86-64" then some ("amd64", none)
  else if raw = "arm64" ∨ raw = "aarch64" then some ("arm64", some "v8")
  else if raw = "armv7" ∨ raw = "armv7l" ∨ raw = "armhf" then some ("arm", some "v7")
  else if raw = "arm" then some ("arm", none)
  else none

/-- The canonical variant of a canonical architecture. -/
def canonicalVariant (architecture : String) (variant : Option String) :
    Option (Option String) :=
  if architecture = "amd64" ∧ variant = none then some none
  else if architecture = "arm64" ∧ (variant = none ∨ variant = some "v8") then some (some "v8")
  else if architecture = "arm" ∧ (variant = some "v7" ∨ variant = some "7") then some (some "v7")
  else if architecture = "arm" ∧ (variant = some "v6" ∨ variant = some "6") then some (some "v6")
  else none

def Platform.canonical (os architecture : String) (variant : Option String) :
    Except RegistryError Platform :=
  if toAsciiLowercase os ≠ "linux" then .error .platformNotFound
  else match canonicalArchitecture (toAsciiLowercase architecture) with
    | none => .error .platformNotFound
    | some (architecture, inferred) =>
      let variant := ((variant.filter (fun v => !v.isEmpty)).or inferred).map toAsciiLowercase
      match canonicalVariant architecture variant with
      | none => .error .platformNotFound
      | some variant => .ok { os := "linux", architecture, variant }

/-- The platforms `Platform.canonical` returns. -/
def canonicalPlatforms : List Platform :=
  [⟨"linux", "amd64", none⟩, ⟨"linux", "arm64", some "v8"⟩, ⟨"linux", "arm", some "v7"⟩,
    ⟨"linux", "arm", some "v6"⟩]

variable {variant : Option String} {p : Platform}

theorem canonicalVariant_mem {architecture : String} {v : Option String}
    (h : canonicalVariant architecture variant = some v) :
    (⟨"linux", architecture, v⟩ : Platform) ∈ canonicalPlatforms := by
  unfold canonicalVariant at h
  split at h
  next hc => cases h; rw [hc.1]; decide
  split at h
  next hc => cases h; rw [hc.1]; decide
  split at h
  next hc => cases h; rw [hc.1]; decide
  split at h
  next hc => cases h; rw [hc.1]; decide
  · cases h

theorem Platform.canonical_mem {os architecture : String}
    (h : Platform.canonical os architecture variant = .ok p) :
    p ∈ canonicalPlatforms := by
  unfold Platform.canonical at h
  split at h
  · cases h
  split at h
  · cases h
  next arch inferred _ =>
    dsimp only at h
    split at h
    · cases h
    next v hv =>
      cases h
      exact canonicalVariant_mem hv

theorem Platform.canonical_self (h : p ∈ canonicalPlatforms) :
    Platform.canonical p.os p.architecture p.variant = .ok p := by
  simp only [canonicalPlatforms, List.mem_cons, List.not_mem_nil, or_false] at h
  rcases h with rfl | rfl | rfl | rfl <;> rfl

/-! ## Manifests -/

def ociManifest : String := "application/vnd.oci.image.manifest.v1+json"
def ociIndex : String := "application/vnd.oci.image.index.v1+json"
def dockerManifest : String := "application/vnd.docker.distribution.manifest.v2+json"
def dockerList : String := "application/vnd.docker.distribution.manifest.list.v2+json"
def ociConfig : String := "application/vnd.oci.image.config.v1+json"
def dockerConfig : String := "application/vnd.docker.container.image.v1+json"

structure DescriptorPlatform where
  architecture : String
  os : String
  variant : Option String
deriving DecidableEq, Repr

structure Descriptor where
  mediaType : String
  digest : String
  platform : Option DescriptorPlatform
deriving DecidableEq, Repr

structure Manifest where
  schemaVersion : Nat
  mediaType : Option String
  config : Descriptor
deriving DecidableEq, Repr

structure Index where
  schemaVersion : Nat
  mediaType : Option String
  manifests : List Descriptor
deriving DecidableEq, Repr

/-- What other crates provide: SHA-256 and the JSON decoding of manifests. -/
structure Codec where
  sha256 : Bytes → Bytes
  sha256_length : ∀ body, (sha256 body).length = 32
  manifestOfJson : Bytes → Option Manifest
  indexOfJson : Bytes → Option Index

variable (codec : Codec)

def digest (body : Bytes) : String :=
  String.ofList (digestAlgorithm ++ hex (codec.sha256 body))

def parseManifest (body : Bytes) (mediaType : String) : Except RegistryError Manifest :=
  if mediaType ≠ ociManifest ∧ mediaType ≠ dockerManifest then .error .manifestUnsupported
  else match codec.manifestOfJson body with
    | none => .error .protocol
    | some manifest =>
      if manifest.schemaVersion ≠ 2 ∨ manifest.mediaType.any (· != mediaType) then
        .error .manifestUnsupported
      else do
        validateDigest manifest.config.digest
        if manifest.config.mediaType ≠ ociConfig ∧ manifest.config.mediaType ≠ dockerConfig then
          throw .manifestUnsupported
        return manifest

def parseIndex (body : Bytes) (mediaType : String) : Except RegistryError Index :=
  if mediaType ≠ ociIndex ∧ mediaType ≠ dockerList then .error .manifestUnsupported
  else match codec.indexOfJson body with
    | none => .error .protocol
    | some index =>
      if index.schemaVersion ≠ 2 ∨ index.manifests.length > 256
          ∨ index.mediaType.any (· != mediaType) then
        .error .manifestUnsupported
      else do
        index.manifests.forM fun descriptor => validateDigest descriptor.digest
        return index

/-! ## The resolver -/

/-- An HTTP response, as far as the resolver reads it. Headers that are not visible
text read as absent; `body` is `read_limited`'s result. -/
structure Response where
  status : Nat
  wwwAuthenticate : Option (Option String)
  etag : Option String
  contentType : Option String
  dockerContentDigest : Option String
  body : Except RegistryError Bytes

structure ResolvedImage where
  sourceImageRef : String
  logicalRegistry : String
  repository : String
  sourceTag : String
  sourceDescriptorDigest : String
  indexDigest : Option String
  manifestDigest : String
  runnableImageRef : String
  platform : Platform
  localImageId : String
deriving DecidableEq, Repr

inductive PollResolve where
  | notModified
  | modified (image : ResolvedImage) (etag : Option String)
deriving DecidableEq, Repr

/-- The requests of the resolver: a manifest by tag or digest, and the bearer token a
challenge asks for (`parse_bearer`, `validate_bearer_realm` and the token request). -/
inductive RegistryCall where
  | fetch (image : ImageReference) (selector : String) (bearer etag : Option String)
  | token (image : ImageReference) (challenge : Option String)

/-- What each request is answered with. -/
def RegistryCall.Answer : RegistryCall → Type
  | .fetch .. => Except RegistryError Response
  | .token .. => Except RegistryError String

/-- A program over the registry. -/
abbrev RegistryProg := Prog RegistryCall RegistryCall.Answer RegistryError

/-- One manifest request. -/
def fetch (image : ImageReference) (selector : String) (bearer etag : Option String) :
    RegistryProg Response :=
  .call (.fetch image selector bearer etag) fun answer => Prog.orElse answer id

/-- The bearer token a challenge asks for. -/
def fetchToken (image : ImageReference) (challenge : Option String) : RegistryProg String :=
  .call (.token image challenge) fun answer => Prog.orElse answer id

def classifyStatus (status : Nat) (authenticated : Bool) : Except RegistryError Unit :=
  if 200 ≤ status ∧ status < 300 then .ok ()
  else if status = 401 then
    .error (if authenticated then .credentialInvalid else .credentialRequired)
  else if status = 403 then .error .forbidden
  else if status = 404 then .error .tagNotFound
  else if status = 429 then .error .rateLimited
  else if 500 ≤ status ∧ status < 600 then .error .unavailable
  else .error .protocol

def safeEtag (value : String) : Option String :=
  if value.isEmpty || value.utf8ByteSize > 256
      || value.toList.any (fun c => c.toNat < 0x20 || c.toNat = 0x7f) then none
  else some value

/-- The media type without its parameters. -/
def mediaTypeOf (contentType : Option String) : Option String :=
  contentType.map fun v => String.ofList (split ';' v.toList).1

/-- The platform of an index entry, in canonical form. -/
def descriptorPlatform (descriptor : Descriptor) : Except RegistryError Platform :=
  match descriptor.platform with
  | none => .error .platformNotFound
  | some p => Platform.canonical p.os p.architecture p.variant

/-- The entries of an index for one platform. -/
def matchingManifests (index : Index) (platform : Platform) : List Descriptor :=
  index.manifests.filter fun item =>
    (match descriptorPlatform item with
      | .ok p => decide (p = platform)
      | .error _ => false)
    && (item.mediaType = ociManifest || item.mediaType = dockerManifest)

/-- What `resolve_inner` reads off the manifest or the index: index digest, manifest
digest, image id and platform. -/
structure Selected where
  indexDigest : Option String
  manifestDigest : String
  localImageId : String
  platform : Platform

/-- The index branch of `resolve_inner`: fetch the one entry of the platform by its
digest and check that the answer has it. -/
def selectChild (image : ImageReference) (authenticated : Bool) (bearer : Option String)
    (sourceDigest : String) (child : Descriptor) : RegistryProg Selected := do
  let response ← fetch image child.digest bearer none
  Prog.orElse (classifyStatus response.status authenticated) id
  let childMedia ← orStop (mediaTypeOf response.contentType) .protocol
  let childBody ← Prog.orElse response.body id
  let childDigest := digest codec childBody
  ensure (childDigest = child.digest
    && response.dockerContentDigest.all (· = childDigest)) .digestMismatch
  let manifest ← Prog.orElse (parseManifest codec childBody childMedia) id
  let platform ← Prog.orElse (descriptorPlatform child) id
  return {
    indexDigest := some sourceDigest
    manifestDigest := child.digest
    localImageId := manifest.config.digest
    platform }

/-- The part of `resolve_inner` after the top-level body was read and its digest
checked. -/
def selectManifest (image : ImageReference) (authenticated : Bool) (bearer : Option String)
    (platform : Platform) (mediaType : String) (body : Bytes) : RegistryProg Selected :=
  if mediaType = ociManifest ∨ mediaType = dockerManifest then do
    let manifest ← Prog.orElse (parseManifest codec body mediaType) id
    return {
      indexDigest := none
      manifestDigest := digest codec body
      localImageId := manifest.config.digest
      platform }
  else if mediaType = ociIndex ∨ mediaType = dockerList then do
    let index ← Prog.orElse (parseIndex codec body mediaType) id
    match matchingManifests index platform with
    | [child] => selectChild codec image authenticated bearer (digest codec body) child
    | _ => Prog.stop .platformNotFound
  else Prog.stop .manifestUnsupported

/-- The first request of `resolve_inner`, repeated with a bearer token when the
registry asks for one. -/
def fetchTag (image : ImageReference) (etag : Option String) :
    RegistryProg (Response × Option String) := do
  let first ← fetch image image.tag none etag
  if first.status = 401 then
    let challenge ← orStop first.wwwAuthenticate .credentialRequired
    ensure (!challenge.any fun v => "Basic ".toList.isPrefixOf v.toList) .authUnsupported
    let token ← fetchToken image challenge
    let second ← fetch image image.tag (some token) etag
    return (second, some token)
  else
    return (first, none)

/-- `resolve_inner`. `authenticated` is whether a credential was given. -/
def resolveInner (image : ImageReference) (platform : Platform) (authenticated : Bool)
    (etag : Option String) : RegistryProg PollResolve := do
  let platform ← Prog.orElse
    (Platform.canonical platform.os platform.architecture platform.variant) id
  let (response, bearer) ← fetchTag image etag
  if response.status = 304 then
    return .notModified
  else
    Prog.orElse (classifyStatus response.status authenticated) id
    let mediaType ← orStop (mediaTypeOf response.contentType) .protocol
    let body ← Prog.orElse response.body id
    let sourceDigest := digest codec body
    ensure (response.dockerContentDigest.all (· = sourceDigest)) .digestMismatch
    let selected ← selectManifest codec image authenticated bearer platform mediaType body
    let runnable ← Prog.orElse (image.runnable selected.manifestDigest) id
    return .modified
      { sourceImageRef := image.canonicalTaggedRef
        logicalRegistry := image.logicalRegistry
        repository := image.repository
        sourceTag := image.tag
        sourceDescriptorDigest := sourceDigest
        indexDigest := selected.indexDigest
        manifestDigest := selected.manifestDigest
        runnableImageRef := runnable
        platform := selected.platform
        localImageId := selected.localImageId }
      (response.etag.bind safeEtag)

/-- `resolve`: a full resolution, without an entity tag. -/
def resolve (image : ImageReference) (platform : Platform) (authenticated : Bool) :
    RegistryProg ResolvedImage := do
  match ← resolveInner codec image platform authenticated none with
  | .modified image _ => return image
  | .notModified => Prog.stop .protocol

/-! ## What is resolved -/

variable {image : ImageReference} {authenticated : Bool} {platform : Platform}

theorem runnable_ok {d runnable : String}
    (h : image.runnable d = .ok runnable) : validateDigest d = .ok () := by
  unfold ImageReference.runnable at h
  cases hv : validateDigest d with
  | ok u => rfl
  | error e => simp [hv, bind, Except.bind] at h

variable {bearer : Option String} {s : Selected} {resolved : ResolvedImage}

theorem descriptorPlatform_mem {descriptor : Descriptor}
    (h : descriptorPlatform descriptor = .ok p) : p ∈ canonicalPlatforms := by
  unfold descriptorPlatform at h
  split at h
  · cases h
  · exact Platform.canonical_mem h

theorem selectChild_platform {sourceDigest : String} {child : Descriptor}
    (h : (selectChild codec image authenticated bearer sourceDigest child).Ends (.ok s)) :
    s.platform ∈ canonicalPlatforms := by
  simp only [selectChild, ends_bind, ends_orElse, Prog.ends_orStop, Prog.ends_ensure,
    ends_pure, Except.ok.injEq, reduceCtorEq, and_false, exists_false, or_false] at h
  obtain ⟨_, _, _, _, _, _, _, _, _, _, _, _, p, ⟨_, hp, rfl⟩, rfl⟩ := h
  exact descriptorPlatform_mem hp

theorem selectManifest_platform {mediaType : String} {body : Bytes}
    (hp : platform ∈ canonicalPlatforms)
    (h : (selectManifest codec image authenticated bearer platform mediaType body).Ends (.ok s)) :
    s.platform ∈ canonicalPlatforms := by
  unfold selectManifest at h
  split at h
  · simp only [ends_bind, ends_orElse, ends_pure, Except.ok.injEq, reduceCtorEq,
      and_false, exists_false, or_false] at h
    obtain ⟨_, _, rfl⟩ := h
    exact hp
  split at h
  · simp only [ends_bind, ends_orElse, Except.ok.injEq, reduceCtorEq,
      and_false, exists_false, or_false] at h
    obtain ⟨index, _, h⟩ := h
    split at h
    · exact selectChild_platform codec h
    · simp at h
  · simp at h

/-- What the poller and the worker rely on: the image carries the canonical reference
and the repository of what was asked for, a valid manifest digest and a canonical
platform. -/
structure ResolvedFrom (image : ImageReference) (resolved : ResolvedImage) : Prop where
  source : resolved.sourceImageRef = image.canonicalTaggedRef
  repository : resolved.repository = image.repository
  digest : validateDigest resolved.manifestDigest = .ok ()
  platform : resolved.platform ∈ canonicalPlatforms

/-- **Whatever the registry answers, an image that is returned was resolved from the
reference asked for.** -/
theorem resolveInner_spec {etag etag' : Option String}
    (h : (resolveInner codec image platform authenticated etag).Ends
      (.ok (.modified resolved etag'))) : ResolvedFrom image resolved := by
  simp only [resolveInner, ends_bind, ends_orElse, Except.ok.injEq, reduceCtorEq,
    and_false, exists_false, or_false, Prog.ends_ite, ends_pure, Prog.ends_orStop,
    Prog.ends_ensure, false_or, PollResolve.modified.injEq] at h
  obtain ⟨p, ⟨_, hp, rfl⟩, _, _, _, _, _, _, _, _, _, _, _, selected, hsel, _, ⟨_, hrun, rfl⟩,
    rfl, _⟩ := h
  exact {
    source := rfl
    repository := rfl
    digest := runnable_ok hrun
    platform := selectManifest_platform codec (Platform.canonical_mem hp) hsel }

theorem resolve_spec (h : (resolve codec image platform authenticated).Ends (.ok resolved)) :
    ResolvedFrom image resolved := by
  simp only [resolve, ends_bind, reduceCtorEq, and_false, exists_false, or_false] at h
  obtain ⟨r, hr, h⟩ := h
  cases r with
  | notModified => simp at h
  | modified img etag =>
    obtain rfl : resolved = img := by simpa using h
    exact resolveInner_spec codec hr

end SoloDock.Registry
