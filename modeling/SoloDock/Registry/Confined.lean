import SoloDock.Registry.Exchanged
import SoloDock.Lib.Sha256

/-!
# Where credentials go, and what a resolution proves

The results about whole runs of the resolver, for every registry, token endpoint and redirect
target. The credential of a registry is sent to that registry alone, or to Docker Hub's own
token endpoint; a token stays at the registry. A resolved image rests on bytes that were
received within the limit and have the digests it names.
-/

namespace SoloDock.Registry

open Lib Lib.Prog Lib.Text Lib.World
open String (ofList)

/-! ## The registry of an accepted reference -/

theorem isAuthorityChar_of_host {c : Char}
    (h : (c.isLower || c.isDigit || c = '.' || c = '-') = true) : isAuthorityChar c = true := by
  simp only [isAuthorityChar, Bool.or_eq_true] at h ⊢
  exact .inl h

theorem validateRegistry_ok {value : List Char} (h : validateRegistry value = .ok ()) :
    value ≠ [] ∧ value.all isAuthorityChar = true := by
  unfold validateRegistry at h
  dsimp only at h
  have hne : value ≠ [] := by
    rintro rfl
    simp at h
  refine ⟨hne, List.all_eq_true.mpr fun c hc => ?_⟩
  cases hsplit : rsplitOnce ':' value with
  | none =>
    -- no port: the whole text is the host
    rw [hsplit] at h
    dsimp only at h
    split at h
    · cases h
    split at h
    · cases h
    next hparts =>
      simp only [Bool.or_eq_true, not_or, Bool.not_eq_true, Bool.not_eq_false'] at hparts
      exact isAuthorityChar_of_host (List.all_eq_true.mp hparts.1.2 c hc)
  | some parts =>
    obtain ⟨host, port⟩ := parts
    rw [hsplit] at h
    dsimp only at h
    split at h
    · cases h
    split at h
    · cases h
    next hparts =>
      simp only [Bool.or_eq_true, not_or, Bool.not_eq_true, Bool.not_eq_false', Option.any_some]
        at hparts
      rw [rsplitOnce_eq hsplit] at hc
      rcases List.mem_append.mp hc with hc | hc
      · exact isAuthorityChar_of_host (List.all_eq_true.mp hparts.1.2 c hc)
      · rcases List.mem_cons.mp hc with rfl | hc
        · decide
        · have hdigit := List.all_eq_true.mp hparts.2.2 c hc
          simp [isAuthorityChar, hdigit]

theorem Splits.transport {part logical transport repository : List Char}
    (h : Splits part logical transport repository) :
    transport ≠ [] ∧ transport.all isAuthorityChar = true := by
  cases h with
  | other _ _ valid => exact validateRegistry_ok valid
  | hub | short => decide

variable {image : ImageReference} {net : Net}

theorem parse_transport {value : String} (h : ImageReference.parse value = .ok image) :
    image.transportRegistry.toList ≠ [] ∧
      image.transportRegistry.toList.all isAuthorityChar = true := by
  obtain ⟨part, tag, logical, transport, repository, -, -, -, -, hsplit, rfl⟩ :=
    ImageReference.parse_eq_ok.mp h
  rw [ImageReference.spelled, String.toList_ofList]
  exact (splitRegistry_splits hsplit).transport

/-! ## Confinement -/

/-- The URL is at the origin of the image's registry, which is an `https` one. -/
def AtRegistry (net : Net) (image : ImageReference) (url : Url) : Prop :=
  ∃ origin, net.parse (registryRoot image) = some origin ∧ origin.scheme = "https" ∧
    sameOrigin url origin = true

/-- The URL, its query apart, is Docker Hub's token endpoint, and the image is Docker Hub's. -/
def AtDockerHub (net : Net) (image : ImageReference) (url : Url) : Prop :=
  image.logicalRegistry = "docker.io" ∧
    net.asStr { url with query := none } = dockerHubTokenEndpoint

/-- What a request may carry where. -/
structure Confined (net : Net) (image : ImageReference) (credential : Option (String × String))
    (request : HttpRequest) : Prop where
  basic : ∀ username secret, request.authorization = some (.basic username secret) →
    credential = some (username, secret) ∧ request.url.scheme = "https" ∧
    (AtRegistry net image request.url ∨ AtDockerHub net image request.url)
  bearer : ∀ token, request.authorization = some (.bearer token) →
    request.url.scheme = "https" ∧ AtRegistry net image request.url

theorem sameOrigin_trans {a b c : Url} (hab : sameOrigin a b = true)
    (hbc : sameOrigin b c = true) : sameOrigin a c = true := by
  simp only [sameOrigin, Bool.and_eq_true, decide_eq_true_eq] at hab hbc ⊢
  exact ⟨⟨hab.1.1.trans hbc.1.1, hab.1.2.trans hbc.1.2⟩, hab.2.trans hbc.2⟩

theorem AtRegistry.scheme {url : Url} (h : AtRegistry net image url) : url.scheme = "https" := by
  obtain ⟨origin, -, hscheme, hsame⟩ := h
  simp only [sameOrigin, Bool.and_eq_true, decide_eq_true_eq] at hsame
  exact hsame.1.1.trans hscheme

variable {text : String} {credential : Option (String × String)} {authority : List Char}

theorem atRegistry_of_repository {rest : String}
    (himage : ImageReference.parse text = .ok image) {url : Url}
    (hurl : net.parse (repositoryUrl image rest) = some url) : AtRegistry net image url := by
  obtain ⟨hne, hchars⟩ := parse_transport himage
  obtain ⟨-, origin, hroot, hsame⟩ := net.parse_origin _ _ url hne hchars hurl
  -- the root is a URL of the same form, with nothing after the slash
  obtain ⟨hscheme, -⟩ := net.parse_origin _ [] origin hne hchars hroot
  exact ⟨origin, hroot, hscheme, hsame⟩

/-- A request that the resolver sends goes where the reference says, with the secrets of it. -/
theorem requested_confined {request : HttpRequest} (himage : ImageReference.parse text = .ok image)
    (h : Requested net image credential request) : Confined net image credential request := by
  cases h with
  | manifest selector bearer etag url hurl =>
    have hat := atRegistry_of_repository himage hurl
    refine ⟨fun username secret hauth => ?_, fun token _ => ⟨hat.scheme, hat⟩⟩
    cases bearer <;> cases hauth
  | token challenge hscheme hquery hrealm =>
    refine ⟨fun username secret hauth => ?_, fun token hauth => ?_⟩
    · refine ⟨?_, hscheme, ?_⟩
      · cases credential with
        | none => cases hauth
        | some c =>
          obtain ⟨rfl, rfl⟩ := Authorization.basic.inj (Option.some.inj hauth)
          rfl
      · unfold validateBearerRealm at hrealm
        split at hrealm
        · cases hrealm
        next origin hroot =>
          split at hrealm
          next htrusted =>
            rcases (Bool.or_eq_true _ _).mp htrusted with hsame | hhub
            · refine .inl ⟨origin, hroot, ?_, hsame⟩
              simp only [sameOrigin, Bool.and_eq_true, decide_eq_true_eq] at hsame
              exact hsame.1.1.symm.trans hscheme
            · simp only [Bool.and_eq_true, decide_eq_true_eq] at hhub
              refine .inr ⟨hhub.1, ?_⟩
              have hrestored : { tokenUrl net image challenge with query := none }
                  = challenge.realm := by
                unfold tokenUrl
                rw [← hquery]
              rw [hrestored]
              exact hhub.2
          · cases hrealm
    · cases credential <;> cases hauth
  | blob digest initialUrl url bearer hinitial =>
    refine ⟨fun username secret hauth => ?_, fun token hauth => ?_⟩
    · dsimp only at hauth
      split at hauth
      · cases bearer <;> cases hauth
      · cases hauth
    · dsimp only at hauth ⊢
      split at hauth
      next hsame =>
        obtain ⟨origin, hroot, hscheme, hinitialSame⟩ := atRegistry_of_repository himage hinitial
        have hat : AtRegistry net image url :=
          ⟨origin, hroot, hscheme, sameOrigin_trans hsame hinitialSame⟩
        exact ⟨hat.scheme, hat⟩
      · cases hauth

/-- What the resolver is asked for. -/
inductive Operation where
  | resolve
  | resolvePoll (etag : Option String)
  | inspectConfig
  deriving DecidableEq, Repr

/-- The requests of an operation. -/
def operate (net : Net) (codec : Codec) (image : ImageReference) (platform : Platform)
    (credential : Option (String × String)) : Operation → Wire Unit
  | .resolve => do
    let _ ← resolveWire net codec image platform credential
    pure ()
  | .resolvePoll etag => do
    let _ ← resolvePollWire net codec image platform credential etag
    pure ()
  | .inspectConfig => do
    let _ ← inspectConfig net codec image platform credential
    pure ()

theorem orderly_nil (net : Net) (image : ImageReference) (credential : Option (String × String)) :
    Orderly net image credential [] where
  requested := fun _ h => absurd h List.not_mem_nil
  limit := by
    intro later chain earlier heq hlater _
    obtain ⟨hpre, -⟩ := List.append_eq_nil_iff.mp heq.symm
    exact absurd (List.append_eq_nil_iff.mp hpre).1 hlater
  total := Nat.zero_le _

/-- Every operation on an image sends its requests in order, from the first on. -/
theorem operate_runs {codec : Codec} {platform : Platform} (operation : Operation) :
    Runs net image credential (operate net codec image platform credential operation)
      (fun _ _ => True) [] := by
  have hnil := orderly_nil net image credential
  unfold operate
  cases operation with
  | resolve =>
    have hrun := resolveWire_runs codec platform hnil rfl
    exact (wp_bind _ _ _ _).mpr (wp_mono hrun fun r _ _ => by cases r <;> trivial)
  | resolvePoll etag =>
    have hrun := resolvePollWire_runs etag codec platform hnil rfl
    exact (wp_bind _ _ _ _).mpr (wp_mono hrun fun r _ _ => by cases r <;> trivial)
  | inspectConfig =>
    have hrun := inspectConfig_runs codec platform hnil rfl
    exact (wp_bind _ _ _ _).mpr (wp_mono hrun fun r _ _ => by cases r <;> trivial)

/-- After any number of requests of a resolution or an inspection, whatever the answers are:
every request keeps the credential and the token where they belong, no more than three
redirects were followed in a row, and no more than six in all. -/
theorem credentials_confined (net : Net) (codec : Codec) (text : String) (image : ImageReference)
    (himage : ImageReference.parse text = .ok image) (platform : Platform)
    (credential : Option (String × String)) (operation : Operation)
    (o : (adversary HttpRequest HttpAnswer).Script) (requests : Nat) :
    let t := (adversary HttpRequest HttpAnswer).cut o 0 requests
      (operate net codec image platform credential operation) []
    (∀ x ∈ t, Confined net image credential x.call) ∧ RedirectLimit t ∧
      followed t ≤ 2 * blobRedirectLimit := by
  intro t
  have horderly : Orderly net image credential t :=
    wp_cut (H := adversary HttpRequest HttpAnswer) o 0 requests (orderly_nil net image credential)
      (operate_runs operation) (meetsCut_true _ o 0 requests _ _)
  refine ⟨fun x hx => ?_, horderly.limit, horderly.total⟩
  exact requested_confined himage (horderly.requested x hx)

/-! A registry that redirects every download of a blob three times, and asks for a token in
between: six redirects are followed in one inspection. -/

/-- A `url` crate that knows `https` URLs with a host and a path. -/
def plainParse (text : String) : Option Url :=
  if "https://".toList.isPrefixOf text.toList then
    let rest := text.toList.drop 8
    some ⟨"https", "", none, some (ofList (rest.takeWhile (· ≠ '/'))), none,
      ofList (rest.dropWhile (· ≠ '/')), none, none⟩
  else none

theorem takeWhile_authority {rest : List Char} (h : authority.all isAuthorityChar = true) :
    (authority ++ '/' :: rest).takeWhile (· ≠ '/') = authority := by
  induction authority with
  | nil => rfl
  | cons c authority ih =>
    simp only [List.all_cons, Bool.and_eq_true] at h
    have hc : c ≠ '/' := by
      rintro rfl
      exact absurd h.1 (by decide)
    rw [List.cons_append, List.takeWhile_cons, if_pos (by simpa using hc), ih h.2]

theorem plainParse_authority (rest : List Char) (h : authority.all isAuthorityChar = true) :
    ∃ path, plainParse (ofList ("https://".toList ++ authority ++ '/' :: rest)) =
      some ⟨"https", "", none, some (ofList authority), none, path, none, none⟩ := by
  have htext : (ofList ("https://".toList ++ authority ++ '/' :: rest)).toList
      = "https://".toList ++ (authority ++ '/' :: rest) := by
    rw [List.append_assoc]
    exact String.toList_ofList
  have hprefix : "https://".toList.isPrefixOf ("https://".toList ++ (authority ++ '/' :: rest))
      = true := List.isPrefixOf_iff_prefix.mpr (List.prefix_append _ _)
  have hdrop : ("https://".toList ++ (authority ++ '/' :: rest)).drop 8
      = authority ++ '/' :: rest := rfl
  unfold plainParse
  rw [htext, if_pos hprefix, hdrop]
  dsimp only
  rw [takeWhile_authority h]
  exact ⟨_, rfl⟩

/-- A character of a form: percent-encoded unless it is a letter, a digit or one of four others. -/
def formChar (c : Char) : List Char :=
  if c.isAlphanum || "*-._".toList.contains c then [c]
  else if c = ' ' then ['+']
  else '%' :: (hex [c.toNat.toUInt8]).map Char.toUpper

def asciiBytes (value : String) : Bytes := value.toList.map fun c => c.toNat.toUInt8

/-- The body of a token response. -/
def tokenBody : Bytes := asciiBytes "\x7b\"token\":\"t0\"\x7d"

/-- With it, a redirect names a URL or a path, and one token response is known. -/
def plainNet : Net where
  parse := plainParse
  join url location := (plainParse location).or (some { url with path := location })
  asStr url := "https://" ++ url.host.getD "" ++ url.path
  encodePairs pairs := "&".intercalate (pairs.map fun (name, value) =>
    ofList (name.toList.flatMap formChar ++ '=' :: value.toList.flatMap formChar))
  tokenOfJson body := if body = tokenBody then some (some "t0", none) else none
  parse_origin := by
    intro authority rest url _ hchars hurl
    obtain ⟨path, hpath⟩ := plainParse_authority rest hchars
    obtain ⟨root, hroot⟩ := plainParse_authority [] hchars
    obtain rfl := Option.some.inj (hpath.symm.trans hurl)
    exact ⟨rfl, _, hroot, by simp [sameOrigin, Url.portOrKnownDefault]⟩

/-- The configuration, which is empty, by its digest. -/
def configDigest : String :=
  "sha256:44136fa355b3678a1146ad16f7e8649e94fb4fc21fe77e8310c060f61caaff8a"

/-- The manifest with this configuration. -/
def manifestBody : Bytes :=
  ["\x7b\"schemaVersion\":2,\"config\":\x7b\"mediaType\":\"", ociConfig, "\",\"digest\":\"",
    configDigest, "\"\x7d\x7d"].flatMap asciiBytes

def manifestDigest : String :=
  "sha256:e978ccaa7e29eace1904aaaab87091a6cd924639773118b0048cf6f78a843660"

/-- An entry of an index for the platform. -/
def entryText (mediaType digest : String) : List String :=
  ["\x7b\"mediaType\":\"", mediaType, "\",\"digest\":\"", digest,
    "\",\"platform\":\x7b\"architecture\":\"amd64\",\"os\":\"linux\"\x7d\x7d"]

/-- An index with two entries for the platform, one of which is no image manifest. -/
def indexBody : Bytes :=
  (["\x7b\"schemaVersion\":2,\"manifests\":["] ++ entryText ociManifest manifestDigest ++ [","] ++
    entryText ociIndex configDigest ++ ["]\x7d"]).flatMap asciiBytes

/-- SHA-256, and a decoder of these two texts. -/
def plainCodec : Codec where
  sha256 := Sha256.sha256
  sha256_length := Sha256.length_sha256
  manifestOfJson body := if body = manifestBody then
    some ⟨2, none, ⟨ociConfig, configDigest, none⟩⟩ else none
  indexOfJson body := if body = indexBody then
    some ⟨2, none, [⟨ociManifest, manifestDigest, some ⟨"amd64", "linux", none⟩⟩,
      ⟨ociIndex, configDigest, some ⟨"amd64", "linux", none⟩⟩]⟩ else none

/-- A response with one header. -/
def respond (status : Nat) (name value : String) (body : Bytes) :
    Except RegistryError HttpResponse :=
  .ok ⟨status, [(name, asciiBytes value)], none, [.ok body]⟩

/-- Docker Hub asks for a token twice, for the manifest and for the configuration, which another
host has after three redirects. -/
def redirectingRegistry : (adversary HttpRequest HttpAnswer).Script := fun n _ =>
  match n with
  | 0 | 6 => respond 401 "www-authenticate"
      "Bearer realm=\"https://auth.docker.io/token\",service=\"registry.docker.io\"" []
  | 1 | 7 => respond 200 "content-type" "application/json" tokenBody
  | 2 => respond 200 "content-type" ociManifest manifestBody
  | 11 => respond 200 "content-type" "application/octet-stream" (asciiBytes "\x7b\x7d")
  | _ => respond 307 "location" "https://cdn.example/config" []

def hubImage : ImageReference :=
  ⟨"docker.io", "registry-1.docker.io", "team/app", "1", "docker.io/team/app:1",
    "https://index.docker.io/v1/"⟩

def amd64 : Platform := ⟨"linux", "amd64", none⟩

/-- The exchanges of an inspection with a credential. -/
def inspected : List (Exchange HttpRequest HttpAnswer) :=
  (adversary HttpRequest HttpAnswer).cut redirectingRegistry 0 12
    (operate plainNet plainCodec hubImage amd64 (some ("user", "secret")) .inspectConfig) []

theorem hubImage_parse : ImageReference.parse "team/app:1" = .ok hubImage := by
  rfl

/-- The hosts of these requests and what they carry, in order. -/
def inspectedHosts : List (Option String × Option Authorization) :=
  [(some "registry-1.docker.io", none), (some "auth.docker.io", some (.basic "user" "secret")),
    (some "registry-1.docker.io", some (.bearer "t0")), (some "registry-1.docker.io", none),
    (some "cdn.example", none), (some "cdn.example", none), (some "cdn.example", none),
    (some "auth.docker.io", some (.basic "user" "secret")),
    (some "registry-1.docker.io", some (.bearer "t0")), (some "cdn.example", none),
    (some "cdn.example", none), (some "cdn.example", none)]

theorem inspected_run :
    (inspected.reverse.map fun x => (x.call.url.host, x.call.authorization)) = inspectedHosts ∧
      followed inspected = 6 := by
  decide +kernel

theorem six_redirects_followed :
    ImageReference.parse "team/app:1" = .ok hubImage ∧ blobRedirectLimit < followed inspected :=
  ⟨hubImage_parse, inspected_run.2 ▸ by decide⟩

/-- The credential goes to the token endpoint, the token to the registry, and neither to the host
that the redirects name. -/
theorem inspection_confined :
    (∀ x ∈ inspected, Confined plainNet hubImage (some ("user", "secret")) x.call) ∧
      (inspected.reverse.map fun x => (x.call.url.host, x.call.authorization)) = inspectedHosts :=
  ⟨(credentials_confined plainNet plainCodec "team/app:1" hubImage hubImage_parse amd64
    (some ("user", "secret")) .inspectConfig redirectingRegistry 12).1, inspected_run.1⟩

/-! ## Integrity -/

/-- Whatever the answers are, an image that is returned rests on bodies that were received. The
answer to its tag, by its media type, is the manifest, or an index of whose image manifests exactly
one is for the requested platform; then the manifest is the answer to that entry's digest. The
digests are those of the bodies, the configuration is the one in the manifest, and neither response
declared another digest, in its first header of that name and visibly, than its body's. -/
theorem resolved_image_believed (net : Net) (codec : Codec) (image : ImageReference)
    (platform : Platform) (credential : Option (String × String)) (etag : Option String)
    (o : (adversary HttpRequest HttpAnswer).Script) :
    let polled := (adversary HttpRequest HttpAnswer).exec o 0
      (resolvePollWire net codec image platform credential etag) []
    let resolved := (adversary HttpRequest HttpAnswer).exec o 0
      (resolveWire net codec image platform credential) []
    (∀ result etag', polled.1 = .ok (.modified result etag') →
      Resolved net codec image polled.2 platform result) ∧
    (∀ result, resolved.1 = .ok result → Resolved net codec image resolved.2 platform result) := by
  intro polled resolved
  have hnil := orderly_nil net image credential
  have hpolled := wp_exec (H := adversary HttpRequest HttpAnswer) o 0
    (resolvePollWire_runs etag codec platform hnil rfl)
    (meets_true _ o 0 _ _)
  have hresolved := wp_exec (H := adversary HttpRequest HttpAnswer) o 0
    (resolveWire_runs codec platform hnil rfl) (meets_true _ o 0 _ _)
  exact ⟨fun result etag' h => (hpolled.2 result etag' h).2,
    fun result h => (hresolved.2 result h).2⟩

/-- The index, and the manifest that its entry names. -/
def indexingRegistry : (adversary HttpRequest HttpAnswer).Script := fun n _ =>
  match n with
  | 0 => respond 200 "content-type" ociIndex indexBody
  | _ => respond 200 "content-type" ociManifest manifestBody

/-- A manifest whose digest is declared twice, the second time wrongly. -/
def disputedManifest : HttpResponse :=
  ⟨200, [("content-type", asciiBytes ociManifest),
    ("docker-content-digest", asciiBytes manifestDigest),
    ("docker-content-digest", asciiBytes configDigest)], none, [.ok manifestBody]⟩

/-- The resolution of an image by such a registry. -/
def resolvedBy (o : (adversary HttpRequest HttpAnswer).Script) :
    Except RegistryError ResolvedImage × List (Exchange HttpRequest HttpAnswer) :=
  (adversary HttpRequest HttpAnswer).exec o 0
    (resolveWire plainNet plainCodec hubImage amd64 none) []

/-- The image of the index. -/
def indexedImage : ResolvedImage where
  sourceImageRef := "docker.io/team/app:1"
  logicalRegistry := "docker.io"
  repository := "team/app"
  sourceTag := "1"
  sourceDescriptorDigest := digest plainCodec indexBody
  indexDigest := some (digest plainCodec indexBody)
  manifestDigest := manifestDigest
  runnableImageRef := "docker.io/team/app@" ++ manifestDigest
  platform := amd64
  localImageId := configDigest

theorem resolvedBy_indexing : (resolvedBy indexingRegistry).1 = .ok indexedImage :=
  ok_of_toOption (by decide +kernel)

theorem indexed_image_believed :
    (resolvedBy indexingRegistry).1 = .ok indexedImage ∧
      Resolved plainNet plainCodec hubImage (resolvedBy indexingRegistry).2 amd64 indexedImage :=
  ⟨resolvedBy_indexing, (resolved_image_believed plainNet plainCodec hubImage amd64 none none
    indexingRegistry).2 indexedImage resolvedBy_indexing⟩

/-- The entries of an index for one platform, whatever they are. -/
def entriesFor (index : Index) (platform : Platform) : List Descriptor :=
  index.manifests.filter fun d => (descriptorPlatform d).toOption = some platform

/-- An index with two entries for the platform is resolved, and so is a manifest whose second
declared digest is not that of its body. -/
theorem second_entry_and_digest_ignored :
    ((resolvedBy indexingRegistry).1 = .ok indexedImage ∧
      (parseIndex plainCodec indexBody ociIndex).toOption.map
        (fun index => (entriesFor index amd64).length) = some 2) ∧
    (resolvedBy fun _ _ => .ok disputedManifest).1.toOption.isSome = true ∧
      ("docker-content-digest", asciiBytes configDigest) ∈ disputedManifest.headers ∧
      digest plainCodec manifestBody ≠ configDigest := by
  refine ⟨⟨resolvedBy_indexing, ?_⟩, ?_, ?_, ?_⟩
  · decide +kernel
  · decide +kernel
  · simp [disputedManifest]
  · decide +kernel

end SoloDock.Registry
