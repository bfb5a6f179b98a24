import SoloDock.Registry.Wire

/-!
# What the resolver sends, and what it believes

The registry, the token endpoint and whatever a redirect names may answer as they like. A run
of the resolver against them is a list of exchanges, and everything here is about that list.

`Orderly` holds after every request: each of them is one of three kinds (`Requested`), at
most three redirects are followed in a row, and at most six in all. From the kinds follows
where a credential or a token can go (`requested_confined`). `Believed` says on which of the
answers a resolved image rests.
-/

namespace SoloDock.Registry

open Lib Lib.Prog Lib.World

/-! ## Exchanges -/

/-- The response is a redirect that a blob request would follow. -/
def redirected (x : Exchange HttpRequest HttpAnswer) : Bool :=
  match x.answer with
  | .ok response => isFollowableRedirect response.status
  | .error _ => false

theorem redirected_ok (request : HttpRequest) (response : HttpResponse) :
    redirected ⟨request, .ok response⟩ = isFollowableRedirect response.status := rfl

/-- The redirects directly before the next request. -/
def inARow (t : List (Exchange HttpRequest HttpAnswer)) : Nat :=
  (t.takeWhile redirected).length

/-- The redirects that were followed: all but one that nothing was requested after. -/
def followed (t : List (Exchange HttpRequest HttpAnswer)) : Nat :=
  t.tail.countP redirected

/-- No more than three redirects were followed one after the other. -/
def RedirectLimit (t : List (Exchange HttpRequest HttpAnswer)) : Prop :=
  ∀ later chain earlier, t = later ++ chain ++ earlier → later ≠ [] →
    (∀ x ∈ chain, redirected x = true) → chain.length ≤ blobRedirectLimit

/-- The requests of the resolver: a manifest, a token from an endpoint that was checked, and
a blob, whose token stays at the origin it started from. -/
inductive Requested (net : Net) (image : ImageReference) (credential : Option (String × String)) :
    HttpRequest → Prop where
  | manifest (selector : String) (bearer etag : Option String) (url : Url)
      (hurl : net.parse (repositoryUrl image ("manifests/" ++ selector)) = some url) :
      Requested net image credential
        ⟨url, some acceptManifests, bearer.map .bearer, etag⟩
  | token (challenge : BearerChallenge) (hscheme : challenge.realm.scheme = "https")
      (hquery : challenge.realm.query = none)
      (hrealm : validateBearerRealm net image challenge.realm = .ok ()) :
      Requested net image credential
        ⟨tokenUrl net image challenge, none, credential.map fun c => .basic c.1 c.2, none⟩
  | blob (digest : String) (initialUrl url : Url) (bearer : Option String)
      (hinitial : net.parse (repositoryUrl image ("blobs/" ++ digest)) = some initialUrl) :
      Requested net image credential
        ⟨url, none, if sameOrigin url initialUrl then bearer.map .bearer else none, none⟩

structure Orderly (net : Net) (image : ImageReference) (credential : Option (String × String))
    (t : List (Exchange HttpRequest HttpAnswer)) : Prop where
  requested : ∀ x ∈ t, Requested net image credential x.call
  limit : RedirectLimit t
  total : followed t ≤ 2 * blobRedirectLimit

theorem inARow_cons (x : Exchange HttpRequest HttpAnswer)
    (t : List (Exchange HttpRequest HttpAnswer)) :
    inARow (x :: t) = if redirected x then inARow t + 1 else 0 := by
  unfold inARow
  rw [List.takeWhile_cons]
  cases redirected x <;> rfl

theorem length_le_inARow {chain earlier : List (Exchange HttpRequest HttpAnswer)}
    (h : ∀ x ∈ chain, redirected x = true) : chain.length ≤ inARow (chain ++ earlier) := by
  induction chain with
  | nil => exact Nat.zero_le _
  | cons x chain ih =>
    rw [List.cons_append, inARow_cons, if_pos (h x List.mem_cons_self), List.length_cons]
    exact Nat.succ_le_succ (ih fun y hy => h y (List.mem_cons_of_mem _ hy))

theorem inARow_le_countP (t : List (Exchange HttpRequest HttpAnswer)) :
    inARow t ≤ t.countP redirected := by
  induction t with
  | nil => exact Nat.le_refl _
  | cons x t ih =>
    rw [inARow_cons, List.countP_cons]
    split
    · omega
    · exact Nat.zero_le _

section Requests

variable {net : Net} {image : ImageReference} {credential : Option (String × String)}
  {t : List (Exchange HttpRequest HttpAnswer)}

theorem Orderly.cons (h : Orderly net image credential t) {x : Exchange HttpRequest HttpAnswer}
    (hx : Requested net image credential x.call) (hrow : inARow t ≤ blobRedirectLimit)
    (htotal : t.countP redirected ≤ 2 * blobRedirectLimit) :
    Orderly net image credential (x :: t) := by
  refine ⟨?_, ?_, htotal⟩
  · intro y hy
    rcases List.mem_cons.mp hy with rfl | hy
    · exact hx
    · exact h.requested y hy
  · intro later chain earlier heq hlater hchain
    cases later with
    | nil => exact absurd rfl hlater
    | cons y later =>
      have htail : t = later ++ chain ++ earlier := (List.cons.inj heq).2
      cases later with
      | nil =>
        rw [List.nil_append] at htail
        exact Nat.le_trans (length_le_inARow hchain) (htail ▸ hrow)
      | cons z later => exact h.limit _ chain earlier htail nofun hchain

/-- The postcondition `Q` holds after every run of `p` from `t`, and every request was
orderly. -/
abbrev Runs {α : Type} (net : Net) (image : ImageReference)
    (credential : Option (String × String)) (p : Wire α)
    (Q : Except RegistryError α → List (Exchange HttpRequest HttpAnswer) → Prop)
    (t : List (Exchange HttpRequest HttpAnswer)) : Prop :=
  (adversary HttpRequest HttpAnswer).wp (fun _ _ _ => True) (Orderly net image credential) p Q t

theorem send_runs {request : HttpRequest}
    {Q : Except RegistryError HttpResponse → List (Exchange HttpRequest HttpAnswer) → Prop}
    (h : Orderly net image credential t) (hrequest : Requested net image credential request)
    (hrow : inARow t ≤ blobRedirectLimit) (htotal : t.countP redirected ≤ 2 * blobRedirectLimit)
    (hQ : ∀ answer, Orderly net image credential (⟨request, answer⟩ :: t) →
      Q answer (⟨request, answer⟩ :: t)) : Runs net image credential (send request) Q t := by
  refine wp_call fun answer _ => ?_
  have hnext : Orderly net image credential (⟨request, answer⟩ :: t) := h.cons hrequest hrow htotal
  exact ⟨hnext, (wp_accept _ _ _).mpr (hQ answer hnext)⟩

theorem error_ne_ok {err : ε} {a : α} {P : Prop}
    (h : (Except.error err : Except ε α) = .ok a) : P := by
  cases h

/-- The response answered a request for the image's manifest under the selector. -/
def Received (net : Net) (image : ImageReference) (t : List (Exchange HttpRequest HttpAnswer))
    (selector : String) (response : HttpResponse) : Prop :=
  ∃ (url : Url) (bearer etag : Option String),
    net.parse (repositoryUrl image ("manifests/" ++ selector)) = some url ∧
      ⟨⟨url, some acceptManifests, bearer.map .bearer, etag⟩, .ok response⟩ ∈ t

variable {bearer etag : Option String}

theorem fetchManifest_runs {selector : String}
    (h : Orderly net image credential t) (hnone : t.countP redirected = 0) :
    Runs net image credential (fetchManifest net image selector bearer etag) (fun r t' =>
      Orderly net image credential t' ∧ t <:+ t' ∧ ∀ response, r = .ok response →
        Received net image t' selector response ∧
        (isFollowableRedirect response.status = false → t'.countP redirected = 0)) t := by
  refine wp_orStop_bind (fun url hurl => ?_) fun _ => ⟨h, List.suffix_refl t, fun _ => error_ne_ok⟩
  refine wp_ensure_bind (fun _ => ?_) fun _ => ⟨h, List.suffix_refl t, fun _ => error_ne_ok⟩
  have hrow : inARow t ≤ blobRedirectLimit := by
    have := inARow_le_countP t
    omega
  refine send_runs h (.manifest selector bearer etag url hurl) hrow (by omega)
    fun answer hnext => ?_
  refine ⟨hnext, List.suffix_cons _ _, fun response hr => ?_⟩
  subst hr
  refine ⟨⟨url, bearer, etag, hurl, List.mem_cons_self⟩, fun hstays => ?_⟩
  rw [List.countP_cons, hnone, Nat.zero_add]
  exact if_neg (by simpa [redirected] using hstays)

theorem classifyStatus_ok {status : Nat} {authenticated : Bool}
    (h : classifyStatus status authenticated = .ok ()) : isFollowableRedirect status = false := by
  cases hredirect : isFollowableRedirect status with
  | false => rfl
  | true =>
    have hstatus : status = 302 ∨ status = 307 := by simpa [isFollowableRedirect] using hredirect
    rcases hstatus with rfl | rfl <;> cases h

theorem parseBearer_ok {value : Option String} {challenge : BearerChallenge}
    (h : parseBearer net value = .ok challenge) :
    challenge.realm.scheme = "https" ∧ challenge.realm.query = none := by
  unfold parseBearer at h
  simp only [Bind.bind, Except.bind, throw, throwThe, MonadExceptOf.throw, pure, Except.pure] at h
  split at h
  · cases h
  split at h
  · cases h
  split at h
  · cases h
  split at h
  · cases h
  split at h
  · cases h
  next realm _ =>
    split at h
    · cases h
    next hrealm =>
      cases h
      simp only [not_or, Decidable.not_not, Bool.not_eq_true, Option.isSome_eq_false_iff,
        Option.isNone_iff_eq_none] at hrealm
      exact ⟨hrealm.1, hrealm.2.2.2.1⟩

variable {challenge : Option String}

theorem requestToken_runs (h : Orderly net image credential t)
    (hrow : inARow t ≤ blobRedirectLimit) (htotal : t.countP redirected ≤ 2 * blobRedirectLimit) :
    Runs net image credential (requestToken net image credential challenge) (fun r t' =>
      Orderly net image credential t' ∧ t <:+ t' ∧ ∀ token, r = .ok token →
        inARow t' = 0 ∧ t'.countP redirected = t.countP redirected) t := by
  refine wp_accept_bind (fun challenge hparse => ?_) fun _ _ =>
    ⟨h, List.suffix_refl t, fun _ => error_ne_ok⟩
  refine wp_accept_bind (fun _ hrealm => ?_) fun _ _ =>
    ⟨h, List.suffix_refl t, fun _ => error_ne_ok⟩
  obtain ⟨hscheme, hquery⟩ := parseBearer_ok hparse
  rw [wp_bind]
  refine send_runs h (.token challenge hscheme hquery hrealm) hrow htotal fun answer hnext => ?_
  have hkeep := List.suffix_cons (⟨_, answer⟩ : Exchange HttpRequest HttpAnswer) t
  cases answer with
  | error err => exact ⟨hnext, hkeep, fun _ => error_ne_ok⟩
  | ok response =>
    refine wp_accept_bind (fun _ hstatus => ?_) fun _ _ => ⟨hnext, hkeep, fun _ => error_ne_ok⟩
    refine wp_accept_bind (fun body _ => ?_) fun _ _ => ⟨hnext, hkeep, fun _ => error_ne_ok⟩
    refine wp_orStop_bind (fun token _ => ?_) fun _ => ⟨hnext, hkeep, fun _ => error_ne_ok⟩
    have hstays : isFollowableRedirect response.status = false := classifyStatus_ok hstatus
    refine (wp_orStop _ _ _ _).mpr ⟨fun token' _ => ⟨hnext, hkeep, fun _ _ => ?_⟩,
      fun _ => ⟨hnext, hkeep, fun _ => error_ne_ok⟩⟩
    rw [inARow_cons, List.countP_cons, redirected_ok, hstays]
    exact ⟨rfl, rfl⟩

variable {bearer : Option String}

theorem followBlob_runs {digest : String} {initialUrl : Url}
    (hinitial : net.parse (repositoryUrl image ("blobs/" ++ digest)) = some initialUrl)
    (left : Nat) (url : Url)
    (h : Orderly net image credential t) (hrow : inARow t + left ≤ blobRedirectLimit)
    (htotal : t.countP redirected + left ≤ 2 * blobRedirectLimit) :
    Runs net image credential (followBlob net initialUrl bearer left url) (fun r t' =>
      Orderly net image credential t' ∧ ∀ response, r = .ok response →
        inARow t' = 0 ∧ t'.countP redirected ≤ t.countP redirected + left) t := by
  induction left generalizing url t with
  | zero =>
    refine (wp_bind _ _ _ _).mpr ?_
    refine send_runs h (.blob digest initialUrl url bearer hinitial) hrow htotal
      fun answer hnext => ?_
    cases answer with
    | error err => exact ⟨hnext, fun _ => error_ne_ok⟩
    | ok response =>
      rw [after_ok, wp_ite]
      refine ⟨fun _ => ⟨hnext, fun _ => error_ne_ok⟩, fun hstays => ⟨hnext, fun _ _ => ?_⟩⟩
      rw [inARow_cons, List.countP_cons, redirected_ok, Bool.eq_false_iff.mpr hstays]
      exact ⟨rfl, Nat.le_refl _⟩
  | succ left ih =>
    refine (wp_bind _ _ _ _).mpr ?_
    refine send_runs h (.blob digest initialUrl url bearer hinitial) (by omega) (by omega)
      fun answer hnext => ?_
    cases answer with
    | error err => exact ⟨hnext, fun _ => error_ne_ok⟩
    | ok response =>
      rw [after_ok, wp_ite]
      refine ⟨fun hredirect => ?_, fun hstays => ⟨hnext, fun _ _ => ?_⟩⟩
      · -- one redirect more in the row, one less to follow
        refine wp_accept_bind (fun target _ => ?_) fun _ _ => ⟨hnext, fun _ => error_ne_ok⟩
        have hcount : ∀ request, List.countP redirected (⟨request, .ok response⟩ :: t)
            = t.countP redirected + 1 := by
          intro request
          rw [List.countP_cons, redirected_ok, hredirect]
          rfl
        have hrow' : ∀ request, inARow (⟨request, .ok response⟩ :: t) = inARow t + 1 := by
          intro request
          rw [inARow_cons, redirected_ok, hredirect]
          rfl
        refine wp_mono (ih target hnext ?_ ?_) fun r t' hr => ⟨hr.1, fun resp hresp => ?_⟩
        · rw [hrow']
          omega
        · rw [hcount]
          omega
        · obtain ⟨hzero, hle⟩ := hr.2 resp hresp
          rw [hcount] at hle
          exact ⟨hzero, by omega⟩
      · rw [inARow_cons, List.countP_cons, redirected_ok, Bool.eq_false_iff.mpr hstays]
        exact ⟨rfl, Nat.le_add_right _ _⟩

theorem fetchBlob_runs {digest : String} (h : Orderly net image credential t) (hrow : inARow t = 0)
    (htotal : t.countP redirected ≤ blobRedirectLimit) :
    Runs net image credential (fetchBlob net image digest bearer) (fun r t' =>
      Orderly net image credential t' ∧ ∀ response, r = .ok response →
        inARow t' = 0 ∧ t'.countP redirected ≤ t.countP redirected + blobRedirectLimit) t := by
  refine wp_orStop_bind (fun url hurl => ?_) fun _ => ⟨h, fun _ => error_ne_ok⟩
  refine wp_ensure_bind (fun _ => ?_) fun _ => ⟨h, fun _ => error_ne_ok⟩
  exact followBlob_runs hurl blobRedirectLimit url h (by omega) (by omega)

section

variable (h : Orderly net image credential t) (hnone : t.countP redirected = 0)

include h hnone

theorem fetchBlobAuthenticated_runs {digest : String} :
    Runs net image credential (fetchBlobAuthenticated net image digest credential)
      (fun _ t' => Orderly net image credential t') t := by
  have hrow : inARow t = 0 := Nat.le_zero.mp (hnone ▸ inARow_le_countP t)
  refine wp_part (fetchBlob_runs h hrow (by omega)) (fun first t1 h1 => ?_) fun _ _ h1 => h1.1
  obtain ⟨horderly1, hfirst⟩ := h1
  obtain ⟨hrow1, htotal1⟩ := hfirst first rfl
  rw [wp_ite]
  refine ⟨fun _ => ?_, fun _ => horderly1⟩
  refine wp_orStop_bind (fun challenge _ => ?_) fun _ => horderly1
  refine wp_part (requestToken_runs horderly1 (by omega) (by omega)) (fun token t2 h2 => ?_)
    fun _ _ h2 => h2.1
  obtain ⟨horderly2, -, hsecond⟩ := h2
  obtain ⟨hrow2, htotal2⟩ := hsecond token rfl
  exact wp_mono (fetchBlob_runs horderly2 hrow2 (by omega)) fun _ _ h3 => h3.1

/-! ## The resolver -/

theorem fetch_runs {selector : String} :
    Runs net image credential (handle (serve net credential) (fetch image selector bearer etag))
      (fun r t' => Orderly net image credential t' ∧ t <:+ t' ∧ ∀ response, r = .ok response →
        ∃ http, Received net image t' selector http ∧ response = http.manifest ∧
          (isFollowableRedirect http.status = false → t'.countP redirected = 0)) t := by
  refine wp_part (P := fun r t' => Orderly net image credential t' ∧ t <:+ t' ∧
    ∀ response, r = .ok (.ok response) → ∃ http, Received net image t' selector http ∧
      response = http.manifest ∧
      (isFollowableRedirect http.status = false → t'.countP redirected = 0)) ?_ ?_ ?_
  · refine wp_attempt_bind (fetchManifest_runs h hnone) fun r t' hr => ⟨hr.1, hr.2.1, ?_⟩
    intro response heq
    cases r with
    | error err => cases heq
    | ok http =>
      obtain rfl : http.manifest = response := Except.ok.inj (Except.ok.inj heq)
      obtain ⟨hreceived, hstays⟩ := hr.2.2 http rfl
      exact ⟨http, hreceived, rfl, hstays⟩
  · intro (r : Except RegistryError Response) t' hr
    cases r with
    | error err => exact ⟨hr.1, hr.2.1, fun _ => error_ne_ok⟩
    | ok response =>
      refine ⟨hr.1, hr.2.1, ?_⟩
      rintro _ ⟨rfl⟩
      exact hr.2.2 response rfl
  · exact fun err t' hr => ⟨hr.1, hr.2.1, fun _ => error_ne_ok⟩

theorem fetchToken_runs :
    Runs net image credential (handle (serve net credential) (fetchToken image challenge))
      (fun r t' => Orderly net image credential t' ∧ t <:+ t' ∧ ∀ token, r = .ok token →
        t'.countP redirected = 0) t := by
  have hrow : inARow t ≤ blobRedirectLimit := by
    have := inARow_le_countP t
    omega
  refine wp_attempt_bind (requestToken_runs h hrow (by omega)) fun r t' hr => ?_
  cases r with
  | error err => exact ⟨hr.1, hr.2.1, fun _ => error_ne_ok⟩
  | ok token =>
    refine ⟨hr.1, hr.2.1, fun _ _ => ?_⟩
    rw [(hr.2.2 token rfl).2]
    exact hnone

theorem fetchTag_runs {etag : Option String} :
    Runs net image credential (handle (serve net credential) (fetchTag image etag))
      (fun r t' => Orderly net image credential t' ∧ t <:+ t' ∧ ∀ answer, r = .ok answer →
        ∃ http, Received net image t' image.tag http ∧ answer.1 = http.manifest ∧
          (isFollowableRedirect http.status = false → t'.countP redirected = 0)) t := by
  unfold fetchTag
  rw [handle_bind]
  refine wp_part (fetch_runs h hnone) (fun first t1 h1 => ?_) fun _ _ h1 =>
    ⟨h1.1, h1.2.1, fun _ => error_ne_ok⟩
  obtain ⟨horderly1, hkeep1, hfirst⟩ := h1
  obtain ⟨http, hreceived, rfl, hstays⟩ := hfirst first rfl
  rw [handle_ite, wp_ite]
  refine ⟨fun h401 => ?_, fun _ => ⟨horderly1, hkeep1, ?_⟩⟩
  · simp only [handle_bind, handle_orStop, handle_ensure]
    have hnone1 : t1.countP redirected = 0 := by
      refine hstays ?_
      have h401 : http.status = 401 := h401
      rw [h401]
      rfl
    refine wp_orStop_bind (fun challenge _ => ?_) fun _ => ⟨horderly1, hkeep1, fun _ => error_ne_ok⟩
    refine wp_ensure_bind (fun _ => ?_) fun _ => ⟨horderly1, hkeep1, fun _ => error_ne_ok⟩
    refine wp_part (fetchToken_runs horderly1 hnone1) (fun token t2 h2 => ?_)
      fun _ _ h2 => ⟨h2.1, hkeep1.trans h2.2.1, fun _ => error_ne_ok⟩
    obtain ⟨horderly2, hkeep2, htoken⟩ := h2
    refine wp_part (fetch_runs horderly2 (htoken token rfl)) (fun second t3 h3 => ?_)
      fun _ _ h3 => ⟨h3.1, (hkeep1.trans hkeep2).trans h3.2.1, fun _ => error_ne_ok⟩
    obtain ⟨horderly3, hkeep3, hsecond⟩ := h3
    refine ⟨horderly3, (hkeep1.trans hkeep2).trans hkeep3, ?_⟩
    rintro answer ⟨rfl⟩
    exact hsecond second rfl
  · rintro answer ⟨rfl⟩
    exact ⟨http, hreceived, rfl, hstays⟩

end

/-! ## What a resolved image rests on -/

/-- The response declares no digest, or the digest of its body. -/
def Undisputed (codec : Codec) (response : HttpResponse) (body : Bytes) : Prop :=
  ∀ declared, (response.header "docker-content-digest").bind headerToStr = some declared →
    declared = digest codec body

/-- The media type of a response. -/
def mediaType (response : HttpResponse) : Option String :=
  mediaTypeOf ((response.header "content-type").bind headerToStr)

/-- A body that was received under the selector, within the limit, with this digest. -/
structure Fetched (net : Net) (codec : Codec) (image : ImageReference)
    (t : List (Exchange HttpRequest HttpAnswer)) (selector : String) (response : HttpResponse)
    (body : Bytes) (expected : String) : Prop where
  received : Received net image t selector response
  success : 200 ≤ response.status ∧ response.status < 300
  read : readLimited response manifestLimit = .ok body
  bounded : body.length ≤ manifestLimit
  digest : digest codec body = expected
  undisputed : Undisputed codec response body

/-- The body is a manifest, by the response's media type, with this configuration. -/
def Configures (codec : Codec) (response : HttpResponse) (body : Bytes) (localImageId : String) :
    Prop :=
  ∃ media manifest, mediaType response = some media ∧
    parseManifest codec body media = .ok manifest ∧ manifest.config.digest = localImageId

/-- The body is an index, by the response's media type. -/
def Lists (codec : Codec) (response : HttpResponse) (body : Bytes) (index : Index) : Prop :=
  ∃ media, mediaType response = some media ∧ parseIndex codec body media = .ok index

/-- What the resolver has seen of an image that it returns. The answer to the tag has the source
digest. It is the manifest; or it is an index, exactly one of its image manifests is for the
platform, and the manifest is the answer to that entry's digest. -/
inductive Believed (net : Net) (codec : Codec) (image : ImageReference)
    (t : List (Exchange HttpRequest HttpAnswer)) (platform : Platform) (sourceDigest : String) :
    Selected → Prop where
  | manifest {response : HttpResponse} {body : Bytes} {localImageId : String}
      (tag : Fetched net codec image t image.tag response body sourceDigest)
      (config : Configures codec response body localImageId) :
      Believed net codec image t platform sourceDigest ⟨none, sourceDigest, localImageId, platform⟩
  | index {response childResponse : HttpResponse} {body childBody : Bytes} {index : Index}
      {child : Descriptor} {localImageId : String}
      (tag : Fetched net codec image t image.tag response body sourceDigest)
      (lists : Lists codec response body index)
      (only : matchingManifests index platform = [child])
      (fetched : Fetched net codec image t child.digest childResponse childBody child.digest)
      (config : Configures codec childResponse childBody localImageId) :
      Believed net codec image t platform sourceDigest
        ⟨some sourceDigest, child.digest, localImageId, platform⟩

/-- What was selected for an image that was resolved. -/
def ResolvedImage.selected (resolved : ResolvedImage) : Selected :=
  ⟨resolved.indexDigest, resolved.manifestDigest, resolved.localImageId, resolved.platform⟩

/-- The image that was resolved is believed, for the platform requested in its canonical form. -/
def Resolved (net : Net) (codec : Codec) (image : ImageReference)
    (t : List (Exchange HttpRequest HttpAnswer)) (requested : Platform)
    (resolved : ResolvedImage) : Prop :=
  ∃ platform, Platform.canonical requested.os requested.architecture requested.variant
      = .ok platform ∧
    Believed net codec image t platform resolved.sourceDescriptorDigest resolved.selected

variable {response : HttpResponse} {selector : String}

theorem Received.mono {t t' : List (Exchange HttpRequest HttpAnswer)}
    (h : Received net image t selector response) (hkeep : t <:+ t') :
    Received net image t' selector response := by
  obtain ⟨url, bearer, etag, hurl, hmem⟩ := h
  exact ⟨url, bearer, etag, hurl, hkeep.subset hmem⟩

theorem readChunks_length {limit : Nat} {chunks : List (Except RegistryError Bytes)}
    {body result : Bytes} (hbody : body.length ≤ limit)
    (h : readChunks limit body chunks = .ok result) : result.length ≤ limit := by
  induction chunks generalizing body with
  | nil =>
    obtain rfl : body = result := Except.ok.inj h
    exact hbody
  | cons chunk chunks ih =>
    cases chunk with
    | error err => cases h
    | ok chunk =>
      unfold readChunks at h
      split at h
      · cases h
      next hfits => exact ih (by rw [List.length_append]; omega) h

variable {body : Bytes}

theorem readLimited_length {limit : Nat}
    (h : readLimited response limit = .ok body) : body.length ≤ limit := by
  unfold readLimited at h
  split at h
  · cases h
  · exact readChunks_length (Nat.zero_le _) h

variable {codec : Codec} {http : HttpResponse}

theorem classifyStatus_success {status : Nat} {authenticated : Bool}
    (h : classifyStatus status authenticated = .ok ()) : 200 ≤ status ∧ status < 300 := by
  unfold classifyStatus at h
  split at h
  next hsuccess => exact hsuccess
  · repeat (first | cases h | split at h)

theorem fetched_of_read {authenticated : Bool}
    (hreceived : Received net image t selector http)
    (hstatus : classifyStatus http.status authenticated = .ok ())
    (hbody : http.manifest.body = .ok body)
    (hdeclared : (http.manifest.dockerContentDigest.all (· = digest codec body)) = true) :
    Fetched net codec image t selector http body (digest codec body) where
  received := hreceived
  success := classifyStatus_success hstatus
  read := hbody
  bounded := readLimited_length hbody
  digest := rfl
  undisputed := by
    intro declared hd
    have hd' : http.manifest.dockerContentDigest = some declared := hd
    rw [hd'] at hdeclared
    simpa using hdeclared

variable {platform : Platform}

/-- An entry that was selected is for the platform. -/
theorem platform_of_matching {index : Index} {child : Descriptor} {found : Platform}
    (hmatching : child ∈ matchingManifests index platform)
    (hfound : descriptorPlatform child = .ok found) : found = platform := by
  unfold matchingManifests at hmatching
  rw [List.mem_filter, hfound] at hmatching
  exact (by simpa using hmatching.2 : found = platform ∧ _).1

variable (h : Orderly net image credential t) (hnone : t.countP redirected = 0)

include h hnone

theorem selectChild_runs {sourceDigest : String} {child : Descriptor} :
    Runs net image credential (handle (serve net credential)
        (selectChild codec image credential.isSome bearer sourceDigest child))
      (fun r t' => Orderly net image credential t' ∧ t <:+ t' ∧ ∀ s, r = .ok s →
        t'.countP redirected = 0 ∧ ∃ childResponse childBody localImageId platform,
          Fetched net codec image t' child.digest childResponse childBody child.digest ∧
          Configures codec childResponse childBody localImageId ∧
          descriptorPlatform child = .ok platform ∧
          s = ⟨some sourceDigest, child.digest, localImageId, platform⟩) t := by
  simp only [selectChild, handle_bind, handle_orElse, handle_orStop, handle_ensure, handle_pure]
  refine wp_part (fetch_runs h hnone) (fun response t1 h1 => ?_)
    fun _ _ h1 => ⟨h1.1, h1.2.1, fun _ => error_ne_ok⟩
  obtain ⟨horderly, hkeep, hfirst⟩ := h1
  obtain ⟨http, hreceived, rfl, hstays⟩ := hfirst response rfl
  refine wp_orElse_bind (fun _ hstatus => ?_) fun _ _ => ⟨horderly, hkeep, fun _ => error_ne_ok⟩
  refine wp_orStop_bind (fun media hmedia => ?_) fun _ => ⟨horderly, hkeep, fun _ => error_ne_ok⟩
  refine wp_orElse_bind (fun body hbody => ?_) fun _ _ => ⟨horderly, hkeep, fun _ => error_ne_ok⟩
  refine wp_ensure_bind (fun hsame => ?_) fun _ => ⟨horderly, hkeep, fun _ => error_ne_ok⟩
  refine wp_orElse_bind (fun manifest hmanifest => ?_) fun _ _ =>
    ⟨horderly, hkeep, fun _ => error_ne_ok⟩
  refine wp_orElse_bind (fun platform hplatform => ?_)
    fun _ _ => ⟨horderly, hkeep, fun _ => error_ne_ok⟩
  refine ⟨horderly, hkeep, ?_⟩
  rintro s ⟨rfl⟩
  obtain ⟨hdigest, hdeclared⟩ : digest codec body = child.digest ∧
      (http.manifest.dockerContentDigest.all (· = digest codec body)) = true := by
    simpa using hsame
  have hfetched := fetched_of_read hreceived hstatus hbody hdeclared
  rw [hdigest] at hfetched
  exact ⟨hstays (classifyStatus_ok hstatus), http, body, manifest.config.digest, platform, hfetched,
    ⟨media, manifest, hmedia, hmanifest, rfl⟩, hplatform, rfl⟩

theorem selectManifest_runs {media : String} (hmedia : mediaType http = some media)
    (hfetched : Fetched net codec image t image.tag http body (digest codec body)) :
    Runs net image credential (handle (serve net credential)
        (selectManifest codec image credential.isSome bearer platform media body))
      (fun r t' => Orderly net image credential t' ∧ ∀ s, r = .ok s →
        t'.countP redirected = 0 ∧
        Believed net codec image t' platform (digest codec body) s) t := by
  unfold selectManifest
  rw [handle_ite]
  refine wp_if (fun _ => ?_) fun _ => ?_
  · simp only [handle_bind, handle_orElse, handle_pure]
    refine wp_orElse_bind (fun manifest hmanifest => ⟨h, ?_⟩) fun _ _ => ⟨h, fun _ => error_ne_ok⟩
    rintro s ⟨rfl⟩
    exact ⟨hnone, .manifest hfetched ⟨media, manifest, hmedia, hmanifest, rfl⟩⟩
  · rw [handle_ite, wp_ite]
    refine ⟨fun _ => ?_, fun _ => ⟨h, fun _ => error_ne_ok⟩⟩
    simp only [handle_bind, handle_orElse]
    refine wp_orElse_bind (fun index hindex => ?_) fun _ _ => ⟨h, fun _ => error_ne_ok⟩
    split
    next child hmatching =>
      refine wp_mono (selectChild_runs h hnone) fun r t' hr => ⟨hr.1, fun s hs => ?_⟩
      obtain ⟨hnone', childResponse, childBody, localImageId, found, hchild, hconfig,
        hfound, rfl⟩ :=
        hr.2.2 s hs
      obtain rfl := platform_of_matching (hmatching ▸ List.mem_singleton_self child) hfound
      exact ⟨hnone', .index { hfetched with received := hfetched.received.mono hr.2.1 }
        ⟨media, hmedia, hindex⟩ hmatching hchild hconfig⟩
    · exact ⟨h, fun _ => error_ne_ok⟩

variable (codec platform etag)

theorem resolveInner_runs : Runs net image credential (handle (serve net credential)
        (resolveInner codec image platform credential.isSome etag))
      (fun r t' => Orderly net image credential t' ∧ ∀ resolved etag',
        r = .ok (.modified resolved etag') →
          t'.countP redirected = 0 ∧ Resolved net codec image t' platform resolved) t := by
  simp only [resolveInner, handle_bind, handle_orElse]
  refine wp_orElse_bind (fun canonical hcanonical => ?_) fun _ _ => ⟨h, fun _ _ => error_ne_ok⟩
  refine wp_part (fetchTag_runs h hnone) (fun answer t1 h1 => ?_) fun _ _ h1 =>
    ⟨h1.1, fun _ _ => error_ne_ok⟩
  obtain ⟨horderly, -, hanswer⟩ := h1
  obtain ⟨response, bearer⟩ := answer
  obtain ⟨http, hreceived, hresponse, hstays⟩ := hanswer _ rfl
  obtain rfl : response = http.manifest := hresponse
  rw [handle_ite, wp_ite]
  refine ⟨fun _ => ⟨horderly, fun _ _ hsame => by cases hsame⟩, fun _ => ?_⟩
  simp only [handle_bind, handle_orElse, handle_orStop, handle_ensure, handle_pure]
  refine wp_orElse_bind (fun _ hstatus => ?_) fun _ _ => ⟨horderly, fun _ _ => error_ne_ok⟩
  refine wp_orStop_bind (fun media hmedia => ?_) fun _ => ⟨horderly, fun _ _ => error_ne_ok⟩
  refine wp_orElse_bind (fun body hbody => ?_) fun _ _ => ⟨horderly, fun _ _ => error_ne_ok⟩
  refine wp_ensure_bind (fun hdeclared => ?_) fun _ => ⟨horderly, fun _ _ => error_ne_ok⟩
  have hnone1 := hstays (classifyStatus_ok hstatus)
  have hfetched := fetched_of_read hreceived hstatus hbody hdeclared
  refine wp_part (selectManifest_runs horderly hnone1 hmedia hfetched) (fun s t2 h2 => ?_)
    fun _ _ h2 => ⟨h2.1, fun _ _ => error_ne_ok⟩
  obtain ⟨horderly2, hselected⟩ := h2
  obtain ⟨hnone2, hbelieved⟩ := hselected s rfl
  refine wp_orElse_bind (fun runnable _ => ⟨horderly2, ?_⟩) fun _ _ =>
    ⟨horderly2, fun _ _ => error_ne_ok⟩
  rintro resolved etag' ⟨rfl⟩
  exact ⟨hnone2, canonical, hcanonical, hbelieved⟩

/-- A poll over the network keeps the exchange orderly, and what it resolves was fetched. -/
theorem resolvePollWire_runs :
    Runs net image credential (resolvePollWire net codec image platform credential etag)
      (fun r t' => Orderly net image credential t' ∧ ∀ resolved etag',
        r = .ok (.modified resolved etag') →
          t'.countP redirected = 0 ∧ Resolved net codec image t' platform resolved) t := by
  unfold resolvePollWire
  exact resolveInner_runs etag codec platform h hnone

/-- A resolution over the network keeps the exchange orderly, and what it resolves was fetched. -/
theorem resolveWire_runs :
    Runs net image credential (resolveWire net codec image platform credential)
      (fun r t' => Orderly net image credential t' ∧ ∀ resolved, r = .ok resolved →
        t'.countP redirected = 0 ∧ Resolved net codec image t' platform resolved) t := by
  unfold resolveWire resolve
  rw [handle_bind]
  refine wp_part (resolveInner_runs none codec platform h hnone) (fun answer t1 h1 => ?_)
    fun _ _ h1 => ⟨h1.1, fun _ => error_ne_ok⟩
  cases answer with
  | notModified => exact ⟨h1.1, fun _ => error_ne_ok⟩
  | modified resolved etag =>
    refine ⟨h1.1, ?_⟩
    rintro resolved' ⟨rfl⟩
    exact h1.2 resolved etag rfl

theorem inspectConfig_runs :
    Runs net image credential (inspectConfig net codec image platform credential)
      (fun _ t' => Orderly net image credential t') t := by
  unfold inspectConfig
  refine wp_part (resolveWire_runs codec platform h hnone) (fun resolved t1 h1 => ?_)
    fun _ _ h1 => h1.1
  obtain ⟨horderly, hresolved⟩ := h1
  refine wp_part (fetchBlobAuthenticated_runs horderly (hresolved resolved rfl).1)
    (fun response t2 h2 => ?_) fun _ _ h2 => h2
  refine wp_accept_bind (fun _ _ => ?_) fun _ _ => h2
  refine wp_accept_bind (fun body _ => ?_) fun _ _ => h2
  exact wp_ensure_bind (fun _ => h2) fun _ => h2

end Requests

end SoloDock.Registry
