import SoloDock.Lib.Text
import SoloDock.Lib.Encoding
import SoloDock.Lib.Result

/-!
# Image references

`ImageReference.parse` of `registry/reference.rs`: a tagged reference, with or
without its registry, is checked and brought to one canonical spelling. Docker
Hub's short names gain `docker.io` and, without a namespace, `library`;
`index.docker.io` becomes `docker.io`; every other registry is kept as written.

`canonical_eq_iff` says which accepted spellings are their own canonical form:
those that name a registry (`index.docker.io` apart) and, on `docker.io`, a
namespace.
-/

namespace SoloDock.Registry

open Lib Lib.Text
open String (ofList toList_inj)

inductive RegistryError where
  | referenceInvalid
  | credentialRequired
  | credentialInvalid
  | forbidden
  | tagNotFound
  | rateLimited
  | unavailable
  | timeout
  | tls
  | protocol
  | manifestUnsupported
  | digestMismatch
  | platformNotFound
  | authUnsupported
  | authRealmUntrusted
deriving DecidableEq, Repr

def RegistryError.publicCode : RegistryError → String
  | .credentialRequired => "REGISTRY_CREDENTIAL_REQUIRED"
  | .credentialInvalid => "REGISTRY_CREDENTIAL_INVALID"
  | .forbidden => "REGISTRY_FORBIDDEN"
  | .tagNotFound => "REGISTRY_TAG_NOT_FOUND"
  | .rateLimited => "REGISTRY_RATE_LIMITED"
  | .unavailable => "REGISTRY_UNAVAILABLE"
  | .timeout => "REGISTRY_TIMEOUT"
  | .tls => "REGISTRY_TLS_ERROR"
  | .protocol | .referenceInvalid => "REGISTRY_PROTOCOL_ERROR"
  | .manifestUnsupported => "REGISTRY_MANIFEST_UNSUPPORTED"
  | .digestMismatch => "REGISTRY_DIGEST_MISMATCH"
  | .platformNotFound => "REGISTRY_PLATFORM_NOT_FOUND"
  | .authUnsupported => "REGISTRY_AUTH_UNSUPPORTED"
  | .authRealmUntrusted => "REGISTRY_AUTH_REALM_UNTRUSTED"

structure ImageReference where
  logicalRegistry : String
  transportRegistry : String
  repository : String
  tag : String
  canonicalTaggedRef : String
  dockerAuthKey : String
deriving DecidableEq, Repr

/-- `u8::is_ascii_control` and `u8::is_ascii_whitespace`, on a character: no byte of
a multi-byte character is either. -/
def isControlOrWhitespace (c : Char) : Bool :=
  c.toNat < 0x20 || c.toNat = 0x7f || c = ' '

/-- The characters a reference may not contain. -/
def isForbidden (c : Char) : Bool :=
  "@$\x7b\x7d`\\\"'?#".toList.contains c

/-- The tag's characters; `.` and `-` only after the first. -/
def validTag : List Char → Bool
  | [] => false
  | c :: cs =>
    (c.isAlphanum || c = '_') &&
      cs.all (fun c => c.isAlphanum || c = '_' || c = '.' || c = '-')

def validateRegistry (value : List Char) : Except RegistryError Unit :=
  let (host, port) := match rsplitOnce ':' value with
    | some (h, p) => (h, some p)
    | none => (value, none)
  if value.isEmpty || (ofList value).utf8ByteSize > 255 || value.any Char.isUpper then
    .error .referenceInvalid
  else if host.isEmpty
      || !host.all (fun c => c.isLower || c.isDigit || c = '.' || c = '-')
      || port.any (fun p => p.isEmpty || !p.all Char.isDigit) then
    .error .referenceInvalid
  else .ok ()

/-- One part of a repository path. -/
def validRepositoryPart (part : List Char) : Bool :=
  part.head?.any Char.isAlphanum && part.getLast?.any Char.isAlphanum &&
    part.all (fun c => c.isLower || c.isDigit || c = '.' || c = '_' || c = '-')

def validateRepository (value : List Char) : Except RegistryError Unit :=
  if value.isEmpty || (ofList value).utf8ByteSize > 255
      || !((split '/' value).1 :: (split '/' value).2).all validRepositoryPart then
    .error .referenceInvalid
  else .ok ()

/-- The registry part of a reference: the first component counts as a registry when it
has a dot or a port, or is `localhost`. -/
def firstIsRegistry (first : List Char) : Bool :=
  first.contains '.' || first.contains ':' || first = "localhost".toList

/-- Docker Hub's registry name. -/
def dockerIo : List Char := "docker.io".toList

/-- Docker Hub's index name. -/
def indexDockerIo : List Char := "index.docker.io".toList

/-- The two spellings of Docker Hub. -/
def isDockerHub (first : List Char) : Bool :=
  first = dockerIo || first = indexDockerIo

/-- The components after the first, joined again (empty when there are none). -/
def joinRest : List (List Char) → List Char
  | [] => []
  | p :: ps => join '/' p ps

/-- `library/` before a Docker Hub name without a namespace. -/
def withLibrary (rest : List Char) : List Char :=
  if rest.contains '/' then rest else "library/".toList ++ rest

/-- The logical registry, transport registry and repository of the part before the
tag. -/
def splitRegistry (repositoryPart : List Char) :
    Except RegistryError (List Char × List Char × List Char) := do
  let (first, parts) := split '/' repositoryPart
  if firstIsRegistry first then
    validateRegistry first
    let rest := if isDockerHub first then withLibrary (joinRest parts) else joinRest parts
    validateRepository rest
    if first = "registry-1.docker.io".toList then
      throw .referenceInvalid
    if isDockerHub first then
      return (dockerIo, "registry-1.docker.io".toList, rest)
    else
      return (first, first, rest)
  else
    let rest := join '/' first parts
    validateRepository rest
    return (dockerIo, "registry-1.docker.io".toList, withLibrary rest)

/-- The checks `parse` makes on the whole text. -/
def acceptableText (value : String) : Bool :=
  !(value.isEmpty || value.utf8ByteSize > 320 || value.toList.any isForbidden
    || hasInfix "://".toList value.toList || value.toList.any isControlOrWhitespace)

def ImageReference.parse (value : String) : Except RegistryError ImageReference := do
  if !acceptableText value then
    throw .referenceInvalid
  match rsplitOnce ':' value.toList with
  | none => throw .referenceInvalid
  | some (repositoryPart, tag) =>
    -- the last colon lies before the last slash: it is a port, not a tag
    if tag.contains '/' then
      throw .referenceInvalid
    if (ofList tag).utf8ByteSize > 128 || !validTag tag then
      throw .referenceInvalid
    let (logical, transport, repository) ← splitRegistry repositoryPart
    return {
      logicalRegistry := ofList logical
      transportRegistry := ofList transport
      repository := ofList repository
      tag := ofList tag
      canonicalTaggedRef := ofList (logical ++ '/' :: repository ++ ':' :: tag)
      dockerAuthKey :=
        if logical = dockerIo then "https://index.docker.io/v1/"
        else ofList logical }

/-- The algorithm every digest names. -/
def digestAlgorithm : List Char := "sha256:".toList

/-- `validate_digest`: `sha256:` and 64 lowercase hexadecimal digits. -/
def validateDigest (value : String) : Except RegistryError Unit :=
  if digestAlgorithm.isPrefixOf value.toList
      && (value.toList.drop 7).length = 64
      && (value.toList.drop 7).all isHexDigit then
    .ok ()
  else .error .digestMismatch

def ImageReference.runnable (image : ImageReference) (digest : String) :
    Except RegistryError String := do
  validateDigest digest
  return image.logicalRegistry ++ "/" ++ image.repository ++ "@" ++ digest

/-! ## Which spellings are canonical -/

/-- The reference names its registry, not as `index.docker.io`, and on `docker.io` also
a namespace. -/
def spelledOut (value : String) : Bool :=
  match rsplitOnce ':' value.toList with
  | none => false
  | some (repositoryPart, _) =>
    let (first, parts) := split '/' repositoryPart
    firstIsRegistry first && first != indexDockerIo &&
      (first != dockerIo || (joinRest parts).contains '/')

theorem join_eq_append_joinRest {first : List Char} {parts : List (List Char)}
    (h : joinRest parts ≠ []) : join '/' first parts = first ++ '/' :: joinRest parts := by
  cases parts with
  | nil => exact absurd rfl h
  | cons p ps => rfl

/-- The components of a repository are valid. -/
def PartsValid (value : List Char) : Prop :=
  ((split '/' value).1 :: (split '/' value).2).all validRepositoryPart = true

theorem validateRepository_iff {value : List Char} :
    validateRepository value = .ok () ↔ (ofList value).utf8ByteSize ≤ 255 ∧ PartsValid value := by
  have hempty : value.isEmpty = true →
      ((split '/' value).1 :: (split '/' value).2).all validRepositoryPart = false := by
    intro hnil
    rw [List.isEmpty_iff.mp hnil]
    rfl
  unfold validateRepository PartsValid
  rw [guard_eq_ok]
  grind

theorem withLibrary_eq_iff (rest : List Char) :
    withLibrary rest = rest ↔ rest.contains '/' = true := by
  unfold withLibrary
  split
  next h => simp only [h]
  next h =>
    constructor
    · intro heq
      have hlen := congrArg List.length heq
      rw [List.length_append] at hlen
      have hl : "library/".toList.length = 8 := by decide
      omega
    · intro hc
      exact absurd hc h

theorem withLibrary_slash (rest : List Char) : (withLibrary rest).contains '/' = true := by
  unfold withLibrary
  split
  next h => exact h
  · simp

/-- How the part before the tag splits: another registry is kept as written, Docker Hub is
spelled out. -/
inductive Splits (part : List Char) : List Char → List Char → List Char → Prop where
  | other {first repository : List Char} (registry : firstIsRegistry first = true)
      (hub : isDockerHub first = false) (valid : validateRegistry first = .ok ())
      (repositoryValid : validateRepository repository = .ok ()) (flat : '/' ∉ first)
      (cut : part = first ++ '/' :: repository) : Splits part first first repository
  | hub {first rest : List Char} (registry : firstIsRegistry first = true)
      (hub : isDockerHub first = true) (valid : validateRepository (withLibrary rest) = .ok ())
      (flat : '/' ∉ first) (cut : part = first ++ '/' :: rest) :
      Splits part dockerIo "registry-1.docker.io".toList (withLibrary rest)
  | short (registry : firstIsRegistry (split '/' part).1 = false)
      (valid : validateRepository part = .ok ()) :
      Splits part dockerIo "registry-1.docker.io".toList (withLibrary part)

variable {rest : List Char}

/-- The registry of a reference is split off in one of three ways. -/
theorem splitRegistry_splits {part logical transport repository : List Char}
    (h : splitRegistry part = .ok (logical, transport, repository)) :
    Splits part logical transport repository := by
  have hjoin := join_split '/' part
  have hflat := not_mem_split '/' part
  have hshort := @Splits.short part
  unfold splitRegistry at h
  revert h hjoin hflat hshort
  generalize split '/' part = fp
  obtain ⟨first, parts⟩ := fp
  intro h hjoin hflat hshort
  dsimp only at h hjoin hflat hshort
  split at h
  next hreg =>
    obtain ⟨_, hvalid, h⟩ := bind_eq_ok.mp h
    obtain ⟨_, hrepository, h⟩ := bind_eq_ok.mp h
    split at h
    · cases h
    · split at h
      next hhub =>
        rw [if_pos hhub] at hrepository
        cases h
        have hne : joinRest parts ≠ [] := by
          intro hnil
          rw [hnil] at hrepository
          cases hrepository
        rw [join_eq_append_joinRest hne] at hjoin
        exact .hub hreg hhub hrepository hflat hjoin.symm
      next hhub =>
        rw [if_neg hhub] at hrepository
        cases h
        have hne : joinRest parts ≠ [] := by
          intro hnil
          rw [hnil] at hrepository
          cases hrepository
        rw [join_eq_append_joinRest hne] at hjoin
        exact .other hreg (Bool.not_eq_true _ ▸ hhub) hvalid hrepository hflat hjoin.symm
  next hreg =>
    obtain ⟨_, hrepository, h⟩ := bind_eq_ok.mp h
    cases h
    rw [hjoin] at hrepository ⊢
    exact hshort (Bool.not_eq_true _ ▸ hreg) hrepository

/-- The reference with these parts. -/
def ImageReference.spelled (logical transport repository tag : List Char) : ImageReference :=
  { logicalRegistry := ofList logical
    transportRegistry := ofList transport
    repository := ofList repository
    tag := ofList tag
    canonicalTaggedRef := ofList (logical ++ '/' :: repository ++ ':' :: tag)
    dockerAuthKey :=
      if logical = dockerIo then "https://index.docker.io/v1/" else ofList logical }

variable {value : String}

/-- What the parser accepts, and what it makes of it. -/
theorem ImageReference.parse_eq_ok {image : ImageReference} :
    ImageReference.parse value = .ok image ↔
      ∃ part tag logical transport repository, acceptableText value = true ∧
        rsplitOnce ':' value.toList = some (part, tag) ∧ tag.contains '/' = false ∧
        ((ofList tag).utf8ByteSize > 128 || !validTag tag) = false ∧
        splitRegistry part = .ok (logical, transport, repository) ∧
        image = spelled logical transport repository tag := by
  constructor
  · intro h
    obtain ⟨htext, h⟩ := guard_eq_ok.mp h
    split at h
    · cases h
    next part tag hcut =>
      obtain ⟨hflat, h⟩ := guard_eq_ok.mp h
      obtain ⟨htag, h⟩ := guard_eq_ok.mp h
      obtain ⟨⟨logical, transport, repository⟩, hsplit, h⟩ := bind_eq_ok.mp h
      exact ⟨part, tag, logical, transport, repository, by simpa using htext, hcut,
        by simpa using hflat, by simpa using htag, hsplit, (pure_eq_ok.mp h).symm⟩
  · rintro ⟨part, tag, logical, transport, repository, htext, hcut, hflat, htag, hsplit, rfl⟩
    unfold ImageReference.parse
    rw [htext, hcut]
    simp only [hflat, htag, hsplit]
    rfl

/-- **Which accepted references are their own canonical form.** -/
theorem ImageReference.canonical_eq_iff {image : ImageReference}
    (h : ImageReference.parse value = .ok image) :
    image.canonicalTaggedRef = value ↔ spelledOut value = true := by
  obtain ⟨part, tag, logical, transport, repository, -, hcut, -, -, hreg, rfl⟩ := parse_eq_ok.mp h
  have hsame : ofList (logical ++ '/' :: repository ++ ':' :: tag) = value ↔
      logical ++ '/' :: repository = part := by
    rw [← toList_inj, String.toList_ofList, rsplitOnce_eq hcut]
    exact List.append_left_inj _
  refine hsame.trans ?_
  unfold spelledOut
  rw [hcut]
  cases splitRegistry_splits hreg with
  | other hfirst hhub _ _ hflat hpart =>
    have hne : logical ≠ dockerIo ∧ logical ≠ indexDockerIo := by simpa [isDockerHub] using hhub
    simp [hpart, split_append hflat, hfirst, hne.1, hne.2]
  | @hub first rest hfirst hhub _ hflat hpart =>
    have hjoin : joinRest ((split '/' rest).1 :: (split '/' rest).2) = rest := join_split '/' rest
    simp only [hpart, split_append hflat, hfirst, hjoin]
    have hcases : first = dockerIo ∨ first = indexDockerIo := by simpa [isDockerHub] using hhub
    rcases hcases with rfl | rfl
    · -- `docker.io` is kept; the namespace decides
      have hne : dockerIo ≠ indexDockerIo := by decide
      simp [hne, withLibrary_eq_iff]
    · simp only [bne_self_eq_false, Bool.and_false, Bool.false_and, Bool.false_eq_true, iff_false]
      intro heq
      have hhead : some 'd' = some 'i' := congrArg List.head? heq
      cases hhead
  | short hfirst _ =>
    -- a short Docker Hub name always grows
    simp only [hfirst, Bool.false_and, Bool.false_eq_true, iff_false]
    intro heq
    have hlen := congrArg List.length heq
    have hle : part.length ≤ (withLibrary part).length := by
      unfold withLibrary
      split
      · exact Nat.le_refl _
      · rw [List.length_append]
        omega
    rw [List.length_append, List.length_cons] at hlen
    omega

/-! ## Reading the canonical spelling again -/

theorem colon_not_mem {repository : List Char} (h : PartsValid repository) : ':' ∉ repository := by
  intro hmem
  rcases mem_split (c := '/') hmem with heq | ⟨part, hpart, hin⟩
  · cases heq
  · have hvalid := List.all_eq_true.mp h part hpart
    have hchar := List.all_eq_true.mp (Bool.and_eq_true_iff.mp hvalid).2 ':' hin
    cases hchar

/-- The parts of a Docker Hub name stay valid when the namespace is spelled out. -/
theorem withLibrary_parts (h : PartsValid rest) : PartsValid (withLibrary rest) := by
  unfold PartsValid withLibrary
  split
  · exact h
  · have hsplit := split_append (c := '/') (a := "library".toList) (by decide) rest
    rw [show "library/".toList ++ rest = "library".toList ++ '/' :: rest from rfl, hsplit]
    have hlibrary : validRepositoryPart "library".toList = true := by decide
    rw [List.all_cons, hlibrary]
    exact h

/-- The repository behind a registry is valid. -/
theorem Splits.repository {part logical transport repository : List Char}
    (h : Splits part logical transport repository)
    (hfirst : firstIsRegistry (split '/' part).1 = true) :
    validateRepository repository = .ok () := by
  cases h with
  | other _ _ _ hvalid _ _ => exact hvalid
  | hub _ _ hvalid _ _ => exact hvalid
  | short hshort _ =>
    rw [hfirst] at hshort
    cases hshort

theorem splitRegistry_hub {repository : List Char} (hslash : repository.contains '/' = true)
    (hvalid : validateRepository repository = .ok ()) :
    splitRegistry (dockerIo ++ '/' :: repository) =
      .ok (dockerIo, "registry-1.docker.io".toList, repository) := by
  have hflat : '/' ∉ dockerIo := by decide
  have hjoin : joinRest ((split '/' repository).1 :: (split '/' repository).2) = repository :=
    join_split '/' repository
  have hregistry : validateRegistry dockerIo = .ok () := ok_of_toOption (by decide)
  unfold splitRegistry
  rw [split_append hflat]
  simp only [hjoin, (withLibrary_eq_iff repository).mpr hslash,
    show firstIsRegistry dockerIo = true from rfl,
    show isDockerHub dockerIo = true from rfl, if_true, hregistry, hvalid]
  rfl

/-- A Docker Hub reference, spelled out. -/
def onHub (repository tag : List Char) : String :=
  ofList (dockerIo ++ '/' :: repository ++ ':' :: tag)

section Spelled

variable {repository tag : List Char}

theorem toList_onHub :
    (onHub repository tag).toList = dockerIo ++ '/' :: repository ++ ':' :: tag :=
  String.toList_ofList

theorem any_hub {p : Char → Bool} (hfixed : (dockerIo ++ ['/', ':']).any p = false)
    (hrepository : repository.any p = false) (htag : tag.any p = false) :
    (dockerIo ++ '/' :: repository ++ ':' :: tag).any p = false := by
  rw [List.any_append, List.any_cons, List.any_cons, List.any_nil, Bool.or_false] at hfixed
  rw [List.any_append, List.any_append, List.any_cons, List.any_cons, hrepository, htag]
  simpa [and_assoc] using hfixed

theorem acceptableText_clean (h : acceptableText value = true) {part : List Char}
    (hpart : ∀ c ∈ part, c ∈ value.toList) :
    part.any isForbidden = false ∧ part.any isControlOrWhitespace = false := by
  unfold acceptableText at h
  simp only [Bool.not_eq_true', Bool.or_eq_false_iff, List.any_eq_false] at h
  simp only [List.any_eq_false]
  exact ⟨fun c hc => h.1.1.2 c (hpart c hc), fun c hc => h.2 c (hpart c hc)⟩

theorem any_withLibrary {p : Char → Bool} (hfixed : "library/".toList.any p = false)
    (h : rest.any p = false) : (withLibrary rest).any p = false := by
  unfold withLibrary
  split
  · exact h
  · rw [List.any_append, hfixed, h]; rfl

theorem acceptableText_size (h : acceptableText value = true) : value.utf8ByteSize ≤ 320 := by
  unfold acceptableText at h
  simp only [Bool.not_eq_true', Bool.or_eq_false_iff] at h
  simpa using h.1.1.1.2

/-- A Docker Hub reference that is spelled out is acceptable unless it is too long. -/
theorem acceptableText_hub (hcolon : ':' ∉ repository) (hlast : ':' ∉ tag)
    (hflat : tag.contains '/' = false) (hrepository : repository.any isForbidden = false)
    (hrepository' : repository.any isControlOrWhitespace = false)
    (htag : tag.any isForbidden = false) (htag' : tag.any isControlOrWhitespace = false) :
    acceptableText (onHub repository tag) = true ↔ (onHub repository tag).utf8ByteSize ≤ 320 := by
  have hinfix : hasInfix "://".toList (dockerIo ++ '/' :: repository ++ ':' :: tag) = false := by
    have hfront : ':' ∉ dockerIo ++ '/' :: repository := by
      intro hmem
      rcases List.mem_append.mp hmem with hmem | hmem
      · exact absurd hmem (by decide)
      · rcases List.mem_cons.mp hmem with heq | hmem
        · cases heq
        · exact hcolon hmem
    have hback : hasInfix (':' :: "//".toList) (tag ++ []) = hasInfix (':' :: "//".toList) [] :=
      hasInfix_append hlast []
    rw [List.append_nil] at hback
    rw [show "://".toList = ':' :: "//".toList from rfl, hasInfix_append hfront, hasInfix, hback]
    cases tag with
    | nil => rfl
    | cons c tag =>
      have hc : ('/' == c) = false := by
        rw [List.contains_cons] at hflat
        exact (Bool.or_eq_false_iff.mp hflat).1
      simp [List.isPrefixOf, hc, hasInfix]
  have hnonempty : (onHub repository tag).isEmpty = false := by
    rw [← Bool.not_eq_true, String.isEmpty_iff, ← toList_inj, toList_onHub]
    exact fun hnil => List.append_ne_nil_of_right_ne_nil _ (List.cons_ne_nil _ _) hnil
  unfold acceptableText
  rw [hnonempty, toList_onHub, any_hub (by decide) hrepository htag,
    any_hub (by decide) hrepository' htag', hinfix]
  simp

theorem parse_hub (htext : acceptableText value = true)
    (hrest : ∀ c ∈ rest, c ∈ value.toList) (hin : ∀ c ∈ tag, c ∈ value.toList)
    (hparts : PartsValid (withLibrary rest)) (hlast : ':' ∉ tag) (hflat : tag.contains '/' = false)
    (htag : ((ofList tag).utf8ByteSize > 128 || !validTag tag) = false) :
    ImageReference.parse (onHub (withLibrary rest) tag) =
        .ok (.spelled dockerIo "registry-1.docker.io".toList (withLibrary rest) tag) ↔
      (onHub (withLibrary rest) tag).utf8ByteSize ≤ 320 ∧
        (ofList (withLibrary rest)).utf8ByteSize ≤ 255 := by
  obtain ⟨hrest, hrest'⟩ := acceptableText_clean htext hrest
  obtain ⟨hin, hin'⟩ := acceptableText_clean htext hin
  have hspelled := acceptableText_hub (colon_not_mem hparts) hlast hflat
    (any_withLibrary (by decide) hrest) (any_withLibrary (by decide) hrest') hin hin'
  have hcut : rsplitOnce ':' (onHub (withLibrary rest) tag).toList =
      some (dockerIo ++ '/' :: withLibrary rest, tag) := by
    rw [toList_onHub]
    exact rsplitOnce_append _ hlast
  constructor
  · intro h
    obtain ⟨part, tag', logical, transport, repository, hok, hcut', -, -, hsplit, heq⟩ :=
      ImageReference.parse_eq_ok.mp h
    refine ⟨hspelled.mp hok, ?_⟩
    cases hcut.symm.trans hcut'
    have hsame : withLibrary rest = repository :=
      String.ofList_injective (congrArg ImageReference.repository heq)
    have hvalid := (splitRegistry_splits hsplit).repository (by
      rw [split_append (by decide : '/' ∉ dockerIo)]
      rfl)
    exact hsame ▸ (validateRepository_iff.mp hvalid).1
  · rintro ⟨hsize, hrepository⟩
    have hsplit := splitRegistry_hub (withLibrary_slash rest)
      (validateRepository_iff.mpr ⟨hrepository, hparts⟩)
    exact ImageReference.parse_eq_ok.mpr
      ⟨_, _, _, _, _, hspelled.mpr hsize, hcut, hflat, htag, hsplit, rfl⟩

end Spelled

/-- An accepted reference is read back from its canonical spelling exactly when that is not
too long. -/
theorem ImageReference.read_back_iff {image : ImageReference}
    (h : ImageReference.parse value = .ok image) :
    ImageReference.parse image.canonicalTaggedRef = .ok image ↔
      image.canonicalTaggedRef.utf8ByteSize ≤ 320 ∧ image.repository.utf8ByteSize ≤ 255 := by
  obtain ⟨part, tag, logical, transport, repository, htext, hcut, hflat, htag, hsplit, rfl⟩ :=
    parse_eq_ok.mp h
  have hvalue := rsplitOnce_eq hcut
  have hlast := not_mem_of_rsplitOnce hcut
  have hin : ∀ c ∈ tag, c ∈ value.toList := by simp +contextual [hvalue]
  cases splitRegistry_splits hsplit with
  | other _ _ _ hvalid _ hpart =>
    have hsame : String.ofList (logical ++ '/' :: repository ++ ':' :: tag) = value := by
      rw [← hpart, ← hvalue, String.ofList_toList]
    refine ⟨fun _ => ⟨?_, (validateRepository_iff.mp hvalid).1⟩, fun _ => ?_⟩
    · show (String.ofList _).utf8ByteSize ≤ 320
      rw [hsame]
      exact acceptableText_size htext
    · show ImageReference.parse (String.ofList _) = _
      rw [hsame]
      exact h
  | @hub first rest _ _ hvalid _ hpart =>
    exact parse_hub htext (by simp +contextual [hvalue, hpart]) hin
      (validateRepository_iff.mp hvalid).2
      hlast hflat htag
  | short _ hvalid =>
    exact parse_hub htext (by simp +contextual [hvalue]) hin
      (withLibrary_parts (validateRepository_iff.mp hvalid).2) hlast hflat htag

/-! ### How much the canonical spelling adds -/

/-- The registry as it is written before the tag, if one is, and the name after it. -/
def written (value : String) : Option (List Char) × List Char :=
  match rsplitOnce ':' value.toList with
  | none => (none, value.toList)
  | some (part, _) =>
    if firstIsRegistry (split '/' part).1 then
      (some (split '/' part).1, joinRest (split '/' part).2)
    else (none, part)

/-- The reference leaves room for what its canonical spelling adds. Without a registry that
is `docker.io/`, without a namespace on Docker Hub `library/`, which counts for the name too. -/
def HasRoom (value : String) : Prop :=
  match written value with
  | (none, name) =>
    if '/' ∈ name then value.utf8ByteSize + 10 ≤ 320
    else value.utf8ByteSize + 18 ≤ 320 ∧ (ofList name).utf8ByteSize + 8 ≤ 255
  | (some registry, name) => '/' ∉ name →
    (registry = dockerIo → value.utf8ByteSize + 8 ≤ 320) ∧
      (registry = indexDockerIo → value.utf8ByteSize + 2 ≤ 320)

theorem size_append (a b : List Char) :
    (ofList (a ++ b)).utf8ByteSize = (ofList a).utf8ByteSize + (ofList b).utf8ByteSize := by
  rw [String.ofList_append, String.utf8ByteSize_append]

theorem size_slash (a : List Char) :
    (ofList ('/' :: a)).utf8ByteSize = (ofList a).utf8ByteSize + 1 :=
  (size_append ['/'] a).trans (Nat.add_comm _ _)

theorem size_withLibrary (rest : List Char) :
    (ofList (withLibrary rest)).utf8ByteSize =
      (ofList rest).utf8ByteSize + if '/' ∈ rest then 0 else 8 := by
  unfold withLibrary
  simp only [List.contains_iff_mem]
  split
  · rfl
  · rw [size_append, Nat.add_comm]
    rfl

section Room

variable {part tag : List Char}

theorem written_named {first : List Char} (hcut : rsplitOnce ':' value.toList = some (part, tag))
    (hfirst : firstIsRegistry first = true) (hflat : '/' ∉ first)
    (hpart : part = first ++ '/' :: rest) : written value = (some first, rest) := by
  have hjoin : joinRest ((split '/' rest).1 :: (split '/' rest).2) = rest := join_split '/' rest
  simp only [written, hcut, hpart, split_append hflat, hfirst, if_true, hjoin]

theorem written_short (hcut : rsplitOnce ':' value.toList = some (part, tag))
    (hfirst : firstIsRegistry (split '/' part).1 = false) : written value = (none, part) := by
  simp [written, hcut, hfirst]

/-- The canonical spelling is too long, or fits, by the size of what was written. -/
theorem hasRoom_iff {logical transport repository : List Char}
    (htext : acceptableText value = true)
    (hcut : rsplitOnce ':' value.toList = some (part, tag))
    (h : Splits part logical transport repository) :
    (ofList (logical ++ '/' :: repository ++ ':' :: tag)).utf8ByteSize ≤ 320 ∧
        (ofList repository).utf8ByteSize ≤ 255 ↔ HasRoom value := by
  have hvalue : value.utf8ByteSize =
      (ofList part).utf8ByteSize + (ofList (':' :: tag)).utf8ByteSize := by
    rw [← size_append, ← rsplitOnce_eq hcut, String.ofList_toList]
  have hsize := acceptableText_size htext
  have hdocker : (ofList dockerIo).utf8ByteSize = 9 := rfl
  have hindex : (ofList indexDockerIo).utf8ByteSize = 15 := rfl
  unfold HasRoom
  cases h with
  | other hfirst hhub _ hvalid hflat hpart =>
    have hne : logical ≠ dockerIo ∧ logical ≠ indexDockerIo := by simpa [isDockerHub] using hhub
    have hrepository := (validateRepository_iff.mp hvalid).1
    rw [written_named hcut hfirst hflat hpart, ← hpart, size_append, ← hvalue]
    simp [hne.1, hne.2, hrepository, hsize]
  | @hub first rest hfirst hhub hvalid hflat hpart =>
    have hrepository := (validateRepository_iff.mp hvalid).1
    rw [hpart, size_append, size_slash] at hvalue
    rw [written_named hcut hfirst hflat hpart, size_append, size_append, size_slash,
      size_withLibrary, hdocker]
    rw [size_withLibrary] at hrepository
    have hne : dockerIo ≠ indexDockerIo := by decide
    by_cases hslash : '/' ∈ rest
    · simp only [hslash, if_true] at hrepository
      simp only [hslash, if_true, not_true_eq_false, false_implies, iff_true]
      rcases (by simpa [isDockerHub] using hhub : first = dockerIo ∨ first = indexDockerIo)
        with rfl | rfl <;> omega
    · simp only [hslash, if_false] at hrepository
      simp only [hslash, if_false, not_false_eq_true, true_implies]
      rcases (by simpa [isDockerHub] using hhub : first = dockerIo ∨ first = indexDockerIo)
        with rfl | rfl
      · simp only [hne, true_implies, false_implies, and_true]
        omega
      · simp only [hne.symm, true_implies, false_implies, true_and]
        omega
  | short hfirst hvalid =>
    have hrepository := (validateRepository_iff.mp hvalid).1
    rw [written_short hcut hfirst, size_append, size_append, size_slash, size_withLibrary, hdocker]
    by_cases hslash : '/' ∈ part <;> simp only [hslash, if_true, if_false] <;> omega

end Room

/-- **An accepted reference is read back from its canonical spelling exactly when it leaves
room for what that adds**: the registry and, on Docker Hub, the namespace it does not name. -/
theorem ImageReference.parse_canonical_iff {value : String} {image : ImageReference}
    (h : ImageReference.parse value = .ok image) :
    ImageReference.parse image.canonicalTaggedRef = .ok image ↔ HasRoom value := by
  rw [read_back_iff h]
  obtain ⟨part, tag, logical, transport, repository, htext, hcut, -, -, hsplit, rfl⟩ :=
    parse_eq_ok.mp h
  exact hasRoom_iff htext hcut (splitRegistry_splits hsplit)

/-- A name of Docker Hub that is read back. -/
theorem short_name_read_back :
    ∃ image, ImageReference.parse "postgres:16" = .ok image ∧
      ImageReference.parse image.canonicalTaggedRef = .ok image := by
  obtain ⟨image, himage⟩ : ∃ image, ImageReference.parse "postgres:16" = .ok image := ⟨_, rfl⟩
  refine ⟨image, himage, (ImageReference.parse_canonical_iff himage).mpr ?_⟩
  have hwritten : written "postgres:16" = (none, "postgres".toList) := rfl
  unfold HasRoom
  rw [hwritten]
  decide

/-- The longest names without a namespace are accepted, and not read back. -/
theorem long_name_not_read_back :
    ∃ image, ImageReference.parse (String.ofList (List.replicate 248 'a' ++ ":1".toList)) =
      .ok image ∧
      (ImageReference.parse image.canonicalTaggedRef).isOk = false := by
  let image := ImageReference.spelled dockerIo "registry-1.docker.io".toList
    ("library/".toList ++ List.replicate 248 'a') ['1']
  refine ⟨image, ?_, ?_⟩
  · unfold ImageReference.parse acceptableText
    rw [String.toList_ofList]
    exact ok_of_toOption (by decide +kernel)
  · show (ImageReference.parse (String.ofList _)).isOk = false
    rw [String.toList_ofList]
    decide +kernel

end SoloDock.Registry
