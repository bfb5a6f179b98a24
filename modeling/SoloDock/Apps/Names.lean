import SoloDock.Deploy.Interface
import SoloDock.Lib.Sha256

/-!
# The resource names of an app

`AppResourceIdentity` of `domain/application.rs`: the names an app has in Docker, made of its
slug, and in the current schema of a token of its id. SHA-256 is the parameter `sha256`.

A slug holds no dot, so the slug of a volume name ends at its first dot (`dot_append_inj`). Two
names of different kinds, or of different apps, are then equal only where one text is a slug and
also what the other name has in its place (`name_eq_cases`).
-/

namespace SoloDock.Apps

open Lib Deploy
open String (append_right_inj toList_inj)

/-- `RESOURCE_NAME_SCHEMA_LEGACY` and `RESOURCE_NAME_SCHEMA_CURRENT`. -/
inductive NameSchema where
  | legacy | current
deriving DecidableEq, Repr

/-- The longest slug of a schema. -/
def NameSchema.maxSlug : NameSchema → Nat
  | .legacy => 12
  | .current => 20

/-- `validate_slug_for_resource_schema`. -/
def validSlug (schema : NameSchema) (value : String) : Bool :=
  !value.isEmpty && value.utf8ByteSize ≤ schema.maxSlug
    && value.toList.all (fun c => c.isLower || c.isDigit || c = '-')
    && value.toList.head?.any (·.isAlphanum) && value.toList.getLast?.any (·.isAlphanum)

/-- `validate_logical_name`. -/
def validLogicalName (value : String) : Bool :=
  !value.isEmpty && value.utf8ByteSize ≤ 64 && value ≠ "." && value ≠ ".."
    && value.toList.all fun c => c.isLower || c.isDigit || c = '.' || c = '_' || c = '-'

structure AppResourceIdentity where
  appId : Uuid
  slug : String
  schemaVersion : NameSchema
deriving DecidableEq, Repr

/-- What an app has a name for. -/
inductive Resource where
  | project
  | ownedDefaultNetwork
  | bridge
  | ownedVolume (logicalName : String)
deriving DecidableEq, Repr

namespace Resource

/-- A volume has a valid logical name. -/
def valid : Resource → Bool
  | .ownedVolume logicalName => validLogicalName logicalName
  | _ => true

/-- Names of the same kind share a name space. -/
def sameKind : Resource → Resource → Bool
  | .project, .project | .ownedDefaultNetwork, .ownedDefaultNetwork | .bridge, .bridge
  | .ownedVolume _, .ownedVolume _ => true
  | _, _ => false

end Resource

def platformNetworkName : String := "solodock-services"

def platformBridgeName : String := "sd-services"

section Names

variable (sha256 : Bytes → Bytes)

def stableResourceToken (appId : Uuid) : String :=
  String.ofList (hex ((sha256 (bigEndian 16 appId)).take 6))

/-- What the bridge is named after. -/
def AppResourceIdentity.token (identity : AppResourceIdentity) : String :=
  match identity.schemaVersion with
  | .legacy => identity.slug
  | .current => stableResourceToken sha256 identity.appId

/-- `resource_names` and `owned_volume_name`. -/
def AppResourceIdentity.name (identity : AppResourceIdentity) : Resource → String
  | .project => projectName identity.slug
  | .ownedDefaultNetwork => "solodock-" ++ (identity.slug ++ "-default")
  | .bridge => "sd-" ++ identity.token sha256
  | .ownedVolume logicalName => "solodock-" ++ (identity.slug ++ ("." ++ logicalName))

/-- The names of the apps that share a name space differ, and none is a name of the platform. -/
structure Apart (share : Resource → Resource → Bool) (a b : AppResourceIdentity) : Prop where
  names : ∀ r r', share r r' → r.valid → r'.valid → a.name sha256 r ≠ b.name sha256 r'
  platform : ∀ identity ∈ [a, b], ∀ r : Resource, r.valid →
    identity.name sha256 r ∉ [platformNetworkName, platformBridgeName]

/-- No slug is that of the platform, and no legacy slug is the token of the other app. -/
structure Unambiguous (a b : AppResourceIdentity) : Prop where
  left : a.slug ≠ "services"
  right : b.slug ≠ "services"
  bridges : a.schemaVersion ≠ b.schemaVersion → a.token sha256 ≠ b.token sha256

/-! ## Equal names -/

variable {sha256} {a b : AppResourceIdentity}

theorem not_dot_mem {schema : NameSchema} {slug : String} (h : validSlug schema slug) :
    '.' ∉ slug.toList := by
  intro hmem
  simp only [validSlug, Bool.and_eq_true] at h
  have hchar := List.all_eq_true.mp h.1.1.2 '.' hmem
  revert hchar
  decide

theorem dot_append_inj {s t l m : List Char} (hs : '.' ∉ s) (ht : '.' ∉ t)
    (h : s ++ '.' :: l = t ++ '.' :: m) : s = t := by
  have hdrop : ∀ (u v : List Char), '.' ∉ u → (u ++ '.' :: v).takeWhile (· ≠ '.') = u := by
    intro u v hu
    have hother : ∀ c ∈ u, decide (c ≠ '.') = true := by
      intro c hc
      exact decide_eq_true fun heq => hu (heq ▸ hc)
    rw [List.takeWhile_append_of_pos hother]
    simp
  rw [← hdrop s l hs, h, hdrop t m ht]

theorem ne_dotted {s : String} (h : '.' ∉ s.toList) {t l : String} : s ≠ t ++ ("." ++ l) := by
  rintro rfl
  simp at h

theorem project_ne_bridge {s t : String} : "solodock-" ++ s ≠ "sd-" ++ t := by
  intro h
  have hlist := toList_inj.mpr h
  simp at hlist

theorem token_ne_services (ha : a.slug ≠ "services") : a.token sha256 ≠ "services" := by
  unfold AppResourceIdentity.token
  split
  · exact ha
  · -- the spelling of a token has only hexadecimal digits
    intro h
    have hlist : hex ((sha256 (bigEndian 16 a.appId)).take 6) = "services".toList := by
      rw [← h, stableResourceToken, String.toList_ofList]
    have hmem : 's' ∈ hex ((sha256 (bigEndian 16 a.appId)).take 6) := by
      rw [hlist]
      decide
    obtain ⟨byte, -, hchar⟩ := List.mem_flatMap.mp hmem
    have hdigit : ∀ n < 16, hexDigit n ≠ 's' := by decide
    have hlow : byte.toNat % 16 < 16 := Nat.mod_lt _ (by decide)
    have hhigh : byte.toNat / 16 < 16 := Nat.div_lt_of_lt_mul byte.toNat_lt
    rcases List.mem_cons.mp hchar with heq | hchar
    · exact hdigit _ hhigh heq.symm
    · exact hdigit _ hlow (List.mem_singleton.mp hchar).symm

/-- No resource of an app other than `services` has one of the platform's names. -/
theorem name_not_platform (hslug : a.slug ≠ "services") (r : Resource) :
    a.name sha256 r ∉ [platformNetworkName, platformBridgeName] := by
  have hnetwork : platformNetworkName = "solodock-" ++ "services" := by decide
  have hbridge : platformBridgeName = "sd-" ++ "services" := by decide
  have hlast : ∀ s : String, s ++ "-default" ≠ "services" := by
    intro s h
    have hlist := congrArg (fun t : String => t.toList.getLast?) h
    simp at hlist
  intro hmem
  rw [List.mem_cons, List.mem_singleton, hnetwork, hbridge] at hmem
  cases r with
  | project =>
    rcases hmem with heq | heq
    · exact hslug ((append_right_inj _).mp heq)
    · exact project_ne_bridge heq
  | ownedDefaultNetwork =>
    rcases hmem with heq | heq
    · exact hlast _ ((append_right_inj _).mp heq)
    · exact project_ne_bridge heq
  | bridge =>
    rcases hmem with heq | heq
    · exact project_ne_bridge heq.symm
    · exact token_ne_services hslug ((append_right_inj _).mp heq)
  | ownedVolume logicalName =>
    rcases hmem with heq | heq
    · exact ne_dotted (by decide) ((append_right_inj _).mp heq).symm
    · exact project_ne_bridge heq

/-- Equal names of two apps: a project and a network, where one slug continues the other. -/
theorem name_eq_cases (ha : validSlug a.schemaVersion a.slug)
    (hb : validSlug b.schemaVersion b.slug)
    (hslug : a.slug ≠ b.slug) (hbridges : a.token sha256 ≠ b.token sha256) {r r' : Resource}
    (h : a.name sha256 r = b.name sha256 r') :
    (r = .project ∧ r' = .ownedDefaultNetwork ∧ a.slug = b.slug ++ "-default") ∨
      (r = .ownedDefaultNetwork ∧ r' = .project ∧ b.slug = a.slug ++ "-default") := by
  have hdefault : ∀ {s : String}, '.' ∉ s.toList → '.' ∉ (s ++ "-default").toList := by
    intro s hs
    simpa using hs
  cases r with
  | project =>
    cases r' with
    | project => exact absurd ((append_right_inj _).mp h) hslug
    | ownedDefaultNetwork => exact .inl ⟨rfl, rfl, (append_right_inj _).mp h⟩
    | bridge => exact absurd h project_ne_bridge
    | ownedVolume l =>
      exact absurd ((append_right_inj _).mp h) (ne_dotted (not_dot_mem ha))
  | ownedDefaultNetwork =>
    cases r' with
    | project => exact .inr ⟨rfl, rfl, ((append_right_inj _).mp h).symm⟩
    | ownedDefaultNetwork =>
      exact absurd ((String.append_left_inj _).mp ((append_right_inj _).mp h)) hslug
    | bridge => exact absurd h project_ne_bridge
    | ownedVolume l =>
      exact absurd ((append_right_inj _).mp h) (ne_dotted (hdefault (not_dot_mem ha)))
  | bridge =>
    cases r' with
    | bridge => exact absurd ((append_right_inj _).mp h) hbridges
    | _ => exact absurd h.symm project_ne_bridge
  | ownedVolume l =>
    cases r' with
    | project =>
      exact absurd ((append_right_inj _).mp h).symm (ne_dotted (not_dot_mem hb))
    | ownedDefaultNetwork =>
      exact absurd ((append_right_inj _).mp h).symm (ne_dotted (hdefault (not_dot_mem hb)))
    | bridge => exact absurd h project_ne_bridge
    | ownedVolume m =>
      have hlist := toList_inj.mpr ((append_right_inj _).mp h)
      rw [String.toList_append, String.toList_append] at hlist
      exact absurd (toList_inj.mp (dot_append_inj (not_dot_mem ha) (not_dot_mem hb)
        (by simpa using hlist))) hslug

/-! ## Names of two apps -/

/-- Apps that are unambiguous have different tokens. -/
theorem Unambiguous.token_ne (h : Unambiguous sha256 a b) (hslug : a.slug ≠ b.slug)
    (htoken : stableResourceToken sha256 a.appId ≠ stableResourceToken sha256 b.appId) :
    a.token sha256 ≠ b.token sha256 := by
  by_cases hschema : a.schemaVersion = b.schemaVersion
  · unfold AppResourceIdentity.token
    rw [← hschema]
    cases a.schemaVersion with
    | legacy => exact hslug
    | current => exact htoken
  · exact h.bridges hschema

/-- Names that are apart, bridges included, leave no slug to be taken for a token. -/
theorem Apart.unambiguous {share : Resource → Resource → Bool} (hbridge : share .bridge .bridge)
    (h : Apart sha256 share a b) : Unambiguous sha256 a b := by
  have hservices : ∀ identity ∈ [a, b], identity.slug ≠ "services" := by
    intro identity hmem heq
    refine h.platform identity hmem .project rfl (List.mem_cons.mpr (.inl ?_))
    exact congrArg projectName heq
  refine ⟨hservices a (by simp), hservices b (by simp), fun _ heq => ?_⟩
  exact h.names .bridge .bridge hbridge rfl rfl (congrArg ("sd-" ++ ·) heq)

/-- With different slugs and different tokens: names of one kind differ, and are not the
platform's, exactly where no slug is the platform's and no legacy slug is the other's token.
For names of all kinds to differ, no slug may continue the other to its network's name. -/
theorem names_apart_iff (sha256 : Bytes → Bytes) (a b : AppResourceIdentity)
    (ha : validSlug a.schemaVersion a.slug) (hb : validSlug b.schemaVersion b.slug)
    (hslug : a.slug ≠ b.slug)
    (htoken : stableResourceToken sha256 a.appId ≠ stableResourceToken sha256 b.appId) :
    (Apart sha256 Resource.sameKind a b ↔ Unambiguous sha256 a b) ∧
      (Apart sha256 (fun _ _ => true) a b ↔ Unambiguous sha256 a b ∧
        a.slug ≠ b.slug ++ "-default" ∧ b.slug ≠ a.slug ++ "-default") := by
  have hplatform : Unambiguous sha256 a b → ∀ identity ∈ [a, b], ∀ r : Resource, r.valid →
      identity.name sha256 r ∉ [platformNetworkName, platformBridgeName] := by
    intro h identity hmem r _
    rcases List.mem_cons.mp hmem with rfl | hmem
    · exact name_not_platform h.left r
    · exact name_not_platform (List.mem_singleton.mp hmem ▸ h.right) r
  refine ⟨⟨fun h => h.unambiguous rfl, fun h => ⟨?_, hplatform h⟩⟩,
    ⟨fun h => ⟨h.unambiguous rfl, ?_, ?_⟩, fun h => ⟨?_, hplatform h.1⟩⟩⟩
  · intro r r' hkind _ _ heq
    rcases name_eq_cases ha hb hslug (h.token_ne hslug htoken) heq with
      ⟨rfl, rfl, -⟩ | ⟨rfl, rfl, -⟩ <;> cases hkind
  · intro heq
    exact h.names .project .ownedDefaultNetwork rfl rfl rfl (congrArg ("solodock-" ++ ·) heq)
  · intro heq
    exact h.names .ownedDefaultNetwork .project rfl rfl rfl (congrArg ("solodock-" ++ ·) heq.symm)
  · intro r r' _ _ _ heq
    rcases name_eq_cases ha hb hslug (h.1.token_ne hslug htoken) heq with
      ⟨-, -, hcontinues⟩ | ⟨-, -, hcontinues⟩
    · exact h.2.1 hcontinues
    · exact h.2.2 hcontinues

end Names

/-- Two apps of different schemas with nothing in common. -/
theorem web_api_apart :
    Apart Sha256.sha256 Resource.sameKind ⟨1, "web", .legacy⟩ ⟨2, "api", .current⟩ :=
  (names_apart_iff Sha256.sha256 ⟨1, "web", .legacy⟩ ⟨2, "api", .current⟩ (by decide) (by decide)
    (by decide) (by decide +kernel)).1.mpr
    ⟨by decide +kernel, by decide +kernel, by decide +kernel⟩

/-- The legacy app `services` has the platform's bridge, and a legacy slug may be the token of
another app. -/
theorem services_collide :
    validSlug .legacy "services" ∧ validSlug .legacy "692865c9a376" ∧
      stableResourceToken Sha256.sha256 1 ≠ stableResourceToken Sha256.sha256 2 ∧
      AppResourceIdentity.name Sha256.sha256 ⟨1, "services", .legacy⟩ .bridge =
        platformBridgeName ∧
      AppResourceIdentity.name Sha256.sha256 ⟨1, "services", .current⟩ .project =
        platformNetworkName ∧
      AppResourceIdentity.name Sha256.sha256 ⟨1, "692865c9a376", .legacy⟩ .bridge =
        AppResourceIdentity.name Sha256.sha256 ⟨2, "web", .current⟩ .bridge := by
  decide +kernel

end SoloDock.Apps
