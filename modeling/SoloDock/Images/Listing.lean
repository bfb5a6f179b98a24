import SoloDock.Images.Site

/-!
# What the containers refer to

The first half of the safety of plans: a listing of the containers that was accepted is
complete. Every container in it is valid and known by one identity, together with the image
that Docker found for it (`Identified`), and every digest that Docker reported on the way is
among the references.
-/

namespace SoloDock.Images

open Lib Docker Registry Cleanup Lib.World
open List (forall_mem_cons mem_append mem_append_right mem_cons_of_mem mem_cons_self mem_singleton
  not_mem_nil)

/-- The calls of a plan, which change nothing. -/
def Call.reads : Call → Bool
  | .validateOperations => true
  | .imageProtectionInventory => true
  | .cleanupTombstones => true
  | .unfinishedOperations => true
  | .tombstoneReleases => true
  | .countCleaned => true
  | .cleanedPage _ => true
  | .cleanupItem _ _ => true
  | .commit => true
  | .formerAttempts _ => true
  | .allContainers => true
  | .inspect _ => true
  | _ => false

/-! ## Specification -/

def ManifestDescriptor.digests (d : Option ManifestDescriptor) : List String :=
  (d.bind (·.digest)).toList

/-- The digests that an answer of Docker reports. -/
def reported : Record → List String
  | ⟨_, .allContainers, .ok containers⟩ =>
    containers.flatMap fun c => c.imageId.toList ++ ManifestDescriptor.digests c.manifestDescriptor
  | ⟨_, .inspect _, .ok (some found)⟩ =>
    found.image.id :: ManifestDescriptor.digests found.image.manifestDescriptor
  | _ => []

/-- Docker was asked for an image and answered with it. -/
def Inspected (t : List Record) (id : ExactImageId) (found : CleanupImage) : Prop :=
  ∃ before, ⟨before, .inspect id, .ok (some found)⟩ ∈ t

/-- A descriptor that names an image completely. -/
structure Complete (d : ManifestDescriptor) : Prop where
  digest : ∃ digest, d.digest = some digest ∧ isDigest digest = true
  platform : ∃ os architecture platform, d.os = some os ∧ d.architecture = some architecture
    ∧ Platform.canonical os architecture d.variant = .ok platform

/-- One identity explains the image that was asked for, the one that was found, and the
container's descriptor. -/
def Agrees (descriptor : Option ManifestDescriptor) (asked : ExactImageId)
    (found : CleanupImage) : Prop :=
  ∃ i : ImageIdentity, i.matchesEngineImageId (some asked.value) = true
    ∧ i.matchesObservation (some found.image.id) found.image.manifestDescriptor = true
    ∧ ∀ d, descriptor = some d → d.digest = some i.manifestDigest

/-- The image of a container was found: the image itself, or an index together with the
child that the container's descriptor selects. -/
inductive Located (t : List Record) (c : ContainerRecord) : Prop where
  | image (asked : ExactImageId) (found : CleanupImage) (hasked : c.imageId = some asked.value)
      (hfound : Inspected t asked found) (hindex : found.isIndex = false)
      (hagrees : Agrees c.manifestDescriptor asked found)
  | child (asked selected : ExactImageId) (index found : CleanupImage)
      (hasked : c.imageId = some asked.value) (hindex : Inspected t asked index)
      (hid : index.image.id = asked.value)
      (hdigest : index.image.manifestDescriptor.bind (·.digest) = some asked.value)
      (hfound : Inspected t selected found) (hplain : found.isIndex = false)
      (hagrees : Agrees c.manifestDescriptor selected found)

/-- The listing of the containers is complete. -/
structure Identified (t : List Record) (containers : List ContainerRecord) : Prop where
  bounded : containers.length ≤ 4096
  distinct : (containers.map (·.id)).Nodup
  valid : ∀ c ∈ containers, validContainerId c.id = true
  complete : ∀ c ∈ containers, ∀ d, c.manifestDescriptor = some d → Complete d
  located : ∀ c ∈ containers, Located t c

variable {id asked : ExactImageId} {found : CleanupImage} {c : ContainerRecord}
  {d : ManifestDescriptor} {r : CleanedReleaseRecord} {platform : Platform} {digests : List String}
  {t u : List Record} {value : String} {i : ImageIdentity}

theorem Inspected.mono (h : Inspected t id found) (htu : t ⊆ u) : Inspected u id found :=
  h.imp fun _ hmem => htu hmem

theorem Located.mono (h : Located t c) (htu : t ⊆ u) : Located u c := by
  cases h with
  | image asked found hasked hfound hindex hagrees =>
    exact .image asked found hasked (hfound.mono htu) hindex hagrees
  | child asked selected index found hasked hindex hid hdigest hfound hplain hagrees =>
    exact .child asked selected index found hasked (hindex.mono htu) hid hdigest
      (hfound.mono htu) hplain hagrees

/-! ## The references of the containers -/

theorem isDigest_of_exact (h : exactImageId value = .ok id) : isDigest value = true := by
  rw [← exactImageId_ok h]
  exact id.exact

theorem descriptorDigest_ok {digest : String}
    (h : descriptorDigest d = .ok digest) : d.digest = some digest ∧ Complete d := by
  obtain ⟨value, hvalue, h⟩ := bind_eq_ok.mp h
  obtain ⟨id, hid, h⟩ := bind_eq_ok.mp h
  obtain ⟨os, hos, h⟩ := bind_eq_ok.mp h
  obtain ⟨architecture, harchitecture, h⟩ := bind_eq_ok.mp h
  obtain ⟨platform, hplatform, h⟩ := bind_eq_ok.mp h
  obtain rfl := pure_eq_ok.mp h
  have hdigest := required_ok hvalue
  refine ⟨hdigest, ⟨value, hdigest, isDigest_of_exact hid⟩, os, architecture, platform, ?_⟩
  exact ⟨required_ok hos, required_ok harchitecture, incomplete_ok hplatform⟩

theorem containerReference_ok {own : List String} (h : containerReference c = .ok own) :
    c.imageId.toList ++ ManifestDescriptor.digests c.manifestDescriptor ⊆ own
      ∧ ∀ d, c.manifestDescriptor = some d → Complete d := by
  obtain ⟨image, himage, h⟩ := bind_eq_ok.mp h
  obtain ⟨id, -, h⟩ := bind_eq_ok.mp h
  rw [required_ok himage]
  cases hd : c.manifestDescriptor with
  | none =>
    rw [hd] at h
    cases h
    exact ⟨List.Subset.refl _, fun _ heq => by cases heq⟩
  | some d =>
    rw [hd] at h
    obtain ⟨digest, hdigest, h⟩ := bind_eq_ok.mp h
    cases h
    obtain ⟨heq, hcomplete⟩ := descriptorDigest_ok hdigest
    refine ⟨?_, fun _ hsome => Option.some.inj hsome ▸ hcomplete⟩
    rw [ManifestDescriptor.digests, Option.bind_some, heq]
    exact List.Subset.refl _

variable {containers : List ContainerRecord} {references : List String}

theorem referencesFrom_ok {ids : List String} (h : referencesFrom ids containers = .ok references) :
    (containers.map (·.id)).Nodup ∧ (∀ c ∈ containers, c.id ∉ ids)
      ∧ (∀ c ∈ containers, validContainerId c.id = true)
      ∧ (∀ c ∈ containers, ∀ d, c.manifestDescriptor = some d → Complete d) ∧ ∀ c ∈ containers,
        c.imageId.toList ++ ManifestDescriptor.digests c.manifestDescriptor ⊆ references := by
  induction containers generalizing ids references with
  | nil => simp
  | cons c rest ih =>
    obtain ⟨hguard, h⟩ := guard_eq_ok.mp h
    obtain ⟨own, hown, h⟩ := bind_eq_ok.mp h
    obtain ⟨others, hothers, h⟩ := bind_eq_ok.mp h
    cases h
    obtain ⟨hnodup, hfresh, hvalid, hcomplete, hrefs⟩ := ih hothers
    obtain ⟨hownrefs, hown⟩ := containerReference_ok hown
    simp only [Bool.or_eq_true, Bool.not_eq_true', List.contains_iff_mem, not_or,
      Bool.not_eq_false] at hguard
    have hnew : c.id ∉ rest.map (·.id) := by
      intro hmem
      obtain ⟨other, hother, heq⟩ := List.mem_map.mp hmem
      exact hfresh other hother (heq ▸ mem_cons_self)
    refine ⟨List.nodup_cons.mpr ⟨hnew, hnodup⟩, forall_mem_cons.mpr ⟨hguard.2, ?_⟩,
      forall_mem_cons.mpr ⟨hguard.1, hvalid⟩, forall_mem_cons.mpr ⟨hown, hcomplete⟩,
      forall_mem_cons.mpr ⟨?_, ?_⟩⟩
    · exact fun other hother hmem => hfresh other hother (mem_cons_of_mem _ hmem)
    · exact fun d hd => List.mem_append_left _ (hownrefs hd)
    · exact fun other hother d hd => mem_append_right _ (hrefs other hother hd)

/-! ## The images of the containers -/

theorem matchesEngine_intro (h : id.value = i.configDigest ∨ id.value = i.manifestDigest) :
    i.matchesEngineImageId (some id.value) = true := by
  show (isDigest id.value && (decide _ || decide _)) = true
  rw [id.exact]
  simpa using h

/-- The descriptor of an image that an identity matches has its manifest's digest. -/
theorem digests_of_observation {descriptor : Option ManifestDescriptor}
    (h : i.matchesObservation (some value) descriptor = true) :
    ManifestDescriptor.digests descriptor ⊆ [i.manifestDigest] := by
  cases descriptor with
  | none => exact fun _ hd => (not_mem_nil hd).elim
  | some d =>
    have h := (Bool.and_eq_true _ _ ▸ h : _ ∧ _).2
    have h : i.matchesManifestDescriptor d = true := h
    unfold ImageIdentity.matchesManifestDescriptor at h
    split at h
    next digest os architecture hdigest _ _ =>
      simp only [Bool.and_eq_true, decide_eq_true_eq] at h
      rw [ManifestDescriptor.digests, Option.bind_some, hdigest, h.1.2]
      exact List.Subset.refl _
    · cases h

/-- The record for a container's descriptor `d`: the image that was asked for is one of its
digests. -/
theorem agrees_of_record (hmanifest : d.digest = some r.manifestDigest)
    (hasked : asked.value = r.localImageId ∨ asked.value = r.manifestDigest)
    (h : matchesInspect r found = .ok true) :
    found.isIndex = false ∧ Agrees (some d) asked found := by
  obtain ⟨i, hidentity, hplain, hobservation⟩ := matchesInspect_identity h
  obtain ⟨him, hic, -, -⟩ := identity_ok hidentity
  refine ⟨hplain, i, matchesEngine_intro ?_, hobservation, ?_⟩
  · rw [him, hic]
    exact hasked
  · intro d' hd'
    rw [← Option.some.inj hd', hmanifest, him]

theorem descriptorRecord_ok {manifest localImageId : String}
    (h : descriptorRecord d manifest localImageId = .ok r) :
    r.manifestDigest = manifest ∧ r.localImageId = localImageId := by
  obtain ⟨os, -, h⟩ := bind_eq_ok.mp h
  obtain ⟨architecture, -, h⟩ := bind_eq_ok.mp h
  cases h
  exact ⟨rfl, rfl⟩

theorem childAgrees_ok {selected : ExactImageId} {child : CleanupImage}
    (hd : d.digest = some selected.value) (h : childAgrees d selected child = .ok true) :
    child.isIndex = false ∧ Agrees (some d) selected child
      ∧ ManifestDescriptor.digests child.image.manifestDescriptor ⊆ [selected.value] := by
  obtain ⟨r, hr, h⟩ := bind_eq_ok.mp h
  obtain ⟨found, hfound, h⟩ := bind_eq_ok.mp h
  obtain ⟨i, -, h⟩ := bind_eq_ok.mp h
  have hall := pure_eq_ok.mp h
  obtain ⟨rfl, -⟩ : found = true ∧ _ := by simpa only [Bool.and_eq_true] using hall
  obtain ⟨hmanifest, -⟩ := descriptorRecord_ok hr
  obtain ⟨hplain, hagrees⟩ := agrees_of_record (hmanifest ▸ hd) (.inr hmanifest.symm) hfound
  refine ⟨hplain, hagrees, ?_⟩
  obtain ⟨i, hidentity, -, hobservation⟩ := matchesInspect_identity hfound
  rw [← hmanifest, ← (identity_ok hidentity).1]
  exact digests_of_observation hobservation

theorem describedImage_ok (hd : found.image.manifestDescriptor = some d)
    (h : describedImage asked found platform d = .ok digests) : Agrees none asked found
      ∧ ManifestDescriptor.digests found.image.manifestDescriptor ⊆ digests := by
  obtain ⟨digest, hdigest, h⟩ := bind_eq_ok.mp h
  obtain ⟨i, -, h⟩ := bind_eq_ok.mp h
  obtain ⟨hguard, h⟩ := guard_eq_ok.mp h
  cases h
  simp only [Bool.or_eq_true, Bool.not_eq_true', not_or, Bool.not_eq_false] at hguard
  rw [hd]
  constructor
  · exact ⟨i, hguard.2, hd ▸ hguard.1, fun _ heq => by cases heq⟩
  · rw [ManifestDescriptor.digests, Option.bind_some, required_ok hdigest]
    exact List.Subset.refl _

theorem plainImage_ok (hd : found.image.manifestDescriptor = none)
    (h : plainImage asked found platform = .ok digests) : Agrees none asked found := by
  unfold plainImage at h
  split at h
  next heq =>
    -- the engine knows the image by the id that was asked for
    have hmatch : ImageIdentity.matchesEngineImageId ⟨asked.value, asked.value, platform⟩
        (some asked.value) = true := matchesEngine_intro (.inl rfl)
    refine ⟨⟨asked.value, asked.value, platform⟩, hmatch, ?_, fun _ hnone => by cases hnone⟩
    rw [hd, ← heq]
    exact Bool.and_eq_true _ _ ▸ ⟨hmatch, rfl⟩
  · obtain ⟨i, hi, h⟩ := bind_eq_ok.mp h
    obtain ⟨hguard, -⟩ := guard_eq_ok.mp h
    simp only [Bool.or_eq_true, Bool.not_eq_true', not_or, Bool.not_eq_false] at hguard
    refine ⟨i, matchesEngine_intro (.inr ?_), hd ▸ hguard.2, fun _ hnone => by cases hnone⟩
    exact (new_ok (incomplete_ok hi)).1.symm

theorem imageDigests_ok (h : imageDigests asked found platform = .ok digests) :
    Agrees none asked found
      ∧ ManifestDescriptor.digests found.image.manifestDescriptor ⊆ digests := by
  unfold imageDigests at h
  split at h
  next d hd => exact describedImage_ok hd h
  next hd =>
    refine ⟨plainImage_ok hd h, ?_⟩
    rw [hd]
    exact fun _ hmem => (not_mem_nil hmem).elim

theorem containerAgrees_ok
    (hfound : Agrees none asked found) (h : containerAgrees c asked found = .ok true) :
    Agrees c.manifestDescriptor asked found := by
  unfold containerAgrees at h
  split at h
  next hd =>
    rw [hd]
    exact hfound
  next d hd =>
    rw [hd]
    obtain ⟨manifest, hmanifest, h⟩ := bind_eq_ok.mp h
    obtain ⟨r, hr, h⟩ := bind_eq_ok.mp h
    obtain ⟨hm, hl⟩ := descriptorRecord_ok hr
    refine (agrees_of_record (hm ▸ required_ok hmanifest) ?_ h).2
    rw [hm, hl]
    by_cases heq : asked.value = manifest
    · exact .inr heq
    · rw [if_neg heq]
      exact .inl rfl

theorem observeImage_ok (h : observeImage c asked found platform = .ok digests) :
    Agrees c.manifestDescriptor asked found
      ∧ ManifestDescriptor.digests found.image.manifestDescriptor ⊆ digests := by
  obtain ⟨own, hown, h⟩ := bind_eq_ok.mp h
  obtain ⟨agrees, hagrees, h⟩ := bind_eq_ok.mp h
  cases agrees with
  | false => cases h
  | true =>
    cases h
    obtain ⟨hfound, hdigests⟩ := imageDigests_ok hown
    exact ⟨containerAgrees_ok hfound hagrees, hdigests⟩

/-! ## Runs -/

section Runs

variable {w w' : Site} {t : List Record}

theorem inspectImage_runs (h : siteWorld.Runs (inspectImage id) w t (.ok found) w') :
    t = [⟨w, .inspect id, .ok (some found)⟩] ∧ w' = w := by
  obtain ⟨answer, u, ht, hrest⟩ := runs_ask_bind h
  obtain ⟨image, hanswer, hrest⟩ := runs_orElse_bind hrest
  have hanswer : answer = .ok image := hanswer
  cases image with
  | none => cases hrest.2.1
  | some image =>
    obtain ⟨rfl, rfl, rfl⟩ := runs_pure hrest
    rw [ht, hanswer]
    exact ⟨rfl, rfl⟩

theorem reported_inspect (hid : found.image.id ∈ digests)
    (hdescriptor : ManifestDescriptor.digests found.image.manifestDescriptor ⊆ digests) :
    ∀ e ∈ ([⟨w, .inspect id, .ok (some found)⟩] : List Record), reported e ⊆ digests := by
  intro e he
  rw [mem_singleton.mp he]
  exact List.cons_subset.mpr ⟨hid, hdescriptor⟩

theorem observeIndex_runs {index : CleanupImage}
    (h : siteWorld.Runs (observeIndex c asked index) w t (.ok digests) w') :
    w' = w ∧ index.image.id = asked.value
      ∧ index.image.manifestDescriptor.bind (·.digest) = some asked.value
      ∧ (∀ e ∈ t, reported e ⊆ digests)
      ∧ ∃ selected found, Inspected t selected found ∧ found.isIndex = false
        ∧ Agrees c.manifestDescriptor selected found := by
  obtain ⟨hindex, h⟩ := runs_ensure_bind h
  obtain ⟨descriptor, hdescriptor, h⟩ := runs_orStop_bind h
  obtain ⟨digest, hdigest, h⟩ := runs_orStop_bind h
  obtain ⟨selected, hselected, h⟩ := runs_accept_bind h
  obtain ⟨-, h⟩ := runs_ensure_bind h
  obtain ⟨child, v, t1, t2, hchild, h, ht⟩ := runs_bind h
  obtain ⟨agrees, hagrees, h⟩ := runs_accept_bind h
  obtain ⟨rfl, h⟩ := runs_ensure_bind h
  obtain ⟨rfl, rfl, rfl⟩ := runs_pure h
  obtain ⟨rfl, rfl⟩ := inspectImage_runs hchild
  obtain ⟨hplain, hagrees, hdigests⟩ := childAgrees_ok (exactImageId_ok hselected ▸ hdigest) hagrees
  simp only [Bool.and_eq_true, beq_iff_eq] at hindex
  rw [ht, hdescriptor]
  refine ⟨rfl, hindex.1, hindex.2, ?_, selected, child, ⟨_, mem_singleton.mpr rfl⟩, hplain, hagrees⟩
  exact reported_inspect mem_cons_self fun d hd => mem_cons_of_mem _ (hdigests hd)

theorem observeContainer_runs (h : siteWorld.Runs (observeContainer c) w t (.ok digests) w') :
    w' = w ∧ Located t c ∧ ∀ e ∈ t, reported e ⊆ digests := by
  obtain ⟨image, himage, h⟩ := runs_orStop_bind h
  obtain ⟨asked, hasked, h⟩ := runs_accept_bind h
  obtain ⟨found, v, t1, t2, hfound, h, ht⟩ := runs_bind h
  obtain ⟨imageId, himageId, h⟩ := runs_accept_bind h
  obtain ⟨platform, -, hrest⟩ := runs_accept_bind h
  obtain ⟨rfl, rfl⟩ := inspectImage_runs hfound
  have hasked : c.imageId = some asked.value := by rw [himage, exactImageId_ok hasked]
  have hid : imageId.value = found.image.id := exactImageId_ok himageId
  split at hrest
  next hindex =>
    obtain ⟨others, v', t3, t4, hothers, hpure, ht'⟩ := runs_bind hrest
    obtain ⟨rfl, rfl, rfl⟩ := runs_pure hpure
    obtain ⟨rfl, heq, hdigest, hreported, selected, child, hchild, hplain, hagrees⟩ :=
      observeIndex_runs hothers
    rw [ht, ht', List.nil_append]
    refine ⟨rfl, .child asked selected found child hasked
      ⟨_, mem_append_right _ (mem_singleton.mpr rfl)⟩ heq hdigest
      (hchild.mono (List.subset_append_left _ _)) hplain hagrees, ?_⟩
    intro e he
    rcases mem_append.mp he with he | he
    · exact fun d hd => mem_cons_of_mem _ (hreported e he hd)
    · -- the digest in the index's own descriptor is its id
      refine reported_inspect (hid ▸ mem_cons_self) ?_ e he
      rw [ManifestDescriptor.digests, hdigest, ← heq, ← hid]
      exact List.cons_subset.mpr ⟨mem_cons_self, List.nil_subset _⟩
  next hplain =>
    obtain ⟨others, hothers, hpure⟩ := runs_accept_bind hrest
    obtain ⟨rfl, rfl, rfl⟩ := runs_pure hpure
    obtain ⟨hagrees, hdigests⟩ := observeImage_ok hothers
    rw [ht, List.nil_append]
    refine ⟨rfl, .image asked found hasked ⟨_, mem_singleton.mpr rfl⟩
      (by simpa using hplain) hagrees, ?_⟩
    exact reported_inspect (hid ▸ mem_cons_self) fun d hd => mem_cons_of_mem _ (hdigests hd)

theorem observeContainers_runs
    (h : siteWorld.Runs (observeContainers containers) w t (.ok digests) w') :
    w' = w ∧ (∀ c ∈ containers, Located t c) ∧ ∀ e ∈ t, reported e ⊆ digests := by
  induction containers generalizing w t digests with
  | nil =>
    obtain ⟨rfl, -, rfl⟩ := runs_pure h
    exact ⟨rfl, fun _ hc => (not_mem_nil hc).elim, fun _ he => (not_mem_nil he).elim⟩
  | cons c rest ih =>
    rw [observeContainers] at h
    obtain ⟨own, v, t1, t2, hown, hrest, rfl⟩ := runs_bind h
    obtain ⟨others, v', t3, t4, hothers, hpure, ht⟩ := runs_bind hrest
    obtain ⟨rfl, rfl, rfl⟩ := runs_pure hpure
    obtain rfl : t2 = t3 := ht
    obtain ⟨rfl, hlocated, hreported⟩ := observeContainer_runs hown
    obtain ⟨rfl, hlocateds, hreporteds⟩ := ih hothers
    refine ⟨rfl, forall_mem_cons.mpr ⟨?_, ?_⟩, ?_⟩
    · exact hlocated.mono (List.subset_append_right _ _)
    · exact fun other hother => (hlocateds other hother).mono (List.subset_append_left _ _)
    · intro e he d hd
      rcases mem_append.mp he with he | he
      · exact mem_append_right _ (hreporteds e he hd)
      · exact List.mem_append_left _ (hreported e he hd)

/-- A listing that was accepted is complete, and everything reported is a reference. -/
theorem listContainers_runs
    (h : siteWorld.Runs listContainers w t (.ok (containers, references)) w') :
    w' = w ∧ (∃ before, ⟨before, .allContainers, .ok containers⟩ ∈ t) ∧ Identified t containers
      ∧ ∀ e ∈ t, reported e ⊆ references := by
  obtain ⟨answer, u, ht, h⟩ := runs_ask_bind h
  obtain ⟨listed, hanswer, h⟩ := runs_orElse_bind h
  obtain ⟨own, hown, h⟩ := runs_accept_bind h
  obtain ⟨observed, v, t1, t2, hobserved, h, hu⟩ := runs_bind h
  obtain ⟨rfl, heq, rfl⟩ := runs_pure h
  obtain ⟨rfl, rfl⟩ := Prod.mk.inj heq
  obtain ⟨rfl, hlocated, hreported⟩ := observeContainers_runs hobserved
  have hanswer : answer = .ok listed := hanswer
  obtain ⟨hbounded, hown⟩ := guard_eq_ok.mp hown
  obtain ⟨hnodup, -, hvalid, hcomplete, hrefs⟩ := referencesFrom_ok hown
  rw [ht, hu, hanswer]
  refine ⟨rfl, ⟨_, mem_append_right _ (mem_singleton.mpr rfl)⟩,
    ⟨Nat.le_of_not_lt hbounded, hnodup, hvalid, hcomplete, ?_⟩, ?_⟩
  · exact fun c hc => (hlocated c hc).mono (List.subset_append_left _ _)
  · intro e he d hd
    rcases mem_append.mp he with he | he
    · exact mem_append_right _ (hreported e he hd)
    · rw [mem_singleton.mp he] at hd
      obtain ⟨c, hc, hd⟩ := List.mem_flatMap.mp hd
      exact List.mem_append_left _ (hrefs c hc hd)

end Runs

end SoloDock.Images
