import SoloDock.Apps.Applied
import SoloDock.Registry.Published
import SoloDock.Settings.Stored

/-!
# A 4xx and the stored configuration

Apps, drafts, credentials and settings are each stored by one write, and the record of the
request is closed by another. A request whose process dies in between is resumed under its
key, and has to find out that it was stored: an app, a draft or a credential carries the
operation that wrote it last, the settings are compared by value. Whatever another request
writes in between hides that, and the resumed request is then rejected.

The theorem puts the three services together; the counterexample has one history for each.
-/

namespace SoloDock.Recovery

open Lib Mutation

/-- In every history in which a request that was stored is recognised when it is resumed, no
rejected request has stored an app, a draft, a credential or the settings. -/
theorem rejected_stored_nothing (timezones : List String) (settings : Settings.GlobalSettings)
    (initialized : Bool) :
    (∀ steps : List Apps.appService.Step,
      Along Apps.appService.step (fun s => Apps.appService.Allowed (Apps.Vouches s.world)
        (fun _ _ => True) (fun _ _ => True) s) ⟨.empty, []⟩ steps →
      ∀ r ∈ (play Apps.appService.step ⟨.empty, []⟩ steps).world.ledger,
        r.request.stores = true → r.rejected = true →
        r.operationId ∉ (play Apps.appService.step ⟨.empty, []⟩ steps).world.published) ∧
    (∀ steps : List Credentials.credentialService.Step,
      Along Credentials.credentialService.step (Credentials.credentialService.Allowed
        Credentials.Recognises (fun _ _ => True) (fun _ _ => True)) ⟨.empty, []⟩ steps →
      ∀ r ∈ (play Credentials.credentialService.step ⟨.empty, []⟩ steps).world.ledger,
        r.request.stores = true → r.rejected = true →
        r.operationId ∉
          (play Credentials.credentialService.step ⟨.empty, []⟩ steps).world.published) ∧
    (∀ steps : List Settings.settingsService.Step,
      Along Settings.settingsService.step (Settings.settingsService.Allowed Settings.Finds
        (fun _ _ => True) (fun _ _ => True)) ⟨.start timezones settings initialized, []⟩ steps →
      ∀ r ∈ (play Settings.settingsService.step
          ⟨.start timezones settings initialized, []⟩ steps).world.ledger,
        r.rejected = true →
        r.operationId ∉ (play Settings.settingsService.step
          ⟨.start timezones settings initialized, []⟩ steps).world.published) :=
  ⟨fun _ h => Apps.rejected_not_published h,
    fun _ h => Credentials.rejected_not_published h,
    fun _ h => Settings.rejected_not_stored timezones settings initialized h⟩

/-! ## A request that is stored and resumed

The process dies after `calls` calls of the first request, and what comes `between` is served
before the first is sent again; what comes `after` is served last. -/

def draftOf (key : String) (expected : Option Uuid) : Apps.Query :=
  ⟨key, .updateDraft 0 expected ⟨false, false, "draft"⟩, "session", 3⟩

def resumedDraft (calls : Nat) (between after : List Apps.Query) : List Apps.appService.Step :=
  let served (q : Apps.Query) : List Apps.appService.Step :=
    [.receive (.request q) Apps.calm, .serve 0 Apps.calm]
  let first := draftOf "draft-0000000001" none
  served Apps.sampleCreate ++ [.receive (.request first) Apps.calm, .giveUp 0 calls Apps.calm,
    .restart Apps.calm] ++ between.flatMap served ++ served first ++ after.flatMap served

def resumedCredential (calls : Nat) (between after : List Credentials.Query) :
    List Credentials.credentialService.Step :=
  let served (q : Credentials.Query) : List Credentials.credentialService.Step :=
    [.receive (.request q) Credentials.calm, .serve 0 Credentials.calm]
  let first := Credentials.sampleCreate
  [.receive (.request first) Credentials.calm, .giveUp 0 calls Credentials.calm,
    .restart Credentials.calm] ++ between.flatMap served ++ served first ++ after.flatMap served

def resumedSettings (calls : Nat) (between after : List Settings.Query) :
    List Settings.settingsService.Step :=
  let served (q : Settings.Query) : List Settings.settingsService.Step :=
    [.receive q Settings.calm, .serve 0 Settings.calm]
  let first : Settings.Query := ⟨"settings-0000001", 0, "Asia/Tokyo", [], 1⟩
  [.receive first Settings.calm, .giveUp 0 calls Settings.calm, .restart Settings.calm]
    ++ between.flatMap served ++ served first ++ after.flatMap served

def afterDraft (between after : List Apps.Query) : Apps.Host :=
  (play Apps.appService.step ⟨.empty, []⟩ (resumedDraft 7 between after)).world

def afterCredential (between after : List Credentials.Query) : Credentials.Vault :=
  (play Credentials.credentialService.step ⟨.empty, []⟩ (resumedCredential 7 between after)).world

def afterSettings (between after : List Settings.Query) : Settings.Config :=
  (play Settings.settingsService.step ⟨.start ["UTC", "Asia/Tokyo"] ⟨0, "UTC", []⟩ true, []⟩
    (resumedSettings 2 between after)).world

/-- A second request of each kind, which expects the revision it is given. -/
def laterDraft (expected : Option Uuid) : List Apps.Query := [draftOf "draft-0000000002" expected]

def laterCredential (expected : Uuid) : List Credentials.Query :=
  [⟨"update-000000001", .update 0 expected "other" none, 2⟩]

def laterSettings (expected : Uuid) : List Settings.Query :=
  [⟨"settings-0000002", expected, "UTC", [], 2⟩]

/-- The statuses that the ledger's records answer with. -/
def statuses {κ ρ β : Type} (l : Ledger κ ρ β) : List (Uuid × Option Nat) :=
  l.map fun r => (r.operationId, r.response.map (·.1))

/-- Each first request is stored before the process dies, and recognised when it is resumed; a
second one, which expects a former revision, is rejected and has stored nothing. -/
theorem resumed_requests_recognised :
    (let w := afterDraft [] (laterDraft none);
      (w.published = [1, 0] ∧
        statuses w.ledger = [(0, some 201), (1, some 200), (3, some 409)]) ∧
      ∀ r ∈ w.ledger, r.request.stores = true → r.rejected = true → r.operationId ∉ w.published) ∧
    (let w := afterCredential [] (laterCredential 7);
      (w.published = [0] ∧ statuses w.ledger = [(0, some 201), (8, some 409)]) ∧
      ∀ r ∈ w.ledger, r.request.stores = true → r.rejected = true → r.operationId ∉ w.published) ∧
    (let w := afterSettings [] (laterSettings 0);
      (w.published = [1] ∧ statuses w.ledger = [(1, some 200), (4, some 409)]) ∧
      ∀ r ∈ w.ledger, r.rejected = true → r.operationId ∉ w.published) :=
  have hnothing := rejected_stored_nothing ["UTC", "Asia/Tokyo"] ⟨0, "UTC", []⟩ true
  ⟨⟨by decide +kernel, hnothing.1 _ (by decide +kernel)⟩,
    ⟨by decide +kernel, hnothing.2.1 _ (by decide +kernel)⟩,
    ⟨by decide +kernel, hnothing.2.2 _ (by decide +kernel)⟩⟩

/-- When the second request comes in between, the first is stored and rejected. -/
theorem overtaken_requests_stored :
    (let w := afterDraft (laterDraft (some 1)) [];
      ∃ r ∈ w.ledger, r.rejected = true ∧ r.operationId ∈ w.published) ∧
    (let w := afterCredential (laterCredential 0) [];
      ∃ r ∈ w.ledger, r.rejected = true ∧ r.operationId ∈ w.published) ∧
    (let w := afterSettings (laterSettings 2) [];
      ∃ r ∈ w.ledger, r.rejected = true ∧ r.operationId ∈ w.published) := by
  decide +kernel

end SoloDock.Recovery
