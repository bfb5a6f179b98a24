import SoloDock.Deploy.Engine

/-!
# What the engine's looking functions call

A run is held to account by what its calls may change. A function that only looks at the
app fits every such account; its calls are listed here once.
-/

namespace SoloDock.Deploy

open Lib Lib.Prog Registry Docker

/-- The calls that look at the app: its metadata and the containers of its project. -/
def Observes : Call → Bool
  | .readMetadata .. | .listComposeAppContainers .. => true
  | _ => false

variable {p : Call → Prop} {α : Type} {e : Call} {err : EngineError} {appId : Uuid}

theorem only_orStop_call {k : e.Answer → Option α} (he : p e) :
    (Prog.call e fun r => orStop (k r) err : EngineProg α).Only p :=
  ⟨he, fun _ => only_orStop _ _⟩

theorem only_orElse_call {k : e.Answer → Except ε' α} {f : ε' → EngineError} (he : p e) :
    (Prog.call e fun r => orElse (k r) f : EngineProg α).Only p :=
  ⟨he, fun _ => only_orElse _ _⟩

theorem only_get {f : e.Answer → Option α} {k : α → EngineProg β} (he : p e)
    (hk : ∀ a, (k a).Only p) :
    ((Prog.call e fun r => orStop (f r) err : EngineProg α) >>= k).Only p :=
  only_bind (only_orStop_call he) hk

theorem preflight_observes {release : Option Uuid} {containerId : Option String} :
    (preflight appId release containerId).Only fun e => Observes e = true := by
  refine only_bind (only_get rfl fun _ => only_pure _) fun app => ?_
  refine only_get rfl fun candidates => ?_
  split
  · exact only_ensure_bind fun _ => only_pure _
  · exact only_orStop_bind fun _ => only_ensure_bind fun _ => only_pure _
  · exact only_stop _

theorem observeOwnedCandidate_observes {release : Uuid} {oldId : Option String} :
    (observeOwnedCandidate appId release oldId).Only fun e => Observes e = true := by
  refine only_bind (only_get rfl fun _ => only_pure _) fun app => ?_
  refine only_get rfl fun candidates => ?_
  split
  · exact only_orStop_bind fun _ => only_ensure_bind fun _ => only_ensure_bind fun _ => only_pure _
  · exact only_stop _

theorem pollTarget_only (record : Record) (metadata : AppMetadata) {F : Call → Prop} :
    (pollTarget record metadata).Only F := by
  refine only_ensure_bind fun _ => only_orStop_bind fun _ => ?_
  refine only_ensure_bind fun _ => only_orElse_bind fun _ => ?_
  refine only_orStop_bind fun _ => only_orStop_bind fun _ => ?_
  refine only_orStop_bind fun _ => only_orElse_bind fun _ => ?_
  refine only_orStop_bind fun _ => only_orStop_bind fun _ => ?_
  exact only_orElse_bind fun _ => only_orStop_bind fun _ => only_pure _

theorem loadCredentialRef_only {F : Call → Prop} {credentialRef : Option Uuid}
    {image : ImageReference} (h : ∀ id registry, F (.loadCredential id registry)) :
    (loadCredentialRef credentialRef image).Only F := by
  cases credentialRef with
  | none => exact only_pure _
  | some id =>
    exact only_bind (only_orStop_call (h _ _)) fun _ => only_ensure_bind fun _ => only_pure _

end SoloDock.Deploy
