import SoloDock.Webhook.Protocol
import SoloDock.Lib.Text
import SoloDock.Lib.Result

/-!
# The spelling of a signed request

Each header that `parse_headers` of `webhook/protocol.rs` accepts is the one spelling of its value,
and none holds a line feed. So the lines of a signing input are found again, and with them the app,
the timestamp, the nonce and the hash of the body.
-/

namespace SoloDock.Webhook

open Lib Lib.Text
open String (toList_inj toList_ofList)

theorem parseTimestamp_ok {timestamp : String} {t : Int} (h : parseTimestamp timestamp = .ok t) :
    t = decimalValue timestamp.toList ∧ (toString t).toList = timestamp.toList ∧
      '\n' ∉ timestamp.toList := by
  unfold parseTimestamp at h
  dsimp only at h
  split at h
  · cases h
  next hcanonical =>
    split at h
    next =>
      cases h
      simp only [not_or, Decidable.not_not, List.all_eq_true] at hcanonical
      obtain ⟨hne, hlead, hdigits⟩ := hcanonical
      refine ⟨rfl, ?_, fun hmem => absurd (hdigits _ hmem) (by decide)⟩
      show (Nat.repr _).toList = _
      rw [Nat.repr_eq_ofList_toDigits, toList_ofList, toDigits_decimalValue hdigits hne hlead]
    next => cases h

theorem checkNonce_ok {nonce : String} (h : checkNonce nonce = .ok ()) :
    ∃ decoded, decode64 nonce.toList = some decoded ∧ encode64 decoded = nonce.toList := by
  unfold checkNonce at h
  split at h
  · cases h
  next decoded hdecoded =>
    split at h
    next => cases h
    next hcanonical => exact ⟨decoded, hdecoded, (by simpa using hcanonical : _ ∧ _).2⟩

theorem parseSignature_ok {signature : String} {bytes : Bytes}
    (h : parseSignature signature = .ok bytes) :
    signature.toList = signatureVersion ++ hex bytes := by
  unfold parseSignature at h
  split at h
  next hversion =>
    dsimp only at h
    split at h
    next => cases h
    next hdigits =>
      cases h
      obtain ⟨digits, hdigits'⟩ := List.isPrefixOf_iff_prefix.mp hversion
      have hdrop : signature.toList.drop 3 = digits := by
        rw [← hdigits']
        rfl
      simp only [hdrop, not_or, Decidable.not_not, List.all_eq_true] at hdigits
      rw [hdrop, hex_unhex digits (by rw [hdigits.1]) hdigits.2, hdigits']
  next => cases h

variable {crypto : Crypto}

/-- Accepted headers are spelled as their values are written. -/
theorem parseHeaders_ok {timestamp nonce signature : String} {headers : VerifiedHeaders}
    (h : parseHeaders crypto timestamp nonce signature = .ok headers) :
    (headers.timestamp = decimalValue timestamp.toList ∧
      (toString headers.timestamp).toList = timestamp.toList ∧ '\n' ∉ timestamp.toList) ∧
      headers.nonce = nonce ∧
      (∃ decoded, decode64 nonce.toList = some decoded ∧ encode64 decoded = nonce.toList) ∧
      signature.toList = signatureVersion ++ hex headers.signature := by
  obtain ⟨t, htimestamp, h⟩ := bind_eq_ok.mp h
  obtain ⟨_, hnonce, h⟩ := bind_eq_ok.mp h
  obtain ⟨bytes, hsignature, h⟩ := bind_eq_ok.mp h
  cases h
  exact ⟨parseTimestamp_ok htimestamp, rfl, checkNonce_ok hnonce, parseSignature_ok hsignature⟩

/-- The parts of what is signed. -/
theorem signingInput_toList (appId : Uuid) (body : Bytes) (timestamp : Int) (nonce : String) :
    (signingInput crypto appId body timestamp nonce).toList = "solodock-webhook-v1\n".toList ++
      ((toString timestamp).toList ++ '\n' :: (nonce.toList ++ '\n' ::
        ("POST\n/hooks/v1/apps/".toList ++ ((uuidText appId).toList ++
          ("/registry\n".toList ++ hex (crypto.sha256 body)))))) := by
  have hline : "\n".toList = ['\n'] := by decide
  have hpath :
    "\nPOST\n/hooks/v1/apps/".toList = '\n' :: "POST\n/hooks/v1/apps/".toList := by decide
  unfold signingInput
  simp only [String.toList_append, toList_ofList, List.append_assoc, hline, hpath,
    List.cons_append, List.nil_append]

/-- What is signed determines the app, the body, the timestamp and the nonce, if the two bodies
have different hashes whenever they differ; and each header has one spelling. -/
theorem signing_input_unambiguous
    {timestamp timestamp' nonce nonce' signature signature' : String}
    {headers headers' : VerifiedHeaders}
    (h : parseHeaders crypto timestamp nonce signature = .ok headers)
    (h' : parseHeaders crypto timestamp' nonce' signature' = .ok headers')
    {appId appId' : Uuid} (happ : appId < 16 ^ 32) (happ' : appId' < 16 ^ 32)
    {body body' : Bytes} (hsha : crypto.sha256 body = crypto.sha256 body' → body = body') :
    (signingInput crypto appId body headers.timestamp headers.nonce =
        signingInput crypto appId' body' headers'.timestamp headers'.nonce →
      appId = appId' ∧ body = body' ∧ headers.timestamp = headers'.timestamp ∧
        headers.nonce = headers'.nonce) ∧
    (headers.timestamp = headers'.timestamp → decode64 nonce.toList = decode64 nonce'.toList →
      headers.signature = headers'.signature →
      timestamp = timestamp' ∧ nonce = nonce' ∧ signature = signature') := by
  obtain ⟨⟨hvalue, htext, hline⟩, rfl, ⟨decoded, hdecoded, hnonce⟩, hsignature⟩ := parseHeaders_ok h
  obtain ⟨⟨hvalue', htext', hline'⟩, rfl, ⟨decoded', hdecoded', hnonce'⟩, hsignature'⟩ :=
    parseHeaders_ok h'
  refine ⟨fun heq => ?_, fun htime hbytes hsame => ⟨?_, ?_, ?_⟩⟩
  · have hlist := congrArg String.toList heq
    rw [signingInput_toList, signingInput_toList, List.append_cancel_left_eq] at hlist
    obtain ⟨htime, hlist⟩ := cut_inj (htext ▸ hline) (htext' ▸ hline') hlist
    obtain ⟨hnonces, hlist⟩ := cut_inj (hnonce ▸ newline_notMem_encode64 _)
      (hnonce' ▸ newline_notMem_encode64 _) hlist
    obtain ⟨happs, hlist⟩ := List.append_inj (List.append_cancel_left hlist)
      ((length_uuidText _).trans (length_uuidText _).symm)
    have hhash := congrArg unhex (List.append_cancel_left hlist)
    rw [unhex_hex, unhex_hex] at hhash
    refine ⟨uuidText_inj happ happ' (toList_inj.mp happs), hsha hhash, ?_,
      toList_inj.mp hnonces⟩
    rw [hvalue, hvalue', ← htext, htime, htext']
  · exact toList_inj.mp (htext.symm.trans (by rw [htime, htext']))
  · rw [hdecoded, hdecoded', Option.some.injEq] at hbytes
    exact toList_inj.mp (hnonce.symm.trans (by rw [hbytes, hnonce']))
  · exact toList_inj.mp (hsignature.trans (by rw [hsame, hsignature']))

theorem apps_signed_apart :
    let crypto := Crypto.sha2 fun _ => false
    let nonce := String.ofList (List.replicate 22 'A')
    signingInput crypto 1 [] 0 nonce ≠ signingInput crypto 2 [] 0 nonce := by
  intro crypto nonce heq
  have h : parseHeaders crypto "0" nonce
      (String.ofList (signatureVersion ++ List.replicate 64 '0')) =
        .ok ⟨0, nonce, Sha256.sha256 (textBytes nonce), List.replicate 32 0⟩ :=
    ok_of_toOption (by decide +kernel)
  have hparts := (signing_input_unambiguous h h (by decide) (by decide) fun _ => rfl).1 heq
  cases hparts.1

end SoloDock.Webhook
