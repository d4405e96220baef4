import Radian.Amf.Identity

/-!
# Handlers and identities

What the handlers of a registered UE do is proper and leaves every context bound; so does the return of an
idle one, whose context is taken up under a new id.

- `keeps_onSecurityModeComplete`, …, `keeps_onNetworkModification` — the handlers of a connected UE.
- `Vacant` — an id under which a UE is taken up.
- `assured_onServiceRequest` — the return of an idle one.
-/

namespace Radian.Amf.Identity

open Keyed (Map)
open Nas (Nas5gmmMessage NasSecurityContext Snssai Tac UlNasTransport)
open Proc (assured)
open Security (Bytes)

variable {N : HomeNetwork} {F : Functions} {tx : Channel} {start : Tables} {held : Held}
  {amfUeId : AmfUeId} {c : UeContext}

/-! ### Registration -/

theorem keeps_spawnAmPolicyDelete (amPolicy : Option (String × String)) :
    Keeps N F tx start held held (spawnAmPolicyDelete amfUeId amPolicy) := by
  unfold spawnAmPolicyDelete
  split
  · exact .spawnFor rfl
  · exact .pure _

theorem keeps_spawnSdmUnsubscribe {supi : String} (hc : c.suci = some supi) :
    Keeps N F tx start (some (amfUeId, c)) (some (amfUeId, c)) (spawnSdmUnsubscribe amfUeId supi) := by
  refine .bind (.actShared fun t => ⟨fun _ _ => id, fun _ _ => id, fun _ _ => id⟩) fun subId => ?_
  cases subId with
  | none => exact .pure _
  | some subId => exact .spawnForAs rfl hc

theorem keeps_fetchAmData {supi : String} (hc : c.suci = some supi) :
    Keeps N F tx start (some (amfUeId, c)) (some (amfUeId, c)) (fetchAmData amfUeId supi) := by
  refine .bind (.callFor rfl) fun udm => ?_
  cases udm with
  | none => exact .pure _
  | some udm =>
    refine .bind (.callForAs rfl hc) fun am => ?_
    cases am <;> exact .pure _

theorem keeps_createAmPolicy {supi : String} (hc : c.suci = some supi) :
    Keeps N F tx start (some (amfUeId, c)) (some (amfUeId, c)) (createAmPolicy amfUeId supi) := by
  refine .bind (.callFor rfl) fun pcf => ?_
  cases pcf with
  | none => exact .pure _
  | some pcf =>
    refine .bind (.callForAs rfl hc) fun am => ?_
    cases am <;> exact .pure _

theorem keeps_selectSlices (tac : Option Tac) (requested subscribed : List Snssai) :
    Keeps N F tx start held held (selectSlices amfUeId tac requested subscribed) := by
  refine .bind (.callFor rfl) fun nssf => ?_
  cases nssf with
  | none => exact .pure _
  | some nssf => exact .callFor rfl

theorem keeps_rejectRegistration (c : UeContext) (sec : NasSecurityContext) (rejected : List Snssai) :
    Keeps N F tx start held none (rejectRegistration F amfUeId c sec rejected) := by
  have hdrop : ∀ dls : List Downlink, Keeps N F tx start held none (do removeUe amfUeId; return dls) :=
    fun _ => .bind .removeUe fun _ => .pure _
  unfold rejectRegistration
  dsimp only
  split
  · exact .bind (.change (fewer_unaddressed _)) fun _ => hdrop _
  · exact hdrop _

theorem keeps_acceptRegistration {c c' : UeContext} (hc : Alike c c') (sec : NasSecurityContext)
    (allowed rejected : List Snssai) :
    Keeps N F tx start (some (amfUeId, c)) none
      (acceptRegistration F amfUeId c' sec (amfUeId.setWidth 32) allowed rejected) := by
  have hsend : ∀ (c' : UeContext) (dls : List Downlink), Alike c c' →
      Keeps N F tx start (some (amfUeId, c)) none (do
        insertUe amfUeId c'
        arm (.nasRetx · amfUeId .RegistrationAccept)
        return dls) :=
    fun _ _ hc => .bind (.insertUe hc) fun _ => .bind (.arm _) fun _ => .done _
  unfold acceptRegistration
  dsimp only
  split
  · rename_i supi hsuci
    refine .bind (.assignGuti (hc.suci.symm.trans hsuci)) fun _ => ?_
    split <;> exact hsend _ _ ⟨hc.suci, hc.auth, hc.kamf, hc.state⟩
  · split <;> exact hsend _ _ ⟨hc.suci, hc.auth, hc.kamf, hc.state⟩

theorem keeps_answerSecurityMode (subscribed : Option (List Snssai)) (ueAmbr : Option UeAmbr)
    (am : Option (String × String × PolicyAssociation)) (decision : Option (List Snssai × List Snssai)) :
    Keeps N F tx start held none (answerSecurityMode F amfUeId subscribed ueAmbr am decision) := by
  refine .getUe_bind (.done _) fun c => ?_
  have hpolicy : ∀ tmsi nssai,
      Alike c { c.withPolicy ueAmbr am with gutiTmsi := tmsi, allowedNssai := nssai } := by
    intro tmsi nssai
    unfold UeContext.withPolicy UeContext.recomputeUeAmbr
    cases am <;> exact ⟨rfl, .inl rfl, rfl, id⟩
  dsimp only
  -- whatever the slices, the context is kept, refused or accepted
  split <;> split <;> split
  all_goals first
    | exact .bind (.insertUe (hpolicy _ _)) fun _ => .done _
    | exact keeps_rejectRegistration _ _ _
    | exact keeps_acceptRegistration (hpolicy _ _) _ _ _

theorem keeps_onSecurityModeComplete :
    Keeps N F tx start held none (onSecurityModeComplete F amfUeId) := by
  refine .bind (.modifyUe fun c => ⟨rfl, .inl rfl, rfl, id⟩) fun _ => .getUe_bind (.done _) fun c => ?_
  dsimp only
  cases hsuci : c.suci with
  | none => exact keeps_answerSecurityMode none none none none
  | some supi =>
    refine .bind (keeps_fetchAmData hsuci) fun am => .bind (keeps_createAmPolicy hsuci) fun _ => ?_
    obtain ⟨subscribed, ueAmbr⟩ := am
    cases subscribed with
    | none => exact .bind (.pure _) fun _ => keeps_answerSecurityMode _ _ _ _
    | some subscribed =>
      exact .bind (keeps_selectSlices _ _ _) fun _ => keeps_answerSecurityMode _ _ _ _

theorem keeps_onRegistrationComplete :
    Keeps N F tx start held none (onRegistrationComplete F amfUeId) := by
  refine .getUe_bind (.done _) fun c => ?_
  have hregister : ∀ c : UeContext,
      Alike c { c with state := .Registered, pendingRetx := none, cblSlot := false } :=
    fun c => ⟨rfl, .inl rfl, rfl, fun h => by cases h⟩
  refine .bind (.mark rfl rfl) fun _ => .bind (.modifyUe hregister) fun _ => ?_
  cases hsuci : c.suci with
  | none =>
    cases c.sec with
    | none => exact .done _
    | some sec => exact .bind (.modifyUe fun c => ⟨rfl, .inl rfl, rfl, id⟩) fun _ => .done _
  | some supi =>
    refine .bind (.spawnForAs rfl hsuci) fun _ => .bind (.spawnForAs rfl hsuci) fun _ => ?_
    cases c.sec with
    | none => exact .done _
    | some sec => exact .bind (.modifyUe fun c => ⟨rfl, .inl rfl, rfl, id⟩) fun _ => .done _

/-! ### Deregistration and sessions -/

theorem keeps_releaseSessions (sessions : List (String × String)) :
    Keeps N F tx start held held (releaseSessions amfUeId sessions) :=
  .forEach (fun _ => .bind (.callFor rfl) fun _ => .pure _) sessions

theorem keeps_takeSessions : Keeps N F tx start held held (takeSessions amfUeId) :=
  fun _ _ _ h => ⟨Keeps.proper_move (.refl _), h.modify fun _ => ⟨rfl, .inl rfl, rfl, id⟩⟩

theorem keeps_dropRegistration (c : UeContext) (forget : Bool) :
    Keeps N F tx start (some (amfUeId, c)) none (dropRegistration amfUeId c forget) := by
  have hleave : ∀ supi, c.suci = some supi → Keeps N F tx start (some (amfUeId, c)) none (do
      spawnSdmUnsubscribe amfUeId supi
      spawnFor amfUeId (.uecmPurge supi)
      removeUe amfUeId) :=
    fun _ hc => .bind (keeps_spawnSdmUnsubscribe hc) fun _ => .bind (.spawnForAs rfl hc) fun _ => .removeUe
  unfold dropRegistration
  cases hsuci : c.suci with
  | none => exact .removeUe
  | some supi =>
    refine .bind (.change (fewer_unaddressed supi)) fun _ => ?_
    cases forget with
    | false => exact hleave supi hsuci
    | true => exact .bind (.change (fewer_forgetGutis supi)) fun _ => hleave supi hsuci

theorem keeps_onDeregistration (deregistrationType : UInt8) :
    Keeps N F tx start held none (onDeregistration F amfUeId deregistrationType) :=
  .getUe_bind (.done _) fun c => .bind keeps_takeSessions fun _ => .bind (keeps_releaseSessions _) fun _ =>
    .bind (keeps_dropRegistration c false) fun _ => .bind (keeps_spawnAmPolicyDelete _) fun _ => .pure _

theorem keeps_onDeregistrationAccept :
    Keeps N F tx start held none (onDeregistrationAccept amfUeId) := by
  refine .getUe_bind (.done _) fun c => ?_
  dsimp only
  split
  · exact .done _
  · exact .bind (keeps_spawnAmPolicyDelete _) fun _ => .bind (keeps_dropRegistration c true) fun _ => .pure _

theorem keeps_finalizeRelease (psi : UInt8) : Keeps N F tx start held none (finalizeRelease amfUeId psi) := by
  have hdone : ∀ {held : Held}, Keeps N F tx start held none (modifyUe amfUeId fun c =>
      { c with smRefs := c.smRefs.erase psi, releasing := c.releasing.filter (· != psi) }) :=
    .drop (.modifyUe fun c => ⟨rfl, .inl rfl, rfl, id⟩)
  refine .getUe_bind (.done _) fun c => ?_
  dsimp only
  split
  · split
    · exact .bind (.callFor rfl) fun _ => hdone
    · exact hdone
  · exact .done _

theorem keeps_sendSm (psi : UInt8) (container : Bytes) :
    Keeps N F tx start held none (sendSm F amfUeId psi container) := by
  refine .getUe_bind (.done _) fun c => ?_
  dsimp only
  split
  · exact .done _
  · exact .bind (.modifyUe fun c => ⟨rfl, .inl rfl, rfl, id⟩) fun _ => .done _

theorem keeps_setUpSession (psi pti : UInt8) (dnn smfBase : String) (container : Bytes)
    (created : SmContextCreated) :
    Keeps N F tx start held none (setUpSession F amfUeId psi pti dnn smfBase container created) := by
  refine .getUe_bind (.done _) fun c => .bind (.modifyUe fun c => ⟨rfl, .inl rfl, rfl, id⟩) fun _ => ?_
  dsimp only
  split
  · exact .done _
  · exact .bind (.modifyUe fun c => ⟨rfl, .inl rfl, rfl, id⟩) fun _ => .done _

theorem keeps_establishSession {supi : String} (hc : c.suci = some supi) (psi : UInt8) (dnn : String)
    (snssai : Option Snssai) (container : Bytes) :
    Keeps N F tx start (some (amfUeId, c)) none
      (establishSession F amfUeId supi psi dnn snssai container) := by
  refine .bind (.callFor rfl) fun smf => ?_
  cases smf with
  | none => exact keeps_sendSm _ _
  | some smfBase =>
    refine .bind (.callForAs rfl hc) fun created => ?_
    cases created with
    | ok created => exact keeps_setUpSession _ _ _ _ _ _
    | error e => exact keeps_sendSm _ _

theorem keeps_onUlNasTransport (transport : UlNasTransport) :
    Keeps N F tx start held none (onUlNasTransport F amfUeId transport) := by
  unfold onUlNasTransport
  split
  · exact .done _
  · dsimp only
    split
    · exact .bind (keeps_finalizeRelease _) fun _ => .pure _
    · refine .getUe_bind (.done _) fun c => ?_
      dsimp only
      split
      · exact .done _
      · rename_i supi hsuci
        split
        · exact keeps_sendSm _ _
        · exact keeps_establishSession hsuci _ _ _ _

/-! ### Policy changes -/

theorem keeps_pushTrackedConfigUpdate (cuc : Nas5gmmMessage) (areaRestriction : Option AreaRestriction) :
    Keeps N F tx start held none (pushTrackedConfigUpdate F amfUeId cuc areaRestriction) := by
  refine .getUe_bind (.done _) fun c => ?_
  dsimp only
  split
  · exact .done _
  · exact .bind (.modifyUe fun c => ⟨rfl, .inl rfl, rfl, id⟩) fun _ => .bind (.arm _) fun _ => .done _

theorem keeps_onAmPolicyUpdate (ueAmbr : FieldUpdate UeAmbr) (rfsp : FieldUpdate Nat)
    (areaRestriction : FieldUpdate AreaRestriction) :
    Keeps N F tx start held none (onAmPolicyUpdate F amfUeId ueAmbr rfsp areaRestriction) := by
  refine .getUe_bind (.done _) fun c => .bind (.insertUe ⟨rfl, .inl rfl, rfl, id⟩) fun _ => ?_
  exact .bind (keeps_pushTrackedConfigUpdate _ _) fun _ => .pure _

/-! ### Expiries, and what the network starts -/

theorem keeps_implicitDeregister : Keeps N F tx start held none (implicitDeregister amfUeId) := by
  refine .getUe_bind (.done _) fun c => ?_
  dsimp only
  cases hsuci : c.suci with
  | none =>
    exact .bind (keeps_spawnAmPolicyDelete _) fun _ => .bind .removeUe fun _ => .pure _
  | some supi =>
    exact .bind (.change (fewer_forgetGutis supi)) fun _ => .bind (keeps_spawnSdmUnsubscribe hsuci)
      fun _ => .bind (.spawnForAs rfl hsuci) fun _ => .bind (keeps_spawnAmPolicyDelete _) fun _ =>
      .bind .removeUe fun _ => .pure _

theorem keeps_onExpiry {expire : UeContext → Expiry} {timer : Channel → Job}
    (hresend : ∀ c nas areaRestriction c', expire c = .resend nas areaRestriction c' → Alike c c') :
    Keeps N F tx start held none (onExpiry amfUeId expire timer) := by
  refine .getUe_bind (.done _) fun c => ?_
  dsimp only
  split
  · exact .done _
  · rename_i nas areaRestriction c' hexpire
    exact .bind (.insertUe (hresend _ _ _ _ hexpire)) fun _ => .bind (.arm _) fun _ => .done _
  · exact keeps_implicitDeregister

theorem alike_expireNasRetx {kind : RetxKind} {c c' : UeContext} {nas : Bytes}
    {areaRestriction : Option AreaRestriction}
    (h : c.expireNasRetx kind = .resend nas areaRestriction c') : Alike c c' := by
  unfold UeContext.expireNasRetx at h
  split at h
  · cases h
  · split at h
    · cases h
    · split at h <;> cases h
      exact ⟨rfl, .inl rfl, rfl, id⟩

theorem alike_expireT3555 {c c' : UeContext} {nas : Bytes} {areaRestriction : Option AreaRestriction}
    (h : c.expireT3555 F = .resend nas areaRestriction c') : Alike c c' := by
  unfold UeContext.expireT3555 at h
  split at h
  · cases h
  · split at h
    · split at h <;> cases h
      exact ⟨rfl, .inl rfl, rfl, id⟩
    · cases h

theorem alike_expireT3522 {c c' : UeContext} {nas : Bytes} {areaRestriction : Option AreaRestriction}
    (h : c.expireT3522 F = .resend nas areaRestriction c') : Alike c c' := by
  unfold UeContext.expireT3522 at h
  split at h
  · cases h
  · split at h
    · split at h <;> cases h
      exact ⟨rfl, .inl rfl, rfl, id⟩
    · cases h

theorem keeps_onRegistrationGuardExpiry :
    Keeps N F tx start held none (onRegistrationGuardExpiry amfUeId) := by
  have hevict : ∀ (held : Held) (c : UeContext), Keeps N F tx start held none (do
      spawnAmPolicyDelete amfUeId c.amPolicy
      removeUe amfUeId
      return [Downlink.ueContextReleaseCommand amfUeId c.ranUeId .radioReleaseDueTo5gcGeneratedReason]) :=
    fun _ _ => .bind (keeps_spawnAmPolicyDelete _) fun _ => .bind .removeUe fun _ => .pure _
  refine .getUe_bind (.done _) fun c => ?_
  dsimp only
  split
  · exact .done _
  · refine .bind (.look _) fun now => ?_
    split
    · split
      · refine .bind (.change fun t => ?_) fun _ => hevict _ c
        split
        · exact fewer_unaddressed _ t
        · exact ⟨fun _ _ => id, fun _ _ => id, fun _ _ => id⟩
      · exact hevict _ c
    · exact .bind (.arm _) fun _ => .done _

theorem keeps_onReleaseGuardExpiry (psi : UInt8) :
    Keeps N F tx start held none (onReleaseGuardExpiry amfUeId psi) := by
  refine .getUe_bind (.done _) fun c => ?_
  dsimp only
  split
  · exact .bind (keeps_finalizeRelease _) fun _ => .pure _
  · exact .done _

theorem keeps_commandReleases (cause : UInt8) (psis : List UInt8) :
    Keeps N F tx start held none (commandReleases F amfUeId cause psis) := by
  induction psis generalizing held with
  | nil => exact .done _
  | cons psi psis ih =>
    refine .getUe_bind (.done _) fun c => ?_
    dsimp only
    split
    · exact .bind (.modifyUe fun c => ⟨rfl, .inl rfl, rfl, id⟩) fun _ => .bind (.arm _) fun _ =>
        .bind ih fun _ => .pure _
    · exact ih

theorem keeps_onNetworkRelease (psis : List UInt8) (cause : UInt8) :
    Keeps N F tx start held none (onNetworkRelease F amfUeId psis cause) := by
  refine .getUe_bind (.done _) fun c => ?_
  dsimp only
  split
  · exact .done _
  · exact keeps_commandReleases _ _

theorem keeps_onNetworkDeregistration :
    Keeps N F tx start held none (onNetworkDeregistration F amfUeId) := by
  have hremove : ∀ (held : Held) (dls : List Downlink), Keeps N F tx start held none (do
      removeUe amfUeId
      return dls) := fun _ _ => .bind .removeUe fun _ => .pure _
  have hrequest : ∀ (held : Held) (sec : NasSecurityContext) (dls : List Downlink),
      Keeps N F tx start held none (do
        modifyUe amfUeId fun c => { c with sec := some sec, deregAttempts := some 1 }
        arm (.t3522 · amfUeId)
        return dls) :=
    fun _ _ _ => .bind (.modifyUe fun c => ⟨rfl, .inl rfl, rfl, id⟩) fun _ => .bind (.arm _) fun _ => .done _
  refine .getUe_bind (.done _) fun c => ?_
  dsimp only
  split
  · exact .done _
  · refine .bind (.modifyUe fun c => ⟨rfl, .inl rfl, rfl, id⟩) fun _ => .bind (keeps_releaseSessions _)
      fun _ => ?_
    split
    · refine .bind (.change (fewer_unaddressed _)) fun _ => ?_
      split
      · exact hremove _ _
      · exact hrequest _ _ _
    · split
      · exact hremove _ _
      · exact hrequest _ _ _

theorem keeps_nudge (c : UeContext) : Keeps N F tx start held none (nudge F amfUeId c) := by
  unfold nudge
  split
  · exact .done _
  · exact .bind (.modifyUe fun c => ⟨rfl, .inl rfl, rfl, id⟩) fun _ => .done _

theorem alike_changes (ueAmbr : Option UeAmbr) (allowedNssai : Option (List Snssai)) (c : UeContext) :
    Alike c ((c.changeAmbr ueAmbr).1.changeNssai allowedNssai).1 := by
  obtain ⟨_, _, hambr⟩ := c.changeAmbr_eq ueAmbr
  obtain ⟨_, hnssai⟩ := (c.changeAmbr ueAmbr).1.changeNssai_eq allowedNssai
  rw [hnssai, hambr]
  exact ⟨rfl, .inl rfl, rfl, id⟩

theorem keeps_onSdmDataChange (ueAmbr : Option UeAmbr) (allowedNssai : Option (List Snssai)) :
    Keeps N F tx start held none (onSdmDataChange F amfUeId ueAmbr allowedNssai) := by
  refine .getUe_bind (.done _) fun c => ?_
  have hchanges := alike_changes ueAmbr allowedNssai c
  dsimp only
  generalize c.changeAmbr ueAmbr = changed at hchanges ⊢
  obtain ⟨c₁, ambrChanged⟩ := changed
  dsimp only at hchanges ⊢
  generalize c₁.changeNssai allowedNssai = changed at hchanges ⊢
  obtain ⟨c₂, nssaiChanged⟩ := changed
  refine .bind (.insertUe hchanges) fun _ => ?_
  dsimp only
  split
  · exact .done _
  · split
    · exact .bind (keeps_nudge _) fun _ => .pure _
    · exact .bind (keeps_pushTrackedConfigUpdate _ _) fun _ => .bind (keeps_onNetworkRelease _ _) fun _ =>
        .pure _

theorem keeps_onNetworkModification (m : ModifyPolicy) :
    Keeps N F tx start held none (onNetworkModification F m) := by
  refine .getUe_bind (.done _) fun c => ?_
  dsimp only
  split
  · exact .done _
  · split
    · exact .done _
    · exact .bind (.modifyUe fun c => ⟨rfl, .inl rfl, rfl, id⟩) fun _ => .done _

/-! ### Coming back from idle -/

theorem keeps_activateSessions (sessions : List (UInt8 × String × String)) :
    Keeps N F tx start held held (activateSessions amfUeId sessions) := by
  induction sessions with
  | nil => exact .pure _
  | cons session rest ih =>
    obtain ⟨psi, smRef, smfBase⟩ := session
    refine .bind (.callFor rfl) fun created => ?_
    cases created with
    | none => exact ih
    | some created => exact .bind ih fun _ => .pure _

/-- A UE is taken up under an id: nothing has been found of it, and the directory does not lead to it. -/
structure Vacant (N : HomeNetwork) (F : Functions) (tx : Channel) (amfUeId : AmfUeId) (l : Association)
    (t : Tables) (w : List Mark) : Prop where
  intact : Intact N F tx none l t w
  unfound : ∀ supi, ¬ AuthenticatedAs amfUeId supi w
  unentered : ∀ supi, t.ueDirectory.lookup supi ≠ some (amfUeId, tx)

namespace Vacant

variable {l : Association} {t t' : Tables} {n : Mark} {w : List Mark}

/-- From the mark of a UE that is taken up. -/
theorem ofMark (h : Intact N F tx held l t w) (hn : found n = none) (hopened : opened n = some amfUeId)
    (hheeds : ∀ supi, t.ueDirectory.lookup supi ≠ some (amfUeId, l.tx)) :
    Vacant N F tx amfUeId l t (n :: w) where
  intact := (h.mark hn).drop
  unfound supi hsupi := by
    rcases hsupi with hfound | ⟨hstays, -⟩
    · rw [hn] at hfound
      cases hfound
    · exact hstays hopened
  unentered supi := h.tx ▸ hheeds supi

theorem mark (h : Vacant N F tx amfUeId l t w) (hn : found n = none) :
    Vacant N F tx amfUeId l t (n :: w) where
  intact := h.intact.mark hn
  unfound supi hsupi := h.unfound supi (hsupi.past hn)
  unentered := h.unentered

theorem others (h : Vacant N F tx amfUeId l t w) (ht : Others N F tx t t') :
    Vacant N F tx amfUeId l t' w where
  intact := h.intact.others ht
  unfound := h.unfound
  unentered supi hsupi := h.unentered supi (ht.entered supi amfUeId hsupi)

/-- Its context is put there. -/
theorem insert (h : Vacant N F tx amfUeId l t w) (hc : Genuine N F c) :
    Intact N F tx (some (amfUeId, c)) (l.insert amfUeId c) t w :=
  h.intact.insert hc ⟨fun supi hsupi => absurd hsupi (h.unfound supi), hc.keyed⟩ fun supi hsupi =>
    absurd (h.intact.tx ▸ hsupi) (h.unentered supi)

end Vacant

section Return

variable {l : Association} {t : Tables} {w : List Mark}

theorem assured_releaseSessions (h : Vacant N F tx amfUeId l t w) (sessions : List (String × String))
    {Q : Unit → Association → Tables → List Mark → Prop}
    (hQ : ∀ t w, Vacant N F tx amfUeId l t w → Q () l t w) :
    assured (N.outside false) (Heeds N) (Others N F tx) (Proper N F start) (releaseSessions amfUeId sessions) Q
      l t w := by
  unfold releaseSessions
  induction sessions generalizing t w with
  | nil => exact hQ t w h
  | cons session sessions ih =>
    simp only [Proc.forEach, callFor, Proc.assured_bind, Proc.assured_mark, Proc.assured_ask]
    intro _
    exact ⟨Keeps.proper_mark rfl, fun _ t' _ ht => ih ((h.mark rfl).others ht)⟩

theorem assured_reconcileSessions (h : Vacant N F tx amfUeId l t w) (active : Option (List UInt8))
    {Q : UeContext → Association → Tables → List Mark → Prop}
    (hQ : ∀ c' t w, Alike c c' → Vacant N F tx amfUeId l t w → Q c' l t w) :
    assured (N.outside false) (Heeds N) (Others N F tx) (Proper N F start)
      (reconcileSessions amfUeId active c) Q l t w := by
  unfold reconcileSessions
  cases active with
  | none => exact hQ c t w (.refl c) h
  | some active =>
    rw [Proc.assured_bind]
    exact assured_releaseSessions h _ fun t w h => hQ _ t w ⟨rfl, .inl rfl, rfl, id⟩ h

/-- The 5G-TMSI that is reassigned is that of the UE which has come back. -/
theorem assured_reallocateGuti (h : Intact N F tx none l t w) {tmsi' : Tmsi} {c₀ : UeContext}
    (hstart : start.retained.lookup tmsi' = some c₀) (hkeyed : KeyedAs F c₀) (hsuci : c₀.suci = c.suci)
    {ret : Return} {tmsi : Tmsi} {Q : UeContext × Tmsi → Association → Tables → List Mark → Prop}
    (hQ : ∀ c' tmsi t, Alike c c' → Intact N F tx none l t w → Q (c', tmsi) l t w) :
    assured (N.outside false) (Heeds N) (Others N F tx) (Proper N F start)
      (reallocateGuti ret amfUeId c tmsi) Q l t w := by
  unfold reallocateGuti
  split
  · cases hc : c.suci with
    | none => exact hQ _ _ _ ⟨hc.symm, .inl rfl, rfl, id⟩ h
    | some supi =>
      refine ⟨⟨fun tmsi₁ supi' hsupi => ?_, fun _ _ => ⟨id, fun _ _ => id⟩⟩,
        hQ _ _ _ ⟨hc.symm, .inl rfl, rfl, id⟩ { h with reserve := h.reserve, entered := h.entered }⟩
      obtain ⟨-, rfl⟩ | ⟨-, hsupi⟩ := Map.of_lookup_insert hsupi
      · exact .inr (.inr ⟨tmsi', c₀, hstart, hkeyed, hsuci.trans hc⟩)
      · exact .inl (Map.lookup_retain.mp hsupi).1
  · exact hQ _ _ _ (.refl c) h

theorem fewer_drawn (t : Tables) : Fewer t { t with nextAmfUeId := t.nextAmfUeId + 1 } :=
  ⟨fun _ _ => id, fun _ _ => id, fun _ _ => id⟩

theorem fewer_taken (tmsi : Tmsi) (t : Tables) : Fewer t { t with retained := t.retained.erase tmsi } :=
  ⟨fun _ _ => id, fun _ _ => id, fun _ _ h => (Map.of_lookup_erase h).2⟩

theorem alike_acceptReturn (ret : Return) (tmsi : Tmsi) (c : UeContext) :
    Alike c (acceptReturn F ret tmsi c).2 := by
  unfold acceptReturn
  split
  · exact .refl c
  · dsimp only
    split <;> exact ⟨rfl, .inl rfl, rfl, id⟩

theorem assured_resume (h : Intact N F tx none l t w) {tmsi' : Tmsi} {c₀ : UeContext}
    (hstart : start.retained.lookup tmsi' = some c₀) (hc₀ : Genuine N F c₀) (halike : Alike c₀ c)
    (ranUeId : RanUeId) (tac : Option Tac) (tmsi : Tmsi) (ret : Return) (msg : Nas5gmmMessage) :
    assured (N.outside false) (Heeds N) (Others N F tx) (Proper N F start)
      (resume F ranUeId tac tmsi ret msg c) (fun _ l' t' w' => Intact N F tx none l' t' w') l t w := by
  simp only [resume, nextAmfUeId, Proc.assured_bind, Proc.assured_actShared, Proc.assured_look]
  refine ⟨Keeps.proper_move (fewer_drawn t), ?_⟩
  have hdrawn := h.fewer (fewer_drawn t)
  refine assured_reallocateGuti hdrawn hstart hc₀.keyed ?_ fun c₁ tmsi₁ t₁ h₁ hintact => ?_
  · exact halike.suci.symm
  · have hback : Alike c₀ { c₁ with pendingAmPolicy := none } :=
      halike.trans ⟨h₁.suci, h₁.auth, h₁.kamf, h₁.state⟩
    simp only [Proc.assured_bind, Proc.assured_mark]
    intro hheeds
    refine ⟨Keeps.proper_mark rfl, ?_⟩
    have hvacant := Vacant.ofMark (n := .resumed t.nextAmfUeId) hintact rfl rfl hheeds.2
    refine assured_reconcileSessions hvacant _ fun c₂ t₂ w₂ h₂ hvacant => ?_
    have halike₂ : Alike c₀ (acceptReturn F ret tmsi₁ c₂).2 :=
      (hback.trans h₂).trans (alike_acceptReturn ret tmsi₁ c₂)
    rw [Proc.assured_bind]
    refine ⟨Keeps.proper_move (.refl _), ?_⟩
    have hplaced := hvacant.insert (hc₀.alike halike₂)
    suffices hkeeps : Keeps N F tx start
        (some (t.nextAmfUeId, (acceptReturn F ret tmsi₁ c₂).2)) none _ from hkeeps _ _ _ hplaced
    cases hsuci : (acceptReturn F ret tmsi₁ c₂).2.suci with
    | none =>
      refine .bind (keeps_activateSessions _) fun _ => ?_
      cases c₁.pendingAmPolicy with
      | none => exact .bind (.pure _) fun _ => .done _
      | some p => exact .bind (keeps_onAmPolicyUpdate _ _ _) fun _ => .pure _
    | some supi =>
      refine .bind (.address hsuci) fun _ => .bind (keeps_activateSessions _) fun _ => ?_
      cases c₁.pendingAmPolicy with
      | none => exact .bind (.pure _) fun _ => .done _
      | some p => exact .bind (keeps_onAmPolicyUpdate _ _ _) fun _ => .pure _

theorem keeps_rejectReturn (ranUeId : RanUeId) : Keeps N F tx start none none (rejectReturn F ranUeId) :=
  .bind (.actShared fewer_drawn) fun _ => .pure _

theorem assured_onServiceRequest (h : Intact N F tx none l t w) (msg : InitialUEMessage) (tmsi : Tmsi) :
    assured (N.outside false) (Heeds N) (Others N F tx) (Proper N F t) (onServiceRequest F msg tmsi)
      (fun _ l' t' w' => Intact N F tx none l' t' w') l t w := by
  unfold onServiceRequest
  split
  · exact h
  · simp only [takeRetained, Proc.assured_bind, Proc.assured_actShared]
    refine ⟨Keeps.proper_move (fewer_taken tmsi t), ?_⟩
    have htaken := h.fewer (fewer_taken tmsi t)
    cases hretained : t.retained.lookup tmsi with
    | none => exact htaken
    | some c =>
      have hback : ∀ sec, Alike c { c with sec } := fun sec => ⟨rfl, .inl rfl, rfl, id⟩
      dsimp only
      split
      · exact assured_resume htaken hretained (h.reserve tmsi c hretained) (hback _) _ _ _ _ _
      · exact keeps_rejectReturn _ _ _ _ htaken

end Return

end Radian.Amf.Identity
