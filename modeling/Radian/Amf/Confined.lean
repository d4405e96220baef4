import Radian.Amf.Uplink
import Radian.Proc.Amid

/-!
# What the handlers of a context leave alone

A handler on a UE touches the context under one AMF-UE-NGAP-ID, and serves no other.  Until the UE
is authenticated it does less than that.

- `opened`, `service` — the context that a mark opens, and the one that it serves.
- `Confined` — a handler on one context; one `confined_…` lemma a handler.
- `Tame` — a handler that serves nobody and leaves what later service rests on alone.
-/

namespace Radian.Amf

open Keyed (Map)
open Nas (Nas5gmmMessage NasSecurityContext Snssai Tac UlNasTransport)
open Proc (Within)
open Security (Bytes)

/-! ### Marks -/

/-- The context that is opened here. -/
def opened : Mark → Option AmfUeId
  | .created amfUeId => some amfUeId
  | .resumed amfUeId => some amfUeId
  | _ => none

/-- The context that is served here: registered, made known to the UDM, given an AM policy or an SM
context, or relieved of one. -/
def service : Mark → Option AmfUeId
  | .registered amfUeId => some amfUeId
  | .spawning amfUeId (.uecmRegister _) => some amfUeId
  | .spawning amfUeId (.sdmSubscribe _) => some amfUeId
  | .calling amfUeId (.createAmPolicy ..) => some amfUeId
  | .calling amfUeId (.createSmContext ..) => some amfUeId
  | .calling amfUeId (.releaseSmContext ..) => some amfUeId
  | _ => none

theorem service_calling {amfUeId id : AmfUeId} {e : Call}
    (h : service (.calling amfUeId e) = some id) : id = amfUeId := by
  cases e <;> simp_all [service]

theorem service_spawning {amfUeId id : AmfUeId} {j : Job}
    (h : service (.spawning amfUeId j) = some id) : id = amfUeId := by
  cases j <;> simp_all [service]

/-! ### Handlers on one context -/

/-- Only the context under `amfUeId` changes. -/
def OnlyAt (amfUeId : AmfUeId) (l l' : Association) : Prop :=
  ∀ id, id ≠ amfUeId → l'.ues.lookup id = l.ues.lookup id

/-- A mark that opens nothing and serves none but `amfUeId`. -/
def Concerns (amfUeId : AmfUeId) (n : Mark) : Prop :=
  opened n = none ∧ ∀ id, service n = some id → id = amfUeId

/-- A handler that changes and serves none but the context under `amfUeId`. -/
abbrev Confined {α : Type} (amfUeId : AmfUeId) (t : AmfM α) : Prop :=
  Within (OnlyAt amfUeId) (Concerns amfUeId) t

section Parts

variable {amfUeId : AmfUeId}

theorem onlyAt_refl (l : Association) : OnlyAt amfUeId l l := fun _ _ => rfl

theorem onlyAt_modify (f : UeContext → UeContext) (l : Association) :
    OnlyAt amfUeId l (l.modify amfUeId f) := by
  intro id hne
  rw [Association.modify, Map.lookup_modify, if_neg hne]

theorem onlyAt_insert (c : UeContext) (l : Association) :
    OnlyAt amfUeId l (l.insert amfUeId c) := by
  intro id hne
  rw [Association.insert, Map.lookup_insert_eq, if_neg hne]

theorem onlyAt_erase (l : Association) : OnlyAt amfUeId l (l.erase amfUeId) := by
  intro id hne
  rw [Association.erase, Map.lookup_erase_eq, if_neg hne]

theorem confined_callFor (e : Call) : Confined amfUeId (callFor amfUeId e) :=
  .bind (.mark ⟨rfl, fun _ => service_calling⟩) fun _ => .ask e

theorem confined_change (f : Tables → Tables) : Confined amfUeId (Proc.change f) :=
  .change onlyAt_refl f

theorem confined_spawnFor (j : Job) : Confined amfUeId (spawnFor amfUeId j) :=
  .bind (.mark ⟨rfl, fun _ => service_spawning⟩) fun _ => confined_change _

theorem confined_arm (timer : Channel → Job) : Confined amfUeId (arm timer) :=
  .bind (.look _) fun _ => confined_change _

theorem confined_address (supi : String) : Confined amfUeId (address supi amfUeId) :=
  .bind (.look _) fun _ => confined_change _

theorem confined_modifyUe (f : UeContext → UeContext) : Confined amfUeId (modifyUe amfUeId f) :=
  .changeLocal (onlyAt_modify f)

theorem confined_insertUe (c : UeContext) : Confined amfUeId (insertUe amfUeId c) :=
  .changeLocal (onlyAt_insert c)

theorem confined_removeUe : Confined amfUeId (removeUe amfUeId) := .changeLocal onlyAt_erase

theorem confined_spawnAmPolicyDelete (amPolicy : Option (String × String)) :
    Confined amfUeId (spawnAmPolicyDelete amfUeId amPolicy) := by
  unfold spawnAmPolicyDelete
  split
  · exact confined_spawnFor _
  · exact .pure _

theorem confined_spawnSdmUnsubscribe (supi : String) :
    Confined amfUeId (spawnSdmUnsubscribe amfUeId supi) := by
  refine .bind (.actShared onlyAt_refl _) fun held => ?_
  split
  · exact confined_spawnFor _
  · exact .pure _

end Parts

/-! ### Before authentication -/

/-- What service rests on is as it was. -/
structure UeContext.Like (c c' : UeContext) : Prop where
  state : c'.state = .Registered → c.state = .Registered
  sec : c'.sec = c.sec
  releasing : c'.releasing = c.releasing
  deregAttempts : c'.deregAttempts = c.deregAttempts
  pendingConfigUpdate : c'.pendingConfigUpdate = c.pendingConfigUpdate

/-- Only the context under `amfUeId` changes, where service does not rest on it. -/
structure Barely (amfUeId : AmfUeId) (l l' : Association) : Prop where
  only : OnlyAt amfUeId l l'
  like : ∀ c', l'.ues.lookup amfUeId = some c' → ∃ c, l.ues.lookup amfUeId = some c ∧ c.Like c'

/-- A mark that opens nothing and serves none. -/
def Idle (n : Mark) : Prop := opened n = none ∧ service n = none

/-- A handler that serves none, and of one context leaves alone what service rests on. -/
abbrev Tame {α : Type} (amfUeId : AmfUeId) (t : AmfM α) : Prop := Within (Barely amfUeId) Idle t

section Tame

variable {α : Type} {amfUeId : AmfUeId} {F : Functions}

theorem UeContext.Like.refl (c : UeContext) : c.Like c := ⟨id, rfl, rfl, rfl, rfl⟩

theorem Tame.confined {t : AmfM α} (h : Tame amfUeId t) : Confined amfUeId t :=
  h.mono (fun _ _ h => h.only) fun _ h => ⟨h.1, fun id hid => by simp [h.2] at hid⟩

theorem barely_refl (l : Association) : Barely amfUeId l l where
  only := onlyAt_refl l
  like c' h := ⟨c', h, .refl c'⟩

theorem barely_modify {f : UeContext → UeContext} (hf : ∀ c, UeContext.Like c (f c)) (l : Association) :
    Barely amfUeId l (l.modify amfUeId f) where
  only := onlyAt_modify f l
  like := by
    intro c' h
    rw [Association.modify, Map.lookup_modify, if_pos rfl, Option.map_eq_some_iff] at h
    obtain ⟨c, hc, rfl⟩ := h
    exact ⟨c, hc, hf c⟩

theorem barely_erase (l : Association) : Barely amfUeId l (l.erase amfUeId) where
  only := onlyAt_erase l
  like c' h := by simp [Association.erase] at h

theorem tame_callFor {e : Call} (h : service (.calling amfUeId e) = none) :
    Tame amfUeId (callFor amfUeId e) :=
  .bind (.mark ⟨rfl, h⟩) fun _ => .ask e

theorem tame_change (f : Tables → Tables) : Tame amfUeId (Proc.change f) := .change barely_refl f

theorem tame_arm (timer : Channel → Job) : Tame amfUeId (arm timer) :=
  .bind (.look _) fun _ => tame_change _

theorem tame_address (supi : String) : Tame amfUeId (address supi amfUeId) :=
  .bind (.look _) fun _ => tame_change _

theorem tame_modifyUe {f : UeContext → UeContext} (hf : ∀ c, UeContext.Like c (f c)) :
    Tame amfUeId (modifyUe amfUeId f) :=
  .changeLocal (barely_modify hf)

theorem tame_removeUe : Tame amfUeId (removeUe amfUeId) := .changeLocal barely_erase

theorem tame_sendAll (dls : List Downlink) : Tame amfUeId (sendAll dls) :=
  .forEach (fun _ => .mark ⟨rfl, rfl⟩) dls

theorem tame_begin (supiOrSuci : String) : Tame amfUeId (AmfAuth.begin F amfUeId supiOrSuci) := by
  refine .bind (tame_callFor rfl) fun ausf => ?_
  cases ausf with
  | none => exact .pure _
  | some ausfBase =>
    refine .bind (tame_callFor rfl) fun ctx => ?_
    cases ctx <;> exact .pure _

theorem tame_resync (pending : PendingAuth) (supiOrSuci : String) (auts : Bytes) :
    Tame amfUeId (AmfAuth.resync F amfUeId pending supiOrSuci auts) := by
  refine .bind (tame_callFor rfl) fun ctx => ?_
  cases ctx <;> exact .pure _

theorem tame_finish (pending : PendingAuth) (resStar : Bytes) :
    Tame amfUeId (AmfAuth.finish F amfUeId pending resStar) := by
  unfold AmfAuth.finish
  split
  · exact .pure _
  · split
    · exact .pure _
    · refine .bind (tame_callFor rfl) fun conf => ?_
      cases conf <;> exact .pure _

theorem UeContext.like_challenged (pending : PendingAuth) (nasReq : Bytes) (now : Instant)
    (c : UeContext) : c.Like (c.challenged pending nasReq now) :=
  ⟨nofun, rfl, rfl, rfl, rfl⟩

theorem tame_startAuthentication (ranUeId : RanUeId) (supi : String) :
    Tame amfUeId (startAuthentication F amfUeId ranUeId supi) := by
  refine .bind (tame_begin supi) fun challenge => ?_
  cases challenge with
  | none => exact .pure _
  | some challenge =>
    exact .bind (.look _) fun _ => .bind (tame_modifyUe (UeContext.like_challenged _ _ _))
      fun _ => .bind (tame_arm _) fun _ => tame_sendAll _

theorem tame_onIdentityResponse (identity : Nas.MobileIdentity) :
    Tame amfUeId (onIdentityResponse F amfUeId identity) := by
  refine .bind (.look _) fun ue => ?_
  cases ue with
  | none => exact .pure _
  | some c =>
    dsimp only
    split
    · exact .pure _
    · cases identity with
      | guti tmsi => exact .pure _
      | other => exact .pure _
      | suci suci =>
        refine .bind (tame_begin _) fun challenge => ?_
        cases challenge with
        | none => exact .pure _
        | some challenge =>
          refine .bind (.look _) fun area => .bind (.look _) fun now =>
            .bind (tame_modifyUe fun c => ?_) fun _ => .bind (tame_address _) fun _ =>
            .bind (tame_arm _) fun _ => .pure _
          exact ⟨nofun, rfl, rfl, rfl, rfl⟩

theorem tame_abortRegistration (ranUeId : RanUeId) :
    Tame amfUeId (abortRegistration amfUeId ranUeId) :=
  .bind tame_removeUe fun _ => .pure _

theorem tame_onAuthenticationFailure (cause : UInt8) (auts : Option Bytes) :
    Tame amfUeId (onAuthenticationFailure F amfUeId cause auts) := by
  refine .bind (.look _) fun ue => ?_
  cases ue with
  | none => exact .pure _
  | some c =>
    dsimp only
    split
    · split
      · refine .bind (tame_resync _ _ _) fun challenge => ?_
        cases challenge with
        | none => exact tame_abortRegistration _
        | some challenge =>
          refine .bind (tame_modifyUe fun c => ?_) fun _ => .pure _
          exact ⟨id, rfl, rfl, rfl, rfl⟩
      · exact tame_abortRegistration _
    · exact tame_abortRegistration _

theorem tame_takePending : Tame amfUeId (takePending amfUeId) := by
  refine .act fun l t => barely_modify ?_ l
  intro c
  exact ⟨id, rfl, rfl, rfl, rfl⟩

theorem tame_rejectAuthentication : Tame amfUeId (rejectAuthentication F amfUeId) := by
  have hdrop : ∀ dls : List Downlink, Tame amfUeId (do removeUe amfUeId; return dls) :=
    fun _ => .bind tame_removeUe fun _ => .pure _
  refine .bind (.look _) fun ue => ?_
  dsimp only
  split
  · exact .bind (tame_change _) fun _ => hdrop _
  · exact hdrop _

end Tame

/-! ### The handlers -/

section Handlers

variable {amfUeId : AmfUeId} {F : Functions}

theorem confined_secureUe (kseaf supi : String) : Confined amfUeId (secureUe F amfUeId kseaf supi) := by
  refine .bind (.look _) fun ue => ?_
  dsimp only
  split
  · exact .bind (.look _) fun _ => .bind (confined_modifyUe _) fun _ =>
      .bind (confined_arm _) fun _ => .pure _
  · exact .pure _

theorem confined_completeAuthentication (resStar : Option Bytes) :
    Confined amfUeId (completeAuthentication F amfUeId resStar) := by
  refine .bind tame_takePending.confined fun pending => ?_
  cases pending with
  | none => exact .pure _
  | some pending =>
    dsimp only
    cases resStar with
    | some resStar =>
      refine .bind (tame_finish _ _).confined fun outcome => ?_
      split
      · exact .bind (.mark ⟨rfl, nofun⟩) fun _ => confined_secureUe _ _
      · exact .pure _
      · exact tame_rejectAuthentication.confined
    | none => exact tame_rejectAuthentication.confined

/-! #### Registration -/

theorem confined_fetchAmData (supi : String) : Confined amfUeId (fetchAmData amfUeId supi) := by
  refine .bind (confined_callFor _) fun udm => ?_
  cases udm with
  | none => exact .pure _
  | some udm =>
    refine .bind (confined_callFor _) fun am => ?_
    cases am <;> exact .pure _

theorem confined_createAmPolicy (supi : String) : Confined amfUeId (createAmPolicy amfUeId supi) := by
  refine .bind (confined_callFor _) fun pcf => ?_
  cases pcf with
  | none => exact .pure _
  | some pcf =>
    refine .bind (confined_callFor _) fun am => ?_
    cases am <;> exact .pure _

theorem confined_selectSlices (tac : Option Tac) (requested subscribed : List Snssai) :
    Confined amfUeId (selectSlices amfUeId tac requested subscribed) := by
  refine .bind (confined_callFor _) fun nssf => ?_
  cases nssf with
  | none => exact .pure _
  | some nssf => exact confined_callFor _

theorem confined_rejectRegistration (c : UeContext) (sec : NasSecurityContext)
    (rejected : List Snssai) : Confined amfUeId (rejectRegistration F amfUeId c sec rejected) := by
  have hdrop : ∀ dls : List Downlink, Confined amfUeId (do removeUe amfUeId; return dls) :=
    fun _ => .bind confined_removeUe fun _ => .pure _
  unfold rejectRegistration
  dsimp only
  split
  · exact .bind (confined_change _) fun _ => hdrop _
  · exact hdrop _

theorem confined_acceptRegistration (c : UeContext) (sec : NasSecurityContext) (tmsi : Tmsi)
    (allowed rejected : List Snssai) :
    Confined amfUeId (acceptRegistration F amfUeId c sec tmsi allowed rejected) := by
  have hsend : ∀ (c : UeContext) (dls : List Downlink), Confined amfUeId (do
      insertUe amfUeId c
      arm (.nasRetx · amfUeId .RegistrationAccept)
      return dls) :=
    fun c _ => .bind (confined_insertUe c) fun _ => .bind (confined_arm _) fun _ => .pure _
  unfold acceptRegistration
  dsimp only
  split
  · refine .bind (confined_change _) fun _ => ?_
    split <;> exact hsend _ _
  · split <;> exact hsend _ _

theorem confined_answerSecurityMode (subscribed : Option (List Snssai)) (ueAmbr : Option UeAmbr)
    (am : Option (String × String × PolicyAssociation))
    (decision : Option (List Snssai × List Snssai)) :
    Confined amfUeId (answerSecurityMode F amfUeId subscribed ueAmbr am decision) := by
  refine .bind (.look _) fun ue => ?_
  cases ue with
  | none => exact .pure _
  | some c =>
    dsimp only
    -- whatever the slices, the context is kept, refused or accepted
    split <;> split <;> split
    all_goals first
      | exact .bind (confined_insertUe _) fun _ => .pure _
      | exact confined_rejectRegistration _ _ _
      | exact confined_acceptRegistration _ _ _ _ _

theorem confined_onSecurityModeComplete : Confined amfUeId (onSecurityModeComplete F amfUeId) := by
  refine .bind (confined_modifyUe _) fun _ => .bind (.look _) fun ue => ?_
  cases ue with
  | none => exact .pure _
  | some c =>
    dsimp only
    cases c.suci with
    | none => exact confined_answerSecurityMode none none none none
    | some supi =>
      refine .bind (confined_fetchAmData _) fun am => .bind (confined_createAmPolicy _) fun _ => ?_
      obtain ⟨subscribed, ueAmbr⟩ := am
      cases subscribed with
      | none => exact .bind (.pure _) fun _ => confined_answerSecurityMode _ _ _ _
      | some subscribed =>
        exact .bind (confined_selectSlices _ _ _) fun _ => confined_answerSecurityMode _ _ _ _

theorem confined_onRegistrationComplete : Confined amfUeId (onRegistrationComplete F amfUeId) := by
  refine .bind (.look _) fun ue => ?_
  cases ue with
  | none => exact .pure _
  | some c =>
    refine .bind (.mark ⟨rfl, ?_⟩) fun _ => .bind (confined_modifyUe _) fun _ => ?_
    · intro id h
      exact (Option.some.inj h).symm
    · cases c.suci with
      | none =>
        cases c.sec with
        | none => exact .pure _
        | some sec => exact .bind (confined_modifyUe _) fun _ => .pure _
      | some supi =>
        refine .bind (confined_spawnFor _) fun _ => .bind (confined_spawnFor _) fun _ => ?_
        cases c.sec with
        | none => exact .pure _
        | some sec => exact .bind (confined_modifyUe _) fun _ => .pure _

/-! #### Deregistration and sessions -/

theorem confined_releaseSessions (sessions : List (String × String)) :
    Confined amfUeId (releaseSessions amfUeId sessions) :=
  .forEach (fun _ => .bind (confined_callFor _) fun _ => .pure _) sessions

theorem confined_takeSessions : Confined amfUeId (takeSessions amfUeId) :=
  .act fun l _ => onlyAt_modify _ l

theorem confined_dropRegistration (c : UeContext) (forget : Bool) :
    Confined amfUeId (dropRegistration amfUeId c forget) := by
  have hleave : ∀ supi, Confined amfUeId (do
      spawnSdmUnsubscribe amfUeId supi
      spawnFor amfUeId (.uecmPurge supi)
      removeUe amfUeId) :=
    fun _ => .bind (confined_spawnSdmUnsubscribe _) fun _ => .bind (confined_spawnFor _) fun _ =>
      confined_removeUe
  unfold dropRegistration
  cases c.suci with
  | none => exact confined_removeUe
  | some supi =>
    refine .bind (confined_change _) fun _ => ?_
    cases forget with
    | false => exact hleave supi
    | true => exact .bind (confined_change _) fun _ => hleave supi

theorem confined_onDeregistration (deregistrationType : UInt8) :
    Confined amfUeId (onDeregistration F amfUeId deregistrationType) := by
  refine .bind (.look _) fun ue => ?_
  cases ue with
  | none => exact .pure _
  | some c =>
    exact .bind confined_takeSessions fun _ => .bind (confined_releaseSessions _) fun _ =>
      .bind (confined_dropRegistration _ _) fun _ => .bind (confined_spawnAmPolicyDelete _)
      fun _ => .pure _

theorem confined_onDeregistrationAccept : Confined amfUeId (onDeregistrationAccept amfUeId) := by
  refine .bind (.look _) fun ue => ?_
  cases ue with
  | none => exact .pure _
  | some c =>
    dsimp only
    split
    · exact .pure _
    · exact .bind (confined_spawnAmPolicyDelete _) fun _ =>
        .bind (confined_dropRegistration _ _) fun _ => .pure _

theorem confined_finalizeRelease (psi : UInt8) : Confined amfUeId (finalizeRelease amfUeId psi) := by
  refine .bind (.look _) fun ue => ?_
  cases ue with
  | none => exact .pure _
  | some c =>
    dsimp only
    split
    · split
      · exact .bind (confined_callFor _) fun _ => confined_modifyUe _
      · exact confined_modifyUe _
    · exact .pure _

theorem confined_sendSm (psi : UInt8) (container : Bytes) :
    Confined amfUeId (sendSm F amfUeId psi container) := by
  refine .bind (.look _) fun ue => ?_
  cases ue with
  | none => exact .pure _
  | some c =>
    dsimp only
    split
    · exact .pure _
    · exact .bind (confined_modifyUe _) fun _ => .pure _

theorem confined_setUpSession (psi pti : UInt8) (dnn smfBase : String) (container : Bytes)
    (created : SmContextCreated) :
    Confined amfUeId (setUpSession F amfUeId psi pti dnn smfBase container created) := by
  refine .bind (.look _) fun ue => ?_
  cases ue with
  | none => exact .pure _
  | some c =>
    refine .bind (confined_modifyUe _) fun _ => ?_
    dsimp only
    split
    · exact .pure _
    · exact .bind (confined_modifyUe _) fun _ => .pure _

theorem confined_establishSession (supi : String) (psi : UInt8) (dnn : String)
    (snssai : Option Snssai) (container : Bytes) :
    Confined amfUeId (establishSession F amfUeId supi psi dnn snssai container) := by
  refine .bind (confined_callFor _) fun smf => ?_
  cases smf with
  | none => exact confined_sendSm _ _
  | some smfBase =>
    refine .bind (confined_callFor _) fun created => ?_
    cases created with
    | ok created => exact confined_setUpSession _ _ _ _ _ _
    | error e => exact confined_sendSm _ _

theorem confined_onUlNasTransport (transport : UlNasTransport) :
    Confined amfUeId (onUlNasTransport F amfUeId transport) := by
  unfold onUlNasTransport
  split
  · exact .pure _
  · dsimp only
    split
    · exact .bind (confined_finalizeRelease _) fun _ => .pure _
    · refine .bind (.look _) fun ue => ?_
      cases ue with
      | none => exact .pure _
      | some c =>
        dsimp only
        split
        · exact .pure _
        · split
          · exact confined_sendSm _ _
          · exact confined_establishSession _ _ _ _ _

/-! #### Return from idle -/

theorem confined_pushTrackedConfigUpdate (cuc : Nas5gmmMessage)
    (areaRestriction : Option AreaRestriction) :
    Confined amfUeId (pushTrackedConfigUpdate F amfUeId cuc areaRestriction) := by
  refine .bind (.look _) fun ue => ?_
  cases ue with
  | none => exact .pure _
  | some c =>
    dsimp only
    split
    · exact .pure _
    · exact .bind (confined_modifyUe _) fun _ => .bind (confined_arm _) fun _ => .pure _

theorem confined_onAmPolicyUpdate (ueAmbr : FieldUpdate UeAmbr) (rfsp : FieldUpdate Nat)
    (areaRestriction : FieldUpdate AreaRestriction) :
    Confined amfUeId (onAmPolicyUpdate F amfUeId ueAmbr rfsp areaRestriction) := by
  refine .bind (.look _) fun ue => ?_
  cases ue with
  | none => exact .pure _
  | some c =>
    exact .bind (confined_insertUe _) fun _ => .bind (confined_pushTrackedConfigUpdate _ _)
      fun _ => .pure _

theorem confined_reconcileSessions (active : Option (List UInt8)) (c : UeContext) :
    Confined amfUeId (reconcileSessions amfUeId active c) := by
  unfold reconcileSessions
  split
  · exact .pure _
  · exact .bind (confined_releaseSessions _) fun _ => .pure _

theorem confined_activateSessions (sessions : List (UInt8 × String × String)) :
    Confined amfUeId (activateSessions amfUeId sessions) := by
  induction sessions with
  | nil => exact .pure _
  | cons session rest ih =>
    obtain ⟨psi, smRef, smfBase⟩ := session
    refine .bind (confined_callFor _) fun created => ?_
    cases created with
    | none => exact ih
    | some created => exact .bind ih fun _ => .pure _

/-! #### Dispatch -/

theorem confined_dispatchUplinkNas (m : Nas5gmmMessage) :
    Confined amfUeId (dispatchUplinkNas F amfUeId m) := by
  unfold dispatchUplinkNas
  split
  · exact (tame_onAuthenticationFailure _ _).confined
  · exact (tame_onIdentityResponse _).confined
  · exact confined_onDeregistrationAccept
  · exact confined_onRegistrationComplete
  · exact .bind (confined_modifyUe _) fun _ => .pure _
  · exact confined_onUlNasTransport _
  · exact .pure _

theorem confined_handleUplink (m : Nas5gmmMessage) : Confined amfUeId (handleUplink F amfUeId m) := by
  unfold handleUplink
  split
  · exact confined_completeAuthentication _
  · exact confined_onSecurityModeComplete
  · exact confined_onDeregistration _
  · exact confined_dispatchUplinkNas _

theorem confined_readUplink (raw : Bytes) (c : UeContext) :
    Confined amfUeId (readUplink F amfUeId raw c) := by
  unfold readUplink
  split
  · exact .pure _
  · refine .bind (confined_modifyUe _) fun _ => ?_
    split
    · exact .bind (.mark ⟨rfl, nofun⟩) fun _ => .pure _
    · exact .pure _

end Handlers

end Radian.Amf
