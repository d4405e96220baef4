import Radian.Amf.Outstanding

/-!
# Handlers and timers

What the handlers of a registered UE do leaves every procedure with its timer, and so does an expiry, which
finds a timer gone; an idle UE that comes back has no procedure outstanding.

- `turns_…` — how contexts come to await timers, and cease to.
- `keeps_onSecurityModeComplete`, …, `keeps_onNetworkModification` — the handlers of a connected UE.
- `keeps_onExpiry`, `keeps_onReleaseGuardExpiry`, `keeps_onRegistrationGuardExpiry` — the expiries.
- `keeps_onServiceRequest` — the return of an idle one.
-/

namespace Radian.Amf.Outstanding

open Identity (Held)
open Nas (Nas5gmmMessage NasSecurityContext Snssai Tac UlNasTransport)
open Proc (assured_mono)
open Security (Bytes)

/-! ### Contexts -/

section Contexts

variable {c c' c'' : UeContext} {as bs : List Alarm}

theorem Turns.trans (h : Turns as c c') (h' : Turns bs c' c'') : Turns (as ++ bs) c c'' where
  sound hc := h'.sound (h.sound hc)
  awaits a ha := by
    rcases h'.awaits a ha with hold | hnew
    · exact (h.awaits a hold).imp_right (List.mem_append_left _)
    · exact .inr (List.mem_append_right _ hnew)

theorem alike_sec (sec : NasSecurityContext) (c : UeContext) : Alike c { c with sec := some sec } :=
  ⟨rfl, fun _ => rfl, rfl, rfl, rfl, rfl⟩

/-- A message is sent that is to be answered. -/
theorem turns_retx (p : PendingNasRetx) (c : UeContext) :
    Turns [.nasRetx p.kind] c { c with pendingRetx := some p } where
  sound hc := ⟨hc.secured, hc.bounded⟩
  awaits a ha := by
    cases a with
    | nasRetx kind =>
      cases ha
      exact .inr (List.mem_singleton_self _)
    | _ => exact .inl ha

/-- It is answered. -/
theorem turns_answered (c : UeContext) : Turns [] c { c with pendingRetx := none } where
  sound hc := ⟨hc.secured, hc.bounded⟩
  awaits a ha := by
    cases a with
    | nasRetx kind => cases ha
    | _ => exact .inl ha

/-- The UE is registered. -/
theorem turns_registered (c : UeContext) :
    Turns [] c { c with state := .Registered, pendingRetx := none, cblSlot := false } where
  sound hc := ⟨hc.secured, hc.bounded⟩
  awaits a ha := by
    cases a with
    | nasRetx kind => cases ha
    | registrationGuard => exact absurd rfl ha
    | _ => exact .inl ha

/-- Its registration goes on. -/
theorem turns_state (state : RegState) (c : UeContext) : Turns [.registrationGuard] c { c with state } where
  sound hc := ⟨hc.secured, hc.bounded⟩
  awaits a ha := by
    cases a with
    | registrationGuard => exact .inr (List.mem_singleton_self _)
    | _ => exact .inl ha

/-- A UE that is not registered is challenged. -/
theorem turns_challenged (hstate : c.state ≠ .Registered) (pending : PendingAuth) (nasReq : Bytes)
    (now : Instant) : Turns [.nasRetx .AuthRequest] c (c.challenged pending nasReq now) where
  sound hc := ⟨hc.secured, hc.bounded⟩
  awaits a ha := by
    cases a with
    | nasRetx kind =>
      cases ha
      exact .inr (List.mem_singleton_self _)
    | registrationGuard => exact .inl hstate
    | _ => exact .inl ha

/-- A Configuration Update Command is sent. -/
theorem turns_configUpdate (sec : NasSecurityContext) (p : PendingConfigUpdate) (c : UeContext) :
    Turns [.t3555] c { c with sec := some sec, pendingConfigUpdate := some p } where
  sound hc := ⟨fun _ => rfl, hc.bounded⟩
  awaits a ha := by
    cases a with
    | t3555 => exact .inr (List.mem_singleton_self _)
    | _ => exact .inl ha

/-- It is acknowledged. -/
theorem turns_configUpdated (c : UeContext) : Turns [] c { c with pendingConfigUpdate := none } where
  sound hc := by
    refine ⟨fun hpending => ?_, hc.bounded⟩
    rcases hpending with hnone | hdereg
    · cases hnone
    · exact hc.secured (.inr hdereg)
  awaits a ha := by
    cases a with
    | t3555 => cases ha
    | _ => exact .inl ha

/-- The UE is asked to deregister. -/
theorem turns_deregistration (sec : NasSecurityContext) {attempts : Nat} (h : attempts ≤ T3522_MAX_SENDS)
    (c : UeContext) : Turns [.t3522] c { c with sec := some sec, deregAttempts := some attempts } where
  sound hc := by
    refine ⟨fun _ => rfl, fun n hn => ?_⟩
    cases hn
    exact h
  awaits a ha := by
    cases a with
    | t3522 => exact .inr (List.mem_singleton_self _)
    | _ => exact .inl ha

/-- The release of a session is commanded. -/
theorem turns_release (sec : NasSecurityContext) (psi : UInt8) (c : UeContext) :
    Turns [.releaseGuard psi] c { c with sec := some sec, releasing := c.releasing.insert psi } where
  sound hc := ⟨fun _ => rfl, hc.bounded⟩
  awaits a ha := by
    cases a with
    | releaseGuard psi' =>
      rcases List.mem_insert_iff.mp ha with rfl | hold
      · exact .inr (List.mem_singleton_self _)
      · exact .inl hold
    | _ => exact .inl ha

/-- It is finalised. -/
theorem turns_released (psi : UInt8) (c : UeContext) : Turns [] c
    { c with smRefs := c.smRefs.erase psi, releasing := c.releasing.filter (· != psi) } where
  sound hc := ⟨hc.secured, hc.bounded⟩
  awaits a ha := by
    cases a with
    | releaseGuard psi' => exact .inl (List.mem_filter.mp ha).1
    | _ => exact .inl ha

end Contexts

variable {F : Functions} {tx : Channel} {due : Due} {held : Held} {amfUeId : AmfUeId} {c : UeContext}

/-! ### Registration -/

theorem grows_addressed (supi : String) (amfUeId : AmfUeId) (tx : Channel) (t : Tables) :
    Grows t (t.addressed supi amfUeId tx) := ⟨fun _ => id, fun _ _ => id⟩

theorem grows_unaddressed (supi : String) (t : Tables) : Grows t (t.unaddressed supi) :=
  ⟨fun _ => id, fun _ _ => id⟩

theorem grows_forgetGutis (supi : String) (t : Tables) : Grows t (t.forgetGutis supi) :=
  ⟨fun _ => id, fun _ _ => id⟩

theorem grows_assignGuti (supi : String) (tmsi : Tmsi) (t : Tables) : Grows t (t.assignGuti supi tmsi) :=
  ⟨fun _ => id, fun _ _ => id⟩

theorem keeps_address (supi : String) : Keeps tx due due held held (address supi amfUeId) :=
  .bind (.look _) fun _ => .change (grows_addressed supi amfUeId _)

theorem keeps_spawnAmPolicyDelete (amPolicy : Option (String × String)) :
    Keeps tx due due held held (spawnAmPolicyDelete amfUeId amPolicy) := by
  unfold spawnAmPolicyDelete
  split
  · exact .spawnFor _
  · exact .pure _

theorem keeps_spawnSdmUnsubscribe (supi : String) :
    Keeps tx due due held held (spawnSdmUnsubscribe amfUeId supi) := by
  refine .bind (.actShared fun t => ⟨fun _ => id, fun _ _ => id⟩) fun subId => ?_
  cases subId with
  | none => exact .pure _
  | some subId => exact .spawnFor _

theorem keeps_fetchAmData (supi : String) : Keeps tx due due held held (fetchAmData amfUeId supi) := by
  refine .bind (.callFor _) fun udm => ?_
  cases udm with
  | none => exact .pure _
  | some udm =>
    refine .bind (.callFor _) fun am => ?_
    cases am <;> exact .pure _

theorem keeps_createAmPolicy (supi : String) :
    Keeps tx due due held held (createAmPolicy amfUeId supi) := by
  refine .bind (.callFor _) fun pcf => ?_
  cases pcf with
  | none => exact .pure _
  | some pcf =>
    refine .bind (.callFor _) fun am => ?_
    cases am <;> exact .pure _

theorem keeps_selectSlices (tac : Option Tac) (requested subscribed : List Snssai) :
    Keeps tx due due held held (selectSlices amfUeId tac requested subscribed) := by
  refine .bind (.callFor _) fun nssf => ?_
  cases nssf with
  | none => exact .pure _
  | some nssf => exact .callFor _

theorem keeps_rejectRegistration (c : UeContext) (sec : NasSecurityContext) (rejected : List Snssai) :
    Keeps tx [] [] held none (rejectRegistration F amfUeId c sec rejected) := by
  have hdrop : ∀ dls : List Downlink, Keeps tx [] [] held none (do removeUe amfUeId; return dls) :=
    fun _ => .bind .removeUe_nil fun _ => .pure _
  unfold rejectRegistration
  dsimp only
  split
  · exact .bind (.change (grows_unaddressed _)) fun _ => hdrop _
  · exact hdrop _

theorem keeps_acceptRegistration {c c' : UeContext} (hc : Alike c c') (sec : NasSecurityContext)
    (tmsi : Tmsi) (allowed rejected : List Snssai) :
    Keeps tx [] [] (some (amfUeId, c)) none (acceptRegistration F amfUeId c' sec tmsi allowed rejected) := by
  have hsend : ∀ (c' : UeContext) (dls : List Downlink), Turns [.nasRetx .RegistrationAccept] c c' →
      Keeps tx [] [] (some (amfUeId, c)) none (do
        insertUe amfUeId c'
        arm (.nasRetx · amfUeId .RegistrationAccept)
        return dls) :=
    fun _ _ hc => .bind (.insertUe hc) fun _ => .bind (.arm (.nasRetx .RegistrationAccept)) fun _ => .done _
  have hturns : ∀ sec bytes, Turns [.nasRetx .RegistrationAccept] c
      { c' with
        sec := some sec
        pendingRetx := some { kind := .RegistrationAccept, nasBytes := bytes, attempts := 1 } } :=
    fun sec bytes => (hc.trans (alike_sec sec c')).turns.trans (turns_retx ⟨.RegistrationAccept, bytes, 1⟩ _)
  have hchain : ∀ (nhChain : Option (Bytes × Nat)) (c : UeContext), Alike c { c with nhChain } :=
    fun _ _ => ⟨rfl, id, rfl, rfl, rfl, rfl⟩
  unfold acceptRegistration
  dsimp only
  split
  · refine .bind (.change (grows_assignGuti _ _)) fun _ => ?_
    split
    · exact hsend _ _ (hturns _ _)
    · exact hsend _ _ ((hturns _ _).trans (hchain _ _).turns)
  · split
    · exact hsend _ _ (hturns _ _)
    · exact hsend _ _ ((hturns _ _).trans (hchain _ _).turns)

theorem keeps_answerSecurityMode (subscribed : Option (List Snssai)) (ueAmbr : Option UeAmbr)
    (am : Option (String × String × PolicyAssociation)) (decision : Option (List Snssai × List Snssai)) :
    Keeps tx [] [] held none (answerSecurityMode F amfUeId subscribed ueAmbr am decision) := by
  refine .getUe_bind_nil (.done _) fun c => ?_
  have hpolicy : ∀ tmsi nssai,
      Alike c { c.withPolicy ueAmbr am with gutiTmsi := tmsi, allowedNssai := nssai } := by
    intro tmsi nssai
    unfold UeContext.withPolicy UeContext.recomputeUeAmbr
    cases am <;> exact ⟨rfl, id, rfl, rfl, rfl, rfl⟩
  dsimp only
  -- whatever the slices, the context is kept, refused or accepted
  split <;> split <;> split
  all_goals first
    | exact .bind (.insertUe (hpolicy _ _).turns) fun _ => .done _
    | exact keeps_rejectRegistration _ _ _
    | exact keeps_acceptRegistration (hpolicy _ _) _ _ _ _

theorem keeps_onSecurityModeComplete : Keeps tx [] [] held none (onSecurityModeComplete F amfUeId) := by
  refine .bind (.modifyUe turns_answered) fun _ => .getUe_bind_nil (.done _) fun c => ?_
  dsimp only
  cases c.suci with
  | none => exact (keeps_answerSecurityMode none none none none)
  | some supi =>
    refine .bind (keeps_fetchAmData supi) fun am => .bind (keeps_createAmPolicy supi) fun _ => ?_
    obtain ⟨subscribed, ueAmbr⟩ := am
    cases subscribed with
    | none => exact .bind (.pure _) fun _ => keeps_answerSecurityMode _ _ _ _
    | some subscribed =>
      exact .bind (keeps_selectSlices _ _ _) fun _ => keeps_answerSecurityMode _ _ _ _

theorem keeps_onRegistrationComplete : Keeps tx [] [] held none (onRegistrationComplete F amfUeId) := by
  refine .getUe_bind_nil (.done _) fun c => ?_
  dsimp only
  refine .bind .mark fun _ => .bind (.modifyUe turns_registered) fun _ => ?_
  cases c.suci with
  | none =>
    cases c.sec with
    | none => exact .done _
    | some sec => exact .bind (.alter (alike_sec _)) fun _ => .done _
  | some supi =>
    refine .bind (.spawnFor _) fun _ => .bind (.spawnFor _) fun _ => ?_
    cases c.sec with
    | none => exact .done _
    | some sec => exact .bind (.alter (alike_sec _)) fun _ => .done _

/-! ### Deregistration and sessions -/

theorem keeps_releaseSessions (sessions : List (String × String)) :
    Keeps tx due due held held (releaseSessions amfUeId sessions) :=
  .forEach (fun _ => .bind (.callFor _) fun _ => .pure _) sessions

theorem keeps_takeSessions : Keeps tx due due held none (takeSessions amfUeId) :=
  fun _ _ _ h => ⟨Keeps.proper_local, h.revise fun _ => Alike.turns ⟨rfl, id, rfl, rfl, rfl, rfl⟩⟩

theorem keeps_dropRegistration (c : UeContext) (forget : Bool) :
    Keeps tx [] [] held none (dropRegistration amfUeId c forget) := by
  have hleave : ∀ supi, Keeps tx [] [] held none (do
      spawnSdmUnsubscribe amfUeId supi
      spawnFor amfUeId (.uecmPurge supi)
      removeUe amfUeId) :=
    fun _ => .bind (keeps_spawnSdmUnsubscribe _) fun _ => .bind (.spawnFor _) fun _ => .removeUe_nil
  unfold dropRegistration
  cases c.suci with
  | none => exact .removeUe_nil
  | some supi =>
    refine .bind (.change (grows_unaddressed supi)) fun _ => ?_
    cases forget with
    | false => exact hleave supi
    | true => exact .bind (.change (grows_forgetGutis supi)) fun _ => hleave supi

theorem keeps_onDeregistration (deregistrationType : UInt8) :
    Keeps tx [] [] held none (onDeregistration F amfUeId deregistrationType) :=
  .getUe_bind_nil (.done _) fun c => .bind keeps_takeSessions fun _ => .bind (keeps_releaseSessions _) fun _ =>
    .bind (keeps_dropRegistration c false) fun _ => .bind (keeps_spawnAmPolicyDelete _) fun _ => .pure _

theorem keeps_onDeregistrationAccept : Keeps tx [] [] held none (onDeregistrationAccept amfUeId) := by
  refine .getUe_bind_nil (.done _) fun c => ?_
  dsimp only
  split
  · exact .done _
  · exact .bind (keeps_spawnAmPolicyDelete _) fun _ => .bind (keeps_dropRegistration c true) fun _ => .pure _

/-- Whether or not a release is finalised on the expiry of its guard. -/
theorem keeps_finalizeRelease (psi : UInt8) (hdue : ∀ e ∈ due, e = (amfUeId, .releaseGuard psi)) :
    Keeps tx due [] held none (finalizeRelease amfUeId psi) := by
  have hsettle : ∀ {c : UeContext} {l : Association} {t : Tables}, psi ∉ c.releasing →
      Intact tx due (some (amfUeId, c)) l t → Intact tx [] none l t := by
    refine fun {c} {l} {t} hpsi h => (h.settle fun e he => .inr fun c' hc' => ?_).drop
    rw [hdue e he] at hc' ⊢
    rw [h.held amfUeId c rfl] at hc'
    cases hc'
    exact hpsi
  have hdone : ∀ c, Keeps tx due [] (some (amfUeId, c)) none (modifyUe amfUeId fun c =>
      { c with smRefs := c.smRefs.erase psi, releasing := c.releasing.filter (· != psi) }) := by
    intro c l t w h
    refine ⟨Keeps.proper_local, hsettle ?_ (h.alter (turns_released psi c))⟩
    simp
  refine .getUe_bind (fun e he => .inr (by rw [hdue e he])) (.done _) fun c => ?_
  dsimp only
  split
  · split
    · exact .bind (.callFor _) fun _ => hdone c
    · exact hdone c
  · rename_i hpsi
    exact fun _ _ _ h => hsettle (by simpa using hpsi) h

theorem keeps_sendSm (psi : UInt8) (container : Bytes) :
    Keeps tx [] [] held none (sendSm F amfUeId psi container) := by
  refine .getUe_bind_nil (.done _) fun c => ?_
  dsimp only
  split
  · exact .done _
  · exact .bind (.alter (alike_sec _)) fun _ => .done _

theorem keeps_setUpSession (psi pti : UInt8) (dnn smfBase : String) (container : Bytes)
    (created : SmContextCreated) :
    Keeps tx [] [] held none (setUpSession F amfUeId psi pti dnn smfBase container created) := by
  refine .getUe_bind_nil (.done _) fun c =>
    .bind (.alter fun c => ⟨rfl, id, rfl, rfl, rfl, rfl⟩) fun _ => ?_
  dsimp only
  split
  · exact .done _
  · exact .bind (.alter (alike_sec _)) fun _ => .done _

theorem keeps_establishSession (supi : String) (psi : UInt8) (dnn : String) (snssai : Option Snssai)
    (container : Bytes) :
    Keeps tx [] [] held none (establishSession F amfUeId supi psi dnn snssai container) := by
  refine .bind (.callFor _) fun smf => ?_
  cases smf with
  | none => exact keeps_sendSm _ _
  | some smfBase =>
    refine .bind (.callFor _) fun created => ?_
    cases created with
    | ok created => exact keeps_setUpSession _ _ _ _ _ _
    | error e => exact keeps_sendSm _ _

theorem keeps_onUlNasTransport (transport : UlNasTransport) :
    Keeps tx [] [] held none (onUlNasTransport F amfUeId transport) := by
  unfold onUlNasTransport
  split
  · exact .done _
  · dsimp only
    split
    · exact .bind (keeps_finalizeRelease _ fun _ he => by cases he) fun _ => .pure _
    · refine .getUe_bind_nil (.done _) fun c => ?_
      dsimp only
      split
      · exact .done _
      · split
        · exact keeps_sendSm _ _
        · exact keeps_establishSession _ _ _ _ _

/-! ### Policy changes -/

theorem keeps_pushTrackedConfigUpdate (cuc : Nas5gmmMessage) (areaRestriction : Option AreaRestriction) :
    Keeps tx [] [] held none (pushTrackedConfigUpdate F amfUeId cuc areaRestriction) := by
  refine .getUe_bind_nil (.done _) fun c => ?_
  dsimp only
  split
  · exact .done _
  · exact .bind (.turn (turns_configUpdate _ _ c)) fun _ => .bind (.arm .t3555) fun _ => .done _

theorem keeps_onAmPolicyUpdate (ueAmbr : FieldUpdate UeAmbr) (rfsp : FieldUpdate Nat)
    (areaRestriction : FieldUpdate AreaRestriction) :
    Keeps tx [] [] held none (onAmPolicyUpdate F amfUeId ueAmbr rfsp areaRestriction) := by
  have hupdate : ∀ c : UeContext, Alike c (c.updatePolicy ueAmbr rfsp areaRestriction) :=
    fun c => ⟨rfl, id, rfl, rfl, rfl, rfl⟩
  refine .getUe_bind_nil (.done _) fun c => .bind (.insertUe (hupdate c).turns) fun _ => ?_
  exact .bind (keeps_pushTrackedConfigUpdate _ _) fun _ => .pure _

/-! ### Expiries, and what the network starts -/

theorem keeps_implicitDeregister (hdue : ∀ e ∈ due, e.1 = amfUeId) :
    Keeps tx due [] held none (implicitDeregister amfUeId) := by
  have hgone : ∀ e ∈ due, e ∈ ([] : Due) ∨ e.1 = amfUeId := fun e he => .inr (hdue e he)
  have hremove : ∀ (held : Held) (c : UeContext), Keeps tx due [] held none (do
      spawnAmPolicyDelete amfUeId c.amPolicy
      removeUe amfUeId
      return [Downlink.ueContextReleaseCommand amfUeId c.ranUeId .deregister]) :=
    fun _ _ => .bind (keeps_spawnAmPolicyDelete _) fun _ => .bind (.removeUe hgone) fun _ => .pure _
  refine .getUe_bind hgone (.done _) fun c => ?_
  dsimp only
  cases c.suci with
  | none => exact hremove _ c
  | some supi =>
    exact .bind (.change (grows_forgetGutis supi)) fun _ => .bind (keeps_spawnSdmUnsubscribe _) fun _ =>
      .bind (.spawnFor _) fun _ => hremove _ c

/-- The expiry of a timer that is armed again as long as its procedure goes on. -/
theorem keeps_onExpiry {expire : UeContext → Expiry} (a : Alarm)
    (hstale : ∀ c, Sound c → expire c = .stale → ¬ Awaits c a)
    (hresend : ∀ c nas areaRestriction c', expire c = .resend nas areaRestriction c' → Turns [] c c') :
    Keeps tx [(amfUeId, a)] [] held none (onExpiry amfUeId expire fun tx => a.job tx amfUeId) := by
  have hid : ∀ e ∈ [(amfUeId, a)], e.1 = amfUeId := fun e he => by rw [List.mem_singleton.mp he]
  refine .getUe_bind (fun e he => .inr (hid e he)) (.done _) fun c => .sound fun hc => ?_
  dsimp only
  split
  · rename_i hexpire
    exact .settle (hstale c hc hexpire) (.done _)
  · rename_i hexpire
    exact .bind (.insertUe (hresend _ _ _ _ hexpire)) fun _ => .bind (.arm a) fun _ => .done _
  · exact keeps_implicitDeregister hid

theorem keeps_onNasRetxExpiry (kind : RetxKind) :
    Keeps tx [(amfUeId, .nasRetx kind)] [] held none (onNasRetxExpiry amfUeId kind) := by
  refine keeps_onExpiry (.nasRetx kind) (fun c _ h ha => ?_) fun c _ _ c' h => ?_
  · obtain ⟨p, hp, rfl⟩ := Option.map_eq_some_iff.mp ha
    simp only [UeContext.expireNasRetx, hp, ne_eq, not_true_eq_false, if_false] at h
    split at h <;> cases h
  · unfold UeContext.expireNasRetx at h
    split at h
    · cases h
    · rename_i p hp
      split at h
      · cases h
      · split at h <;> cases h
        refine ⟨(turns_retx _ c).sound, fun a ha => .inl ?_⟩
        cases a with
        | nasRetx kind' =>
          rw [Awaits, hp]
          exact ha
        | _ => exact ha

theorem keeps_onT3555Expiry : Keeps tx [(amfUeId, .t3555)] [] held none (onT3555Expiry F amfUeId) := by
  refine keeps_onExpiry .t3555 (fun c hc h ha => ?_) fun c _ _ c' h => ?_
  · obtain ⟨p, hp⟩ := Option.isSome_iff_exists.mp ha
    obtain ⟨sec, hsec⟩ := Option.isSome_iff_exists.mp (hc.secured (.inl ha))
    simp only [UeContext.expireT3555, hp, hsec] at h
    split at h <;> cases h
  · unfold UeContext.expireT3555 at h
    split at h
    · cases h
    · rename_i p hp
      split at h
      · split at h <;> cases h
        refine ⟨(turns_configUpdate _ _ c).sound, fun a ha => .inl ?_⟩
        cases a with
        | t3555 => exact Option.isSome_iff_exists.mpr ⟨p, hp⟩
        | _ => exact ha
      · cases h

theorem keeps_onT3522Expiry : Keeps tx [(amfUeId, .t3522)] [] held none (onT3522Expiry F amfUeId) := by
  refine keeps_onExpiry .t3522 (fun c hc h ha => ?_) fun c _ _ c' h => ?_
  · obtain ⟨attempts, hattempts⟩ := Option.isSome_iff_exists.mp ha
    obtain ⟨sec, hsec⟩ := Option.isSome_iff_exists.mp (hc.secured (.inr ha))
    simp only [UeContext.expireT3522, hattempts, hsec] at h
    split at h <;> cases h
  · unfold UeContext.expireT3522 at h
    split at h
    · cases h
    · rename_i attempts hattempts
      split at h
      · rename_i hless
        split at h <;> cases h
        refine ⟨(turns_deregistration _ hless c).sound, fun a ha => .inl ?_⟩
        cases a with
        | t3522 => exact Option.isSome_iff_exists.mpr ⟨attempts, hattempts⟩
        | _ => exact ha
      · cases h

theorem keeps_onRegistrationGuardExpiry :
    Keeps tx [(amfUeId, .registrationGuard)] [] held none (onRegistrationGuardExpiry amfUeId) := by
  have hgone : ∀ e ∈ [(amfUeId, Alarm.registrationGuard)], e ∈ ([] : Due) ∨ e.1 = amfUeId :=
    fun e he => .inr (by rw [List.mem_singleton.mp he])
  have hevict : ∀ (held : Held) (c : UeContext),
      Keeps tx [(amfUeId, .registrationGuard)] [] held none (do
        spawnAmPolicyDelete amfUeId c.amPolicy
        removeUe amfUeId
        return [Downlink.ueContextReleaseCommand amfUeId c.ranUeId .radioReleaseDueTo5gcGeneratedReason]) :=
    fun _ _ => .bind (keeps_spawnAmPolicyDelete _) fun _ => .bind (.removeUe hgone) fun _ => .pure _
  refine .getUe_bind hgone (.done _) fun c => ?_
  dsimp only
  split
  · rename_i hstate
    exact .settle (not_not.mpr hstate) (.done _)
  · refine .bind (.look _) fun now => ?_
    split
    · split
      · refine .bind (.change fun t => ?_) fun _ => hevict _ c
        split
        · exact grows_unaddressed _ t
        · exact .refl t
      · exact hevict _ c
    · exact .bind (.arm .registrationGuard) fun _ => .done _

theorem keeps_onReleaseGuardExpiry (psi : UInt8) :
    Keeps tx [(amfUeId, .releaseGuard psi)] [] held none (onReleaseGuardExpiry amfUeId psi) := by
  refine .getUe_bind (fun e he => .inr (by rw [List.mem_singleton.mp he])) (.done _) fun c => ?_
  dsimp only
  split
  · exact .bind (keeps_finalizeRelease psi fun e he => List.mem_singleton.mp he) fun _ => .pure _
  · rename_i hpsi
    refine .settle (fun ha => hpsi ?_) (.done _)
    exact List.contains_iff_mem.mpr ha

theorem keeps_commandReleases (cause : UInt8) (psis : List UInt8) :
    Keeps tx [] [] held none (commandReleases F amfUeId cause psis) := by
  induction psis generalizing held with
  | nil => exact .done _
  | cons psi psis ih =>
    refine .getUe_bind_nil (.done _) fun c => ?_
    dsimp only
    split
    · exact .bind (.turn (turns_release _ psi c)) fun _ => .bind (.arm (.releaseGuard psi)) fun _ =>
        .bind ih fun _ => .pure _
    · exact ih

theorem keeps_onNetworkRelease (psis : List UInt8) (cause : UInt8) :
    Keeps tx [] [] held none (onNetworkRelease F amfUeId psis cause) := by
  refine .getUe_bind_nil (.done _) fun c => ?_
  dsimp only
  split
  · exact .done _
  · exact keeps_commandReleases _ _

theorem keeps_onNetworkDeregistration :
    Keeps tx [] [] held none (onNetworkDeregistration F amfUeId) := by
  have hremove : ∀ (held : Held) (dls : List Downlink), Keeps tx [] [] held none (do
      removeUe amfUeId
      return dls) := fun _ _ => .bind .removeUe_nil fun _ => .pure _
  have hrequest : ∀ (c : UeContext) (sec : NasSecurityContext) (dls : List Downlink),
      Keeps tx [] [] (some (amfUeId, c)) none (do
        modifyUe amfUeId fun c => { c with sec := some sec, deregAttempts := some 1 }
        arm (.t3522 · amfUeId)
        return dls) :=
    fun c _ _ => .bind (.turn (turns_deregistration _ (by decide) c)) fun _ =>
      .bind (.arm .t3522) fun _ => .done _
  have hsessions : ∀ c : UeContext, Alike c { c with smRefs := ∅ } :=
    fun _ => ⟨rfl, id, rfl, rfl, rfl, rfl⟩
  refine .getUe_bind_nil (.done _) fun c => ?_
  dsimp only
  split
  · exact .done _
  · refine .bind (.turn (hsessions c).turns) fun _ => .bind (keeps_releaseSessions _) fun _ => ?_
    split
    · refine .bind (.change (grows_unaddressed _)) fun _ => ?_
      split
      · exact hremove _ _
      · exact hrequest _ _ _
    · split
      · exact hremove _ _
      · exact hrequest _ _ _

theorem keeps_nudge (c : UeContext) : Keeps tx [] [] held none (nudge F amfUeId c) := by
  unfold nudge
  split
  · exact .done _
  · exact .bind (.alter (alike_sec _)) fun _ => .done _

theorem alike_changes (ueAmbr : Option UeAmbr) (allowedNssai : Option (List Snssai)) (c : UeContext) :
    Alike c ((c.changeAmbr ueAmbr).1.changeNssai allowedNssai).1 := by
  obtain ⟨_, _, hambr⟩ := c.changeAmbr_eq ueAmbr
  obtain ⟨_, hnssai⟩ := (c.changeAmbr ueAmbr).1.changeNssai_eq allowedNssai
  rw [hnssai, hambr]
  exact ⟨rfl, id, rfl, rfl, rfl, rfl⟩

theorem keeps_onSdmDataChange (ueAmbr : Option UeAmbr) (allowedNssai : Option (List Snssai)) :
    Keeps tx [] [] held none (onSdmDataChange F amfUeId ueAmbr allowedNssai) := by
  refine .getUe_bind_nil (.done _) fun c => ?_
  have hchanges := alike_changes ueAmbr allowedNssai c
  dsimp only
  generalize c.changeAmbr ueAmbr = changed at hchanges ⊢
  obtain ⟨c₁, ambrChanged⟩ := changed
  dsimp only at hchanges ⊢
  generalize c₁.changeNssai allowedNssai = changed at hchanges ⊢
  obtain ⟨c₂, nssaiChanged⟩ := changed
  refine .bind (.insertUe hchanges.turns) fun _ => ?_
  dsimp only
  split
  · exact .done _
  · split
    · exact .bind (keeps_nudge _) fun _ => .pure _
    · exact .bind (keeps_pushTrackedConfigUpdate _ _) fun _ => .bind (keeps_onNetworkRelease _ _) fun _ =>
        .pure _

theorem keeps_onNetworkModification (m : ModifyPolicy) :
    Keeps tx [] [] held none (onNetworkModification F m) := by
  refine .getUe_bind_nil (.done _) fun c => ?_
  dsimp only
  split
  · exact .done _
  · split
    · exact .done _
    · exact .bind (.alter fun c => ⟨rfl, fun _ => rfl, rfl, rfl, rfl, rfl⟩) fun _ => .done _

/-! ### Coming back from idle -/

theorem keeps_activateSessions (sessions : List (UInt8 × String × String)) :
    Keeps tx due due held held (activateSessions amfUeId sessions) := by
  induction sessions with
  | nil => exact .pure _
  | cons session rest ih =>
    obtain ⟨psi, smRef, smfBase⟩ := session
    refine .bind (.callFor _) fun created => ?_
    cases created with
    | none => exact ih
    | some created => exact .bind ih fun _ => .pure _

section Return

variable {α : Type} {held' : Held}

theorem keeps_nextAmfUeId : Keeps tx due due held held nextAmfUeId :=
  .actShared fun _ => ⟨fun _ => id, fun _ _ => id⟩

/-- What was retained is at rest. -/
theorem Keeps.takeRetained_bind {tmsi : Tmsi} {k : Option UeContext → AmfM α}
    (hnone : Keeps tx [] [] held held' (k none))
    (hsome : ∀ c, Sound c → Quiet c → Keeps tx [] [] held held' (k (some c))) :
    Keeps tx [] [] held held' (takeRetained tmsi >>= k) := by
  intro l t w h
  have hgrows : Grows t { t with retained := t.retained.erase tmsi } :=
    ⟨fun _ => id, fun _ _ h => (Keyed.Map.of_lookup_erase h).2⟩
  rw [Proc.assured_bind, takeRetained, Proc.assured_actShared]
  refine ⟨hgrows.others, ?_⟩
  have htaken := h.others (hgrows.others tx)
  cases hc : t.retained.lookup tmsi with
  | none => exact hnone _ _ _ htaken
  | some c =>
    obtain ⟨hsound, hquiet⟩ := h.reserve tmsi c hc
    exact hsome c hsound hquiet _ _ _ htaken

theorem Keeps.reallocateGuti_bind {ret : Return} {tmsi : Tmsi} {k : UeContext × Tmsi → AmfM α}
    (hk : ∀ c' tmsi, Alike c c' → Keeps tx [] [] held held' (k (c', tmsi))) :
    Keeps tx [] [] held held' (reallocateGuti ret amfUeId c tmsi >>= k) := by
  intro l t w h
  rw [Proc.assured_bind, reallocateGuti]
  have hassigned : ∀ gutiTmsi : Option Tmsi, Alike c { c with gutiTmsi } :=
    fun _ => ⟨rfl, id, rfl, rfl, rfl, rfl⟩
  split
  · dsimp only
    split
    · have hgrows := grows_assignGuti ‹String› (amfUeId.setWidth 32) t
      exact ⟨hgrows.others, hk _ _ (hassigned _) _ _ _ (h.others (hgrows.others tx))⟩
    · exact hk _ _ (hassigned _) _ _ _ h
  · exact hk _ _ (.refl c) _ _ _ h

theorem Keeps.reconcileSessions_bind {active : Option (List UInt8)} {k : UeContext → AmfM α}
    (hk : ∀ c', Alike c c' → Keeps tx [] [] held held' (k c')) :
    Keeps tx [] [] held held' (reconcileSessions amfUeId active c >>= k) := by
  unfold reconcileSessions
  cases active with
  | none => exact hk c (.refl c)
  | some active =>
    intro l t w h
    rw [Proc.assured_bind, Proc.assured_bind]
    refine assured_mono (fun _ l t w h => ?_) (keeps_releaseSessions _ l t w h)
    rw [Proc.assured_pure]
    refine hk _ ?_ l t w h
    exact ⟨rfl, id, rfl, rfl, rfl, rfl⟩

theorem alike_acceptReturn (ret : Return) (tmsi : Tmsi) (c : UeContext) :
    Alike c (acceptReturn F ret tmsi c).2 := by
  unfold acceptReturn
  split
  · exact .refl c
  · dsimp only
    split <;> exact ⟨rfl, fun _ => rfl, rfl, rfl, rfl, rfl⟩

theorem keeps_resume (hsound : Sound c) (hquiet : Quiet c) (ranUeId : RanUeId) (tac : Option Tac)
    (tmsi : Tmsi) (ret : Return) (msg : Nas5gmmMessage) :
    Keeps tx [] [] held none (resume F ranUeId tac tmsi ret msg c) := by
  have hback : ∀ area, Alike c { c.comeBack ranUeId tac with registrationArea := area } :=
    fun _ => ⟨rfl, id, rfl, rfl, rfl, rfl⟩
  have htaken : ∀ c : UeContext, Alike c { c with pendingAmPolicy := none } :=
    fun _ => ⟨rfl, id, rfl, rfl, rfl, rfl⟩
  refine .bind keeps_nextAmfUeId fun amfUeId => .bind (.look _) fun assigned =>
    .reallocateGuti_bind fun c₁ tmsi₁ h₁ => .bind .mark fun _ => .reconcileSessions_bind fun c₂ h₂ => ?_
  dsimp only
  have halike : Alike c (acceptReturn F ret tmsi₁ c₂).2 :=
    ((((hback _).trans h₁).trans (htaken c₁)).trans h₂).trans (alike_acceptReturn ret tmsi₁ c₂)
  refine .bind (.placeAtRest (hsound.alike halike) (hquiet.alike halike)) fun _ => ?_
  cases (acceptReturn F ret tmsi₁ c₂).2.suci with
  | none =>
    refine .bind (keeps_activateSessions _) fun _ => ?_
    cases c₁.pendingAmPolicy with
    | none => exact .bind (.pure _) fun _ => .done _
    | some p => exact .bind (keeps_onAmPolicyUpdate _ _ _) fun _ => .pure _
  | some supi =>
    refine .bind (keeps_address supi) fun _ => .bind (keeps_activateSessions _) fun _ => ?_
    cases c₁.pendingAmPolicy with
    | none => exact .bind (.pure _) fun _ => .done _
    | some p => exact .bind (keeps_onAmPolicyUpdate _ _ _) fun _ => .pure _

theorem keeps_rejectReturn (ranUeId : RanUeId) : Keeps tx [] [] held none (rejectReturn F ranUeId) :=
  .bind keeps_nextAmfUeId fun _ => .done _

theorem keeps_onServiceRequest (msg : InitialUEMessage) (tmsi : Tmsi) :
    Keeps tx [] [] held none (onServiceRequest F msg tmsi) := by
  unfold onServiceRequest
  split
  · exact .done _
  · refine .takeRetained_bind (.done _) fun c hsound hquiet => ?_
    dsimp only
    -- only what has come protected is read
    cases msg.nasPdu with
    | none => exact keeps_rejectReturn _
    | some raw =>
      cases c.sec with
      | none => exact keeps_rejectReturn _
      | some sec =>
        dsimp only
        generalize sec.unprotect F.algorithms F.nas.toCodec raw 0 = read
        obtain ⟨m, sec'⟩ := read
        dsimp only
        split
        · exact keeps_resume (hsound.alike (alike_sec sec' c)) (hquiet.alike (alike_sec sec' c)) _ _ _ _ _
        · exact keeps_rejectReturn _

end Return

end Radian.Amf.Outstanding
