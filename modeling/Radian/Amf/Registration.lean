import Radian.Amf.Authentication

/-!
# Registration and deregistration

From the Security Mode Complete to Registered, and back.

- `fetchAmData`, `createAmPolicy`, `selectSlices` — what the registration asks UDM, PCF and NSSF.
- `onSecurityModeComplete` — the Registration Accept, or the reject when no slice is left.
- `onRegistrationComplete`, `onDeregistration`, `onDeregistrationAccept`.
-/

namespace Radian.Amf

open Nas (NasSecurityContext Snssai Tac)

variable (F : Functions)

/-! ### Subscription, policy, slices -/

/-- A BitRate string in bits per second. -/
def bitrateToBps (s : String) : Option Nat := Npcf.bitrateToBps s

/-- The downlink and the uplink of an AMBR, when both can be read. -/
def ambrToBps (ambr : String × String) : Option UeAmbr := do
  let dl ← bitrateToBps ambr.1
  let ul ← bitrateToBps ambr.2
  return (dl, ul)

/-- Six hexadecimal digits; `from_str_radix` takes a leading plus too. -/
def parseTac (s : String) : Option Tac :=
  if s.utf8ByteSize ≠ 6 then none else (Text.parseUnsigned 16 32 s.toList).map (BitVec.ofNat 24)

def areaRestrictionTacs (sar : ServiceAreaRestriction) : Option AreaRestriction :=
  let tacs := sar.tacs.filterMap parseTac
  if tacs.isEmpty then none
  else if sar.restrictionType = "ALLOWED_AREAS" then some (tacs, [])
  else some ([], tacs)

/-- The slices allowed and rejected: a UE that asks for none gets the subscribed ones. -/
def computeNssai (requested subscribed : List Snssai) : List Snssai × List Snssai :=
  if requested.isEmpty then (subscribed, [])
  else requested.partition fun slice => subscribed.contains slice

/-- The subscribed slices and UE-AMBR, as far as they can be had. -/
def fetchAmData (amfUeId : AmfUeId) (supi : String) :
    AmfM (Option (List Snssai) × Option UeAmbr) := do
  match ← callFor amfUeId (.discoverNf "UDM") with
  | none => return (none, none)
  | some udm =>
      match ← callFor amfUeId (.getAmData udm supi (PLMN_MCC ++ PLMN_MNC)) with
      | none => return (none, none)
      | some am =>
          let slices := am.defaultSingleNssais
          return (if slices.isEmpty then none else some slices, am.subscribedUeAmbr.bind ambrToBps)

/-- The PCF, the association there and its policy. -/
def createAmPolicy (amfUeId : AmfUeId) (supi : String) :
    AmfM (Option (String × String × PolicyAssociation)) := do
  match ← callFor amfUeId (.discoverNf "PCF") with
  | none => return none
  | some pcf =>
      match ← callFor amfUeId (.createAmPolicy pcf supi (PLMN_MCC ++ PLMN_MNC)) with
      | none => return none
      | some (assocId, policy) => return some (pcf, assocId, policy)

def selectSlices (amfUeId : AmfUeId) (tac : Option Tac) (requested subscribed : List Snssai) :
    AmfM (Option (List Snssai × List Snssai)) := do
  match ← callFor amfUeId (.discoverNf "NSSF") with
  | none => return none
  | some nssf => callFor amfUeId (.nsSelection nssf tac requested subscribed)

/-! ### Security Mode Complete -/

/-- The subscribed UE-AMBR and the AM policy go into the context. -/
def UeContext.withPolicy (ueAmbr : Option UeAmbr)
    (am : Option (String × String × PolicyAssociation)) (c : UeContext) : UeContext :=
  let c := { c with subscribedUeAmbr := ueAmbr <|> c.subscribedUeAmbr }
  let c := match am with
    | some (pcfBase, assocId, policy) =>
        { c with
          pcfUeAmbr := policy.ueAmbr.bind ambrToBps <|> c.pcfUeAmbr
          rfsp := policy.rfsp
          areaRestriction := policy.servAreaRes.bind areaRestrictionTacs
          amPolicy := some (pcfBase, assocId) }
    | none => c
  c.recomputeUeAmbr

/-- No slice is left: Registration Reject, and the context goes. -/
def rejectRegistration (amfUeId : AmfUeId) (c : UeContext) (sec : NasSecurityContext)
    (rejected : List Snssai) : AmfM (List Downlink) := do
  let reject := .registrationReject Nas.MmCause.NO_NETWORK_SLICES_AVAILABLE rejected
    (some (Nas.gprsTimer2 REG_REJECT_BACKOFF_SECS))
  let (bytes, _) := sec.protectDl F.algorithms F.nas Nas.Sht.INTEGRITY_CIPHERED reject
  match c.suci with
  | some supi => Proc.change (Tables.unaddressed supi)
  | none => pure ()
  removeUe amfUeId
  return [.downlinkNasTransport amfUeId c.ranUeId bytes none,
    .ueContextReleaseCommand amfUeId c.ranUeId .normalRelease]

/-- A restriction that names a tracking area at all. -/
def someArea (r : Option AreaRestriction) : Option AreaRestriction :=
  r.filter fun r => !r.1.isEmpty || !r.2.isEmpty

/-- Assign the 5G-GUTI and send the Registration Accept, in an Initial Context Setup when there is a
K_AMF to derive K_gNB from. -/
def acceptRegistration (amfUeId : AmfUeId) (c : UeContext) (sec : NasSecurityContext) (tmsi : Tmsi)
    (allowed rejected : List Snssai) : AmfM (List Downlink) := do
  match c.suci with
  | some supi => Proc.change (Tables.assignGuti supi tmsi)
  | none => pure ()
  let accept := .registrationAccept
    { tmsi, allowedNssai := allowed, rejectedNssai := rejected, t3512Secs := T3512_SECS
      registrationArea := c.registrationArea, activePduSessions := none }
  -- the uplink COUNT has moved past the Security Mode Complete
  let kgnb := c.kamf.map fun kamf => F.aka.kgnb kamf (sec.ulCount - 1)
  let (bytes, sec) := sec.protectDl F.algorithms F.nas Nas.Sht.INTEGRITY_CIPHERED accept
  let c :=
    { c with
      sec := some sec
      pendingRetx := some { kind := .RegistrationAccept, nasBytes := bytes, attempts := 1 } }
  match kgnb with
  | none =>
      insertUe amfUeId c
      arm (.nasRetx · amfUeId .RegistrationAccept)
      return [.downlinkNasTransport amfUeId c.ranUeId bytes none]
  | some securityKey =>
      insertUe amfUeId { c with nhChain := some (securityKey, 0) }
      arm (.nasRetx · amfUeId .RegistrationAccept)
      return [.initialContextSetupRequest amfUeId c.ranUeId
        { allowedNssai := allowed
          ueSecCap := c.replayedUeSecCap.getD UE_SEC_CAP
          securityKey
          ueAmbr := c.ueAmbr
          rfsp := c.rfsp
          areaRestriction := someArea c.areaRestriction
          pduSessions := []
          nas := bytes
          ueRadioCapability := c.ueRadioCapability }]

/-- The answer to the Security Mode Complete, once all has been asked. -/
def answerSecurityMode (amfUeId : AmfUeId) (subscribed : Option (List Snssai))
    (ueAmbr : Option UeAmbr) (am : Option (String × String × PolicyAssociation))
    (decision : Option (List Snssai × List Snssai)) : AmfM (List Downlink) := do
  match ← getUe amfUeId with
  | none => return []
  | some c =>
      let tmsi : Tmsi := amfUeId.setWidth 32
      let c := { c.withPolicy ueAmbr am with gutiTmsi := some tmsi }
      let (allowed, rejected) := match subscribed, decision with
        | some _, some decision => decision
        | some subscribed, none => computeNssai c.requestedNssai subscribed
        | none, _ => ([], [])
      if subscribed.isSome ∧ allowed.isEmpty then
        match c.sec with
        | none =>
            insertUe amfUeId c
            return []
        | some sec => rejectRegistration F amfUeId c sec rejected
      else
        let c := { c with allowedNssai := subscribed.map fun _ => allowed }
        match c.sec with
        | none =>
            insertUe amfUeId c
            return []
        | some sec => acceptRegistration F amfUeId c sec tmsi allowed rejected

/-- A Security Mode Complete: ask for the subscription, the policy and the slices, and answer. -/
def onSecurityModeComplete (amfUeId : AmfUeId) : AmfM (List Downlink) := do
  modifyUe amfUeId fun c => { c with pendingRetx := none }
  match ← getUe amfUeId with
  | none => return []
  | some c =>
      let (subscribed, ueAmbr) ← match c.suci with
        | some supi => fetchAmData amfUeId supi
        | none => pure (none, none)
      let am ← match c.suci with
        | some supi => createAmPolicy amfUeId supi
        | none => pure none
      let decision ← match subscribed with
        | some subscribed => selectSlices amfUeId c.tac c.requestedNssai subscribed
        | none => pure none
      answerSecurityMode F amfUeId subscribed ueAmbr am decision

/-! ### Registration Complete -/

def onRegistrationComplete (amfUeId : AmfUeId) : AmfM (List Downlink) := do
  match ← getUe amfUeId with
  | none => return []
  | some c =>
      Proc.mark (.registered amfUeId)
      modifyUe amfUeId fun c =>
        { c with state := .Registered, pendingRetx := none, cblSlot := false }
      match c.suci with
      | some supi =>
          spawnFor amfUeId (.uecmRegister supi)
          spawnFor amfUeId (.sdmSubscribe supi)
      | none => pure ()
      match c.sec with
      | none => return []
      | some sec =>
          let (cuc, sec) := sec.protectDl F.algorithms F.nas Nas.Sht.INTEGRITY_CIPHERED
            (.configurationUpdateCommand [] false false)
          modifyUe amfUeId fun c => { c with sec := some sec }
          return [.downlinkNasTransport amfUeId c.ranUeId cuc none]

/-! ### Deregistration -/

/-- Release SM contexts at their SMFs; what comes back is only logged. -/
def releaseSessions (amfUeId : AmfUeId) (sessions : List (String × String)) : AmfM Unit :=
  Proc.forEach (fun (smRef, smfBase) => do
    let _ ← callFor amfUeId (.releaseSmContext smfBase smRef)) sessions

/-- Take a context's sessions out of it. -/
def takeSessions (amfUeId : AmfUeId) : AmfM (List (String × String)) :=
  Proc.act fun l t =>
    (match l.ues.lookup amfUeId with
      | some c => c.smRefs.entries.map fun e => e.2
      | none => [],
      l.modify amfUeId fun c => { c with smRefs := ∅ }, t)

/-- What a deregistered UE leaves at UDM and PCF is taken back, and the context goes. -/
def dropRegistration (amfUeId : AmfUeId) (c : UeContext) (forget : Bool) : AmfM Unit := do
  match c.suci with
  | some supi =>
      Proc.change (Tables.unaddressed supi)
      if forget then Proc.change (Tables.forgetGutis supi)
      spawnSdmUnsubscribe amfUeId supi
      spawnFor amfUeId (.uecmPurge supi)
  | none => pure ()
  removeUe amfUeId

/-- A deregistration by the UE. -/
def onDeregistration (amfUeId : AmfUeId) (deregistrationType : UInt8) : AmfM (List Downlink) := do
  match ← getUe amfUeId with
  | none => return []
  | some c =>
      let sessions ← takeSessions amfUeId
      releaseSessions amfUeId sessions
      let accept : List Downlink :=
        if Nas.isSwitchOff deregistrationType then []
        else
          match c.sec with
          | some sec =>
              [.downlinkNasTransport amfUeId c.ranUeId
                (sec.protectDl F.algorithms F.nas Nas.Sht.INTEGRITY_CIPHERED
                  .deregistrationAcceptFromUe).1 none]
          | none => []
      dropRegistration amfUeId c false
      spawnAmPolicyDelete amfUeId c.amPolicy
      return accept ++ [.ueContextReleaseCommand amfUeId c.ranUeId .deregister]

/-- The UE accepts a deregistration by the network. -/
def onDeregistrationAccept (amfUeId : AmfUeId) : AmfM (List Downlink) := do
  match ← getUe amfUeId with
  | none => return []
  | some c =>
      match c.deregAttempts with
      | none => return []
      | some _ =>
          spawnAmPolicyDelete amfUeId c.amPolicy
          dropRegistration amfUeId c true
          return [.ueContextReleaseCommand amfUeId c.ranUeId .deregister]

end Radian.Amf
