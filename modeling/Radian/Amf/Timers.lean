import Radian.Amf.Sessions

/-!
# Timers and what the network initiates

The AMF's timers are tasks that sleep and then post an expiry to an association, by AMF-UE-NGAP-ID.

- `UeContext.expireNasRetx`, `UeContext.expireT3555`, `UeContext.expireT3522` — what an expiry makes of
  a context: nothing, one more transmission, or the end of the procedure.
- `onNasRetxExpiry`, `onT3555Expiry`, `onT3522Expiry`, `onRegistrationGuardExpiry`,
  `onReleaseGuardExpiry` — the handlers.
- `onNetworkDeregistration`, `onNetworkRelease`, `onSdmDataChange` — procedures the network starts.
- `before_removeUe`, `before_implicitDeregister` — the context is gone.
-/

namespace Radian.Amf

open Nas (Snssai)
open Security (Bytes)

variable (F : Functions)

def T3522_MAX_SENDS : Nat := 5
def T3555_MAX_SENDS : Nat := 5
def NAS_RETX_MAX_SENDS : Nat := 5
def REGISTRATION_GUARD_SECS : Nat := 10

/-! ### Retransmission -/

/-- What an expiry makes of a context. -/
inductive Expiry where
  /-- The procedure is not under way any more. -/
  | stale
  /-- The message goes out once more. -/
  | resend (nas : Bytes) (areaRestriction : Option AreaRestriction) (c : UeContext)
  | exhausted
  deriving DecidableEq

namespace UeContext

/-- T3570, T3560, T3550: the exact bytes go out again, if a message of this kind is outstanding. -/
def expireNasRetx (kind : RetxKind) (c : UeContext) : Expiry :=
  match c.pendingRetx with
  | none => .stale
  | some p =>
      if p.kind ≠ kind then .stale
      else if p.attempts ≥ NAS_RETX_MAX_SENDS then .exhausted
      else .resend p.nasBytes none
        { c with pendingRetx := some { p with attempts := p.attempts + 1 } }

/-- T3555: the command is protected anew. -/
def expireT3555 (c : UeContext) : Expiry :=
  match c.pendingConfigUpdate with
  | none => .stale
  | some p =>
      if p.attempts < T3555_MAX_SENDS then
        match c.sec with
        | none => .stale
        | some sec =>
            let (bytes, sec) := sec.protectDl F.algorithms F.nas Nas.Sht.INTEGRITY_CIPHERED p.cuc
            .resend bytes p.areaRestriction
              { c with
                sec := some sec
                pendingConfigUpdate := some { p with attempts := p.attempts + 1 } }
      else .exhausted

/-- T3522: the request is protected anew. -/
def expireT3522 (c : UeContext) : Expiry :=
  match c.deregAttempts with
  | none => .stale
  | some attempts =>
      if attempts < T3522_MAX_SENDS then
        match c.sec with
        | none => .stale
        | some sec =>
            let (bytes, sec) := sec.protectDl F.algorithms F.nas Nas.Sht.INTEGRITY_CIPHERED
              (.deregistrationRequestToUe 0x01)
            .resend bytes none { c with sec := some sec, deregAttempts := some (attempts + 1) }
      else .exhausted

end UeContext

/-- The UE is unreachable: what it leaves elsewhere is taken back, and the context goes. -/
def implicitDeregister (amfUeId : AmfUeId) : AmfM (List Downlink) := do
  match ← getUe amfUeId with
  | none => return []
  | some c =>
      match c.suci with
      | some supi =>
          Proc.change (Tables.forgetGutis supi)
          spawnSdmUnsubscribe amfUeId supi
          spawnFor amfUeId (.uecmPurge supi)
      | none => pure ()
      spawnAmPolicyDelete amfUeId c.amPolicy
      removeUe amfUeId
      return [.ueContextReleaseCommand amfUeId c.ranUeId .deregister]

/-- An expiry of a retransmission timer; `timer` is armed again for the next transmission. -/
def onExpiry (amfUeId : AmfUeId) (expire : UeContext → Expiry) (timer : Channel → Job) :
    AmfM (List Downlink) := do
  match ← getUe amfUeId with
  | none => return []
  | some c =>
      match expire c with
      | .stale => return []
      | .resend nas areaRestriction c' =>
          insertUe amfUeId c'
          arm timer
          return [.downlinkNasTransport amfUeId c.ranUeId nas areaRestriction]
      | .exhausted => implicitDeregister amfUeId

def onNasRetxExpiry (amfUeId : AmfUeId) (kind : RetxKind) : AmfM (List Downlink) :=
  onExpiry amfUeId (UeContext.expireNasRetx kind) (.nasRetx · amfUeId kind)

def onT3555Expiry (amfUeId : AmfUeId) : AmfM (List Downlink) :=
  onExpiry amfUeId (UeContext.expireT3555 F) (.t3555 · amfUeId)

def onT3522Expiry (amfUeId : AmfUeId) : AmfM (List Downlink) :=
  onExpiry amfUeId (UeContext.expireT3522 F) (.t3522 · amfUeId)

/-! ### Guards -/

/-- Whether a registration has made no progress for a whole guard window. -/
def UeContext.stalled (now : Instant) (c : UeContext) : Bool :=
  REGISTRATION_GUARD_SECS ≤ now - c.regProgressAt

/-- The registration guard: armed again while there is progress; else the context goes. -/
def onRegistrationGuardExpiry (amfUeId : AmfUeId) : AmfM (List Downlink) := do
  match ← getUe amfUeId with
  | none => return []
  | some c =>
      if c.state = .Registered then return []
      else
        let now ← Proc.look fun _ t => t.clock
        if c.stalled now then
          match c.suci with
          | some supi => Proc.change fun t =>
              if (t.ueDirectory.lookup supi).map (fun e => e.1) = some amfUeId then t.unaddressed supi
              else t
          | none => pure ()
          spawnAmPolicyDelete amfUeId c.amPolicy
          removeUe amfUeId
          return [.ueContextReleaseCommand amfUeId c.ranUeId .radioReleaseDueTo5gcGeneratedReason]
        else
          arm (.registrationGuard · amfUeId)
          return []

/-- The release guard: the UE did not answer, so the release is finalised. -/
def onReleaseGuardExpiry (amfUeId : AmfUeId) (psi : UInt8) : AmfM (List Downlink) := do
  match ← getUe amfUeId with
  | none => return []
  | some c =>
      if c.releasing.contains psi then finalizeRelease amfUeId psi
      return []

/-! ### What the network starts -/

/-- Send a Release Command for each session there is, and arm its guard. -/
def commandReleases (amfUeId : AmfUeId) (cause : UInt8) : List UInt8 → AmfM (List Downlink)
  | [] => return []
  | psi :: rest => do
      match ← getUe amfUeId with
      | none => return []
      | some c =>
          match c.sec, c.smRefs.lookup psi with
          | some sec, some _ =>
              let (bytes, sec) := sec.protectDl F.algorithms F.nas Nas.Sht.INTEGRITY_CIPHERED
                (.dlNasTransport psi (Nas.pduSessionReleaseCommand psi 0 cause))
              modifyUe amfUeId fun c =>
                { c with sec := some sec, releasing := c.releasing.insert psi }
              arm (.releaseGuard · amfUeId psi)
              let more ← commandReleases amfUeId cause rest
              return .pduSessionResourceReleaseCommand amfUeId c.ranUeId psi bytes :: more
          | _, _ => commandReleases amfUeId cause rest

/-- The SMF, or a narrowed NSSAI, has sessions released. -/
def onNetworkRelease (amfUeId : AmfUeId) (psis : List UInt8) (cause : UInt8) :
    AmfM (List Downlink) := do
  match ← getUe amfUeId with
  | none => return []
  | some c => if c.sec.isNone then return [] else commandReleases F amfUeId cause psis

/-- The subscription is withdrawn: release the sessions, and have the UE deregister. -/
def onNetworkDeregistration (amfUeId : AmfUeId) : AmfM (List Downlink) := do
  match ← getUe amfUeId with
  | none => return []
  | some c =>
      if c.deregAttempts.isSome then return []
      else
        modifyUe amfUeId fun c => { c with smRefs := ∅ }
        releaseSessions amfUeId (c.smRefs.entries.map fun e => e.2)
        match c.suci with
        | some supi => Proc.change (Tables.unaddressed supi)
        | none => pure ()
        match c.sec with
        | none =>
            removeUe amfUeId
            return [.ueContextReleaseCommand amfUeId c.ranUeId .deregister]
        | some sec =>
            let (bytes, sec) := sec.protectDl F.algorithms F.nas Nas.Sht.INTEGRITY_CIPHERED
              (.deregistrationRequestToUe 0x01)
            modifyUe amfUeId fun c => { c with sec := some sec, deregAttempts := some 1 }
            arm (.t3522 · amfUeId)
            return [.downlinkNasTransport amfUeId c.ranUeId bytes none]

namespace UeContext

/-- A new subscribed UE-AMBR, and whether the one in effect has changed. -/
def changeAmbr (ueAmbr : Option UeAmbr) (c : UeContext) : UeContext × Bool :=
  match ueAmbr with
  | none => (c, false)
  | some ambr =>
      if c.subscribedUeAmbr = some ambr then (c, false)
      else
        let c' := { c with subscribedUeAmbr := some ambr }.recomputeUeAmbr
        (c', c'.ueAmbr != c.ueAmbr)

/-- Nothing but the AMBRs changes. -/
theorem changeAmbr_eq (ueAmbr : Option UeAmbr) (c : UeContext) : ∃ subscribedUeAmbr ambr,
    (c.changeAmbr ueAmbr).1 = { c with subscribedUeAmbr, ueAmbr := ambr } := by
  unfold changeAmbr
  split
  · exact ⟨_, _, rfl⟩
  · split <;> exact ⟨_, _, rfl⟩

/-- New allowed slices, and whether one is lost that was allowed; `none` when they are the same. -/
def changeNssai (allowedNssai : Option (List Snssai)) (c : UeContext) : UeContext × Option Bool :=
  match allowedNssai with
  | none => (c, none)
  | some nssai =>
      if c.allowedNssai = some nssai then (c, none)
      else
        ({ c with allowedNssai := some nssai },
          some ((c.allowedNssai.getD []).any fun slice => !nssai.contains slice))

theorem changeNssai_eq (allowedNssai : Option (List Snssai)) (c : UeContext) :
    ∃ nssai, (c.changeNssai allowedNssai).1 = { c with allowedNssai := nssai } := by
  unfold changeNssai
  split
  · exact ⟨_, rfl⟩
  · split <;> exact ⟨_, rfl⟩

/-- The sessions on slices that are not allowed any more. -/
def disallowedSessions (c : UeContext) : List UInt8 :=
  let allowed := c.allowedNssai.getD []
  if allowed.isEmpty then []
  else (c.smRefs.entries.map fun e => e.1).filter fun psi =>
    (c.sessionSnssai.lookup psi).any fun slice => !allowed.contains slice

end UeContext

/-- A Configuration Update Command that nobody has to acknowledge. -/
def nudge (amfUeId : AmfUeId) (c : UeContext) : AmfM (List Downlink) := do
  match c.sec with
  | none => return []
  | some sec =>
      let (bytes, sec) := sec.protectDl F.algorithms F.nas Nas.Sht.INTEGRITY_CIPHERED
        (.configurationUpdateCommand [] false false)
      modifyUe amfUeId fun c => { c with sec := some sec }
      return [.downlinkNasTransport amfUeId c.ranUeId bytes none]

/-- The subscriber's data have changed: tell the gNB and the UE what is new to them. -/
def onSdmDataChange (amfUeId : AmfUeId) (ueAmbr : Option UeAmbr)
    (allowedNssai : Option (List Snssai)) : AmfM (List Downlink) := do
  match ← getUe amfUeId with
  | none => return []
  | some c =>
      let (c, ambrChanged) := c.changeAmbr ueAmbr
      let (c, nssaiChanged) := c.changeNssai allowedNssai
      insertUe amfUeId c
      if !ambrChanged && nssaiChanged.isNone then return []
      else
        let modification := if ambrChanged
          then [.ueContextModificationRequest amfUeId c.ranUeId c.rfsp c.ueAmbr] else []
        match nssaiChanged with
        | none =>
            let command ← nudge F amfUeId c
            return modification ++ command
        | some narrowed =>
            let command ← pushTrackedConfigUpdate F amfUeId
              (.configurationUpdateCommand (c.allowedNssai.getD []) narrowed true) none
            let releases ← onNetworkRelease F amfUeId c.disallowedSessions
              Nas.SmCause.REGULAR_DEACTIVATION
            return modification ++ command ++ releases

end Radian.Amf

/-! ### Handlers that run alone -/

namespace Radian.Amf

variable {F : Functions} {amfUeId : AmfUeId}

@[simp] theorem ues_insert (c : UeContext) (l : Association) :
    (l.insert amfUeId c).ues.lookup amfUeId = some c := AList.lookup_insert _

@[simp] theorem ues_erase (l : Association) : (l.erase amfUeId).ues.lookup amfUeId = none :=
  AList.lookup_erase _ _

@[simp] theorem ues_modify (f : UeContext → UeContext) (l : Association) :
    (l.modify amfUeId f).ues.lookup amfUeId = (l.ues.lookup amfUeId).map f := by
  simp [Association.modify, Keyed.Map.lookup_modify]

@[simp] theorem tx_insert (c : UeContext) (l : Association) : (l.insert amfUeId c).tx = l.tx := rfl

@[simp] theorem tx_erase (l : Association) : (l.erase amfUeId).tx = l.tx := rfl

@[simp] theorem tx_modify (f : UeContext → UeContext) (l : Association) :
    (l.modify amfUeId f).tx = l.tx := rfl

variable {X : Type} {O : Outside Association Tables Mark Call Call.Answer X}
variable {allow : Mark → Association → Tables → X → Prop}

theorem before_bind_of_forall {α β : Type} {p : AmfM α} {k : α → AmfM β}
    {Q : β → Association → Tables → X → Prop} (h : ∀ a l t x, Proc.before O allow (k a) Q l t x)
    {l : Association} {t : Tables} {x : X} : Proc.before O allow (p >>= k) Q l t x := by
  rw [Proc.before, Proc.wp_bind]
  exact Proc.before_of_forall h

/-- However it comes to that, the context is gone in the end. -/
theorem before_removeUe {p : AmfM Unit} {downlinks : List Downlink} {l : Association} {t : Tables}
    {x : X} :
    Proc.before O allow (do p; removeUe amfUeId; return downlinks)
      (fun _ l' _ _ => l'.ues.lookup amfUeId = none) l t x :=
  before_bind_of_forall fun _ l t x => by simp [removeUe]

theorem before_implicitDeregister (l : Association) (t : Tables) (x : X) :
    Proc.before O allow (implicitDeregister amfUeId)
      (fun _ l' _ _ => l'.ues.lookup amfUeId = none) l t x := by
  unfold implicitDeregister getUe
  rw [Proc.before, Proc.wp_bind, Proc.wp_look]
  cases hc : l.ues.lookup amfUeId with
  | none => exact hc
  | some c =>
    dsimp only
    cases c.suci with
    | none => exact before_removeUe
    | some supi =>
      exact before_bind_of_forall fun _ _ _ _ => before_bind_of_forall fun _ _ _ _ =>
        before_bind_of_forall fun _ _ _ _ => before_removeUe

end Radian.Amf
