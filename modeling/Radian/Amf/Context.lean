import Radian.Nas.Session

/-!
# The AMF's state

The context the AMF holds for a UE, the contexts of one N2 association, and the tables all
associations share.

- `UeContext` — what the AMF holds for a UE.
- `Association` — the contexts of a gNB association, by AMF-UE-NGAP-ID.
- `Tables` — the directories, the retained contexts, and what was spawned.
-/

namespace Radian.Amf

open Keyed (Map)
open Nas (Nas5gmmMessage NasSecurityContext Snssai Tac)
open Security (Bytes)
open Pfcp (Ipv4Addr Teid)
open Smf (PduSessionType)

/-! ### Constants -/

def PLMN_MCC : String := "999"
def PLMN_MNC : String := "70"

/-- The DNN of a session for which the UE names none. -/
def DEFAULT_DNN : String := "internet"

def REJECT_BACKOFF_SECS : Nat := 600
def REG_REJECT_BACKOFF_SECS : Nat := 600

/-- The UE-AMBR sent to the gNB when there is none. -/
def DEFAULT_UE_AMBR_BPS : Nat × Nat := (1000000000, 1000000000)

def T3512_SECS : Nat := 54 * 60
def NGKSI : UInt8 := 0
def ABBA : Bytes := [0x00, 0x00]

/-- The `[EA, IA]` octets taken for a UE that sent none. -/
def UE_SEC_CAP : UInt8 × UInt8 := (0xE0, 0xE0)

def NEA_PRIORITY : List UInt8 := [2, 1, 3, 0]
def NIA_PRIORITY : List UInt8 := [2, 1, 3]

/-! ### A UE's context -/

abbrev AmfUeId : Type := BitVec 64
abbrev RanUeId : Type := BitVec 32
abbrev Tmsi : Type := BitVec 32
abbrev Instant : Type := Nat

/-- The command channel of a gNB association, which tells it from the others. -/
abbrev Channel : Type := Nat

/-- The downlink and uplink of a UE-AMBR in bits per second. -/
abbrev UeAmbr : Type := Nat × Nat

/-- A service area restriction: the allowed and the other tracking areas. -/
abbrev AreaRestriction : Type := List Tac × List Tac

/-- One attribute of a partial update. -/
inductive FieldUpdate (T : Type) where
  | keep
  | clear
  | set (v : T)
  deriving DecidableEq, Repr

def FieldUpdate.apply {T : Type} : FieldUpdate T → Option T → Option T
  | .keep, current => current
  | .clear, _ => none
  | .set v, _ => some v

inductive RegState where
  | IdentityRequested
  | Identified
  | Authenticating
  | SecurityMode
  | Registered
  deriving DecidableEq, Repr

inductive CmState where
  | Connected
  | Idle
  deriving DecidableEq, Repr

/-- Which downlink message a retransmission timer guards. -/
inductive RetxKind where
  | IdentityRequest
  | AuthRequest
  | SecurityModeCommand
  | RegistrationAccept
  deriving DecidableEq, Repr

/-- What is held between Authentication Request and Response. -/
structure PendingAuth where
  ausfBase : String
  ctxId : String
  rand : Bytes
  hxres : Bytes
  deriving DecidableEq, Repr

/-- A downlink message that awaits its answer. -/
structure PendingNasRetx where
  kind : RetxKind
  nasBytes : Bytes
  attempts : Nat
  deriving DecidableEq, Repr

/-- A Configuration Update Command that awaits its acknowledgement. -/
structure PendingConfigUpdate where
  cuc : Nas5gmmMessage
  areaRestriction : Option AreaRestriction
  attempts : Nat
  deriving DecidableEq, Repr

/-- An AM policy change that awaits an idle UE's return. -/
structure PendingAmPolicy where
  ueAmbr : FieldUpdate UeAmbr
  rfsp : FieldUpdate Nat
  areaRestriction : FieldUpdate AreaRestriction
  deriving DecidableEq, Repr

/-- What the AMF holds for a UE. -/
structure UeContext where
  ranUeId : RanUeId
  state : RegState
  /-- The identity, as far as the AMF has one. -/
  suci : Option String
  auth : Option PendingAuth := none
  sec : Option NasSecurityContext := none
  kamf : Option Bytes := none
  nhChain : Option (Bytes × Nat) := none
  replayedUeSecCap : Option (UInt8 × UInt8) := none
  /-- For each PDU session its SM context and the base of the SMF that serves it. -/
  smRefs : Map UInt8 (String × String) := ∅
  sessionSnssai : Map UInt8 Snssai := ∅
  ueAmbr : Option UeAmbr := none
  subscribedUeAmbr : Option UeAmbr := none
  pcfUeAmbr : Option UeAmbr := none
  rfsp : Option Nat := none
  ueRadioCapability : Option Bytes := none
  areaRestriction : Option AreaRestriction := none
  allowedNssai : Option (List Snssai) := none
  requestedNssai : List Snssai := []
  deregAttempts : Option Nat := none
  resyncAttempted : Bool := false
  cmState : CmState := .Connected
  gutiTmsi : Option Tmsi := none
  tac : Option Tac := none
  registrationArea : List Tac := []
  retainedAt : Option Instant := none
  /-- The base of the PCF and the association there. -/
  amPolicy : Option (String × String) := none
  pendingAmPolicy : Option PendingAmPolicy := none
  releasing : List UInt8 := []
  pendingConfigUpdate : Option PendingConfigUpdate := none
  pendingRetx : Option PendingNasRetx := none
  /-- Whether it holds an admission slot. -/
  cblSlot : Bool := false
  regProgressAt : Instant
  deriving DecidableEq

namespace UeContext

def new (ranUeId : RanUeId) (state : RegState) (suci : Option String) (now : Instant) : UeContext :=
  { ranUeId, state, suci, regProgressAt := now }

/-- The PCF's UE-AMBR goes before the subscribed one. -/
def recomputeUeAmbr (c : UeContext) : UeContext :=
  { c with ueAmbr := c.pcfUeAmbr <|> c.subscribedUeAmbr }

end UeContext

/-! ### NGAP PDUs to the gNB -/

inductive ReleaseCause where
  | normalRelease
  | deregister
  | radioReleaseDueTo5gcGeneratedReason
  deriving DecidableEq, Repr

structure Gbr where
  gfbrDlBps : Nat
  gfbrUlBps : Nat
  mfbrDlBps : Nat
  mfbrUlBps : Nat
  deriving DecidableEq, Repr

structure QosFlow where
  qfi : UInt8
  fiveQi : UInt8
  arpPriority : UInt8
  preEmptCap : Bool
  preEmptVuln : Bool
  gbr : Option Gbr
  deriving DecidableEq, Repr

def QosFlow.defaultNonGbr : QosFlow :=
  { qfi := 1, fiveQi := 9, arpPriority := 8, preEmptCap := false, preEmptVuln := false, gbr := none }

/-- A PDU session set up together with the UE context. -/
structure IcsPduSession where
  psi : UInt8
  flows : List QosFlow
  upfTeid : Teid
  upfAddr : Ipv4Addr
  deriving DecidableEq, Repr

structure InitialContext where
  allowedNssai : List Snssai
  ueSecCap : UInt8 × UInt8
  securityKey : Bytes
  ueAmbr : Option UeAmbr
  rfsp : Option Nat
  areaRestriction : Option AreaRestriction
  pduSessions : List IcsPduSession
  nas : Bytes
  ueRadioCapability : Option Bytes
  deriving DecidableEq, Repr

/-- The PDUs an AMF sends. -/
inductive Downlink where
  | downlinkNasTransport (amfUeId : AmfUeId) (ranUeId : RanUeId) (nas : Bytes)
      (areaRestriction : Option AreaRestriction)
  | ueContextReleaseCommand (amfUeId : AmfUeId) (ranUeId : RanUeId) (cause : ReleaseCause)
  | initialContextSetupRequest (amfUeId : AmfUeId) (ranUeId : RanUeId) (ic : InitialContext)
  | pduSessionResourceSetupRequest (amfUeId : AmfUeId) (ranUeId : RanUeId) (psi : UInt8)
      (flows : List QosFlow) (upfTeid : Teid) (upfAddr : Ipv4Addr) (ambrDl ambrUl : Nat)
      (pduType : PduSessionType) (nas : Bytes)
  | ueContextModificationRequest (amfUeId : AmfUeId) (ranUeId : RanUeId) (rfsp : Option Nat)
      (ueAmbr : Option UeAmbr)
  | pduSessionResourceReleaseCommand (amfUeId : AmfUeId) (ranUeId : RanUeId) (psi : UInt8)
      (nas : Bytes)
  | comeBackLater (ranUeId : RanUeId) (retryMs : Nat)
  deriving DecidableEq, Repr

/-! ### Tables -/

structure GnbLink where
  tacs : List Tac
  gnbId : Option (BitVec 32)
  tx : Channel
  deriving DecidableEq, Repr

/-- What is spawned off a handler's path, the timers among it. -/
inductive Job where
  | uecmRegister (supi : String)
  | uecmPurge (supi : String)
  | sdmSubscribe (supi : String)
  | sdmUnsubscribe (supi subId : String)
  | amPolicyDelete (pcfBase assocId : String)
  | t3522 (tx : Channel) (amfUeId : AmfUeId)
  | t3555 (tx : Channel) (amfUeId : AmfUeId)
  | nasRetx (tx : Channel) (amfUeId : AmfUeId) (kind : RetxKind)
  | releaseGuard (tx : Channel) (amfUeId : AmfUeId) (psi : UInt8)
  | registrationGuard (tx : Channel) (amfUeId : AmfUeId)
  deriving DecidableEq, Repr

structure Tables where
  nextAmfUeId : AmfUeId := 1
  /-- SUPI to the id of its context and the channel of the association that owns it. -/
  ueDirectory : Map String (AmfUeId × Channel) := ∅
  /-- Assigned 5G-TMSI to SUPI. -/
  gutiDirectory : Map Tmsi String := ∅
  /-- The contexts of idle UEs. -/
  retained : Map Tmsi UeContext := ∅
  gnbLinks : List GnbLink := []
  /-- SUPI to the AMF's subscription to its data changes. -/
  sdmSubs : Map String String := ∅
  jobs : List Job := []
  clock : Instant := 0
  deriving DecidableEq

namespace Tables

/-- Spawn a job. -/
def push (j : Job) (t : Tables) : Tables := { t with jobs := t.jobs ++ [j] }

/-- No 5G-TMSI leads to `supi` any more. -/
def forgetGutis (supi : String) (t : Tables) : Tables :=
  { t with gutiDirectory := t.gutiDirectory.retain fun s => s != supi }

/-- `tmsi`, and no other, leads to `supi`. -/
def assignGuti (supi : String) (tmsi : Tmsi) (t : Tables) : Tables :=
  { t with gutiDirectory := (t.gutiDirectory.retain fun s => s != supi).insert tmsi supi }

def addressed (supi : String) (amfUeId : AmfUeId) (tx : Channel) (t : Tables) : Tables :=
  { t with ueDirectory := t.ueDirectory.insert supi (amfUeId, tx) }

def unaddressed (supi : String) (t : Tables) : Tables :=
  { t with ueDirectory := t.ueDirectory.erase supi }

/-- The areas served by the association on `tx`, and the UE's own: sixteen at most. -/
def registrationAreaFor (t : Tables) (ueTac : Option Tac) (tx : Channel) : List Tac :=
  let area := match t.gnbLinks.find? fun l => l.tx == tx with
    | some link => link.tacs
    | none => []
  let area := match ueTac with
    | some tac => if area.contains tac then area else area ++ [tac]
    | none => area
  area.take 16

end Tables

/-- The contexts of one gNB association. -/
structure Association where
  tx : Channel
  ues : Map AmfUeId UeContext := ∅
  deriving DecidableEq

namespace Association

def insert (amfUeId : AmfUeId) (c : UeContext) (l : Association) : Association :=
  { l with ues := l.ues.insert amfUeId c }

def erase (amfUeId : AmfUeId) (l : Association) : Association :=
  { l with ues := l.ues.erase amfUeId }

def modify (amfUeId : AmfUeId) (f : UeContext → UeContext) (l : Association) : Association :=
  { l with ues := l.ues.modify amfUeId f }

end Association

end Radian.Amf
