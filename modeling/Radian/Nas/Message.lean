import Radian.Nas.Security
import Radian.Text

/-!
# 5GMM messages

The NAS messages an AMF builds and reads, with the information elements it puts into them or takes
out of them.

- `Suci`, `suciToSupi`, `suciCanonicalString` — the concealed identity and the string it is named by.
- `Nas5gmmMessage` — the messages.
- `NasSecurityContext.protectDl` — `protect` for a downlink message that encodes.
-/

namespace Radian.Nas

open Security (Bytes Algorithms)

/-! ### Identities -/

/-- A SUCI: one digit per octet in MCC and MNC. -/
structure Suci where
  mcc : Bytes
  mnc : Bytes
  routingIndicator : Bytes
  protectionScheme : UInt8
  homeNwPublicKeyId : UInt8
  schemeOutput : Bytes
  deriving DecidableEq, Repr

/-- The decimal digits among some nibbles; fillers drop out. -/
def digits (ds : List UInt8) : List Char :=
  (ds.filter (· ≤ 9)).map fun d => Nat.digitChar d.toNat

/-- Two lower-case hexadecimal digits for each octet. -/
def hexLower (bytes : Bytes) : List Char :=
  bytes.flatMap fun b => [Nat.digitChar (b.toNat / 16), Nat.digitChar (b.toNat % 16)]

/-- `suci-0-<MCC>-<MNC>-<RI>-<scheme>-<keyid>-<output>`. -/
def suciCanonicalString (suci : Suci) : String :=
  String.ofList <| Text.join '-'
    ["suci".toList, "0".toList, digits suci.mcc, digits suci.mnc, hexLower suci.routingIndicator,
      Text.showNat 10 suci.protectionScheme.toNat, Text.showNat 10 suci.homeNwPublicKeyId.toNat,
      hexLower suci.schemeOutput]

/-- The SUPI of a SUCI under the null scheme, the canonical string of any other. -/
def suciToSupi (suci : Suci) : String :=
  if suci.protectionScheme ≠ 0 then suciCanonicalString suci
  else
    -- the MSIN is packed two digits to an octet, low nibble first
    let msin := suci.schemeOutput.flatMap fun (b : UInt8) => [b &&& 0x0F, b >>> 4]
    String.ofList ("imsi-".toList ++ digits (suci.mcc ++ suci.mnc) ++ digits msin)

inductive MobileIdentity where
  | suci (suci : Suci)
  /-- A 5G-GUTI, of which the 5G-TMSI matters. -/
  | guti (tmsi : BitVec 32)
  | other
  deriving DecidableEq, Repr

/-! ### Information elements -/

/-- A slice: SST and optional SD. -/
abbrev Snssai : Type := UInt8 × Option (BitVec 24)

/-- A tracking area code. -/
abbrev Tac : Type := BitVec 24

/-- Three octets, most significant first. -/
def octets3 (a b c : UInt8) : BitVec 24 := BitVec.ofNat 24 (a.toNat * 65536 + b.toNat * 256 + c.toNat)

/-- The slices of an NSSAI value.  Entries of other lengths than 1 and 4 are skipped. -/
def parseNssaiValue : Bytes → List Snssai
  | [] => []
  | len :: rest =>
      if len = 0 ∨ rest.length < len.toNat then []
      else
        let entry : List Snssai :=
          match len.toNat, rest with
          | 1, sst :: _ => [(sst, none)]
          | 4, sst :: a :: b :: c :: _ => [(sst, some (octets3 a b c))]
          | _, _ => []
        entry ++ parseNssaiValue (rest.drop len.toNat)
  termination_by bytes => bytes.length
  decreasing_by
    simp only [List.length_drop, List.length_cons]
    omega

/-- The PDU session ids set in a two-octet bitmap, ascending. -/
def psisFromPsiBitmap (value : Bytes) : List UInt8 :=
  (value.take 2).zipIdx.flatMap fun (b, byte) =>
    ((List.range 8).filter fun bit => b.toNat.testBit bit).map fun bit => UInt8.ofNat (byte * 8 + bit)

inductive RegistrationType where
  | initialRegistration
  | mobilityRegistrationUpdate
  | periodicRegistrationUpdate
  | emergencyRegistration
  deriving DecidableEq, Repr

structure RegistrationRequest where
  registrationType : Option RegistrationType
  mobileIdentity : MobileIdentity
  /-- The `[EA, IA]` octets of the UE security capability. -/
  ueSecurityCapability : Option (UInt8 × UInt8)
  requestedNssai : Option Bytes
  uplinkDataStatus : Option Bytes
  pduSessionStatus : Option Bytes
  deriving DecidableEq, Repr

structure ServiceRequest where
  ngksi : UInt8
  tmsi : Option (BitVec 32)
  pduSessionStatus : Option Bytes
  deriving DecidableEq, Repr

structure UlNasTransport where
  pduSessionId : Option UInt8
  payloadContainer : Bytes
  dnn : Option String
  sNssai : Option Snssai
  deriving DecidableEq, Repr

structure RegistrationAccept where
  tmsi : BitVec 32
  allowedNssai : List Snssai
  rejectedNssai : List Snssai
  t3512Secs : Nat
  registrationArea : List Tac
  activePduSessions : Option (List UInt8)
  deriving DecidableEq, Repr

/-! ### Messages -/

/-- A decoded NAS message.  Those no AMF handler reads are `other`. -/
inductive Nas5gmmMessage where
  -- from the UE
  | registrationRequest (req : RegistrationRequest)
  | registrationComplete
  | identityResponse (mobileIdentity : MobileIdentity)
  | authenticationResponse (resStar : Option Bytes)
  | authenticationFailure (cause : UInt8) (auts : Option Bytes)
  | securityModeComplete
  | deregistrationRequestFromUe (deregistrationType : UInt8)
  | deregistrationAcceptToUe
  | configurationUpdateComplete
  | serviceRequest (req : ServiceRequest)
  | ulNasTransport (transport : UlNasTransport)
  -- to the UE
  | identityRequest
  | authenticationRequest (ngksi : UInt8) (rand autn : Bytes)
  | authenticationReject
  | securityModeCommand (nea nia ngksi : UInt8) (replayedUeSecCap : UInt8 × UInt8)
  | registrationAccept (accept : RegistrationAccept)
  | registrationReject (cause : UInt8) (rejected : List Snssai) (t3346 : Option UInt8)
  | configurationUpdateCommand (allowedNssai : List Snssai)
      (registrationRequested acknowledgementRequested : Bool)
  | deregistrationRequestToUe (deregistrationType : UInt8)
  | deregistrationAcceptFromUe
  | serviceAccept (activePduSessions : Option (List UInt8))
  | serviceReject (cause : UInt8)
  | dlNasTransport (pduSessionId : UInt8) (payloadContainer : Bytes)
  | other
  deriving DecidableEq, Repr

/-- 5GMM cause: synchronisation failure. -/
def GMM_CAUSE_SYNCH_FAILURE : UInt8 := 0x15

namespace MmCause

def IMPLICITLY_DEREGISTERED : UInt8 := 10
def NO_NETWORK_SLICES_AVAILABLE : UInt8 := 62

end MmCause

/-- Whether a deregistration type asks for switch-off. -/
def isSwitchOff (deregistrationType : UInt8) : Bool := deregistrationType &&& 0x08 ≠ 0

/-- The octet of a GPRS timer: the finest unit whose five-bit multiple covers `secs`, or the longest
duration there is in the unit `last`. -/
def timerOctet (units : List (UInt8 × Nat)) (last : UInt8) (secs : Nat) : UInt8 :=
  match units.find? fun u => (secs + u.2 - 1) / u.2 ≤ 31 with
  | some (unit, step) => unit <<< 5 ||| UInt8.ofNat ((secs + step - 1) / step)
  | none => last <<< 5 ||| 31

/-- GPRS Timer 2: steps of 2 s, a minute, a decihour. -/
def gprsTimer2 (secs : Nat) : UInt8 := timerOctet [(0, 2), (1, 60), (2, 360)] 2 secs

/-- GPRS Timer 3: steps of 2 s, 30 s, a minute, ten minutes, 1 h, 10 h, 320 h. -/
def gprsTimer3 (secs : Nat) : UInt8 :=
  timerOctet [(3, 2), (4, 30), (5, 60), (0, 600), (1, 3600), (2, 36000), (6, 1152000)] 6 secs

/-! ### The codec -/

/-- The NAS codec.  The messages an AMF builds always encode. -/
structure NasCodec where
  encode : Nas5gmmMessage → Bytes
  decode : Bytes → Option Nas5gmmMessage

def NasCodec.toCodec (K : NasCodec) : Codec Nas5gmmMessage where
  encode m := some (K.encode m)
  decode := K.decode

namespace NasSecurityContext

variable (A : Algorithms) (K : NasCodec)

/-- Protect a downlink message. -/
def protectDl (ctx : NasSecurityContext) (sht : UInt8) (m : Nas5gmmMessage) :
    Bytes × NasSecurityContext :=
  ((ctx.envelope A (ctx.count 1) (K.encode m) sht 1).toBytes, ctx.setCount 1 (ctx.count 1 + 1))

variable {A K}

end NasSecurityContext

end Radian.Nas
