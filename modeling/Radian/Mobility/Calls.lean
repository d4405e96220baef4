import Radian.Amf.Calls

/-!
# Mobility between gNBs

A UE moves from one gNB association to another by an Xn path switch or an N2 handover.  The messages
of a handover arrive on two associations, so what is in flight is held in a table all share, and the
context is handed over by a command to the association that owns it.

- `Pdu`, `Downlink` — the NGAP messages received and sent.
- `PendingHandover`, `Shared` — a handover in flight, and what all associations share.
- `Call`, `Call.Answer`, `Mark` — what the handlers await, and the places histories speak of.
- `Oneshot`, `outside` — the reply channels, and how calls are answered.
- `MobilityM` — a handler.
-/

namespace Radian.Mobility

open Keyed (Map)
open Amf (AmfUeId RanUeId Tmsi Channel UeAmbr UeContext Association Tables QosFlow SmContextCreated)
open Nas (Snssai Tac)
open Pfcp (Ipv4Addr Teid)
open Security (Bytes)

/-! ### Messages -/

/-- A tunnel endpoint. -/
abbrev Fteid : Type := Teid × Ipv4Addr

/-- A PDU session's SM context and the base of the SMF that serves it. -/
abbrev SmContext : Type := String × String

/-- The radio-network causes the AMF names, and those it passes on. -/
inductive RadioCause where
  | unknownLocalUeNgapId
  | unspecified
  | unknownTargetId
  | tngrelocprepExpiry
  | tngrelocoverallExpiry
  | hoFailureInTarget
  | handoverCancelled
  | successfulHandover
  | reported (code : UInt8)
  deriving DecidableEq, Repr

structure HandoverRequired where
  amfUeId : AmfUeId
  ranUeId : RanUeId
  targetGnbId : BitVec 32
  psis : List UInt8
  directForwarding : Bool
  container : Bytes
  deriving DecidableEq, Repr

/-- A session the target takes: its downlink endpoint, and where data is to be forwarded to. -/
structure Admitted where
  psi : UInt8
  downlink : Fteid
  forwarding : Option Fteid
  deriving DecidableEq, Repr

structure HandoverRequestAcknowledge where
  amfUeId : AmfUeId
  targetRanUeId : RanUeId
  admitted : List Admitted
  container : Bytes
  deriving DecidableEq, Repr

structure HandoverFailure where
  amfUeId : AmfUeId
  cause : Option UInt8
  deriving DecidableEq, Repr

structure HandoverCancel where
  amfUeId : AmfUeId
  ranUeId : RanUeId
  deriving DecidableEq, Repr

structure HandoverNotify where
  amfUeId : AmfUeId
  targetRanUeId : RanUeId
  tac : Option Tac
  deriving DecidableEq, Repr

structure PathSwitchRequest where
  amfUeId : AmfUeId
  newRanUeId : RanUeId
  tac : Option Tac
  sessions : List (UInt8 × Fteid)
  deriving DecidableEq, Repr

/-- A received message, with what is found in it when the mandatory IEs are there. -/
inductive Pdu where
  | handoverRequired (params : Option HandoverRequired)
  | handoverRequestAcknowledge (params : Option HandoverRequestAcknowledge)
  | handoverFailure (params : Option HandoverFailure)
  | handoverCancel (params : Option HandoverCancel)
  | handoverNotify (params : Option HandoverNotify)
  | pathSwitchRequest (params : Option PathSwitchRequest)
  deriving DecidableEq, Repr

/-- A session in a Handover Request: its QoS flows and its uplink endpoint. -/
structure HandoverSession where
  psi : UInt8
  flows : List QosFlow
  uplink : Fteid
  deriving DecidableEq, Repr

/-- A message to a gNB. -/
inductive Downlink where
  | handoverRequest (amfUeId : AmfUeId) (ueAmbr : UeAmbr) (ueSecCap : UInt8 × UInt8) (ncc : Nat)
      (nh : Bytes) (allowedNssai : List Snssai) (sessions : List HandoverSession)
      (container : Bytes)
  | handoverCommand (amfUeId : AmfUeId) (ranUeId : RanUeId) (forwarding : List (UInt8 × Fteid))
      (container : Bytes)
  | handoverPreparationFailure (amfUeId : AmfUeId) (ranUeId : RanUeId) (cause : RadioCause)
  | handoverCancelAcknowledge (amfUeId : AmfUeId) (ranUeId : RanUeId)
  | ueContextReleaseCommandRadio (amfUeId : AmfUeId) (ranUeId : RanUeId) (cause : RadioCause)
  | pathSwitchRequestAcknowledge (amfUeId : AmfUeId) (ranUeId : RanUeId) (ncc : Nat) (nh : Bytes)
      (switched : List UInt8)
  | pathSwitchRequestFailure (amfUeId : AmfUeId) (ranUeId : RanUeId) (psis : List UInt8)
      (cause : RadioCause)
  deriving DecidableEq, Repr

/-! ### State -/

/-- An N2 handover in flight. -/
structure PendingHandover where
  /-- Which handover of all it is.  The source has no such field and no handler looks at it: it tells
  handovers of one UE apart in histories. -/
  number : Nat
  sourceTx : Channel
  sourceRanUeId : RanUeId
  targetTx : Channel
  /-- Known once the target has acknowledged. -/
  targetRanUeId : Option RanUeId := none
  commanded : Bool := false
  /-- The pair handed to the target, applied to the context when the UE arrives. -/
  nh : Bytes
  ncc : Nat
  admitted : List (UInt8 × Fteid) := []
  directForwarding : Bool
  sessions : List (UInt8 × SmContext)
  indirectActive : Bool := false
  deriving DecidableEq, Repr

inductive TimerKind where
  | prep
  | overall
  deriving DecidableEq, Repr

/-- A timer task asleep.  It knows the UE only; `armedBy` is the number of the handover it was
spawned for, which it does not look at. -/
structure Timer where
  kind : TimerKind
  amfUeId : AmfUeId
  armedBy : Nat
  deriving DecidableEq, Repr

/-- A command to hand a context over, with the oneshot channel to reply on. -/
structure TakeUe where
  tx : Channel
  amfUeId : AmfUeId
  reply : Nat
  deriving DecidableEq, Repr

structure Shared where
  tables : Tables := {}
  handovers : Map AmfUeId PendingHandover := ∅
  timers : List Timer := []
  /-- The commands not yet taken up, oldest first. -/
  commands : List TakeUe := []
  nextReply : Nat := 0
  begun : Nat := 0
  deriving DecidableEq

namespace Shared

/-- The first association of another gNB with this id. -/
def targetLink (s : Shared) (gnbId : BitVec 32) (tx : Channel) : Option Channel :=
  (s.tables.gnbLinks.find? fun l => l.gnbId == some gnbId && l.tx != tx).map fun l => l.tx

def others (s : Shared) (tx : Channel) : List Channel :=
  (s.tables.gnbLinks.filter fun l => l.tx != tx).map fun l => l.tx

end Shared

/-! ### Calls -/

inductive Call where
  | activateUpConnection (smfBase smRef : String)
  | setupIndirectForwarding (smfBase smRef : String) (target : Fteid)
  | releaseIndirectForwarding (smfBase smRef : String)
  | updateSmContext (smfBase smRef : String) (gnb : Fteid)
  | deactivateUp (smfBase smRef : String)
  | releaseSmContext (smfBase smRef : String)
  /-- The next of these replies to be had, or to be given up after 500 ms. -/
  | nextReply (asks : List Nat)
  deriving DecidableEq, Repr

@[reducible] def Call.Answer : Call → Type
  | .activateUpConnection .. => Option SmContextCreated
  | .setupIndirectForwarding .. => Option Fteid
  | .releaseIndirectForwarding .. => Bool
  | .updateSmContext .. => Bool
  | .deactivateUp .. => Bool
  | .releaseSmContext .. => Bool
  | .nextReply .. => Nat × Option UeContext

/-- How a handover leaves the table. -/
inductive Ending where
  | notified
  | failed (cause : RadioCause)
  /-- By the gNB that calls the UE `ranUeId`. -/
  | cancelled (ranUeId : RanUeId)
  | expired (t : Timer)
  deriving DecidableEq, Repr

/-- Places in the handlers. -/
inductive Mark where
  | sending (pdu : Downlink)
  | forwarding (tx : Channel) (pdu : Downlink)
  /-- A handover is about to enter the table. -/
  | beginning (amfUeId : AmfUeId) (p : PendingHandover)
  /-- An acknowledgement has found this handover. -/
  | acknowledging (amfUeId : AmfUeId) (p : PendingHandover)
  /-- An SMF has set up a forwarding tunnel for the handover of this number. -/
  | tunnel (number : Nat) (c : SmContext)
  /-- The acknowledgement of the handover of this number records its tunnels. -/
  | recorded (number : Nat)
  | firing (t : Timer)
  /-- The handover has been taken out of the table. -/
  | ending (amfUeId : AmfUeId) (p : PendingHandover) (how : Ending)
  | completed (number : Nat)
  /-- The source did not hand the context over. -/
  | unanswered (number : Nat)
  /-- An SMF is asked to release the tunnel of the handover of this number. -/
  | releasing (number : Nat) (c : SmContext)
  /-- A context is asked for, on a new oneshot channel. -/
  | asking (reply : Nat) (amfUeId : AmfUeId)
  | replying (reply : Nat) (amfUeId : AmfUeId) (c : Option UeContext)
  /-- The other replies are not waited for any more. -/
  | abandoning (asks : List Nat)
  /-- The wait for a reply is over; the runtime notes it. -/
  | received (reply : Nat) (c : Option UeContext)
  /-- A path switch has been handed this context. -/
  | switched (amfUeId : AmfUeId) (c : UeContext)
  /-- A notify has been handed this context. -/
  | obtained (amfUeId : AmfUeId) (c : UeContext)
  /-- A context is about to be entered under this id, by a registration or on a return from idle. -/
  | arriving (amfUeId : AmfUeId)
  /-- The context under this id is deregistered or torn down. -/
  | leaving (amfUeId : AmfUeId)
  /-- The context under this id goes to the retained ones. -/
  | idling (amfUeId : AmfUeId) (tmsi : Tmsi)
  /-- The retained context under this 5G-TMSI is taken. -/
  | resuming (tmsi : Tmsi)
  /-- An SMF is awaited with the context that was retained under this 5G-TMSI in hand. -/
  | inHand (tmsi : Tmsi)
  deriving DecidableEq

/-! ### Oneshot channels -/

/-- A oneshot channel: awaited, replied on, or without a receiver. -/
inductive Oneshot where
  | awaited
  | replied (c : Option UeContext)
  | closed
  deriving DecidableEq

/-- What has become of a channel.  A reply without a receiver is dropped. -/
def oneshot (reply : Nat) : List Mark → Oneshot
  | [] => .closed
  | .asking r _ :: past => if r = reply then .awaited else oneshot reply past
  | .replying r _ c :: past =>
      if r = reply ∧ oneshot reply past = .awaited then .replied c else oneshot reply past
  | .received r _ :: past => if r = reply then .closed else oneshot reply past
  | .abandoning asks :: past => if reply ∈ asks then .closed else oneshot reply past
  | _ :: past => oneshot reply past

/-- The outside: SMFs answer anything; a reply is what was sent, or nothing once its time is up.  The
world is the history of marks. -/
def outside : Outside Association Shared Mark Call Call.Answer (List Mark) where
  answers e w r := match e, r with
    | .nextReply asks, (reply, c) =>
        asks.contains reply && match oneshot reply w with
          | .replied sent => c == sent
          | _ => c == none
    | _, _ => true
  effect e r w := match e, r with
    | .nextReply _, (reply, c) => .received reply c :: w
    | _, _ => w
  mark n _ _ w := n :: w

/-! ### Handlers -/

abbrev MobilityM : Type → Type := Proc Association Shared Mark Call Call.Answer

/-- The command channel of this association. -/
def ownTx : MobilityM Channel := Proc.look fun l _ => l.tx

def getUe (amfUeId : AmfUeId) : MobilityM (Option UeContext) :=
  Proc.look fun l _ => l.ues.lookup amfUeId

def modifyUe (amfUeId : AmfUeId) (f : UeContext → UeContext) : MobilityM Unit :=
  Proc.changeLocal (Association.modify amfUeId f)

def insertUe (amfUeId : AmfUeId) (c : UeContext) : MobilityM Unit :=
  Proc.changeLocal (Association.insert amfUeId c)

/-- Send a message on another association. -/
def forward (tx : Channel) (pdu : Downlink) : MobilityM Unit := Proc.mark (.forwarding tx pdu)

/-- Send a handler's answer on this association. -/
def send : Option Downlink → MobilityM Unit
  | some pdu => Proc.mark (.sending pdu)
  | none => pure ()

/-- The SBI callbacks reach the UE through this association. -/
def address (amfUeId : AmfUeId) (c : UeContext) : MobilityM Unit := do
  let tx ← ownTx
  match c.suci with
  | some supi => Proc.change fun s => { s with tables := s.tables.addressed supi amfUeId tx }
  | none => pure ()

/-- Ask an association for a context. -/
def askUe (amfUeId : AmfUeId) (tx : Channel) : MobilityM Nat := do
  let reply ← Proc.actShared fun s =>
    (s.nextReply,
      { s with
        nextReply := s.nextReply + 1
        commands := s.commands ++ [{ tx, amfUeId, reply := s.nextReply }] })
  Proc.mark (.asking reply amfUeId)
  return reply

end Radian.Mobility
