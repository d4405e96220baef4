import Radian.Mobility.Calls

/-!
# N2 handover

The messages of a handover, in the order they come: Handover Required on the source association, the
target's acknowledgement or failure, the source's cancel, and Handover Notify on the target.

- `UeContext.freshPair`, `UeContext.arrive` — the vertical key derivation, and the context at its new gNB.
- `onHandoverRequired`, `onHandoverRequestAck`, `onHandoverFailure`, `onHandoverCancel`,
  `onHandoverNotify` — one handler a message.
- `expireHandoverPrep`, `expireHandoverOverall` — the two timers.
- `onTakeUe` — the owner's side when a context is asked for.
-/

namespace Radian

open Nas (Tac)
open Security (Bytes)

/-! ### Keys -/

namespace Amf.UeContext

/-- The next pair of the chain, when there is one to go on from. -/
def freshPair (nh : Bytes → Bytes → Bytes) (c : UeContext) : Option (Bytes × Nat) := do
  let kamf ← c.kamf
  let (sync, ncc) ← c.nhChain
  return (nh kamf sync, (ncc + 1) % 8)

/-- The context at a new gNB. -/
def arrive (ranUeId : RanUeId) (tac : Option Tac) (pair : Bytes × Nat) (c : UeContext) :
    UeContext :=
  { c with ranUeId, tac := tac <|> c.tac, nhChain := some pair }

end Amf.UeContext

namespace Mobility

open Amf (AmfUeId RanUeId Channel UeContext QosFlow DEFAULT_UE_AMBR_BPS UE_SEC_CAP)

variable (nh : Bytes → Bytes → Bytes)

/-! ### Tables and timers -/

/-- Take the handover of a UE out of the table. -/
def removeHandover (amfUeId : AmfUeId) : MobilityM (Option PendingHandover) :=
  Proc.actShared fun s =>
    (s.handovers.lookup amfUeId, { s with handovers := s.handovers.erase amfUeId })

/-- Release the forwarding tunnels a handover set up. -/
def releaseIndirectForwarding (p : PendingHandover) : MobilityM Unit :=
  if p.indirectActive then
    Proc.forEach (fun (session : UInt8 × SmContext) => do
      Proc.mark (.releasing p.number session.2)
      let _ ← Proc.ask (Call.releaseIndirectForwarding session.2.2 session.2.1)) p.sessions
  else pure ()

/-- A target that has acknowledged releases what it prepared. -/
def releaseTarget (amfUeId : AmfUeId) (p : PendingHandover) (cause : RadioCause) :
    MobilityM Unit :=
  match p.targetRanUeId with
  | some targetRan => forward p.targetTx (.ueContextReleaseCommandRadio amfUeId targetRan cause)
  | none => pure ()

def expireHandoverPrep (t : Timer) : MobilityM Unit := do
  let expired ← Proc.actShared fun s =>
    match s.handovers.lookup t.amfUeId with
    | some p =>
        if p.commanded then (none, s)
        else (some p, { s with handovers := s.handovers.erase t.amfUeId })
    | none => (none, s)
  match expired with
  | none => pure ()
  | some p =>
      Proc.mark (.ending t.amfUeId p (.expired t))
      forward p.sourceTx
        (.handoverPreparationFailure t.amfUeId p.sourceRanUeId .tngrelocprepExpiry)

def expireHandoverOverall (t : Timer) : MobilityM Unit := do
  match ← removeHandover t.amfUeId with
  | none => pure ()
  | some p =>
      Proc.mark (.ending t.amfUeId p (.expired t))
      releaseTarget t.amfUeId p .tngrelocoverallExpiry
      releaseIndirectForwarding p

/-- A timer goes off. -/
def onTimer (t : Timer) : MobilityM Unit := do
  Proc.mark (.firing t)
  Proc.change fun s => { s with timers := s.timers.erase t }
  match t.kind with
  | .prep => expireHandoverPrep t
  | .overall => expireHandoverOverall t

/-! ### Handover Required -/

/-- Each session's uplink endpoint and flows from its SMF; those that can be had. -/
def fetchSessions (c : UeContext) :
    List UInt8 → MobilityM (List HandoverSession × List (UInt8 × SmContext))
  | [] => return ([], [])
  | psi :: rest => do
      match c.smRefs.lookup psi with
      | none => fetchSessions c rest
      | some (smRef, smfBase) =>
          match ← Proc.ask (Call.activateUpConnection smfBase smRef) with
          | some created =>
              let flows :=
                if created.ngapFlows.isEmpty then [QosFlow.defaultNonGbr] else created.ngapFlows
              let (sessions, smContexts) ← fetchSessions c rest
              return ({ psi, flows, uplink := (created.upN3Teid, created.upN3Addr) } :: sessions,
                (psi, smRef, smfBase) :: smContexts)
          | none => fetchSessions c rest

/-- Enter a handover into the table and bound its preparation. -/
def beginHandover (amfUeId : AmfUeId) (p : Nat → PendingHandover) : MobilityM Unit := do
  let number ← Proc.look fun _ s => s.begun
  Proc.mark (.beginning amfUeId (p number))
  Proc.change fun s =>
    { s with
      begun := s.begun + 1
      handovers := s.handovers.insert amfUeId (p number)
      timers := s.timers ++ [{ kind := .prep, amfUeId, armedBy := number }] }

def onHandoverRequired (params : Option HandoverRequired) : MobilityM (Option Downlink) := do
  match params with
  | none => return none
  | some req =>
      let prepFailure (cause : RadioCause) : Option Downlink :=
        some (.handoverPreparationFailure req.amfUeId req.ranUeId cause)
      match ← getUe req.amfUeId with
      | none => return prepFailure .unknownLocalUeNgapId
      | some c =>
          match c.freshPair nh with
          | none => return prepFailure .unspecified
          | some (freshNh, freshNcc) =>
              match ← Proc.look fun l s => s.targetLink req.targetGnbId l.tx with
              | none => return prepFailure .unknownTargetId
              | some targetTx =>
                  let (sessions, smContexts) ← fetchSessions c req.psis
                  let tx ← ownTx
                  beginHandover req.amfUeId fun number =>
                    { number, sourceTx := tx, sourceRanUeId := req.ranUeId, targetTx
                      nh := freshNh, ncc := freshNcc, directForwarding := req.directForwarding
                      sessions := smContexts }
                  forward targetTx
                    (.handoverRequest req.amfUeId (c.ueAmbr.getD DEFAULT_UE_AMBR_BPS)
                      (c.replayedUeSecCap.getD UE_SEC_CAP) freshNcc freshNh
                      (c.allowedNssai.getD []) sessions req.container)
                  return none

/-! ### Handover Request Acknowledge and Handover Failure -/

/-- The handover with what its acknowledgement says. -/
def PendingHandover.acknowledge (ack : HandoverRequestAcknowledge) (p : PendingHandover) :
    PendingHandover :=
  { p with
    admitted := ack.admitted.map fun a => (a.psi, a.downlink)
    targetRanUeId := some ack.targetRanUeId
    commanded := true }

/-- The SM context with which a session was handed over. -/
def PendingHandover.session (p : PendingHandover) (psi : UInt8) : Option SmContext :=
  (p.sessions.find? fun s => s.1 == psi).map fun s => s.2

/-- Where the source is to forward data to: straight to the target, or into a tunnel the session's SMF
sets up.  Also whether any was set up. -/
def forwardingPaths (p : PendingHandover) :
    List Admitted → MobilityM (List (UInt8 × Fteid) × Bool)
  | [] => return ([], false)
  | a :: rest => do
      match a.forwarding with
      | none => forwardingPaths p rest
      | some target =>
          if p.directForwarding then
            let (forwarding, active) ← forwardingPaths p rest
            return ((a.psi, target) :: forwarding, active)
          else
            match p.session a.psi with
            | none => forwardingPaths p rest
            | some c =>
                match ← Proc.ask (Call.setupIndirectForwarding c.2 c.1 target) with
                | some ingress =>
                    Proc.mark (.tunnel p.number c)
                    let (forwarding, _) ← forwardingPaths p rest
                    return ((a.psi, ingress) :: forwarding, true)
                | none => forwardingPaths p rest

/-- The acknowledgement is recorded, and the rest of the relocation bounded. -/
def Shared.acknowledged (s : Shared) (ack : HandoverRequestAcknowledge) (p : PendingHandover) :
    Shared :=
  { s with
    handovers := s.handovers.insert ack.amfUeId (p.acknowledge ack)
    timers := s.timers ++ [{ kind := .overall, amfUeId := ack.amfUeId, armedBy := p.number }] }

/-- Whether there are tunnels is recorded, in whatever is in flight under the id by now. -/
def Shared.recorded (s : Shared) (amfUeId : AmfUeId) (indirectActive : Bool) : Shared :=
  { s with handovers := s.handovers.modify amfUeId fun p => { p with indirectActive } }

/-- The forwarding paths of an acknowledged handover, and the command to its source. -/
def commandHandover (ack : HandoverRequestAcknowledge) (p : PendingHandover) : MobilityM Unit := do
  let (forwarding, indirectActive) ← forwardingPaths p ack.admitted
  Proc.change fun s => s.recorded ack.amfUeId indirectActive
  Proc.mark (.recorded p.number)
  forward p.sourceTx (.handoverCommand ack.amfUeId p.sourceRanUeId forwarding ack.container)

def onHandoverRequestAck (params : Option HandoverRequestAcknowledge) : MobilityM Unit := do
  match params with
  | none => pure ()
  | some ack =>
      match ← Proc.look fun _ s => s.handovers.lookup ack.amfUeId with
      | none => pure ()
      | some pending =>
          Proc.mark (.acknowledging ack.amfUeId pending)
          Proc.change fun s => s.acknowledged ack pending
          commandHandover ack pending

def onHandoverFailure (params : Option HandoverFailure) : MobilityM Unit := do
  match params with
  | none => pure ()
  | some failure =>
      let cause := (failure.cause.map .reported).getD .hoFailureInTarget
      match ← removeHandover failure.amfUeId with
      | none => pure ()
      | some p =>
          Proc.mark (.ending failure.amfUeId p (.failed cause))
          forward p.sourceTx
            (.handoverPreparationFailure failure.amfUeId p.sourceRanUeId cause)

/-! ### Handover Cancel -/

def onHandoverCancel (params : Option HandoverCancel) : MobilityM (Option Downlink) := do
  match params with
  | none => return none
  | some cancel =>
      let answer : Downlink := .handoverCancelAcknowledge cancel.amfUeId cancel.ranUeId
      match ← removeHandover cancel.amfUeId with
      | none => return some answer
      | some p =>
          Proc.mark (.ending cancel.amfUeId p (.cancelled cancel.ranUeId))
          releaseTarget cancel.amfUeId p .handoverCancelled
          releaseIndirectForwarding p
          return some answer

/-! ### Handover Notify -/

/-- The context is here, or its owner hands it over. -/
def takeFrom (amfUeId : AmfUeId) (source : Channel) : MobilityM Bool := do
  match ← getUe amfUeId with
  | some _ => return true
  | none =>
      let reply ← askUe amfUeId source
      let (_, taken) ← Proc.ask (Call.nextReply [reply])
      match taken with
      | some c =>
          Proc.mark (.obtained amfUeId c)
          insertUe amfUeId c
          return true
      | none => return false

/-- Point a session's downlink at the gNB, when its SM context is known. -/
def repoint (amfUeId : AmfUeId) (session : UInt8 × Fteid) : MobilityM Bool := do
  match (← getUe amfUeId).bind fun c => c.smRefs.lookup session.1 with
  | none => return false
  | some (smRef, smfBase) => Proc.ask (Call.updateSmContext smfBase smRef session.2)

def onHandoverNotify (params : Option HandoverNotify) : MobilityM Unit := do
  match params with
  | none => pure ()
  | some notify =>
      match ← removeHandover notify.amfUeId with
      | none => pure ()
      | some p =>
          Proc.mark (.ending notify.amfUeId p .notified)
          if ← takeFrom notify.amfUeId p.sourceTx then
            match ← getUe notify.amfUeId with
            | none => pure ()
            | some c =>
                modifyUe notify.amfUeId
                  (UeContext.arrive notify.targetRanUeId notify.tac (p.nh, p.ncc))
                address notify.amfUeId c
                Proc.mark (.completed p.number)
                Proc.forEach (fun session => do
                  let _ ← repoint notify.amfUeId session) p.admitted
                releaseIndirectForwarding p
          else Proc.mark (.unanswered p.number)

/-! ### Handing a context over -/

/-- The owner's side: the context goes, the reply is sent, and this gNB is told to release. -/
def onTakeUe (cmd : TakeUe) : MobilityM Unit := do
  let taken ← Proc.act fun l s =>
    (l.ues.lookup cmd.amfUeId, l.erase cmd.amfUeId,
      { s with commands := s.commands.erase cmd })
  Proc.mark (.replying cmd.reply cmd.amfUeId taken)
  send (taken.map fun c =>
    .ueContextReleaseCommandRadio cmd.amfUeId c.ranUeId .successfulHandover)

end Mobility

end Radian
