import Radian.Smf.Create

/-!
# Operations on a live session

Activation and deactivation of the user plane, indirect forwarding for a handover, and the refresh
of the SM policy.

- `updateSmContext`, `deactivateUp` — `Nsmf_PDUSession_UpdateSMContext`.
- `indirectForwarding` — set up or release a forwarding session on the anchor.
- `refreshSmPolicy` — re-authorize at the PCF, re-rate the UPF, store the decision.
-/

namespace Radian.Smf

open Proc (mark)
open Npcf (SmPolicyDecision)
open Pfcp (Ipv4Addr Teid FlowQer)

/-! ### Activation and deactivation -/

structure SmContextUpdateData where
  gnbN3Teid : Option String
  gnbN3Addr : Option Ipv4Addr
  upCnxState : Option String
  deriving DecidableEq, Repr

/-- A GTP-U TEID in hexadecimal text. -/
def parseTeid (s : String) : Option Teid :=
  (Text.parseUnsigned 16 32 (Text.trimHexPrefix s.toList)).map (BitVec.ofNat 32)

/-- A plausibly routable target: no zero TEID, no unspecified, broadcast or multicast address. -/
def validGnbTarget (teid : Teid) (ip : Ipv4Addr) : Bool :=
  teid != 0 && ip != 0 && ip != 0xFFFFFFFF && ip.toNat / 2 ^ 28 != 14

/-- The N2 information of a session, for a Service Request resume. -/
def SmContext.resumeData (c : SmContext) (smRef : String) : SmContextCreatedData :=
  { smContextRef := smRef
    upN3Teid := c.n3Teid
    upN3Addr := c.n3Addr
    selectedPduSessionType := c.pduType.asStr
    ueIpv4Addr := c.ueIp
    ueIpv6Prefix := c.ueIpv6.map fun v6 => v6.1
    ueIpv6Iid := c.ueIpv6.map fun v6 => v6.2
    cause5gsm := none
    dnsIpv6 := none
    sNssai := c.snssai
    sessionAmbr := c.policy.sessionAmbr
    qosFlows := c.policy.qosFlows }

/-- Park a breakout anchor's downlink; a refusal is only logged. -/
def parkBreakout (c : SmContext) : SmfM Unit := do
  match c.chain.bind fun leg => leg.breakoutSeid, c.path.breakout with
  | some seid, some (psa2, _) => let _ ← accepted psa2 (.sessionDeactivate seid farId)
  | _, _ => return ()

/-- Park the downlink at the UPF, the breakout anchor's too, and forget the gNB. -/
def deactivateUp (smRef : String) : SmfM Response := do
  match ← readSmf fun s => s.contexts.lookup smRef with
  | none => return { status := 404 }
  | some c =>
      if ← accepted c.path.anchor (.sessionDeactivate c.upSeid farId) then
        parkBreakout c
        updateContext smRef fun c => { c with gnb := none }
        return { status := 200 }
      else return { status := 502 }

/-- Re-open a breakout anchor's downlink onto the shared N9 ingress. -/
def restoreBreakout (c : SmContext) : SmfM (Except String Unit) := do
  match c.chain with
  | none => return .ok ()
  | some leg =>
      match leg.breakoutSeid, c.path.breakout with
      | some seid, some (psa2, _) => pointDownlinkAt psa2 seid leg.dlIngress c.dnn
      | _, _ => return .ok ()

/-- The anchor's downlink, then the breakout anchor's, then the context's gNB target. -/
def installDownlink (smRef : String) (c : SmContext) (gnb : Teid × Ipv4Addr)
    (sendEndMarker : Bool) : SmfM Response := do
  let target := match c.chain with
    | some leg => leg.dlIngress
    | none => gnb
  -- the End Marker belongs on the tunnel that moved: chained, the anchor's is unchanged
  if ← accepted c.path.anchor (.sessionModification c.upSeid farId target.1 target.2 c.dnn
      (sendEndMarker && c.chain.isNone)) then
    let restored ← restoreBreakout c
    match restored with
    | .error _ => return { status := 502 }
    | .ok () =>
        updateContext smRef fun c => { c with gnb := some gnb }
        return { status := 200 }
  else return { status := 502 }

/-- Install the downlink toward a gNB: on a chained session the I-UPF's hop first. -/
def activateUp (smRef : String) (gnb : Teid × Ipv4Addr) : SmfM Response := do
  match ← readSmf fun s => s.contexts.lookup smRef with
  | none => return { status := 404 }
  | some c =>
      -- a re-point from a different gNB tunnel asks for a GTP-U End Marker
      let sendEndMarker := c.gnb.any fun g => g != gnb
      match c.chain with
      | none => installDownlink smRef c gnb sendEndMarker
      | some leg =>
          match c.path.intermediate with
          | none => return { status := 500 }
          | some iupf =>
              if ← accepted iupf
                  (.sessionModification leg.upSeid farId gnb.1 gnb.2 c.dnn sendEndMarker) then
                installDownlink smRef c gnb sendEndMarker
              else return { status := 502 }

/-- `Nsmf_PDUSession_UpdateSMContext`. -/
def updateSmContext (smRef : String) (req : SmContextUpdateData) : SmfM Response := do
  if req.upCnxState = some "DEACTIVATED" then deactivateUp smRef
  else if req.upCnxState = some "ACTIVATING" then
    match ← readSmf fun s => s.contexts.lookup smRef with
    | some c => return { status := 200, body := .smContext (c.resumeData smRef) }
    | none => return { status := 404 }
  else
    match req.gnbN3Teid, req.gnbN3Addr with
    | some teidHex, some gnbAddr =>
        match parseTeid teidHex with
        | none => return { status := 400 }
        | some gnbTeid =>
            if validGnbTarget gnbTeid gnbAddr then activateUp smRef (gnbTeid, gnbAddr)
            else return { status := 400 }
    | _, _ => return { status := 400 }

/-! ### Indirect forwarding -/

structure IndirectForwardingReq where
  targetN3Teid : Option String
  targetN3Addr : Option Ipv4Addr
  release : Bool
  deriving DecidableEq, Repr

/-- Take the forwarding session off the context, then delete it on the anchor. -/
def releaseForwarding (smRef : String) : SmfM Response := do
  let taken ← onSmf fun s =>
    ((s.contexts.lookup smRef).bind fun c => c.indirectFwd.map fun seid => (seid, c.path.anchor),
      { s with contexts := s.contexts.modify smRef fun c => { c with indirectFwd := none } })
  match taken with
  | none => return { status := 204 }
  | some (fwdSeid, anchor) =>
      if ← accepted anchor (.sessionDeletion fwdSeid) then return { status := 204 }
      else return { status := 502 }

/-- Set up (or release) the forwarding session of a handover. -/
def indirectForwarding (smRef : String) (req : IndirectForwardingReq) : SmfM Response := do
  if req.release then releaseForwarding smRef
  else
    match req.targetN3Teid, req.targetN3Addr with
    | some teidHex, some targetAddr =>
        match parseTeid teidHex with
        | none => return { status := 400 }
        | some targetTeid =>
            match ← readSmf fun s => s.contexts.lookup smRef with
            | none => return { status := 404 }
            | some c =>
                let anchor := c.path.anchor
                let cpSeid ← nextCpSeid
                match ← establish anchor
                    (.sessionEstablishmentIndirectForwarding cpSeid targetTeid targetAddr) with
                | none => return { status := 502 }
                | some session =>
                    mark (.forwarding smRef session.upSeid)
                    updateContext smRef fun c => { c with indirectFwd := some session.upSeid }
                    return { status := 200
                             body := .indirectForwarding session.n3Teid session.n3Addr }
    | _, _ => return { status := 400 }

/-! ### Policy refresh -/

/-- The per-flow QERs to create, to update and to remove. -/
def diffFlows (old new : List FlowQer) : List FlowQer × List FlowQer × List UInt8 :=
  let previous := fun n : FlowQer => old.find? fun o => o.qfi == n.qfi
  let create := new.filter fun n =>
    match previous n with
    | none => true
    | some o => o.filter != n.filter
  -- an MFBR re-rate or a gate flip
  let update := new.filter fun n =>
    match previous n with
    | none => false
    | some o => o.filter == n.filter &&
        (o.mfbrDlBps, o.mfbrUlBps, o.gate) != (n.mfbrDlBps, n.mfbrUlBps, n.gate)
  let remove := (old.filter fun o => !new.any fun n => n.qfi == o.qfi && n.filter == o.filter).map
    fun o => o.qfi
  (create, update, remove)

/-- Propagate a changed session AMBR onto the user plane. -/
def propagateAmbr (c : SmContext) (decision : SmPolicyDecision) : SmfM Unit := do
  match ambrBps decision with
  | some ambr =>
      if some ambr ≠ ambrBps c.policy then
        let _ ← accepted c.path.anchor (.sessionQerUpdate c.upSeid ambr)
  | none => return ()

/-- Propagate changed GBR flows onto the user plane. -/
def propagateFlows (c : SmContext) (decision : SmPolicyDecision) : SmfM Unit := do
  let d := diffFlows (flowQers c.policy) (flowQers decision)
  if !d.1.isEmpty || !d.2.1.isEmpty || !d.2.2.isEmpty then
    let _ ← accepted c.path.anchor (.sessionFlowModification c.upSeid d.1 d.2.1 d.2.2)

/-- The GBR flows gone from the new policy. -/
def releasedQfis (old new : SmPolicyDecision) : List UInt8 :=
  ((flowQers old).filter fun o => !(flowQers new).any fun n => n.qfi == o.qfi).map fun o => o.qfi

/-- Refresh the context's QoS record, and its reservation with it. -/
def storeDecision (smRef : String) (decision : SmPolicyDecision) (s : SmfState) : SmfState :=
  match s.contexts.lookup smRef with
  | none => s
  | some c =>
      let newGfbr := decisionGfbr decision
      let s := if c.reservedGfbr ≠ newGfbr then s.adjustGfbr c.reservedGfbr newGfbr else s
      { s with contexts := s.contexts.modify smRef fun c =>
          { c with reservedGfbr := newGfbr, policy := decision } }

/-- Re-authorize a session's policy at the PCF. -/
def refreshSmPolicy (smRef : String) : SmfM (Except SbiProblem Response) := do
  match ← readSmf fun s => s.contexts.lookup smRef with
  | none =>
      return .error
        { status := 404, cause := "CONTEXT_NOT_FOUND", detail := "unknown SM context" }
  | some c =>
      match c.smPolicy with
      -- sm-data fallback: no association to re-authorize
      | none => return .ok { status := 204 }
      | some (_, policyId) =>
          match ← overHttp "PCF" (updateSmPolicy policyId c.policy) with
          | .error _ =>
              mark (.refreshFailed smRef)
              return .error
                { status := 502, cause := "PCF_UNREACHABLE"
                  detail := "Npcf SM policy update failed" }
          | .ok (number, update) =>
              let decision := c.policy.apply update
              propagateAmbr c decision
              propagateFlows c decision
              mark (.merging smRef number decision)
              changeSmf (storeDecision smRef decision)
              reconcileInfluenceBreakout smRef
              -- the RAN and the UE hear of it only when the QoS changed
              spawn (if c.policy.same decision then [] else
                [.amfPduModify c.supi c.pduSessionId decision (releasedQfis c.policy decision)])
              return .ok { status := 200, body := .decision decision }

end Radian.Smf
