import Radian.Smf.Breakout

/-!
# Establishing a session

`createSmContext` and what it is made of: the type negotiation, the chained half, and the exits
that give back what was acquired.

- `establishChain` — the intermediate-UPF half of a chained session.
- `refuse` — an error exit after admission: the reservation and the leased addresses go back.
- `createSmContext` — `Nsmf_PDUSession_CreateSMContext`.
-/

namespace Radian.Smf

open Proc (mark)
open Npcf (SmPolicyDecision SessionAmbrPolicy)
open Pfcp (Ipv4Addr Ipv6Addr Seid Teid IpPrefix UeAddr EstablishedSession FlowFilter FlowQer
  SessionAmbr Egress)

/-! ### Reading a decision -/

/-- The aggregate GFBR a decision's GBR flows require; a rate that does not parse counts as 0. -/
def decisionGfbr (d : SmPolicyDecision) : Gfbr :=
  (d.qosFlows.filterMap fun f => f.gbr).foldl
    (fun acc g =>
      (saturatingAdd acc.1 (UInt64.ofNat ((Npcf.bitrateToBps g.gfbrDl).getD 0)),
        saturatingAdd acc.2 (UInt64.ofNat ((Npcf.bitrateToBps g.gfbrUl).getD 0))))
    (0, 0)

/-- The per-flow QERs of a decision's GBR flows that carry a packet filter. -/
def flowQers (d : SmPolicyDecision) : List FlowQer :=
  d.qosFlows.filterMap fun f => do
    let gbr ← f.gbr
    let filter ← f.filter
    let mfbrDlBps ← Npcf.bitrateToBps gbr.mfbrDl
    let mfbrUlBps ← Npcf.bitrateToBps gbr.mfbrUl
    return { qfi := f.qfi
             filter := FlowFilter.transport filter.protocol filter.portLow filter.portHigh
             mfbrDlBps, mfbrUlBps
             gate := { uplink := f.flowStatus.gate.1, downlink := f.flowStatus.gate.2 } }

/-- The session AMBR for the UPF's QER. -/
def ambrBps (d : SmPolicyDecision) : Option SessionAmbr :=
  (d.sessionAmbr.bind SessionAmbrPolicy.toBps).map fun r => { uplinkBps := r.1, downlinkBps := r.2 }

/-- 5GSM cause #50, IPv4 only. -/
def pduSessionTypeIpv4OnlyAllowed : UInt8 := 50

/-- 5GSM cause #51, IPv6 only. -/
def pduSessionTypeIpv6OnlyAllowed : UInt8 := 51

/-- The selected type and, on a downgrade, the cause the accept carries. -/
def negotiatePduType (requested : PduSessionType) (allowV4 allowV6 : Bool) :
    PduSessionType × Option UInt8 :=
  match requested with
  | .ipv4v6 =>
      match allowV4, allowV6 with
      | true, true => (.ipv4v6, none)
      | true, false => (.ipv4, some pduSessionTypeIpv4OnlyAllowed)
      | false, true => (.ipv6, some pduSessionTypeIpv6OnlyAllowed)
      -- nothing allowed: default to IPv4
      | false, false => (.ipv4, some pduSessionTypeIpv4OnlyAllowed)
  | .ipv4 => if allowV4 then (.ipv4, none) else (.ipv6, some pduSessionTypeIpv6OnlyAllowed)
  | .ipv6 => if allowV6 then (.ipv6, none) else (.ipv4, some pduSessionTypeIpv4OnlyAllowed)

/-! ### The chained half -/

/-- Give a chain up; the sessions accepted so far stay where they are. -/
def abandonChain {β : Type} (sessions : List (String × Seid)) (why : String) :
    SmfM (Except String β) := do
  mark (.abandoning sessions)
  return .error why

/-- The breakout anchor of a path, established first: the classifier's branch points at it. -/
def establishBreakout (path : SessionPath) (ue : UeAddr) (dnn : String) :
    SmfM (Except String (Option (String × EstablishedSession × IpPrefix))) := do
  match path.breakout with
  | none => return .ok none
  | some (psa2, pre) =>
      let cpSeid ← nextCpSeid
      -- policed and metered once, on the default anchor
      match ← transact psa2 (.sessionEstablishment cpSeid ue dnn none [] none) with
      | none => abandonChain [] "no PFCP response from the breakout anchor"
      | some resp =>
          match resp.session with
          | none => abandonChain [] "breakout anchor rejected the N4 establishment"
          | some est => return .ok (some (psa2, est, pre))

/-- The sessions a chain holds once its breakout anchor is up. -/
def breakoutSessions (breakout : Option (String × EstablishedSession × IpPrefix)) :
    List (String × Seid) :=
  match breakout with
  | some (psa2, est, _) => [(psa2, est.upSeid)]
  | none => []

/-- The classifier branch that steers the breakout prefix. -/
def breakoutBranches (breakout : Option (String × EstablishedSession × IpPrefix)) :
    List (FlowFilter × Egress) :=
  match breakout with
  | some (_, est, pre) => [(FlowFilter.toPrefix pre, .toPeer est.n3Teid est.n3Addr)]
  | none => []

/-- Point both anchors' downlinks at the I-UPF's N9 ingress. -/
def splice (path : SessionPath) (anchor est : EstablishedSession) (iupf : String)
    (breakout : Option (String × EstablishedSession × IpPrefix)) (dlIngress : Teid × Ipv4Addr)
    (dnn : String) : SmfM (Except String (ChainedLeg × Teid × Ipv4Addr)) := do
  let sessions := breakoutSessions breakout ++ [(iupf, est.upSeid)]
  match ← pointDownlinkAt path.anchor anchor.upSeid dlIngress dnn with
  | .error e => abandonChain sessions s!"anchor UPF: {e}"
  | .ok () =>
      match breakout with
      | none => return .ok ({ upSeid := est.upSeid, dlIngress, breakoutSeid := none }, est.n3Teid,
          est.n3Addr)
      | some (psa2, est2, _) =>
          match ← pointDownlinkAt psa2 est2.upSeid dlIngress dnn with
          | .error e => abandonChain sessions s!"breakout anchor: {e}"
          | .ok () =>
              return .ok ({ upSeid := est.upSeid, dlIngress, breakoutSeid := some est2.upSeid },
                est.n3Teid, est.n3Addr)

/-- Build the intermediate-UPF half of a session and splice it to the established anchor; the leg
and the gNB-facing F-TEID. -/
def establishChain (path : SessionPath) (anchor : EstablishedSession) (ue : UeAddr)
    (dnn : String) : SmfM (Except String (ChainedLeg × Teid × Ipv4Addr)) := do
  match path.intermediate with
  | none => return .error "chain without an intermediate"
  | some iupf =>
      match ← establishBreakout path ue dnn with
      | .error e => return .error e
      | .ok breakout =>
          let cpSeid ← nextCpSeid
          match ← transact iupf (.sessionEstablishmentViaPeer cpSeid ue dnn anchor.n3Teid
              anchor.n3Addr (breakoutBranches breakout)) with
          | none =>
              abandonChain (breakoutSessions breakout) "no PFCP response from the intermediate UPF"
          | some resp =>
              match resp.session with
              | none =>
                  abandonChain (breakoutSessions breakout)
                    "intermediate UPF rejected the N4 establishment"
              | some est =>
                  match est.dlIngress with
                  | none =>
                      abandonChain (breakoutSessions breakout ++ [(iupf, est.upSeid)])
                        "intermediate UPF allocated no N9 downlink ingress"
                  | some dlIngress => splice path anchor est iupf breakout dlIngress dnn

/-! ### Create -/

/-- The sm-data fallback decision: no PCF, so the subscribed AMBR and flows. -/
def fallbackDecision (sub : SessionSubscription) : SmPolicyDecision :=
  SmPolicyDecision.setFlows
    { sessionRules := SmPolicyDecision.sessionRulesFor sub.ambr } sub.qosFlows

/-- The addresses of an establishment not yet stored, given back when it is dropped. -/
structure IpLease where
  v4 : Option Ipv4Addr
  v6 : Option Ipv6Addr
  deriving DecidableEq, Repr

def IpLease.drop (lease : IpLease) (s : SmfState) : SmfState :=
  let s := match lease.v4 with
    | some v4 => s.releaseUeIp v4
    | none => s
  match lease.v6 with
  | some v6 => s.releaseUeIpv6 v6
  | none => s

/-- An error exit after admission: release the reservation, then drop the lease. -/
def refuse {β : Type} (gfbr : Gfbr) (lease : IpLease) (p : SbiProblem) :
    SmfM (Except SbiProblem β) := do
  changeSmf fun s => lease.drop (s.releaseGfbr gfbr)
  return .error p

/-- Lease an IPv4 address when the selected type has one; `none` when the pool is exhausted. -/
def leaseIpv4 (t : PduSessionType) : SmfM (Option (Option Ipv4Addr)) := do
  if t.hasIpv4 then
    let ip ← onSmf SmfState.allocUeIp
    return ip.map some
  else return some none

/-- Lease an IPv6 /64 and interface identifier when the selected type has one. -/
def leaseIpv6 (t : PduSessionType) : SmfM (Option (Option (Ipv6Addr × BitVec 64))) := do
  if t.hasIpv6 then
    let v6 ← onSmf SmfState.allocUeIpv6
    return v6.map some
  else return some none

/-- Open a charging session at the discovered CHF; without one the session runs unbilled. -/
def openCharging (req : SmContextCreateData) : SmfM (Option (String × String)) := do
  match ← discoverEndpoint "CHF" with
  | .error _ => return none
  | .ok chfBase =>
      let create : ChargingDataRequest :=
        { subscriberIdentifier := req.supi
          pduSessionChargingInformation := some (req.pduSessionId, req.dnn)
          usedUnitContainers := [] }
      match ← Proc.ask (R := Call.Answer) (.chargingCreate chfBase create) with
      | .ok chargingRef => return some (chfBase, chargingRef)
      | .error _ => return none

/-- What is known about a session before its N4 establishment. -/
structure Admitted where
  req : SmContextCreateData
  sub : SessionSubscription
  selectedType : PduSessionType
  cause5gsm : Option UInt8
  smRef : String
  decision : SmPolicyDecision
  smPolicy : Option (String × String)
  reservedGfbr : Gfbr
  path : SessionPath

/-- The context of an established session. -/
def Admitted.context (a : Admitted) (cpSeid : Seid) (est : EstablishedSession)
    (chain : Option ChainedLeg) (ueIp : Option Ipv4Addr) (ueIpv6 : Option (Ipv6Addr × BitVec 64))
    (charging : Option (String × String)) : SmContext :=
  { upSeid := est.upSeid
    cpSeid
    n3Teid := est.n3Teid
    n3Addr := est.n3Addr
    chain
    path := a.path
    ueIp
    pduType := a.selectedType
    ueIpv6
    dnn := a.req.dnn
    snssai := a.sub.snssai
    gnb := none
    indirectFwd := none
    supi := a.req.supi
    pduSessionId := a.req.pduSessionId
    smPolicy := a.smPolicy
    policy := a.decision
    reservedGfbr := a.reservedGfbr
    policyBreakout := false
    charging }

/-- Store the context, follow the policy's influence, register at the UDM and answer. -/
def storeContext (a : Admitted) (ctx : SmContext) :
    SmfM (Except SbiProblem SmContextCreatedData) := do
  mark (.storing a.smRef ctx)
  changeSmf fun s => { s with contexts := s.contexts.insert a.smRef ctx }
  reconcileInfluenceBreakout a.smRef
  spawn [.uecmRegister a.req.supi a.req.pduSessionId a.req.dnn]
  return .ok
    { smContextRef := a.smRef
      upN3Teid := ctx.n3Teid
      upN3Addr := ctx.n3Addr
      selectedPduSessionType := a.selectedType.asStr
      ueIpv4Addr := ctx.ueIp
      ueIpv6Prefix := ctx.ueIpv6.map fun v6 => v6.1
      ueIpv6Iid := ctx.ueIpv6.map fun v6 => v6.2
      cause5gsm := a.cause5gsm
      dnsIpv6 := a.sub.dnsIpv6
      sNssai := a.sub.snssai
      sessionAmbr := a.decision.sessionAmbr
      qosFlows := a.decision.qosFlows }

/-- The chained half, when the path has one; a chain that fails takes the anchor down with it. -/
def chainOrRollBack (a : Admitted) (lease : IpLease) (ue : UeAddr) (est : EstablishedSession) :
    SmfM (Except SbiProblem (EstablishedSession × Option ChainedLeg)) := do
  if a.path.intermediate.isSome then
    match ← establishChain a.path est ue a.req.dnn with
    | .ok (leg, anTeid, anAddr) =>
        -- the RAN must tunnel to the I-UPF, not the anchor
        return .ok ({ est with n3Teid := anTeid, n3Addr := anAddr }, some leg)
    | .error _ =>
        let _ ← transact a.path.anchor (.sessionDeletion est.upSeid)
        refuse a.reservedGfbr lease
          { status := 502, cause := "UPF_NOT_RESPONDING"
            detail := "intermediate UPF did not accept the N4 session" }
  else return .ok (est, none)

/-- The N4 establishment on the anchor with the leased addresses, then the chain, charging and the
context. -/
def establishSession (a : Admitted) (cpSeid : Seid) (ueIp : Option Ipv4Addr)
    (ueIpv6 : Option (Ipv6Addr × BitVec 64)) : SmfM (Except SbiProblem SmContextCreatedData) := do
  let lease : IpLease := { v4 := ueIp, v6 := ueIpv6.map fun v6 => v6.1 }
  let ue : UeAddr := { v4 := ueIp, v6 := ueIpv6.map fun v6 => v6.1 }
  let threshold ← readSmf fun s => s.usageThresholdBytes
  match ← transact a.path.anchor (.sessionEstablishment cpSeid ue a.req.dnn (ambrBps a.decision)
      (flowQers a.decision) threshold) with
  | none =>
      refuse a.reservedGfbr lease
        { status := 502, cause := "UPF_NOT_RESPONDING", detail := "no PFCP response from the UPF" }
  | some resp =>
      match resp.session with
      | none =>
          refuse a.reservedGfbr lease
            { status := 502, cause := "UPF_NOT_RESPONDING", detail := "PFCP establishment rejected" }
      | some est =>
          match ← chainOrRollBack a lease ue est with
          | .error p => return .error p
          | .ok (est, chain) =>
              let charging ← openCharging a.req
              storeContext a (a.context cpSeid est chain ueIp ueIpv6 charging)

/-- Lease the addresses of the selected type, then establish. -/
def leaseAndEstablish (a : Admitted) : SmfM (Except SbiProblem SmContextCreatedData) := do
  let cpSeid ← nextCpSeid
  match ← leaseIpv4 a.selectedType with
  | none =>
      refuse a.reservedGfbr { v4 := none, v6 := none }
        { status := 503, cause := "INSUFFICIENT_RESOURCES"
          detail := "no UE IPv4 address available" }
  | some ueIp =>
      match ← leaseIpv6 a.selectedType with
      | none =>
          refuse a.reservedGfbr { v4 := ueIp, v6 := none }
            { status := 503, cause := "INSUFFICIENT_RESOURCES"
              detail := "no UE IPv6 prefix available" }
      | some ueIpv6 => establishSession a cpSeid ueIp ueIpv6

/-- Negotiate the type, obtain the policy, admit the GFBR and select the path. -/
def admitSession (req : SmContextCreateData) (sub : SessionSubscription) :
    SmfM (Except SbiProblem SmContextCreatedData) := do
  let requestedType := (req.pduSessionType.bind PduSessionType.fromName).getD sub.defaultType
  let selected := negotiatePduType requestedType sub.allowV4 sub.allowV6
  -- allocated up front: it rides in the policy's notification URI
  let smRef ← onSmf fun s => (toString s.nextRef.toNat, { s with nextRef := s.nextRef + 1 })
  let callbackBase ← readSmf fun s => s.callbackBase
  let created ← fetchSmPolicy
    { supi := req.supi
      pduSessionId := req.pduSessionId
      dnn := req.dnn
      snssaiSst := some sub.snssai.sst
      snssaiSd := sub.snssai.sd
      notificationUri := some s!"{callbackBase}/nsmf-callback/v1/sm-policies/{smRef}/update" }
  let decision := match created with
    | some (_, _, decision) => decision
    | none => fallbackDecision sub
  let smPolicy := created.map fun c => (c.1, c.2.1)
  let reservedGfbr := decisionGfbr decision
  mark (.reserving reservedGfbr)
  if ← onSmf fun s => s.tryReserveGfbr reservedGfbr then
    match ← readSmf fun s => s.resolvePath req.dnn with
    | .error _ =>
        refuse reservedGfbr { v4 := none, v6 := none }
          { status := 502, cause := "DNN_DENIED", detail := "no user-plane path for the DNN" }
    | .ok path =>
        leaseAndEstablish
          { req, sub, selectedType := selected.1, cause5gsm := selected.2, smRef, decision, smPolicy
            reservedGfbr, path }
  else
    return .error
      { status := 503, cause := "INSUFFICIENT_RESOURCES", detail := "GFBR cannot be guaranteed" }

/-- `Nsmf_PDUSession_CreateSMContext`. -/
def createSmContext (req : SmContextCreateData) :
    SmfM (Except SbiProblem SmContextCreatedData) := do
  if req.dnn = "" then
    return .error { status := 400, cause := "MANDATORY_IE_MISSING", detail := "dnn is required" }
  else
    match req.servingNetwork with
    | none =>
        return .error
          { status := 400, cause := "MANDATORY_IE_MISSING", detail := "servingNetwork is required" }
    | some (mcc, mnc) =>
        match ← Proc.ask (R := Call.Answer)
            (.fetchSessionSubscription req.supi (mcc ++ mnc) req.dnn req.sNssai) with
        | .error p => return .error p
        | .ok sub => admitSession req sub

end Radian.Smf
