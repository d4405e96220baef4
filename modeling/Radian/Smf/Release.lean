import Radian.Smf.Update

/-!
# Releasing sessions

Teardown on request or when a quota is spent, recovery from a UPF restart, and the jobs spawned on
the way.

- `teardownSmContext` — `Nsmf_PDUSession_ReleaseSMContext` and the quota-triggered release.
- `recoverFromUpfRestart` — drop every context that runs on a restarted peer.
- `handleUsageReport` — relay a threshold report to the CHF; a spent quota tears the session down.
- `Request`, `handle` — everything the SMF may be asked to do.
-/

namespace Radian.Smf

open Proc (mark)
open Npcf (SmPolicyDecision)
open Pfcp (Seid UsageVolume)

/-- A flow's URR id is this base plus its QFI. -/
def perFlowUrrBase : Nat := 2000

/-- One URR usage volume as a used-unit container: rating group 0 for the session-level URR, the
flow's rating group else, by default its QFI. -/
def containerFor (u : UsageVolume) (decision : SmPolicyDecision) : UsedUnitContainer :=
  { ratingGroup :=
      if perFlowUrrBase ≤ u.urrId then
        let qfi := u.urrId - perFlowUrrBase
        (decision.ratingGroupFor (UInt8.ofNat qfi)).getD (UInt32.ofNat qfi)
      else 0
    uplinkVolume := u.uplink
    downlinkVolume := u.downlink
    totalVolume := u.total
    uplinkPackets := u.uplinkPkts
    downlinkPackets := u.downlinkPkts
    totalPackets := u.totalPkts }

/-- Delete the legs beside the anchor; what they answer is only logged. -/
def deleteLegs (chain : Option ChainedLeg) (path : SessionPath) : SmfM Unit := do
  match chain, path.intermediate with
  | some leg, some iupf =>
      let _ ← accepted iupf (.sessionDeletion leg.upSeid)
      match leg.breakoutSeid, path.breakout with
      | some seid, some (psa2, _) =>
          let _ ← accepted psa2 (.sessionDeletion seid)
          return ()
      | _, _ => return ()
  | _, _ => return ()

/-- Give a context's addresses and reservation back. -/
def reclaim (c : SmContext) (s : SmfState) : SmfState :=
  let s := match c.ueIp with
    | some v4 => s.releaseUeIp v4
    | none => s
  let s := match c.ueIpv6 with
    | some v6 => s.releaseUeIpv6 v6.1
    | none => s
  s.releaseGfbr c.reservedGfbr

/-- The final charging report, when the session is billed. -/
def SmContext.chargingRelease (c : SmContext) (usages : List UsageVolume) : List Job :=
  match c.charging with
  | some (chfBase, chargingRef) =>
      [.chargingRelease chfBase chargingRef
        { subscriberIdentifier := c.supi
          pduSessionChargingInformation := none
          usedUnitContainers := usages.map fun u => containerFor u c.policy }]
  | none => []

/-- The deletion of the PCF's association, when the session had one. -/
def SmContext.policyDelete (c : SmContext) : List Job :=
  match c.smPolicy with
  | some (pcfBase, policyId) => [.smPolicyDelete pcfBase policyId]
  | none => []

/-- The last section of a teardown: spawn the final charging report, drop the context, give back
what the first section copied, spawn the purges. -/
def finishTeardown (smRef : String) (c : SmContext) (usages : List UsageVolume) :
    SmfM (Except SbiProblem StatusCode) := do
  spawn (c.chargingRelease usages)
  mark (.releasing smRef c)
  changeSmf fun s => reclaim c { s with contexts := s.contexts.erase smRef }
  spawn (.uecmPurge c.supi c.pduSessionId :: c.policyDelete)
  return .ok 204

/-- Tear a PDU session down. -/
def teardownSmContext (smRef : String) : SmfM (Except SbiProblem StatusCode) := do
  match ← readSmf fun s => s.contexts.lookup smRef with
  | none =>
      return .error
        { status := 404, cause := "CONTEXT_NOT_FOUND", detail := "unknown SM context" }
  | some c =>
      match ← transact c.path.anchor (.sessionDeletion c.upSeid) with
      | none =>
          -- the context stays: the AMF may retry
          return .error
            { status := 502, cause := "UPF_NOT_RESPONDING"
              detail := "no PFCP deletion response" }
      | some resp =>
          -- a non-accepted answer means the UPF already lost the session
          deleteLegs c.chain c.path
          finishTeardown smRef c resp.usages

/-- Drop the contexts that run on `peer`, and give back what each held. -/
def dropAffected (peer : String) (c : Core) : Core :=
  let dropped := c.smf.contexts.partition fun ctx => ctx.path.uses peer
  { c with
    smf := dropped.1.foldl (fun s ctx => reclaim ctx s) { c.smf with contexts := dropped.2 }
    jobs := c.jobs ++ dropped.1.map fun ctx => .uecmPurge ctx.supi ctx.pduSessionId }

/-- A UPF reported a restart: re-associate, then drop every context that runs on it. -/
def recoverFromUpfRestart (peer : String) : SmfM Unit := do
  -- a failed re-association is only logged
  let _ ← Proc.ask (R := Call.Answer) (.associate peer)
  mark (.recovering peer)
  Proc.change (dropAffected peer)

/-- A threshold usage report: ack it, relay it to the CHF, and tear the session down when the CHF
answers that the quota is spent. -/
def handleUsageReport (cpSeid : Seid) (usage : UsageVolume) : SmfM Unit := do
  match ← readSmf fun s => s.contexts.entries.find? fun e => e.2.cpSeid == cpSeid with
  | none => return ()
  | some ⟨smRef, c⟩ =>
      Proc.ask (R := Call.Answer) (.reportAck c.path.anchor c.upSeid)
      match c.charging with
      | none => return ()
      | some (chfBase, chargingRef) =>
          match ← Proc.ask (R := Call.Answer) (.chargingUpdate chfBase chargingRef
              { subscriberIdentifier := c.supi
                pduSessionChargingInformation := none
                usedUnitContainers := [containerFor usage c.policy] }) with
          | .ok (some action) =>
              if action = "TERMINATE" then let _ ← teardownSmContext smRef
          | _ => return ()

/-- Run one spawned job, whichever the runtime picks. -/
def runJob (i : Nat) : SmfM Unit := do
  let picked ← Proc.actShared fun c => (c.jobs[i]?, { c with jobs := c.jobs.eraseIdx i })
  match picked with
  | some (.smPolicyDelete _ policyId) => let _ ← overHttp "PCF" (deleteSmPolicy policyId)
  | some j => Proc.ask (R := Call.Answer) (.job j)
  | none => return ()

/-! ### Requests -/

/-- What may start a handler: the SBI requests, a UPF's reports and restarts, the runtime. -/
inductive Request where
  | create (req : SmContextCreateData)
  | update (smRef : String) (req : SmContextUpdateData)
  | indirectForwarding (smRef : String) (req : IndirectForwardingReq)
  | breakout (req : BreakoutReq)
  | refresh (smRef : String)
  | release (smRef : String)
  | usageReport (cpSeid : Seid) (usage : UsageVolume)
  | recover (peer : String)
  | job (i : Nat)

/-- The handler of a request, its response left out. -/
def handle : Request → SmfM Unit
  | .create req => do let _ ← createSmContext req
  | .update smRef req => do let _ ← updateSmContext smRef req
  | .indirectForwarding smRef req => do let _ ← indirectForwarding smRef req
  | .breakout req => do let _ ← oamBreakout req
  | .refresh smRef => do let _ ← refreshSmPolicy smRef
  | .release smRef => do let _ ← teardownSmContext smRef
  | .usageReport cpSeid usage => handleUsageReport cpSeid usage
  | .recover peer => recoverFromUpfRestart peer
  | .job i => runJob i

end Radian.Smf
