import Radian.Smf.Calls

/-!
# Uplink-classifier breakouts

Inserting and removing a breakout anchor on a live chained session, on request or to follow the AF
influence its SM policy carries.

- `insertBreakout`, `removeBreakout` — the N4 work, recorded on the context at the end.
- `reconcileInfluenceBreakout` — bring the breakout a policy owns into line with the policy.
- `oamBreakout` — the request of an operator or a NEF.
-/

namespace Radian.Smf

open Npcf (SmPolicyDecision)
open Pfcp (Ipv4Addr Seid Teid IpPrefix UeAddr FlowFilter)

/-- A body of an HTTP response. -/
inductive ResponseBody where
  | empty
  | text (t : String)
  | smContext (d : SmContextCreatedData)
  | indirectForwarding (fwdN3Teid : Teid) (fwdN3Addr : Ipv4Addr)
  | decision (d : SmPolicyDecision)

structure Response where
  status : StatusCode
  body : ResponseBody := .empty

def Response.isSuccess (r : Response) : Bool := 200 ≤ r.status && r.status < 300

/-- Point one session's downlink FAR at a GTP-U `(TEID, address)`. -/
def pointDownlinkAt (peer : String) (upSeid : Seid) (target : Teid × Ipv4Addr) (dnn : String) :
    SmfM (Except String Unit) := do
  match ← transact peer (.sessionModification upSeid farId target.1 target.2 dnn false) with
  | none => return .error "no PFCP response"
  | some r => return if r.accepted then .ok () else .error "refused the downlink target"

/-- The PDR/FAR index a mid-session breakout occupies on the classifier. -/
def midSessionBreakoutIndex : Nat := 0

/-- Establish the breakout anchor, point its downlink at the classifier's N9 ingress, add the
branch, then record the breakout. -/
def insertBreakout (smRef : String) (leg : ChainedLeg) (iupf : String) (ue : UeAddr)
    (dnn routePrefix via : String) : SmfM Response := do
  if leg.breakoutSeid.isSome then
    return { status := 409, body := .text "the session already has a breakout" }
  else
    match IpPrefix.fromStr routePrefix with
    | none => return { status := 400 }
    | some pre =>
        match ← readSmf fun s => s.peerByName via with
        | none => return { status := 404, body := .text "unknown breakout UP node" }
        | some psa2 =>
            let cpSeid ← nextCpSeid
            -- no URRs: only the default anchor meters
            match ← establish psa2 (.sessionEstablishment cpSeid ue dnn none [] none) with
            | none => return { status := 502 }
            | some est =>
                match ← pointDownlinkAt psa2 est.upSeid leg.dlIngress dnn with
                | .error _ =>
                    let _ ← transact psa2 (.sessionDeletion est.upSeid)
                    return { status := 502 }
                | .ok () =>
                    let added ← accepted iupf
                      (.sessionModificationAddBranch leg.upSeid midSessionBreakoutIndex
                        (FlowFilter.toPrefix pre) (.toPeer est.n3Teid est.n3Addr) dnn)
                    if added then
                      updateContext smRef fun c =>
                        { c with
                          chain := c.chain.map fun l => { l with breakoutSeid := some est.upSeid }
                          path := { c.path with breakout := some (psa2, pre) } }
                      return { status := 200 }
                    else
                      let _ ← transact psa2 (.sessionDeletion est.upSeid)
                      return { status := 502 }

/-- Remove the classifier branch, delete the breakout anchor's session, then clear it. -/
def removeBreakout (smRef : String) (leg : ChainedLeg) (iupf : String) (path : SessionPath) :
    SmfM Response := do
  match leg.breakoutSeid, path.breakout with
  | some breakoutSeid, some (psa2, _) =>
      if ← accepted iupf (.sessionModificationRemoveBranch leg.upSeid midSessionBreakoutIndex) then
        -- a deletion that is not accepted is only logged
        let _ ← accepted psa2 (.sessionDeletion breakoutSeid)
        updateContext smRef fun c =>
          { c with
            chain := c.chain.map fun l => { l with breakoutSeid := none }
            path := { c.path with breakout := none } }
        return { status := 200 }
      else return { status := 502 }
  | _, _ => return { status := 409, body := .text "the session has no breakout" }

structure BreakoutReq where
  supi : String
  pduSessionId : Option UInt8
  dnn : Option String
  routePrefix : Option String
  via : Option String
  dnai : Option String
  remove : Bool
  deriving DecidableEq, Repr

/-- The session a breakout request means. -/
def BreakoutReq.selects (req : BreakoutReq) (c : SmContext) : Bool :=
  c.supi == req.supi && (req.pduSessionId.all fun psi => c.pduSessionId == psi) &&
    (req.dnn.all fun d => c.dnn == d)

/-- Insert or remove a breakout on the session the request selects. -/
def oamBreakout (req : BreakoutReq) : SmfM Response := do
  if req.pduSessionId.isNone && req.dnn.isNone then
    return { status := 400, body := .text "supply pduSessionId or dnn" }
  else
    match ← readSmf fun s => s.contexts.entries.find? fun e => req.selects e.2 with
    | none => return { status := 404 }
    | some ⟨smRef, c⟩ =>
        match c.chain, c.path.intermediate with
        | some leg, some iupf =>
            if req.remove then removeBreakout smRef leg iupf c.path
            else
              let via ← readSmf fun s => req.via.orElse fun _ => req.dnai.bind s.nodeForDnai
              match req.routePrefix, via with
              | some pre, some via => insertBreakout smRef leg iupf c.ueAddr c.dnn pre via
              | _, _ => return { status := 400, body := .text "supply prefix and via/dnai" }
        | _, _ =>
            return { status := 409
                     body := .text "session is not chained; no classifier to branch at" }

/-- Bring the session's breakout into line with the AF influence its policy carries.  A breakout of
a static route, or one installed directly, is left alone. -/
def reconcileInfluenceBreakout (smRef : String) : SmfM Unit := do
  match ← readSmf fun s => s.contexts.lookup smRef with
  | none => return ()
  | some c =>
      match c.chain, c.path.intermediate with
      | some leg, some iupf =>
          if ← readSmf fun s => s.dnnHasConfigRoute c.dnn then return ()
          else
            match c.policy.influenceRoute, leg.breakoutSeid.isSome with
            | some (pre, dnai), false =>
                match ← readSmf fun s => s.nodeForDnai dnai with
                | some via =>
                    let r ← insertBreakout smRef leg iupf c.ueAddr c.dnn pre via
                    -- policy owns this breakout: a later refresh may withdraw it
                    if r.isSuccess then updateContext smRef fun c => { c with policyBreakout := true }
                | none => return ()
            | none, true =>
                if c.policyBreakout then
                  let r ← removeBreakout smRef leg iupf c.path
                  if r.isSuccess then updateContext smRef fun c => { c with policyBreakout := false }
            | _, _ => return ()
      | _, _ => return ()

end Radian.Smf
