import Radian.Npcf.Decision
import Radian.Tasks.Basic

/-!
# The PCF

SM policy associations, and the application functions' influences that are folded into their
decisions.  A handler runs from one await to the next; other handlers may run in between.

- `PcfState.baseDecisionFor`, `applyInfluences`, `applyGroupInfluences` — how a decision comes about.
- `Request`, `Task` — the requests, and the handlers in flight by the await they stand at.
- `program` — any number of handlers over one state.
-/

namespace Radian.Npcf

/-! ### Influences -/

structure AfRoutingRequirement where
  routeToLocs : List RouteToLocation
  deriving DecidableEq, Repr

structure AppSessionContextReqData where
  supi : Option String
  dnn : Option String
  afRoutReq : Option AfRoutingRequirement
  trafficPrefix : Option String
  deriving DecidableEq, Repr

/-- One stored AF influence: the UE and DN it targets, and the route it asks for. -/
structure AfInfluence where
  supi : String
  dnn : String
  trafficPrefix : String
  dnai : String
  deriving DecidableEq, Repr

/-- The influence a request asks for, when it names all of it. -/
def AppSessionContextReqData.influence (req : AppSessionContextReqData) : Option AfInfluence := do
  let supi ← req.supi
  let dnn ← req.dnn
  let trafficPrefix ← req.trafficPrefix
  let afRoutReq ← req.afRoutReq
  let loc ← afRoutReq.routeToLocs.head?
  return { supi, dnn, trafficPrefix, dnai := loc.dnai }

/-- An influence stored in the UDR, for a group of UEs or any UE. -/
structure TrafficInfluData where
  dnn : Option String
  anyUeInd : Bool
  supis : List String
  routeToLocs : List RouteToLocation
  trafficPrefix : Option String
  deriving DecidableEq, Repr

def TrafficInfluData.appliesTo (data : TrafficInfluData) (supi dnn : String) : Bool :=
  let dnnOk := data.dnn.all fun d => d = dnn
  let ueOk := data.anyUeInd || data.supis.any fun s => s = supi
  dnnOk && ueOk

/-! ### State -/

/-- A policy decision per DNN, with a default. -/
structure PolicyConfig where
  perDnn : HashMap SmPolicyDecision
  default : SmPolicyDecision
  deriving DecidableEq

def PolicyConfig.decide (cfg : PolicyConfig) (dnn : String) : SmPolicyDecision :=
  (cfg.perDnn.lookup dnn).getD cfg.default

/-- The creating context and the current decision. -/
abbrev Association : Type := SmPolicyContextData × SmPolicyDecision

/-- `udr` says whether a UDR is configured. -/
structure PcfState where
  config : PolicyConfig
  udr : Bool
  associations : HashMap Association
  nextId : UInt64
  influences : HashMap AfInfluence

/-- What the UDR answers while one decision is made.  A document that does not parse is `none`. -/
structure UdrAnswers where
  policyData : Except String (Option (Option PolicyConfig))
  influenceData : Except String (List (String × Option TrafficInfluData))

/-! ### Decisions -/

/-- The key of an app session's traffic-control decision. -/
def afKey (id : String) : String := "af-" ++ id

def influenceKey (id : String) : String := "influence-" ++ id

def AfInfluence.control (inf : AfInfluence) : TrafficControlData :=
  { routeToLocs := [⟨inf.dnai⟩], trafficPrefix := some inf.trafficPrefix }

/-- The subscriber's policy before AF influence. -/
def PcfState.baseDecisionFor (pcf : PcfState) (ctx : SmPolicyContextData)
    (policyData : Except String (Option (Option PolicyConfig))) : SmPolicyDecision :=
  if pcf.udr then
    match policyData with
    | .ok (some (some cfg)) => cfg.decide ctx.dnn
    | _ => pcf.config.decide ctx.dnn
  else pcf.config.decide ctx.dnn

/-- Fold in every AF influence that targets this session. -/
def applyInfluences (influences : HashMap AfInfluence) (ctx : SmPolicyContextData)
    (decision : SmPolicyDecision) : SmPolicyDecision :=
  { decision with
    trafficControlData := influences.entries.foldl
      (fun tcs e =>
        if e.2.supi = ctx.supi ∧ e.2.dnn = ctx.dnn then tcs.insert (afKey e.1) e.2.control else tcs)
      decision.trafficControlData }

/-- The traffic-control decision of one influence document, where it applies. -/
def groupControl (ctx : SmPolicyContextData) (doc : Option TrafficInfluData) :
    Option TrafficControlData := do
  let data ← doc
  if data.appliesTo ctx.supi ctx.dnn then
    let trafficPrefix ← data.trafficPrefix
    let loc ← data.routeToLocs.head?
    return { routeToLocs := [⟨loc.dnai⟩], trafficPrefix := some trafficPrefix }
  else none

/-- Fold in the UDR's influences for groups of UEs. -/
def PcfState.applyGroupInfluences (pcf : PcfState) (ctx : SmPolicyContextData)
    (influenceData : Except String (List (String × Option TrafficInfluData)))
    (decision : SmPolicyDecision) : SmPolicyDecision :=
  if pcf.udr then
    match influenceData with
    | .ok docs =>
        { decision with
          trafficControlData := docs.foldl
            (fun tcs doc =>
              match groupControl ctx doc.2 with
              | some tc => tcs.insert (influenceKey doc.1) tc
              | none => tcs)
            decision.trafficControlData }
    | .error _ => decision
  else decision

/-! ### Handlers -/

/-- A request, with what the UDR will answer to it.  The PCF looks for an association to notify in the
order of its hash map, `scan`. -/
inductive Request where
  | createSmPolicy (ctx : SmPolicyContextData) (udr : UdrAnswers)
  | updateSmPolicy (policyId : String) (udr : UdrAnswers)
  | deleteSmPolicy (policyId : String)
  | createAppSession (req : AppSessionContextReqData) (scan : List String) (udr : UdrAnswers)
  | deleteAppSession (appSessionId : String) (scan : List String) (udr : UdrAnswers)

inductive Answer where
  | badRequest (text : String)
  | notFound
  | noContent
  | created (location : String) (decision : Option SmPolicyDecision)
  | updated (delta : SmPolicyUpdate)

/-- What a decision is made for.  An update that a notification brought about has an AF to answer. -/
inductive Goal where
  | create (ctx : SmPolicyContextData)
  | update (policyId : String) (ctx : SmPolicyContextData) (prev : SmPolicyDecision)
      (reply : Option Answer)

def Goal.ctx : Goal → SmPolicyContextData
  | .create ctx => ctx
  | .update _ ctx _ _ => ctx

/-- A handler in flight: it waits for the subscriber's policy data; for the influence data, with the
decision so far and the influences that it carries; or for the SMF, which is about to update the
association it is notified of. -/
inductive Task where
  | policyData (goal : Goal) (udr : UdrAnswers)
  | influenceData (goal : Goal) (decision : SmPolicyDecision) (seen : HashMap AfInfluence)
      (udr : UdrAnswers)
  | notify (policyId : String) (udr : UdrAnswers) (answer : Answer)
  | returned (answer : Answer)

def Task.isReturned : Task → Bool
  | .returned _ => true
  | _ => false

/-- The first association that serves the UE on the DNN, when the SMF registered a URI for it, with
that URI. -/
def PcfState.notifyUriFor (pcf : PcfState) (scan : List String) (supi dnn : String) :
    Option (String × String) := do
  let (id, ctx) ← scan.findSome? fun id => do
    let (ctx, _) ← pcf.associations.lookup id
    if ctx.supi = supi ∧ ctx.dnn = dnn then some (id, ctx) else none
  let uri ← ctx.notificationUri
  return (id, uri)

def PcfState.notifySmf (pcf : PcfState) (scan : List String) (supi dnn : String) (udr : UdrAnswers)
    (answer : Answer) : Task :=
  match pcf.notifyUriFor scan supi dnn with
  | some (policyId, _) => .notify policyId udr answer
  | none => .returned answer

def PcfState.updateSmPolicy (pcf : PcfState) (policyId : String) (udr : UdrAnswers)
    (reply : Option Answer) : Task :=
  match pcf.associations.lookup policyId with
  | some (ctx, prev) => .policyData (.update policyId ctx prev reply) udr
  | none => .returned (reply.getD .notFound)

def PcfState.deleteSmPolicy (pcf : PcfState) (policyId : String) : Task × PcfState :=
  (.returned (if (pcf.associations.lookup policyId).isSome then .noContent else .notFound),
    { pcf with associations := pcf.associations.erase policyId })

def PcfState.createAppSession (pcf : PcfState) (req : AppSessionContextReqData) (scan : List String)
    (udr : UdrAnswers) : Task × PcfState :=
  match req.influence with
  | some inf =>
      let id := toString pcf.nextId
      let answer := Answer.created s!"/npcf-policyauthorization/v1/app-sessions/{id}" none
      (pcf.notifySmf scan inf.supi inf.dnn udr answer,
        { pcf with nextId := pcf.nextId + 1, influences := pcf.influences.insert id inf })
  | none => (.returned (.badRequest "need supi, dnn, trafficPrefix and a routeToLocs dnai"), pcf)

def PcfState.deleteAppSession (pcf : PcfState) (appSessionId : String) (scan : List String)
    (udr : UdrAnswers) : Task × PcfState :=
  match pcf.influences.lookup appSessionId with
  | some inf =>
      (pcf.notifySmf scan inf.supi inf.dnn udr .noContent,
        { pcf with influences := pcf.influences.erase appSessionId })
  | none => (.returned .noContent, pcf)

/-- A decision is made: the association is created, or updated if it is still there. -/
def PcfState.decided (pcf : PcfState) (fresh : SmPolicyDecision) : Goal → Answer × PcfState
  | .create ctx =>
      let id := toString pcf.nextId
      (.created s!"/npcf-smpolicycontrol/v1/sm-policies/{id}" (some fresh),
        { pcf with
          nextId := pcf.nextId + 1
          associations := pcf.associations.insert id (ctx, fresh) })
  | .update policyId _ prev reply =>
      (reply.getD (.updated ((prev.diff fresh).getD {})),
        { pcf with associations := pcf.associations.modify policyId fun a => (a.1, fresh) })

def enter : Request → PcfState → Option (Task × PcfState)
  | .createSmPolicy ctx udr, pcf => some (.policyData (.create ctx) udr, pcf)
  | .updateSmPolicy policyId udr, pcf => some (pcf.updateSmPolicy policyId udr none, pcf)
  | .deleteSmPolicy policyId, pcf => some (pcf.deleteSmPolicy policyId)
  | .createAppSession req scan udr, pcf =>
      if scan.Perm pcf.associations.keys then some (pcf.createAppSession req scan udr) else none
  | .deleteAppSession appSessionId scan udr, pcf =>
      if scan.Perm pcf.associations.keys then some (pcf.deleteAppSession appSessionId scan udr)
      else none

/-- A handler goes on to its next await. -/
def act : Task → PcfState → Task × PcfState
  | .policyData goal udr, pcf =>
      let base := pcf.baseDecisionFor goal.ctx udr.policyData
      (.influenceData goal (applyInfluences pcf.influences goal.ctx base) pcf.influences udr, pcf)
  | .influenceData goal decision _ udr, pcf =>
      let fresh := pcf.applyGroupInfluences goal.ctx udr.influenceData decision
      (.returned (pcf.decided fresh goal).1, (pcf.decided fresh goal).2)
  | .notify policyId udr answer, pcf => (pcf.updateSmPolicy policyId udr (some answer), pcf)
  | .returned answer, pcf => (.returned answer, pcf)

def program : Tasks.Program PcfState Task Request where
  enter := enter
  act _ := act

end Radian.Npcf
