import Radian.Npcf.Pcf

/-!
# Traffic influence

The NEF's northbound requests: what an AF asks for, the agreement that bounds it, and what the NEF passes on.

- `AfSla`, `Config.authorizeAf`, `Config.authorizeRequest` — who asks, and whether it may.
- `steerPrefix`, `influenceId`, `influenceDoc`, `appSessionReq` — a request, translated.
- `Config.accept` — a request that is not refused, and `accept_permitted`, what is known of it.
-/

open Keyed (Map)

namespace Radian.Nef

open Npcf (RouteToLocation TrafficInfluData AppSessionContextReqData)

/-! ### Requests -/

structure FlowInfo where
  flowDescriptions : List String
  deriving DecidableEq, Repr

/-- An AF's traffic-influence subscription. -/
structure TrafficInfluSub where
  supi : Option String := none
  gpsi : Option String := none
  dnn : Option String := none
  trafficFilters : List FlowInfo := []
  trafficRoutes : List RouteToLocation := []
  trafficPrefix : Option String := none
  anyUeInd : Bool := false
  externalGroupId : Option String := none
  /-- The UEs of a group. -/
  supis : List String := []
  deriving DecidableEq, Repr

namespace TrafficInfluSub

/-- The one UE that is asked for. -/
def singleUe (sub : TrafficInfluSub) : Option String := sub.supi.or sub.gpsi

def isGroup (sub : TrafficInfluSub) : Bool := sub.anyUeInd || sub.externalGroupId.isSome

end TrafficInfluSub

/-- The destination of an IPFilterRule: what follows its first `to`, if that looks like a prefix. -/
def dstFromFlowDescription (desc : String) : Option String :=
  match (Text.splitWhitespace desc.toList).dropWhile fun word => word != "to".toList with
  | _ :: dst :: _ => if dst.contains '/' then some (String.ofList dst) else none
  | _ => none

/-- The destination prefix that is steered. -/
def steerPrefix (sub : TrafficInfluSub) : Option String :=
  sub.trafficPrefix.or
    ((sub.trafficFilters.flatMap FlowInfo.flowDescriptions).findSome? dstFromFlowDescription)

/-! ### Agreements -/

/-- What an AF is contracted for; `"*"` permits anything. -/
structure AfSla where
  dnns : List String := []
  dnais : List String := []
  /-- Prefixes of SUPIs. -/
  supis : List String := []
  allowGroup : Bool := false
  deriving DecidableEq, Repr

namespace AfSla

def permits (set : List String) (value : String) : Bool := set.contains "*" || set.contains value

def permitsDnn (sla : AfSla) : Option String → Bool
  | some dnn => permits sla.dnns dnn
  | none => sla.dnns.contains "*"

def permitsSupi (sla : AfSla) (supi : String) : Bool :=
  sla.supis.contains "*" || sla.supis.any fun p => p.toList.isPrefixOf supi.toList

/-- The UEs that a request is for. -/
def permitsUes (sla : AfSla) (sub : TrafficInfluSub) : Bool :=
  if sub.isGroup then sla.allowGroup && (sub.anyUeInd || sub.supis.all sla.permitsSupi)
  else sub.singleUe.all sla.permitsSupi

end AfSla

/-! ### Authorization -/

structure Config where
  afKeys : Option (Map String String) := none
  afSlas : Option (Map String AfSla) := none
  /-- The document that the UDR keeps under an influence id in a URL, if the URL leads to one. -/
  document : String → Option String := some

/-- Why a request is refused. -/
inductive Refusal where
  | unauthorized
  | forbidden (reason : String)
  | badRequest (text : String)
  deriving DecidableEq, Repr

namespace Config

variable (N : Config)

/-- Whether the key presented is the AF's. -/
def authorizeAf (afId : String) (presented : String) : Except Refusal Unit :=
  match N.afKeys with
  | none => .ok ()
  | some keys => if keys.lookup afId = some presented then .ok () else .error .unauthorized

/-- Whether the AF's agreement covers the request. -/
def authorizeRequest (afId : String) (sub : TrafficInfluSub) : Except Refusal Unit :=
  match N.afSlas with
  | none => .ok ()
  | some slas =>
      match slas.lookup afId with
      | none => .error (.forbidden "no SLA provisioned for this AF")
      | some sla =>
          if !sla.permitsDnn sub.dnn then .error (.forbidden "DNN not permitted")
          else if !sub.trafficRoutes.all fun route => AfSla.permits sla.dnais route.dnai then
            .error (.forbidden "DNAI not permitted")
          else if sub.isGroup then
            if !sla.allowGroup then .error (.forbidden "group / any-UE influence not permitted")
            else if !sub.anyUeInd && !sub.supis.all sla.permitsSupi then
              .error (.forbidden "group member SUPI outside scope")
            else .ok ()
          else if sub.singleUe.any fun supi => !sla.permitsSupi supi then
            .error (.forbidden "target SUPI outside scope")
          else .ok ()

/-- A request that is carried out: its prefix and its DNAI, and its UE when it is for one. -/
structure Accepted where
  trafficPrefix : String
  dnai : String
  supi : Option String
  deriving DecidableEq, Repr

def accept (afId presented : String) (sub : TrafficInfluSub) : Except Refusal Accepted := do
  N.authorizeAf afId presented
  N.authorizeRequest afId sub
  match steerPrefix sub with
  | none => .error (.badRequest "no traffic prefix (prefix or a filter destination)")
  | some trafficPrefix =>
      match sub.trafficRoutes.head? with
      | none => .error (.badRequest "no trafficRoutes[].dnai")
      | some route =>
          if sub.isGroup then .ok { trafficPrefix, dnai := route.dnai, supi := none }
          else
            match sub.singleUe with
            | none => .error (.badRequest "no UE identity (supi/gpsi/anyUeInd/group)")
            | some supi => .ok { trafficPrefix, dnai := route.dnai, supi := some supi }

end Config

/-! ### What is passed on -/

/-- The id of a group's influence, so that asking again replaces it. -/
def influenceId (sub : TrafficInfluSub) (trafficPrefix : String) : String :=
  let flat := trafficPrefix.toList.map fun c => if c ∈ ['.', '/', ':'] then '_' else c
  sub.externalGroupId.getD "any-ue" ++ "-" ++ String.ofList flat

def influenceDoc (sub : TrafficInfluSub) (trafficPrefix dnai : String) : TrafficInfluData :=
  { dnn := sub.dnn, anyUeInd := sub.anyUeInd, supis := sub.supis, routeToLocs := [⟨dnai⟩]
    trafficPrefix := some trafficPrefix }

def appSessionReq (supi : String) (dnn : Option String) (trafficPrefix dnai : String) :
    AppSessionContextReqData :=
  { supi := some supi, dnn, afRoutReq := some { routeToLocs := [⟨dnai⟩] }, trafficPrefix := some trafficPrefix }

/-! ### What is known of a request that is carried out -/

variable {N : Config} {afId presented : String} {sub : TrafficInfluSub} {plan : Config.Accepted}

theorem authorizeRequest_permits {slas : Map String AfSla} (hslas : N.afSlas = some slas)
    (h : N.authorizeRequest afId sub = .ok ()) :
    ∃ sla, slas.lookup afId = some sla ∧ sla.permitsDnn sub.dnn ∧
      (∀ route ∈ sub.trafficRoutes, AfSla.permits sla.dnais route.dnai) ∧ sla.permitsUes sub := by
  unfold Config.authorizeRequest at h
  rw [hslas] at h
  dsimp only at h
  cases hsla : slas.lookup afId with
  | none =>
    rw [hsla] at h
    cases h
  | some sla =>
    rw [hsla] at h
    dsimp only at h
    refine ⟨sla, rfl, ?_⟩
    split at h
    · cases h
    · rename_i hdnn
      split at h
      · cases h
      · rename_i hdnais
        refine ⟨by simpa using hdnn, by simpa using hdnais, ?_⟩
        unfold AfSla.permitsUes
        split at h
        · rename_i hgroup
          rw [if_pos hgroup]
          split at h
          · cases h
          · rename_i hallow
            split at h
            · cases h
            · rename_i hscope
              rw [Bool.and_eq_true, Bool.or_eq_true]
              refine ⟨by simpa using hallow, ?_⟩
              by_cases hany : sub.anyUeInd = true
              · exact .inl hany
              · exact .inr (by simpa [hany] using hscope)
        · rename_i hone
          rw [if_neg hone]
          split at h
          · cases h
          · rename_i hscope
            cases hue : sub.singleUe with
            | none => rfl
            | some supi => simpa [hue] using hscope

/-- A request that is carried out is the AF's own, and within its agreement. -/
structure Permitted (sla : AfSla) (sub : TrafficInfluSub) (plan : Config.Accepted) : Prop where
  dnn : sla.permitsDnn sub.dnn
  dnai : AfSla.permits sla.dnais plan.dnai
  ues : sla.permitsUes sub
  steered : steerPrefix sub = some plan.trafficPrefix
  group : plan.supi = none → sub.isGroup
  single : ∀ supi, plan.supi = some supi → sub.isGroup = false ∧ sub.singleUe = some supi

theorem accept_permitted {keys : Map String String} {slas : Map String AfSla} (hkeys : N.afKeys = some keys)
    (hslas : N.afSlas = some slas) (h : N.accept afId presented sub = .ok plan) :
    keys.lookup afId = some presented ∧ ∃ sla, slas.lookup afId = some sla ∧ Permitted sla sub plan := by
  simp only [Config.accept, bind, Except.bind] at h
  split at h
  · cases h
  · rename_i hkey
    split at h
    · cases h
    · rename_i hrequest
      obtain ⟨sla, hsla, hdnn, hdnais, hues⟩ := authorizeRequest_permits hslas hrequest
      have hpresented : keys.lookup afId = some presented := by
        unfold Config.authorizeAf at hkey
        rw [hkeys] at hkey
        dsimp only at hkey
        split at hkey
        · assumption
        · cases hkey
      refine ⟨hpresented, sla, hsla, ?_⟩
      split at h
      · cases h
      · rename_i hsteered
        split at h
        · cases h
        · rename_i route hroute
          have hdnai := hdnais route (List.mem_of_head? hroute)
          split at h
          · rename_i hgroup
            cases h
            exact ⟨hdnn, hdnai, hues, hsteered, fun _ => hgroup, fun _ h => nomatch h⟩
          · rename_i hone
            split at h
            · cases h
            · rename_i supi hsupi
              cases h
              refine ⟨hdnn, hdnai, hues, hsteered, (fun h => nomatch h), fun supi' h' => ?_⟩
              cases h'
              exact ⟨eq_false_of_ne_true hone, hsupi⟩

end Radian.Nef
