import Radian.Nef.TrafficInfluence
import Mathlib.Logic.Function.Basic

/-!
# Whose influence it is

The NEF's subscriptions against what stands at the PCF, at the SMF and in the UDR on their account.

- `World`, `Event`, `World.step` — requests of AFs to create and delete, and what goes on at the SMF besides.
- `Allowed`, `Folded` — what stands, and what a PCF makes of it, was asked for by an AF whose agreement permits it.
- `Confined` — a request touches no influence but its own AF's, a delete none but its subscription's.
- `Separate` — one document is not for two targets.
- `Heeds` — the side condition.
-/

open Keyed (Map)

namespace Radian.Nef

open Npcf (AfInfluence TrafficInfluData PcfState UdrAnswers)

/-! ### The system -/

/-- How a subscription was applied, and is withdrawn. -/
inductive Applied where
  | pcf (appSession : String)
  | smf
  | udr (influenceId : String)
  deriving DecidableEq, Repr

structure Subscription where
  afId : String
  supi : String
  dnn : Option String
  applied : Applied
  deriving DecidableEq, Repr

/-- A session at the SMF, with the prefix and the DNAI of its breakout. -/
structure SmfSession where
  supi : String
  dnn : String
  breakout : Option (String × String) := none
  deriving DecidableEq, Repr

/-- Where an influence stands. -/
inductive Place where
  | pcf (appSession : String)
  | udr (document : String)
  | smf (smRef : String)
  deriving DecidableEq, Repr

/-- Whose request an influence comes from, and its subscription where there is one. -/
structure Made where
  afId : String
  sub : TrafficInfluSub
  subId : Option String
  deriving DecidableEq, Repr

/-- What becomes of a request to another network function. -/
inductive Reach where
  /-- None is discovered. -/
  | absent
  /-- It is refused, or does not arrive. -/
  | failed
  /-- It is carried out, and the answer is lost. -/
  | unanswered
  | answered
  deriving DecidableEq, Repr

def Reach.done : Reach → Bool
  | .unanswered | .answered => true
  | .absent | .failed => false

structure World where
  nextId : UInt64 := 1
  subs : Map String Subscription := ∅
  pcf : PcfState
  udr : Map String TrafficInfluData := ∅
  smf : Map String SmfSession := ∅
  made : Place → Option Made := fun _ => none
  /-- What each subscription asked for, which the NEF does not keep. -/
  asked : String → Option TrafficInfluSub := fun _ => none

inductive Event where
  /-- `found` is the session that the SMF would come upon. -/
  | create (afId presented : String) (sub : TrafficInfluSub) (pcf udr smf : Reach) (found : Option String)
  | delete (afId presented subId : String) (pcf udr smf : Reach) (found : Option String)
  /-- The PCF gives an id to a policy association. -/
  | smPolicy
  | establish (smRef supi dnn : String)
  | release (smRef : String)
  /-- A breakout by policy or by an operator, on a session that has none from an AF. -/
  | breakout (smRef : String) (route : Option (String × String))

namespace World

variable (N : Config)

/-- The id of the next subscription. -/
def newSubId (w : World) : String := s!"sub-{w.nextId}"

/-- What the PCF announces is no matter here. -/
def silent : UdrAnswers := { policyData := .error "", influenceData := .error "" }

/-- An influence has been applied; it is recorded if the NEF hears of it. -/
def record (afId : String) (sub : TrafficInfluSub) (applied : Applied) (place : Place) (reach : Reach)
    (w : World) : World :=
  match reach with
  | .answered =>
      { w with
        made := Function.update w.made place (some { afId, sub, subId := some w.newSubId })
        subs := w.subs.insert w.newSubId
          { afId, supi := sub.singleUe.getD "", dnn := sub.dnn, applied }
        asked := Function.update w.asked w.newSubId (some sub)
        nextId := w.nextId + 1 }
  | _ => { w with made := Function.update w.made place (some { afId, sub, subId := none }) }

/-- `store_group_influence` -/
def createGroup (afId : String) (sub : TrafficInfluSub) (plan : Config.Accepted) (reach : Reach)
    (w : World) : World :=
  let id := influenceId sub plan.trafficPrefix
  if reach.done then
    match N.document id with
    | none => w
    | some doc =>
        { w with udr := w.udr.insert doc (influenceDoc sub plan.trafficPrefix plan.dnai) }.record afId sub
          (.udr id) (.udr doc) reach
  else w

/-- `authorize_at_pcf` -/
def createAtPcf (afId : String) (sub : TrafficInfluSub) (plan : Config.Accepted) (supi : String)
    (reach : Reach) (w : World) : World :=
  let req := appSessionReq supi sub.dnn plan.trafficPrefix plan.dnai
  if reach.done ∧ req.influence.isSome then
    let id := toString w.pcf.nextId
    { w with pcf := (w.pcf.createAppSession req [] silent).2 }.record afId sub (.pcf id) (.pcf id) reach
  else w

/-- The session found, if it is one of the UE on the DNN. -/
def session (supi : String) (dnn : Option String) (found : Option String) (w : World) :
    Option (String × SmfSession) := do
  let smRef ← found
  let s ← w.smf.lookup smRef
  if s.supi = supi ∧ dnn = some s.dnn then some (smRef, s) else none

/-- `steer_at_smf`; a session that has a breakout gets no other. -/
def createAtSmf (afId : String) (sub : TrafficInfluSub) (plan : Config.Accepted) (supi : String)
    (reach : Reach) (found : Option String) (w : World) : World :=
  match w.session supi sub.dnn found with
  | none => w
  | some (smRef, s) =>
      if reach.done ∧ s.breakout = none then
        { w with smf := w.smf.insert smRef { s with breakout := some (plan.trafficPrefix, plan.dnai) } }.record
          afId sub .smf (.smf smRef) reach
      else w

def create (afId presented : String) (sub : TrafficInfluSub) (pcf udr smf : Reach) (found : Option String)
    (w : World) : World :=
  match N.accept afId presented sub with
  | .error _ => w
  | .ok plan =>
      match plan.supi with
      | none => w.createGroup N afId sub plan udr
      | some supi =>
          match pcf with
          | .absent => w.createAtSmf afId sub plan supi smf found
          | _ => w.createAtPcf afId sub plan supi pcf

/-- What the subscription applied is withdrawn, the way it was applied. -/
def withdraw (s : Subscription) (pcf udr smf : Reach) (found : Option String) (w : World) : World :=
  match s.applied with
  | .pcf id =>
      if pcf.done then
        { w with
          pcf := (w.pcf.deleteAppSession id [] silent).2
          made := Function.update w.made (.pcf id) none }
      else w
  | .udr id =>
      match N.document id with
      | none => w
      | some doc =>
          if udr.done then
            { w with udr := w.udr.erase doc, made := Function.update w.made (.udr doc) none }
          else w
  | .smf =>
      match w.session s.supi s.dnn found with
      | none => w
      | some (smRef, session) =>
          if smf.done then
            { w with
              smf := w.smf.insert smRef { session with breakout := none }
              made := Function.update w.made (.smf smRef) none }
          else w

/-- The subscription, when it is the AF's. -/
def owned (subId afId : String) (w : World) : Option Subscription :=
  (w.subs.lookup subId).filter fun s => s.afId == afId

def delete (afId presented subId : String) (pcf udr smf : Reach) (found : Option String) (w : World) : World :=
  match N.authorizeAf afId presented with
  | .error _ => w
  | .ok () =>
      match w.owned subId afId with
      | none => w
      | some s => { w with subs := w.subs.erase subId }.withdraw N s pcf udr smf found

def step (w : World) : Event → World
  | .create afId presented sub pcf udr smf found => w.create N afId presented sub pcf udr smf found
  | .delete afId presented subId pcf udr smf found => w.delete N afId presented subId pcf udr smf found
  | .smPolicy => { w with pcf := { w.pcf with nextId := w.pcf.nextId + 1 } }
  | .establish smRef supi dnn =>
      if (w.smf.lookup smRef).isSome then w else { w with smf := w.smf.insert smRef { supi, dnn } }
  | .release smRef =>
      { w with smf := w.smf.erase smRef, made := Function.update w.made (.smf smRef) none }
  | .breakout smRef route =>
      match w.made (.smf smRef) with
      | some _ => w
      | none => { w with smf := w.smf.modify smRef fun s => { s with breakout := route } }

/-- No AF has asked for anything, and no session has a breakout. -/
structure Started (w : World) : Prop where
  subs : w.subs = ∅
  influences : w.pcf.influences = ∅
  udr : w.udr = ∅
  made : ∀ p, w.made p = none

/-! ### What is to hold -/

/-- What stands in a place: an influence on a session, a document, or a session's breakout. -/
inductive Content where
  | session (inf : AfInfluence)
  | document (data : TrafficInfluData)
  | breakout (supi dnn trafficPrefix dnai : String)
  deriving DecidableEq

def content (w : World) : Place → Option Content
  | .pcf id => (w.pcf.influences.lookup id).map .session
  | .udr doc => (w.udr.lookup doc).map .document
  | .smf smRef => do
      let s ← w.smf.lookup smRef
      let route ← s.breakout
      return .breakout s.supi s.dnn route.1 route.2

end World

/-- The agreement permits the DNN, the DNAI and the UEs of what stands. -/
def AfSla.Covers (sla : AfSla) : World.Content → Prop
  | .session inf => sla.permitsDnn (some inf.dnn) ∧ permits sla.dnais inf.dnai ∧ sla.permitsSupi inf.supi
  | .document data => sla.permitsDnn data.dnn ∧ (∀ loc ∈ data.routeToLocs, permits sla.dnais loc.dnai) ∧
      sla.allowGroup ∧ (data.anyUeInd ∨ ∀ supi ∈ data.supis, sla.permitsSupi supi)
  | .breakout supi dnn _ dnai => sla.permitsDnn (some dnn) ∧ permits sla.dnais dnai ∧ sla.permitsSupi supi

/-- What a group's influence is for. -/
def target (sub : TrafficInfluSub) : Bool × Option String × Option String × Option String :=
  (sub.anyUeInd, sub.externalGroupId, sub.dnn, steerPrefix sub)

/-- What stands was asked for by an AF whose agreement permits it, but for breakouts by policy or by an
operator. -/
structure Allowed (slas : Map String AfSla) (w : World) : Prop where
  asked : ∀ p, w.content p ≠ none → w.made p = none → ∃ smRef, p = .smf smRef
  permitted : ∀ p c m, w.content p = some c → w.made p = some m →
    ∃ sla, slas.lookup m.afId = some sla ∧ sla.Covers c

/-- What a PCF folds into a session's policy, of the documents, is within the agreement too. -/
def Folded (slas : Map String AfSla) (w : World) : Prop :=
  ∀ doc data ctx tc, w.udr.lookup doc = some data → Npcf.groupControl ctx (some data) = some tc →
    ∃ m sla, w.made (.udr doc) = some m ∧ slas.lookup m.afId = some sla ∧ sla.permitsDnn (some ctx.dnn) ∧
      (∀ loc ∈ tc.routeToLocs, AfSla.permits sla.dnais loc.dnai) ∧
        sla.allowGroup ∧ (data.anyUeInd ∨ sla.permitsSupi ctx.supi)

/-- What stands in the place stays as it is. -/
def Unharmed (w w' : World) (p : Place) : Prop := w'.content p = w.content p ∧ w'.made p = w.made p

/-- A request to create touches nothing but what the same AF has asked for the same target; a delete nothing
but what its own subscription has applied, and that goes. -/
def Confined (N : Config) (w : World) : Event → Prop
  | .create afId presented sub pcf udr smf found =>
      ∀ p, w.content p ≠ none →
        Unharmed w (w.create N afId presented sub pcf udr smf found) p ∨
          ∃ m, w.made p = some m ∧ m.afId = afId ∧ target m.sub = target sub
  | .delete afId presented subId pcf udr smf found =>
      (∀ p, w.content p ≠ none →
        Unharmed w (w.delete N afId presented subId pcf udr smf found) p ∨
          ∃ m, w.made p = some m ∧ m.afId = afId ∧ m.subId = some subId) ∧
        (N.authorizeAf afId presented = .ok () → w.owned subId afId ≠ none →
          ∀ p m, w.made p = some m → m.subId = some subId →
            (w.delete N afId presented subId pcf udr smf found).content p = none)
  | _ => True

/-- Two subscriptions that are stored in one document are for one target. -/
def Separate (N : Config) (w : World) : Prop :=
  ∀ i j s t, w.subs.lookup i = some s → w.subs.lookup j = some t →
    ∀ id id' doc, s.applied = .udr id → t.applied = .udr id' → N.document id = some doc →
      N.document id' = some doc → (w.asked i).map target = (w.asked j).map target

/-- A delete is carried out where the subscription was applied; the document is the one that the subscription
stored, and the session the one that it steers, if they are still there. -/
def Withdraws (N : Config) (w : World) (subId : String) (s : Subscription) (pcf udr smf : Reach)
    (found : Option String) : Prop :=
  match s.applied with
  | .pcf _ => pcf.done
  | .udr id => udr.done ∧ ∀ doc, N.document id = some doc → ∀ m, w.made (.udr doc) = some m →
      m.subId = some subId
  | .smf => smf.done ∧
      (∀ smRef m, w.made (.smf smRef) = some m → m.subId = some subId → found = some smRef) ∧
        ∀ smRef, found = some smRef → w.content (.smf smRef) ≠ none →
          ∃ m, w.made (.smf smRef) = some m ∧ m.subId = some subId

/-- A group's influence goes to a document that nothing else uses, or only what the same AF asks for the same
target, and a delete withdraws what its subscription applied.  The ids that are given are not in use. -/
def Heeds (N : Config) (w : World) : Event → Prop
  | .create afId presented sub pcf _ _ _ => ∀ plan, N.accept afId presented sub = .ok plan →
      (w.subs.lookup w.newSubId = none ∧ ∀ p m, w.made p = some m → m.subId ≠ some w.newSubId) ∧
        match plan.supi with
        | none => ∀ doc, N.document (influenceId sub plan.trafficPrefix) = some doc →
            (∀ m, w.made (.udr doc) = some m → m.afId = afId ∧ target m.sub = target sub) ∧
              ∀ i s id, w.subs.lookup i = some s → s.applied = .udr id → N.document id = some doc →
                (w.asked i).map target = some (target sub)
        | some _ => pcf ≠ .absent → w.pcf.influences.lookup (toString w.pcf.nextId) = none
  | .delete afId presented subId pcf udr smf found => N.authorizeAf afId presented = .ok () →
      ∀ s, w.owned subId afId = some s → Withdraws N w subId s pcf udr smf found
  | _ => True

/-! ### What changes -/

namespace World

variable {w : World} {N : Config} {afId : String} {sub : TrafficInfluSub} {applied : Applied} {place q : Place}
variable {reach : Reach}

/-- The subscription of what has just been applied. -/
def recordedId (w : World) : Reach → Option String
  | .answered => some w.newSubId
  | _ => none

@[simp] theorem content_record : (w.record afId sub applied place reach).content = w.content := by
  cases reach <;> rfl

@[simp] theorem smf_record : (w.record afId sub applied place reach).smf = w.smf := by
  cases reach <;> rfl

theorem made_record : (w.record afId sub applied place reach).made =
    Function.update w.made place (some { afId, sub, subId := w.recordedId reach }) := by
  cases reach <;> rfl

theorem lookup_record {i : String} {s : Subscription}
    (h : (w.record afId sub applied place reach).subs.lookup i = some s) :
    (i = w.newSubId ∧ w.recordedId reach = some i ∧
        s = { afId, supi := sub.singleUe.getD "", dnn := sub.dnn, applied } ∧
        (w.record afId sub applied place reach).asked i = some sub) ∨
      (w.subs.lookup i = some s ∧
        (i ≠ w.newSubId → (w.record afId sub applied place reach).asked i = w.asked i)) := by
  cases reach with
  | answered =>
    simp only [record, Keyed.Map.lookup_insert_eq] at h
    split at h
    · rename_i hi
      refine .inl ⟨hi, congrArg some hi.symm, (Option.some_inj.mp h).symm, ?_⟩
      rw [hi]
      exact Function.update_self ..
    · exact .inr ⟨h, fun hi => Function.update_of_ne hi ..⟩
  | absent => exact .inr ⟨h, fun _ => rfl⟩
  | failed => exact .inr ⟨h, fun _ => rfl⟩
  | unanswered => exact .inr ⟨h, fun _ => rfl⟩

theorem content_udr_insert (doc : String) (data : TrafficInfluData) (q : Place) :
    World.content { w with udr := w.udr.insert doc data } q =
      if q = .udr doc then some (.document data) else w.content q := by
  cases q with
  | udr d =>
    simp only [content, Keyed.Map.lookup_insert_eq, Place.udr.injEq]
    split <;> rfl
  | pcf id => rfl
  | smf smRef => rfl

theorem content_udr_erase (doc : String) (q : Place) :
    World.content { w with udr := w.udr.erase doc } q = if q = .udr doc then none else w.content q := by
  cases q with
  | udr d =>
    simp only [content, Keyed.Map.lookup_erase_eq, Place.udr.injEq]
    split <;> rfl
  | pcf id => rfl
  | smf smRef => rfl

theorem content_createAppSession {req : Npcf.AppSessionContextReqData} {inf : AfInfluence}
    (hinf : req.influence = some inf) (q : Place) :
    World.content { w with pcf := (w.pcf.createAppSession req [] silent).2 } q =
      if q = .pcf (toString w.pcf.nextId) then some (.session inf) else w.content q := by
  unfold PcfState.createAppSession
  rw [hinf]
  cases q with
  | pcf id =>
    simp only [content, Keyed.Map.lookup_insert_eq, Place.pcf.injEq]
    split <;> rfl
  | udr doc => rfl
  | smf smRef => rfl

theorem content_deleteAppSession (id : String) (q : Place) :
    World.content { w with pcf := (w.pcf.deleteAppSession id [] silent).2 } q =
      if q = .pcf id then none else w.content q := by
  unfold PcfState.deleteAppSession
  cases hinf : w.pcf.influences.lookup id with
  | none =>
    dsimp only
    split
    · rename_i hq
      rw [hq, content, hinf]
      rfl
    · rfl
  | some inf =>
    cases q with
    | pcf id' =>
      simp only [content, Keyed.Map.lookup_erase_eq, Place.pcf.injEq]
      split <;> rfl
    | udr doc => rfl
    | smf smRef => rfl

theorem content_smf_insert (smRef : String) (s : SmfSession) (q : Place) :
    World.content { w with smf := w.smf.insert smRef s } q =
      if q = .smf smRef then s.breakout.map fun route => .breakout s.supi s.dnn route.1 route.2
      else w.content q := by
  cases q with
  | smf r =>
    simp only [content, Keyed.Map.lookup_insert_eq, Place.smf.injEq]
    split
    · cases hroute : s.breakout <;> simp [hroute]
    · rfl
  | pcf id => rfl
  | udr doc => rfl

theorem session_eq_some {supi : String} {dnn found : Option String} {e : String × SmfSession}
    (h : w.session supi dnn found = some e) :
    found = some e.1 ∧ w.smf.lookup e.1 = some e.2 ∧ e.2.supi = supi ∧ dnn = some e.2.dnn := by
  simp only [session, Option.bind_eq_bind, Option.bind_eq_some_iff] at h
  obtain ⟨smRef, hfound, s, hs, h⟩ := h
  split at h
  · rename_i hsame
    cases h
    exact ⟨hfound, hs, hsame⟩
  · cases h

end World

end Radian.Nef
