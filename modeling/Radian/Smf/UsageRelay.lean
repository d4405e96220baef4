import Radian.Chf.Charging
import Radian.Smf.Release

/-!
# From the UPF's URRs to the charging record

What the UPFs count, on its way through the SMF to the CHFs: reports, teardowns and calls under way, one
event for each stretch between two awaits.

- `UpSession`, `Report`, `Final` — what a URR has counted and what is handed out of it.
- `Loop`, `Teardown`, `Call` — where `handleUsageReports`, the teardowns and the calls to the CHFs stand.
- `World.step` — usage, reports, releases, refreshes, answers and what is lost of them, in any order.
- `Exact` — a session's released record holds what the UPF handed out for it.
- `Heeds` — the side condition, for one session.
-/

open Keyed (Map)

namespace Radian.Smf.Billing

open Npcf (SmPolicyDecision)
open Pfcp (Seid UsageVolume)
open Chf (Measure amount brought Fit read)

/-! ### Usage under way -/

/-- A session at a UPF: where it reports to, and what each URR has counted and not reported, under the
rating groups that the flow had then. -/
structure UpSession where
  cpSeid : Seid
  counted : Map Nat (List UsedUnitContainer) := ∅

/-- One URR's usage, as it is reported: a single volume for all that it has counted. -/
def volume (urrId : Nat) (parts : List UsedUnitContainer) : UsageVolume :=
  { urrId
    total := amount .totalVolume parts
    uplink := amount .uplinkVolume parts
    downlink := amount .downlinkVolume parts
    totalPkts := amount .totalPackets parts
    uplinkPkts := amount .uplinkPackets parts
    downlinkPkts := amount .downlinkPackets parts }

/-- A threshold report.  `parts` is what the volume is made of, which it does not say. -/
structure Report where
  cpSeid : Seid
  urrId : Nat
  parts : List UsedUnitContainer

/-- The usage in the answer to a deletion, by URR. -/
abbrev Final : Type := List (Nat × List UsedUnitContainer)

def Final.usages (f : Final) : List UsageVolume := f.map fun u => volume u.1 u.2

def Final.parts (f : Final) : List UsedUnitContainer := f.flatMap fun u => u.2

/-- All that a session has counted. -/
def UpSession.final (u : UpSession) : Final := u.counted.entries.map fun e => (e.1, e.2)

/-- Where the loop over the reports stands. -/
inductive Loop where
  | idle
  /-- Acknowledging a report, with its copy of the context. -/
  | acking (smRef : String) (context : SmContext) (usage : UsageVolume)
  /-- Waiting for the CHF. -/
  | updating (smRef : String) (call : Nat) (answer : Option Chf.Answer)
  /-- Inside a teardown that the CHF asked for. -/
  | stopping (task : Nat)

inductive Stage where
  /-- The anchor is asked to delete its session, and may have answered. -/
  | deleting (answer : Option Final)
  /-- The other legs' deletions. -/
  | legs (final : Final)
  /-- The SMF has given up, and its request may still arrive. -/
  | abandoned

/-- A teardown, with its copy of the context. -/
structure Teardown where
  smRef : String
  context : SmContext
  stage : Stage

/-- A request about a record on its way to the CHF. -/
structure Call where
  chfBase : String
  chargingRef : String
  /-- It closes the record, and is an update otherwise. -/
  closes : Bool
  req : ChargingDataRequest

def Call.request (c : Call) : Chf.Request :=
  if c.closes then .release c.chargingRef c.req else .update c.chargingRef c.req

def Call.usage (c : Call) : List UsedUnitContainer := c.req.usedUnitContainers

structure World where
  smf : SmfState
  upf : Map (String × Seid) UpSession := ∅
  chf : String → Chf.World
  loop : Loop := .idle
  reports : Map Nat Report := ∅
  tasks : Map Nat Teardown := ∅
  calls : Map Nat Call := ∅
  /-- Above the number of every report, teardown and call. -/
  next : Nat := 0
  /-- What the UPFs have handed out for each session. -/
  handed : Seid → List UsedUnitContainer := fun _ => []

inductive Event where
  /-- A session is established, with a record at a CHF if one is found. -/
  | establish (smRef : String) (context : SmContext) (chfBase : Option String)
  /-- Traffic of a session is counted. -/
  | count (peer : String) (seid : Seid) (usage : UsageVolume)
  /-- A flow is taken out, with what its URR has counted. -/
  | uncount (peer : String) (seid : Seid) (urrId : Nat)
  /-- A URR's usage is reported. -/
  | report (peer : String) (seid : Seid) (urrId : Nat)
  | loseReport (k : Nat)
  /-- The loop takes a report up. -/
  | take (k : Nat)
  | acked
  /-- The loop hears of its update, or gives up. -/
  | resume (heard : Bool)
  /-- The AMF asks for a release, for the first time or again. -/
  | release (smRef : String)
  /-- The anchor handles a deletion request. -/
  | delete (k : Nat)
  /-- A teardown hears of the deletion, or gives up. -/
  | deleted (k : Nat) (heard : Bool)
  | legsDeleted (k : Nat)
  /-- A request that was given up is lost. -/
  | loseDeletion (k : Nat)
  /-- The last section of a policy refresh. -/
  | refresh (smRef : String) (decision : SmPolicyDecision)
  | deliver (k : Nat)
  /-- A request is carried out, and is sent again. -/
  | deliverAgain (k : Nat)
  | loseCall (k : Nat)

def Loop.isIdle : Loop → Bool
  | .idle => true
  | _ => false

/-- A teardown that the loop waits for is over. -/
def Loop.free (k : Nat) : Loop → Loop
  | .stopping task => if task = k then .idle else .stopping task
  | loop => loop

/-- The CHF has answered a call. -/
def Loop.hear (k : Nat) (answer : Chf.Answer) : Loop → Loop
  | .updating smRef call none =>
      .updating smRef call (if call = k then some answer else none)
  | loop => loop

/-- The session is to be stopped. -/
def terminates : Chf.Answer → Bool
  | .ok response => response.finalUnitIndication.any fun f => f.finalUnitAction == "TERMINATE"
  | _ => false

namespace World

/-- The context that a report is for. -/
def contextOf (cpSeid : Seid) (w : World) : Option (String × SmContext) :=
  w.smf.contexts.find? fun c => c.cpSeid == cpSeid

/-- A new session's context, with the reference that the CHF gives it. -/
def opened (context : SmContext) (chfBase : Option String) (w : World) : SmContext :=
  { context with charging := chfBase.map fun base => (base, (w.chf base).chf.nextRef) }

def establish (smRef : String) (context : SmContext) (chfBase : Option String) (w : World) : World :=
  let c := w.opened context chfBase
  let w := { w with
    upf := w.upf.insert (c.path.anchor, c.upSeid) { cpSeid := c.cpSeid }
    smf := { w.smf with contexts := w.smf.contexts.insert smRef c } }
  match chfBase with
  | none => w
  | some base =>
      { w with chf := Function.update w.chf base ((w.chf base).step (.create
          { subscriberIdentifier := context.supi
            pduSessionChargingInformation := some (context.pduSessionId, context.dnn)
            usedUnitContainers := [] })) }

def count (peer : String) (seid : Seid) (usage : UsageVolume) (w : World) : World :=
  match w.upf.lookup (peer, seid) with
  | none => w
  | some u =>
      match w.contextOf u.cpSeid with
      | none => w
      | some (_, c) =>
          let parts := (u.counted.lookup usage.urrId).getD [] ++ [containerFor usage c.policy]
          { w with
            upf := w.upf.insert (peer, seid) { u with counted := u.counted.insert usage.urrId parts } }

def uncount (peer : String) (seid : Seid) (urrId : Nat) (w : World) : World :=
  { w with upf := w.upf.modify (peer, seid) fun u => { u with counted := u.counted.erase urrId } }

/-- What is handed out for a session, on the books. -/
def handOut (cpSeid : Seid) (parts : List UsedUnitContainer) (w : World) : World :=
  { w with handed := Function.update w.handed cpSeid (w.handed cpSeid ++ parts) }

def report (peer : String) (seid : Seid) (urrId : Nat) (w : World) : World :=
  match w.upf.lookup (peer, seid) with
  | none => w
  | some u =>
      match u.counted.lookup urrId with
      | none => w
      | some parts =>
          { w with
            upf := w.upf.insert (peer, seid) { u with counted := u.counted.erase urrId }
            reports := w.reports.insert w.next { cpSeid := u.cpSeid, urrId, parts }
            next := w.next + 1 }.handOut u.cpSeid parts

def take (k : Nat) (w : World) : World :=
  match w.loop with
  | .idle =>
      match w.reports.lookup k with
      | none => w
      | some r =>
          let w := { w with reports := w.reports.erase k }
          match w.contextOf r.cpSeid with
          -- a report for an unknown session is dropped
          | none => w
          | some (smRef, c) => { w with loop := .acking smRef c (volume r.urrId r.parts) }
  | _ => w

/-- A request is sent to a CHF. -/
def send (c : Call) (w : World) : World :=
  { w with calls := w.calls.insert w.next c, next := w.next + 1 }

/-- The update for a report. -/
def updateFor (c : SmContext) (usage : UsageVolume) : ChargingDataRequest :=
  { subscriberIdentifier := c.supi
    pduSessionChargingInformation := none
    usedUnitContainers := [containerFor usage c.policy] }

def acked (w : World) : World :=
  match w.loop with
  | .acking smRef c usage =>
      match c.charging with
      | none => { w with loop := .idle }
      | some (chfBase, chargingRef) =>
          { w with loop := .updating smRef w.next none }.send
            { chfBase, chargingRef, closes := false, req := updateFor c usage }
  | _ => w

/-- The first section of a teardown. -/
def teardown (smRef : String) (w : World) : World :=
  match w.smf.contexts.lookup smRef with
  | none => w
  | some c =>
      { w with
        tasks := w.tasks.insert w.next { smRef, context := c, stage := .deleting none }
        next := w.next + 1 }

def resume (heard : Bool) (w : World) : World :=
  match w.loop with
  | .updating smRef _ answer =>
      match heard, answer with
      | false, _ => { w with loop := .idle }
      | true, none => w
      | true, some answer =>
          if terminates answer ∧ (w.smf.contexts.lookup smRef).isSome then
            { w with loop := .stopping w.next }.teardown smRef
          else { w with loop := .idle }
  | _ => w

/-- The anchor drops the session and answers with what it has counted, or does not know the session. -/
def deletion (c : SmContext) (w : World) : Final × World :=
  let key := (c.path.anchor, c.upSeid)
  match w.upf.lookup key with
  | none => ([], w)
  | some u => (u.final, { w with upf := w.upf.erase key }.handOut u.cpSeid u.final.parts)

def delete (k : Nat) (w : World) : World :=
  match w.tasks.lookup k with
  | none => w
  | some t =>
      match t.stage with
      | .deleting none =>
          let (final, w) := w.deletion t.context
          { w with tasks := w.tasks.insert k { t with stage := .deleting (some final) } }
      | .abandoned =>
          let (_, w) := w.deletion t.context
          { w with tasks := w.tasks.erase k }
      | _ => w

/-- A teardown is over. -/
def ended (k : Nat) (w : World) : World := { w with tasks := w.tasks.erase k, loop := w.loop.free k }

/-- Start a spawned job; the others bring no usage anywhere. -/
def spawn (w : World) : Job → World
  | .chargingRelease chfBase chargingRef req => w.send { chfBase, chargingRef, closes := true, req }
  | _ => w

/-- The last section of a teardown. -/
def finish (k : Nat) (t : Teardown) (final : Final) (w : World) : World :=
  let w := (t.context.chargingRelease final.usages).foldl spawn w
  { w with
    smf := reclaim t.context { w.smf with contexts := w.smf.contexts.erase t.smRef } }.ended k

/-- Whether there are other legs to delete. -/
def hasLegs (c : SmContext) : Bool := c.chain.isSome && c.path.intermediate.isSome

def deleted (k : Nat) (heard : Bool) (w : World) : World :=
  match w.tasks.lookup k with
  | none => w
  | some t =>
      match t.stage, heard with
      | .deleting none, false =>
          { w with
            tasks := w.tasks.insert k { t with stage := .abandoned }, loop := w.loop.free k }
      | .deleting (some _), false => w.ended k
      | .deleting (some final), true =>
          if hasLegs t.context then
            { w with tasks := w.tasks.insert k { t with stage := .legs final } }
          else w.finish k t final
      | _, _ => w

def legsDeleted (k : Nat) (w : World) : World :=
  match w.tasks.lookup k with
  | none => w
  | some t =>
      match t.stage with
      | .legs final => w.finish k t final
      | _ => w

def loseDeletion (k : Nat) (w : World) : World :=
  match w.tasks.lookup k with
  | none => w
  | some t =>
      match t.stage with
      | .abandoned => { w with tasks := w.tasks.erase k }
      | _ => w

/-- A CHF carries a request out. -/
def carryOut (c : Call) (w : World) : World :=
  { w with chf := Function.update w.chf c.chfBase ((w.chf c.chfBase).step c.request) }

def deliver (k : Nat) (w : World) : World :=
  match w.calls.lookup k with
  | none => w
  | some c =>
      { w with
        calls := w.calls.erase k
        loop := w.loop.hear k ((w.chf c.chfBase).chf.handle c.request).1 }.carryOut c

def deliverAgain (k : Nat) (w : World) : World :=
  match w.calls.lookup k with
  | none => w
  | some c => w.carryOut c

def step (w : World) : Event → World
  | .establish smRef context chfBase => w.establish smRef context chfBase
  | .count peer seid usage => w.count peer seid usage
  | .uncount peer seid urrId => w.uncount peer seid urrId
  | .report peer seid urrId => w.report peer seid urrId
  | .loseReport k => { w with reports := w.reports.erase k }
  | .take k => w.take k
  | .acked => w.acked
  | .resume heard => w.resume heard
  | .release smRef => w.teardown smRef
  | .delete k => w.delete k
  | .deleted k heard => w.deleted k heard
  | .legsDeleted k => w.legsDeleted k
  | .loseDeletion k => w.loseDeletion k
  | .refresh smRef decision => { w with smf := storeDecision smRef decision w.smf }
  | .deliver k => w.deliver k
  | .deliverAgain k => w.deliverAgain k
  | .loseCall k => { w with calls := w.calls.erase k }

end World

/-! ### One charged session -/

/-- A charged session, by what the AMF, the anchor and the CHF know it under. -/
structure Charged where
  smRef : String
  cpSeid : Seid
  anchor : String
  upSeid : Seid
  chfBase : String
  chargingRef : String

namespace Charged

variable (σ : Charged)

/-- A context of the session. -/
def Is (smRef : String) (c : SmContext) : Prop :=
  smRef = σ.smRef ∧ c.cpSeid = σ.cpSeid ∧ (c.path.anchor, c.upSeid) = (σ.anchor, σ.upSeid) ∧
    c.charging = some (σ.chfBase, σ.chargingRef)

/-- A context that shares nothing with the session. -/
def Apart (smRef : String) (c : SmContext) : Prop :=
  smRef ≠ σ.smRef ∧ c.cpSeid ≠ σ.cpSeid ∧ (c.path.anchor, c.upSeid) ≠ (σ.anchor, σ.upSeid) ∧
    c.charging ≠ some (σ.chfBase, σ.chargingRef)

instance (smRef : String) (c : SmContext) : Decidable (σ.Is smRef c) := by
  unfold Is
  infer_instance

instance (smRef : String) (c : SmContext) : Decidable (σ.Apart smRef c) := by
  unfold Apart
  infer_instance

end Charged

/-- The session that is established so. -/
def World.session (smRef : String) (context : SmContext) (chfBase : String) (w : World) : Charged :=
  { smRef
    cpSeid := context.cpSeid
    anchor := context.path.anchor
    upSeid := context.upSeid
    chfBase
    chargingRef := (w.chf chfBase).chf.nextRef }

/-- A request for the session's record. -/
def Call.For (c : Call) (σ : Charged) : Prop := c.chfBase = σ.chfBase ∧ c.chargingRef = σ.chargingRef

instance (c : Call) (σ : Charged) : Decidable (c.For σ) := by
  unfold Call.For
  infer_instance

/-- A final report's shares, under their URRs. -/
def Teardown.holding (t : Teardown) : Final :=
  match t.stage with
  | .deleting (some final) | .legs final => final
  | _ => []

namespace World

/-- The session's record is closed. -/
def closed (σ : Charged) (w : World) : Bool :=
  ((w.chf σ.chfBase).chf.cdrs.lookup σ.chargingRef).any fun cdr => cdr.released

/-- Nothing here has to do with the session. -/
structure Unknown (σ : Charged) (w : World) : Prop where
  contexts : ∀ r c, w.smf.contexts.lookup r = some c → σ.Apart r c
  upf : ∀ p u, w.upf.lookup p = some u → p ≠ (σ.anchor, σ.upSeid) ∧ u.cpSeid ≠ σ.cpSeid
  loop : ∀ r c usage, w.loop = .acking r c usage → σ.Apart r c
  reports : ∀ k r, w.reports.lookup k = some r → k < w.next ∧ r.cpSeid ≠ σ.cpSeid
  tasks : ∀ k t, w.tasks.lookup k = some t → k < w.next ∧ σ.Apart t.smRef t.context
  calls : ∀ k c, w.calls.lookup k = some c → k < w.next ∧ ¬ c.For σ
  handed : w.handed σ.cpSeid = []
  books : (w.chf σ.chfBase).Books

/-- The session is torn down, and nothing of it is under way. -/
structure Settled (σ : Charged) (w : World) : Prop where
  context : w.smf.contexts.lookup σ.smRef = none
  loop : ∀ r c usage, w.loop = .acking r c usage → r ≠ σ.smRef
  reports : ∀ k r, w.reports.lookup k = some r → r.cpSeid ≠ σ.cpSeid
  tasks : ∀ k t, w.tasks.lookup k = some t → t.smRef ≠ σ.smRef
  calls : ∀ k c, w.calls.lookup k = some c → ¬ c.For σ

/-- The session's record is released, and counts for each rating group what the UPF handed out for it
under that rating group. -/
def Exact (σ : Charged) (w : World) : Prop :=
  ∃ cdr, (w.chf σ.chfBase).chf.cdrs.lookup σ.chargingRef = some cdr ∧ cdr.released = true ∧
    ∀ g m, (cdr.usage.lookup g).elim 0 (read m) = amount m (brought g (w.handed σ.cpSeid))

end World

/-- Containers that count nothing. -/
def Blank (parts : List UsedUnitContainer) : Prop := ∀ c ∈ parts, ∀ m ∈ Measure.all, read m c = 0

instance (parts : List UsedUnitContainer) : Decidable (Blank parts) := by
  unfold Blank
  infer_instance

/-- What a URR has counted was counted under the rating group that it is now charged under. -/
def Attributed (policy : SmPolicyDecision) (urrId : Nat) (parts : List UsedUnitContainer) : Prop :=
  ∀ c ∈ parts, (∀ m ∈ Measure.all, read m c = 0) ∨
    c.ratingGroup = (containerFor (volume urrId parts) policy).ratingGroup

instance (policy : SmPolicyDecision) (urrId : Nat) (parts : List UsedUnitContainer) :
    Decidable (Attributed policy urrId parts) := by
  unfold Attributed
  infer_instance

/-- What a teardown relays at its end. -/
def Relays (t : Teardown) (final : Final) : Prop :=
  ∀ u ∈ final, Attributed t.context.policy u.1 u.2

instance (t : Teardown) (final : Final) : Decidable (Relays t final) := by
  unfold Relays
  infer_instance

/-- A report comes to the loop while its context is there. -/
def InTime (r : Report) : Option SmContext → Prop
  | some c => Attributed c.policy r.urrId r.parts
  | none => Blank r.parts

instance (r : Report) (context : Option SmContext) : Decidable (InTime r context) := by
  unfold InTime
  split <;> infer_instance

/-- A deletion comes to the anchor while a teardown waits for the answer. -/
def Awaited (handed : List UsedUnitContainer) (final : Final) : Stage → Prop
  | .deleting none => Fit (handed ++ final.parts)
  | .abandoned => Blank final.parts
  | _ => True

instance (handed : List UsedUnitContainer) (final : Final) (stage : Stage) :
    Decidable (Awaited handed final stage) := by
  unfold Awaited
  split <;> infer_instance

/-- A teardown hears of the deletion that was answered. -/
def Hears (t : Teardown) (heard : Bool) : Prop :=
  match t.stage, heard with
  | .deleting (some final), false => Blank final.parts
  | .deleting (some final), true => World.hasLegs t.context = true ∨ Relays t final
  | _, _ => True

instance (t : Teardown) (heard : Bool) : Decidable (Hears t heard) := by
  unfold Hears
  split <;> infer_instance

/-- A teardown charges what it was answered as it was counted. -/
def Charges (t : Teardown) : Prop :=
  match t.stage with
  | .legs final => Relays t final
  | _ => True

instance (t : Teardown) : Decidable (Charges t) := by
  unfold Charges
  split <;> infer_instance

/-- No usage of the session is lost, comes twice or comes late: reports reach the loop while the context is
there, the anchor's answer reaches a teardown that still waits, and each request is carried out once, an
update while the record is open.  What is relayed is charged under the rating group it was counted under, the
sums fit, and no other session is given the same references. -/
def Heeds (σ : Charged) (w : World) : Event → Prop
  | .establish smRef context chfBase => σ.Apart smRef (w.opened context chfBase)
  | .report peer seid urrId => ∀ u ∈ w.upf.lookup (peer, seid), u.cpSeid = σ.cpSeid →
      ∀ parts ∈ u.counted.lookup urrId, Fit (w.handed σ.cpSeid ++ parts)
  | .loseReport k => ∀ r ∈ w.reports.lookup k, r.cpSeid = σ.cpSeid → Blank r.parts
  | .take k => w.loop.isIdle = true → ∀ r ∈ w.reports.lookup k, r.cpSeid = σ.cpSeid →
      InTime r (w.smf.contexts.lookup σ.smRef)
  | .delete k => ∀ t ∈ w.tasks.lookup k, t.smRef = σ.smRef →
      ∀ u ∈ w.upf.lookup (σ.anchor, σ.upSeid), Awaited (w.handed σ.cpSeid) u.final t.stage
  | .deleted k heard => ∀ t ∈ w.tasks.lookup k, t.smRef = σ.smRef → Hears t heard
  | .legsDeleted k => ∀ t ∈ w.tasks.lookup k, t.smRef = σ.smRef → Charges t
  | .deliver k => ∀ c ∈ w.calls.lookup k, c.For σ → c.closes = false → w.closed σ = true →
      Blank c.usage
  | .deliverAgain k => ∀ c ∈ w.calls.lookup k, c.For σ →
      (c.closes = false → w.closed σ = false) → Blank c.usage
  | .loseCall k => ∀ c ∈ w.calls.lookup k, c.For σ → Blank c.usage ∧
      (c.closes = true → w.closed σ = true ∨
        (Map.find? (fun c => c.closes && decide (c.For σ)) (w.calls.erase k)).isSome = true)
  | _ => True

instance (σ : Charged) (w : World) (e : Event) : Decidable (Heeds σ w e) := by
  cases e <;> unfold Heeds <;> infer_instance

end Radian.Smf.Billing
