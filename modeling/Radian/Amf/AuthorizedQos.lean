import Radian.Amf.AmPolicy
import Radian.Nas.Bitrate
import Radian.Smf.Create

/-!
# Authorized QoS and its three enforcers

A policy decision reaches the UPF in PFCP rules, the gNB in NGAP flows and the UE in 5GSM
parameters.  The SMF parses its rates once and the AMF twice, and the AMF's two readings do not take
the same strings.

- `smContextCreated`, `pduModify` — the decision as JSON, on the way from the SMF to the AMF.
- `parseQosFlows`, `parseAmbr`, `modifyPolicy` — what the AMF reads of it.
- `Agreement` — the three enforcers hold the same rates, as far as the UE can be told them.
- `one_rate_iff` — the decisions for which they do.
-/

namespace Radian.Amf

open Npcf (SmPolicyDecision SessionAmbrPolicy GbrPolicy QosFlowPolicy)
open Nas (QosFlowDesc GbrFlow Encodable sessionAmbrFromBitrates)

/-! ### The decision as JSON -/

structure SessionAmbrBody where
  uplink : Option String
  downlink : Option String
  deriving DecidableEq, Repr

structure GbrBody where
  gfbrDl : Option String
  gfbrUl : Option String
  mfbrDl : Option String
  mfbrUl : Option String
  deriving DecidableEq, Repr

/-- A flow, as far as the AMF reads it.  A number that is no unsigned integer is absent. -/
structure QosFlowBody where
  qfi : Option Nat
  fiveQi : Option Nat
  arpPriority : Option Nat
  preEmptCap : Option Bool
  preEmptVuln : Option Bool
  gbr : Option GbrBody
  deriving DecidableEq, Repr

/-- The authorized QoS in a body from the SMF. -/
structure QosBody where
  pduSessionId : Option Nat := none
  sessionAmbr : Option SessionAmbrBody
  qosFlows : Option (List QosFlowBody)
  releasedQfis : Option (List (Option Nat)) := none
  deriving DecidableEq, Repr

def SessionAmbrBody.ofPolicy (a : SessionAmbrPolicy) : SessionAmbrBody :=
  { uplink := some a.uplink, downlink := some a.downlink }

def GbrBody.ofPolicy (g : GbrPolicy) : GbrBody :=
  { gfbrDl := some g.gfbrDl, gfbrUl := some g.gfbrUl
    mfbrDl := some g.mfbrDl, mfbrUl := some g.mfbrUl }

def QosFlowBody.ofPolicy (f : QosFlowPolicy) : QosFlowBody :=
  { qfi := some f.qfi.toNat
    fiveQi := some f.fiveQi.toNat
    arpPriority := some f.arpPriority.toNat
    preEmptCap := some f.preEmptCap
    preEmptVuln := some f.preEmptVuln
    gbr := f.gbr.map GbrBody.ofPolicy }

/-- The answer to a CreateSMContext, where an absent AMBR and an empty list of flows are left out. -/
def smContextCreated (d : SmPolicyDecision) : QosBody :=
  { sessionAmbr := d.sessionAmbr.map SessionAmbrBody.ofPolicy
    qosFlows := if d.qosFlows.isEmpty then none else some (d.qosFlows.map QosFlowBody.ofPolicy) }

/-- The modification a session is pushed, where an absent AMBR is null. -/
def pduModify (psi : UInt8) (d : SmPolicyDecision) (releasedQfis : List UInt8) : QosBody :=
  { pduSessionId := some psi.toNat
    sessionAmbr := some ((d.sessionAmbr.map SessionAmbrBody.ofPolicy).getD ⟨none, none⟩)
    qosFlows := some (d.qosFlows.map QosFlowBody.ofPolicy)
    releasedQfis := some (releasedQfis.map fun q => some q.toNat) }

/-! ### What the AMF reads -/

/-- A number that fits an octet. -/
def asU8 (v : Option Nat) : Option UInt8 := v.bind fun n => if n < 256 then some (UInt8.ofNat n) else none

/-- The rates of a flow for the gNB. -/
def ngapGbr (g : GbrBody) : Option Gbr := do
  let gfbrDlBps ← bitrateToBps (← g.gfbrDl)
  let gfbrUlBps ← bitrateToBps (← g.gfbrUl)
  let mfbrDlBps ← bitrateToBps (← g.mfbrDl)
  let mfbrUlBps ← bitrateToBps (← g.mfbrUl)
  return { gfbrDlBps, gfbrUlBps, mfbrDlBps, mfbrUlBps }

/-- The rates of a flow for the UE. -/
def nasGbr (g : GbrBody) : Option GbrFlow := do
  let gfbr ← sessionAmbrFromBitrates (← g.gfbrUl) (← g.gfbrDl)
  let mfbr ← sessionAmbrFromBitrates (← g.mfbrUl) (← g.mfbrDl)
  return { gfbr, mfbr }

/-- A flow in its two forms; `none` without a QFI. -/
def parseQosFlow (f : QosFlowBody) : Option (QosFlow × QosFlowDesc) :=
  (asU8 f.qfi).map fun qfi =>
    let fiveQi := (asU8 f.fiveQi).getD 9
    let arpPriority := (asU8 f.arpPriority).getD 8
    let preEmptCap := f.preEmptCap.getD false
    let preEmptVuln := f.preEmptVuln.getD false
    ({ qfi, fiveQi, arpPriority, preEmptCap, preEmptVuln, gbr := f.gbr.bind ngapGbr },
      { qfi, fiveQi, gbr := f.gbr.bind nasGbr })

def parseQosFlows (body : QosBody) : List QosFlow × List QosFlowDesc :=
  match body.qosFlows with
  | none => ([], [])
  | some flows => (flows.filterMap parseQosFlow).unzip

/-- The session AMBR of the accept. -/
def parseAmbr (body : QosBody) : Nas.SessionAmbr :=
  (body.sessionAmbr.bind fun a => do
    let ul ← a.uplink
    let dl ← a.downlink
    sessionAmbrFromBitrates ul dl).getD Nas.SessionAmbr.TEN_MBPS

structure ModifyPolicy where
  amfUeId : AmfUeId
  psi : UInt8
  ambrNas : Nas.SessionAmbr
  sessionAmbrDlBps : Nat
  sessionAmbrUlBps : Nat
  ngapFlows : List QosFlow
  nasFlows : List QosFlowDesc
  releasedQfis : List UInt8
  deriving DecidableEq, Repr

/-- A modification from the SMF, for the UE whose association runs under `entry`: the command for
that association, or the status that refuses it. -/
def modifyPolicy (entry : Option AmfUeId) (body : QosBody) : Except StatusCode ModifyPolicy :=
  match asU8 body.pduSessionId with
  | none => .error .badRequest
  | some psi =>
      let ambr := body.sessionAmbr.bind fun a => do
        let ul ← a.uplink
        let dl ← a.downlink
        let ambrNas ← sessionAmbrFromBitrates ul dl
        let dlBps ← bitrateToBps dl
        let ulBps ← bitrateToBps ul
        return (ambrNas, dlBps, ulBps)
      match ambr with
      | none => .error .badRequest
      | some (ambrNas, dlBps, ulBps) =>
          let (ngapFlows, nasFlows) := parseQosFlows body
          let releasedQfis := (body.releasedQfis.getD []).filterMap asU8
          match entry with
          | none => .error .notFound
          | some amfUeId =>
              .ok { amfUeId, psi, ambrNas, sessionAmbrDlBps := dlBps, sessionAmbrUlBps := ulBps
                    ngapFlows, nasFlows, releasedQfis }

/-! ### Agreement -/

/-- The four rates of a GBR flow in bits per second. -/
def gbrBps (g : GbrPolicy) : Option Gbr := do
  let gfbrDlBps ← bitrateToBps g.gfbrDl
  let gfbrUlBps ← bitrateToBps g.gfbrUl
  let mfbrDlBps ← bitrateToBps g.mfbrDl
  let mfbrUlBps ← bitrateToBps g.mfbrUl
  return { gfbrDlBps, gfbrUlBps, mfbrDlBps, mfbrUlBps }

/-- The UE is told the rates that the gNB guarantees. -/
structure GbrTells (n1 : GbrFlow) (n2 : Gbr) : Prop where
  gfbr : n1.gfbr.Tells n2.gfbrDlBps n2.gfbrUlBps
  mfbr : n1.mfbr.Tells n2.mfbrDlBps n2.mfbrUlBps

/-- A flow of the policy at the gNB and at the UE: GBR at both where the policy says so. -/
structure FlowAgrees (f : QosFlowPolicy) (flow : QosFlow × QosFlowDesc) : Prop where
  qfi : flow.1.qfi = f.qfi ∧ flow.2.qfi = f.qfi
  fiveQi : flow.1.fiveQi = f.fiveQi ∧ flow.2.fiveQi = f.fiveQi
  n2 : flow.1.gbr = f.gbr.bind gbrBps
  n1 : ∀ g, flow.1.gbr = some g → ∃ told, flow.2.gbr = some told ∧ GbrTells told g
  nonGbr : f.gbr = none → flow.2.gbr = none

/-- What the UE is told and the gNB is given, against the decision and the rules of the UPF. -/
structure Agreement (d : SmPolicyDecision) (ambr : Nas.SessionAmbr) (ngapFlows : List QosFlow)
    (nasFlows : List QosFlowDesc) : Prop where
  ambr : ∀ a, Smf.ambrBps d = some a → ambr.Tells a.downlinkBps a.uplinkBps
  length : ngapFlows.length = nasFlows.length
  flows : List.Forall₂ FlowAgrees d.qosFlows (ngapFlows.zip nasFlows)
  policed : ∀ q ∈ Smf.flowQers d, ∃ flow ∈ nasFlows, flow.qfi = q.qfi ∧
    ∃ told, flow.gbr = some told ∧ told.mfbr.Tells q.mfbrDlBps q.mfbrUlBps

/-- Every rate of a decision is a BitRate that `bitrateToBps` takes. -/
structure Accepted (d : SmPolicyDecision) : Prop where
  ambr : ∀ a, d.sessionAmbr = some a → a.toBps.isSome
  flows : ∀ f ∈ d.qosFlows, ∀ g, f.gbr = some g → (gbrBps g).isSome

/-- The accept of a session agrees with the rules of its establishment.  The set-up at the gNB carries
the flows and no session AMBR. -/
def AcceptAgrees (d : SmPolicyDecision) : Prop :=
  let flows := parseQosFlows (smContextCreated d)
  Agreement d (parseAmbr (smContextCreated d)) flows.1 flows.2

/-- The AMF takes a modification, and its N1 and N2 commands agree with the rules at the UPF. -/
def CommandAgrees (amfUeId : AmfUeId) (psi : UInt8) (released : List UInt8) (d : SmPolicyDecision) :
    Prop :=
  ∃ m, modifyPolicy (some amfUeId) (pduModify psi d released) = .ok m ∧ m.psi = psi ∧
    m.releasedQfis = released ∧
    Smf.ambrBps d = some { uplinkBps := m.sessionAmbrUlBps, downlinkBps := m.sessionAmbrDlBps } ∧
    Agreement d m.ambrNas m.ngapFlows m.nasFlows

/-- The four rates of a GBR flow are encodable. -/
structure GbrEncodable (g : GbrPolicy) : Prop where
  gfbrUl : Encodable g.gfbrUl
  gfbrDl : Encodable g.gfbrDl
  mfbrUl : Encodable g.mfbrUl
  mfbrDl : Encodable g.mfbrDl

def AmbrEncodable (a : SessionAmbrPolicy) : Prop := Encodable a.uplink ∧ Encodable a.downlink

/-- Two rates for which 10 Mbps is the nearest one. -/
def AboutTenMbps (a : SessionAmbrPolicy) : Prop :=
  ∃ ulBps dlBps, a.toBps = some (ulBps, dlBps) ∧ (9999500 ≤ dlBps ∧ dlBps ≤ 10000500) ∧
    9999500 ≤ ulBps ∧ ulBps ≤ 10000500

/-! ### Flows -/

@[simp] theorem asU8_toNat (b : UInt8) : asU8 (some b.toNat) = some b := by
  simp [asU8, b.toNat_lt]

/-- The two forms of a flow of a decision. -/
def flowForms (f : QosFlowPolicy) : QosFlow × QosFlowDesc :=
  ({ qfi := f.qfi, fiveQi := f.fiveQi, arpPriority := f.arpPriority
     preEmptCap := f.preEmptCap, preEmptVuln := f.preEmptVuln, gbr := f.gbr.bind gbrBps },
    { qfi := f.qfi, fiveQi := f.fiveQi, gbr := f.gbr.bind fun g => nasGbr (.ofPolicy g) })

theorem parseQosFlow_ofPolicy (f : QosFlowPolicy) :
    parseQosFlow (.ofPolicy f) = some (flowForms f) := by
  rcases f with ⟨qfi, fiveQi, arpPriority, preEmptCap, preEmptVuln, gbr, filter, refChgData, status⟩
  cases gbr <;> simp [parseQosFlow, QosFlowBody.ofPolicy, flowForms, ngapGbr, gbrBps,
    GbrBody.ofPolicy]

theorem filterMap_parseQosFlow (flows : List QosFlowPolicy) :
    (flows.map QosFlowBody.ofPolicy).filterMap parseQosFlow = flows.map flowForms := by
  have hforms : parseQosFlow ∘ QosFlowBody.ofPolicy = some ∘ flowForms := funext parseQosFlow_ofPolicy
  rw [List.filterMap_map, hforms, List.filterMap_eq_map]

theorem parseQosFlows_smContextCreated (d : SmPolicyDecision) :
    parseQosFlows (smContextCreated d) = (d.qosFlows.map flowForms).unzip := by
  unfold parseQosFlows smContextCreated
  by_cases hempty : d.qosFlows.isEmpty = true
  · rw [if_pos hempty, List.isEmpty_iff.mp hempty]
    rfl
  · rw [if_neg hempty]
    exact congrArg List.unzip (filterMap_parseQosFlow d.qosFlows)

theorem parseQosFlows_pduModify (psi : UInt8) (d : SmPolicyDecision) (released : List UInt8) :
    parseQosFlows (pduModify psi d released) = (d.qosFlows.map flowForms).unzip :=
  congrArg List.unzip (filterMap_parseQosFlow d.qosFlows)

/-- The UE is told of a GBR flow exactly when its four rates are encodable. -/
theorem nasGbr_ofPolicy {g : GbrPolicy} {bps : Gbr} (h : gbrBps g = some bps) :
    (GbrEncodable g ∧ ∃ told, nasGbr (.ofPolicy g) = some told ∧ GbrTells told bps) ∨
      (¬ GbrEncodable g ∧ nasGbr (.ofPolicy g) = none) := by
  simp only [gbrBps, Option.bind_eq_bind, Option.bind_eq_some_iff, Option.pure_def,
    Option.some_inj] at h
  obtain ⟨gdl, hgdl, gul, hgul, mdl, hmdl, mul, hmul, rfl⟩ := h
  unfold nasGbr GbrBody.ofPolicy
  rcases Nas.sessionAmbrFromBitrates_tells hgul hgdl with ⟨hu, hd, a, ha, htells⟩ | ⟨hnot, ha⟩
  · rcases Nas.sessionAmbrFromBitrates_tells hmul hmdl with ⟨hu', hd', b, hb, htells'⟩ | ⟨hnot, hb⟩
    · refine Or.inl ⟨⟨hu, hd, hu', hd'⟩, ⟨a, b⟩, ?_, ⟨htells, htells'⟩⟩
      simp [ha, hb]
    · refine Or.inr ⟨fun h => hnot ⟨h.mfbrUl, h.mfbrDl⟩, ?_⟩
      simp [hb]
  · refine Or.inr ⟨fun h => hnot ⟨h.gfbrUl, h.gfbrDl⟩, ?_⟩
    simp [ha]

theorem flowAgrees_iff {f : QosFlowPolicy} (h : ∀ g, f.gbr = some g → (gbrBps g).isSome) :
    FlowAgrees f (flowForms f) ↔ ∀ g, f.gbr = some g → GbrEncodable g := by
  constructor
  · intro hagrees g hg
    obtain ⟨bps, hbps⟩ := Option.isSome_iff_exists.mp (h g hg)
    have hn2 : (flowForms f).1.gbr = some bps := by rw [hagrees.n2, hg, Option.bind_some, hbps]
    obtain ⟨told, htold, -⟩ := hagrees.n1 bps hn2
    rcases nasGbr_ofPolicy hbps with ⟨hencodable, -⟩ | ⟨-, hnone⟩
    · exact hencodable
    · have hn1 : (flowForms f).2.gbr = none := by
        show (f.gbr.bind fun g => nasGbr (.ofPolicy g)) = none
        rw [hg, Option.bind_some, hnone]
      rw [hn1] at htold
      cases htold
  · intro hencodable
    refine ⟨⟨rfl, rfl⟩, ⟨rfl, rfl⟩, rfl, fun bps hn2 => ?_, fun hnone => ?_⟩
    · obtain ⟨g, hg, hbps⟩ := Option.bind_eq_some_iff.mp hn2
      rcases nasGbr_ofPolicy hbps with ⟨-, told, htold, htells⟩ | ⟨hnot, -⟩
      · refine ⟨told, ?_, htells⟩
        show (f.gbr.bind fun g => nasGbr (.ofPolicy g)) = some told
        rw [hg, Option.bind_some, htold]
      · exact absurd (hencodable g hg) hnot
    · show (f.gbr.bind fun g => nasGbr (.ofPolicy g)) = none
      rw [hnone, Option.bind_none]

/-- A flow that the UPF polices is one the UE is told of, when its rates are encodable. -/
theorem policed_of_encodable {d : SmPolicyDecision} (h : Accepted d)
    (hencodable : ∀ f ∈ d.qosFlows, ∀ g, f.gbr = some g → GbrEncodable g) :
    ∀ q ∈ Smf.flowQers d, ∃ flow ∈ (d.qosFlows.map flowForms).unzip.2, flow.qfi = q.qfi ∧
      ∃ told, flow.gbr = some told ∧ told.mfbr.Tells q.mfbrDlBps q.mfbrUlBps := by
  intro q hq
  obtain ⟨f, hf, hqer⟩ := List.mem_filterMap.mp hq
  simp only [Option.bind_eq_bind, Option.bind_eq_some_iff, Option.pure_def, Option.some_inj] at hqer
  obtain ⟨g, hg, filter, -, dlBps, hdl, ulBps, hul, rfl⟩ := hqer
  obtain ⟨bps, hbps⟩ := Option.isSome_iff_exists.mp (h.flows f hf g hg)
  have hrates : bps.mfbrDlBps = dlBps ∧ bps.mfbrUlBps = ulBps := by
    simp only [gbrBps, bitrateToBps, hdl, hul, Option.bind_eq_bind, Option.bind_some,
      Option.bind_eq_some_iff, Option.pure_def, Option.some_inj] at hbps
    obtain ⟨gdl, -, gul, -, rfl⟩ := hbps
    exact ⟨rfl, rfl⟩
  have hagrees := (flowAgrees_iff (h.flows f hf)).mpr (hencodable f hf)
  obtain ⟨told, htold, htells⟩ := hagrees.n1 bps (by rw [hagrees.n2, hg, Option.bind_some, hbps])
  refine ⟨(flowForms f).2, ?_, rfl, told, htold, ?_⟩
  · rw [List.unzip_snd, List.map_map]
    exact List.mem_map_of_mem hf
  · rw [← hrates.1, ← hrates.2]
    exact htells.mfbr

/-- With the flows as the AMF reads them, agreement is a matter of the AMBR and of each GBR flow. -/
theorem agreement_iff {d : SmPolicyDecision} (h : Accepted d) (ambr : Nas.SessionAmbr) :
    Agreement d ambr (d.qosFlows.map flowForms).unzip.1 (d.qosFlows.map flowForms).unzip.2 ↔
      (∀ a, Smf.ambrBps d = some a → ambr.Tells a.downlinkBps a.uplinkBps) ∧
        ∀ f ∈ d.qosFlows, ∀ g, f.gbr = some g → GbrEncodable g := by
  have hzip : (d.qosFlows.map flowForms).unzip.1.zip (d.qosFlows.map flowForms).unzip.2 =
      d.qosFlows.map flowForms := List.zip_unzip _
  have hflows : List.Forall₂ FlowAgrees d.qosFlows (d.qosFlows.map flowForms) ↔
      ∀ f ∈ d.qosFlows, ∀ g, f.gbr = some g → GbrEncodable g := by
    rw [List.forall₂_map_right_iff, List.forall₂_same]
    exact forall₂_congr fun f hf => flowAgrees_iff (h.flows f hf)
  constructor
  · intro hagree
    refine ⟨hagree.ambr, hflows.mp ?_⟩
    rw [← hzip]
    exact hagree.flows
  · rintro ⟨hambr, hencodable⟩
    refine ⟨hambr, by simp, ?_, policed_of_encodable h hencodable⟩
    rw [hzip]
    exact hflows.mpr hencodable

/-! ### The session AMBR -/

/-- The AMBR of the accept tells the two rates exactly when they are read, or the default will do. -/
theorem parseAmbr_tells_iff {d : SmPolicyDecision} {a : SessionAmbrPolicy} {ulBps dlBps : Nat}
    (ha : d.sessionAmbr = some a) (hbps : a.toBps = some (ulBps, dlBps)) :
    (parseAmbr (smContextCreated d)).Tells dlBps ulBps ↔ AmbrEncodable a ∨ AboutTenMbps a := by
  have hparse : parseAmbr (smContextCreated d) =
      (sessionAmbrFromBitrates a.uplink a.downlink).getD Nas.SessionAmbr.TEN_MBPS := by
    simp [parseAmbr, smContextCreated, ha, SessionAmbrBody.ofPolicy]
  have habout : AboutTenMbps a ↔ Nas.SessionAmbr.TEN_MBPS.Tells dlBps ulBps := by
    rw [Nas.tenMbps_tells_iff]
    constructor
    · rintro ⟨ul, dl, hto, hrates⟩
      rw [hbps, Option.some_inj, Prod.mk.injEq] at hto
      rwa [hto.1, hto.2]
    · exact fun hrates => ⟨ulBps, dlBps, hbps, hrates⟩
  have hrates := hbps
  simp only [SessionAmbrPolicy.toBps, Option.bind_eq_bind, Option.bind_eq_some_iff, Option.pure_def,
    Option.some_inj, Prod.mk.injEq] at hrates
  obtain ⟨ul, hul, dl, hdl, rfl, rfl⟩ := hrates
  rw [hparse, habout]
  rcases Nas.sessionAmbrFromBitrates_tells hul hdl with ⟨hu, hd, told, htold, htells⟩ | ⟨hnot, hnone⟩
  · rw [htold, Option.getD_some]
    exact iff_of_true htells (Or.inl ⟨hu, hd⟩)
  · rw [hnone, Option.getD_none]
    exact (or_iff_right hnot).symm

theorem ambrBps_of_toBps {d : SmPolicyDecision} {a : SessionAmbrPolicy} {ulBps dlBps : Nat}
    (ha : d.sessionAmbr = some a) (hbps : a.toBps = some (ulBps, dlBps)) :
    Smf.ambrBps d = some { uplinkBps := ulBps, downlinkBps := dlBps } := by
  rw [Smf.ambrBps, ha, Option.bind_some, hbps, Option.map_some]

theorem acceptAgrees_iff {d : SmPolicyDecision} (h : Accepted d) :
    AcceptAgrees d ↔ (∀ a, d.sessionAmbr = some a → AmbrEncodable a ∨ AboutTenMbps a) ∧
      ∀ f ∈ d.qosFlows, ∀ g, f.gbr = some g → GbrEncodable g := by
  unfold AcceptAgrees
  rw [parseQosFlows_smContextCreated, agreement_iff h]
  refine and_congr_left fun _ => ?_
  rcases ha : d.sessionAmbr with _ | a
  · refine iff_of_true (fun bps hbps => ?_) (fun a ha => nomatch ha)
    rw [Smf.ambrBps, ha] at hbps
    cases hbps
  · obtain ⟨⟨ulBps, dlBps⟩, hbps⟩ := Option.isSome_iff_exists.mp (h.ambr a ha)
    rw [ambrBps_of_toBps ha hbps]
    constructor
    · rintro htells a ⟨⟩
      exact (parseAmbr_tells_iff ha hbps).mp (htells _ rfl)
    · rintro hencodable _ ⟨⟩
      exact (parseAmbr_tells_iff ha hbps).mpr (hencodable a rfl)

/-- A modification is taken exactly when both rates of the session AMBR are read. -/
theorem modifyPolicy_pduModify (amfUeId : AmfUeId) (psi : UInt8) (released : List UInt8)
    {d : SmPolicyDecision} (h : Accepted d) :
    (∃ a ulBps dlBps told, d.sessionAmbr = some a ∧ AmbrEncodable a ∧ told.Tells dlBps ulBps ∧
      Smf.ambrBps d = some { uplinkBps := ulBps, downlinkBps := dlBps } ∧
      modifyPolicy (some amfUeId) (pduModify psi d released) =
        .ok { amfUeId, psi, ambrNas := told, sessionAmbrDlBps := dlBps, sessionAmbrUlBps := ulBps
              ngapFlows := (d.qosFlows.map flowForms).unzip.1
              nasFlows := (d.qosFlows.map flowForms).unzip.2, releasedQfis := released }) ∨
    ((¬ ∃ a, d.sessionAmbr = some a ∧ AmbrEncodable a) ∧
      modifyPolicy (some amfUeId) (pduModify psi d released) = .error .badRequest) := by
  have hpsi : asU8 (pduModify psi d released).pduSessionId = some psi := asU8_toNat psi
  have hreleased : ((pduModify psi d released).releasedQfis.getD []).filterMap asU8 = released := by
    simp [pduModify, List.filterMap_map]
  unfold modifyPolicy
  rw [hpsi]
  dsimp only
  rcases ha : d.sessionAmbr with _ | a
  · refine Or.inr ⟨?_, ?_⟩
    · rintro ⟨a, ⟨⟩, -⟩
    · simp [pduModify, ha]
  · obtain ⟨⟨ulBps, dlBps⟩, hbps⟩ := Option.isSome_iff_exists.mp (h.ambr a ha)
    have hrates := hbps
    simp only [SessionAmbrPolicy.toBps, Option.bind_eq_bind, Option.bind_eq_some_iff,
      Option.pure_def, Option.some_inj, Prod.mk.injEq] at hrates
    obtain ⟨ul, hul, dl, hdl, rfl, rfl⟩ := hrates
    rcases Nas.sessionAmbrFromBitrates_tells hul hdl with
      ⟨hu, hd, told, htold, htells⟩ | ⟨hnot, hnone⟩
    · refine Or.inl ⟨a, ul, dl, told, rfl, ⟨hu, hd⟩, htells, ambrBps_of_toBps ha hbps, ?_⟩
      rw [hreleased, parseQosFlows_pduModify]
      simp [pduModify, ha, SessionAmbrBody.ofPolicy, htold, bitrateToBps, hul, hdl]
    · refine Or.inr ⟨?_, ?_⟩
      · rintro ⟨b, hb, hencodable⟩
        cases hb
        exact hnot hencodable
      · simp [pduModify, ha, SessionAmbrBody.ofPolicy, hnone]

theorem commandAgrees_iff (amfUeId : AmfUeId) (psi : UInt8) (released : List UInt8)
    {d : SmPolicyDecision} (h : Accepted d) :
    CommandAgrees amfUeId psi released d ↔ (∃ a, d.sessionAmbr = some a ∧ AmbrEncodable a) ∧
      ∀ f ∈ d.qosFlows, ∀ g, f.gbr = some g → GbrEncodable g := by
  unfold CommandAgrees
  rcases modifyPolicy_pduModify amfUeId psi released h with
    ⟨a, ulBps, dlBps, told, ha, hencodable, htells, hn4, hok⟩ | ⟨hnot, hrefused⟩
  · rw [hok]
    constructor
    · rintro ⟨m, hm, -, -, -, hagree⟩
      cases hm
      exact ⟨⟨a, ha, hencodable⟩, ((agreement_iff h told).mp hagree).2⟩
    · rintro ⟨-, hflows⟩
      refine ⟨_, rfl, rfl, rfl, hn4, (agreement_iff h told).mpr ⟨fun bps hbps => ?_, hflows⟩⟩
      rw [hn4, Option.some_inj] at hbps
      subst hbps
      exact htells
  · rw [hrefused]
    constructor
    · rintro ⟨m, hm, -⟩
      cases hm
    · exact fun hall => absurd hall.1 hnot

/-! ### The decisions that reach all three alike -/

/-- **One rate, three enforcers.** The accept agrees with the rules of the gNB and the UPF exactly when every
rate of a GBR flow is encodable and those of the session AMBR are, or are about 10 Mbps, the default.  The
modification is taken and agrees exactly when there is an AMBR and all the rates are encodable. -/
theorem one_rate_iff (amfUeId : AmfUeId) (psi : UInt8) (released : List UInt8) (d : SmPolicyDecision)
    (h : Accepted d) :
    (AcceptAgrees d ↔ (∀ a, d.sessionAmbr = some a → AmbrEncodable a ∨ AboutTenMbps a) ∧
      ∀ f ∈ d.qosFlows, ∀ g, f.gbr = some g → GbrEncodable g) ∧
    (CommandAgrees amfUeId psi released d ↔ (∃ a, d.sessionAmbr = some a ∧ AmbrEncodable a) ∧
      ∀ f ∈ d.qosFlows, ∀ g, f.gbr = some g → GbrEncodable g) :=
  ⟨acceptAgrees_iff h, commandAgrees_iff amfUeId psi released h⟩

/-- A decision with one session AMBR and no flow. -/
def ambrDecision (rate : String) : SmPolicyDecision := SmPolicyDecision.ambrOnly ⟨rate, rate⟩

theorem one_rate_iff_seventyGbps :
    (AcceptAgrees (ambrDecision "70000 Mbps") ↔
      (∀ a, (ambrDecision "70000 Mbps").sessionAmbr = some a → AmbrEncodable a ∨ AboutTenMbps a) ∧
        ∀ f ∈ (ambrDecision "70000 Mbps").qosFlows, ∀ g, f.gbr = some g → GbrEncodable g) ∧
    (CommandAgrees 1 5 [] (ambrDecision "70000 Mbps") ↔
      (∃ a, (ambrDecision "70000 Mbps").sessionAmbr = some a ∧ AmbrEncodable a) ∧
        ∀ f ∈ (ambrDecision "70000 Mbps").qosFlows, ∀ g, f.gbr = some g → GbrEncodable g) := by
  have hambr : (ambrDecision "70000 Mbps").sessionAmbr = some ⟨"70000 Mbps", "70000 Mbps"⟩ := by decide
  have hflows : (ambrDecision "70000 Mbps").qosFlows = [] := by decide
  refine one_rate_iff 1 5 [] (ambrDecision "70000 Mbps") ⟨?_, ?_⟩
  · rw [hambr]
    rintro a ⟨⟩
    decide
  · rw [hflows]
    exact fun f hf => absurd hf List.not_mem_nil

/-- 70 Gbps, in Mbps, is told as 10 Mbps in the accept, and the modification of it is refused. -/
theorem one_rate_not_kept :
    let d := ambrDecision "70000 Mbps"
    Accepted d ∧ Smf.ambrBps d = some { uplinkBps := 70000000000, downlinkBps := 70000000000 } ∧
      parseAmbr (smContextCreated d) = Nas.SessionAmbr.TEN_MBPS ∧ ¬ AcceptAgrees d ∧
      modifyPolicy (some 1) (pduModify 5 d []) = .error .badRequest ∧ ¬ CommandAgrees 1 5 [] d := by
  have hambr : (ambrDecision "70000 Mbps").sessionAmbr = some ⟨"70000 Mbps", "70000 Mbps"⟩ := by decide
  have hflows : (ambrDecision "70000 Mbps").qosFlows = [] := by decide
  have hbps : Smf.ambrBps (ambrDecision "70000 Mbps") =
      some { uplinkBps := 70000000000, downlinkBps := 70000000000 } := by decide
  have hdefault : parseAmbr (smContextCreated (ambrDecision "70000 Mbps")) =
      Nas.SessionAmbr.TEN_MBPS := by decide
  have hrefused : modifyPolicy (some 1) (pduModify 5 (ambrDecision "70000 Mbps") []) =
      .error .badRequest := by decide
  refine ⟨⟨?_, ?_⟩, hbps, hdefault, fun hagree => ?_, hrefused, fun hagree => ?_⟩
  · rw [hambr]
    rintro a ⟨⟩
    decide
  · rw [hflows]
    exact fun f hf => absurd hf List.not_mem_nil
  · have htells := hagree.ambr _ hbps
    rw [hdefault, Nas.tenMbps_tells_iff] at htells
    exact absurd htells (by decide)
  · obtain ⟨m, hm, -⟩ := hagree
    rw [hrefused] at hm
    cases hm

end Radian.Amf
