import Radian.Pfcp.Handle

/-!
# Establishment requests

What an SMF writes into an establishment request is what the UPF installs, and what the UPF answers
is what it holds.

- `Provisioned` — a session as both ends mean it.
- `parseCreatedFlows_flows` — flows travel through the QER and PDR id bands.
- `parseBranches_branches` — branches travel through theirs.
- `establishment_installs` — both forms of the request, and the answer.
-/

namespace Radian.Pfcp

/-- What a session is provisioned with. -/
structure Provisioned where
  ue : UeAddr
  ambr : Option SessionAmbr
  flows : List FlowQer
  usageThreshold : Option Nat
  egress : Egress
  branches : List (FlowFilter × Egress)
  dlIngress : Bool
  deriving DecidableEq, Repr

/-- The QER an installed flow is for. -/
def FlowEnforcer.qer (e : FlowEnforcer) : FlowQer :=
  { qfi := e.qfi
    filter := e.filter
    mfbrDlBps := e.dlBucket.rateBps
    mfbrUlBps := e.ulBucket.rateBps
    gate := e.gate }

@[simp] theorem FlowEnforcer.qer_new (f : FlowQer) (nowNanos : Nat) :
    (FlowEnforcer.new f nowNanos).qer = f := rfl

def Session.provisioned (t : Session) : Provisioned :=
  { ue := { v4 := t.ueIp, v6 := t.ueIpv6 }
    ambr := t.ambr
    flows := t.flowQers.map FlowEnforcer.qer
    usageThreshold := t.usageThreshold
    egress := t.uplink
    branches := t.branches.map fun b => b.2
    dlIngress := t.dlIngressTeid.isSome }

theorem provisioned_newSession (n3Teid : Teid) (cpSeid : Seid) (peer : Option IpAddr) (ue : UeAddr)
    (ambr : Option SessionAmbr) (flows : List FlowQer) (usageThreshold : Option Nat)
    (nowNanos : Nat) (uplink : Egress) (branches : List Branch) (dlIngressTeid : Option Teid) :
    (UpfState.newSession n3Teid cpSeid peer ue ambr flows usageThreshold nowNanos uplink branches
      dlIngressTeid).provisioned =
      { ue, ambr, flows, usageThreshold, egress := uplink, branches := branches.map fun b => b.2
        dlIngress := dlIngressTeid.isSome } := by
  have hflows : (flows.map fun f => FlowEnforcer.new f nowNanos).map FlowEnforcer.qer = flows := by
    simp [List.map_map, Function.comp_def]
  simp only [Session.provisioned, UpfState.newSession, hflows]

/-- What an establishment request is read as. -/
def Message.provisioned (msg : Message) : Provisioned :=
  { ue := ueAddrOf msg
    ambr := ambrOf msg
    flows := parseCreatedFlows msg
    usageThreshold := usageThresholdOf msg
    egress := uplinkOf msg
    branches := (parseBranches msg).map fun b => b.2
    dlIngress := wantsDlIngress msg }

/-- Exactly one session is new, provisioned as meant, and the answer names it. -/
def Installed {D : Type} (codec : Codec D) (s : UpfState) (handled : Option D × UpfState)
    (nodeIp : Ipv4Addr) (meant : Provisioned) : Prop :=
  ∃ t, s.sessions.lookup s.nextSeid = none ∧
    handled.2.sessions = s.sessions.insert s.nextSeid t ∧ t.provisioned = meant ∧
    handled.1.bind (parseSessionEstablishmentResponse codec) =
      some { upSeid := s.nextSeid
             n3Teid := t.n3Teid
             n3Addr := nodeIp
             dlIngress := t.dlIngressTeid.map fun teid => (teid, nodeIp) }

/-! ### Flows and branches across the wire -/

theorem qfiOfQerId_base (qfi : UInt8) : qfiOfQerId (PER_FLOW_QER_BASE + qfi.toNat) = qfi := by
  rw [qfiOfQerId, Nat.add_sub_cancel_left, UInt8.ofNat_toNat]

variable {msg : Message}

/-- Without a classifier or a QER a PDR is no flow. -/
theorem createdFlow_none {pdr : CreatePdr} (h : pdr.pdi.sdfFilter = none ∨ pdr.qerId = none) :
    createdFlow msg pdr = none := by
  unfold createdFlow
  rcases h with h | h
  · simp [h]
  · rw [h]
    simp

/-- A flow's PDR is read as the flow. -/
theorem createdFlow_ies {f : FlowQer}
    (hqer : Keyed.collect (qerInfo msg) (PER_FLOW_QER_BASE + f.qfi.toNat) =
      some ({ uplink := f.mfbrUlBps, downlink := f.mfbrDlBps }, f.gate)) :
    createdFlow msg (flowCreateIes f).2.1 = some f := by
  simp [createdFlow, flowCreateIes, FlowFilter.fromFlowDescription_toFlowDescription, hqer,
    qfiOfQerId_base]

/-- What a flow's QER is read as; a gate that is not sent is an open one. -/
theorem qerEntry_ies (f : FlowQer) : qerEntry (flowCreateIes f).1 =
    some (PER_FLOW_QER_BASE + f.qfi.toNat, { uplink := f.mfbrUlBps, downlink := f.mfbrDlBps },
      f.gate) := by
  obtain ⟨qfi, filter, dl, ul, ⟨gateUl, gateDl⟩⟩ := f
  cases gateUl <;> cases gateDl <;> rfl

theorem keys_qerEntry (qers : List CreateQer) :
    ((qers.filterMap qerEntry).map Prod.fst).Sublist (qers.map CreateQer.qerId) := by
  induction qers with
  | nil => exact List.Sublist.slnil
  | cons q qers ih =>
    rcases hmbr : q.mbr with _ | m
    · rw [List.filterMap_cons_none (by simp [qerEntry, hmbr]), List.map_cons]
      exact ih.cons _
    · have hentry : qerEntry q = some (q.qerId, m, q.gateStatus.getD Gate.OPEN) := by
        rw [qerEntry, hmbr, Option.map_some]
      rw [List.filterMap_cons_some hentry, List.map_cons, List.map_cons]
      exact ih.cons_cons _

/-- The QERs of flows with distinct QFIs are found by their ids. -/
theorem collect_qerInfo {rest : List CreateQer} {flows : List FlowQer}
    (hqers : msg.createQers = rest ++ flows.map fun f => (flowCreateIes f).1)
    (hrest : ∀ q ∈ rest, q.qerId < PER_FLOW_QER_BASE) (hids : (rest.map CreateQer.qerId).Nodup)
    (hqfis : (flows.map FlowQer.qfi).Nodup) {f : FlowQer} (hf : f ∈ flows) :
    Keyed.collect (qerInfo msg) (PER_FLOW_QER_BASE + f.qfi.toNat) =
      some ({ uplink := f.mfbrUlBps, downlink := f.mfbrDlBps }, f.gate) := by
  have hinfo : qerInfo msg = rest.filterMap qerEntry ++ flows.map fun f =>
      (PER_FLOW_QER_BASE + f.qfi.toNat, { uplink := f.mfbrUlBps, downlink := f.mfbrDlBps },
        f.gate) := by
    rw [qerInfo, hqers, List.filterMap_append, List.filterMap_map]
    congr 1
    rw [← List.filterMap_eq_map]
    apply List.filterMap_congr
    intro f _
    exact qerEntry_ies f
  apply Keyed.collect_of_mem
  · rw [hinfo, List.map_append, List.map_map, List.nodup_append]
    refine ⟨(keys_qerEntry rest).nodup hids, ?_, ?_⟩
    · have hinj : Function.Injective fun qfi : UInt8 => PER_FLOW_QER_BASE + qfi.toNat := by
        intro a b h
        exact UInt8.toNat_inj.mp (Nat.add_left_cancel h)
      have hmap := hqfis.map hinj
      rw [List.map_map] at hmap
      exact hmap
    · intro k hk k' hk' heq
      obtain ⟨q, hq, rfl⟩ := List.mem_map.mp ((keys_qerEntry rest).subset hk)
      obtain ⟨g, -, rfl⟩ := List.mem_map.mp hk'
      have hlt := hrest q hq
      simp only [Function.comp] at heq
      omega
  · rw [hinfo, List.mem_append]
    exact Or.inr (List.mem_map.mpr ⟨f, hf, rfl⟩)

/-- Flows with distinct QFIs are read back, whatever other rules are in the message. -/
theorem parseCreatedFlows_flows {restPdrs : List CreatePdr} {restQers : List CreateQer}
    {flows : List FlowQer} (hpdrs : msg.createPdrs = restPdrs ++ flows.map fun f => (flowCreateIes f).2.1)
    (hqers : msg.createQers = restQers ++ flows.map fun f => (flowCreateIes f).1)
    (hrest : ∀ pdr ∈ restPdrs, pdr.pdi.sdfFilter = none ∨ pdr.qerId = none)
    (hbase : ∀ q ∈ restQers, q.qerId < PER_FLOW_QER_BASE) (hids : (restQers.map CreateQer.qerId).Nodup)
    (hqfis : (flows.map FlowQer.qfi).Nodup) :
    parseCreatedFlows msg = flows := by
  have hnone : restPdrs.filterMap (createdFlow msg) = [] := by
    rw [List.filterMap_eq_nil_iff]
    intro pdr hpdr
    exact createdFlow_none (hrest pdr hpdr)
  have hflows : flows.filterMap (createdFlow msg ∘ fun f => (flowCreateIes f).2.1) = flows := by
    have hsome : flows.filterMap (createdFlow msg ∘ fun f => (flowCreateIes f).2.1) =
        flows.filterMap some := by
      apply List.filterMap_congr
      intro f hf
      exact createdFlow_ies (collect_qerInfo hqers hbase hids hqfis hf)
    rw [hsome, List.filterMap_some]
  rw [parseCreatedFlows, hpdrs, List.filterMap_append, List.filterMap_map, hnone, hflows,
    List.nil_append]

/-- The PDRs of flows are below the branch id band. -/
theorem pdrId_flow (f : FlowQer) : (flowCreateIes f).2.1.pdrId < ULCL_PDR_BASE := by
  have hqfi := f.qfi.toNat_lt
  simp only [flowCreateIes, PER_FLOW_PDR_BASE, ULCL_PDR_BASE]
  omega

/-- Below the branch id band a message has no branches. -/
theorem parseBranches_none (h : ∀ pdr ∈ msg.createPdrs, pdr.pdrId < ULCL_PDR_BASE) :
    parseBranches msg = [] := by
  have hfilter : (msg.createPdrs.filter fun pdr => ULCL_PDR_BASE ≤ pdr.pdrId) = [] := by
    rw [List.filter_eq_nil_iff]
    intro pdr hpdr
    have hlt := h pdr hpdr
    simpa using hlt
  rw [parseBranches, hfilter]
  rfl

section FlowModification

variable {upSeid : Seid} {seq : Nat} {create update : List FlowQer} {remove : List UInt8}

theorem parseBranches_request :
    parseBranches (sessionFlowModificationRequest upSeid seq create update remove) = [] := by
  apply parseBranches_none
  intro pdr hpdr
  obtain ⟨f, -, rfl⟩ := List.mem_map.mp hpdr
  exact pdrId_flow f

theorem removePdrs_request :
    ((sessionFlowModificationRequest upSeid seq create update remove).removePdrs.filter
      fun id => ULCL_PDR_BASE ≤ id) = [] := by
  rw [List.filter_eq_nil_iff]
  intro id hid hle
  obtain ⟨q, -, rfl⟩ := List.mem_map.mp hid
  have hq := q.toNat_lt
  rw [decide_eq_true_eq, PER_FLOW_PDR_BASE, ULCL_PDR_BASE] at hle
  omega

end FlowModification

/-- Branches numbered in order. -/
def numbered (branches : List (FlowFilter × Egress)) : List Branch :=
  branches.zipIdx.map fun b => (ULCL_PDR_BASE + b.2, b.1)

section Branches

variable {branches : List (FlowFilter × Egress)} {dnn : String}

theorem branch_pdrId {index : Nat} (h : index < 1000) (filter : FlowFilter) (egress : Egress)
    (dnn : String) : (branchCreateIes index filter egress dnn).1.pdrId = ULCL_PDR_BASE + index := by
  simp only [branchCreateIes, ULCL_PDR_BASE]
  omega

theorem branch_farId {index : Nat} (h : index < 1000) (filter : FlowFilter) (egress : Egress)
    (dnn : String) : (branchCreateIes index filter egress dnn).2.farId = ULCL_FAR_BASE + index := by
  simp only [branchCreateIes, ULCL_FAR_BASE]
  omega

theorem branch_linked (index : Nat) (filter : FlowFilter) (egress : Egress) (dnn : String) :
    (branchCreateIes index filter egress dnn).1.farId =
      some (branchCreateIes index filter egress dnn).2.farId := rfl

/-- The egress written into a branch's FAR is the one read from it. -/
theorem branch_egress (index : Nat) (filter : FlowFilter) (egress : Egress) (dnn : String) :
    (branchCreateIes index filter egress dnn).2.egress = egress := by
  cases egress <;> rfl

/-- A branch's PDR is read as the branch. -/
theorem createdBranch_ies {index : Nat} {filter : FlowFilter} {egress : Egress}
    (hfar : Keyed.collect (farEgress msg) (branchCreateIes index filter egress dnn).2.farId =
      some egress) :
    createdBranch msg (branchCreateIes index filter egress dnn).1 =
      some ((branchCreateIes index filter egress dnn).1.pdrId, filter, egress) := by
  have hfilter : (branchCreateIes index filter egress dnn).1.pdi.sdfFilter =
      some filter.toFlowDescription := rfl
  simp only [createdBranch, hfilter, branch_linked, Option.bind_eq_bind, Option.bind_some,
    FlowFilter.fromFlowDescription_toFlowDescription, hfar]
  rfl

theorem index_lt (hlen : branches.length ≤ 1000) :
    ∀ b ∈ branches.zipIdx, b.2 < 1000 := by
  intro b hb
  have hlt := (List.mem_zipIdx hb).2.1
  omega

theorem mem_branchRules {rule : CreatePdr × CreateFar} :
    rule ∈ branchRules branches dnn ↔
      ∃ b ∈ branches.zipIdx, branchCreateIes b.2 b.1.1 b.1.2 dnn = rule :=
  List.mem_map

/-- The PDRs of branches are in order, all in the branch id band. -/
theorem pairwise_branchRules (hlen : branches.length ≤ 1000) :
    ((branchRules branches dnn).map Prod.fst).Pairwise fun a b => a.pdrId ≤ b.pdrId := by
  have hindices : branches.zipIdx.Pairwise fun a b => a.2 < b.2 := by
    have hsorted := List.pairwise_lt_range' (s := 0) (n := branches.length)
    rw [← List.zipIdx_map_snd 0 branches, List.pairwise_map] at hsorted
    exact hsorted
  rw [branchRules, List.map_map, List.pairwise_map]
  apply hindices.imp_of_mem
  intro a b ha hb hlt
  simp only [Function.comp]
  rw [branch_pdrId (index_lt hlen a ha), branch_pdrId (index_lt hlen b hb)]
  omega

theorem le_pdrId_branchRules (hlen : branches.length ≤ 1000) :
    ∀ pdr ∈ (branchRules branches dnn).map Prod.fst, ULCL_PDR_BASE ≤ pdr.pdrId := by
  intro pdr hpdr
  obtain ⟨rule, hrule, rfl⟩ := List.mem_map.mp hpdr
  obtain ⟨b, hb, rfl⟩ := mem_branchRules.mp hrule
  rw [branch_pdrId (index_lt hlen b hb)]
  omega

/-- The FARs of branches have distinct ids in their band. -/
theorem nodup_branchRules (hlen : branches.length ≤ 1000) :
    (((branchRules branches dnn).map Prod.snd).map CreateFar.farId).Nodup := by
  have hindices : (branches.zipIdx.map Prod.snd).Nodup := by
    rw [List.zipIdx_map_snd]
    exact List.nodup_range'
  have hids : ((branchRules branches dnn).map Prod.snd).map CreateFar.farId =
      (branches.zipIdx.map Prod.snd).map fun i => ULCL_FAR_BASE + i := by
    rw [branchRules, List.map_map, List.map_map, List.map_map]
    apply List.map_congr_left
    intro b hb
    exact branch_farId (index_lt hlen b hb) _ _ _
  rw [hids]
  exact hindices.map fun a b h => Nat.add_left_cancel h

theorem le_farId_branchRules (hlen : branches.length ≤ 1000) :
    ∀ far ∈ (branchRules branches dnn).map Prod.snd, ULCL_FAR_BASE ≤ far.farId := by
  intro far hfar
  obtain ⟨rule, hrule, rfl⟩ := List.mem_map.mp hfar
  obtain ⟨b, hb, rfl⟩ := mem_branchRules.mp hrule
  rw [branch_farId (index_lt hlen b hb)]
  omega

/-- The FAR of a branch is found by the id its PDR points at. -/
theorem collect_farEgress {rest : List CreateFar}
    (hfars : msg.createFars = rest ++ (branchRules branches dnn).map Prod.snd)
    (hbase : ∀ far ∈ rest, far.farId < ULCL_FAR_BASE) (hids : (rest.map CreateFar.farId).Nodup)
    (hlen : branches.length ≤ 1000) {rule : CreatePdr × CreateFar}
    (hrule : rule ∈ branchRules branches dnn) :
    Keyed.collect (farEgress msg) rule.2.farId = some rule.2.egress := by
  have hkeys : (farEgress msg).map Prod.fst = msg.createFars.map CreateFar.farId := by
    rw [farEgress, List.map_map]
    rfl
  apply Keyed.collect_of_mem
  · rw [hkeys, hfars, List.map_append, List.nodup_append]
    refine ⟨hids, nodup_branchRules hlen, ?_⟩
    intro id hid id' hid' heq
    obtain ⟨far, hfar, rfl⟩ := List.mem_map.mp hid
    obtain ⟨far', hfar', rfl⟩ := List.mem_map.mp hid'
    have hlt := hbase far hfar
    have hle := le_farId_branchRules hlen far' hfar'
    omega
  · rw [farEgress, hfars]
    have hmem : rule.2 ∈ rest ++ (branchRules branches dnn).map Prod.snd :=
      List.mem_append_right _ (List.mem_map_of_mem hrule)
    exact List.mem_map_of_mem hmem

/-- Up to 1000 branches are read back in order, whatever other rules are in the message. -/
theorem parseBranches_branches {restPdrs : List CreatePdr} {restFars : List CreateFar}
    (hlen : branches.length ≤ 1000)
    (hpdrs : msg.createPdrs = restPdrs ++ (branchRules branches dnn).map Prod.fst)
    (hfars : msg.createFars = restFars ++ (branchRules branches dnn).map Prod.snd)
    (hrest : ∀ pdr ∈ restPdrs, pdr.pdrId < ULCL_PDR_BASE)
    (hbase : ∀ far ∈ restFars, far.farId < ULCL_FAR_BASE) (hids : (restFars.map CreateFar.farId).Nodup) :
    parseBranches msg = numbered branches := by
  have hfilter : (msg.createPdrs.filter fun pdr => ULCL_PDR_BASE ≤ pdr.pdrId) =
      (branchRules branches dnn).map Prod.fst := by
    have hnone : (restPdrs.filter fun pdr => ULCL_PDR_BASE ≤ pdr.pdrId) = [] := by
      rw [List.filter_eq_nil_iff]
      intro pdr hpdr
      have hlt := hrest pdr hpdr
      simpa using hlt
    rw [hpdrs, List.filter_append, hnone, List.nil_append, List.filter_eq_self]
    intro pdr hpdr
    simpa using le_pdrId_branchRules hlen pdr hpdr
  rw [parseBranches, hfilter, (pairwise_branchRules hlen).insertionSort_eq, numbered, branchRules,
    List.map_map, List.filterMap_map, ← List.filterMap_eq_map]
  apply List.filterMap_congr
  intro b hb
  have hegress := collect_farEgress hfars hbase hids hlen (mem_branchRules.mpr ⟨b, hb, rfl⟩)
  have hid := branch_pdrId (index_lt hlen b hb) b.1.1 b.1.2 dnn
  rw [branch_egress] at hegress
  simp only [Function.comp_apply]
  rw [createdBranch_ies hegress, hid]

end Branches

/-! ### Establishment -/

/-- An establishment request below the ceiling opens one session, with what was read in it. -/
theorem handleMessage_establishes {s : UpfState} {cpSeid : Seid} (nodeIp : Ipv4Addr) (nowNanos : Nat)
    (peer : Option IpAddr) (htype : msg.msgType = .sessionEstablishmentRequest)
    (hfseid : msg.fseids.head?.join = some cpSeid) (hroom : s.sessionCount < s.maxSessions)
    (hleft : s.nextSeid ≠ maxSeid) :
    ∃ t s', handleMessage msg nodeIp s nowNanos peer =
        (some (sessionEstablishmentResponse cpSeid msg.sequence .requestAccepted nodeIp s.nextSeid
          ({ pdrId := 1, fTeid := .ipv4 t.n3Teid nodeIp } ::
            (t.dlIngressTeid.map fun dl =>
              ({ pdrId := DOWNLINK_PDR_ID, fTeid := .ipv4 dl nodeIp } : CreatedPdr)).toList)), s') ∧
      Opened s peer t s' ∧
      t = UpfState.newSession s.nextTeid cpSeid peer (ueAddrOf msg) (ambrOf msg)
        (parseCreatedFlows msg) (usageThresholdOf msg) nowNanos (uplinkOf msg) (parseBranches msg)
        (if wantsDlIngress msg then some (s.nextTeid + 1) else none) := by
  have hceiling : ¬ s.maxSessions ≤ s.sessionCount := by omega
  simp only [handleMessage, htype, handleEstablishment, hfseid, if_neg hceiling,
    UpfState.establish, dif_neg hleft]
  exact ⟨UpfState.newSession s.nextTeid cpSeid peer (ueAddrOf msg) (ambrOf msg)
    (parseCreatedFlows msg) (usageThresholdOf msg) nowNanos (uplinkOf msg) (parseBranches msg)
    (if wantsDlIngress msg then some (s.nextTeid + 1) else none), _, rfl,
    ⟨rfl, rfl, hleft, rfl, rfl, rfl, rfl, rfl⟩, rfl⟩

/-- The answer to an establishment names the session. -/
theorem parse_sessionEstablishmentResponse {D : Type} {codec : Codec D} {cpSeid : Seid} {seq : Nat}
    {nodeIp : Ipv4Addr} {upSeid : Seid} {n3Teid : Teid} {dlIngressTeid : Option Teid}
    {answer : Message} (hanswer : answer = sessionEstablishmentResponse cpSeid seq .requestAccepted
      nodeIp upSeid ({ pdrId := 1, fTeid := .ipv4 n3Teid nodeIp } ::
        (dlIngressTeid.map fun dl =>
          ({ pdrId := DOWNLINK_PDR_ID, fTeid := .ipv4 dl nodeIp } : CreatedPdr)).toList))
    (htrips : codec.RoundTrips answer) :
    parseSessionEstablishmentResponse codec (codec.marshal answer) =
      some { upSeid, n3Teid, n3Addr := nodeIp
             dlIngress := dlIngressTeid.map fun teid => (teid, nodeIp) } := by
  rw [Codec.RoundTrips] at htrips
  simp only [parseSessionEstablishmentResponse, htrips]
  subst hanswer
  cases dlIngressTeid <;> rfl

/-- What is read in a request is what is installed. -/
theorem installed {D : Type} {codec : Codec D} {s : UpfState} {cpSeid : Seid} {nodeIp : Ipv4Addr}
    {nowNanos : Nat} {peer : Option IpAddr} {meant : Provisioned}
    (htype : msg.msgType = .sessionEstablishmentRequest) (hfseid : msg.fseids.head?.join = some cpSeid)
    (hroom : s.sessionCount < s.maxSessions) (hleft : s.nextSeid ≠ maxSeid)
    (hrequest : codec.RoundTrips msg)
    (hanswer : ∀ m, (handleMessage msg nodeIp s nowNanos peer).1 = some m → codec.RoundTrips m)
    (hmeant : msg.provisioned = meant) :
    Installed codec s (handleN4From codec (codec.marshal msg) nodeIp s nowNanos peer) nodeIp
      meant := by
  obtain ⟨t, s', hhandle, hopened, ht⟩ :=
    handleMessage_establishes nodeIp nowNanos peer htype hfseid hroom hleft
  have htrips := hanswer _ (by rw [hhandle])
  have hparse := parse_sessionEstablishmentResponse rfl htrips
  rw [Codec.RoundTrips] at hrequest
  simp only [handleN4From, hrequest, hhandle]
  refine ⟨t, s.fresh _ (BitVec.le_refl _), hopened.sessions, ?_, hparse⟩
  rw [← hmeant, ht, provisioned_newSession]
  cases hdl : wantsDlIngress msg <;> simp [Message.provisioned, hdl]

theorem parseBranches_basic {cpSeid : Seid} {seq : Nat} {smfIp : Ipv4Addr} {ue : UeAddr} {dnn : String}
    {ambr : Option SessionAmbr} {flows : List FlowQer} {usageThreshold : Option Nat} :
    parseBranches (sessionEstablishmentRequest cpSeid seq smfIp ue dnn ambr flows usageThreshold) = [] := by
  apply parseBranches_none
  intro pdr hpdr
  simp only [sessionEstablishmentRequest, List.mem_cons, List.mem_map] at hpdr
  rcases hpdr with rfl | rfl | ⟨f, -, rfl⟩
  · simp [ULCL_PDR_BASE]
  · simp [ULCL_PDR_BASE]
  · exact pdrId_flow f

/-- A basic request is read as it was meant. -/
theorem provisioned_basic (cpSeid : Seid) (seq : Nat) (smfIp : Ipv4Addr) (ue : UeAddr)
    (dnn : String) (ambr : Option SessionAmbr) {flows : List FlowQer}
    (usageThreshold : Option Nat) (hqfis : (flows.map FlowQer.qfi).Nodup) :
    (sessionEstablishmentRequest cpSeid seq smfIp ue dnn ambr flows usageThreshold).provisioned =
      { ue, ambr, flows, usageThreshold, egress := .toN6, branches := [], dlIngress := false } := by
  have hflows : parseCreatedFlows (sessionEstablishmentRequest cpSeid seq smfIp ue dnn ambr flows
      usageThreshold) = flows := by
    apply parseCreatedFlows_flows (show _ = [_, _] ++ _ from rfl) rfl
    · simp
    · cases ambr <;> simp [AMBR_QER_ID, PER_FLOW_QER_BASE]
    · cases ambr <;> simp
    · exact hqfis
  have hambr : ambrOf (sessionEstablishmentRequest cpSeid seq smfIp ue dnn ambr flows
      usageThreshold) = ambr := by
    cases ambr with
    | none =>
      have hnone : (flows.map fun f => (flowCreateIes f).1).find?
          (fun q => q.qerId == AMBR_QER_ID) = none := by
        rw [List.find?_eq_none]
        intro q hq
        obtain ⟨f, -, rfl⟩ := List.mem_map.mp hq
        simp only [flowCreateIes, PER_FLOW_QER_BASE, AMBR_QER_ID, beq_iff_eq]
        omega
      simp [ambrOf, sessionEstablishmentRequest, hnone]
    | some a => simp [ambrOf, sessionEstablishmentRequest]
  have hdl : wantsDlIngress (sessionEstablishmentRequest cpSeid seq smfIp ue dnn ambr flows
      usageThreshold) = false := by
    simp [wantsDlIngress, sessionEstablishmentRequest, DOWNLINK_PDR_ID, flowCreateIes]
  have hthreshold : usageThresholdOf (sessionEstablishmentRequest cpSeid seq smfIp ue dnn ambr
      flows usageThreshold) = usageThreshold := by
    cases usageThreshold <;> rfl
  simp only [Message.provisioned, hflows, parseBranches_basic, hambr, hdl, hthreshold, List.map_nil]
  rfl

theorem parseBranches_viaPeer {cpSeid : Seid} {seq : Nat} {smfIp : Ipv4Addr} {ue : UeAddr} {dnn : String}
    {peerTeid : Teid} {peerAddr : Ipv4Addr} {branches : List (FlowFilter × Egress)}
    (hlen : branches.length ≤ 1000) :
    parseBranches (sessionEstablishmentRequestViaPeer cpSeid seq smfIp ue dnn peerTeid peerAddr
      branches) = numbered branches := by
  apply parseBranches_branches hlen (show _ = [_, _] ++ _ from rfl) (show _ = [_, _] ++ _ from rfl)
  · simp [ULCL_PDR_BASE, DOWNLINK_PDR_ID]
  · simp [ULCL_FAR_BASE, UPLINK_FAR_ID]
  · simp [UPLINK_FAR_ID]

/-- A request for an intermediate UPF is read as it was meant. -/
theorem provisioned_viaPeer (cpSeid : Seid) (seq : Nat) (smfIp : Ipv4Addr) (ue : UeAddr)
    (dnn : String) (peerTeid : Teid) (peerAddr : Ipv4Addr) {branches : List (FlowFilter × Egress)}
    (hlen : branches.length ≤ 1000) :
    (sessionEstablishmentRequestViaPeer cpSeid seq smfIp ue dnn peerTeid peerAddr
      branches).provisioned =
      { ue, ambr := none, flows := [], usageThreshold := none, egress := .toPeer peerTeid peerAddr
        branches, dlIngress := true } := by
  have hnumbered : ((numbered branches).map fun b => b.2) = branches := by
    rw [numbered, List.map_map]
    exact List.zipIdx_map_fst 0 branches
  have hflows : parseCreatedFlows (sessionEstablishmentRequestViaPeer cpSeid seq smfIp ue dnn
      peerTeid peerAddr branches) = [] := by
    rw [parseCreatedFlows, List.filterMap_eq_nil_iff]
    intro pdr hpdr
    apply createdFlow_none
    simp only [sessionEstablishmentRequestViaPeer, List.mem_cons, List.mem_map] at hpdr
    rcases hpdr with rfl | rfl | ⟨rule, hrule, rfl⟩
    · exact Or.inl rfl
    · exact Or.inl rfl
    · obtain ⟨b, -, rfl⟩ := mem_branchRules.mp hrule
      exact Or.inr rfl
  simp only [Message.provisioned, hflows, parseBranches_viaPeer hlen, hnumbered]
  rfl

/-- What an SMF asks for in either form of the request is what the UPF installs and answers. -/
theorem establishment_installs {D : Type} (codec : Codec D) (s : UpfState) (nodeIp : Ipv4Addr)
    (nowNanos : Nat) (peer : Option IpAddr) (cpSeid : Seid) (seq : Nat) (smfIp : Ipv4Addr)
    (ue : UeAddr) (dnn : String) (hroom : s.sessionCount < s.maxSessions)
    (hleft : s.nextSeid ≠ maxSeid) :
    (∀ ambr flows usageThreshold, (flows.map FlowQer.qfi).Nodup →
      let msg := sessionEstablishmentRequest cpSeid seq smfIp ue dnn ambr flows usageThreshold
      codec.RoundTrips msg →
      (∀ m, (handleMessage msg nodeIp s nowNanos peer).1 = some m → codec.RoundTrips m) →
      Installed codec s (handleN4From codec (codec.marshal msg) nodeIp s nowNanos peer) nodeIp
        { ue, ambr, flows, usageThreshold, egress := .toN6, branches := [], dlIngress := false }) ∧
    (∀ peerTeid peerAddr (branches : List (FlowFilter × Egress)), branches.length ≤ 1000 →
      let msg := sessionEstablishmentRequestViaPeer cpSeid seq smfIp ue dnn peerTeid peerAddr
        branches
      codec.RoundTrips msg →
      (∀ m, (handleMessage msg nodeIp s nowNanos peer).1 = some m → codec.RoundTrips m) →
      Installed codec s (handleN4From codec (codec.marshal msg) nodeIp s nowNanos peer) nodeIp
        { ue, ambr := none, flows := [], usageThreshold := none
          egress := .toPeer peerTeid peerAddr, branches, dlIngress := true }) := by
  constructor
  · intro ambr flows usageThreshold hqfis msg hrequest hanswer
    exact installed rfl rfl hroom hleft hrequest hanswer (provisioned_basic _ _ _ _ _ _ _ hqfis)
  · intro peerTeid peerAddr branches hlen msg hrequest hanswer
    exact installed rfl rfl hroom hleft hrequest hanswer (provisioned_viaPeer _ _ _ _ _ _ _ hlen)

/-- Messages handed over as they are. -/
def Codec.direct : Codec Message := { parse := some, marshal := fun m => m }

/-- Voice on QFI 5 and a blocked flow on QFI 1, then a node with an IPv6 branch. -/
theorem establishment_installs_first :
    let s := UpfState.withRecoveryTime 0
    let voice : FlowQer :=
      { qfi := 5, filter := .transport 17 5000 5010, mfbrDlBps := 64000, mfbrUlBps := 64000
        gate := .OPEN }
    let blocked : FlowQer :=
      { voice with qfi := 1, filter := .transport 6 80 80, gate := ⟨true, false⟩ }
    let ue : UeAddr := { v4 := some 0x0A2D0002, v6 := none }
    let branch : FlowFilter × Egress := (.toPrefix ⟨.v6 (0x20010db8 <<< 96), 32⟩, .toPeer 7 0x0A000005)
    let basic := sessionEstablishmentRequest 1 1 0x0A000001 ue "internet" (some ⟨1000, 2000⟩)
      [voice, blocked] (some 4096)
    let viaPeer := sessionEstablishmentRequestViaPeer 1 1 0x0A000001 ue "internet" 9 0x0A000004
      [branch]
    Installed Codec.direct s (handleN4From Codec.direct basic 0x0A000003 s 0 none) 0x0A000003
        { ue, ambr := some ⟨1000, 2000⟩, flows := [voice, blocked], usageThreshold := some 4096
          egress := .toN6, branches := [], dlIngress := false } ∧
      Installed Codec.direct s (handleN4From Codec.direct viaPeer 0x0A000003 s 0 none) 0x0A000003
        { ue, ambr := none, flows := [], usageThreshold := none, egress := .toPeer 9 0x0A000004
          branches := [branch], dlIngress := true } := by
  intro s voice blocked ue branch basic viaPeer
  have h := establishment_installs Codec.direct s 0x0A000003 0 none 1 1 0x0A000001 ue "internet"
    (by decide) (by decide)
  exact ⟨h.1 _ _ _ (by decide) rfl fun _ _ => rfl, h.2 _ _ [branch] (by decide) rfl fun _ _ => rfl⟩

end Radian.Pfcp
