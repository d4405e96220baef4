import Radian.Smf.Nodes

/-!
# The wiring of a session

What the traffic of a session follows: its tunnels, its addresses and where its rules forward to.  All
that is measured, policed or held is left out.

- `Wiring` — the tunnels, the addresses and the forwarding rules.
- `Change.rewire` — what a change of a session does to its wiring.
- `N4Request.rewire`, `N4Request.wires` — what the SMF's requests do: on a session that is there, and
  by way of a new one.
- `wiring_modify_request`, `wiring_newSession` — that is what the handler makes of their messages.
-/

namespace Radian.Pfcp

structure Wiring where
  n3Teid : Teid
  dlIngressTeid : Option Teid
  ue : UeAddr
  downlink : Option (Teid × Ipv4Addr)
  uplink : Egress
  branches : List Branch
  deriving DecidableEq, Repr

def Session.wiring (t : Session) : Wiring where
  n3Teid := t.n3Teid
  dlIngressTeid := t.dlIngressTeid
  ue := { v4 := t.ueIp, v6 := t.ueIpv6 }
  downlink := t.downlink
  uplink := t.uplink
  branches := t.branches

/-! ### Changes -/

namespace Change

/-- What a change does to the wiring. -/
def rewire (u : Wiring) : Change → Wiring
  | .setDownlink gnb => { u with downlink := some gnb }
  | .clearDownlink => { u with downlink := none }
  | .addBranch b =>
      { u with
        branches := ((u.branches.filter fun b' => b'.1 != b.1) ++ [b]).insertionSort
          fun a b => a.1 ≤ b.1 }
  | .removeBranch id => { u with branches := u.branches.filter fun b => b.1 != id }
  | _ => u

def rewireAll (u : Wiring) (changes : List Change) : Wiring := changes.foldl rewire u

theorem wiring_apply (nowNanos : Nat) (t : Session) (c : Change) :
    (c.apply nowNanos t).wiring = c.rewire t.wiring := by
  cases c <;> rfl

theorem wiring_applyAll (nowNanos : Nat) (t : Session) (changes : List Change) :
    (applyAll nowNanos t changes).wiring = rewireAll t.wiring changes := by
  induction changes generalizing t with
  | nil => rfl
  | cons c changes ih =>
    have hrest := ih (c.apply nowNanos t)
    rw [wiring_apply] at hrest
    exact hrest

/-- Changes that leave the wiring alone. -/
theorem rewireAll_of_forall {changes : List Change} {u : Wiring} (h : ∀ c ∈ changes, c.rewire u = u) :
    rewireAll u changes = u := by
  induction changes with
  | nil => rfl
  | cons c changes ih =>
    rw [rewireAll, List.foldl_cons, h c List.mem_cons_self]
    exact ih fun c' hc' => h c' (List.mem_cons_of_mem c hc')

end Change

theorem wiring_modify (msg : Message) (nowNanos : Nat) (t : Session) :
    (t.modify msg nowNanos).wiring = Change.rewireAll t.wiring (changesOf msg) := by
  rw [modify_eq_foldl, Change.wiring_applyAll]

/-! ### Requests -/

/-- The id of a branch, in 16 bits. -/
def branchId (index : Nat) : Nat := (ULCL_PDR_BASE + index % 2 ^ 16) % 2 ^ 16

namespace N4Request

/-- The session a request is about, unless it opens one. -/
def target : N4Request → Option Seid
  | sessionModification upSeid .. => some upSeid
  | sessionDeactivate upSeid _ => some upSeid
  | sessionQerUpdate upSeid _ => some upSeid
  | sessionFlowModification upSeid .. => some upSeid
  | sessionModificationAddBranch upSeid .. => some upSeid
  | sessionModificationRemoveBranch upSeid _ => some upSeid
  | sessionDeletion upSeid => some upSeid
  | _ => none

/-- What a modification does to the wiring of the session it is about. -/
def rewire (u : Wiring) : N4Request → Wiring
  | sessionModification _ farId teid addr _ _ =>
      if farId = DOWNLINK_FAR_ID then { u with downlink := some (teid, addr) } else u
  | sessionDeactivate _ farId => if farId = DOWNLINK_FAR_ID then { u with downlink := none } else u
  | sessionModificationAddBranch _ index filter egress _ =>
      -- an id that wraps is not one of a branch
      if ULCL_PDR_BASE ≤ branchId index then
        Change.rewire u (.addBranch (branchId index, filter, egress))
      else u
  | sessionModificationRemoveBranch _ index =>
      if ULCL_PDR_BASE ≤ branchId index then Change.rewire u (.removeBranch (branchId index)) else u
  | _ => u

/-- The wiring of a session that a request opens, as its message is read. -/
def wires (req : N4Request) (n3Teid : Teid) (dlIngressTeid : Option Teid) : Wiring where
  n3Teid := n3Teid
  dlIngressTeid := dlIngressTeid
  ue := ueAddrOf (req.message 0 0)
  downlink := none
  uplink := uplinkOf (req.message 0 0)
  branches := parseBranches (req.message 0 0)

/-- Whether a request asks for an N9 ingress. -/
def wantsDlIngress (req : N4Request) : Bool := Pfcp.wantsDlIngress (req.message 0 0)

end N4Request

/-! ### What the handler makes of them -/

section Handler

variable {upSeid : Seid} {seq : Nat} {dnn : String}

theorem changes_sessionModification (farId : Nat) (teid : Teid) (addr : Ipv4Addr) (endMarker : Bool) :
    changesOf (sessionModificationRequest upSeid seq farId teid addr dnn endMarker) =
      if farId = DOWNLINK_FAR_ID then [.setDownlink (teid, addr)] else [] := by
  by_cases hfar : farId = DOWNLINK_FAR_ID
  · rw [if_pos hfar, hfar]
    rfl
  · have hnone : downlinkUpdateOf (sessionModificationRequest upSeid seq farId teid addr dnn
        endMarker) = none := by
      simp [downlinkUpdateOf, sessionModificationRequest, hfar]
    rw [if_neg hfar, changesOf, downlinkChanges, hnone]
    rfl

theorem changes_sessionDeactivate (farId : Nat) :
    changesOf (sessionDeactivateRequest upSeid seq farId) =
      if farId = DOWNLINK_FAR_ID then [.clearDownlink] else [] := by
  by_cases hfar : farId = DOWNLINK_FAR_ID
  · rw [if_pos hfar, hfar]
    rfl
  · have hnone : downlinkUpdateOf (sessionDeactivateRequest upSeid seq farId) = none := by
      simp [downlinkUpdateOf, sessionDeactivateRequest, hfar]
    rw [if_neg hfar, changesOf, downlinkChanges, hnone]
    rfl

/-- Policers are none of the wiring. -/
theorem rewire_qerChanges (u : Wiring) (uq : UpdateQer) : ∀ c ∈ qerChanges uq, c.rewire u = u := by
  obtain ⟨qerId, mbr, gateStatus⟩ := uq
  intro c hc
  unfold qerChanges at hc
  split at hc
  · cases mbr with
    | none => cases hc
    | some m =>
      obtain rfl := List.mem_singleton.mp hc
      rfl
  · cases mbr <;> cases gateStatus <;> simp at hc
    · rw [hc]
      rfl
    · rw [hc]
      rfl
    · rcases hc with rfl | rfl <;> rfl

theorem rewire_sessionQerUpdate (ambr : SessionAmbr) (u : Wiring) :
    Change.rewireAll u (changesOf (sessionQerUpdateRequest upSeid seq ambr)) = u := rfl

/-- The rules of flows do not touch the wiring. -/
theorem rewire_sessionFlowModification (create update : List FlowQer) (removeQfis : List UInt8)
    (u : Wiring) :
    Change.rewireAll u
      (changesOf (sessionFlowModificationRequest upSeid seq create update removeQfis)) = u := by
  have hdownlink : downlinkChanges (sessionFlowModificationRequest upSeid seq create update
      removeQfis) = [] := rfl
  apply Change.rewireAll_of_forall
  intro c hc
  rw [changesOf, ruleChanges, parseBranches_request, removePdrs_request, hdownlink] at hc
  simp only [List.map_nil, List.append_nil, List.nil_append, List.mem_append, List.mem_map,
    List.mem_flatMap] at hc
  rcases hc with (⟨id, -, rfl⟩ | ⟨f, -, rfl⟩) | ⟨uq, -, hc⟩
  · rfl
  · rfl
  · exact rewire_qerChanges u uq c hc

theorem changes_sessionModificationAddBranch (index : Nat) (filter : FlowFilter) (egress : Egress) :
    changesOf (sessionModificationAddBranch upSeid seq index filter egress dnn) =
      if ULCL_PDR_BASE ≤ branchId index then [.addBranch (branchId index, filter, egress)]
      else [] := by
  let pdr := (branchCreateIes index filter egress dnn).1
  have hmsg : (sessionModificationAddBranch upSeid seq index filter egress dnn).createPdrs = [pdr] :=
    rfl
  have hid : pdr.pdrId = branchId index := rfl
  have hflows : parseCreatedFlows (sessionModificationAddBranch upSeid seq index filter egress
      dnn) = [] := by
    rw [parseCreatedFlows, List.filterMap_eq_nil_iff, hmsg]
    intro pdr' hpdr
    obtain rfl := List.mem_singleton.mp hpdr
    exact createdFlow_none (Or.inr rfl)
  have hbranches : parseBranches (sessionModificationAddBranch upSeid seq index filter egress dnn) =
      if ULCL_PDR_BASE ≤ branchId index then [(branchId index, filter, egress)] else [] := by
    rw [parseBranches, hmsg]
    split
    · rename_i hle
      have hfar : Keyed.collect
          (farEgress (sessionModificationAddBranch upSeid seq index filter egress dnn))
          (branchCreateIes index filter egress dnn).2.farId = some egress := by
        have hegress := branch_egress index filter egress dnn
        simp [Keyed.collect, farEgress, sessionModificationAddBranch, hegress]
      have hkept : [pdr].filter (fun pdr => ULCL_PDR_BASE ≤ pdr.pdrId) = [pdr] := by
        simp [hid, hle]
      rw [hkept, List.insertionSort_cons, List.insertionSort_nil, List.orderedInsert_nil,
        List.filterMap_cons_some (createdBranch_ies hfar), List.filterMap_nil]
      rfl
    · rename_i hlt
      have hdropped : [pdr].filter (fun pdr => ULCL_PDR_BASE ≤ pdr.pdrId) = [] := by
        simp [hid, hlt]
      rw [hdropped]
      rfl
  rw [changesOf, ruleChanges, hflows, hbranches]
  split <;> rfl

theorem changes_sessionModificationRemoveBranch (index : Nat) :
    changesOf (sessionModificationRemoveBranch upSeid seq index) =
      if ULCL_PDR_BASE ≤ branchId index then [.removeBranch (branchId index)] else [] := by
  have hremoved : (sessionModificationRemoveBranch upSeid seq index).removePdrs = [branchId index] :=
    rfl
  have hkept : [branchId index].filter (fun id => ULCL_PDR_BASE ≤ id) =
      if ULCL_PDR_BASE ≤ branchId index then [branchId index] else [] := by
    rw [List.filter_singleton, Bool.cond_decide]
  rw [changesOf, ruleChanges, hremoved, hkept]
  split <;> rfl

end Handler

/-! ### Sessions that are opened and changed -/

section Request

variable {req : N4Request} {smfIp : Ipv4Addr} {seq : Nat}

/-- A modification does to the wiring what the request says. -/
theorem wiring_modify_request (t : Session) (nowNanos : Nat)
    (hopens : req.opens = false) (hdeletes : req.deletes = none) :
    (t.modify (req.message smfIp seq) nowNanos).wiring = req.rewire t.wiring := by
  rw [wiring_modify]
  cases req with
  | sessionModification upSeid farId teid addr dnn endMarker =>
    rw [N4Request.message, changes_sessionModification, N4Request.rewire]
    split <;> rfl
  | sessionDeactivate upSeid farId =>
    rw [N4Request.message, changes_sessionDeactivate, N4Request.rewire]
    split <;> rfl
  | sessionQerUpdate upSeid ambr => exact rewire_sessionQerUpdate ambr t.wiring
  | sessionFlowModification upSeid create update remove =>
    exact rewire_sessionFlowModification create update remove t.wiring
  | sessionModificationAddBranch upSeid index filter egress dnn =>
    rw [N4Request.message, changes_sessionModificationAddBranch, N4Request.rewire]
    split <;> rfl
  | sessionModificationRemoveBranch upSeid index =>
    rw [N4Request.message, changes_sessionModificationRemoveBranch, N4Request.rewire]
    split <;> rfl
  | sessionDeletion upSeid => cases hdeletes
  | _ => cases hopens

theorem msgType_message (hopens : req.opens = false) (hdeletes : req.deletes = none) :
    (req.message smfIp seq).msgType = .sessionModificationRequest := by
  cases req with
  | sessionDeletion upSeid => cases hdeletes
  | sessionEstablishment => cases hopens
  | sessionEstablishmentViaPeer => cases hopens
  | sessionEstablishmentIndirectForwarding => cases hopens
  | _ => rfl

theorem msgType_message_opens (hopens : req.opens = true) :
    (req.message smfIp seq).msgType = .sessionEstablishmentRequest := by
  cases req <;> first | rfl | cases hopens

/-- A request that opens no session is about one. -/
theorem seid_message (smfIp : Ipv4Addr) (seq : Nat) (hopens : req.opens = false) :
    ∃ upSeid, req.target = some upSeid ∧ (req.message smfIp seq).seid = some upSeid := by
  cases req with
  | sessionEstablishment => cases hopens
  | sessionEstablishmentViaPeer => cases hopens
  | sessionEstablishmentIndirectForwarding => cases hopens
  | _ => exact ⟨_, rfl, rfl⟩

/-- A request that opens one names the SMF's own SEID. -/
theorem fseid_message (smfIp : Ipv4Addr) (seq : Nat) (hopens : req.opens = true) :
    ∃ cpSeid, (req.message smfIp seq).fseids.head?.join = some cpSeid := by
  cases req with
  | sessionEstablishment => exact ⟨_, rfl⟩
  | sessionEstablishmentViaPeer => exact ⟨_, rfl⟩
  | sessionEstablishmentIndirectForwarding => exact ⟨_, rfl⟩
  | _ => cases hopens

/-- The wiring of a session that is opened, whoever asks and when. -/
theorem wiring_newSession (n3Teid : Teid) (cpSeid : Seid) (peer : Option IpAddr) (nowNanos : Nat)
    (dlIngressTeid : Option Teid) :
    (UpfState.newSession n3Teid cpSeid peer (ueAddrOf (req.message smfIp seq))
      (ambrOf (req.message smfIp seq)) (parseCreatedFlows (req.message smfIp seq))
      (usageThresholdOf (req.message smfIp seq)) nowNanos (uplinkOf (req.message smfIp seq))
      (parseBranches (req.message smfIp seq)) dlIngressTeid).wiring =
        req.wires n3Teid dlIngressTeid := by
  cases req <;> rfl

theorem wantsDlIngress_message (req : N4Request) (smfIp : Ipv4Addr) (seq : Nat) :
    wantsDlIngress (req.message smfIp seq) = req.wantsDlIngress := by
  cases req <;> rfl

end Request

section Wires

variable (cpSeid : Seid) (ue : UeAddr) (dnn : String) (n3Teid : Teid) (dlIngressTeid : Option Teid)

/-- A basic session leads to the data network. -/
theorem wires_sessionEstablishment (ambr : Option SessionAmbr) (flows : List FlowQer)
    (usageThreshold : Option Nat) :
    (N4Request.sessionEstablishment cpSeid ue dnn ambr flows usageThreshold).wires n3Teid
        dlIngressTeid =
      { n3Teid, dlIngressTeid, ue, downlink := none, uplink := .toN6, branches := [] } := by
  rw [N4Request.wires, N4Request.message, parseBranches_basic]
  rfl

/-- An intermediate one leads to its peer, but for its branches. -/
theorem wires_sessionEstablishmentViaPeer (peerTeid : Teid) (peerAddr : Ipv4Addr)
    {branches : List (FlowFilter × Egress)} (hlen : branches.length ≤ 1000) :
    (N4Request.sessionEstablishmentViaPeer cpSeid ue dnn peerTeid peerAddr branches).wires n3Teid
        dlIngressTeid =
      { n3Teid, dlIngressTeid, ue, downlink := none, uplink := .toPeer peerTeid peerAddr
        branches := numbered branches } := by
  rw [N4Request.wires, N4Request.message, parseBranches_viaPeer hlen]
  rfl

end Wires

end Radian.Pfcp
