import Radian.Keyed.Ordered
import Radian.Pfcp.Establishment
import Radian.Smf.Update

/-!
# Incremental flow updates

A Session Modification built from the difference of two policies, against a fresh establishment with
the second one.

- `qers_modify` — what a flow modification does to the list of flows at the UPF.
- `updated_eq` — the flows kept, in order, then the flows created, in order.
- `flow_update_equals_fresh_iff` — when every packet is classified as after a fresh establishment.
-/

namespace Radian.Smf

open Npcf (SmPolicyDecision)
open Pfcp (FlowQer FlowEnforcer FlowFilter Session UpfState Packet PacketKey Gate Seid Ipv4Addr
  IpAddr UeAddr SessionAmbr packetKey handleMessage sessionEstablishmentRequest
  sessionFlowModificationRequest)

/-! ### Flows of a policy -/

abbrev Ordered : List FlowQer → Prop := Keyed.Ordered fun f : FlowQer => f.qfi.toNat

theorem nodup_qfi {l : List FlowQer} (h : Ordered l) : (l.map FlowQer.qfi).Nodup := by
  have hkeys := h.nodup
  rw [show (l.map fun f => f.qfi.toNat) = (l.map FlowQer.qfi).map UInt8.toNat by
    rw [List.map_map]; rfl] at hkeys
  exact List.Nodup.of_map _ hkeys

/-- The flows of a policy with distinct QFIs are in order of their QFIs. -/
theorem ordered_flowQers {d : SmPolicyDecision} (h : ((flowQers d).map FlowQer.qfi).Nodup) :
    Ordered (flowQers d) := by
  have htotal : Std.Total fun f g : Npcf.QosFlowPolicy => f.qfi ≤ g.qfi :=
    ⟨fun f g => UInt8.le_total f.qfi g.qfi⟩
  have htrans : IsTrans Npcf.QosFlowPolicy fun f g => f.qfi ≤ g.qfi :=
    ⟨fun f g i hfg hgi => UInt8.le_trans hfg hgi⟩
  have hflows : d.qosFlows.Pairwise fun f g => f.qfi ≤ g.qfi := List.pairwise_insertionSort _ _
  -- the QER of a flow has its QFI
  have hqer : ∀ (f : Npcf.QosFlowPolicy) (r : FlowQer), (do
      let gbr ← f.gbr
      let filter ← f.filter
      let mfbrDlBps ← Npcf.bitrateToBps gbr.mfbrDl
      let mfbrUlBps ← Npcf.bitrateToBps gbr.mfbrUl
      return ({ qfi := f.qfi
                filter := FlowFilter.transport filter.protocol filter.portLow filter.portHigh
                mfbrDlBps, mfbrUlBps
                gate := { uplink := f.flowStatus.gate.1, downlink := f.flowStatus.gate.2 } } :
        FlowQer)) = some r → r.qfi = f.qfi := by
    intro f r hr
    simp only [Option.bind_eq_bind, Option.bind_eq_some_iff, pure, Option.some.injEq] at hr
    obtain ⟨gbr, -, filter, -, dl, -, ul, -, rfl⟩ := hr
    rfl
  apply Keyed.ordered_of_le
  · apply hflows.filterMap
    intro f g hle r hr r' hr'
    rw [hqer f r hr, hqer g r' hr']
    exact hle
  · have hmap := h.map (f := UInt8.toNat) fun a b hab => UInt8.toNat_inj.mp hab
    rwa [List.map_map] at hmap

/-! ### A flow modification at the UPF -/

/-- Drop the flow of a QFI. -/
def without (q : UInt8) (l : List FlowQer) : List FlowQer := l.filter fun e => e.qfi != q

/-- A flow with another's rates and gate. -/
def rerated (n e : FlowQer) : FlowQer :=
  { e with mfbrDlBps := n.mfbrDlBps, mfbrUlBps := n.mfbrUlBps, gate := n.gate }

/-- Re-rate and gate the first flow of a QFI. -/
def rerate (n : FlowQer) : List FlowQer → List FlowQer
  | [] => []
  | e :: es => if e.qfi = n.qfi then rerated n e :: es else e :: rerate n es

/-- Remove, then create, then update. -/
def applyFlows (create update : List FlowQer) (remove : List UInt8) (l : List FlowQer) :
    List FlowQer :=
  let l := remove.foldl (fun l q => without q l) l
  let l := create.foldl (fun l f => without f.qfi l ++ [f]) l
  update.foldl (fun l n => rerate n l) l

/-- The flows a session enforces. -/
def qers (t : Session) : List FlowQer := t.flowQers.map FlowEnforcer.qer

theorem map_qer_filter (l : List FlowEnforcer) (q : UInt8) :
    (l.filter fun e => e.qfi != q).map FlowEnforcer.qer = without q (l.map FlowEnforcer.qer) := by
  rw [without, List.filter_map]
  rfl

theorem qers_removeFlow (t : Session) (q : UInt8) : qers (t.removeFlow q) = without q (qers t) :=
  map_qer_filter t.flowQers q

theorem qers_addFlow (t : Session) (f : FlowQer) (nowNanos : Nat) :
    qers (t.addFlow f nowNanos) = without f.qfi (qers t) ++ [f] := by
  simp only [qers, Session.addFlow, List.map_append, map_qer_filter, List.map_cons, List.map_nil,
    FlowEnforcer.qer_new]

/-- An update's rates, then its gate. -/
theorem qers_update (t : Session) (n : FlowQer) (nowNanos : Nat) :
    qers ((t.updateFlowRate n.qfi n.mfbrDlBps n.mfbrUlBps nowNanos).setFlowGate n.qfi n.gate) =
      rerate n (qers t) := by
  simp only [qers, Session.updateFlowRate, Session.setFlowGate]
  generalize t.flowQers = l
  induction l with
  | nil => rfl
  | cons e l ih =>
    by_cases hqfi : e.qfi = n.qfi
    · simp [FlowEnforcer.updateFirst, rerate, rerated, FlowEnforcer.qer, FlowEnforcer.setRate,
        hqfi]
    · simp only [FlowEnforcer.updateFirst, hqfi, if_false, List.map_cons, ih]
      rw [rerate, if_neg (show ¬ e.qer.qfi = n.qfi from hqfi)]

section Modification

variable {create update : List FlowQer} {remove : List UInt8} {upSeid : Seid} {seq : Nat}

theorem removeQers_request :
    ((sessionFlowModificationRequest upSeid seq create update remove).removeQers.filter
      fun id => id != Pfcp.AMBR_QER_ID) = remove.map fun q => Pfcp.PER_FLOW_QER_BASE + q.toNat := by
  apply List.filter_eq_self.mpr
  intro id hid
  obtain ⟨q, -, rfl⟩ := List.mem_map.mp hid
  simp only [bne_iff_ne, Pfcp.PER_FLOW_QER_BASE, Pfcp.AMBR_QER_ID]
  omega

theorem parseCreatedFlows_request (hcreate : (create.map FlowQer.qfi).Nodup) :
    Pfcp.parseCreatedFlows (sessionFlowModificationRequest upSeid seq create update remove) =
      create := by
  apply Pfcp.parseCreatedFlows_flows (show _ = [] ++ _ from rfl) (show _ = [] ++ _ from rfl)
  · simp
  · simp
  · simp
  · exact hcreate

theorem applyUpdateQer_request (t : Session) (n : FlowQer) (nowNanos : Nat) :
    t.applyUpdateQer nowNanos
        { qerId := Pfcp.PER_FLOW_QER_BASE + n.qfi.toNat
          mbr := some { uplink := n.mfbrUlBps, downlink := n.mfbrDlBps }
          gateStatus := some n.gate } =
      (t.updateFlowRate n.qfi n.mfbrDlBps n.mfbrUlBps nowNanos).setFlowGate n.qfi n.gate := by
  have hid : Pfcp.PER_FLOW_QER_BASE + n.qfi.toNat ≠ Pfcp.AMBR_QER_ID := by
    simp only [Pfcp.PER_FLOW_QER_BASE, Pfcp.AMBR_QER_ID]
    omega
  simp only [Session.applyUpdateQer, if_neg hid, Pfcp.qfiOfQerId_base]

/-- A flow modification changes the flows of a session. -/
theorem qers_modify (t : Session) (nowNanos : Nat) (hcreate : (create.map FlowQer.qfi).Nodup) :
    qers (t.modify (sessionFlowModificationRequest upSeid seq create update remove) nowNanos) =
      applyFlows create update remove (qers t) := by
  have hdownlink : t.applyDownlinkUpdate
      (sessionFlowModificationRequest upSeid seq create update remove) = t := rfl
  have hupdates (t : Session) :
      (sessionFlowModificationRequest upSeid seq create update remove).updateQers.foldl
          (Session.applyUpdateQer nowNanos) t =
        update.foldl (fun t n =>
          (t.updateFlowRate n.qfi n.mfbrDlBps n.mfbrUlBps nowNanos).setFlowGate n.qfi n.gate) t := by
    simp only [sessionFlowModificationRequest, List.foldl_map, applyUpdateQer_request]
  simp only [Session.modify, hdownlink, Session.applyRules, removeQers_request,
    Pfcp.removePdrs_request, Pfcp.parseBranches_request, parseCreatedFlows_request hcreate, hupdates,
    List.foldl_nil, applyFlows, List.foldl_map, Pfcp.qfiOfQerId_base]
  rw [List.foldl_hom qers fun t q => (qers_removeFlow t q).symm,
    List.foldl_hom qers fun t f => (qers_addFlow t f nowNanos).symm,
    List.foldl_hom qers fun t n => (qers_update t n nowNanos).symm]

end Modification

/-! ### The difference of two lists of flows -/

/-- Whether the UPF keeps a flow of the new list as it has it: same QFI, same classifier. -/
def keeps (old : List FlowQer) (n : FlowQer) : Bool :=
  old.any fun o => o.qfi == n.qfi && o.filter == n.filter

theorem keeps_iff {old : List FlowQer} {n : FlowQer} :
    keeps old n = true ↔ ∃ o ∈ old, o.qfi = n.qfi ∧ o.filter = n.filter := by
  simp [keeps]

/-- Flows of one QFI in a list with distinct QFIs. -/
theorem eq_of_qfi {l : List FlowQer} (h : Ordered l) {f g : FlowQer} (hf : f ∈ l) (hg : g ∈ l)
    (hqfi : f.qfi = g.qfi) : f = g :=
  List.inj_on_of_nodup_map (nodup_qfi h) hf hg hqfi

section Diff

variable {old new : List FlowQer}

/-- What is created is what is not kept. -/
theorem create_eq (hold : Ordered old) :
    (diffFlows old new).1 = new.filter fun n => !keeps old n := by
  apply List.filter_congr
  intro n _
  rcases hprevious : old.find? fun o => o.qfi == n.qfi with _ | o
  · have hnone : keeps old n = false := by
      rw [Bool.eq_false_iff]
      intro hkeeps
      obtain ⟨o, ho, hqfi, -⟩ := keeps_iff.mp hkeeps
      rw [List.find?_eq_none] at hprevious
      exact hprevious o ho (by simpa using hqfi)
    simp only [hprevious, hnone, Bool.not_false]
  · have ho := List.mem_of_find?_eq_some hprevious
    have hqfi : o.qfi = n.qfi := by simpa using List.find?_some hprevious
    have hkeeps : keeps old n = (o.filter == n.filter) := by
      rw [Bool.eq_iff_iff, keeps_iff, beq_iff_eq]
      constructor
      · rintro ⟨o', ho', hqfi', hfilter⟩
        rw [eq_of_qfi hold ho ho' (hqfi.trans hqfi'.symm), hfilter]
      · intro hfilter
        exact ⟨o, ho, hqfi, hfilter⟩
    simp only [hprevious, hkeeps]
    rfl

/-- What is updated is kept, under another rate or gate. -/
theorem mem_update_iff (hold : Ordered old) {n : FlowQer} :
    n ∈ (diffFlows old new).2.1 ↔ n ∈ new ∧ ∃ o ∈ old, o.qfi = n.qfi ∧ o.filter = n.filter ∧
      o ≠ n := by
  have hdiffers : ∀ o : FlowQer, o.qfi = n.qfi → o.filter = n.filter →
      (((o.mfbrDlBps, o.mfbrUlBps, o.gate) != (n.mfbrDlBps, n.mfbrUlBps, n.gate)) = true ↔
        o ≠ n) := by
    intro o hqfi hfilter
    obtain ⟨qfi, filter, dl, ul, gate⟩ := o
    obtain ⟨qfi', filter', dl', ul', gate'⟩ := n
    subst hqfi hfilter
    simp
  rw [diffFlows, List.mem_filter]
  apply and_congr_right
  intro _
  rcases hprevious : old.find? fun o => o.qfi == n.qfi with _ | o
  · simp only [hprevious, Bool.false_eq_true, false_iff]
    rintro ⟨o, ho, hqfi, -⟩
    rw [List.find?_eq_none] at hprevious
    exact hprevious o ho (by simpa using hqfi)
  · have ho := List.mem_of_find?_eq_some hprevious
    have hqfi : o.qfi = n.qfi := by simpa using List.find?_some hprevious
    simp only [hprevious, Bool.and_eq_true, beq_iff_eq]
    constructor
    · rintro ⟨hfilter, hne⟩
      exact ⟨o, ho, hqfi, hfilter, (hdiffers o hqfi hfilter).mp hne⟩
    · rintro ⟨o', ho', hqfi', hfilter, hne⟩
      obtain rfl := eq_of_qfi hold ho ho' (hqfi.trans hqfi'.symm)
      exact ⟨hfilter, (hdiffers o hqfi hfilter).mpr hne⟩

theorem mem_remove_iff {q : UInt8} :
    q ∈ (diffFlows old new).2.2 ↔ ∃ o ∈ old, keeps new o = false ∧ o.qfi = q := by
  have hremove : (diffFlows old new).2.2 = (old.filter fun o => !keeps new o).map fun o => o.qfi :=
    rfl
  rw [hremove]
  simp only [List.mem_map, List.mem_filter, Bool.not_eq_true', and_assoc]

/-! #### What the UPF is left with -/

theorem foldl_without (remove : List UInt8) (l : List FlowQer) :
    remove.foldl (fun l q => without q l) l = l.filter fun e => !remove.contains e.qfi := by
  induction remove generalizing l with
  | nil => simp
  | cons q remove ih =>
    rw [List.foldl_cons, ih, without, List.filter_filter]
    apply List.filter_congr
    intro e _
    by_cases hq : e.qfi = q
    · simp [hq]
    · simp [hq]

theorem foldl_create {create l : List FlowQer} (hcreate : (create.map FlowQer.qfi).Nodup)
    (hdisjoint : ∀ f ∈ create, ∀ e ∈ l, e.qfi ≠ f.qfi) :
    create.foldl (fun l f => without f.qfi l ++ [f]) l = l ++ create := by
  induction create generalizing l with
  | nil => simp
  | cons f create ih =>
    have hsame : without f.qfi l = l := by
      apply List.filter_eq_self.mpr
      intro e he
      simpa using hdisjoint f List.mem_cons_self e he
    rw [List.map_cons, List.nodup_cons] at hcreate
    rw [List.foldl_cons, hsame, ih hcreate.2, List.append_assoc, List.singleton_append]
    intro g hg e he
    rw [List.mem_append, List.mem_singleton] at he
    rcases he with he | rfl
    · exact hdisjoint g (List.mem_cons_of_mem f hg) e he
    · intro hqfi
      exact hcreate.1 (hqfi ▸ List.mem_map_of_mem hg)

/-- What the updates make of one flow. -/
def updated (update : List FlowQer) (e : FlowQer) : FlowQer :=
  update.foldl (fun e n => if e.qfi = n.qfi then rerated n e else e) e

theorem qfi_updated (update : List FlowQer) (e : FlowQer) : (updated update e).qfi = e.qfi := by
  induction update generalizing e with
  | nil => rfl
  | cons n update ih =>
    rw [updated, List.foldl_cons]
    refine (ih _).trans ?_
    split <;> rfl

theorem rerate_eq_map {n : FlowQer} {l : List FlowQer} (h : (l.map FlowQer.qfi).Nodup) :
    rerate n l = l.map fun e => if e.qfi = n.qfi then rerated n e else e := by
  induction l with
  | nil => rfl
  | cons e l ih =>
    rw [List.map_cons, List.nodup_cons] at h
    rw [List.map_cons, rerate]
    split
    · rename_i hqfi
      have hrest : (l.map fun e => if e.qfi = n.qfi then rerated n e else e) = l := by
        have hid : (l.map fun e => if e.qfi = n.qfi then rerated n e else e) = l.map id := by
          apply List.map_congr_left
          intro g hg
          rw [if_neg, id]
          intro hg'
          exact h.1 (hqfi.trans hg'.symm ▸ List.mem_map_of_mem hg)
        rw [hid, List.map_id]
      rw [hrest]
    · rw [ih h.2]

theorem foldl_rerate {update l : List FlowQer} (h : (l.map FlowQer.qfi).Nodup) :
    update.foldl (fun l n => rerate n l) l = l.map (updated update) := by
  induction update generalizing l with
  | nil => exact (List.map_id l).symm
  | cons n update ih =>
    rw [List.foldl_cons, rerate_eq_map h, ih, List.map_map]
    · rfl
    · have hqfis : (l.map fun e => if e.qfi = n.qfi then rerated n e else e).map FlowQer.qfi =
          l.map FlowQer.qfi := by
        rw [List.map_map]
        apply List.map_congr_left
        intro e _
        simp only [Function.comp_apply]
        split <;> rfl
      rw [hqfis]
      exact h

theorem updated_of_not_mem {update : List FlowQer} {e : FlowQer}
    (h : ∀ n ∈ update, e.qfi ≠ n.qfi) : updated update e = e := by
  induction update with
  | nil => rfl
  | cons n update ih =>
    rw [updated, List.foldl_cons, if_neg (h n List.mem_cons_self)]
    exact ih fun m hm => h m (List.mem_cons_of_mem n hm)

theorem updated_of_mem {update : List FlowQer} {e n : FlowQer} (hn : n ∈ update)
    (hqfis : (update.map FlowQer.qfi).Nodup) (hqfi : e.qfi = n.qfi) :
    updated update e = rerated n e := by
  induction update generalizing e with
  | nil => exact absurd hn List.not_mem_nil
  | cons m update ih =>
    rw [List.map_cons, List.nodup_cons] at hqfis
    rw [updated, List.foldl_cons]
    rcases List.mem_cons.mp hn with rfl | hn
    · rw [if_pos hqfi]
      apply updated_of_not_mem
      intro k hk hk'
      exact hqfis.1 (hqfi.symm.trans hk' ▸ List.mem_map_of_mem hk)
    · rw [if_neg]
      · exact ih hn hqfis.2 hqfi
      · intro hm
        exact hqfis.1 (hm.symm.trans hqfi ▸ List.mem_map_of_mem hn)

/-- A kept flow ends up as the new policy has it. -/
theorem updated_kept (hold : Ordered old) (hnew : Ordered new) {o n : FlowQer} (ho : o ∈ old)
    (hn : n ∈ new) (hqfi : o.qfi = n.qfi) (hfilter : o.filter = n.filter) :
    updated (diffFlows old new).2.1 o = n := by
  have hqfis : ((diffFlows old new).2.1.map FlowQer.qfi).Nodup :=
    nodup_qfi (hnew.filter _)
  by_cases hsame : o = n
  · rw [updated_of_not_mem, hsame]
    intro m hm hm'
    obtain ⟨hmem, o', ho', hqfi', -, hne⟩ := (mem_update_iff hold).mp hm
    have hmn : m = n := eq_of_qfi hnew hmem hn (hm'.symm.trans hqfi)
    have hoo : o' = o := eq_of_qfi hold ho' ho (hqfi'.trans hm'.symm)
    exact hne (hoo.trans (hsame.trans hmn.symm))
  · have hmem : n ∈ (diffFlows old new).2.1 :=
      (mem_update_iff hold).mpr ⟨hn, o, ho, hqfi, hfilter, hsame⟩
    rw [updated_of_mem hmem hqfis hqfi]
    obtain ⟨qfi, filter, dl, ul, gate⟩ := o
    obtain ⟨qfi', filter', dl', ul', gate'⟩ := n
    subst hqfi hfilter
    rfl

/-- What the removals leave are the kept flows. -/
theorem foldl_remove_eq (hold : Ordered old) :
    (diffFlows old new).2.2.foldl (fun l q => without q l) old =
      old.filter fun o => keeps new o := by
  rw [foldl_without]
  apply List.filter_congr
  intro o ho
  have hcontains : (diffFlows old new).2.2.contains o.qfi = !keeps new o := by
    rw [Bool.eq_iff_iff, List.contains_iff_mem, mem_remove_iff, Bool.not_eq_true']
    constructor
    · rintro ⟨o', ho', hkeeps, hqfi⟩
      rw [← eq_of_qfi hold ho' ho hqfi]
      exact hkeeps
    · intro hkeeps
      exact ⟨o, ho, hkeeps, rfl⟩
  rw [hcontains, Bool.not_not]

/-- A created flow has the QFI of no kept one. -/
theorem created_apart (hnew : Ordered new) {e f : FlowQer}
    (hf : f ∈ new.filter fun n => !keeps old n) (he : e ∈ old.filter fun o => keeps new o) :
    e.qfi ≠ f.qfi := by
  intro hqfi
  obtain ⟨hfnew, hfkeeps⟩ := List.mem_filter.mp hf
  obtain ⟨heold, hekeeps⟩ := List.mem_filter.mp he
  obtain ⟨n, hn, hnqfi, hnfilter⟩ := keeps_iff.mp hekeeps
  obtain rfl := eq_of_qfi hnew hn hfnew (hnqfi.trans hqfi)
  have hkeeps : keeps old n = true := keeps_iff.mpr ⟨e, heold, hqfi, hnfilter.symm⟩
  rw [hkeeps] at hfkeeps
  exact absurd hfkeeps Bool.false_ne_true

/-- The updates leave created flows alone. -/
theorem map_updated_created (hold : Ordered old) (hnew : Ordered new) :
    (new.filter fun n => !keeps old n).map (updated (diffFlows old new).2.1) =
      new.filter fun n => !keeps old n := by
  have hid : (new.filter fun n => !keeps old n).map (updated (diffFlows old new).2.1) =
      (new.filter fun n => !keeps old n).map id := by
    apply List.map_congr_left
    intro f hf
    apply updated_of_not_mem
    intro n hn hqfi
    obtain ⟨hnnew, o, ho, hoqfi, hofilter, -⟩ := (mem_update_iff hold).mp hn
    obtain ⟨hfnew, hfkeeps⟩ := List.mem_filter.mp hf
    obtain rfl := eq_of_qfi hnew hfnew hnnew hqfi
    rw [keeps_iff.mpr ⟨o, ho, hoqfi, hofilter⟩] at hfkeeps
    exact absurd hfkeeps Bool.false_ne_true
  rw [hid, List.map_id]

/-- The updates bring the kept flows to what the new policy has of them. -/
theorem map_updated_kept (hold : Ordered old) (hnew : Ordered new) :
    (old.filter fun o => keeps new o).map (updated (diffFlows old new).2.1) =
      new.filter fun n => keeps old n := by
  have hordered : Ordered ((old.filter fun o => keeps new o).map
      (updated (diffFlows old new).2.1)) := by
    rw [Ordered, Keyed.Ordered, List.pairwise_map]
    simp only [qfi_updated]
    exact hold.filter _
  apply hordered.ext (hnew.filter _)
  intro n
  rw [List.mem_map, List.mem_filter]
  constructor
  · rintro ⟨o, ho, rfl⟩
    obtain ⟨hoold, hokeeps⟩ := List.mem_filter.mp ho
    obtain ⟨n, hn, hqfi, hfilter⟩ := keeps_iff.mp hokeeps
    rw [updated_kept hold hnew hoold hn hqfi.symm hfilter.symm]
    exact ⟨hn, keeps_iff.mpr ⟨o, hoold, hqfi.symm, hfilter.symm⟩⟩
  · rintro ⟨hn, hkeeps⟩
    obtain ⟨o, ho, hqfi, hfilter⟩ := keeps_iff.mp hkeeps
    refine ⟨o, List.mem_filter.mpr ⟨ho, ?_⟩, updated_kept hold hnew ho hn hqfi hfilter⟩
    exact keeps_iff.mpr ⟨n, hn, hqfi.symm, hfilter.symm⟩

/-- The kept flows, in order, and behind them the created ones, in order. -/
theorem updated_eq (hold : Ordered old) (hnew : Ordered new) :
    applyFlows (diffFlows old new).1 (diffFlows old new).2.1 (diffFlows old new).2.2 old =
      (new.filter fun n => keeps old n) ++ new.filter fun n => !keeps old n := by
  have hcreate : Ordered (new.filter fun n => !keeps old n) := hnew.filter _
  have hkept : Ordered (old.filter fun o => keeps new o) := hold.filter _
  have hapart : ∀ f ∈ new.filter (fun n => !keeps old n), ∀ e ∈ old.filter (fun o => keeps new o),
      e.qfi ≠ f.qfi := fun f hf e he => created_apart hnew hf he
  have hqfis : (((old.filter fun o => keeps new o) ++ new.filter fun n => !keeps old n).map
      FlowQer.qfi).Nodup := by
    rw [List.map_append, List.nodup_append]
    refine ⟨nodup_qfi hkept, nodup_qfi hcreate, ?_⟩
    intro q hq q' hq' heq
    obtain ⟨e, he, rfl⟩ := List.mem_map.mp hq
    obtain ⟨f, hf, rfl⟩ := List.mem_map.mp hq'
    exact hapart f hf e he heq
  rw [applyFlows, foldl_remove_eq hold, create_eq hold, foldl_create (nodup_qfi hcreate) hapart,
    foldl_rerate hqfis, List.map_append, map_updated_kept hold hnew, map_updated_created hold hnew]

/-- Nothing is to be done exactly when the lists agree. -/
theorem diffFlows_nothing_iff (hold : Ordered old) (hnew : Ordered new) :
    diffFlows old new = ([], [], []) ↔ old = new := by
  constructor
  · intro hnothing
    have hcreate : (diffFlows old new).1 = [] := by rw [hnothing]
    have hupdate : (diffFlows old new).2.1 = [] := by rw [hnothing]
    have hremove : (diffFlows old new).2.2 = [] := by rw [hnothing]
    rw [create_eq hold, List.filter_eq_nil_iff] at hcreate
    -- a flow of the new list is in the old one, since it is neither created nor updated
    have hmem : ∀ n ∈ new, n ∈ old := by
      intro n hn
      have hkeeps : keeps old n = true := by simpa using hcreate n hn
      obtain ⟨o, ho, hqfi, hfilter⟩ := keeps_iff.mp hkeeps
      by_cases hsame : o = n
      · exact hsame ▸ ho
      · have hin := (mem_update_iff hold).mpr ⟨hn, o, ho, hqfi, hfilter, hsame⟩
        rw [hupdate] at hin
        exact absurd hin List.not_mem_nil
    apply hold.ext hnew
    intro f
    refine ⟨?_, hmem f⟩
    intro hf
    cases hkeeps : keeps new f with
    | true =>
      obtain ⟨n, hn, hqfi, -⟩ := keeps_iff.mp hkeeps
      rw [← eq_of_qfi hold (hmem n hn) hf hqfi]
      exact hn
    | false =>
      have hin : f.qfi ∈ (diffFlows old new).2.2 := mem_remove_iff.mpr ⟨f, hf, hkeeps, rfl⟩
      rw [hremove] at hin
      exact absurd hin List.not_mem_nil
  · rintro rfl
    have hcreate : (diffFlows old old).1 = [] := by
      rw [create_eq hold, List.filter_eq_nil_iff]
      intro n hn
      simpa using keeps_iff.mpr ⟨n, hn, rfl, rfl⟩
    have hupdate : (diffFlows old old).2.1 = [] := by
      rw [List.eq_nil_iff_forall_not_mem]
      intro n hn
      obtain ⟨hmem, o, ho, hqfi, -, hne⟩ := (mem_update_iff hold).mp hn
      exact hne (eq_of_qfi hold ho hmem hqfi)
    have hremove : (diffFlows old old).2.2 = [] := by
      rw [List.eq_nil_iff_forall_not_mem]
      intro q hq
      obtain ⟨o, ho, hkeeps, -⟩ := mem_remove_iff.mp hq
      rw [keeps_iff.mpr ⟨o, ho, rfl, rfl⟩] at hkeeps
      exact absurd hkeeps (by simp)
    exact Prod.ext hcreate (Prod.ext hupdate hremove)

end Diff

/-! ### Classification -/

/-- How a session's per-flow policers classify a packet: its QFI, gate and MFBR. -/
def classify (t : Session) (pkt : Packet) : Option (UInt8 × Gate × Nat × Nat) :=
  ((packetKey pkt).bind fun key => t.flowQers.find? fun f => f.filter.matches key).map fun f =>
    (f.qfi, f.gate, f.dlBucket.rateBps, f.ulBucket.rateBps)

/-- Classification reads a session's flows only. -/
theorem classify_eq (t : Session) (pkt : Packet) :
    classify t pkt =
      ((packetKey pkt).bind fun key => (qers t).find? fun f => f.filter.matches key).map fun f =>
        (f.qfi, f.gate, f.mfbrDlBps, f.mfbrUlBps) := by
  rcases hkey : packetKey pkt with _ | key
  · simp only [classify, hkey, Option.bind_none, Option.map_none]
  · have hfind : (qers t).find? (fun f => f.filter.matches key) =
        (t.flowQers.find? fun f => f.filter.matches key).map FlowEnforcer.qer := by
      rw [qers, List.find?_map]
      rfl
    simp only [classify, hkey, Option.bind_some, hfind, Option.map_map]
    rfl

/-- With distinct QFIs a packet is classified alike exactly when it matches the same flow. -/
theorem classified_iff {old new : List FlowQer} (hnew : Ordered new) (key : PacketKey) :
    ((((new.filter fun n => keeps old n) ++ new.filter fun n => !keeps old n).find?
          fun f => f.filter.matches key).map fun f => (f.qfi, f.gate, f.mfbrDlBps, f.mfbrUlBps)) =
        ((new.find? fun f => f.filter.matches key).map fun f =>
          (f.qfi, f.gate, f.mfbrDlBps, f.mfbrUlBps)) ↔
      ∀ f, (new.find? fun f => f.filter.matches key) = some f →
        keeps old f = true ∨ ∀ g ∈ new, keeps old g = true → g.filter.matches key = false := by
  rcases hfound : new.find? fun f => f.filter.matches key with _ | f
  · rw [Keyed.find?_partition_none hfound, hfound]
    constructor
    · intro _ f hf
      exact absurd hf (by simp)
    · intro _
      rfl
  · rw [hfound]
    have hmem := List.mem_of_find?_eq_some hfound
    have hpartition := Keyed.find?_partition_iff (q := fun n => keeps old n) hfound
    constructor
    · intro hsame f' hf'
      obtain rfl : f = f' := Option.some_inj.mp hf'
      rw [← hpartition]
      rw [Option.map_some] at hsame
      obtain ⟨g, hg, hfields⟩ := Option.map_eq_some_iff.mp hsame
      have hgmem : g ∈ new := by
        have hin := List.mem_of_find?_eq_some hg
        rw [List.mem_append, List.mem_filter, List.mem_filter] at hin
        exact hin.elim And.left And.left
      rw [hg, eq_of_qfi hnew hgmem hmem (congrArg Prod.fst hfields)]
    · intro hkept
      rw [hpartition.mpr (hkept f rfl)]

/-- A session fresh from a basic establishment. -/
theorem established_flows (s : UpfState) (nodeIp : Ipv4Addr) (now : Nat) (peer : Option IpAddr)
    (cpSeid : Seid) (seq : Nat) (smfIp : Ipv4Addr) (ue : UeAddr) (dnn : String)
    (ambr : Option SessionAmbr) (usageThreshold : Option Nat) {flows : List FlowQer}
    (hroom : s.sessionCount < s.maxSessions) (hleft : s.nextSeid ≠ Pfcp.maxSeid)
    (hqfis : (flows.map FlowQer.qfi).Nodup) :
    ∃ t, (handleMessage (sessionEstablishmentRequest cpSeid seq smfIp ue dnn ambr flows
        usageThreshold) nodeIp s now peer).2.sessions.lookup s.nextSeid = some t ∧
      qers t = flows ∧ t.peerIp = peer := by
  obtain ⟨t, s', hhandle, hopened, ht⟩ := @Pfcp.handleMessage_establishes
    (sessionEstablishmentRequest cpSeid seq smfIp ue dnn ambr flows usageThreshold) s cpSeid nodeIp
    now peer rfl rfl hroom hleft
  have hflows := congrArg Pfcp.Provisioned.flows
    (Pfcp.provisioned_basic cpSeid seq smfIp ue dnn ambr usageThreshold hqfis)
  refine ⟨t, ?_, ?_, ?_⟩
  · rw [hhandle, hopened.sessions, Keyed.Map.lookup_insert_eq, if_pos rfl]
  · have hprovisioned := congrArg Pfcp.Provisioned.flows (congrArg Session.provisioned ht)
    rw [Pfcp.provisioned_newSession] at hprovisioned
    exact hprovisioned.trans hflows
  · rw [ht]
    rfl

/-! ### The update against a fresh establishment -/

/-- Under a UP-SEID the two have sessions that classify every packet alike. -/
def ClassifiesAlike (s fresh : UpfState) (upSeid : Seid) : Prop :=
  ∃ t t', s.sessions.lookup upSeid = some t ∧ fresh.sessions.lookup upSeid = some t' ∧
    ∀ pkt, classify t pkt = classify t' pkt

/-- No packet whose first match is a flow to create also matches a flow that is kept. -/
def NoneOvertakes (old new : List FlowQer) : Prop :=
  ∀ pkt key f, packetKey pkt = some key → new.find? (fun f => f.filter.matches key) = some f →
    keeps old f = true ∨ ∀ g ∈ new, keeps old g = true → g.filter.matches key = false

/-- After the update every packet is classified as after a fresh establishment exactly when no flow
it creates has to come before one it keeps. -/
theorem flow_update_equals_fresh_iff (s : UpfState) (nodeIp : Ipv4Addr) (now later : Nat)
    (peer : Option IpAddr) (cpSeid : Seid) (seq seq' : Nat) (smfIp : Ipv4Addr) (ue : UeAddr)
    (dnn : String) (ambr : Option SessionAmbr) (usageThreshold : Option Nat)
    (d1 d2 : SmPolicyDecision) (hroom : s.sessionCount < s.maxSessions)
    (hleft : s.nextSeid ≠ Pfcp.maxSeid) (h1 : ((flowQers d1).map FlowQer.qfi).Nodup)
    (h2 : ((flowQers d2).map FlowQer.qfi).Nodup) :
    let establish := fun d => (handleMessage (sessionEstablishmentRequest cpSeid seq smfIp ue dnn
      ambr (flowQers d) usageThreshold) nodeIp s now peer).2
    let diff := diffFlows (flowQers d1) (flowQers d2)
    let updated := (handleMessage (sessionFlowModificationRequest s.nextSeid seq' diff.1 diff.2.1
      diff.2.2) nodeIp (establish d1) later peer).2
    (ClassifiesAlike updated (establish d2) s.nextSeid ∧
        (diff = ([], [], []) ↔ flowQers d1 = flowQers d2)) ↔
      NoneOvertakes (flowQers d1) (flowQers d2) := by
  intro establish diff updated
  have hold := ordered_flowQers h1
  have hnew := ordered_flowQers h2
  obtain ⟨t1, hlookup1, hqers1, hpeer1⟩ := established_flows s nodeIp now peer cpSeid seq smfIp ue
    dnn ambr usageThreshold hroom hleft h1
  obtain ⟨t2, hlookup2, hqers2, -⟩ := established_flows s nodeIp now peer cpSeid seq smfIp ue dnn
    ambr usageThreshold hroom hleft h2
  have hcreate : (diff.1.map FlowQer.qfi).Nodup := by
    rw [create_eq hold]
    exact nodup_qfi (hnew.filter _)
  have haccepts : Pfcp.refuses (establish d1) peer s.nextSeid = false := by
    simp only [Pfcp.refuses, UpfState.sessionPeer, establish, hlookup1, Option.bind_some, hpeer1]
    cases peer <;> simp
  have hupdated : updated.sessions.lookup s.nextSeid = some (t1.modify
      (sessionFlowModificationRequest s.nextSeid seq' diff.1 diff.2.1 diff.2.2) later) := by
    have hhandle : updated = (establish d1).modify
        (sessionFlowModificationRequest s.nextSeid seq' diff.1 diff.2.1 diff.2.2) s.nextSeid later
        t1 := Pfcp.handleMessage_modifies nodeIp later rfl rfl haccepts hlookup1
    rw [hhandle, UpfState.lookup_modify_self, hlookup1, Option.map_some]
  have hqers : qers (t1.modify
      (sessionFlowModificationRequest s.nextSeid seq' diff.1 diff.2.1 diff.2.2) later) =
        ((flowQers d2).filter fun n => keeps (flowQers d1) n) ++
          (flowQers d2).filter fun n => !keeps (flowQers d1) n := by
    rw [qers_modify t1 later hcreate, hqers1]
    exact updated_eq hold hnew
  constructor
  · rintro ⟨⟨t, fresh, ht, hfresh, hclassify⟩, -⟩ pkt key f hkey
    obtain rfl := Option.mem_unique hupdated ht
    obtain rfl := Option.some_inj.mp (hlookup2.symm.trans hfresh)
    have hsame := hclassify pkt
    simp only [classify_eq, hqers, hqers2, hkey, Option.bind_some] at hsame
    exact (classified_iff hnew key).mp hsame f
  · intro hnone
    refine ⟨⟨_, t2, hupdated, hlookup2, ?_⟩, diffFlows_nothing_iff hold hnew⟩
    intro pkt
    rcases hkey : packetKey pkt with _ | key
    · simp only [classify_eq, hkey, Option.bind_none]
    · simp only [classify_eq, hqers, hqers2, hkey, Option.bind_some]
      rw [classified_iff hnew key]
      intro f
      exact hnone pkt key f hkey

/-- A GBR flow on a range of ports of a protocol. -/
def sampleFlow (qfi protocol : UInt8) (portLow portHigh : UInt16) : Npcf.QosFlowPolicy :=
  { qfi
    fiveQi := 1
    arpPriority := 1
    preEmptCap := false
    preEmptVuln := true
    gbr := some ⟨"1 Mbps", "1 Mbps", "2 Mbps", "2 Mbps"⟩
    filter := some { protocol, portLow, portHigh }
    refChgData := none
    flowStatus := .enabled }

/-- What the QER of a sample flow is. -/
def sampleQer (qfi protocol : UInt8) (portLow portHigh : UInt16) : FlowQer :=
  { qfi
    filter := .transport protocol portLow portHigh
    mfbrDlBps := 2000000
    mfbrUlBps := 2000000
    gate := .OPEN }

/-- A TCP flow on QFI 3 next to a UDP one on QFI 5. -/
theorem flow_update_equals_fresh_apart :
    let d1 := SmPolicyDecision.setFlows {} [sampleFlow 5 17 5000 5010]
    let d2 := SmPolicyDecision.setFlows {} [sampleFlow 5 17 5000 5010, sampleFlow 3 6 5000 5010]
    let s := UpfState.withRecoveryTime 0
    let establish := fun d => (handleMessage (sessionEstablishmentRequest 1 1 0x0A000001
      ⟨some 0x0A2D0002, none⟩ "internet" none (flowQers d) none) 0x0A000003 s 0 none).2
    let diff := diffFlows (flowQers d1) (flowQers d2)
    let updated := (handleMessage (sessionFlowModificationRequest s.nextSeid 2 diff.1 diff.2.1
      diff.2.2) 0x0A000003 (establish d1) 0 none).2
    ClassifiesAlike updated (establish d2) s.nextSeid ∧
      (diff = ([], [], []) ↔ flowQers d1 = flowQers d2) := by
  intro d1 d2 s establish diff updated
  have hd1 : flowQers d1 = [sampleQer 5 17 5000 5010] := by decide +kernel
  have hd2 : flowQers d2 = [sampleQer 3 6 5000 5010, sampleQer 5 17 5000 5010] := by decide +kernel
  apply (flow_update_equals_fresh_iff s 0x0A000003 0 0 none 1 1 2 0x0A000001 _ _ none none d1 d2
    (by decide) (by decide) (by rw [hd1]; decide) (by rw [hd2]; decide)).mpr
  rw [hd1, hd2]
  intro pkt key f _ hfound
  have hmem := List.mem_of_find?_eq_some hfound
  have hmatch := List.find?_some hfound
  simp only [List.mem_cons, List.not_mem_nil, or_false] at hmem
  rcases hmem with rfl | rfl
  · -- a TCP packet is none of the flow kept
    refine Or.inr fun g hg hkept => ?_
    simp only [List.mem_cons, List.not_mem_nil, or_false] at hg
    rcases hg with rfl | rfl
    · exact absurd hkept (by decide)
    · simp only [sampleQer, FlowFilter.transport, FlowFilter.matches, Option.all_some,
        Bool.and_eq_true, beq_iff_eq] at hmatch ⊢
      simp [← hmatch.1.1]
  · exact Or.inl (by decide)

/-- A UDP packet from port 5005. -/
def udpPacket : Packet :=
  [0x45, 0, 0, 28, 0, 0, 0, 0, 64, 17, 0, 0, 1, 1, 1, 1, 10, 45, 0, 2, 0x13, 0x8d, 0, 1, 0, 8, 0, 0]

/-- A flow on QFI 3 within the ports of the one on QFI 5 is put behind it. -/
theorem flow_update_not_fresh :
    ¬ ∀ (s : UpfState) (nodeIp : Ipv4Addr) (now later : Nat) (peer : Option IpAddr) (cpSeid : Seid)
      (seq seq' : Nat) (smfIp : Ipv4Addr) (ue : UeAddr) (dnn : String) (ambr : Option SessionAmbr)
      (usageThreshold : Option Nat) (d1 d2 : SmPolicyDecision), s.sessionCount < s.maxSessions →
      s.nextSeid ≠ Pfcp.maxSeid → ((flowQers d1).map FlowQer.qfi).Nodup →
      ((flowQers d2).map FlowQer.qfi).Nodup →
      let establish := fun d => (handleMessage (sessionEstablishmentRequest cpSeid seq smfIp ue dnn
        ambr (flowQers d) usageThreshold) nodeIp s now peer).2
      let diff := diffFlows (flowQers d1) (flowQers d2)
      let updated := (handleMessage (sessionFlowModificationRequest s.nextSeid seq' diff.1 diff.2.1
        diff.2.2) nodeIp (establish d1) later peer).2
      ClassifiesAlike updated (establish d2) s.nextSeid ∧
        (diff = ([], [], []) ↔ flowQers d1 = flowQers d2) := by
  intro h
  have hfails := h (.withRecoveryTime 0) 0x0A000003 0 0 none 1 1 2 0x0A000001
    ⟨some 0x0A2D0002, none⟩ "internet" none none
    (SmPolicyDecision.setFlows {} [sampleFlow 5 17 0 65535])
    (SmPolicyDecision.setFlows {} [sampleFlow 5 17 0 65535, sampleFlow 3 17 5000 5010])
    (by decide) (by decide) (by decide +kernel) (by decide +kernel)
  obtain ⟨⟨t, fresh, ht, hfresh, hclassify⟩, -⟩ := hfails
  have hupdated := congrArg (fun o => o.map fun t => (classify t udpPacket).map Prod.fst) ht
  have hestablished := congrArg (fun o => o.map fun t => (classify t udpPacket).map Prod.fst) hfresh
  simp only [Option.map_some, hclassify udpPacket] at hupdated hestablished
  have hdiffer := hupdated.trans hestablished.symm
  revert hdiffer
  decide +kernel

end Radian.Smf
