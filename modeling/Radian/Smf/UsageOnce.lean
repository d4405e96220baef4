import Radian.Smf.Ledger
import Radian.Smf.UsageRelay

/-!
# Usage reaches the charging record once

What the UPF has handed out for a session is on its record or under way to it.

- `tally` — the usage in some containers, by rating group and measure.
- `World.held` — what of a session is under way.
- `Kept` — handed out is billed or held; what is not the session's own is apart from it.
- `exactly_once` — the released record holds what was handed out.
-/

open Keyed (Map)

namespace Radian.Smf.Billing

open Npcf (SmPolicyDecision)
open Pfcp (Seid UsageVolume)
open Chf (Measure amount brought Fit read)

/-! ### Usage, by rating group -/

/-- What some containers count. -/
def tally (cs : List UsedUnitContainer) : UInt32 → Measure → ℕ := fun g m => amount m (brought g cs)

@[simp] theorem tally_nil : tally [] = 0 := rfl

@[simp] theorem tally_append (cs cs' : List UsedUnitContainer) :
    tally (cs ++ cs') = tally cs + tally cs' := by
  funext g m
  simp [tally]

theorem tally_cons (c : UsedUnitContainer) (cs : List UsedUnitContainer) :
    tally (c :: cs) = tally [c] + tally cs := tally_append [c] cs

theorem Blank.tally {cs : List UsedUnitContainer} (h : Blank cs) : tally cs = 0 := by
  funext g m
  exact Chf.amount_eq_zero.mpr fun c hc => h c (Chf.mem_brought.mp hc).1 m m.mem_all

theorem Blank.append {cs cs' : List UsedUnitContainer} (hblank : Blank cs') (hfit : Fit cs) :
    Fit (cs ++ cs') := by
  have hamount : ∀ g m, amount m (brought g (cs ++ cs')) = amount m (brought g cs) := by
    intro g m
    have hzero : amount m (brought g cs') = 0 := congrFun (congrFun hblank.tally g) m
    rw [Chf.brought_append, Chf.amount_append, hzero, Nat.add_zero]
  refine ⟨fun c _ m _ => ?_, ?_⟩
  · rw [hamount]
    exact hfit.amount_lt c.ratingGroup m
  · have hzero : amount .totalVolume cs' = 0 :=
      Chf.amount_eq_zero.mpr fun c hc => hblank c hc .totalVolume (Measure.mem_all _)
    rw [Chf.amount_append, hzero, Nat.add_zero]
    exact hfit.2

theorem tally_container (g : UInt32) (count : Measure → ℕ) (g' : UInt32) (m : Measure) :
    tally [Chf.container g count] g' m = if g = g' then count m else 0 := by
  by_cases hg : g = g'
  · subst hg
    rw [if_pos rfl, tally]
    have hown : brought g [Chf.container g count] = [Chf.container g count] := Chf.brought_own _
    rw [hown, Chf.amount_singleton, Chf.read_container]
  · rw [if_neg hg, tally, Chf.brought_other fun h => hg h.symm, Chf.amount_nil]

/-- Containers of one rating group, but for empty ones, count what their sum counts. -/
theorem tally_of_group {g : UInt32} {cs : List UsedUnitContainer}
    (h : ∀ c ∈ cs, (∀ m ∈ Measure.all, read m c = 0) ∨ c.ratingGroup = g) :
    tally cs = tally [Chf.container g fun m => amount m cs] := by
  induction cs with
  | nil =>
    funext g' m
    rw [tally_container]
    exact (ite_self 0).symm
  | cons c cs ih =>
    rw [tally_cons, ih fun d hd => h d (.tail _ hd)]
    funext g' m
    have hamount : amount m (c :: cs) = read m c + amount m cs := rfl
    rw [Pi.add_apply, Pi.add_apply, tally_container, tally_container, hamount]
    rcases h c List.mem_cons_self with hblank | hgroup
    · have hnone : Blank [c] := by
        intro d hd
        rw [List.mem_singleton.mp hd]
        exact hblank
      rw [hnone.tally, hblank m m.mem_all]
      simp
    · have hc : tally [c] g' m = if g = g' then read m c else 0 := by
        rw [← hgroup]
        exact tally_container c.ratingGroup (fun m => read m c) g' m
      rw [hc]
      split <;> simp

/-- A URR's volume, charged under the rating group it was counted under. -/
theorem Attributed.tally {policy : SmPolicyDecision} {urrId : ℕ} {parts : List UsedUnitContainer}
    (h : Attributed policy urrId parts) :
    tally [containerFor (volume urrId parts) policy] = tally parts :=
  (tally_of_group h).symm

variable {t : Teardown}

theorem Relays.tally {final : Final} (h : Relays t final) :
    tally (final.usages.map fun u => containerFor u t.context.policy) = tally final.parts := by
  induction final with
  | nil => rfl
  | cons u final ih =>
    have hcons : Final.parts (u :: final) = u.2 ++ Final.parts final := rfl
    rw [hcons, tally_append, ← ih fun v hv => h v (.tail _ hv), ← (h u List.mem_cons_self).tally,
      ← tally_append]
    rfl

/-! ### What is under way -/

variable {σ : Charged} {w : World}

def Report.of (σ : Charged) (r : Report) : List UsedUnitContainer :=
  if r.cpSeid = σ.cpSeid then r.parts else []

def Loop.of (σ : Charged) : Loop → List UsedUnitContainer
  | .acking smRef c usage => if smRef = σ.smRef then [containerFor usage c.policy] else []
  | _ => []

def Teardown.of (σ : Charged) (t : Teardown) : List UsedUnitContainer :=
  if t.smRef = σ.smRef then t.holding.parts else []

def Call.of (σ : Charged) (c : Call) : List UsedUnitContainer := if c.For σ then c.usage else []

/-- What of a session is under way to its record. -/
def World.held (σ : Charged) (w : World) : UInt32 → Measure → ℕ :=
  (w.reports.total fun r => tally (r.of σ)) + tally (w.loop.of σ) +
    (w.tasks.total fun t => tally (t.of σ)) + w.calls.total fun c => tally (c.of σ)

def World.billed (σ : Charged) (w : World) : List UsedUnitContainer :=
  (w.chf σ.chfBase).billed σ.chargingRef

/-- A context is the session's own, or has nothing to do with it. -/
def Charged.Sorts (σ : Charged) (smRef : String) (c : SmContext) : Prop :=
  σ.Is smRef c ∨ σ.Apart smRef c

/-- The session's release is on its way to the CHF. -/
def World.Closing (σ : Charged) (w : World) : Prop :=
  ∃ k c, w.calls.lookup k = some c ∧ c.For σ ∧ c.closes = true

/-- What is handed out is on the record or under way; once the context is gone the record is closed, or will
be. -/
structure Kept (σ : Charged) (w : World) : Prop where
  contexts : ∀ r c, w.smf.contexts.lookup r = some c → σ.Sorts r c
  upf : ∀ p u, w.upf.lookup p = some u → (p = (σ.anchor, σ.upSeid) ↔ u.cpSeid = σ.cpSeid)
  loop : ∀ r c usage, w.loop = .acking r c usage → σ.Sorts r c
  reports : ∀ k, w.next ≤ k → w.reports.lookup k = none
  tasks : ∀ k, w.next ≤ k → w.tasks.lookup k = none
  sorted : ∀ k t, w.tasks.lookup k = some t → σ.Sorts t.smRef t.context
  calls : ∀ k, w.next ≤ k → w.calls.lookup k = none
  books : (w.chf σ.chfBase).Books
  record : ((w.chf σ.chfBase).chf.cdrs.lookup σ.chargingRef).isSome = true
  gone : w.smf.contexts.lookup σ.smRef = none → w.closed σ = true ∨ w.Closing σ
  fit : Fit (w.handed σ.cpSeid)
  balance : tally (w.handed σ.cpSeid) = tally (w.billed σ) + w.held σ

namespace Charged.Sorts

variable {smRef : String} {c : SmContext}

/-- Whatever one thing tells the session's contexts, the others tell it too. -/
theorem smRef_iff (h : σ.Sorts smRef c) : smRef = σ.smRef ↔ σ.Is smRef c := by
  constructor
  · intro hr
    exact h.resolve_right fun hapart => hapart.1 hr
  · exact fun his => his.1

theorem cpSeid_iff (h : σ.Sorts smRef c) : c.cpSeid = σ.cpSeid ↔ σ.Is smRef c := by
  constructor
  · intro hr
    exact h.resolve_right fun hapart => hapart.2.1 hr
  · exact fun his => his.2.1

theorem key_iff (h : σ.Sorts smRef c) :
    (c.path.anchor, c.upSeid) = (σ.anchor, σ.upSeid) ↔ σ.Is smRef c := by
  constructor
  · intro hr
    exact h.resolve_right fun hapart => hapart.2.2.1 hr
  · exact fun his => his.2.2.1

theorem charging_iff (h : σ.Sorts smRef c) :
    c.charging = some (σ.chfBase, σ.chargingRef) ↔ σ.Is smRef c := by
  constructor
  · intro hr
    exact h.resolve_right fun hapart => hapart.2.2.2 hr
  · exact fun his => his.2.2.2

end Charged.Sorts

/-- The loop finds the session's context by the identifier its reports carry. -/
theorem Kept.contextOf (h : Kept σ w) :
    w.contextOf σ.cpSeid = (w.smf.contexts.lookup σ.smRef).map fun c => (σ.smRef, c) := by
  cases hfound : w.contextOf σ.cpSeid with
  | some e =>
    obtain ⟨hlookup, hseid⟩ := Map.find?_eq_some hfound
    have his := (h.contexts _ _ hlookup).cpSeid_iff.mp (beq_iff_eq.mp hseid)
    rw [← his.1, hlookup]
    rfl
  | none =>
    cases hc : w.smf.contexts.lookup σ.smRef with
    | none => rfl
    | some c =>
      have hseid := Map.find?_eq_none hfound hc
      have his := (h.contexts _ _ hc).smRef_iff.mp rfl
      rw [his.2.1, beq_self_eq_true] at hseid
      cases hseid

/-- A context that is found is the session's exactly when the report is. -/
theorem Kept.sorts_contextOf (h : Kept σ w) {cpSeid : Seid} {smRef : String} {c : SmContext}
    (hc : w.contextOf cpSeid = some (smRef, c)) :
    σ.Sorts smRef c ∧ (cpSeid = σ.cpSeid ↔ smRef = σ.smRef) := by
  obtain ⟨hlookup, hseid⟩ := Map.find?_eq_some hc
  have hsorts := h.contexts _ _ hlookup
  refine ⟨hsorts, ?_⟩
  rw [hsorts.smRef_iff, ← hsorts.cpSeid_iff, beq_iff_eq.mp hseid]

/-! ### The CHFs -/

/-- Another record is written. -/
theorem Kept.chf_other (h : Kept σ w) {base : String} {r : Chf.Request}
    (hother : base = σ.chfBase → σ.chargingRef ≠ (w.chf base).ref r) :
    Kept σ { w with chf := Function.update w.chf base ((w.chf base).step r) } := by
  have hchf : (Function.update w.chf base ((w.chf base).step r) σ.chfBase).billed σ.chargingRef =
        w.billed σ ∧
      (Function.update w.chf base ((w.chf base).step r) σ.chfBase).chf.cdrs.lookup σ.chargingRef =
        (w.chf σ.chfBase).chf.cdrs.lookup σ.chargingRef ∧
      (Function.update w.chf base ((w.chf base).step r) σ.chfBase).Books := by
    by_cases hbase : base = σ.chfBase
    · subst hbase
      rw [Function.update_self]
      obtain ⟨hbilled, hlookup⟩ := Chf.World.step_other _ r (hother rfl)
      exact ⟨hbilled, hlookup, h.books.step r⟩
    · rw [Function.update_of_ne (Ne.symm hbase)]
      exact ⟨rfl, rfl, h.books⟩
  obtain ⟨hbilled, hlookup, hbooks⟩ := hchf
  refine { h with books := hbooks, record := ?_, gone := fun hnone => ?_, balance := ?_ }
  · rw [hlookup]
    exact h.record
  · refine (h.gone hnone).imp (fun hclosed => ?_) id
    rw [World.closed, hlookup]
    exact hclosed
  · rw [h.balance, World.billed, World.billed, hbilled]
    rfl

/-- What a request for the session's record does to it. -/
theorem Kept.request (h : Kept σ w) {c : Call} (hc : c.For σ) :
    let w' := w.carryOut c
    ((w'.chf σ.chfBase).chf.cdrs.lookup σ.chargingRef).isSome = true ∧ (w'.chf σ.chfBase).Books ∧
      (w.closed σ = true ∧ c.closes = false ∧ w'.closed σ = true ∧ w'.billed σ = w.billed σ ∨
        ((w.closed σ = true → c.closes = true) ∧ w'.closed σ = c.closes ∧
          w'.billed σ = w.billed σ ++ c.usage)) := by
  obtain ⟨hbase, href⟩ := hc
  have hchf : (w.carryOut c).chf σ.chfBase = (w.chf σ.chfBase).step c.request := by
    rw [World.carryOut, hbase]
    exact Function.update_self ..
  obtain ⟨cdr, hcdr⟩ := Option.isSome_iff_exists.mp h.record
  have hclosed : w.closed σ = cdr.released := by
    rw [World.closed, hcdr]
    rfl
  have hclosed' : (w.carryOut c).closed σ =
      (((w.chf σ.chfBase).step c.request).chf.cdrs.lookup σ.chargingRef).any fun cdr => cdr.released := by
    rw [World.closed, hchf]
  have hbilled' : (w.carryOut c).billed σ =
      ((w.chf σ.chfBase).step c.request).billed σ.chargingRef := by
    rw [World.billed, hchf]
  dsimp only
  rw [hclosed', hbilled', hchf, hclosed]
  have hbooks := h.books.step c.request
  cases hcloses : c.closes with
  | false =>
    have hreq : c.request = .update σ.chargingRef c.req := by
      rw [Call.request, hcloses, ← href]
      rfl
    rw [hreq] at hbooks ⊢
    obtain ⟨hrefused, hno⟩ | ⟨cdr', hcdr', hopen, hfile, -⟩ :=
      (w.chf σ.chfBase).step_update σ.chargingRef c.req
    · have hreleased : cdr.released = true := by
        cases hopen : cdr.released with
        | true => rfl
        | false => simp [Chf.ChfState.update, hcdr, hopen] at hno
      rw [hrefused, hcdr]
      exact ⟨rfl, h.books, .inl ⟨hreleased, rfl, hreleased, rfl⟩⟩
    · cases hcdr.symm.trans hcdr'
      rw [hfile.cdrs, hfile.billed, Map.lookup_insert_eq, if_pos rfl, Function.update_self]
      refine ⟨rfl, hbooks, .inr ⟨fun hreleased => ?_, hopen, rfl⟩⟩
      rw [hopen] at hreleased
      cases hreleased
  | true =>
    have hreq : c.request = .release σ.chargingRef c.req := by
      rw [Call.request, hcloses, ← href]
      rfl
    rw [hreq] at hbooks ⊢
    obtain ⟨hnone, -⟩ | ⟨cdr', hcdr', hfile⟩ :=
      (w.chf σ.chfBase).step_release σ.chargingRef c.req
    · cases hcdr.symm.trans hnone
    · rw [hfile.cdrs, hfile.billed, Map.lookup_insert_eq, if_pos rfl, Function.update_self]
      exact ⟨rfl, hbooks, .inr ⟨fun _ => rfl, rfl, rfl⟩⟩

/-! ### What is under way, after a step -/

theorem World.handed_handOut (cpSeid : Seid) (parts : List UsedUnitContainer) (w : World) (s : Seid) :
    (w.handOut cpSeid parts).handed s = w.handed s ++ if cpSeid = s then parts else [] := by
  rw [World.handOut]
  by_cases hs : cpSeid = s
  · subst hs
    rw [if_pos rfl]
    exact Function.update_self ..
  · rw [if_neg hs, List.append_nil]
    exact Function.update_of_ne (Ne.symm hs) ..

variable {k : ℕ}

theorem held_eraseReport {r : Report} (hr : w.reports.lookup k = some r) :
    w.held σ = World.held σ { w with reports := w.reports.erase k } + tally (r.of σ) := by
  rw [World.held, World.held, Map.total_erase _ hr]
  abel

theorem held_eraseTask (ht : w.tasks.lookup k = some t) :
    w.held σ = World.held σ { w with tasks := w.tasks.erase k } + tally (t.of σ) := by
  rw [World.held, World.held, Map.total_erase _ ht]
  abel

theorem held_eraseCall {c : Call} (hc : w.calls.lookup k = some c) :
    w.held σ = World.held σ { w with calls := w.calls.erase k } + tally (c.of σ) := by
  rw [World.held, World.held, Map.total_erase _ hc]
  abel

/-- A teardown goes on. -/
theorem held_stage (σ : Charged) (ht : w.tasks.lookup k = some t) (stage : Stage) :
    World.held σ { w with tasks := w.tasks.insert k { t with stage } } + tally (t.of σ) =
      w.held σ + tally (Teardown.of σ { t with stage }) := by
  rw [World.held, World.held, Map.total_insert, Map.total_erase _ ht]
  abel

theorem held_send (σ : Charged) {w : World} (hfresh : w.calls.lookup w.next = none) (c : Call) :
    (w.send c).held σ = w.held σ + tally (c.of σ) := by
  rw [World.held, World.held, World.send, Map.total_insert_new _ hfresh]
  abel

theorem held_loop (σ : Charged) (w : World) (l : Loop) :
    World.held σ { w with loop := l } + tally (w.loop.of σ) = w.held σ + tally (l.of σ) := by
  rw [World.held, World.held]
  abel

@[simp] theorem Loop.of_free (k : ℕ) (l : Loop) : (l.free k).of σ = l.of σ := by
  cases l with
  | stopping task =>
    rw [Loop.free]
    split <;> rfl
  | idle => rfl
  | acking smRef c usage => rfl
  | updating smRef call answer => rfl

@[simp] theorem Loop.of_hear (k : ℕ) (answer : Chf.Answer) (l : Loop) :
    (l.hear k answer).of σ = l.of σ := by
  unfold Loop.hear
  split <;> rfl

theorem Loop.acking_of_free {l : Loop} {smRef : String} {c : SmContext} {usage : UsageVolume}
    (h : l.free k = .acking smRef c usage) : l = .acking smRef c usage := by
  unfold Loop.free at h
  split at h
  · split at h <;> cases h
  · exact h

theorem Loop.acking_of_hear {answer : Chf.Answer} {l : Loop} {smRef : String} {c : SmContext}
    {usage : UsageVolume} (h : l.hear k answer = .acking smRef c usage) :
    l = .acking smRef c usage := by
  unfold Loop.hear at h
  split at h
  · cases h
  · exact h

/-! ### The user plane -/

variable {peer : String} {seid : Seid} {urrId : ℕ}

/-- A session at a UPF counts more, or less. -/
theorem Kept.recount (h : Kept σ w) {p : String × Seid} {u u' : UpSession}
    (hu : w.upf.lookup p = some u) (hseid : u'.cpSeid = u.cpSeid) :
    Kept σ { w with upf := w.upf.insert p u' } := by
  refine { h with upf := fun q v hv => ?_ }
  obtain ⟨hq, rfl⟩ | ⟨-, hv⟩ := Map.of_lookup_insert hv
  · rw [hq, hseid]
    exact h.upf p u hu
  · exact h.upf q v hv

theorem Kept.count (h : Kept σ w) (usage : UsageVolume) : Kept σ (w.count peer seid usage) := by
  unfold World.count
  cases hu : w.upf.lookup (peer, seid) with
  | none => exact h
  | some u =>
    dsimp only
    cases w.contextOf u.cpSeid with
    | none => exact h
    | some e => exact h.recount hu rfl

theorem Kept.uncount (h : Kept σ w) : Kept σ (w.uncount peer seid urrId) := by
  unfold World.uncount Map.modify
  cases hu : w.upf.lookup (peer, seid) with
  | none => exact h
  | some u => exact h.recount hu rfl

theorem Kept.report (h : Kept σ w) (hheeds : Heeds σ w (.report peer seid urrId)) :
    Kept σ (w.report peer seid urrId) := by
  unfold World.report
  cases hu : w.upf.lookup (peer, seid) with
  | none => exact h
  | some u =>
    dsimp only
    cases hparts : u.counted.lookup urrId with
    | none => exact h
    | some parts =>
      have hcounted : Kept σ { w with
          upf := w.upf.insert (peer, seid) { u with counted := u.counted.erase urrId } } :=
        h.recount hu rfl
      have hfresh := h.reports w.next le_rfl
      refine { hcounted with
        reports := fun k hk => ?_
        tasks := fun k hk => h.tasks k (Nat.le_of_succ_le hk)
        calls := fun k hk => h.calls k (Nat.le_of_succ_le hk)
        fit := ?_
        balance := ?_ }
      · exact (Map.lookup_insert_eq ..).trans
          ((if_neg (Nat.ne_of_gt hk)).trans (h.reports k (Nat.le_of_succ_le hk)))
      · rw [World.handed_handOut]
        split
        next hself => exact hheeds u hu hself parts hparts
        next =>
          rw [List.append_nil]
          exact h.fit
      · have hheld : World.held σ
            { w with
              upf := w.upf.insert (peer, seid) { u with counted := u.counted.erase urrId }
              reports := w.reports.insert w.next { cpSeid := u.cpSeid, urrId, parts }
              next := w.next + 1 } =
            w.held σ + tally (Report.of σ { cpSeid := u.cpSeid, urrId, parts }) := by
          rw [World.held, World.held, Map.total_insert_new _ hfresh]
          abel
        rw [World.handed_handOut, tally_append]
        calc tally (w.handed σ.cpSeid) + tally (if u.cpSeid = σ.cpSeid then parts else [])
            = tally (w.billed σ) + (w.held σ +
                tally (Report.of σ { cpSeid := u.cpSeid, urrId, parts })) := by
              rw [h.balance, add_assoc]
              rfl
          _ = _ := by
              rw [← hheld]
              rfl

/-! ### Reports -/

theorem Kept.eraseReport (h : Kept σ w) (k : ℕ)
    (hnone : ∀ r, w.reports.lookup k = some r → tally (r.of σ) = 0) :
    Kept σ { w with reports := w.reports.erase k } := by
  cases hr : w.reports.lookup k with
  | none =>
    rw [Map.erase_eq_self hr]
    exact h
  | some r =>
    refine { h with reports := fun j hj => ?_, balance := ?_ }
    · rw [Map.lookup_erase_eq, h.reports j hj]
      exact ite_self none
    · have hbalance := h.balance
      rw [held_eraseReport hr, hnone r hr, add_zero] at hbalance
      exact hbalance

theorem Kept.loseReport (h : Kept σ w) (hheeds : Heeds σ w (.loseReport k)) :
    Kept σ { w with reports := w.reports.erase k } := by
  refine h.eraseReport k fun r hr => ?_
  rw [Report.of]
  split
  next hself => exact (hheeds r hr hself).tally
  next => rfl

/-- The loop takes over what a report brings. -/
theorem Kept.takeUp (h : Kept σ w) {r : Report} (hr : w.reports.lookup k = some r) {l : Loop}
    (hidle : w.loop = .idle) (hsorts : ∀ s c usage, l = .acking s c usage → σ.Sorts s c)
    (hsame : tally (l.of σ) = tally (r.of σ)) :
    Kept σ { w with reports := w.reports.erase k, loop := l } := by
  refine { h with loop := hsorts, reports := fun j hj => ?_, balance := ?_ }
  · rw [Map.lookup_erase_eq, h.reports j hj]
    exact ite_self none
  · have hheld := held_loop σ { w with reports := w.reports.erase k } l
    have hzero : tally (Loop.of σ w.loop) = 0 := by
      rw [hidle]
      rfl
    rw [hzero, add_zero, hsame, ← held_eraseReport hr] at hheld
    rw [hheld]
    exact h.balance

theorem Kept.take (h : Kept σ w) (hheeds : Heeds σ w (.take k)) : Kept σ (w.take k) := by
  unfold World.take
  split
  next hidle =>
    have hinTime := hheeds (by rw [hidle]; rfl)
    cases hr : w.reports.lookup k with
    | none => exact h
    | some r =>
      have hfound : World.contextOf r.cpSeid { w with reports := w.reports.erase k } =
          w.contextOf r.cpSeid := rfl
      dsimp only
      rw [hfound]
      cases hc : w.contextOf r.cpSeid with
      | none =>
        refine h.eraseReport k fun r' hr' => ?_
        cases hr.symm.trans hr'
        rw [Report.of]
        split
        next hself =>
          rw [hself, h.contextOf, Option.map_eq_none_iff] at hc
          have hblank := hinTime r hr hself
          rw [hc] at hblank
          exact Blank.tally hblank
        next => rfl
      | some e =>
        obtain ⟨smRef, c⟩ := e
        obtain ⟨hsorts, hsame⟩ := h.sorts_contextOf hc
        refine h.takeUp hr hidle (fun s c' usage hl => ?_) ?_
        · cases hl
          exact hsorts
        · rw [Loop.of, Report.of]
          by_cases hself : r.cpSeid = σ.cpSeid
          · rw [if_pos (hsame.mp hself), if_pos hself]
            rw [hself, h.contextOf] at hc
            obtain ⟨c', hc', he⟩ := Option.map_eq_some_iff.mp hc
            cases he
            have hattributed := hinTime r hr hself
            rw [hc'] at hattributed
            exact Attributed.tally hattributed
          · rw [if_neg fun hs => hself (hsame.mpr hs), if_neg hself]
  next => exact h

/-- A request leaves for the CHF. -/
theorem lookup_send {c : Call} (hfresh : ∀ k, w.next ≤ k → w.calls.lookup k = none)
    (hk : (w.send c).next ≤ k) : (w.send c).calls.lookup k = none :=
  (Map.lookup_insert_eq ..).trans
    ((if_neg (Nat.ne_of_gt hk)).trans (hfresh k (Nat.le_of_succ_le hk)))

theorem Closing.send (h : Kept σ w) (hclosing : w.Closing σ) (c : Call) : (w.send c).Closing σ := by
  obtain ⟨k, c', hc', hfor, hcloses⟩ := hclosing
  refine ⟨k, c', ?_, hfor, hcloses⟩
  rw [World.send, Map.lookup_insert_eq, if_neg, hc']
  rintro rfl
  rw [h.calls _ le_rfl] at hc'
  cases hc'

theorem Kept.acked (h : Kept σ w) : Kept σ w.acked := by
  unfold World.acked
  split
  next smRef c usage hloop =>
    have hsorts := h.loop smRef c usage hloop
    have hof : w.loop.of σ = if smRef = σ.smRef then [containerFor usage c.policy] else [] := by
      rw [hloop]
      rfl
    cases hcharging : c.charging with
    | none =>
      have hother : ¬ smRef = σ.smRef := by
        intro hself
        have his := hsorts.charging_iff.mpr (hsorts.smRef_iff.mp hself)
        rw [hcharging] at his
        cases his
      have hsorts' : ∀ r c' usage', Loop.idle = .acking r c' usage' → σ.Sorts r c' :=
        fun _ _ _ hl => Loop.noConfusion hl
      refine { h with loop := hsorts', balance := ?_ }
      have hheld := held_loop σ w .idle
      have hidle : Loop.of σ .idle = [] := rfl
      rw [hof, if_neg hother, hidle, tally_nil, add_zero, add_zero] at hheld
      rw [hheld]
      exact h.balance
    | some base =>
      obtain ⟨chfBase, chargingRef⟩ := base
      have hsorts' : ∀ r c' usage', Loop.updating smRef w.next none = .acking r c' usage' →
          σ.Sorts r c' := fun _ _ _ hl => Loop.noConfusion hl
      refine { h with
        loop := hsorts'
        reports := fun k hk => h.reports k (Nat.le_of_succ_le hk)
        tasks := fun k hk => h.tasks k (Nat.le_of_succ_le hk)
        calls := fun k hk => lookup_send h.calls hk
        gone := fun hnone => (h.gone hnone).imp id fun hclosing => Closing.send h hclosing _
        balance := ?_ }
      have hcall : Call.of σ { chfBase, chargingRef, closes := false, req := World.updateFor c usage } =
          w.loop.of σ := by
        rw [Call.of, hof]
        refine if_congr ?_ rfl rfl
        rw [hsorts.smRef_iff, ← hsorts.charging_iff, hcharging, Option.some_inj, Prod.mk.injEq]
        rfl
      have hheld := held_loop σ w (.updating smRef w.next none)
      have hzero : Loop.of σ (.updating smRef w.next none) = [] := rfl
      rw [hzero, tally_nil, add_zero, ← hcall] at hheld
      have hafter := held_send σ (w := { w with loop := .updating smRef w.next none })
        (h.calls w.next le_rfl)
        { chfBase, chargingRef, closes := false, req := World.updateFor c usage }
      rw [hafter, hheld]
      exact h.balance
  next => exact h

/-! ### Teardowns -/

/-- The loop moves on, and carries nothing. -/
theorem Kept.setLoop (h : Kept σ w) {l : Loop} (hsame : l.of σ = w.loop.of σ)
    (hsorts : ∀ r c usage, l = .acking r c usage → σ.Sorts r c) : Kept σ { w with loop := l } := by
  refine { h with loop := hsorts, balance := ?_ }
  have hheld := held_loop σ w l
  rw [hsame] at hheld
  rw [add_right_cancel hheld]
  exact h.balance

theorem Kept.free (h : Kept σ w) (k : ℕ) : Kept σ { w with loop := w.loop.free k } :=
  h.setLoop (Loop.of_free k w.loop) fun r c usage hl => h.loop r c usage (Loop.acking_of_free hl)

theorem Kept.teardown (h : Kept σ w) (smRef : String) : Kept σ (w.teardown smRef) := by
  unfold World.teardown
  cases hc : w.smf.contexts.lookup smRef with
  | none => exact h
  | some c =>
    refine { h with
      reports := fun k hk => h.reports k (Nat.le_of_succ_le hk)
      tasks := fun k hk => ?_
      sorted := fun k t ht => ?_
      calls := fun k hk => h.calls k (Nat.le_of_succ_le hk)
      balance := ?_ }
    · exact (Map.lookup_insert_eq ..).trans
        ((if_neg (Nat.ne_of_gt hk)).trans (h.tasks k (Nat.le_of_succ_le hk)))
    · obtain ⟨-, rfl⟩ | ⟨-, ht⟩ := Map.of_lookup_insert ht
      · exact h.contexts smRef c hc
      · exact h.sorted k t ht
    · have hnothing : Teardown.of σ { smRef, context := c, stage := .deleting none } = [] :=
        ite_self []
      have hheld : World.held σ { w with
          tasks := w.tasks.insert w.next { smRef, context := c, stage := .deleting none }
          next := w.next + 1 } = w.held σ := by
        rw [World.held, World.held, Map.total_insert_new _ (h.tasks w.next le_rfl), hnothing,
          tally_nil, add_zero]
      rw [hheld]
      exact h.balance

theorem Kept.resume (h : Kept σ w) (heard : Bool) : Kept σ (w.resume heard) := by
  unfold World.resume
  split
  next smRef call answer hloop =>
    have hof : w.loop.of σ = [] := by
      rw [hloop]
      rfl
    have hidle : Kept σ { w with loop := .idle } :=
      h.setLoop hof.symm fun _ _ _ hl => Loop.noConfusion hl
    split
    next => exact hidle
    next => exact h
    next answer =>
      split
      next =>
        have hstopping : Kept σ { w with loop := .stopping w.next } :=
          h.setLoop hof.symm fun _ _ _ hl => Loop.noConfusion hl
        exact hstopping.teardown smRef
      next => exact hidle
  next => exact h

/-- A teardown goes on, and brings what it brought. -/
theorem Kept.setStage (h : Kept σ w) (ht : w.tasks.lookup k = some t) {stage : Stage}
    (hsame : tally (Teardown.of σ { t with stage }) = tally (t.of σ)) :
    Kept σ { w with tasks := w.tasks.insert k { t with stage } } := by
  refine { h with tasks := fun j hj => ?_, sorted := fun j t' ht' => ?_, balance := ?_ }
  · rw [Map.lookup_insert_eq, if_neg, h.tasks j hj]
    rintro rfl
    rw [h.tasks j hj] at ht
    cases ht
  · obtain ⟨-, rfl⟩ | ⟨-, ht'⟩ := Map.of_lookup_insert ht'
    · exact h.sorted k t ht
    · exact h.sorted j t' ht'
  · have hheld := held_stage σ ht stage
    rw [hsame] at hheld
    rw [add_right_cancel hheld]
    exact h.balance

theorem Kept.eraseTask (h : Kept σ w) (ht : w.tasks.lookup k = some t) (hnone : tally (t.of σ) = 0) :
    Kept σ { w with tasks := w.tasks.erase k } := by
  refine { h with tasks := fun j hj => ?_, sorted := fun j t' ht' => ?_, balance := ?_ }
  · rw [Map.lookup_erase_eq, h.tasks j hj]
    exact ite_self none
  · exact h.sorted j t' (Map.of_lookup_erase ht').2
  · have hbalance := h.balance
    rw [held_eraseTask ht, hnone, add_zero] at hbalance
    exact hbalance

/-- A context goes, when its release is sent. -/
theorem Kept.dropContext (h : Kept σ w) {smRef : String} (c : SmContext)
    (hclosing : smRef = σ.smRef → w.closed σ = true ∨ w.Closing σ) :
    Kept σ { w with smf := reclaim c { w.smf with contexts := w.smf.contexts.erase smRef } } := by
  have hcontexts : (reclaim c { w.smf with contexts := w.smf.contexts.erase smRef }).contexts =
      w.smf.contexts.erase smRef := reclaim_contexts ..
  refine { h with contexts := fun r c' hc' => ?_, gone := fun hnone => ?_ }
  · dsimp only at hc'
    rw [hcontexts] at hc'
    exact h.contexts r c' (Map.of_lookup_erase hc').2
  · dsimp only at hnone
    rw [hcontexts, Map.lookup_erase_eq] at hnone
    split at hnone
    next hself => exact hclosing hself.symm
    next => exact h.gone hnone

/-- The release that a teardown sends. -/
def Teardown.call (t : Teardown) (final : Final) (chfBase chargingRef : String) : Call :=
  { chfBase
    chargingRef
    closes := true
    req :=
      { subscriberIdentifier := t.context.supi
        pduSessionChargingInformation := none
        usedUnitContainers := final.usages.map fun u => containerFor u t.context.policy } }

theorem spawn_chargingRelease (t : Teardown) (final : Final) (w : World) :
    (t.context.chargingRelease final.usages).foldl World.spawn w =
      match t.context.charging with
      | none => w
      | some (chfBase, chargingRef) => w.send (t.call final chfBase chargingRef) := by
  rw [SmContext.chargingRelease]
  cases t.context.charging <;> rfl

/-- What a teardown was answered is on its way to the CHF instead. -/
theorem Kept.exchange (h : Kept σ w) (ht : w.tasks.lookup k = some t) {c : Call}
    (hsame : tally (c.of σ) = tally (t.of σ)) :
    Kept σ { w.send c with tasks := w.tasks.erase k } := by
  refine { h with
    reports := fun j hj => h.reports j (Nat.le_of_succ_le hj)
    tasks := fun j hj => ?_
    sorted := fun j t' ht' => ?_
    calls := fun j hj => lookup_send h.calls hj
    gone := fun hnone => (h.gone hnone).imp id fun hclosing => Closing.send h hclosing c
    balance := ?_ }
  · exact (Map.lookup_erase_eq ..).trans (by rw [h.tasks j (Nat.le_of_succ_le hj)]; exact ite_self none)
  · exact h.sorted j t' (Map.of_lookup_erase ht').2
  · have hsent := held_send σ (w := { w with tasks := w.tasks.erase k }) (h.calls w.next le_rfl) c
    have hheld : World.held σ { w.send c with tasks := w.tasks.erase k } = w.held σ := by
      rw [held_eraseTask ht, ← hsame, ← hsent]
      rfl
    rw [hheld]
    exact h.balance

/-- A teardown ends, and what it was answered goes to the CHF. -/
theorem Kept.finish (h : Kept σ w) (ht : w.tasks.lookup k = some t) {final : Final}
    (hholding : t.holding = final) (hrelays : t.smRef = σ.smRef → Relays t final) :
    Kept σ (w.finish k t final) := by
  have hsorts := h.sorted k t ht
  unfold World.finish
  rw [spawn_chargingRelease]
  cases hcharging : t.context.charging with
  | none =>
    have hother : ¬ t.smRef = σ.smRef := by
      intro hself
      have his := hsorts.charging_iff.mpr (hsorts.smRef_iff.mp hself)
      rw [hcharging] at his
      cases his
    have hnothing : tally (t.of σ) = 0 := by
      rw [Teardown.of, if_neg hother]
      rfl
    exact ((h.eraseTask ht hnothing).dropContext t.context fun hself => absurd hself hother).free k
  | some base =>
    obtain ⟨chfBase, chargingRef⟩ := base
    have hfor : (t.call final chfBase chargingRef).For σ ↔ t.smRef = σ.smRef := by
      rw [hsorts.smRef_iff, ← hsorts.charging_iff, hcharging, Option.some_inj, Prod.mk.injEq]
      rfl
    have hsame : tally (Call.of σ (t.call final chfBase chargingRef)) = tally (t.of σ) := by
      rw [Call.of, Teardown.of, hholding]
      by_cases hself : t.smRef = σ.smRef
      · rw [if_pos (hfor.mpr hself), if_pos hself]
        exact (hrelays hself).tally
      · rw [if_neg fun hc => hself (hfor.mp hc), if_neg hself]
    refine ((h.exchange ht hsame).dropContext t.context fun hself => .inr ?_).free k
    exact ⟨w.next, _, (Map.lookup_insert_eq ..).trans (if_pos rfl), hfor.mpr hself, rfl⟩

theorem Kept.deleted (h : Kept σ w) {heard : Bool} (hheeds : Heeds σ w (.deleted k heard)) :
    Kept σ (w.deleted k heard) := by
  unfold World.deleted
  cases ht : w.tasks.lookup k with
  | none => exact h
  | some t =>
    have hhears := hheeds t ht
    dsimp only
    split
    next hstage =>
      have hnothing : t.holding = [] := by
        rw [Teardown.holding, hstage]
      have hsame : tally (Teardown.of σ { t with stage := .abandoned }) = tally (t.of σ) := by
        rw [Teardown.of, Teardown.of, hnothing]
        rfl
      exact (h.setStage ht hsame).free k
    next final hstage =>
      have hholding : t.holding = final := by
        rw [Teardown.holding, hstage]
      refine (h.eraseTask ht ?_).free k
      rw [Teardown.of, hholding]
      split
      next hself =>
        have hblank := hhears hself
        simp only [Hears, hstage] at hblank
        exact Blank.tally hblank
      next => rfl
    next final hstage =>
      have hholding : t.holding = final := by
        rw [Teardown.holding, hstage]
      split
      next =>
        refine h.setStage ht ?_
        rw [Teardown.of, Teardown.of, hholding]
        rfl
      next hlegs =>
        refine h.finish ht hholding fun hself => ?_
        have hrelays := hhears hself
        simp only [Hears, hstage] at hrelays
        exact hrelays.resolve_left hlegs
    next => exact h

theorem Kept.legsDeleted (h : Kept σ w) (hheeds : Heeds σ w (.legsDeleted k)) :
    Kept σ (w.legsDeleted k) := by
  unfold World.legsDeleted
  cases ht : w.tasks.lookup k with
  | none => exact h
  | some t =>
    dsimp only
    split
    next final hstage =>
      refine h.finish ht ?_ fun hself => ?_
      · rw [Teardown.holding, hstage]
      · have hcharges := hheeds t ht hself
        rw [Charges, hstage] at hcharges
        exact hcharges
    next => exact h

theorem Kept.loseDeletion (h : Kept σ w) (k : ℕ) : Kept σ (w.loseDeletion k) := by
  unfold World.loseDeletion
  cases ht : w.tasks.lookup k with
  | none => exact h
  | some t =>
    dsimp only
    split
    next hstage =>
      refine h.eraseTask ht ?_
      rw [Teardown.of, Teardown.holding, hstage]
      exact congrArg tally (ite_self [])
    next => exact h

/-! ### Deletions at the anchor -/

/-- A teardown is the session's exactly when it asks for the deletion of the session at the anchor. -/
theorem Kept.key_iff (h : Kept σ w) (ht : w.tasks.lookup k = some t) {u : UpSession}
    (hu : w.upf.lookup (t.context.path.anchor, t.context.upSeid) = some u) :
    u.cpSeid = σ.cpSeid ↔ t.smRef = σ.smRef := by
  have hsorts := h.sorted k t ht
  rw [hsorts.smRef_iff, ← hsorts.key_iff]
  exact (h.upf _ u hu).symm

theorem Kept.eraseUpf (h : Kept σ w) (p : String × Seid) :
    Kept σ { w with upf := w.upf.erase p } := by
  refine { h with upf := fun q u hu => ?_ }
  exact h.upf q u (Map.of_lookup_erase hu).2

/-- What the anchor hands out is with a teardown. -/
theorem Kept.handOver (h : Kept σ w) (ht : w.tasks.lookup k = some t) (hnothing : t.holding = [])
    {u : UpSession} (hself : u.cpSeid = σ.cpSeid ↔ t.smRef = σ.smRef)
    (hfit : u.cpSeid = σ.cpSeid → Fit (w.handed σ.cpSeid ++ u.final.parts)) :
    Kept σ { w.handOut u.cpSeid u.final.parts with
      tasks := w.tasks.insert k { t with stage := .deleting (some u.final) } } := by
  refine { h with
    tasks := fun j hj => ?_, sorted := fun j t' ht' => ?_, fit := ?_, balance := ?_ }
  · rw [Map.lookup_insert_eq, if_neg, h.tasks j hj]
    rintro rfl
    rw [h.tasks j hj] at ht
    cases ht
  · obtain ⟨-, rfl⟩ | ⟨-, ht'⟩ := Map.of_lookup_insert ht'
    · exact h.sorted k t ht
    · exact h.sorted j t' ht'
  · have hhanded := World.handed_handOut u.cpSeid u.final.parts w σ.cpSeid
    dsimp only
    rw [hhanded]
    split
    next hs => exact hfit hs
    next =>
      rw [List.append_nil]
      exact h.fit
  · have hhanded := World.handed_handOut u.cpSeid u.final.parts w σ.cpSeid
    have hheld := held_stage σ ht (.deleting (some u.final))
    have hzero : t.of σ = [] := by
      rw [Teardown.of, hnothing]
      exact ite_self []
    have hparts : Teardown.of σ { t with stage := .deleting (some u.final) } =
        if u.cpSeid = σ.cpSeid then u.final.parts else [] := if_congr hself.symm rfl rfl
    rw [hzero, tally_nil, add_zero, hparts] at hheld
    dsimp only
    rw [hhanded, tally_append, h.balance, add_assoc, ← hheld]
    rfl

/-- What counts nothing is handed out to nobody. -/
theorem Kept.handOutBlank (h : Kept σ w) {cpSeid : Seid} {parts : List UsedUnitContainer}
    (hblank : cpSeid = σ.cpSeid → Blank parts) : Kept σ (w.handOut cpSeid parts) := by
  have hhanded := World.handed_handOut cpSeid parts w σ.cpSeid
  have hnothing : Blank (if cpSeid = σ.cpSeid then parts else []) := by
    split
    next hs => exact hblank hs
    next => exact fun c hc => nomatch hc
  refine { h with fit := ?_, balance := ?_ }
  · rw [hhanded]
    exact hnothing.append h.fit
  · rw [hhanded, tally_append, hnothing.tally, add_zero]
    exact h.balance

theorem deletion_unknown {c : SmContext} (hu : w.upf.lookup (c.path.anchor, c.upSeid) = none) :
    w.deletion c = ([], w) := by
  simp only [World.deletion, hu]

theorem deletion_known {c : SmContext} {u : UpSession}
    (hu : w.upf.lookup (c.path.anchor, c.upSeid) = some u) :
    w.deletion c =
      (u.final, World.handOut u.cpSeid u.final.parts
        { w with upf := w.upf.erase (c.path.anchor, c.upSeid) }) := by
  simp only [World.deletion, hu]

theorem Kept.delete (h : Kept σ w) (hheeds : Heeds σ w (.delete k)) : Kept σ (w.delete k) := by
  unfold World.delete
  cases ht : w.tasks.lookup k with
  | none => exact h
  | some t =>
    have hawaited : ∀ u, w.upf.lookup (t.context.path.anchor, t.context.upSeid) = some u →
        u.cpSeid = σ.cpSeid → Awaited (w.handed σ.cpSeid) u.final t.stage := by
      intro u hu hself
      have hkey := (h.upf _ u hu).mpr hself
      exact hheeds t ht ((h.key_iff ht hu).mp hself) u (hkey ▸ hu)
    dsimp only
    split
    next hstage =>
      have hnothing : t.holding = [] := by
        rw [Teardown.holding, hstage]
      cases hu : w.upf.lookup (t.context.path.anchor, t.context.upSeid) with
      | none =>
        rw [deletion_unknown hu]
        refine h.setStage ht ?_
        rw [Teardown.of, Teardown.of, hnothing]
        rfl
      | some u =>
        rw [deletion_known hu]
        refine (h.eraseUpf _).handOver ht hnothing (h.key_iff ht hu) fun hself => ?_
        have hfit := hawaited u hu hself
        rw [hstage] at hfit
        exact hfit
    next hstage =>
      have hnothing : tally (t.of σ) = 0 := by
        rw [Teardown.of, Teardown.holding, hstage]
        exact congrArg tally (ite_self [])
      cases hu : w.upf.lookup (t.context.path.anchor, t.context.upSeid) with
      | none =>
        rw [deletion_unknown hu]
        exact h.eraseTask ht hnothing
      | some u =>
        rw [deletion_known hu]
        refine ((h.eraseUpf _).eraseTask ht hnothing).handOutBlank fun hself => ?_
        have hblank := hawaited u hu hself
        rw [hstage] at hblank
        exact hblank
    next => exact h

/-! ### Calls -/

theorem Kept.refresh (h : Kept σ w) (smRef : String) (decision : SmPolicyDecision) :
    Kept σ { w with smf := storeDecision smRef decision w.smf } := by
  have hlookup : ∀ r, (storeDecision smRef decision w.smf).contexts.lookup r =
      if r = smRef then (w.smf.contexts.lookup smRef).map fun c =>
        { c with reservedGfbr := decisionGfbr decision, policy := decision }
      else w.smf.contexts.lookup r := by
    intro r
    rw [storeDecision_contexts, Map.lookup_modify]
  refine { h with contexts := fun r c hc => ?_, gone := fun hnone => h.gone ?_ }
  · dsimp only at hc
    rw [hlookup] at hc
    split at hc
    next hr =>
      obtain ⟨c', hc', hchanged⟩ := Option.map_eq_some_iff.mp hc
      subst hchanged
      rw [hr]
      exact h.contexts smRef c' hc'
    next => exact h.contexts r c hc
  · dsimp only at hnone
    rw [hlookup] at hnone
    split at hnone
    next hself =>
      rw [hself]
      exact Option.map_eq_none_iff.mp hnone
    next => exact hnone

/-- A request goes, carried out or not. -/
theorem Kept.eraseCall (h : Kept σ w) {c : Call} (hc : w.calls.lookup k = some c)
    (hnone : tally (c.of σ) = 0) (hgone : c.For σ → c.closes = true → w.closed σ = true ∨
      World.Closing σ { w with calls := w.calls.erase k }) :
    Kept σ { w with calls := w.calls.erase k } := by
  refine { h with calls := fun j hj => ?_, gone := fun hnone => ?_, balance := ?_ }
  · rw [Map.lookup_erase_eq, h.calls j hj]
    exact ite_self none
  · obtain hclosed | ⟨j, c', hc', hfor, hcloses⟩ := h.gone hnone
    · exact .inl hclosed
    · by_cases hj : j = k
      · subst hj
        cases hc.symm.trans hc'
        exact hgone hfor hcloses
      · exact .inr ⟨j, c', by rw [Map.lookup_erase_eq, if_neg hj, hc'], hfor, hcloses⟩
  · have hbalance := h.balance
    rw [held_eraseCall hc, hnone, add_zero] at hbalance
    exact hbalance

/-- Another record's request is carried out. -/
theorem Kept.carryOut_other (h : Kept σ w) {c : Call} (hother : ¬ c.For σ) : Kept σ (w.carryOut c) := by
  refine h.chf_other fun hbase href => hother ⟨hbase, ?_⟩
  rw [href, Call.request]
  cases c.closes <;> rfl

theorem Call.of_self {c : Call} (hfor : c.For σ) : c.of σ = c.usage := if_pos hfor

/-- The session's own request is carried out, once. -/
theorem Kept.carryOut_own (h : Kept σ w) {c : Call} (hc : w.calls.lookup k = some c) (hfor : c.For σ)
    (hlate : c.closes = false → w.closed σ = true → Blank c.usage) :
    Kept σ (World.carryOut c { w with calls := w.calls.erase k }) := by
  obtain ⟨hrecord, hbooks, hcases⟩ := h.request hfor
  refine { h with
    calls := fun j hj => ?_, books := hbooks, record := hrecord, gone := fun hnone => ?_, balance := ?_ }
  · exact (Map.lookup_erase_eq ..).trans (by rw [h.calls j hj]; exact ite_self none)
  · obtain ⟨-, -, hclosed', -⟩ | ⟨hopen, hclosed', -⟩ := hcases
    · exact .inl hclosed'
    · obtain hclosed | ⟨j, c', hc', hfor', hcloses⟩ := h.gone hnone
      · exact .inl (hclosed'.trans (hopen hclosed))
      · by_cases hj : j = k
        · subst hj
          cases hc.symm.trans hc'
          exact .inl (hclosed'.trans hcloses)
        · exact .inr ⟨j, c', (Map.lookup_erase_eq ..).trans ((if_neg hj).trans hc'), hfor', hcloses⟩
  · have hbalance := h.balance
    rw [held_eraseCall hc, Call.of_self hfor] at hbalance
    obtain ⟨hclosed, hcloses, -, hbilled⟩ | ⟨-, -, hbilled⟩ := hcases
    · rw [(hlate hcloses hclosed).tally, add_zero, ← hbilled] at hbalance
      exact hbalance
    · have hbilled' : World.billed σ (World.carryOut c { w with calls := w.calls.erase k }) =
          w.billed σ ++ c.usage := hbilled
      rw [hbilled', tally_append, add_assoc, add_comm (tally c.usage)]
      exact hbalance

theorem Kept.deliver (h : Kept σ w) (hheeds : Heeds σ w (.deliver k)) :
    Kept σ (w.deliver k) := by
  unfold World.deliver
  cases hc : w.calls.lookup k with
  | none => exact h
  | some c =>
    have hcarried : Kept σ (World.carryOut c { w with calls := w.calls.erase k }) := by
      by_cases hfor : c.For σ
      · exact h.carryOut_own hc hfor (hheeds c hc hfor)
      · refine Kept.carryOut_other (h.eraseCall hc ?_ fun hself => absurd hself hfor) hfor
        rw [Call.of, if_neg hfor]
        rfl
    exact hcarried.setLoop (Loop.of_hear _ _ w.loop) fun r c' usage hl =>
      h.loop r c' usage (Loop.acking_of_hear hl)

theorem Kept.deliverAgain (h : Kept σ w) (hheeds : Heeds σ w (.deliverAgain k)) :
    Kept σ (w.deliverAgain k) := by
  unfold World.deliverAgain
  cases hc : w.calls.lookup k with
  | none => exact h
  | some c =>
    by_cases hfor : c.For σ
    · obtain ⟨hrecord, hbooks, hcases⟩ := h.request hfor
      refine { h with books := hbooks, record := hrecord, gone := fun hnone => ?_, balance := ?_ }
      · obtain ⟨-, -, hclosed', -⟩ | ⟨hopen, hclosed', -⟩ := hcases
        · exact .inl hclosed'
        · refine (h.gone hnone).imp (fun hclosed => ?_) id
          exact hclosed'.trans (hopen hclosed)
      · obtain ⟨-, -, -, hbilled⟩ | ⟨hopen, -, hbilled⟩ := hcases
        · rw [hbilled]
          exact h.balance
        · have hblank : Blank c.usage := by
            refine hheeds c hc hfor fun hcloses => ?_
            rw [← Bool.not_eq_true]
            intro hclosed
            rw [hopen hclosed] at hcloses
            cases hcloses
          rw [hbilled, tally_append, hblank.tally, add_zero]
          exact h.balance
    · exact h.carryOut_other hfor

theorem Kept.loseCall (h : Kept σ w) (hheeds : Heeds σ w (.loseCall k)) :
    Kept σ { w with calls := w.calls.erase k } := by
  cases hc : w.calls.lookup k with
  | none =>
    rw [Map.erase_eq_self hc]
    exact h
  | some c =>
    refine h.eraseCall hc ?_ fun hfor hcloses => ?_
    · rw [Call.of]
      split
      next hfor => exact (hheeds c hc hfor).1.tally
      next => rfl
    · refine ((hheeds c hc hfor).2 hcloses).imp id fun hother => ?_
      obtain ⟨⟨j, c'⟩, hfound⟩ := Option.isSome_iff_exists.mp hother
      obtain ⟨hc', hboth⟩ := Map.find?_eq_some hfound
      rw [Bool.and_eq_true, decide_eq_true_iff] at hboth
      exact ⟨j, c', hc', hboth.2, hboth.1⟩

/-! ### New sessions -/

variable {smRef chfBase : String} {context : SmContext}

theorem Kept.establish (h : Kept σ w) {chfBase : Option String}
    (hapart : σ.Apart smRef (w.opened context chfBase)) :
    Kept σ (w.establish smRef context chfBase) := by
  have hplaced : Kept σ { w with
      upf := w.upf.insert (context.path.anchor, context.upSeid) { cpSeid := context.cpSeid }
      smf := { w.smf with
        contexts := w.smf.contexts.insert smRef (w.opened context chfBase) } } := by
    refine { h with contexts := fun r c hc => ?_, upf := fun p u hu => ?_, gone := fun hnone => ?_ }
    · obtain ⟨hr, rfl⟩ | ⟨-, hc⟩ := Map.of_lookup_insert hc
      · exact .inr (hr ▸ hapart)
      · exact h.contexts r c hc
    · obtain ⟨hp, rfl⟩ | ⟨-, hu⟩ := Map.of_lookup_insert hu
      · refine iff_of_false (fun hkey => hapart.2.2.1 ?_) hapart.2.1
        exact hp.symm.trans hkey
      · exact h.upf p u hu
    · refine h.gone ?_
      rwa [Map.lookup_insert_eq, if_neg (Ne.symm hapart.1)] at hnone
  unfold World.establish
  cases chfBase with
  | none => exact hplaced
  | some base =>
    refine hplaced.chf_other fun hbase href => hapart.2.2.2 ?_
    subst hbase
    rw [href]
    rfl

/-- Nothing of the session is under way. -/
theorem held_eq_zero (hreports : ∀ k r, w.reports.lookup k = some r → r.cpSeid ≠ σ.cpSeid)
    (hloop : ∀ r c usage, w.loop = .acking r c usage → r ≠ σ.smRef)
    (htasks : ∀ k t, w.tasks.lookup k = some t → t.smRef ≠ σ.smRef)
    (hcalls : ∀ k c, w.calls.lookup k = some c → ¬ c.For σ) : w.held σ = 0 := by
  have hidle : w.loop.of σ = [] := by
    cases hl : w.loop with
    | acking smRef c usage => exact if_neg (hloop smRef c usage hl)
    | idle => rfl
    | updating smRef call answer => rfl
    | stopping task => rfl
  have hnoReport : (w.reports.total fun r => tally (r.of σ)) = 0 :=
    Map.total_eq_zero _ fun e he => congrArg tally (if_neg (hreports e.1 e.2 (Map.lookup_eq_some_iff.mpr he)))
  have hnoTask : (w.tasks.total fun t => tally (t.of σ)) = 0 :=
    Map.total_eq_zero _ fun e he => congrArg tally (if_neg (htasks e.1 e.2 (Map.lookup_eq_some_iff.mpr he)))
  have hnoCall : (w.calls.total fun c => tally (c.of σ)) = 0 :=
    Map.total_eq_zero _ fun e he => congrArg tally (if_neg (hcalls e.1 e.2 (Map.lookup_eq_some_iff.mpr he)))
  rw [World.held, hnoReport, hidle, hnoTask, hnoCall]
  rfl

/-- A session that nothing knows is established. -/
theorem kept_established (h : World.Unknown (w.session smRef context chfBase) w) :
    Kept (w.session smRef context chfBase) (w.establish smRef context (some chfBase)) := by
  have hchf : (w.establish smRef context (some chfBase)).chf chfBase =
      (w.chf chfBase).step (.create
        { subscriberIdentifier := context.supi
          pduSessionChargingInformation := some (context.pduSessionId, context.dnn)
          usedUnitContainers := [] }) := Function.update_self ..
  have hfile := (w.chf chfBase).step_create
    { subscriberIdentifier := context.supi
      pduSessionChargingInformation := some (context.pduSessionId, context.dnn)
      usedUnitContainers := [] }
  constructor
  case contexts =>
    intro r c hc
    replace hc := (Map.lookup_insert_eq ..).symm.trans hc
    split at hc
    next hr =>
      cases hc
      exact .inl ⟨hr, rfl, rfl, rfl⟩
    next => exact .inr (h.contexts r c hc)
  case upf =>
    intro p u hu
    replace hu := (Map.lookup_insert_eq ..).symm.trans hu
    split at hu
    next hp =>
      cases hu
      exact iff_of_true hp rfl
    next => exact iff_of_false (h.upf p u hu).1 (h.upf p u hu).2
  case loop => exact fun r c usage hl => .inr (h.loop r c usage hl)
  case reports =>
    intro k hk
    refine Option.eq_none_iff_forall_ne_some.mpr fun r hr => ?_
    exact absurd hk (Nat.not_le.mpr (h.reports k r hr).1)
  case tasks =>
    intro k hk
    refine Option.eq_none_iff_forall_ne_some.mpr fun t ht => ?_
    exact absurd hk (Nat.not_le.mpr (h.tasks k t ht).1)
  case sorted => exact fun k t ht => .inr (h.tasks k t ht).2
  case calls =>
    intro k hk
    refine Option.eq_none_iff_forall_ne_some.mpr fun c hc => ?_
    exact absurd hk (Nat.not_le.mpr (h.calls k c hc).1)
  case books =>
    have hbooks : ((w.establish smRef context (some chfBase)).chf chfBase).Books := by
      rw [hchf]
      exact Chf.World.Books.step h.books _
    exact hbooks
  case record =>
    have hcdr := congrArg (fun m => (m.lookup (w.chf chfBase).chf.nextRef).isSome) hfile.cdrs
    rw [Map.lookup_insert_eq, if_pos rfl, ← hchf] at hcdr
    exact hcdr
  case gone =>
    intro hnone
    replace hnone := (Map.lookup_insert_eq ..).symm.trans hnone
    exact absurd ((if_pos rfl).symm.trans hnone) (Option.some_ne_none _)
  case fit =>
    have hhanded := h.handed
    change Fit (w.handed (w.session smRef context chfBase).cpSeid)
    rw [hhanded]
    exact Chf.fit_nil
  case balance =>
    have hbilled : World.billed (w.session smRef context chfBase)
        (w.establish smRef context (some chfBase)) = [] := by
      have hnone := congrFun hfile.billed (w.chf chfBase).chf.nextRef
      rw [Function.update_self, ← hchf] at hnone
      exact hnone
    have hheld : World.held (w.session smRef context chfBase)
        (w.establish smRef context (some chfBase)) = 0 :=
      held_eq_zero (fun k r hr => (h.reports k r hr).2) (fun r c usage hl => (h.loop r c usage hl).1)
        (fun k t ht => (h.tasks k t ht).2.1) fun k c hc => (h.calls k c hc).2
    have hhanded := congrArg tally h.handed
    rw [hbilled, hheld]
    exact hhanded

theorem Kept.step (h : Kept σ w) (e : Event) (hheeds : Heeds σ w e) : Kept σ (w.step e) := by
  cases e with
  | establish smRef context chfBase => exact h.establish hheeds
  | count peer seid usage => exact h.count usage
  | uncount peer seid urrId => exact h.uncount
  | report peer seid urrId => exact h.report hheeds
  | loseReport k => exact h.loseReport hheeds
  | take k => exact h.take hheeds
  | acked => exact h.acked
  | resume heard => exact h.resume heard
  | release smRef => exact h.teardown smRef
  | delete k => exact h.delete hheeds
  | deleted k heard => exact h.deleted hheeds
  | legsDeleted k => exact h.legsDeleted hheeds
  | loseDeletion k => exact h.loseDeletion k
  | refresh smRef decision => exact h.refresh smRef decision
  | deliver k => exact h.deliver hheeds
  | deliverAgain k => exact h.deliverAgain hheeds
  | loseCall k => exact h.loseCall hheeds

/-! ### Every run -/

/-- What is handed out is on the record when nothing is under way. -/
theorem Kept.exact (h : Kept σ w) (hsettled : w.Settled σ) : w.Exact σ := by
  have hclosed : w.closed σ = true := by
    refine (h.gone hsettled.context).resolve_right ?_
    rintro ⟨k, c, hc, hfor, -⟩
    exact hsettled.calls k c hc hfor
  have hbalance := h.balance
  rw [held_eq_zero hsettled.reports hsettled.loop hsettled.tasks hsettled.calls, add_zero] at hbalance
  obtain ⟨cdr, hcdr⟩ := Option.isSome_iff_exists.mp h.record
  rw [World.closed, hcdr] at hclosed
  refine ⟨cdr, hcdr, hclosed, fun g m => ?_⟩
  have hcount : amount m (brought g (w.handed σ.cpSeid)) =
      amount m (brought g ((w.chf σ.chfBase).billed σ.chargingRef)) := congrFun (congrFun hbalance g) m
  rw [(h.books _ cdr hcdr).entry g, hcount]
  split
  next hnone =>
    rw [hnone]
    rfl
  next =>
    rw [Option.elim_some, Chf.read_container, ← hcount]
    exact Nat.mod_eq_of_lt (h.fit.amount_lt g m)

/-- **Usage reaches the record once.**  In every run that heeds the side condition, from when a charged session
is established, its record holds what the UPF handed out for it whenever it is torn down and nothing of it is
under way. -/
theorem exactly_once (h : World.Unknown (w.session smRef context chfBase) w) (es : List Event)
    (hes : Runs.Along World.step (Heeds (w.session smRef context chfBase))
      (w.establish smRef context (some chfBase)) es)
    (hsettled : World.Settled (w.session smRef context chfBase)
      (Runs.run World.step (w.establish smRef context (some chfBase)) es)) :
    World.Exact (w.session smRef context chfBase)
      (Runs.run World.step (w.establish smRef context (some chfBase)) es) :=
  Kept.exact (Runs.invariant_along (fun _ e hheeds hkept => hkept.step e hheeds) hes (kept_established h))
    hsettled

/-! ### A run that is billed and one that is not -/

def sampleContext : SmContext :=
  { upSeid := 7
    cpSeid := 3
    n3Teid := 1
    n3Addr := 0x7F000001
    chain := none
    path := { anchor := "upf", intermediate := none, breakout := none }
    ueIp := none
    pduType := .ipv4
    ueIpv6 := none
    dnn := "internet"
    snssai := { sst := 1, sd := none }
    gnb := none
    indirectFwd := none
    supi := "imsi-999700000000001"
    pduSessionId := 5
    smPolicy := none
    policy := {}
    reservedGfbr := (0, 0)
    policyBreakout := false
    charging := none }

def sampleWorld : World :=
  { smf := { peers := ["upf"], routing := .fixed "upf" none none }
    chf := fun _ => .start none }

def sampleSession : Charged := sampleWorld.session "1" sampleContext "chf"

/-- Uplink traffic off every flow. -/
def uplink (bytes : ℕ) : UsageVolume :=
  { urrId := 1, total := bytes, uplink := bytes, downlink := 0, totalPkts := 1, uplinkPkts := 1, downlinkPkts := 0 }

/-- A threshold report, relayed, and the rest with the deletion. -/
def billed : List Event :=
  [.count "upf" 7 (uplink 1500), .report "upf" 7 1, .take 0, .acked, .deliver 1, .resume true,
    .count "upf" 7 (uplink 400), .release "1", .delete 2, .deleted 2 true, .deliver 3]

/-- A threshold report that a release overtakes. -/
def overtaken : List Event :=
  [.count "upf" 7 (uplink 1500), .report "upf" 7 1, .release "1", .delete 1, .deleted 1 true, .deliver 2,
    .take 0]

theorem unknown_sample : World.Unknown sampleSession sampleWorld where
  contexts _ _ h := nomatch h
  upf _ _ h := nomatch h
  loop _ _ _ h := nomatch h
  reports _ _ h := nomatch h
  tasks _ _ h := nomatch h
  calls _ _ h := nomatch h
  handed := rfl
  books := Chf.World.books_start none

/-- Where a run leaves the sample session. -/
def after (es : List Event) : World :=
  Runs.run World.step (sampleWorld.establish "1" sampleContext (some "chf")) es

theorem settled_of_idle {es : List Event} (hloop : (after es).loop.isIdle = true)
    (hcontext : ((after es).smf.contexts.lookup "1").isNone = true)
    (hreports : (after es).reports.entries.length = 0) (htasks : (after es).tasks.entries.length = 0)
    (hcalls : (after es).calls.entries.length = 0) : World.Settled sampleSession (after es) := by
  constructor
  · exact Option.isNone_iff_eq_none.mp hcontext
  · intro r c usage hl
    rw [hl] at hloop
    cases hloop
  · intro k r hr
    rw [Map.lookup_eq_some_iff, List.eq_nil_of_length_eq_zero hreports] at hr
    cases hr
  · intro k t ht
    rw [Map.lookup_eq_some_iff, List.eq_nil_of_length_eq_zero htasks] at ht
    cases ht
  · intro k c hc
    rw [Map.lookup_eq_some_iff, List.eq_nil_of_length_eq_zero hcalls] at hc
    cases hc

theorem exactly_once_sample : World.Exact sampleSession (after billed) :=
  exactly_once unknown_sample billed (by decide +kernel)
    (settled_of_idle (by decide +kernel) (by decide +kernel) (by decide +kernel) (by decide +kernel)
      (by decide +kernel))

/-- **Overtaken by the release.** What is reported just before a release is on no record. -/
theorem not_exactly_once : ¬ ∀ es : List Event, World.Settled sampleSession (after es) →
    World.Exact sampleSession (after es) := by
  intro h
  obtain ⟨cdr, hcdr, -, hcounts⟩ := h overtaken
    (settled_of_idle (by decide +kernel) (by decide +kernel) (by decide +kernel) (by decide +kernel)
      (by decide +kernel))
  have hrecord : (((after overtaken).chf "chf").chf.cdrs.lookup "0").map
      (fun cdr => (cdr.usage.lookup 0).elim 0 (read .totalVolume)) = some 0 := by decide +kernel
  have hhanded : amount .totalVolume (brought 0 ((after overtaken).handed 3)) = 1500 := by decide +kernel
  have hcdr' : ((after overtaken).chf "chf").chf.cdrs.lookup "0" = some cdr := hcdr
  have hcount := (hcounts 0 .totalVolume).trans hhanded
  rw [hcdr', Option.map_some, Option.some_inj, hcount] at hrecord
  cases hrecord

end Radian.Smf.Billing
