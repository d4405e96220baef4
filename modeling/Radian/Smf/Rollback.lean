import Radian.Smf.Ledger

/-!
# Rolling an establishment back

What `createSmContext` gives back when it fails, for every outcome of every call it makes.

- `RolledBack` — the GFBR account and both pools allow the same future as before, every N4 session
  a UPF opened has been sent a deletion, and the PCF's association is gone.
- `CleanExits` — the PCF decided nothing, an anchor that accepted was heard, and no other UPF
  accepted a session.
- `create_rolls_back_iff` — a failed establishment is rolled back exactly then.
- `create_not_rolled_back` — so not always: a chain that fails leaves its breakout anchor's session.
-/

namespace Radian.Smf

open Proc (Exec before Stays)
open Npcf (SmPolicyContextData)
open Pfcp (Ipv4Addr Ipv6Addr Seid UeAddr N4Request EstablishedSession)

/-! ### What the outside saw -/

/-- One N4 exchange. -/
structure N4Event where
  peer : String
  req : N4Request
  outcome : N4Outcome

/-- The N4 exchanges in order, and whether the PCF decided a policy. -/
structure ExchangeLog where
  n4 : List N4Event := []
  decided : Bool := false

/-- Only a request for a session opens one, under a SEID the UPF has not used before; a session
read from the response is the one it opened. -/
def N4Outcome.admissible (log : List N4Event) (peer : String) (req : N4Request)
    (out : N4Outcome) : Bool :=
  (req.opens || out.installed.isNone) &&
    (match out.reply.bind fun r => r.session with
      | some e => out.installed == some e.upSeid
      | none => true) &&
    log.all fun ev =>
      !(ev.peer == peer && ev.outcome.installed.isSome && ev.outcome.installed == out.installed)

def loggedOutside : Outside Unit Core Mark Call Call.Answer ExchangeLog where
  answers e w r := match e, r with
    | .transact peer req, out => out.admissible w.n4 peer req
    | _, _ => true
  effect e r w := match e, r with
    | .transact peer req, out => { w with n4 := w.n4 ++ [⟨peer, req, out⟩] }
    | .decideFor _, _ => { w with decided := true }
    | _, _ => w
  mark _ _ _ w := w

/-- No side condition. -/
abbrev anyMark : Mark → Unit → Core → ExchangeLog → Prop := fun _ _ _ _ => True

/-! ### Future admissions -/

inductive GfbrOp where
  | reserve (g : Gfbr)
  | release (g : Gfbr)
  | adjust (old new : Gfbr)

/-- Which reservations a sequence of operations on the account admits. -/
def SmfState.gfbrFuture : List GfbrOp → SmfState → List Bool
  | [], _ => []
  | .reserve g :: ops, s => (s.tryReserveGfbr g).1 :: gfbrFuture ops (s.tryReserveGfbr g).2
  | .release g :: ops, s => gfbrFuture ops (s.releaseGfbr g)
  | .adjust old new :: ops, s => gfbrFuture ops (s.adjustGfbr old new)

/-- An unbounded budget. -/
def maxRate : UInt64 := 0xFFFFFFFFFFFFFFFF

/-- The account of one direction is the same, or its budget is unbounded. -/
def RateAlike (budget r r' : UInt64) : Prop := r = r' ∨ budget = maxRate

theorem RateAlike.trans {b r₁ r₂ r₃ : UInt64} (h : RateAlike b r₁ r₂) (h' : RateAlike b r₂ r₃) :
    RateAlike b r₁ r₃ := by
  rcases h with rfl | h
  · exact h'
  · exact Or.inr h

/-- Accounts that are alike admit the same reservation. -/
theorem RateAlike.admits {b r r' : UInt64} (h : RateAlike b r r') (g : UInt64) :
    saturatingAdd r g > b ↔ saturatingAdd r' g > b := by
  have unbounded : ∀ r : UInt64, ¬ saturatingAdd r g > maxRate := by
    intro r hgt
    rw [gt_iff_lt, UInt64.lt_iff_toNat_lt, toNat_saturatingAdd] at hgt
    have hmax : maxRate.toNat = 2 ^ 64 - 1 := rfl
    omega
  rcases h with rfl | rfl
  · exact Iff.rfl
  · exact iff_of_false (unbounded r) (unbounded r')

/-- An admitted reservation undone: a sum that wrapped was admitted against an unbounded budget. -/
theorem RateAlike.undo {b r g : UInt64} (hfits : ¬ saturatingAdd r g > b) :
    RateAlike b (saturatingSub (r + g) g) r := by
  by_cases hsum : r.toNat + g.toNat < 2 ^ 64
  · left
    apply UInt64.toNat_inj.mp
    rw [toNat_saturatingSub, UInt64.toNat_add, Nat.mod_eq_of_lt hsum]
    omega
  · right
    rw [gt_iff_lt, UInt64.lt_iff_toNat_lt, toNat_saturatingAdd] at hfits
    have hb := b.toNat_lt
    have hmax : maxRate.toNat = 2 ^ 64 - 1 := rfl
    apply UInt64.toNat_inj.mp
    omega

structure GfbrAlike (budget r r' : Gfbr) : Prop where
  dl : RateAlike budget.1 r.1 r'.1
  ul : RateAlike budget.2 r.2 r'.2

namespace GfbrAlike

variable {b r₁ r₂ r₃ : Gfbr}

theorem refl (b r : Gfbr) : GfbrAlike b r r := ⟨.inl rfl, .inl rfl⟩

theorem trans (h : GfbrAlike b r₁ r₂) (h' : GfbrAlike b r₂ r₃) : GfbrAlike b r₁ r₃ :=
  ⟨h.dl.trans h'.dl, h.ul.trans h'.ul⟩

/-- The same change on both accounts keeps them alike. -/
theorem map (h : GfbrAlike b r₁ r₂) (f g : UInt64 → UInt64) :
    GfbrAlike b (f r₁.1, g r₁.2) (f r₂.1, g r₂.2) :=
  ⟨h.dl.imp_left (congrArg f), h.ul.imp_left (congrArg g)⟩

/-- An admitted reservation undone. -/
theorem undo {s : SmfState} {g : Gfbr} (h : (s.tryReserveGfbr g).1 = true) :
    GfbrAlike s.gfbrBudgetBps ((s.tryReserveGfbr g).2.releaseGfbr g).reservedGfbrBps
      s.reservedGfbrBps := by
  unfold SmfState.tryReserveGfbr at h ⊢
  dsimp only at h ⊢
  split at h
  · cases h
  · rename_i hfits
    rw [if_neg hfits]
    obtain ⟨h₁, h₂⟩ := not_or.mp hfits
    exact ⟨.undo h₁, .undo h₂⟩

/-- **Accounts that are alike admit the same reservations in the future.** -/
theorem future {s s' : SmfState} (hb : s.gfbrBudgetBps = s'.gfbrBudgetBps)
    (h : GfbrAlike s.gfbrBudgetBps s.reservedGfbrBps s'.reservedGfbrBps) (ops : List GfbrOp) :
    s.gfbrFuture ops = s'.gfbrFuture ops := by
  induction ops generalizing s s' with
  | nil => rfl
  | cons op ops ih =>
    cases op with
    | reserve g =>
      have hiff : (saturatingAdd s.reservedGfbrBps.1 g.1 > s.gfbrBudgetBps.1 ∨
          saturatingAdd s.reservedGfbrBps.2 g.2 > s.gfbrBudgetBps.2) ↔
            (saturatingAdd s'.reservedGfbrBps.1 g.1 > s'.gfbrBudgetBps.1 ∨
              saturatingAdd s'.reservedGfbrBps.2 g.2 > s'.gfbrBudgetBps.2) := by
        rw [← hb]
        exact or_congr (h.dl.admits g.1) (h.ul.admits g.2)
      simp only [SmfState.gfbrFuture, SmfState.tryReserveGfbr]
      by_cases hfits : saturatingAdd s.reservedGfbrBps.1 g.1 > s.gfbrBudgetBps.1 ∨
          saturatingAdd s.reservedGfbrBps.2 g.2 > s.gfbrBudgetBps.2
      · rw [if_pos hfits, if_pos (hiff.mp hfits), ih hb h]
      · rw [if_neg hfits, if_neg fun h' => hfits (hiff.mpr h')]
        exact congrArg _ (ih hb (h.map (· + g.1) (· + g.2)))
    | release g => exact ih hb (h.map (saturatingSub · g.1) (saturatingSub · g.2))
    | adjust old new =>
      exact ih hb (h.map (fun r => saturatingAdd (saturatingSub r old.1) new.1)
        (fun r => saturatingAdd (saturatingSub r old.2) new.2))

end GfbrAlike

/-! ### Sessions left behind -/

/-- Every session opened in the log is sent a deletion later. -/
def AllDeleted : List N4Event → Prop
  | [] => True
  | ev :: rest =>
      (∀ seid ∈ ev.outcome.installed, ∃ d ∈ rest, d.peer = ev.peer ∧ d.req.deletes = some seid) ∧
        AllDeleted rest

/-- The anchor, asked first, was heard if it accepted; nobody else accepted a session. -/
structure OnlyAnchorHeard (log : List N4Event) : Prop where
  anchor : ∀ ev ∈ log.head?, ev.outcome.installed.isSome = true →
    (ev.outcome.reply.bind fun r => r.session).isSome = true
  others : ∀ ev ∈ log.tail, ev.outcome.installed = none

/-- Exchanges that delete nothing, followed by one deletion on `peer`. -/
theorem allDeleted_append {evs : List N4Event} {del : N4Event} {s : Seid}
    (hdel : del.req.deletes = some s) (hclosed : del.outcome.installed = none)
    (hevs : ∀ ev ∈ evs, ev.req.deletes = none ∧
      (ev.peer = del.peer → ev.outcome.installed ≠ some s)) :
    AllDeleted (evs ++ [del]) ↔ ∀ ev ∈ evs, ev.outcome.installed = none := by
  induction evs with
  | nil => simp [AllDeleted, hclosed]
  | cons ev evs ih =>
    have hrest := ih fun e he => hevs e (List.mem_cons_of_mem _ he)
    rw [List.cons_append, AllDeleted, hrest, List.forall_mem_cons]
    refine and_congr_left fun _ => ⟨fun hopened => ?_, fun hnone => by simp [hnone]⟩
    cases hinst : ev.outcome.installed with
    | none => rfl
    | some seid =>
      obtain ⟨d, hd, hpeer, hseid⟩ := hopened seid hinst
      rcases List.mem_append.mp hd with hd | hd
      · rw [(hevs d (List.mem_cons_of_mem _ hd)).1] at hseid
        cases hseid
      · obtain rfl := List.mem_singleton.mp hd
        obtain rfl : s = seid := Option.mem_unique hdel hseid
        exact absurd hinst ((hevs ev List.mem_cons_self).2 hpeer.symm)

/-! ### What an establishment has acquired -/

theorem giveBack_nothing (a : Accounts) : a.giveBack Holdings.nothing = a := by
  have hzero : ∀ r : UInt64, saturatingSub r 0 = r := by
    intro r
    apply UInt64.toNat_inj.mp
    rw [toNat_saturatingSub]
    rfl
  simp [Accounts.giveBack, Holdings.nothing, hzero]

/-- `c` is `c₀` with `x` acquired: giving `x` back allows the same future as before.  When the PCF
decided, its association is there. -/
structure Acquired (c₀ : Core) (x : Holdings) (c : Core) (decided : Bool) : Prop where
  budget : c.smf.gfbrBudgetBps = c₀.smf.gfbrBudgetBps
  gfbr : GfbrAlike c₀.smf.gfbrBudgetBps (c.smf.accounts.giveBack x).gfbr c₀.smf.reservedGfbrBps
  ipv4 : (c.smf.accounts.giveBack x).ipv4.Alike c₀.smf.ueIpv4Pool
  ipv6 : (c.smf.accounts.giveBack x).ipv6.Alike c₀.smf.ueIpv6Pool
  policy : decided = true →
    (c.pcf.associations.lookup (toString c₀.pcf.nextId.toNat)).isSome = true

/-- A change that no account and no association shows. -/
structure SameResources (c c' : Core) : Prop where
  accounts : c'.smf.accounts = c.smf.accounts
  budget : c'.smf.gfbrBudgetBps = c.smf.gfbrBudgetBps
  pcf : c'.pcf = c.pcf

namespace Acquired

variable {c₀ c c' : Core} {x : Holdings} {d : Bool}

theorem start (c : Core) : Acquired c Holdings.nothing c false := by
  refine ⟨rfl, ?_, ?_, ?_, fun h => by cases h⟩
  · rw [giveBack_nothing]
    exact .refl _ _
  · rw [giveBack_nothing]
    exact .refl _
  · rw [giveBack_nothing]
    exact .refl _

theorem same (h : Acquired c₀ x c d) (hs : SameResources c c') : Acquired c₀ x c' d := by
  constructor
  · rw [hs.budget, h.budget]
  · rw [hs.accounts]
    exact h.gfbr
  · rw [hs.accounts]
    exact h.ipv4
  · rw [hs.accounts]
    exact h.ipv6
  · rw [hs.pcf]
    exact h.policy

/-- Giving everything back leaves nothing acquired. -/
theorem giveBack {lease : IpLease} {g : Gfbr} (h : Acquired c₀ (lease.holdings g) c d) :
    Acquired c₀ Holdings.nothing { c with smf := lease.drop (c.smf.releaseGfbr g) } d := by
  have hacc := drop_accounts lease g c.smf
  have hbudget : (lease.drop (c.smf.releaseGfbr g)).gfbrBudgetBps = c.smf.gfbrBudgetBps := by
    obtain ⟨v4, v6⟩ := lease
    cases v4 <;> cases v6 <;> rfl
  constructor
  · exact hbudget.trans h.budget
  · rw [giveBack_nothing, hacc]
    exact h.gfbr
  · rw [giveBack_nothing, hacc]
    exact h.ipv4
  · rw [giveBack_nothing, hacc]
    exact h.ipv6
  · exact h.policy

theorem reserve {g : Gfbr} (h : Acquired c₀ Holdings.nothing c d)
    (hfits : (c.smf.tryReserveGfbr g).1 = true) :
    Acquired c₀ ⟨none, none, g⟩ { c with smf := (c.smf.tryReserveGfbr g).2 } d := by
  have hgfbr := h.gfbr
  have h4 := h.ipv4
  have h6 := h.ipv6
  rw [giveBack_nothing] at hgfbr h4 h6
  have hundo := GfbrAlike.undo hfits
  rw [h.budget] at hundo
  have hb : (c.smf.tryReserveGfbr g).2.gfbrBudgetBps = c.smf.gfbrBudgetBps := by
    unfold SmfState.tryReserveGfbr
    dsimp only
    split <;> rfl
  obtain ⟨hp4, hp6⟩ := tryReserveGfbr_pools c.smf g
  constructor
  · exact hb.trans h.budget
  · exact hundo.trans hgfbr
  · show (c.smf.tryReserveGfbr g).2.ueIpv4Pool.Alike _
    rw [hp4]
    exact h4
  · show (c.smf.tryReserveGfbr g).2.ueIpv6Pool.Alike _
    rw [hp6]
    exact h6
  · exact h.policy

theorem leaseIpv4 {g : Gfbr} (h : Acquired c₀ ⟨none, none, g⟩ c d) :
    Acquired c₀ ⟨c.smf.allocUeIp.1, none, g⟩ { c with smf := c.smf.allocUeIp.2 } d := by
  have h4 : c.smf.ueIpv4Pool.Alike c₀.smf.ueIpv4Pool := h.ipv4
  refine ⟨h.budget, h.gfbr, ?_, h.ipv6, h.policy⟩
  cases halloc : c.smf.ueIpv4Pool.alloc with
  | mk v p =>
    cases v with
    | none =>
      have hp := U32Pool.alloc_none halloc
      subst hp
      simpa [Accounts.giveBack, SmfState.accounts, SmfState.allocUeIp, halloc] using h4
    | some v =>
      have hback := (U32Pool.Alike.release_alloc halloc).trans h4
      have hnum : (BitVec.ofNat 32 v).toNat = v := by
        rw [BitVec.toNat_ofNat, Nat.mod_eq_of_lt (U32Pool.alloc_lt halloc)]
      rw [← hnum] at hback
      simpa only [Accounts.giveBack, SmfState.accounts, SmfState.allocUeIp, halloc,
        Option.map_some] using hback

theorem leaseIpv6 {g : Gfbr} {v4 : Option Ipv4Addr} (h : Acquired c₀ ⟨v4, none, g⟩ c d) :
    Acquired c₀ ⟨v4, c.smf.allocUeIpv6.1.map fun a => a.1, g⟩
      { c with smf := c.smf.allocUeIpv6.2 } d := by
  have h6 : c.smf.ueIpv6Pool.Alike c₀.smf.ueIpv6Pool := h.ipv6
  refine ⟨h.budget, h.gfbr, h.ipv4, ?_, h.policy⟩
  cases halloc : c.smf.ueIpv6Pool.alloc with
  | mk v p =>
    cases v with
    | none =>
      have hp := U32Pool.alloc_none halloc
      subst hp
      simpa [Accounts.giveBack, SmfState.accounts, SmfState.allocUeIpv6, halloc] using h6
    | some v =>
      have hback := (U32Pool.Alike.release_alloc halloc).trans h6
      have hnum : (SmfState.ipv6Index (SmfState.ipv6Prefix (BitVec.ofNat 32 v))).toNat = v := by
        rw [SmfState.ipv6Index_ipv6Prefix, BitVec.toNat_ofNat,
          Nat.mod_eq_of_lt (U32Pool.alloc_lt halloc)]
      rw [← hnum] at hback
      simpa only [Accounts.giveBack, SmfState.accounts, SmfState.allocUeIpv6, halloc,
        Option.map_some] using hback

end Acquired

/-! ### The claim about one execution -/

/-- Everything a failed establishment acquired has been given back. -/
structure RolledBack (c c' : Core) (w : ExchangeLog) : Prop where
  gfbr : ∀ ops, c'.smf.gfbrFuture ops = c.smf.gfbrFuture ops
  ipv4 : ∀ ops, c'.smf.ueIpv4Pool.future ops = c.smf.ueIpv4Pool.future ops
  ipv6 : ∀ ops, c'.smf.ueIpv6Pool.future ops = c.smf.ueIpv6Pool.future ops
  n4 : AllDeleted w.n4
  policy : w.decided = true →
    c'.pcf.associations.lookup (toString c.pcf.nextId.toNat) = none

/-- What the calls must have answered: the PCF decided nothing, and `OnlyAnchorHeard`. -/
structure CleanExits (w : ExchangeLog) : Prop where
  policy : w.decided = false
  n4 : OnlyAnchorHeard w.n4

/-- At an exit with nothing acquired any more, only the sessions and the policy are left. -/
theorem rolledBack_iff {c₀ c : Core} {w : ExchangeLog}
    (h : Acquired c₀ Holdings.nothing c w.decided)
    (hn4 : AllDeleted w.n4 ↔ OnlyAnchorHeard w.n4) : RolledBack c₀ c w ↔ CleanExits w := by
  have hgfbr := h.gfbr
  have h4 := h.ipv4
  have h6 := h.ipv6
  rw [giveBack_nothing] at hgfbr h4 h6
  constructor
  · intro hback
    refine ⟨?_, hn4.mp hback.n4⟩
    cases hd : w.decided with
    | false => rfl
    | true =>
      have hsome := h.policy hd
      rw [hback.policy hd] at hsome
      cases hsome
  · intro hclean
    rw [← h.budget] at hgfbr
    exact
      { gfbr := hgfbr.future h.budget
        ipv4 := h4.future
        ipv6 := h6.future
        n4 := hn4.mpr hclean.n4
        policy := fun hd => by rw [hclean.policy] at hd; cases hd }

/-! ### Along the establishment -/

/-- A result that, when it is an error, is rolled back exactly at clean exits. -/
def Settled {β : Type} (c₀ : Core) (r : Except SbiProblem β) (c : Core) (w : ExchangeLog) : Prop :=
  ∀ p, r = .error p → (RolledBack c₀ c w ↔ CleanExits w)

section Walk

variable {c₀ c : Core} {w : ExchangeLog} {β : Type}

theorem refuse_settled (lease : IpLease) {g : Gfbr} {p : SbiProblem}
    (h : Acquired c₀ (lease.holdings g) c w.decided)
    (hn4 : AllDeleted w.n4 ↔ OnlyAnchorHeard w.n4) :
    before loggedOutside anyMark (refuse g lease p : SmfM (Except SbiProblem β))
      (fun r _ c' w' => Settled c₀ r c' w') () c w := by
  intro q _
  exact rolledBack_iff h.giveBack hn4

theorem storeContext_settled (a : Admitted) (ctx : SmContext) :
    before loggedOutside anyMark (storeContext a ctx) (fun r _ c' w' => Settled c₀ r c' w')
      () c w := by
  simp only [storeContext, before, Proc.wp_bind, Proc.wp_mark, Proc.sequentially_note, wp_changeSmf]
  intro _
  refine Proc.before_of_forall fun _ _ _ _ => ?_
  rintro p ⟨⟩

/-- The sessions of an empty log. -/
theorem allDeleted_nil : AllDeleted [] ↔ OnlyAnchorHeard [] :=
  ⟨fun _ => ⟨by simp, by simp⟩, fun _ => trivial⟩

/-- An anchor that was not heard: its session is left behind exactly when it opened one. -/
theorem allDeleted_unheard {ev : N4Event}
    (h : (ev.outcome.reply.bind fun r => r.session) = none) :
    AllDeleted [ev] ↔ OnlyAnchorHeard [ev] := by
  cases hinst : ev.outcome.installed with
  | none =>
    refine ⟨fun _ => ⟨?_, by simp⟩, fun _ => by simp [AllDeleted, hinst]⟩
    simp [hinst]
  | some seid =>
    constructor
    · rintro ⟨hopened, -⟩
      obtain ⟨d, hd, -⟩ := hopened seid hinst
      cases hd
    · intro hheard
      have hsome := hheard.anchor ev rfl (by simp [hinst])
      rw [h] at hsome
      cases hsome

/-- After the anchor was heard: what a chain did, and the anchor's deletion. -/
theorem allDeleted_chain {anchor del : N4Event} {evs : List N4Event} {est : EstablishedSession}
    (hheard : (anchor.outcome.reply.bind fun r => r.session) = some est)
    (hopened : anchor.outcome.installed = some est.upSeid) (hpeer : del.peer = anchor.peer)
    (hdel : del.req.deletes = some est.upSeid) (hclosed : del.outcome.installed = none)
    (hevs : ∀ ev ∈ evs, ev.req.deletes = none ∧
      (ev.peer = anchor.peer → ev.outcome.installed ≠ some est.upSeid)) :
    AllDeleted (anchor :: evs ++ [del]) ↔ OnlyAnchorHeard (anchor :: evs ++ [del]) := by
  have hothers : AllDeleted (evs ++ [del]) ↔ ∀ ev ∈ evs, ev.outcome.installed = none :=
    allDeleted_append hdel hclosed (by rwa [hpeer])
  constructor
  · rintro ⟨-, hrest⟩
    refine ⟨?_, fun ev hev => ?_⟩
    · intro ev hev _
      obtain rfl : anchor = ev := by simpa using hev
      simp [hheard]
    · rcases List.mem_append.mp hev with hev | hev
      · exact hothers.mp hrest ev hev
      · obtain rfl := List.mem_singleton.mp hev
        exact hclosed
  · intro hheard'
    refine ⟨fun seid hseid => ?_, hothers.mpr fun ev hev => ?_⟩
    · obtain rfl : est.upSeid = seid := Option.mem_unique hopened hseid
      exact ⟨del, by simp, hpeer, hdel⟩
    · exact hheard'.others ev (by simp [hev])

/-- What a chain keeps while it is being built on the anchor's session. -/
structure Chaining (c₀ : Core) (x : Holdings) (anchor : N4Event) (s : Seid) (c : Core)
    (w : ExchangeLog) : Prop where
  acquired : Acquired c₀ x c w.decided
  log : ∃ evs, w.n4 = anchor :: evs ∧ ∀ ev ∈ evs, ev.req.deletes = none ∧
    (ev.peer = anchor.peer → ev.outcome.installed ≠ some s)

/-- N4 exchanges that delete nothing. -/
def DeletesNothing : Call → Prop
  | .transact _ req => req.deletes = none
  | _ => False

theorem Chaining.transact {x : Holdings} {anchor : N4Event} {s : Seid} {e : Call} {r : e.Answer}
    (hs : anchor.outcome.installed = some s) (he : DeletesNothing e)
    (hr : loggedOutside.answers e w r = true) (h : Chaining c₀ x anchor s c w) :
    Chaining c₀ x anchor s c (loggedOutside.effect e r w) := by
  cases e with
  | transact peer req =>
    obtain ⟨evs, hlog, hevs⟩ := h.log
    refine ⟨h.acquired, evs ++ [⟨peer, req, r⟩], ?_, ?_⟩
    · simp [loggedOutside, hlog]
    · intro ev hev
      rcases List.mem_append.mp hev with hev | hev
      · exact hevs ev hev
      · obtain rfl := List.mem_singleton.mp hev
        refine ⟨he, fun hpeer hinst => ?_⟩
        simp only [loggedOutside, N4Outcome.admissible, Bool.and_eq_true, List.all_eq_true,
          hlog] at hr
        have hfresh := hr.2 anchor List.mem_cons_self
        simp only [hs, hpeer.symm, beq_self_eq_true, Option.isSome_some, Bool.true_and,
          Bool.not_eq_true', beq_eq_false_iff_ne] at hfresh
        exact hfresh hinst.symm
  | _ => exact he.elim

theorem chainOrRollBack_settled {a : Admitted} {lease : IpLease} {ue : UeAddr}
    {est : EstablishedSession} {anchor : N4Event} (hpeer : anchor.peer = a.path.anchor)
    (hheard : (anchor.outcome.reply.bind fun r => r.session) = some est)
    (hopened : anchor.outcome.installed = some est.upSeid)
    (h : Acquired c₀ (lease.holdings a.reservedGfbr) c w.decided) (hlog : w.n4 = [anchor]) :
    before loggedOutside anyMark (chainOrRollBack a lease ue est)
      (fun r _ c' w' => Settled c₀ r c' w') () c w := by
  unfold chainOrRollBack
  split
  · have hstart : Chaining c₀ (lease.holdings a.reservedGfbr) anchor est.upSeid c w :=
      ⟨h, [], hlog, by simp⟩
    have hchain : before loggedOutside anyMark (establishChain a.path est ue a.req.dnn)
        (fun _ l' c' w' => l' = () ∧
          Chaining c₀ (lease.holdings a.reservedGfbr) anchor est.upSeid c' w') () c w := by
      refine Stays.before (ρ := SameResources) (κ := DeletesNothing) ?_ ?_ (fun _ hI => hI)
        (stays_establishChain (fun _ => ⟨rfl, rfl, rfl⟩) (fun _ _ hd => hd) _ _ _ _) hstart
      · exact fun hs hI => ⟨hI.acquired.same hs, hI.log⟩
      · exact fun he hr hI => hI.transact hopened he hr
    refine (Proc.wp_bind _ _ _).mpr (Proc.before_mono ?_ hchain)
    rintro r ⟨⟩ c' w' ⟨-, hI⟩
    cases r with
    | ok built =>
      rintro p ⟨⟩
    | error e =>
      intro out hout
      obtain ⟨evs, hevs, hquiet⟩ := hI.log
      refine refuse_settled _ hI.acquired ?_
      have hclosed : out.installed = none := by
        simp only [loggedOutside, N4Outcome.admissible, Bool.and_eq_true] at hout
        simpa [N4Request.opens] using hout.1.1
      show AllDeleted (w'.n4 ++ [_]) ↔ OnlyAnchorHeard (w'.n4 ++ [_])
      rw [hevs]
      exact allDeleted_chain hheard hopened hpeer.symm rfl hclosed hquiet
  · rintro p ⟨⟩

theorem leaseIpv4_acquires {g : Gfbr} (ty : PduSessionType)
    (h : Acquired c₀ ⟨none, none, g⟩ c w.decided) :
    before loggedOutside anyMark (leaseIpv4 ty)
      (fun r _ c' w' => w' = w ∧ Acquired c₀ ⟨r.join, none, g⟩ c' w.decided) () c w := by
  unfold leaseIpv4
  split
  · refine ⟨rfl, ?_⟩
    rw [join_map_some]
    exact h.leaseIpv4
  · exact ⟨rfl, h⟩

theorem leaseIpv6_acquires {g : Gfbr} {v4 : Option Ipv4Addr} (ty : PduSessionType)
    (h : Acquired c₀ ⟨v4, none, g⟩ c w.decided) :
    before loggedOutside anyMark (leaseIpv6 ty)
      (fun r _ c' w' => w' = w ∧ Acquired c₀ ⟨v4, r.join.map fun a => a.1, g⟩ c' w.decided)
      () c w := by
  unfold leaseIpv6
  split
  · refine ⟨rfl, ?_⟩
    rw [join_map_some]
    exact h.leaseIpv6
  · exact ⟨rfl, h⟩

theorem establishSession_settled {a : Admitted} {cpSeid : Seid} {ueIp : Option Ipv4Addr}
    {ueIpv6 : Option (Ipv6Addr × BitVec 64)}
    (h : Acquired c₀ (IpLease.holdings ⟨ueIp, ueIpv6.map fun v6 => v6.1⟩ a.reservedGfbr) c
      w.decided) (hlog : w.n4 = []) :
    before loggedOutside anyMark (establishSession a cpSeid ueIp ueIpv6)
      (fun r _ c' w' => Settled c₀ r c' w') () c w := by
  simp only [establishSession, before, Proc.wp_bind, wp_readSmf, wp_transact,
    Proc.sequentially_call]
  generalize N4Request.sessionEstablishment cpSeid _ a.req.dnn (ambrBps a.decision)
    (flowQers a.decision) c.smf.usageThresholdBytes = req
  intro out hout
  have hn4 : (loggedOutside.effect (.transact a.path.anchor req) out w).n4 =
      [⟨a.path.anchor, req, out⟩] := by
    simp [loggedOutside, hlog]
  have hacq : Acquired c₀ (IpLease.holdings ⟨ueIp, ueIpv6.map fun v6 => v6.1⟩ a.reservedGfbr) c
      (loggedOutside.effect (.transact a.path.anchor req) out w).decided := h
  cases hheard : out.reply.bind fun r => r.session with
  | none =>
    have hunheard : AllDeleted (loggedOutside.effect (.transact a.path.anchor req) out w).n4 ↔
        OnlyAnchorHeard (loggedOutside.effect (.transact a.path.anchor req) out w).n4 := by
      rw [hn4]
      exact allDeleted_unheard hheard
    cases hreply : out.reply with
    | none => exact refuse_settled _ hacq hunheard
    | some resp =>
      have hsession : resp.session = none := by simpa [hreply] using hheard
      simp only [hsession]
      exact refuse_settled _ hacq hunheard
  | some est =>
    obtain ⟨resp, hreply, hsession⟩ := Option.bind_eq_some_iff.mp hheard
    have hopened : out.installed = some est.upSeid := by
      simp only [loggedOutside, N4Outcome.admissible, hheard, Bool.and_eq_true] at hout
      exact eq_of_beq hout.1.2
    simp only [hreply, hsession, Proc.wp_bind]
    refine Proc.before_mono ?_ (chainOrRollBack_settled rfl hheard hopened hacq hn4)
    rintro r ⟨⟩ c' w' hr
    cases r with
    | error p =>
      rintro q ⟨⟩
      exact hr p rfl
    | ok built =>
      refine (Proc.wp_bind _ _ _).mpr (Proc.before_of_forall fun charging _ _ _ => ?_)
      exact storeContext_settled a _

theorem leaseAndEstablish_settled {a : Admitted}
    (h : Acquired c₀ ⟨none, none, a.reservedGfbr⟩ c w.decided) (hlog : w.n4 = []) :
    before loggedOutside anyMark (leaseAndEstablish a) (fun r _ c' w' => Settled c₀ r c' w')
      () c w := by
  have hnil : AllDeleted w.n4 ↔ OnlyAnchorHeard w.n4 := by
    rw [hlog]
    exact allDeleted_nil
  have hseid : Acquired c₀ ⟨none, none, a.reservedGfbr⟩
      { c with smf := { c.smf with cpSeid := c.smf.cpSeid + 1 } } w.decided :=
    h.same ⟨rfl, rfl, rfl⟩
  simp only [leaseAndEstablish, before, Proc.wp_bind, wp_nextCpSeid]
  refine Proc.before_mono ?_ (leaseIpv4_acquires a.selectedType hseid)
  rintro v4 ⟨⟩ c₁ w₁ ⟨rfl, h₁⟩
  cases v4 with
  | none => exact refuse_settled ⟨none, none⟩ h₁ hnil
  | some ueIp =>
    simp only [Proc.wp_bind]
    refine Proc.before_mono ?_ (leaseIpv6_acquires a.selectedType h₁)
    rintro v6 ⟨⟩ c₂ w₂ ⟨rfl, h₂⟩
    cases v6 with
    | none => exact refuse_settled ⟨ueIp, none⟩ h₂ hnil
    | some ueIpv6 => exact establishSession_settled h₂ hlog

/-- What the PCF did, whatever of it came back. -/
theorem fetchSmPolicy_acquires {ctx : SmPolicyContextData}
    (h : Acquired c₀ Holdings.nothing c w.decided) (hid : c.pcf.nextId = c₀.pcf.nextId) :
    before loggedOutside anyMark (fetchSmPolicy ctx)
      (fun _ _ c' w' => w'.n4 = w.n4 ∧ Acquired c₀ Holdings.nothing c' w'.decided) () c w := by
  simp only [fetchSmPolicy, before, Proc.wp_bind, wp_discoverEndpoint, Proc.sequentially_call]
  intro found _
  cases found with
  | error e => exact ⟨rfl, h⟩
  | ok base =>
    simp only [overHttp, Proc.wp_bind, wp_sendRequest, Proc.sequentially_call]
    intro delivered _
    cases delivered with
    | false => exact ⟨rfl, h⟩
    | true =>
      simp only [createSmPolicy, if_true, Proc.wp_bind, wp_decideFor, Proc.sequentially_call,
        Proc.wp_actShared, Proc.wp_change, Proc.wp_pure, wp_awaitResponse]
      intro reading _ returned _
      have hdecided : Acquired c₀ Holdings.nothing
          { c with pcf :=
            { associations := c.pcf.associations.insert (toString c.pcf.nextId.toNat)
                (ctx, reading.decision)
              nextId := c.pcf.nextId + 1 } } true := by
        refine ⟨h.budget, h.gfbr, h.ipv4, h.ipv6, fun _ => ?_⟩
        rw [hid, AList.lookup_insert]
        rfl
      cases returned <;> exact ⟨rfl, hdecided⟩

/-- Admission control: what fits is acquired, and what does not changes nothing. -/
theorem admit_before {g : Gfbr} {t e : SmfM β} {Q : β → Unit → Core → ExchangeLog → Prop}
    (h : Acquired c₀ Holdings.nothing c w.decided)
    (ht : ∀ c', Acquired c₀ ⟨none, none, g⟩ c' w.decided → before loggedOutside anyMark t Q () c' w)
    (he : before loggedOutside anyMark e Q () c w) :
    before loggedOutside anyMark (do
      Proc.mark (.reserving g)
      if ← onSmf fun s => s.tryReserveGfbr g then t else e) Q () c w := by
  simp only [before, Proc.wp_bind, Proc.wp_mark, Proc.sequentially_note, wp_onSmf]
  intro _
  by_cases hfits : (c.smf.tryReserveGfbr g).1 = true
  · rw [if_pos hfits]
    exact ht _ (h.reserve hfits)
  · rw [if_neg hfits, tryReserveGfbr_refused hfits]
    exact he

theorem admitSession_settled {req : SmContextCreateData} {sub : SessionSubscription} :
    before loggedOutside anyMark (admitSession req sub) (fun r _ c' w' => Settled c r c' w')
      () c {} := by
  have hstart : Acquired c Holdings.nothing
      { c with smf := { c.smf with nextRef := c.smf.nextRef + 1 } } false :=
    (Acquired.start c).same ⟨rfl, rfl, rfl⟩
  simp only [admitSession, before, Proc.wp_bind, wp_onSmf, wp_readSmf]
  refine Proc.before_mono ?_ (fetchSmPolicy_acquires (w := {}) hstart rfl)
  rintro created ⟨⟩ c₁ w₁ ⟨hlog, h₁⟩
  have hnil : AllDeleted w₁.n4 ↔ OnlyAnchorHeard w₁.n4 := by
    rw [hlog]
    exact allDeleted_nil
  refine admit_before h₁ (fun c₂ h₂ => ?_) fun p _ => rolledBack_iff h₁ hnil
  simp only [before, Proc.wp_bind, wp_readSmf]
  split
  · exact refuse_settled ⟨none, none⟩ h₂ hnil
  · exact leaseAndEstablish_settled h₂ hlog

theorem createSmContext_settled {req : SmContextCreateData} :
    before loggedOutside anyMark (createSmContext req) (fun r _ c' w' => Settled c r c' w')
      () c {} := by
  have hearly : ∀ (p : SbiProblem), Settled (β := SmContextCreatedData) c (.error p) c {} :=
    fun p q _ => rolledBack_iff (.start c) allDeleted_nil
  unfold createSmContext
  split
  · exact hearly _
  · split
    · exact hearly _
    · simp only [before, Proc.wp_bind, Proc.wp_ask, Proc.sequentially_call]
      intro answer _
      cases answer with
      | error p => exact hearly p
      | ok sub => exact admitSession_settled

end Walk

/-- **A failed establishment is rolled back exactly when the PCF decided nothing for it, an anchor
that accepted was heard, and no other UPF accepted a session.** -/
theorem create_rolls_back_iff (req : SmContextCreateData) (l : Unit) (c c' : Core)
    (w : ExchangeLog) (p : SbiProblem)
    (h : Exec loggedOutside anyMark (createSmContext req) () c {} (.error p) l c' w) :
    RolledBack c c' w ↔ CleanExits w :=
  h.sound createSmContext_settled p rfl

/-! ### Two executions -/

/-- An anchor, an intermediate UPF and a breakout anchor. -/
def threeUpfs : SmfConfig :=
  { peers := ["anchor", "intermediate", "breakout"]
    routing := .fixed "anchor" (some "intermediate") (some ("breakout", ⟨.v4 0x08080808, 32⟩)) }

/-- The outcome when a UPF can have it, silence else. -/
def N4Outcome.orSilence (log : List N4Event) (peer : String) (req : N4Request) (out : N4Outcome) :
    N4Outcome :=
  if out.admissible log peer req then out else { installed := none, reply := none }

theorem admissible_orSilence (log : List N4Event) (peer : String) (req : N4Request)
    (out : N4Outcome) : (out.orSilence log peer req).admissible log peer req = true := by
  unfold N4Outcome.orSilence
  split
  · assumption
  · simp only [N4Outcome.admissible, Option.isNone_none, Bool.or_true, Option.bind_none,
      Bool.true_and, List.all_eq_true]
    intro ev _
    cases ev.outcome.installed <;> simp

/-- The UPFs on `up` accept what they are asked, the others reject it. -/
def acceptOn (up : List String) : (e : Call) → ExchangeLog → e.Answer
  | .transact peer req, w =>
      let est : EstablishedSession :=
        { upSeid := 7, n3Teid := 1, n3Addr := 0x0A000001, dlIngress := some (2, 0x0A000001) }
      if req.opens && up.contains peer then
        N4Outcome.orSilence w.n4 peer req
          { installed := some 7, reply := some { accepted := true, session := some est, usages := [] } }
      else
        N4Outcome.orSilence w.n4 peer req
          { installed := none
            reply := some { accepted := !req.opens, session := none, usages := [] } }
  | e, _ => sampleAnswer [] e

theorem acceptOn_answers (up : List String) (e : Call) (w : ExchangeLog) :
    loggedOutside.answers e w (acceptOn up e w) = true := by
  cases e with
  | transact peer req =>
    show (acceptOn up (.transact peer req) w).admissible w.n4 peer req = true
    simp only [acceptOn]
    split <;> exact admissible_orSilence _ _ _ _
  | _ => rfl

/-- What an establishment comes to. -/
def establishing (up : List String) :
    Except SbiProblem SmContextCreatedData × Unit × Core × ExchangeLog :=
  Proc.play loggedOutside (acceptOn up) (createSmContext sampleCreate) () threeUpfs.start {}

theorem exec_establishing (up : List String) :
    Exec loggedOutside anyMark (createSmContext sampleCreate) () threeUpfs.start {}
      (establishing up).1 (establishing up).2.1 (establishing up).2.2.1
      (establishing up).2.2.2 :=
  Proc.exec_play loggedOutside (acceptOn_answers up) (createSmContext sampleCreate) ()
    threeUpfs.start {}

/-- What the UPFs opened, exchange by exchange. -/
def ExchangeLog.opened (w : ExchangeLog) : List (Option Seid) :=
  w.n4.map fun ev => ev.outcome.installed

theorem create_rolls_back_rejected :
    ∃ p l c' w, Exec loggedOutside anyMark (createSmContext sampleCreate) () threeUpfs.start {}
        (.error p) l c' w ∧ w.opened = [none] ∧ RolledBack threeUpfs.start c' w := by
  have hexec := exec_establishing []
  have hfails : (establishing []).1.toOption.isNone = true := by decide +kernel
  have hdecided : (establishing []).2.2.2.decided = false := by decide +kernel
  have hopened : (establishing []).2.2.2.opened = [none] := by decide +kernel
  generalize establishing [] = out at hexec hfails hdecided hopened
  obtain ⟨r, l, c', w⟩ := out
  cases r with
  | ok created => cases hfails
  | error p =>
      have hnone : ∀ ev ∈ w.n4, ev.outcome.installed = none := by
        intro ev hev
        have hmem : ev.outcome.installed ∈ w.opened := List.mem_map_of_mem hev
        rw [hopened] at hmem
        exact List.mem_singleton.mp hmem
      refine ⟨p, l, c', w, hexec, hopened, ?_⟩
      refine (create_rolls_back_iff sampleCreate l threeUpfs.start c' w p hexec).mpr
        ⟨hdecided, ?_, fun ev hev => hnone ev (List.mem_of_mem_tail hev)⟩
      intro ev hev hopen
      rw [hnone ev (List.mem_of_mem_head? hev)] at hopen
      cases hopen

/-- Not every failure is rolled back: the intermediate UPF rejects its session, and the breakout
anchor's, accepted before, is never deleted. -/
theorem create_not_rolled_back :
    ¬ ∀ (req : SmContextCreateData) (l : Unit) (c c' : Core) (w : ExchangeLog) (p : SbiProblem),
      Exec loggedOutside anyMark (createSmContext req) () c {} (.error p) l c' w →
        RolledBack c c' w := by
  intro hall
  have hexec := exec_establishing ["anchor", "breakout"]
  have hfails : (establishing ["anchor", "breakout"]).1.toOption.isNone = true := by decide +kernel
  have hopened : (establishing ["anchor", "breakout"]).2.2.2.opened =
      [some 7, some 7, none, none] := by
    decide +kernel
  generalize establishing ["anchor", "breakout"] = out at hexec hfails hopened
  obtain ⟨r, l, c', w⟩ := out
  cases r with
  | ok created => cases hfails
  | error p =>
      have hback := hall sampleCreate l threeUpfs.start c' w p hexec
      have hothers := ((hexec.sound createSmContext_settled p rfl).mp hback).n4.others
      have hmem : some 7 ∈ w.n4.tail.map fun ev => ev.outcome.installed := by
        rw [List.map_tail]
        show some 7 ∈ w.opened.tail
        rw [hopened]
        simp
      obtain ⟨ev, hev, hseven⟩ := List.mem_map.mp hmem
      rw [hothers ev hev] at hseven
      cases hseven

end Radian.Smf
