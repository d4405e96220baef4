import Mathlib.Algebra.Group.Prod
import Mathlib.Order.Basic
import Radian.Lease.Basic
import Radian.Smf.Ledger

/-!
# Exclusive UE addresses

Every UE address is a lease from one of two pools.  The ledger of leases counts the stored contexts
and the establishments under way.

- `AddressesExclusive` — no address in two live contexts, none that a context holds in a pool's
  returned set.
- `addresses_exclusive` — it holds in every state of every run in which each teardown gives back
  only what its context still holds or what is free already.
- `addresses_not_exclusive` — and not in every run: a teardown that finishes second gives back an
  address leased anew in the meantime.
-/

namespace Radian.Smf

open Keyed (Map)
open Pfcp (Ipv4Addr Ipv6Addr)

/-! ### One pool -/

/-- The leases of an optional address. -/
def leasesOf : Option Nat → Multiset Nat
  | none => 0
  | some v => {v}

/-- The pool after an optional address came back. -/
def U32Pool.releaseOption (p : U32Pool) : Option Nat → U32Pool
  | none => p
  | some v => p.release v

/-- The leases `m` of a pool are in order. -/
abbrev U32Pool.InOrder (p : U32Pool) (m : Multiset Nat) : Prop := Lease.Exclusive p.free m

namespace U32Pool

variable {p p' : U32Pool} {m : Multiset Nat} {v : Nat} {o : Option Nat}

/-- An allocation leases its number. -/
theorem inOrder_alloc (h : p.InOrder m) (ha : p.alloc = (some v, p')) :
    p'.InOrder (m + leasesOf (some v)) := by
  obtain ⟨hfree, hfree'⟩ := free_alloc ha
  rw [InOrder, hfree']
  exact h.take hfree

/-- A lease comes back from its holder. -/
theorem inOrder_giveBack (h : p.InOrder (m + leasesOf o)) : (p.releaseOption o).InOrder m := by
  cases o with
  | none => simpa [leasesOf, releaseOption] using h
  | some v =>
    rw [InOrder, releaseOption, free_release]
    exact h.giveBack

/-- What is free already comes back once more. -/
theorem inOrder_giveBack_free (h : p.InOrder m) (hv : v ∈ p.free) : (p.release v).InOrder m := by
  rw [InOrder, free_release]
  exact h.giveBack_free hv

end U32Pool

/-! ### The ledger of leases -/

/-- What an address holds of the IPv4 pool. -/
def ipv4Number (a : Ipv4Addr) : Nat := a.toNat

/-- The pool index of a /64. -/
def ipv6Number (a : Ipv6Addr) : Nat := (SmfState.ipv6Index a).toNat

def Holdings.ipv4Lease (x : Holdings) : Option Nat := x.v4.map ipv4Number

def Holdings.ipv6Lease (x : Holdings) : Option Nat := x.v6.map ipv6Number

theorem giveBack_ipv4 (a : Accounts) (x : Holdings) :
    (a.giveBack x).ipv4 = a.ipv4.releaseOption x.ipv4Lease := by
  obtain ⟨v4, v6, g⟩ := x
  cases v4 <;> rfl

theorem giveBack_ipv6 (a : Accounts) (x : Holdings) :
    (a.giveBack x).ipv6 = a.ipv6.releaseOption x.ipv6Lease := by
  obtain ⟨v4, v6, g⟩ := x
  cases v6 <;> rfl

/-- Both pools' leases are in order. -/
structure LeasesInOrder (m : Multiset Nat × Multiset Nat) (a : Accounts) : Prop where
  ipv4 : a.ipv4.InOrder m.1
  ipv6 : a.ipv6.InOrder m.2

/-- Every number copied is one the context still has, or is free already. -/
def StillHeld (free : Set Nat) (copied current : Option Nat) : Prop :=
  ∀ v ∈ copied, current = some v ∨ v ∈ free

/-- At the last section of a teardown, the addresses its first section copied are the ones the
context under `smRef` still holds, or are free. -/
def ReturnsOwn : Mark → Core → Prop
  | .releasing smRef copy, c =>
      let current := (c.smf.contexts.lookup smRef).map SmContext.holdings
      StillHeld c.smf.ueIpv4Pool.free copy.holdings.ipv4Lease
          (current.bind Holdings.ipv4Lease) ∧
        StillHeld c.smf.ueIpv6Pool.free copy.holdings.ipv6Lease
          (current.bind Holdings.ipv6Lease)
  | _, _ => True

def leaseLedger : Ledger (Multiset Nat × Multiset Nat) where
  worth x := (leasesOf x.ipv4Lease, leasesOf x.ipv6Lease)
  ok := LeasesInOrder
  allow := ReturnsOwn

/-- The last section of a teardown, for one pool. -/
theorem U32Pool.inOrder_finish {p : U32Pool} {m : Multiset Nat} {copied current : Option Nat}
    (h : p.InOrder (m + leasesOf current)) (hown : StillHeld p.free copied current) :
    (p.releaseOption copied).InOrder m := by
  have hm : p.InOrder m := h.mono (Multiset.le_add_right _ _)
  cases copied with
  | none => exact hm
  | some v =>
    rcases hown v rfl with hcur | hfree
    · subst hcur
      exact U32Pool.inOrder_giveBack h
    · exact U32Pool.inOrder_giveBack_free hm hfree

theorem ipv4Number_ofNat {v : Nat} (hv : v < 2 ^ 32) : ipv4Number (BitVec.ofNat 32 v) = v := by
  rw [ipv4Number, BitVec.toNat_ofNat, Nat.mod_eq_of_lt hv]

theorem ipv6Number_ipv6Prefix {v : Nat} (hv : v < 2 ^ 32) :
    ipv6Number (SmfState.ipv6Prefix (BitVec.ofNat 32 v)) = v := by
  rw [ipv6Number, SmfState.ipv6Index_ipv6Prefix, BitVec.toNat_ofNat, Nat.mod_eq_of_lt hv]

/-- A context that is stored brings no more than what it holds. -/
theorem leaseLedger_total_insert (contexts : Map String SmContext) (r : String) (ctx : SmContext) :
    leaseLedger.total (contexts.insert r ctx) ≤
      leaseLedger.worth ctx.holdings + leaseLedger.total contexts := by
  unfold Ledger.total
  rw [Map.total_insert, add_comm]
  cases hr : contexts.lookup r with
  | none => rw [Map.erase_eq_self hr]
  | some old =>
    rw [Map.total_erase (fun c => leaseLedger.worth c.holdings) hr, ← add_assoc]
    exact ⟨Multiset.le_add_right _ _, Multiset.le_add_right _ _⟩

theorem leaseLedger_total_erase (contexts : Map String SmContext) (r : String) :
    leaseLedger.total contexts = leaseLedger.total (contexts.erase r) +
      (leasesOf (((contexts.lookup r).map SmContext.holdings).bind Holdings.ipv4Lease),
        leasesOf (((contexts.lookup r).map SmContext.holdings).bind Holdings.ipv6Lease)) := by
  unfold Ledger.total
  cases hr : contexts.lookup r with
  | none =>
    rw [Map.erase_eq_self hr]
    exact (add_zero _).symm
  | some cur => exact Map.total_erase _ hr

theorem leaseLedger_total_storeDecision (r : String) (d : Npcf.SmPolicyDecision) (s : SmfState) :
    leaseLedger.total (storeDecision r d s).contexts = leaseLedger.total s.contexts := by
  rw [storeDecision_contexts]
  exact Map.total_modify _ _ _ fun _ => rfl

theorem leaseLedger_sound : leaseLedger.Sound where
  reserve := by
    intro t g c _ hok _
    obtain ⟨h4, h6⟩ := tryReserveGfbr_pools c.smf g
    constructor
    · show (c.smf.tryReserveGfbr g).2.ueIpv4Pool.InOrder (t.1 + 0)
      rw [h4, add_zero]
      exact hok.ipv4
    · show (c.smf.tryReserveGfbr g).2.ueIpv6Pool.InOrder (t.2 + 0)
      rw [h6, add_zero]
      exact hok.ipv6
  leaseIpv4 := by
    intro t g a v p hok halloc
    have h4 : a.ipv4.InOrder t.1 := by simpa [leaseLedger, leasesOf, Holdings.ipv4Lease]
      using hok.ipv4
    constructor
    · show p.InOrder (t.1 + leasesOf (some (ipv4Number (BitVec.ofNat 32 v))))
      rw [ipv4Number_ofNat (U32Pool.alloc_lt halloc)]
      exact U32Pool.inOrder_alloc h4 halloc
    · exact hok.ipv6
  leaseIpv6 := by
    intro t v4 g a v p hok halloc
    have h6 : a.ipv6.InOrder t.2 := by simpa [leaseLedger, leasesOf, Holdings.ipv6Lease]
      using hok.ipv6
    constructor
    · exact hok.ipv4
    · show p.InOrder (t.2 + leasesOf (some (ipv6Number (SmfState.ipv6Prefix (BitVec.ofNat 32 v)))))
      rw [ipv6Number_ipv6Prefix (U32Pool.alloc_lt halloc)]
      exact U32Pool.inOrder_alloc h6 halloc
  giveBack := by
    intro t x a hok
    constructor
    · rw [giveBack_ipv4]
      exact U32Pool.inOrder_giveBack hok.ipv4
    · rw [giveBack_ipv6]
      exact U32Pool.inOrder_giveBack hok.ipv6
  store := by
    intro t r ctx c _ hok
    have hle := leaseLedger_total_insert c.smf.contexts r ctx
    rw [add_assoc] at hok
    exact ⟨hok.ipv4.mono (add_le_add le_rfl hle.1), hok.ipv6.mono (add_le_add le_rfl hle.2)⟩
  release := by
    intro t r copy c hallow hok
    obtain ⟨h4, h6⟩ := hallow
    rw [leaseLedger_total_erase c.smf.contexts r, ← add_assoc] at hok
    constructor
    · rw [giveBack_ipv4]
      exact U32Pool.inOrder_finish hok.ipv4 h4
    · rw [giveBack_ipv6]
      exact U32Pool.inOrder_finish hok.ipv6 h6
  merge := by
    intro t r n d c _ hok
    obtain ⟨h4, h6⟩ := storeDecision_pools r d c.smf
    rw [leaseLedger_total_storeDecision]
    constructor
    · show (storeDecision r d c.smf).ueIpv4Pool.InOrder _
      rw [h4]
      exact hok.ipv4
    · show (storeDecision r d c.smf).ueIpv6Pool.InOrder _
      rw [h6]
      exact hok.ipv6

/-! ### The claim about runs -/

/-- No address is held by two live contexts, and none that a live context holds is in the returned
set of its pool. -/
structure AddressesExclusive (s : SmfState) : Prop where
  ipv4 : ∀ r₁ r₂ c₁ c₂ a, s.contexts.lookup r₁ = some c₁ → s.contexts.lookup r₂ = some c₂ →
    c₁.ueIp = some a → c₂.ueIp = some a → r₁ = r₂
  ipv6 : ∀ r₁ r₂ c₁ c₂ a₁ a₂, s.contexts.lookup r₁ = some c₁ → s.contexts.lookup r₂ = some c₂ →
    c₁.ueIpv6 = some a₁ → c₂.ueIpv6 = some a₂ →
    SmfState.ipv6Index a₁.1 = SmfState.ipv6Index a₂.1 → r₁ = r₂
  ipv4_taken : ∀ r c a, s.contexts.lookup r = some c → c.ueIp = some a →
    a.toNat ∉ s.ueIpv4Pool.freed
  ipv6_taken : ∀ r c a, s.contexts.lookup r = some c → c.ueIpv6 = some a →
    (SmfState.ipv6Index a.1).toNat ∉ s.ueIpv6Pool.freed

section Stored

variable {m : Multiset Nat × Multiset Nat} {s : SmfState}

/-- Two contexts' leases are two parts of the total. -/
theorem leases_of_two {r₁ r₂ : String} {c₁ c₂ : SmContext} (h₁ : s.contexts.lookup r₁ = some c₁)
    (h₂ : s.contexts.lookup r₂ = some c₂) (hne : r₁ ≠ r₂) :
    leaseLedger.total s.contexts = leaseLedger.total ((s.contexts.erase r₁).erase r₂) +
      leaseLedger.worth c₂.holdings + leaseLedger.worth c₁.holdings :=
  Map.total_two _ h₁ h₂ hne

/-- One context's leases are a part of the total. -/
theorem leases_of_one {r : String} {c : SmContext} (h : s.contexts.lookup r = some c) :
    leaseLedger.worth c.holdings ≤ leaseLedger.total s.contexts := by
  rw [Ledger.total, Map.total_erase _ h]
  exact ⟨Multiset.le_add_left _ _, Multiset.le_add_left _ _⟩

/-- Leases in order make the stored contexts' addresses exclusive. -/
theorem LeasesInOrder.exclusive (h : LeasesInOrder (m + leaseLedger.total s.contexts) s.accounts) :
    AddressesExclusive s := by
  have h4 : Lease.Exclusive s.ueIpv4Pool.free (leaseLedger.total s.contexts).1 :=
    h.ipv4.mono (Multiset.le_add_left _ _)
  have h6 : Lease.Exclusive s.ueIpv6Pool.free (leaseLedger.total s.contexts).2 :=
    h.ipv6.mono (Multiset.le_add_left _ _)
  constructor
  · intro r₁ r₂ c₁ c₂ a hr₁ hr₂ ha₁ ha₂
    by_contra hne
    have hsplit := congrArg Prod.fst (leases_of_two hr₁ hr₂ hne)
    simp only [leaseLedger, Prod.fst_add, SmContext.holdings, Holdings.ipv4Lease, ha₁, ha₂,
      Option.map_some, leasesOf] at hsplit
    exact h4.not_twice hsplit rfl
  · intro r₁ r₂ c₁ c₂ a₁ a₂ hr₁ hr₂ ha₁ ha₂ hidx
    by_contra hne
    have hsplit := congrArg Prod.snd (leases_of_two hr₁ hr₂ hne)
    simp only [leaseLedger, Prod.snd_add, SmContext.holdings, Holdings.ipv6Lease, ha₁, ha₂,
      Option.map_some, leasesOf] at hsplit
    exact h6.not_twice hsplit (by simp [ipv6Number, hidx])
  · intro r c a hr ha hfreed
    have hle := (leases_of_one hr).1
    simp only [leaseLedger, SmContext.holdings, Holdings.ipv4Lease, ha, Option.map_some,
      leasesOf] at hle
    exact h4.taken _ (Multiset.singleton_le.mp hle) (U32Pool.freed_sub_free hfreed)
  · intro r c a hr ha hfreed
    have hle := (leases_of_one hr).2
    simp only [leaseLedger, SmContext.holdings, Holdings.ipv6Lease, ha, Option.map_some,
      leasesOf] at hle
    exact h6.taken _ (Multiset.singleton_le.mp hle) (U32Pool.freed_sub_free hfreed)

end Stored

theorem leases_start (cfg : SmfConfig) : LeasesInOrder 0 cfg.start.smf.accounts :=
  ⟨.nothing _, .nothing _⟩

/-- **Every run in which each teardown gives back only what its context still holds, or what is
free already, keeps the addresses exclusive.** -/
theorem addresses_exclusive (cfg : SmfConfig) (p : Pool Unit Core Mark Call Call.Answer Unit)
    (h : Pool.Reach smfSystem (fun n _ c _ => ReturnsOwn n c) cfg.pool p) :
    AddressesExclusive p.shared.smf := by
  obtain ⟨m, hok⟩ := leaseLedger.reach leaseLedger_sound (leases_start cfg) h
  exact hok.exclusive

instance (free : Set Nat) [DecidablePred (· ∈ free)] (copied current : Option Nat) :
    Decidable (StillHeld free copied current) :=
  inferInstanceAs (Decidable (∀ v ∈ copied, current = some v ∨ v ∈ free))

instance : ∀ (n : Mark) (c : Core), Decidable (ReturnsOwn n c)
  | .releasing _ _, _ => inferInstanceAs (Decidable (_ ∧ _))
  | .reserving _, _ | .storing _ _, _ | .abandoning _, _ | .recovering _, _ | .forwarding _ _, _
  | .reauthorizing _ _, _ | .merging _ _ _, _ | .refreshFailed _, _ => instDecidableTrue

/-- A session is released twice at once, and a second one established only afterwards. -/
def releaseTwice : List SmfMove :=
  [.spawn (), .spawn (), .spawn ()] ++ createOn [] 0 ++
    [.start 1 (.release "1"), .start 2 (.release "1"), .resume 1 (sampleAnswer []),
      .resume 2 (sampleAnswer [])] ++ createOn [] 0

theorem addresses_exclusive_releaseTwice :
    ∃ p, Pool.moves smfSystem (fun n _ c _ => ReturnsOwn n c) releaseTwice oneUpf.pool = some p ∧
      (p.shared.smf.contexts.lookup "2").bind SmContext.ueIp = some 0x0A2D0002 ∧
      AddressesExclusive p.shared.smf := by
  have hrun : (Pool.moves smfSystem (fun n _ c _ => ReturnsOwn n c) releaseTwice
      oneUpf.pool).map (fun p => (p.shared.smf.contexts.lookup "2").bind SmContext.ueIp) =
        some (some 0x0A2D0002) := by
    decide +kernel
  obtain ⟨p, hp, hview⟩ := Option.map_eq_some_iff.mp hrun
  exact ⟨p, hp, hview, addresses_exclusive oneUpf p (Pool.reach_moves hp)⟩

/-- A session is released twice at once; between the two releases a second session leases the same
address, and a third one after them. -/
def releaseStale : List SmfMove :=
  [.spawn (), .spawn (), .spawn ()] ++ createOn [] 0 ++
    [.start 1 (.release "1"), .start 2 (.release "1"), .resume 1 (sampleAnswer [])] ++ createOn [] 0 ++
    [.resume 2 (sampleAnswer [])] ++ createOn [] 0

/-- Not every run keeps them exclusive: the second and the third session share an address. -/
theorem addresses_not_exclusive :
    ¬ ∀ (cfg : SmfConfig) (p : Pool Unit Core Mark Call Call.Answer Unit),
      Pool.Reach smfSystem (fun _ _ _ _ => True) cfg.pool p → AddressesExclusive p.shared.smf := by
  intro hall
  have hrun : (Pool.moves smfSystem (fun _ _ _ _ => True) releaseStale oneUpf.pool).map
      (fun p => ((p.shared.smf.contexts.lookup "2").bind SmContext.ueIp,
        (p.shared.smf.contexts.lookup "3").bind SmContext.ueIp)) =
        some (some 0x0A2D0002, some 0x0A2D0002) := by
    decide +kernel
  obtain ⟨p, hp, hview⟩ := Option.map_eq_some_iff.mp hrun
  obtain ⟨h₂, h₃⟩ := Prod.mk.inj hview
  obtain ⟨c₂, hc₂, ha₂⟩ := Option.bind_eq_some_iff.mp h₂
  obtain ⟨c₃, hc₃, ha₃⟩ := Option.bind_eq_some_iff.mp h₃
  have hsame := (hall oneUpf p (Pool.reach_moves hp)).ipv4 "2" "3" c₂ c₃ _ hc₂ hc₃ ha₂ ha₃
  exact absurd hsame (by decide)

end Radian.Smf
