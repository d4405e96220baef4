import Radian.Amf.Retransmission
import Radian.Mobility.PathSwitch
import Radian.Octets.Basic
import Mathlib.Logic.Function.Iterate

/-!
# The freshness of AS keys

One UE from the activation of its K_AMF on: registrations and returns seed its NH chain with a new
K_gNB, path switches and handovers move it along the chain.

- `UeContext.seeded` — the seed, as `acceptReturn` and `acceptRegistration` set it.
- `KeyEvent`, `AsKeys.step` — what befalls the chain, with the pairs and the seeds handed out.
- `Fresh` — pairs are handed out along the chain, and every seed has a COUNT of its own.
- `keys_fresh_iff` — that holds throughout exactly when no Handover Request is handed a pair; and what
  holds while each is notified before the next.
-/

namespace Radian

open Nas (Nas5gmmMessage NasSecurityContext Envelope estimate Tac)
open Nas.NasSecurityContext (Verifies)
open Security (Bytes)

namespace Amf

variable (F : Functions)

/-- A K_gNB derived from the uplink COUNT last consumed begins the chain. -/
def UeContext.seeded (c : UeContext) : UeContext :=
  match c.sec, c.kamf with
  | some sec, some kamf => { c with nhChain := some (F.aka.kgnb kamf (sec.ulCount - 1), 0) }
  | _, _ => c

/-- What comes back from idle is seeded. -/
theorem acceptReturn_seeded (ret : Return) (tmsi : Tmsi) (c : UeContext) (hsec : c.sec.isSome) :
    (acceptReturn F ret tmsi c).2.nhChain = (c.seeded F).nhChain ∧
      (acceptReturn F ret tmsi c).2.kamf = c.kamf ∧
      (acceptReturn F ret tmsi c).2.sec.map (fun sec => sec.ulCount) =
        c.sec.map fun sec => sec.ulCount := by
  obtain ⟨sec, hsec⟩ := Option.isSome_iff_exists.mp hsec
  simp only [acceptReturn, UeContext.seeded, hsec]
  cases hkamf : c.kamf with
  | none => exact ⟨rfl, rfl, rfl⟩
  | some kamf => exact ⟨rfl, rfl, rfl⟩

/-- What is registered is seeded. -/
theorem acceptRegistration_seeded {X : Type} {T : Proc.Transformer Association Tables Mark Call Call.Answer X}
    (amfUeId : AmfUeId) (c : UeContext) (sec : NasSecurityContext) (tmsi : Tmsi)
    (allowed rejected : List Nas.Snssai) (l : Association) (t : Tables) (x : X) :
    Proc.wp T (acceptRegistration F amfUeId c sec tmsi allowed rejected) (fun _ l' _ _ =>
      ∃ c', l'.ues.lookup amfUeId = some c' ∧ c'.kamf = c.kamf ∧
        c'.nhChain = ({ c with sec := some sec }.seeded F).nhChain ∧
        c'.sec.map (fun sec => sec.ulCount) = some sec.ulCount) l t x := by
  have hinsert : ∀ c' : UeContext, (l.insert amfUeId c').ues.lookup amfUeId = some c' := fun c' => by
    simp [Association.insert]
  unfold acceptRegistration
  cases hsuci : c.suci <;> cases hkamf : c.kamf <;>
    exact ⟨_, hinsert _, rfl, by simp [UeContext.seeded], rfl⟩

end Amf

namespace Mobility

open Amf (UeContext RanUeId AmfUeId Association Functions commandedUe sampleAka sampleFunctions sampleKamf
  sampleSec)
open Proc (Within WithinFrom during)

/-! ### What befalls the chain of a UE -/

/-- The keys of a UE, and what has been made of them. -/
structure AsKeys where
  ue : UeContext
  /-- The pairs of its handovers in flight. -/
  flight : List (Bytes × Nat) := []
  /-- The pairs handed out since the last seed, oldest first. -/
  handed : List (Bytes × Nat) := []
  /-- The seeds, newest first, each with the COUNT of the message that triggered it. -/
  seeds : List (BitVec 32 × Bytes) := []

inductive KeyEvent where
  /-- A Handover Request goes out. -/
  | required
  /-- A handover fails, is cancelled or expires. -/
  | dropped (i : Nat)
  | notified (i : Nat) (ranUeId : RanUeId) (tac : Option Tac)
  | switched (ranUeId : RanUeId) (tac : Option Tac)
  /-- A Security Mode Complete, or the message with which the UE returns from idle. -/
  | seeding (raw : Bytes)
  /-- Any other uplink message. -/
  | uplink (raw : Bytes)
  deriving DecidableEq

/-- The COUNT an uplink PDU is taken for. -/
def uplinkCount (sec : NasSecurityContext) (raw : Bytes) : BitVec 32 :=
  match Envelope.ofBytes raw with
  | some env => estimate sec.ulCount env.sn
  | none => 0

namespace AsKeys

variable (F : Functions) (nh : Bytes → Bytes → Bytes)

/-- A pair is handed out. -/
def hand (pair : Bytes × Nat) (k : AsKeys) : AsKeys := { k with handed := k.handed ++ [pair] }

/-- An uplink message is read, and `reaction` follows when it verifies. -/
def read (raw : Bytes) (reaction : NasSecurityContext → AsKeys → AsKeys) (k : AsKeys) : AsKeys :=
  match k.ue.sec with
  | none => k
  | some sec =>
      let (m, sec') := sec.unprotect F.algorithms F.nas.toCodec raw 0
      let k := { k with ue := { k.ue with sec := some sec' } }
      if m.isSome then reaction sec k else k

/-- The chain begins anew. -/
def seed (raw : Bytes) (sec : NasSecurityContext) (k : AsKeys) : AsKeys :=
  let ue := k.ue.seeded F
  match k.ue.kamf, ue.nhChain with
  | some _, some (key, _) =>
      { k with ue, handed := [], seeds := (uplinkCount sec raw, key) :: k.seeds }
  | _, _ => k

def step (k : AsKeys) : KeyEvent → AsKeys
  | .required =>
      match k.ue.freshPair nh with
      | some pair => { k.hand pair with flight := k.flight ++ [pair] }
      | none => k
  | .dropped i => { k with flight := k.flight.eraseIdx i }
  | .notified i ranUeId tac =>
      match k.flight[i]? with
      | some pair => { k with ue := k.ue.arrive ranUeId tac pair, flight := k.flight.eraseIdx i }
      | none => k
  | .switched ranUeId tac =>
      match k.ue.freshPair nh with
      | some pair => { k.hand pair with ue := k.ue.arrive ranUeId tac pair }
      | none => k
  | .seeding raw => k.read F raw (seed F raw)
  | .uplink raw => k.read F raw fun _ k => k

/-- A context whose K_AMF has just been activated. -/
structure Activated (kamf : Bytes) (k : AsKeys) : Prop where
  kamf : k.ue.kamf = some kamf
  nhChain : k.ue.nhChain = none
  flight : k.flight = []
  handed : k.handed = []
  seeds : k.seeds = []

/-- The uplink COUNT has not run out. -/
def CountsLeft (k : AsKeys) (_ : KeyEvent) : Prop :=
  ∀ sec, k.ue.sec = some sec → sec.ulCount.toNat < 2 ^ 24

/-- The last pair handed out, or the seed. -/
def last (k : AsKeys) : Option (Bytes × Nat) :=
  k.handed.getLast? <|> k.seeds.head?.map fun s => (s.2, 0)

/-- The keys as the notify of the handover in flight leaves them. -/
def arrived (k : AsKeys) : AsKeys :=
  { k with ue := { k.ue with nhChain := k.flight.head? <|> k.ue.nhChain }, flight := [] }

end AsKeys

open AsKeys (Activated CountsLeft)

/-- The freshness of AS keys. -/
structure Fresh (F : Functions) (nh : Bytes → Bytes → Bytes) (kamf : Bytes) (k : AsKeys) : Prop where
  /-- Counting from the last seed, the pairs handed out are those of the chain, in order. -/
  pairs : k.handed = (List.range k.handed.length).map fun i =>
    ((nh kamf)^[i + 1] ((k.seeds.head?.map fun s => s.2).getD []), (i + 1) % 8)
  /-- The chain of the context is where it was handed out last. -/
  last : k.ue.nhChain = k.last
  /-- Every seed is derived from the COUNT of the message that triggered it, -/
  derived : ∀ count key, (count, key) ∈ k.seeds → key = F.aka.kgnb kamf count
  /-- and no two from the same. -/
  once : (k.seeds.map fun s => s.1).Nodup

section

variable {F : Functions} {nh : Bytes → Bytes → Bytes} {kamf : Bytes} {k : AsKeys}

/-! ### COUNTs -/

theorem toNat_estimate_lt {expected : BitVec 32} {sn : UInt8} (h : expected.toNat < 2 ^ 24) :
    (estimate expected sn).toNat < 2 ^ 24 + 512 := by
  have hbase := Nas.toNat_base expected sn
  have hsn : sn.toNat < 256 := sn.toNat_lt
  unfold estimate
  generalize expected &&& ~~~0xff#32 ||| sn.toBitVec.setWidth 32 = base at *
  dsimp only
  split
  · bv_omega
  · split <;> bv_omega

/-- A PDU that verifies moves the uplink COUNT just past its own. -/
theorem unprotect_uplink {sec sec' : NasSecurityContext} {raw : Bytes} {m : Option Nas5gmmMessage}
    (hcount : sec.ulCount.toNat < 2 ^ 24)
    (h : sec.unprotect F.algorithms F.nas.toCodec raw 0 = (m, sec')) :
    sec.ulCount.toNat ≤ sec'.ulCount.toNat ∧
      (m.isSome → sec'.ulCount - 1 = uplinkCount sec raw ∧
        sec.ulCount.toNat ≤ (uplinkCount sec raw).toNat ∧
        (uplinkCount sec raw).toNat < sec'.ulCount.toNat) := by
  by_cases hverifies : ∃ env, Envelope.ofBytes raw = some env ∧ Verifies F.algorithms sec env 0
  · obtain ⟨env, henv, hv⟩ := hverifies
    rw [NasSecurityContext.unprotect_of_verifies henv hv, Prod.mk.injEq] at h
    obtain ⟨-, rfl⟩ := h
    have hnewer : sec.ulCount.toNat ≤ (estimate sec.ulCount env.sn).toNat := BitVec.le_def.mp hv.newer
    have hroom : (estimate sec.ulCount env.sn).toNat < 2 ^ 24 + 512 := toNat_estimate_lt hcount
    have htaken : uplinkCount sec raw = estimate sec.ulCount env.sn := by
      simp only [uplinkCount, henv]
    rw [htaken]
    change _ ≤ (estimate sec.ulCount env.sn + 1).toNat ∧
      (_ → estimate sec.ulCount env.sn + 1 - 1 = _ ∧ _ ∧
        _ < (estimate sec.ulCount env.sn + 1).toNat)
    refine ⟨by bv_omega, fun _ => ⟨by bv_omega, hnewer, by bv_omega⟩⟩
  · have hsame : sec.unprotect F.algorithms F.nas.toCodec raw 0 = (none, sec) :=
      NasSecurityContext.unprotect_of_not_verifies fun env henv hv => hverifies ⟨env, henv, hv⟩
    rw [hsame, Prod.mk.injEq] at h
    obtain ⟨rfl, rfl⟩ := h
    exact ⟨le_rfl, fun hnone => by cases hnone⟩

/-! ### The invariant -/

/-- No Handover Request has been handed a pair. -/
structure Unspent (F : Functions) (nh : Bytes → Bytes → Bytes) (kamf : Bytes) (k : AsKeys) : Prop where
  fresh : Fresh F nh kamf k
  kamf : k.ue.kamf = some kamf
  flight : k.flight = []
  counts : ∀ sec, k.ue.sec = some sec → ∀ count key, (count, key) ∈ k.seeds →
    count.toNat < sec.ulCount.toNat
  seeded : k.seeds = [] → k.handed = []

theorem Unspent.start (h : Activated kamf k) : Unspent F nh kamf k := by
  refine ⟨⟨?_, ?_, ?_, ?_⟩, h.kamf, h.flight, ?_, fun _ => h.handed⟩
  · simp [h.handed]
  · simp [h.nhChain, AsKeys.last, h.handed, h.seeds]
  · simp [h.seeds]
  · simp [h.seeds]
  · simp [h.seeds]

/-- The last pair of a chain that has been handed out in order. -/
theorem Fresh.last_eq (h : Fresh F nh kamf k) (hseeded : k.seeds = [] → k.handed = []) :
    k.ue.nhChain = k.seeds.head?.map fun s =>
      ((nh kamf)^[k.handed.length] s.2, k.handed.length % 8) := by
  rw [h.last, AsKeys.last]
  cases hlen : k.handed.length with
  | zero =>
    rw [List.eq_nil_of_length_eq_zero hlen]
    rfl
  | succ n =>
    have hlast : k.handed.getLast? = some
        ((nh kamf)^[n + 1] ((k.seeds.head?.map fun s => s.2).getD []), (n + 1) % 8) := by
      rw [h.pairs, hlen, List.range_succ, List.map_append]
      exact List.getLast?_concat
    cases hseeds : k.seeds with
    | nil => simp [hseeded hseeds] at hlen
    | cons s rest =>
      rw [hlast, hseeds]
      rfl

/-- What a path switch derives is the next pair of the chain. -/
theorem Fresh.hand (h : Fresh F nh kamf k) (hkamf : k.ue.kamf = some kamf)
    (hseeded : k.seeds = [] → k.handed = []) {pair : Bytes × Nat}
    (hpair : k.ue.freshPair nh = some pair) {ue : UeContext} (hue : ue.nhChain = some pair) :
    Fresh F nh kamf { k.hand pair with ue } ∧ k.seeds ≠ [] := by
  have hlast := h.last_eq hseeded
  cases hseeds : k.seeds with
  | nil =>
    rw [hseeds] at hlast
    simp [UeContext.freshPair, hkamf, hlast] at hpair
  | cons s rest =>
    rw [hseeds] at hlast
    simp only [UeContext.freshPair, hkamf, hlast, List.head?_cons, Option.map_some,
      Option.bind_eq_bind, Option.bind_some, Option.pure_def, Option.some.injEq] at hpair
    have hnext : pair = ((nh kamf)^[k.handed.length + 1] s.2, (k.handed.length + 1) % 8) := by
      rw [← hpair, Function.iterate_succ_apply', Nat.mod_add_mod]
    refine ⟨⟨?_, ?_, h.derived, h.once⟩, by simp⟩
    · have hpairs := h.pairs
      change k.handed ++ [pair] = (List.range (k.handed ++ [pair]).length).map _
      rw [List.length_append, List.length_singleton, List.range_succ, List.map_append,
        List.map_singleton]
      change _ = List.map (fun i => ((nh kamf)^[i + 1] ((k.seeds.head?.map fun s => s.2).getD []),
        (i + 1) % 8)) (List.range k.handed.length) ++ [((nh kamf)^[k.handed.length + 1]
          ((k.seeds.head?.map fun s => s.2).getD []), (k.handed.length + 1) % 8)]
      rw [← hpairs, hnext, hseeds]
      rfl
    · rw [hue, AsKeys.last]
      change some pair = ((k.handed ++ [pair]).getLast? <|> _)
      rw [List.getLast?_concat]
      rfl

/-- An uplink message leaves the chain alone, unless it seeds it. -/
theorem Unspent.read (h : Unspent F nh kamf k) {raw : Bytes}
    {reaction : NasSecurityContext → AsKeys → AsKeys} (hleft : CountsLeft k (.uplink raw))
    (hreaction : ∀ sec sec' k', Unspent F nh kamf k' → k'.ue.sec = some sec' →
      (∀ count key, (count, key) ∈ k'.seeds → count.toNat < (uplinkCount sec raw).toNat) →
      sec'.ulCount - 1 = uplinkCount sec raw →
      (uplinkCount sec raw).toNat < sec'.ulCount.toNat → Unspent F nh kamf (reaction sec k')) :
    Unspent F nh kamf (k.read F raw reaction) := by
  unfold AsKeys.read
  cases hsec : k.ue.sec with
  | none => exact h
  | some sec =>
    cases hread : sec.unprotect F.algorithms F.nas.toCodec raw 0 with
    | mk m sec' =>
      obtain ⟨hmoved, htaken⟩ := unprotect_uplink (hleft sec hsec) hread
      have hunspent : Unspent F nh kamf { k with ue := { k.ue with sec := some sec' } } := by
        refine ⟨⟨h.fresh.pairs, h.fresh.last, h.fresh.derived, h.fresh.once⟩, h.kamf, h.flight, ?_,
          h.seeded⟩
        intro sec₁ hsec₁ count key hmem
        obtain rfl := Option.some_inj.mp hsec₁
        exact Nat.lt_of_lt_of_le (h.counts sec hsec count key hmem) hmoved
      simp only [hread]
      split
      · rename_i hsome
        obtain ⟨hcount, hnewer, hbelow⟩ := htaken hsome
        refine hreaction sec sec' _ hunspent rfl (fun count key hmem => ?_) hcount hbelow
        exact Nat.lt_of_lt_of_le (h.counts sec hsec count key hmem) hnewer
      · exact hunspent

/-- A new seed has a COUNT of its own. -/
theorem Unspent.seed (h : Unspent F nh kamf k) {raw : Bytes} {sec sec' : NasSecurityContext}
    (hsec : k.ue.sec = some sec')
    (hnewer : ∀ count key, (count, key) ∈ k.seeds → count.toNat < (uplinkCount sec raw).toNat)
    (hcount : sec'.ulCount - 1 = uplinkCount sec raw)
    (hbelow : (uplinkCount sec raw).toNat < sec'.ulCount.toNat) :
    Unspent F nh kamf (k.seed F raw sec) := by
  have hseeded : k.ue.seeded F =
      { k.ue with nhChain := some (F.aka.kgnb kamf (uplinkCount sec raw), 0) } := by
    simp only [UeContext.seeded, hsec, h.kamf, hcount]
  have hresult : k.seed F raw sec =
      { k with
        ue := { k.ue with nhChain := some (F.aka.kgnb kamf (uplinkCount sec raw), 0) }
        handed := []
        seeds := (uplinkCount sec raw, F.aka.kgnb kamf (uplinkCount sec raw)) :: k.seeds } := by
    simp only [AsKeys.seed, hseeded, h.kamf]
  rw [hresult]
  refine ⟨⟨rfl, rfl, ?_, ?_⟩, h.kamf, h.flight, ?_, fun hnone => by cases hnone⟩
  · intro count key hmem
    obtain hmem | hmem := List.mem_cons.mp hmem
    · cases hmem
      rfl
    · exact h.fresh.derived count key hmem
  · rw [List.map_cons, List.nodup_cons]
    refine ⟨fun hmem => ?_, h.fresh.once⟩
    obtain ⟨⟨count, key⟩, hpast, rfl⟩ := List.mem_map.mp hmem
    exact absurd (hnewer _ key hpast) (Nat.lt_irrefl _)
  · intro sec₁ hsec₁ count key hmem
    obtain rfl : sec' = sec₁ := Option.mem_unique hsec hsec₁
    obtain hmem | hmem := List.mem_cons.mp hmem
    · cases hmem
      exact hbelow
    · exact (hnewer count key hmem).trans hbelow

/-- No Handover Request is handed a pair. -/
def Keeps (nh : Bytes → Bytes → Bytes) (k : AsKeys) (e : KeyEvent) : Prop :=
  e = .required → k.ue.freshPair nh = none

theorem Unspent.step (h : Unspent F nh kamf k) {e : KeyEvent} (hleft : CountsLeft k e)
    (hkeeps : Keeps nh k e) : Unspent F nh kamf (k.step F nh e) := by
  cases e with
  | required =>
    rw [AsKeys.step, hkeeps rfl]
    exact h
  | dropped i =>
    refine ⟨⟨h.fresh.pairs, h.fresh.last, h.fresh.derived, h.fresh.once⟩, h.kamf, ?_, h.counts,
      h.seeded⟩
    simp [AsKeys.step, h.flight]
  | notified i ranUeId tac =>
    have hnone : k.flight[i]? = none := by rw [h.flight]; rfl
    simp only [AsKeys.step, hnone]
    exact h
  | switched ranUeId tac =>
    cases hpair : k.ue.freshPair nh with
    | none =>
      simp only [AsKeys.step, hpair]
      exact h
    | some pair =>
      simp only [AsKeys.step, hpair]
      have hchain : (k.ue.arrive ranUeId tac pair).nhChain = some pair := rfl
      obtain ⟨hfresh, hseeds⟩ := h.fresh.hand h.kamf h.seeded hpair hchain
      exact ⟨hfresh, h.kamf, h.flight, h.counts, fun hnone => absurd hnone hseeds⟩
  | seeding raw =>
    exact h.read hleft fun sec sec' k' hk' hsec hnewer hcount hbelow =>
      hk'.seed hsec hnewer hcount hbelow
  | uplink raw => exact h.read hleft fun _ _ _ hk' _ _ _ _ => hk'

/-- The pair in a Handover Request is not the one the context goes on with. -/
theorem keeps_of_fresh {e : KeyEvent} (hafter : Fresh F nh kamf (k.step F nh e)) : Keeps nh k e := by
  rintro rfl
  cases hpair : k.ue.freshPair nh with
  | none => rfl
  | some pair =>
    have hlast := hafter.last
    simp only [AsKeys.step, hpair] at hlast
    change k.ue.nhChain = ((k.handed ++ [pair]).getLast? <|> _) at hlast
    rw [List.getLast?_concat] at hlast
    have hchain : k.ue.nhChain = some pair := hlast
    simp only [UeContext.freshPair, hchain, Option.bind_eq_bind, Option.bind_some,
      Option.pure_def] at hpair
    obtain ⟨key, -, hsame⟩ := Option.bind_eq_some_iff.mp hpair
    have hncc : (pair.2 + 1) % 8 = pair.2 := congrArg Prod.snd (Option.some_inj.mp hsame)
    omega

/-- A pair is derived, and the chain begun anew, when no handover is in flight; and a handover in flight
ends with its notify. -/
def Notified (k : AsKeys) : KeyEvent → Prop
  | .notified .. | .uplink _ => True
  | _ => k.flight = []

instance (k : AsKeys) : ∀ e, Decidable (Notified k e)
  | .notified .. | .uplink _ => instDecidableTrue
  | .required | .dropped _ | .switched .. | .seeding _ => inferInstanceAs (Decidable (k.flight = []))

theorem arrived_eq (h : k.flight = []) : k.arrived = k := by
  cases k
  cases h
  rfl

theorem arrived_step (hflight : k.flight.length ≤ 1) (h : Unspent F nh kamf k.arrived) {e : KeyEvent}
    (hleft : CountsLeft k e) (hnotified : Notified k e) :
    (k.step F nh e).flight.length ≤ 1 ∧ Unspent F nh kamf (k.step F nh e).arrived := by
  have hidle : k.flight = [] → Keeps nh k e →
      (k.step F nh e).flight.length ≤ 1 ∧ Unspent F nh kamf (k.step F nh e).arrived := by
    intro hnone hkeeps
    rw [arrived_eq hnone] at h
    have hafter := h.step hleft hkeeps
    rw [arrived_eq hafter.flight, hafter.flight]
    exact ⟨Nat.zero_le 1, hafter⟩
  cases e with
  | required =>
    cases hpair : k.ue.freshPair nh with
    | none => exact hidle hnotified fun _ => hpair
    | some pair =>
      rw [arrived_eq hnotified] at h
      simp only [AsKeys.step, hpair]
      rw [show k.flight = [] from hnotified]
      have hchain : ({ k.ue with nhChain := some pair } : UeContext).nhChain = some pair := rfl
      obtain ⟨hfresh, hseeds⟩ := h.fresh.hand h.kamf h.seeded hpair hchain
      exact ⟨le_rfl, ⟨hfresh.pairs, hfresh.last, hfresh.derived, hfresh.once⟩, h.kamf, rfl, h.counts,
        fun hnone => absurd hnone hseeds⟩
  | notified i ranUeId tac =>
    cases hflight' : k.flight with
    | nil => exact hidle hflight' nofun
    | cons pair rest =>
      obtain rfl : rest = [] := List.eq_nil_of_length_eq_zero (by simpa [hflight'] using hflight)
      have hlast := h.fresh.last
      cases i with
      | zero =>
        simp only [AsKeys.step, AsKeys.arrived, hflight'] at hlast ⊢
        exact ⟨Nat.zero_le 1, ⟨h.fresh.pairs, hlast, h.fresh.derived, h.fresh.once⟩, h.kamf, rfl,
          h.counts, h.seeded⟩
      | succ i =>
        simp only [AsKeys.step, hflight']
        exact ⟨hflight, h⟩
  | uplink raw =>
    have hafter : Unspent F nh kamf (k.arrived.read F raw fun _ k => k) :=
      h.read hleft fun _ _ _ hk' _ _ _ _ => hk'
    have hsame : (k.read F raw fun _ k => k).flight = k.flight ∧
        (k.read F raw fun _ k => k).arrived = k.arrived.read F raw fun _ k => k := by
      unfold AsKeys.read
      cases hsec : k.ue.sec with
      | none =>
        rw [show k.arrived.ue.sec = none from hsec]
        exact ⟨rfl, rfl⟩
      | some sec =>
        rw [show k.arrived.ue.sec = some sec from hsec]
        dsimp only
        split <;> exact ⟨rfl, rfl⟩
    rw [AsKeys.step, hsame.1, hsame.2]
    exact ⟨hflight, hafter⟩
  | dropped i => exact hidle hnotified nofun
  | switched ranUeId tac => exact hidle hnotified nofun
  | seeding raw => exact hidle hnotified nofun

/-- **AS key freshness.** From the activation of a K_AMF on, as long as the uplink COUNT has not run
out, pairs and seeds are fresh throughout a run exactly when no Handover Request is handed a pair.  Where
each handover is notified before the next pair is derived, they are fresh too, but for the context's own
chain, which has the last pair only once it is notified. -/
theorem keys_fresh_iff {k₀ : AsKeys} (hstart : Activated kamf k₀) {es : List KeyEvent}
    (hleft : Runs.Along (AsKeys.step F nh) CountsLeft k₀ es) :
    (Runs.Along (AsKeys.step F nh) (fun k e => Fresh F nh kamf (k.step F nh e)) k₀ es ↔
        Runs.Along (AsKeys.step F nh) (Keeps nh) k₀ es) ∧
      (Runs.Along (AsKeys.step F nh) Notified k₀ es →
        Runs.Along (AsKeys.step F nh) (fun k e => Fresh F nh kamf (k.step F nh e).arrived) k₀ es) := by
  have hfirst : Unspent F nh kamf k₀ := .start hstart
  refine ⟨⟨?_, ?_⟩, fun hnotified => ?_⟩
  · exact Runs.along_imp (I := fun _ => True) (fun _ _ _ _ => trivial)
      (fun _ _ _ hafter => keeps_of_fresh hafter) trivial
  · intro hkeeps
    have hunspent := (Runs.along_after_iff (fun k e hcounts hk =>
      ⟨fun hafter => keeps_of_fresh hafter.fresh, hk.step hcounts⟩) hleft hfirst).mpr hkeeps
    exact Runs.along_imp (I := fun _ => True) (fun _ _ _ _ => trivial)
      (fun _ _ _ hafter => hafter.fresh) trivial hunspent
  · refine Runs.along_imp (I := fun k => k.flight.length ≤ 1 ∧ Unspent F nh kamf k.arrived)
      (fun k e hstep hk => arrived_step hk.1 hk.2 hstep.1 hstep.2)
      (fun k e hk hstep => (arrived_step hk.1 hk.2 hstep.1 hstep.2).2.fresh) ?_
      (Runs.along_and.mpr ⟨hleft, hnotified⟩)
    rw [arrived_eq hfirst.flight, hfirst.flight]
    exact ⟨Nat.zero_le 1, hfirst⟩

/-! ### The handlers -/

/-- The contexts stay as they are. -/
def Unmoved (l l' : Association) : Prop := l' = l

theorem Unmoved.refl (l : Association) : Unmoved l l := rfl

/-- A Handover Request carries the next pair of the context, and leaves the context as it is. -/
theorem withinFrom_onHandoverRequired {req : HandoverRequired} {l : Association} {s : Shared}
    {c : UeContext} (hc : l.ues.lookup req.amfUeId = some c) :
    WithinFrom Unmoved
      (fun n => ∀ amfUeId p, n = .beginning amfUeId p → c.freshPair nh = some (p.nh, p.ncc))
      (onHandoverRequired nh (some req)) l s := by
  have hfetch : Within Unmoved
      (fun n => ∀ amfUeId p, n = .beginning amfUeId p → c.freshPair nh = some (p.nh, p.ncc))
      (fetchSessions c req.psis) := by
    induction req.psis with
    | nil => exact .pure _
    | cons psi psis ih =>
      unfold fetchSessions
      split
      · exact ih
      · refine .bind (.ask _) fun created => ?_
        cases created with
        | none => exact ih
        | some created => exact .bind ih fun _ => .pure _
  unfold onHandoverRequired getUe
  dsimp only
  rw [Proc.withinFrom_look_bind, hc]
  dsimp only
  cases hpair : c.freshPair nh with
  | none => trivial
  | some pair =>
    dsimp only
    rw [Proc.withinFrom_look_bind]
    cases s.targetLink req.targetGnbId l.tx with
    | none => trivial
    | some targetTx =>
      rw [hpair] at hfetch
      refine Within.bind hfetch (fun sessions => .bind (.look _) fun tx => .bind ?_ fun _ =>
        .bind (.mark fun _ _ hnone => by cases hnone) fun _ => .pure _) l s
      refine .bind (.look _) fun number => .bind (.mark fun _ _ hbegins => ?_) fun _ =>
        .change Unmoved.refl _
      cases hbegins
      rfl

/-- A path switch moves the context that is here along its chain, and acknowledges with that pair. -/
theorem during_onPathSwitch {allow : Mark → Association → Shared → List Mark → Prop}
    {drift : Shared → Shared → Prop} {req : PathSwitchRequest} {l : Association} {s : Shared}
    {w : List Mark} {c : UeContext} (hc : l.ues.lookup req.amfUeId = some c) {pair : Bytes × Nat}
    (hpair : c.freshPair nh = some pair) :
    during outside allow drift (onPathSwitch nh (some req)) (fun answer l' _ _ =>
      l'.ues.lookup req.amfUeId = some (c.arrive req.newRanUeId req.tac pair) ∧
      ∃ switched, answer = some (.pathSwitchRequestAcknowledge req.amfUeId req.newRanUeId pair.2
        pair.1 switched)) l s w := by
  have hstays : ∀ sessions, Within Unmoved (fun _ => True)
      (switchSessions req.amfUeId sessions) := by
    intro sessions
    induction sessions with
    | nil => exact .pure _
    | cons session sessions ih =>
      refine .bind (.bind (.look _) fun found => ?_) fun _ => .bind ih fun _ => .pure _
      cases found.bind fun c => c.smRefs.lookup session.1 with
      | none => exact .pure _
      | some ref => exact .ask _
  have haddress : Within Unmoved (fun _ => True)
      (address req.amfUeId c) := by
    refine .bind (.look _) fun tx => ?_
    cases c.suci with
    | none => exact .pure _
    | some supi => exact .change Unmoved.refl _
  have hrest : during outside allow drift
      (do
        address req.amfUeId c
        switchSessions req.amfUeId req.sessions)
      (fun _ l' _ _ => l' = l.modify req.amfUeId (UeContext.arrive req.newRanUeId req.tac pair))
      (l.modify req.amfUeId (UeContext.arrive req.newRanUeId req.tac pair)) s w :=
    (Within.bind haddress fun _ => hstays req.sessions).during
      (I := fun l' _ => l' = l.modify req.amfUeId (UeContext.arrive req.newRanUeId req.tac pair))
      (fun hsame h => hsame.trans h) (fun _ h => h) (fun _ h => h) rfl
  have hmoved : (l.modify req.amfUeId (UeContext.arrive req.newRanUeId req.tac pair)).ues.lookup
      req.amfUeId = some (c.arrive req.newRanUeId req.tac pair) := by
    simp [Association.modify, Keyed.Map.lookup_modify, hc]
  simp only [onPathSwitch, takeOver, getUe, Proc.wp_bind, Proc.wp_look, hc, hpair, modifyUe,
    Proc.wp_changeLocal, Proc.wp_pure, if_true] at hrest ⊢
  refine Proc.during_mono (fun _ l₁ s₁ w₁ h₁ => ?_) hrest
  rw [Proc.wp_bind]
  refine Proc.during_mono (fun switched l₂ s₂ w₂ h₂ => ?_) h₁
  rw [h₂]
  exact ⟨hmoved, switched, rfl⟩

end

/-! ### Two handovers, one pair -/

/-- The first two NHs of the sample's K_AMF. -/
def sampleNh (kamf sync : Bytes) : Bytes :=
  Octets.ofNat 32
    (if sync = sampleAka.kgnb kamf 0 then 0x2aedb3b7622fb5d087410a460fe2080bce84cdc10754bede3ad73358f7ec993b
    else 0xf09d1683c9a1f0842ccb772d2633183b833d2a3ad443de5763cb2b060bf8801f)

/-- A UE whose K_AMF has just been activated. -/
def sampleKeys : AsKeys :=
  { ue := { commandedUe with sec := some sampleSec, kamf := some sampleKamf } }

/-- Its Security Mode Complete. -/
def sampleComplete : Bytes := [0x7e, 0x04, 0x0d, 0x9b, 0x38, 0xc6, 0x00, 0x7e, 0x00, 0x5e]

theorem activated_sample : Activated sampleKamf sampleKeys := ⟨rfl, rfl, rfl, rfl, rfl⟩

def sampleMoves : List KeyEvent :=
  [.seeding sampleComplete, .switched 2 none, .switched 3 none]

/-- A handover, before a path switch. -/
def sampleNotified : List KeyEvent :=
  [.seeding sampleComplete, .required, .notified 0 2 none, .switched 3 none]

theorem countsLeft_of_run {es : List KeyEvent}
    (h : Runs.Along (AsKeys.step sampleFunctions sampleNh)
      (fun k _ => ∀ sec ∈ k.ue.sec, sec.ulCount.toNat < 2 ^ 24) sampleKeys es) :
    Runs.Along (AsKeys.step sampleFunctions sampleNh) CountsLeft sampleKeys es := h

theorem keys_fresh_iff_sample :
    (Runs.Along (AsKeys.step sampleFunctions sampleNh)
          (fun k e => Fresh sampleFunctions sampleNh sampleKamf (k.step sampleFunctions sampleNh e)) sampleKeys
          sampleMoves ↔
        Runs.Along (AsKeys.step sampleFunctions sampleNh) (Keeps sampleNh) sampleKeys sampleMoves) ∧
      Runs.Along (AsKeys.step sampleFunctions sampleNh)
        (fun k e => Fresh sampleFunctions sampleNh sampleKamf (k.step sampleFunctions sampleNh e).arrived)
        sampleKeys sampleNotified :=
  ⟨(keys_fresh_iff activated_sample (countsLeft_of_run (by decide +kernel))).1,
    (keys_fresh_iff activated_sample (countsLeft_of_run (by decide +kernel))).2
      (by decide +kernel)⟩

/-- A handover that fails, and another: both gNBs are handed the first pair. -/
def sampleHandovers : List KeyEvent :=
  [.seeding sampleComplete, .required, .dropped 0, .required]

theorem not_fresh :
    ¬ ∀ (F : Functions) (nh : Bytes → Bytes → Bytes) (kamf : Bytes) (k₀ : AsKeys) (es : List KeyEvent),
      Activated kamf k₀ → Runs.Along (AsKeys.step F nh) CountsLeft k₀ es →
        Fresh F nh kamf (Runs.run (AsKeys.step F nh) k₀ es) := by
  intro h
  have hfresh := h sampleFunctions sampleNh sampleKamf sampleKeys sampleHandovers activated_sample
    (countsLeft_of_run (by decide +kernel))
  let first := sampleNh sampleKamf (sampleAka.kgnb sampleKamf 0)
  have hhanded : (Runs.run (AsKeys.step sampleFunctions sampleNh) sampleKeys sampleHandovers).handed =
      [(first, 1), (first, 1)] := by decide +kernel
  have hpairs := congrArg (List.map Prod.snd) hfresh.pairs
  rw [hhanded, List.map_map] at hpairs
  exact absurd hpairs (by decide)

end Mobility

end Radian
