import Radian.Ran.Bridging
import Radian.Ran.Counterpart

/-!
# The UE tables of the F1 split

How the tables of the DU, the CU's transport and the gNB core belong together while messages are under
way on the F1 link.

- `Uplink` — what an endpoint sent and what of it is on its way to the CU.
- `Link` — the DU's table, once it has read everything, against the CU's.
- `Link.push`, `Link.pop`, `Link.camp`, `Link.enter`, `Link.release` — what each step does to it.
- `Link.sends` — what the CU sends down reaches the endpoints of the core's messages.
-/

namespace Radian.Ran

open Security (Bytes)
open Inbox (drain Throughout)

variable {P : Type}

/-! ### The way up -/

/-- What an endpoint sent, and what of it the DU sent to the CU; or an answer of the DU. -/
structure Uplink (P : Type) where
  f1 : Option F1Message
  uu : Option (P × UlMessage)

/-- The DU-UE-F1AP-ID and the endpoint of an opening. -/
def Uplink.opening (x : Uplink P) : Option (Nat × P) :=
  match x.f1, x.uu with
  | some (.c (.initialUlRrcMessageTransfer duUeId _ _)), some (peer, _) => some (duUeId, peer)
  | _, _ => none

/-- The openings on the way up. -/
def openings (up : List (Uplink P)) : List (Nat × P) := up.filterMap fun x => x.opening

/-- The DU-UE-F1AP-ID of the CU's UE. -/
def F1Transport.duId (t : F1Transport) (cuUeId : Nat) : Option Nat :=
  (t.ues.lookup cuUeId).map fun f => f.duUeId

/-- What is on its way up is an opening, a message that the CU takes for one of the same endpoint, a
message of an endpoint that the CU does not know, or an answer. -/
inductive Uplink.Sound (F : Functions) (reach : Nat → Option P) (ids : Nat → Option Nat) :
    Uplink P → Prop where
  | opens (duUeId : Nat) (cRnti : UInt16) {rrc : Bytes} (peer : P)
      (hnew : (UlMessage.srb SRB0 rrc).newUes F = 1) :
      Sound F reach ids
        ⟨some (.c (.initialUlRrcMessageTransfer duUeId cRnti rrc)), some (peer, .srb SRB0 rrc)⟩
  | relayed {m : F1Message} {cuUeId : Nat} {peer : P} {msg : UlMessage}
      (hreceive : ∀ t : F1Transport, t.receive m = (some (cuUeId, msg), [], t))
      (hreach : reach cuUeId = some peer) (hnew : msg.newUes F = 0) :
      Sound F reach ids ⟨some m, some (peer, msg)⟩
  | dropped {peer : P} {msg : UlMessage} (hgone : ∀ cuUeId, reach cuUeId = some peer → ids cuUeId = none)
      (hnew : msg.newUes F = 0) : Sound F reach ids ⟨none, some (peer, msg)⟩
  | answer {m : F1Message} (hreceive : ∀ t : F1Transport, t.receive m = (none, [], t)) :
      Sound F reach ids ⟨some m, none⟩

@[simp] theorem openings_nil : openings ([] : List (Uplink P)) = [] := rfl

theorem openings_cons_none {x : Uplink P} (hx : x.opening = none) (up : List (Uplink P)) :
    openings (x :: up) = openings up := List.filterMap_cons_none hx

theorem openings_cons_some {x : Uplink P} {o : Nat × P} (hx : x.opening = some o) (up : List (Uplink P)) :
    openings (x :: up) = o :: openings up := List.filterMap_cons_some hx

theorem openings_append (up up' : List (Uplink P)) :
    openings (up ++ up') = openings up ++ openings up' := List.filterMap_append

theorem opening_relayed {m : F1Message} {cuUeId : Nat} {msg : UlMessage}
    (hreceive : ∀ t : F1Transport, t.receive m = (some (cuUeId, msg), [], t)) (uu : Option (P × UlMessage)) :
    Uplink.opening ⟨some m, uu⟩ = none := by
  cases m with
  | u datagram => rfl
  | c pdu =>
    cases pdu with
    | initialUlRrcMessageTransfer duUeId cRnti rrc =>
      have hnext := congrArg (fun r => r.2.2.nextCuUeId) (hreceive {})
      simp [F1Transport.receive, F1Transport.handleF1ap] at hnext
    | _ => rfl

/-! ### The tables -/

/-- The DU's table, once it has read everything, against the CU's; `reach` says which endpoint opened
the connection of a CU-UE-F1AP-ID, if it has opened none since. -/
structure Link (F : Functions) (reach : Nat → Option P) (t : F1Transport) (up : List (Uplink P))
    (d : Du P) : Prop where
  one : ∀ cuUeId cuUeId' peer, reach cuUeId = some peer → reach cuUeId' = some peer → cuUeId = cuUeId'
  reached : ∀ cuUeId, (reach cuUeId).isSome → cuUeId < t.nextCuUeId
  known : ∀ cuUeId duUeId, t.duId cuUeId = some duUeId → cuUeId < t.nextCuUeId ∧ duUeId < d.nextDuUeId
  few : t.nextCuUeId ≤ 2 ^ 24
  apart : ∀ cuUeId cuUeId' duUeId, t.duId cuUeId = some duUeId → t.duId cuUeId' = some duUeId →
    cuUeId = cuUeId'
  /-- A UE that the CU has addressed is one that the CU knows. -/
  addressed : ∀ u ∈ d.ues, ∀ cuUeId, u.cuUeId = some cuUeId →
    reach cuUeId = some u.peer ∧ t.duId cuUeId = some u.duUeId
  /-- A UE that the CU knows is there, unless its endpoint is opening a connection. -/
  served : ∀ cuUeId duUeId peer, t.duId cuUeId = some duUeId → reach cuUeId = some peer →
    (∀ o ∈ openings up, o.2 ≠ peer) → (⟨duUeId, some cuUeId, peer⟩ : DuUe P) ∈ d.ues
  /-- A UE that the CU has not addressed is one whose endpoint is opening a connection. -/
  waiting : ∀ u ∈ d.ues, u.cuUeId = none → (u.duUeId, u.peer) ∈ openings up
  opening : ∀ o ∈ openings up, ∃ u ∈ d.ues, u.peer = o.2 ∧ u.cuUeId = none
  fresh : ∀ o ∈ openings up, o.1 < d.nextDuUeId ∧
    ∀ cuUeId duUeId, t.duId cuUeId = some duUeId → duUeId < o.1
  ordered : (openings up).Pairwise fun o o' => o.1 < o'.1
  uplinks : ∀ x ∈ up, x.Sound F reach t.duId
  /-- Behind an opening of an endpoint there are only openings of that. -/
  order : up.Pairwise fun x y => ∀ o, x.opening = some o → ∀ msg, y.uu = some (o.2, msg) →
    y.opening.isSome

namespace Link

variable {F : Functions} {reach : Nat → Option P} {t t' : F1Transport} {up : List (Uplink P)}
  {x : Uplink P} {d : Du P}

theorem congr (h : Link F reach t up d) (hids : t'.duId = t.duId)
    (hnext : t'.nextCuUeId = t.nextCuUeId) : Link F reach t' up d := by
  obtain ⟨one, reached, known, few, apart, addressed, served, waiting, opening, fresh, ordered, uplinks,
    order⟩ := h
  rw [← hids] at known apart addressed served fresh uplinks
  rw [← hnext] at reached known few
  exact ⟨one, reached, known, few, apart, addressed, served, waiting, opening, fresh, ordered, uplinks,
    order⟩

/-- The CU takes something other than an opening. -/
theorem pop (h : Link F reach t (x :: up) d) (hx : x.opening = none) : Link F reach t up d := by
  obtain ⟨one, reached, known, few, apart, addressed, served, waiting, opening, fresh, ordered, uplinks,
    order⟩ := h
  rw [openings_cons_none hx] at served waiting opening fresh ordered
  exact ⟨one, reached, known, few, apart, addressed, served, waiting, opening, fresh, ordered,
    (List.forall_mem_cons.mp uplinks).2, (List.pairwise_cons.mp order).2⟩

/-- The DU sends something other than an opening. -/
theorem push (h : Link F reach t up d) (hx : x.Sound F reach t.duId) (hopen : x.opening = none)
    (hfree : ∀ peer msg, x.uu = some (peer, msg) → ∀ o ∈ openings up, o.2 ≠ peer) :
    Link F reach t (up ++ [x]) d := by
  have hsame : openings (up ++ [x]) = openings up := by
    rw [openings_append, openings_cons_none hopen, openings_nil, List.append_nil]
  obtain ⟨one, reached, known, few, apart, addressed, served, waiting, opening, fresh, ordered, uplinks,
    order⟩ := h
  rw [← hsame] at served waiting opening fresh ordered
  refine ⟨one, reached, known, few, apart, addressed, served, waiting, opening, fresh, ordered, ?_, ?_⟩
  · intro y hy
    obtain hy | hy := List.mem_append.mp hy
    · exact uplinks y hy
    · rwa [List.mem_singleton.mp hy]
  · rw [List.pairwise_append]
    refine ⟨order, List.pairwise_singleton _ _, fun y hy z hz o ho msg hmsg => ?_⟩
    rw [List.mem_singleton.mp hz] at hmsg
    exact absurd rfl (hfree o.2 msg hmsg o (List.mem_filterMap.mpr ⟨y, hy, ho⟩))

/-- The DU sends its answers. -/
theorem push_answers {answers : List F1Message}
    (hanswers : ∀ m ∈ answers, ∀ t : F1Transport, t.receive m = (none, [], t)) (h : Link F reach t up d) :
    Link F reach t (up ++ answers.map fun m => ⟨some m, none⟩) d := by
  induction answers generalizing up with
  | nil =>
    rw [List.map_nil, List.append_nil]
    exact h
  | cons m answers ih =>
    obtain ⟨hm, hanswers⟩ := List.forall_mem_cons.mp hanswers
    rw [List.map_cons, List.append_cons]
    refine ih hanswers (h.push (.answer hm) ?_ fun peer msg huu => nomatch huu)
    simp [Uplink.opening]

section Steps

variable [DecidableEq P]

/-- An endpoint opens a connection. -/
theorem camp (h : Link F reach t up d) (hnext : d.nextDuUeId + 1 < 2 ^ 32) (cRnti : UInt16) (peer : P)
    {rrc : Bytes} (hnew : (UlMessage.srb SRB0 rrc).newUes F = 1) :
    Link F reach t (up ++ [⟨some (.c (.initialUlRrcMessageTransfer d.nextDuUeId cRnti rrc)),
      some (peer, .srb SRB0 rrc)⟩]) (d.camp peer) := by
  let x : Uplink P := ⟨some (.c (.initialUlRrcMessageTransfer d.nextDuUeId cRnti rrc)),
    some (peer, .srb SRB0 rrc)⟩
  change Link F reach t (up ++ [x]) (d.camp peer)
  have hopenings : openings (up ++ [x]) = openings up ++ [(d.nextDuUeId, peer)] := openings_append up [x]
  have hlater : (d.camp peer).nextDuUeId = d.nextDuUeId + 1 := Nat.mod_eq_of_lt hnext
  constructor
  · exact h.one
  · exact h.reached
  · intro cuUeId duUeId hid
    rw [hlater]
    exact ⟨(h.known cuUeId duUeId hid).1, Nat.lt_succ_of_lt (h.known cuUeId duUeId hid).2⟩
  · exact h.few
  · exact h.apart
  · intro u hu cuUeId hcu
    obtain ⟨hu, -⟩ | rfl := Du.mem_camp.mp hu
    · exact h.addressed u hu cuUeId hcu
    · cases hcu
  · intro cuUeId duUeId p hid hreach hfree
    rw [hopenings, List.forall_mem_append] at hfree
    have hne : peer ≠ p := hfree.2 _ (List.mem_singleton_self _)
    exact Du.mem_camp.mpr (.inl ⟨h.served cuUeId duUeId p hid hreach hfree.1, Ne.symm hne⟩)
  · intro u hu hcu
    rw [hopenings]
    obtain ⟨hu, -⟩ | rfl := Du.mem_camp.mp hu
    · exact List.mem_append_left _ (h.waiting u hu hcu)
    · exact List.mem_append_right _ (List.mem_singleton_self _)
  · intro o ho
    by_cases hpeer : o.2 = peer
    · exact ⟨_, Du.mem_camp.mpr (.inr rfl), hpeer.symm, rfl⟩
    · rw [hopenings] at ho
      obtain ho | ho := List.mem_append.mp ho
      · obtain ⟨u, hu, hsame, hcu⟩ := h.opening o ho
        exact ⟨u, Du.mem_camp.mpr (.inl ⟨hu, hsame ▸ hpeer⟩), hsame, hcu⟩
      · exact absurd (congrArg Prod.snd (List.mem_singleton.mp ho)) hpeer
  · intro o ho
    rw [hlater]
    rw [hopenings] at ho
    obtain ho | ho := List.mem_append.mp ho
    · exact ⟨Nat.lt_succ_of_lt (h.fresh o ho).1, (h.fresh o ho).2⟩
    · rw [List.mem_singleton.mp ho]
      exact ⟨Nat.lt_succ_self _, fun cuUeId duUeId hid => (h.known cuUeId duUeId hid).2⟩
  · rw [hopenings, List.pairwise_append]
    refine ⟨h.ordered, List.pairwise_singleton _ _, fun o ho o' ho' => ?_⟩
    rw [List.mem_singleton.mp ho']
    exact (h.fresh o ho).1
  · intro y hy
    obtain hy | hy := List.mem_append.mp hy
    · exact h.uplinks y hy
    · rw [List.mem_singleton.mp hy]
      exact .opens d.nextDuUeId cRnti peer hnew
  · rw [List.pairwise_append]
    refine ⟨h.order, List.pairwise_singleton _ _, fun y _ z hz _ _ _ _ => ?_⟩
    rw [List.mem_singleton.mp hz]
    rfl

omit [DecidableEq P] in
/-- The CU drops a UE, and so does the DU. -/
theorem release (h : Link F reach t up d) {cuUeId : Nat}
    (hids : ∀ cu, t'.duId cu = if cu = cuUeId then none else t.duId cu)
    (hnext : t'.nextCuUeId = t.nextCuUeId) :
    Link F reach t' up { d with ues := d.ues.filter fun u => u.cuUeId ≠ some cuUeId } := by
  have hkept : ∀ cu duUeId, t'.duId cu = some duUeId → cu ≠ cuUeId ∧ t.duId cu = some duUeId := by
    intro cu duUeId hid
    rw [hids] at hid
    split at hid
    next => cases hid
    next hne => exact ⟨hne, hid⟩
  constructor
  · exact h.one
  · rw [hnext]
    exact h.reached
  · intro cu duUeId hid
    rw [hnext]
    exact h.known cu duUeId (hkept cu duUeId hid).2
  · rw [hnext]
    exact h.few
  · intro cu cu' duUeId hid hid'
    exact h.apart cu cu' duUeId (hkept cu duUeId hid).2 (hkept cu' duUeId hid').2
  · intro u hu cu hcu
    obtain ⟨hu, hne⟩ := List.mem_filter.mp hu
    obtain ⟨hreach, hid⟩ := h.addressed u hu cu hcu
    have hother : cu ≠ cuUeId := by
      rintro rfl
      simp [hcu] at hne
    rw [hids, if_neg hother]
    exact ⟨hreach, hid⟩
  · intro cu duUeId peer hid hreach hfree
    obtain ⟨hne, hid⟩ := hkept cu duUeId hid
    exact List.mem_filter.mpr ⟨h.served cu duUeId peer hid hreach hfree, by simpa using hne⟩
  · exact fun u hu hcu => h.waiting u (List.mem_of_mem_filter hu) hcu
  · intro o ho
    obtain ⟨u, hu, hpeer, hcu⟩ := h.opening o ho
    exact ⟨u, List.mem_filter.mpr ⟨hu, by simp [hcu]⟩, hpeer, hcu⟩
  · exact fun o ho => ⟨(h.fresh o ho).1, fun cu duUeId hid => (h.fresh o ho).2 cu duUeId (hkept cu duUeId hid).2⟩
  · exact h.ordered
  · intro x hx
    cases h.uplinks x hx with
    | opens duUeId cRnti peer hnew => exact .opens duUeId cRnti peer hnew
    | relayed hreceive hreach hnew => exact .relayed hreceive hreach hnew
    | answer hreceive => exact .answer hreceive
    | dropped hgone hnew =>
      refine .dropped (fun cu hreach => ?_) hnew
      rw [hids, hgone cu hreach, ite_self]
  · exact h.order

omit [DecidableEq P] in
/-- The UE whose opening the CU takes, when its endpoint is opening no other connection. -/
theorem mem_of_opening (h : Link F reach t (x :: up) d) {duUeId : Nat} {peer : P}
    (hx : x.opening = some (duUeId, peer)) (hothers : ∀ o ∈ openings up, o.2 ≠ peer) :
    (⟨duUeId, none, peer⟩ : DuUe P) ∈ d.ues := by
  have hopenings := openings_cons_some hx up
  obtain ⟨⟨id, cu, p⟩, hu, rfl, rfl⟩ := h.opening (duUeId, peer) (hopenings ▸ List.mem_cons_self)
  have hwaiting := h.waiting _ hu rfl
  rw [hopenings] at hwaiting
  obtain hsame | hlater := List.mem_cons.mp hwaiting
  · rw [Prod.mk.injEq] at hsame
    rwa [← hsame.1]
  · exact absurd rfl (hothers _ hlater)

/-- The CU takes an opening and answers it, and its endpoint is opening no other connection. -/
theorem enter (h : Link F reach t (x :: up) d) (hd : d.Sound) {duUeId : Nat} {peer : P}
    (hx : x.opening = some (duUeId, peer)) (hothers : ∀ o ∈ openings up, o.2 ≠ peer)
    (hids : ∀ cu, t'.duId cu = if cu = t.nextCuUeId then some duUeId else t.duId cu)
    (hnext : t'.nextCuUeId = t.nextCuUeId + 1) (hfew : t.nextCuUeId < 2 ^ 24) :
    Link F (reassign reach t.nextCuUeId peer) t' up
      { d with ues := Du.learn t.nextCuUeId duUeId d.ues } := by
  have hopenings := openings_cons_some hx up
  have hhead : (duUeId, peer) ∈ openings (x :: up) := hopenings ▸ List.mem_cons_self
  have htail : ∀ o ∈ openings up, o ∈ openings (x :: up) := fun o ho =>
    hopenings ▸ List.mem_cons_of_mem _ ho
  have hown := h.mem_of_opening hx hothers
  have hmem : ∀ v, v ∈ Du.learn t.nextCuUeId duUeId d.ues ↔
      (v ∈ d.ues ∧ v.peer ≠ peer) ∨ v = ⟨duUeId, some t.nextCuUeId, peer⟩ := by
    intro v
    rw [Du.learn_eq_map hd.ids, List.mem_map]
    constructor
    · rintro ⟨u, hu, rfl⟩
      split
      next hid =>
        rw [hd.eq_of_id hu hown hid]
        exact .inr rfl
      next hid =>
        refine .inl ⟨hu, fun hpeer => hid ?_⟩
        rw [hd.eq_of_peer hu hown hpeer]
    · rintro (⟨hv, hne⟩ | rfl)
      · refine ⟨v, hv, if_neg fun hid => hne ?_⟩
        rw [hd.eq_of_id hv hown hid]
      · exact ⟨_, hown, if_pos rfl⟩
  have hother : ∀ cu p, p ≠ peer → reach cu = some p →
      reassign reach t.nextCuUeId peer cu = some p := by
    intro cu p hne hreach
    have hcu : cu ≠ t.nextCuUeId :=
      Nat.ne_of_lt (h.reached cu (Option.isSome_iff_exists.mpr ⟨p, hreach⟩))
    rw [reassign, if_neg hcu, hreach, if_neg fun hsame => hne (Option.some_inj.mp hsame)]
  have hback : ∀ cu p, reassign reach t.nextCuUeId peer cu = some p →
      (cu = t.nextCuUeId ∧ p = peer) ∨ (cu ≠ t.nextCuUeId ∧ p ≠ peer ∧ reach cu = some p) := by
    intro cu p hreach
    rw [reassign] at hreach
    split at hreach
    next hcu => exact .inl ⟨hcu, (Option.some_inj.mp hreach).symm⟩
    next hcu =>
      split at hreach
      next => cases hreach
      next hne =>
        refine .inr ⟨hcu, ?_, hreach⟩
        rintro rfl
        exact hne hreach
  have hback' : ∀ cu id, t'.duId cu = some id →
      (cu = t.nextCuUeId ∧ id = duUeId) ∨ (cu ≠ t.nextCuUeId ∧ id < duUeId ∧ t.duId cu = some id) := by
    intro cu id hid
    rw [hids] at hid
    split at hid
    next hcu => exact .inl ⟨hcu, (Option.some_inj.mp hid).symm⟩
    next hcu => exact .inr ⟨hcu, (h.fresh _ hhead).2 cu id hid, hid⟩
  constructor
  · intro cu cu' p hreach hreach'
    obtain ⟨rfl, rfl⟩ | ⟨hcu, hne, hreach⟩ := hback cu p hreach
    · obtain ⟨rfl, -⟩ | ⟨-, hne, -⟩ := hback cu' p hreach'
      · rfl
      · exact absurd rfl hne
    · obtain ⟨-, rfl⟩ | ⟨-, -, hreach'⟩ := hback cu' p hreach'
      · exact absurd rfl hne
      · exact h.one cu cu' p hreach hreach'
  · intro cu hreached
    obtain ⟨p, hreach⟩ := Option.isSome_iff_exists.mp hreached
    rw [hnext]
    obtain ⟨rfl, -⟩ | ⟨-, -, hreach⟩ := hback cu p hreach
    · exact Nat.lt_succ_self _
    · exact Nat.lt_succ_of_lt (h.reached cu (Option.isSome_iff_exists.mpr ⟨p, hreach⟩))
  · intro cu id hid
    rw [hnext]
    obtain ⟨rfl, rfl⟩ | ⟨-, -, hid⟩ := hback' cu id hid
    · exact ⟨Nat.lt_succ_self _, (h.fresh _ hhead).1⟩
    · exact ⟨Nat.lt_succ_of_lt (h.known cu id hid).1, (h.known cu id hid).2⟩
  · rw [hnext]
    exact hfew
  · intro cu cu' id hid hid'
    obtain ⟨rfl, rfl⟩ | ⟨hcu, hlt, hid⟩ := hback' cu id hid
    · obtain ⟨rfl, -⟩ | ⟨-, hlt, -⟩ := hback' cu' id hid'
      · rfl
      · exact absurd hlt (Nat.lt_irrefl _)
    · obtain ⟨-, rfl⟩ | ⟨-, -, hid'⟩ := hback' cu' id hid'
      · exact absurd hlt (Nat.lt_irrefl _)
      · exact h.apart cu cu' id hid hid'
  · intro v hv cu hcu
    obtain ⟨hv, hne⟩ | rfl := (hmem v).mp hv
    · obtain ⟨hreach, hid⟩ := h.addressed v hv cu hcu
      refine ⟨hother cu v.peer hne hreach, ?_⟩
      rw [hids, if_neg (Nat.ne_of_lt (h.known cu v.duUeId hid).1)]
      exact hid
    · obtain rfl := Option.some_inj.mp hcu
      exact ⟨if_pos rfl, by rw [hids, if_pos rfl]⟩
  · intro cu id p hid hreach hfree
    rw [hmem]
    obtain ⟨rfl, rfl⟩ | ⟨hcu, hne, hreach⟩ := hback cu p hreach
    · rw [hids, if_pos rfl, Option.some_inj] at hid
      exact .inr (by rw [hid])
    · rw [hids, if_neg hcu] at hid
      refine .inl ⟨h.served cu id p hid hreach ?_, hne⟩
      rw [hopenings, List.forall_mem_cons]
      exact ⟨Ne.symm hne, hfree⟩
  · intro v hv hcu
    obtain ⟨hv, hne⟩ | rfl := (hmem v).mp hv
    · have hwaiting := h.waiting v hv hcu
      rw [hopenings] at hwaiting
      obtain hsame | hlater := List.mem_cons.mp hwaiting
      · exact absurd (congrArg Prod.snd hsame) hne
      · exact hlater
    · cases hcu
  · intro o ho
    obtain ⟨u, hu, hpeer, hcu⟩ := h.opening o (htail o ho)
    exact ⟨u, (hmem u).mpr (.inl ⟨hu, hpeer ▸ hothers o ho⟩), hpeer, hcu⟩
  · intro o ho
    have hordered := h.ordered
    rw [hopenings, List.pairwise_cons] at hordered
    refine ⟨(h.fresh o (htail o ho)).1, fun cu id hid => ?_⟩
    obtain ⟨-, rfl⟩ | ⟨-, -, hid⟩ := hback' cu id hid
    · exact hordered.1 o ho
    · exact (h.fresh o (htail o ho)).2 cu id hid
  · have hordered := h.ordered
    rw [hopenings, List.pairwise_cons] at hordered
    exact hordered.2
  · intro y hy
    -- what comes behind the opening and is none is of another endpoint
    have hbehind : ∀ p msg, y.opening = none → y.uu = some (p, msg) → p ≠ peer := by
      rintro p msg hnone hmsg rfl
      have hsome := (List.pairwise_cons.mp h.order).1 y hy _ hx msg hmsg
      rw [hnone] at hsome
      cases hsome
    cases h.uplinks y (List.mem_cons_of_mem x hy) with
    | opens duUeId cRnti peer hnew => exact .opens duUeId cRnti peer hnew
    | answer hreceive => exact .answer hreceive
    | relayed hreceive hreach hnew =>
      exact .relayed hreceive (hother _ _ (hbehind _ _ (opening_relayed hreceive _) rfl) hreach) hnew
    | dropped hgone hnew =>
      refine .dropped (fun cu hreach => ?_) hnew
      obtain ⟨rfl, rfl⟩ | ⟨hcu, -, hreach⟩ := hback cu _ hreach
      · exact absurd rfl (hbehind _ _ rfl rfl)
      · rw [hids, if_neg hcu, hgone cu hreach]
  · exact (List.pairwise_cons.mp h.order).2

end Steps

end Link

/-! ### The way down -/

namespace F1Transport

variable {t : F1Transport}

theorem sendAll_append (t : F1Transport) (msgs msgs' : List (Nat × DlMessage)) :
    t.sendAll (msgs ++ msgs') = ((t.sendAll msgs).1 ++ ((t.sendAll msgs).2.sendAll msgs').1,
      ((t.sendAll msgs).2.sendAll msgs').2) := by
  induction msgs generalizing t with
  | nil => rfl
  | cons m msgs ih => simp [sendAll, ih]

theorem sendAll_singleton (t : F1Transport) (cuUeId : Nat) (msg : DlMessage) :
    t.sendAll [(cuUeId, msg)] = t.send cuUeId msg := by
  simp [sendAll]

theorem lookup_of_duId {cuUeId duUeId : Nat} (h : t.duId cuUeId = some duUeId) :
    ∃ f, t.ues.lookup cuUeId = some f ∧ f.duUeId = duUeId := Option.map_eq_some_iff.mp h

theorem nextCuUeId_send (t : F1Transport) (cuUeId : Nat) (msg : DlMessage) :
    (t.send cuUeId msg).2.nextCuUeId = t.nextCuUeId := by
  cases msg with
  | paging tmsi => rfl
  | _ =>
    rw [send]
    split <;> rfl

/-- The UEs are known by the same identities. -/
theorem duId_send {msg : DlMessage} (hmsg : msg ≠ .released) (t : F1Transport) (cuUeId : Nat) :
    (t.send cuUeId msg).2.duId = t.duId := by
  cases msg with
  | paging tmsi => rfl
  | srb srbId payload =>
    rw [send]
    split
    · rfl
    · rfl
  | data psi packet =>
    rw [send]
    split
    · rfl
    · next f hf =>
      funext cu
      simp only [duId, Keyed.Map.lookup_insert_eq]
      split
      next hcu => rw [hcu, hf]; rfl
      next => rfl
  | released => exact absurd rfl hmsg

theorem duId_release (t : F1Transport) (cuUeId cu : Nat) :
    (t.send cuUeId .released).2.duId cu = if cu = cuUeId then none else t.duId cu := by
  rw [send]
  split
  next hnone =>
    split
    next hcu => rw [hcu, duId, hnone]; rfl
    next => rfl
  next =>
    simp only [duId, Keyed.Map.lookup_erase_eq]
    split
    · rfl
    · rfl

theorem below_send {n : Nat} (h : ∀ cuUeId duUeId, t.duId cuUeId = some duUeId → duUeId < n)
    (cuUeId : Nat) (msg : DlMessage) : ∀ m ∈ (t.send cuUeId msg).1, m.Below n := by
  intro m hm
  cases msg with
  | paging tmsi =>
    rw [List.mem_singleton.mp hm]
    trivial
  | srb srbId payload =>
    rw [send] at hm
    split at hm
    next => cases hm
    next f hf =>
      rw [List.mem_singleton.mp hm]
      exact h cuUeId f.duUeId (by rw [duId, hf]; rfl)
  | data psi packet =>
    rw [send] at hm
    split at hm
    next => cases hm
    next f hf =>
      dsimp only at hm
      obtain hm | hm := List.mem_append.mp hm
      · split at hm
        · cases hm
        · rw [List.mem_singleton.mp hm]
          trivial
      · rw [List.mem_singleton.mp hm]
        trivial
  | released =>
    rw [send] at hm
    split at hm
    next => cases hm
    next =>
      rw [List.mem_singleton.mp hm]
      trivial

theorem below_sendAll {n : Nat} (msgs : List (Nat × DlMessage)) {t : F1Transport}
    (h : ∀ cuUeId duUeId, t.duId cuUeId = some duUeId → duUeId < n) :
    ∀ m ∈ (t.sendAll msgs).1, m.Below n := by
  induction msgs generalizing t with
  | nil => exact fun m hm => nomatch hm
  | cons msg msgs ih =>
    obtain ⟨cuUeId, msg⟩ := msg
    rw [sendAll, List.forall_mem_append]
    refine ⟨below_send h cuUeId msg, ih fun cu id hid => h cu id ?_⟩
    by_cases hmsg : msg = .released
    · rw [hmsg, duId_release] at hid
      split at hid
      next => cases hid
      next => exact hid
    · rwa [duId_send hmsg] at hid

end F1Transport

/-- What holds of a table of the DU that becomes `d` once the DU has read everything. -/
structure Tied [DecidableEq P] (reach : Nat → Option P) (d e : Du P) : Prop where
  leads : e.Leads d
  addressed : ∀ u ∈ e.ues, ∀ cuUeId, u.cuUeId = some cuUeId → reach cuUeId = some u.peer

/-- Once the DU has read what was sent, the endpoints have got their messages and its table is one that
belongs to the CU's. -/
structure Settles [DecidableEq P] (F : Functions) (reach : Nat → Option P) (t : F1Transport)
    (up : List (Uplink P)) (d : Du P) (sent : List F1Message) (heard : List (P × DlMessage)) (d' : Du P) :
    Prop where
  drain : Inbox.drain Du.hear d sent = (heard, d')
  tied : Throughout Du.hear (Tied reach d') d sent
  link : Link F reach t up d'

theorem reaching_singleton (reach : Nat → Option P) (cuUeId : Nat) (msg : DlMessage) :
    reaching reach [(cuUeId, msg)] = (reach cuUeId).toList.map fun peer => (peer, msg) := by
  cases hreach : reach cuUeId with
  | none => rw [reaching_cons_none hreach, reaching_nil]; rfl
  | some peer => rw [reaching_cons_some hreach, reaching_nil]; rfl

namespace Link

section Sends

variable [DecidableEq P] {F : Functions} {reach : Nat → Option P} {t t' : F1Transport}
  {up : List (Uplink P)} {d : Du P} {cuUeId : Nat}

theorem tied (h : Link F reach t up d) (hd : d.Sound) : Tied reach d d where
  leads := .refl hd
  addressed u hu cuUeId hcu := (h.addressed u hu cuUeId hcu).1

omit [DecidableEq P] in
theorem peerByCuId (h : Link F reach t up d) (hknown : (t.duId cuUeId).isSome)
    (hfree : ∀ peer, reach cuUeId = some peer → ∀ o ∈ openings up, o.2 ≠ peer) :
    d.peerByCuId cuUeId = reach cuUeId := by
  obtain ⟨duUeId, hid⟩ := Option.isSome_iff_exists.mp hknown
  cases hreach : reach cuUeId with
  | none =>
    refine Du.peerByCuId_none fun u hu hcu => ?_
    rw [(h.addressed u hu cuUeId hcu).1] at hreach
    cases hreach
  | some peer =>
    have hserved := h.served cuUeId duUeId peer hid hreach (hfree peer hreach)
    refine Du.peerByCuId_of_mem hserved rfl fun v hv hcu => ?_
    rw [(h.addressed v hv cuUeId hcu).1] at hreach
    exact Option.some_inj.mp hreach

/-- An SRB message for a UE that the CU knows. -/
theorem hear_srb (h : Link F reach t up d) (hd : d.Sound) {duUeId : Nat} (hid : t.duId cuUeId = some duUeId)
    (hfree : ∀ peer, reach cuUeId = some peer → ∀ o ∈ openings up, o.2 ≠ peer) (srbId : UInt8)
    (rrc : Bytes) : d.hear (.c (.dlRrcMessageTransfer cuUeId duUeId srbId rrc)) =
      (reaching reach [(cuUeId, .srb srbId rrc)], d) := by
  cases hreach : reach cuUeId with
  | some peer =>
    have hserved := h.served cuUeId duUeId peer hid hreach (hfree peer hreach)
    rw [reaching_cons_some hreach, reaching_nil]
    exact Du.hear_srb hd hserved rfl srbId rrc
  | none =>
    rw [reaching_cons_none hreach, reaching_nil]
    refine Du.hear_srb_unserved (fun u hu hsame => ?_) cuUeId srbId rrc
    cases hcu : u.cuUeId with
    | none =>
      -- it would be on its way up, with an identity that the CU does not know yet
      have hfresh := (h.fresh _ (h.waiting u hu hcu)).2 cuUeId duUeId hid
      exact absurd (hsame ▸ hfresh) (Nat.lt_irrefl _)
    | some cu =>
      obtain ⟨hother, hid'⟩ := h.addressed u hu cu hcu
      rw [hsame] at hid'
      rw [h.apart cu cuUeId duUeId hid' hid, hreach] at hother
      cases hother

/-- A message of the core for a UE that the CU knows. -/
theorem hear_send (h : Link F reach t up d) (hd : d.Sound) (hknown : (t.duId cuUeId).isSome)
    (hfree : ∀ peer, reach cuUeId = some peer → ∀ o ∈ openings up, o.2 ≠ peer) {limit : Nat}
    (hlimit : limit + 20 ≤ F1U_BUFFER) {msg : DlMessage} (hmsg : msg.Ordinary limit) :
    (∀ m ∈ (t.send cuUeId msg).1, (d.hear m).2 = d) ∧
      ((t.send cuUeId msg).1.flatMap fun m => (d.hear m).1) = reaching reach [(cuUeId, msg)] := by
  obtain ⟨duUeId, hid⟩ := Option.isSome_iff_exists.mp hknown
  obtain ⟨f, hf, rfl⟩ := F1Transport.lookup_of_duId hid
  cases msg with
  | paging tmsi => cases hmsg
  | released => cases hmsg
  | srb srbId rrc =>
    have hheard := h.hear_srb hd hid hfree srbId rrc
    simp only [F1Transport.send, hf, List.forall_mem_singleton, List.flatMap_singleton, hheard, and_self]
  | data psi packet =>
    have hcu : cuUeId < 2 ^ 24 := Nat.lt_of_lt_of_le (h.known cuUeId _ hid).1 h.few
    have hheard := d.hear_data hcu psi ((f.dlSn.lookup psi).getD 0)
      (le_trans (Nat.add_le_add_right hmsg 20) hlimit)
    rw [h.peerByCuId hknown hfree, ← reaching_singleton] at hheard
    simp only [F1Transport.send, hf]
    split
    · simp only [List.nil_append, List.forall_mem_singleton, List.flatMap_singleton, hheard, and_self]
    · simp only [List.forall_mem_append, List.forall_mem_singleton, List.flatMap_append,
        List.flatMap_singleton, hheard, Du.hear_setUp, List.nil_append, and_self]

/-- Messages of the core for a UE that the CU knows. -/
theorem hear_sendAll {limit : Nat} (hlimit : limit + 20 ≤ F1U_BUFFER) {msgs : List DlMessage}
    (hmsgs : ∀ msg ∈ msgs, msg.Ordinary limit) (h : Link F reach t up d) (hd : d.Sound)
    (hknown : (t.duId cuUeId).isSome)
    (hfree : ∀ peer, reach cuUeId = some peer → ∀ o ∈ openings up, o.2 ≠ peer) :
    (∀ m ∈ (t.sendAll (msgs.map fun msg => (cuUeId, msg))).1, (d.hear m).2 = d) ∧
      ((t.sendAll (msgs.map fun msg => (cuUeId, msg))).1.flatMap fun m => (d.hear m).1) =
        reaching reach (msgs.map fun msg => (cuUeId, msg)) ∧
      (t.sendAll (msgs.map fun msg => (cuUeId, msg))).2.duId = t.duId ∧
      (t.sendAll (msgs.map fun msg => (cuUeId, msg))).2.nextCuUeId = t.nextCuUeId := by
  induction msgs generalizing t with
  | nil => exact ⟨List.forall_mem_nil _, rfl, rfl, rfl⟩
  | cons msg msgs ih =>
    obtain ⟨hmsg, hmsgs⟩ := List.forall_mem_cons.mp hmsgs
    have hne : msg ≠ .released := by
      rintro rfl
      exact hmsg
    have hids := F1Transport.duId_send hne t cuUeId
    have hnext := F1Transport.nextCuUeId_send t cuUeId msg
    obtain ⟨hsame, hheard⟩ := h.hear_send hd hknown hfree hlimit hmsg
    obtain ⟨hsames, hheards, hidss, hnexts⟩ := ih hmsgs (h.congr hids hnext) (hids ▸ hknown)
    rw [List.map_cons, F1Transport.sendAll]
    refine ⟨List.forall_mem_append.mpr ⟨hsame, hsames⟩, ?_, hidss.trans hids, hnexts.trans hnext⟩
    rw [List.flatMap_append, hheard, hheards, ← reaching_append]
    rfl

/-- What an event sends down, a page or an opening apart, reaches the endpoint of its addressee. -/
theorem sends (h : Link F reach t up d) (hd : d.Sound) {core core' : GnbState Nat}
    (hknown : ∀ cu, (core.byPeer.lookup cu).isSome = (t.duId cu).isSome) {target : Option Nat}
    (hfree : ∀ cu, target = some cu → ∀ peer, reach cu = some peer → ∀ o ∈ openings up, o.2 ≠ peer)
    {limit : Nat} (hlimit : limit + 20 ≤ F1U_BUFFER) {msgs : List (Nat × DlMessage)}
    (hsends : Sends core limit target msgs core') :
    ∃ d', Settles F reach (t.sendAll msgs).2 up d (t.sendAll msgs).1 (reaching reach msgs) d' ∧
      (∀ cu, (core'.byPeer.lookup cu).isSome = ((t.sendAll msgs).2.duId cu).isSome) ∧
      (t.sendAll msgs).2.nextCuUeId = t.nextCuUeId := by
  cases hsends with
  | nothing hby =>
    refine ⟨d, ⟨rfl, h.tied hd, h⟩, fun cu => ?_, rfl⟩
    rw [hby]
    exact hknown cu
  | @messages cuUeId hto hcu msgs hmsgs _ hby =>
    obtain ⟨hsame, hheard, hids, hnext⟩ :=
      h.hear_sendAll hlimit hmsgs hd (hknown cuUeId ▸ hcu) (hfree cuUeId hto)
    refine ⟨d, ⟨?_, Throughout.of_same hsame (h.tied hd), h.congr hids hnext⟩, fun cu => ?_, hnext⟩
    · rw [Inbox.drain_of_same hsame, hheard]
    · rw [hby, hids]
      exact hknown cu
  | @release cuUeId hto hcu msgs hmsgs _ hby =>
    obtain ⟨hsame, hheard, hids, hnext⟩ :=
      h.hear_sendAll hlimit hmsgs hd (hknown cuUeId ▸ hcu) (hfree cuUeId hto)
    let between := (t.sendAll (msgs.map fun msg => (cuUeId, msg))).2
    have hlink : Link F reach between up d := h.congr hids hnext
    obtain ⟨duUeId, hid⟩ := Option.isSome_iff_exists.mp (hknown cuUeId ▸ hcu)
    have hid' : between.duId cuUeId = some duUeId := by
      rw [hids]
      exact hid
    obtain ⟨f, hf, -⟩ := F1Transport.lookup_of_duId hid'
    have hids' : ∀ cu, (between.send cuUeId .released).2.duId cu =
        if cu = cuUeId then none else t.duId cu := fun cu => by rw [F1Transport.duId_release, hids]
    have hnext' : (between.send cuUeId .released).2.nextCuUeId = t.nextCuUeId :=
      (F1Transport.nextCuUeId_send between cuUeId .released).trans hnext
    have hlink' := h.release hids' hnext'
    let d' : Du P := { d with ues := d.ues.filter fun u => u.cuUeId ≠ some cuUeId }
    have hleads : d.Leads d' := .of_reads hd
      (.released cuUeId f.duUeId CAUSE_NORMAL_RELEASE none)
    have hd' : d'.Sound := Du.Reads.sound (.released cuUeId f.duUeId CAUSE_NORMAL_RELEASE none) hd
    have hsent : (between.send cuUeId .released).1 =
        [.c (.ueContextReleaseCommand cuUeId f.duUeId CAUSE_NORMAL_RELEASE none)] := by
      simp only [F1Transport.send, hf]
    have hpeer := h.peerByCuId (hknown cuUeId ▸ hcu) (hfree cuUeId hto)
    have htied : Tied reach d' d := ⟨hleads, (h.tied hd).addressed⟩
    rw [F1Transport.sendAll_append, F1Transport.sendAll_singleton]
    refine ⟨d', ⟨?_, ?_, hlink'⟩, fun cu => ?_, hnext'⟩
    · rw [Inbox.drain_append, Inbox.drain_of_same hsame, hheard, hsent, Inbox.drain_cons,
        Du.hear_release, hpeer, Inbox.drain_nil, List.append_nil, reaching_append, reaching_singleton]
    · refine Throughout.append (Throughout.of_same hsame htied) ?_
      rw [Inbox.drain_of_same hsame, hsent]
      refine ⟨htied, ?_⟩
      rw [Du.hear_release]
      exact hlink'.tied hd'
    · rw [hby, Keyed.Map.lookup_erase_eq, hids']
      split
      · rfl
      · exact hknown cu

end Sends

end Link

namespace Tied

variable [DecidableEq P] {reach : Nat → Option P} {d d' e : Du P}

theorem trans (h : Tied reach d e) (hleads : d.Leads d') : Tied reach d' e where
  leads := h.leads.trans hleads
  addressed := h.addressed

theorem camp (h : Tied reach d e) (hnext : e.nextDuUeId + 1 < 2 ^ 32) (peer : P) :
    Tied reach (d.camp peer) (e.camp peer) where
  leads := h.leads.camp hnext peer
  addressed u hu cuUeId hcu := by
    obtain ⟨hu, -⟩ | rfl := Du.mem_camp.mp hu
    · exact h.addressed u hu cuUeId hcu
    · cases hcu

/-- An endpoint that is opening a connection is reached by the new identity from then on. -/
theorem enter (h : Tied reach d e) {cuUeId duUeId : Nat} {peer : P}
    (hown : (⟨duUeId, none, peer⟩ : DuUe P) ∈ d.ues) (hfresh : reach cuUeId = none)
    (hleads : d.Leads d') : Tied (reassign reach cuUeId peer) d' e where
  leads := h.leads.trans hleads
  addressed u hu cu hcu := by
    have hreach := h.addressed u hu cu hcu
    have hne : u.peer ≠ peer := by
      intro hpeer
      have hsame := h.leads.sound.eq_of_peer hu (h.leads.unlearned _ hown rfl) hpeer
      rw [hsame] at hcu
      cases hcu
    have hcu' : cu ≠ cuUeId := by
      rintro rfl
      rw [hfresh] at hreach
      cases hreach
    rw [reassign, if_neg hcu', hreach, if_neg fun hsame => hne (Option.some_inj.mp hsame)]

end Tied

/-- The CU takes an opening and answers it. -/
theorem Link.opens [DecidableEq P] {F : Functions} {reach : Nat → Option P} {t : F1Transport}
    {up : List (Uplink P)} {x : Uplink P} {d : Du P} (h : Link F reach t (x :: up) d) (hd : d.Sound)
    {duUeId : Nat} {peer : P} (hx : x.opening = some (duUeId, peer))
    (hothers : ∀ o ∈ openings up, o.2 ≠ peer) (hfew : t.nextCuUeId < 2 ^ 24) (rrc : Bytes) :
    ∃ d', Settles F (reassign reach t.nextCuUeId peer)
        { ues := t.ues.insert t.nextCuUeId { duUeId }, nextCuUeId := (t.nextCuUeId + 1) % 2 ^ 32 } up d
        [.c (.dlRrcMessageTransfer t.nextCuUeId duUeId SRB0 rrc)] [(peer, .srb SRB0 rrc)] d' ∧
      ∀ e, Tied reach d e → Tied (reassign reach t.nextCuUeId peer) d' e := by
  have hown := h.mem_of_opening hx hothers
  have hreads : Du.Reads d (.c (.dlRrcMessageTransfer t.nextCuUeId duUeId SRB0 rrc))
      { d with ues := Du.learn t.nextCuUeId duUeId d.ues } := .learned ..
  have hleads : d.Leads { d with ues := Du.learn t.nextCuUeId duUeId d.ues } := .of_reads hd hreads
  have hfresh : reach t.nextCuUeId = none := by
    by_contra hreached
    exact Nat.lt_irrefl _ (h.reached _ (Option.isSome_iff_ne_none.mpr hreached))
  have hheard := Du.hear_first hd hown t.nextCuUeId SRB0 rrc
  have hlink : Link F (reassign reach t.nextCuUeId peer)
      { ues := t.ues.insert t.nextCuUeId { duUeId }, nextCuUeId := (t.nextCuUeId + 1) % 2 ^ 32 } up
      { d with ues := Du.learn t.nextCuUeId duUeId d.ues } := by
    refine h.enter hd hx hothers (fun cu => ?_) ?_ hfew
    · simp only [F1Transport.duId, Keyed.Map.lookup_insert_eq]
      split
      · rfl
      · rfl
    · exact Nat.mod_eq_of_lt (by omega)
  have htied : ∀ e, Tied reach d e → Tied (reassign reach t.nextCuUeId peer)
      { d with ues := Du.learn t.nextCuUeId duUeId d.ues } e := fun e he => he.enter hown hfresh hleads
  refine ⟨_, ⟨?_, ⟨htied d (h.tied hd), ?_⟩, hlink⟩, htied⟩
  · rw [Inbox.drain_cons, hheard, Inbox.drain_nil, List.append_nil]
  · rw [hheard]
    exact hlink.tied (hreads.sound hd)

/-- The CU pages, by each of its UEs' identities. -/
theorem Link.pages [DecidableEq P] {F : Functions} {reach : Nat → Option P} {t : F1Transport}
    {up : List (Uplink P)} {d : Du P} (h : Link F reach t up d) (hd : d.Sound) (camped : List Nat)
    {tmsi : Nat} (htmsi : tmsi < 2 ^ 32) :
    Settles F reach t up d (t.sendAll (camped.map fun cuUeId => (cuUeId, .paging tmsi))).1
        (camped.flatMap fun _ => d.camped.map fun peer => (peer, .paging tmsi)) d ∧
      (t.sendAll (camped.map fun cuUeId => (cuUeId, .paging tmsi))).2 = t := by
  have hsent : t.sendAll (camped.map fun cuUeId => (cuUeId, .paging tmsi)) =
      (camped.map fun _ => .c (.paging tmsi), t) := by
    induction camped with
    | nil => rfl
    | cons cuUeId camped ih =>
      simp only [List.map_cons, F1Transport.sendAll, F1Transport.send, ih, List.singleton_append]
  have hsame : ∀ m ∈ camped.map (fun _ => F1Message.c (.paging tmsi)), (d.hear m).2 = d := by
    intro m hm
    obtain ⟨cuUeId, -, rfl⟩ := List.mem_map.mp hm
    rw [d.hear_page htmsi]
  rw [hsent]
  refine ⟨⟨?_, Throughout.of_same hsame (h.tied hd), h⟩, rfl⟩
  rw [Inbox.drain_of_same hsame, List.flatMap_map, d.hear_page htmsi]

end Radian.Ran
