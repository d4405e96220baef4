import Radian.Mobility.Custody
import Radian.Proc.Amid

/-!
# NG Reset

A gNB that has restarted, or has lost some of its UEs, has the AMF release their contexts: all that its
association holds, or those that the items of a list name.  In an item either id may be absent.

- `ResetScope`, `parseNgReset` — what an NG Reset asks for.
- `onNgReset` — the handler.
- `ResetScope.Covers`, `ResetScope.AcknowledgedBy` — which contexts are named, and which acknowledgements
  say so.
- `Exact` — what is named is released, nothing else is, and the answer names it.
- `Released` — what has been released so far.
- `exact_iff` — a reset of all is exact, one of a part if its items go by the AMF's ids.
-/

namespace Radian.Mobility

open Keyed (Map)
open Amf (AmfUeId RanUeId UeContext Association)
open Proc (Amid during during_mono)

/-! ### Messages -/

/-- An item of a list of UE-associated connections. -/
abbrev ConnectionItem : Type := Option AmfUeId × Option RanUeId

inductive ResetScope where
  | all
  | part (items : List ConnectionItem)
  deriving DecidableEq, Repr

/-- An IE of an NG Reset. -/
inductive NgResetIe where
  | cause (cause : RadioCause)
  | resetTypeNgInterface
  | resetTypePartOfNgInterface (items : List ConnectionItem)
  deriving DecidableEq, Repr

inductive NgapPdu where
  | ngReset (ies : List NgResetIe)
  | other
  deriving DecidableEq, Repr

def NgResetIe.scope : NgResetIe → Option ResetScope
  | .cause _ => none
  | .resetTypeNgInterface => some .all
  | .resetTypePartOfNgInterface items => some (.part items)

def parseNgReset : NgapPdu → Option ResetScope
  | .ngReset ies => ies.findSome? NgResetIe.scope
  | .other => none

/-- An acknowledgement.  The list is not empty where it is there. -/
structure NgResetAcknowledge where
  connectionList : Option (List ConnectionItem)
  deriving DecidableEq, Repr

def ueAssociationList (ues : List (AmfUeId × RanUeId)) : List ConnectionItem :=
  ues.map fun u => (some u.1, some u.2)

def ngResetAcknowledge (released : List (AmfUeId × RanUeId)) : NgResetAcknowledge :=
  if released.isEmpty then { connectionList := none }
  else { connectionList := some (ueAssociationList released) }

/-! ### The handler -/

/-- The context an item leads to, by the AMF's id. -/
def resetTarget (ues : Map AmfUeId UeContext) (item : ConnectionItem) : Option (AmfUeId × RanUeId) := do
  let amfUeId ← item.1
  let c ← ues.lookup amfUeId
  return (amfUeId, item.2.getD c.ranUeId)

def resetTargets (ues : Map AmfUeId UeContext) : ResetScope → List (AmfUeId × RanUeId)
  | .all => ues.entries.map fun e => (e.1, e.2.ranUeId)
  | .part items => items.filterMap (resetTarget ues)

def onNgReset (pdu : NgapPdu) : MobilityM (Option NgResetAcknowledge) := do
  match parseNgReset pdu with
  | none => return none
  | some scope =>
      let targets ← Proc.look fun l _ => resetTargets l.ues scope
      Proc.forEach (fun (target : AmfUeId × RanUeId) => releaseUeContext target.1) targets
      return some (ngResetAcknowledge (if scope = .all then [] else targets))

/-! ### What a reset asks for -/

/-- An item carries some id, and no id that is not the context's. -/
def Matches (item : ConnectionItem) (amfUeId : AmfUeId) (c : UeContext) : Prop :=
  (item.1.isSome ∨ item.2.isSome) ∧ (∀ id, item.1 = some id → id = amfUeId) ∧
    ∀ r, item.2 = some r → r = c.ranUeId

def ResetScope.Covers (amfUeId : AmfUeId) (c : UeContext) : ResetScope → Prop
  | .all => True
  | .part items => ∃ item ∈ items, Matches item amfUeId c

/-- An entry has the ids that an item carries. -/
def Names (entry item : ConnectionItem) : Prop :=
  (∀ id, item.1 = some id → entry.1 = some id) ∧ ∀ r, item.2 = some r → entry.2 = some r

/-- Without a list it is all that is acknowledged. -/
def ResetScope.AcknowledgedBy (ack : NgResetAcknowledge) : ResetScope → Prop
  | .all => ack.connectionList = none
  | .part items =>
      ∃ entries, ack.connectionList = some entries ∧ ∀ item ∈ items, ∃ entry ∈ entries, Names entry item

/-- How the release of a context is noted: it goes to the retained ones if it has a 5G-TMSI. -/
def releaseMark (amfUeId : AmfUeId) (c : UeContext) : Mark :=
  match c.gutiTmsi with
  | some tmsi => .idling amfUeId tmsi
  | none => .leaving amfUeId

/-- The history `w'` of a reset is the release of each context it names, once; the association holds
what it held, but for these; and the answer acknowledges them. -/
structure Exact (scope : ResetScope) (l l' : Association) (w' : List Mark)
    (ack : Option NgResetAcknowledge) : Prop where
  released : ∀ n, n ∈ w' ↔
    ∃ id c, l.ues.lookup id = some c ∧ scope.Covers id c ∧ n = releaseMark id c
  once : w'.Nodup
  kept : ∀ id c, l'.ues.lookup id = some c ↔ l.ues.lookup id = some c ∧ ¬ scope.Covers id c
  acknowledged : ∃ a, ack = some a ∧ scope.AcknowledgedBy a

/-- The items go by the AMF's ids: there is such an id, and the association knows each; a context found
by it matches some item; and an item with nothing but a RAN id says nothing new, for the contexts of
this RAN id are found by the other items, and it is that of one of them. -/
structure ByAmfId (ues : Map AmfUeId UeContext) (items : List ConnectionItem) : Prop where
  named : ∃ item ∈ items, item.1.isSome
  known : ∀ item ∈ items, ∀ id, item.1 = some id → (ues.lookup id).isSome
  matched : ∀ id c, ues.lookup id = some c → (∃ item ∈ items, item.1 = some id) →
    ∃ item ∈ items, Matches item id c
  found : ∀ id c, ues.lookup id = some c → (none, some c.ranUeId) ∈ items →
    ∃ item ∈ items, item.1 = some id
  same : ∀ r, (none, some r) ∈ items → ∃ item ∈ items, ∃ id c,
    item.1 = some id ∧ ues.lookup id = some c ∧ item.2.getD c.ranUeId = r

/-- Which resets are exact. -/
def ResetScope.Sound (ues : Map AmfUeId UeContext) : ResetScope → Prop
  | .all => True
  | .part items => ByAmfId ues items

/-! ### Releases -/

section Run

variable {drift : Shared → Shared → Prop}

/-- What has become of an association and of the history, when the contexts with some ids have been
released. -/
structure Released (l : Association) (ids : List AmfUeId) (l' : Association) (w' : List Mark) : Prop where
  kept : ∀ id, l'.ues.lookup id = if id ∈ ids then none else l.ues.lookup id
  noted : ∀ n, n ∈ w' ↔ ∃ id c, id ∈ ids ∧ l.ues.lookup id = some c ∧ n = releaseMark id c
  once : w'.Nodup

theorem Released.nil (l : Association) : Released l [] l [] where
  kept _ := rfl
  noted n := by simp
  once := List.nodup_nil

theorem releaseMark_inj {id id' : AmfUeId} {c c' : UeContext}
    (h : releaseMark id c = releaseMark id' c') : id = id' := by
  unfold releaseMark at h
  cases hc : c.gutiTmsi <;> cases hc' : c'.gutiTmsi <;> simp only [hc, hc'] at h <;> cases h <;> rfl

/-- A second time there is nothing to release. -/
theorem Released.again {l l' : Association} {ids : List AmfUeId} {w' : List Mark} {id : AmfUeId}
    (h : Released l ids l' w') (hid : l'.ues.lookup id = none) : Released l (ids ++ [id]) l' w' := by
  have hold : ∀ c, l.ues.lookup id = some c → id ∈ ids := by
    intro c hc
    by_contra hnew
    rw [h.kept, if_neg hnew, hc] at hid
    cases hid
  constructor
  · intro id'
    by_cases hsame : id' = id
    · subst hsame
      rw [hid, if_pos (List.mem_append_right _ (List.mem_singleton_self _))]
    · rw [h.kept]
      simp only [List.mem_append, List.mem_singleton, hsame, or_false]
  · intro n
    rw [h.noted]
    constructor
    · rintro ⟨id', c, hmem, hc, hn⟩
      exact ⟨id', c, List.mem_append_left _ hmem, hc, hn⟩
    · rintro ⟨id', c, hmem, hc, hn⟩
      rcases List.mem_append.mp hmem with hmem | hmem
      · exact ⟨id', c, hmem, hc, hn⟩
      · obtain rfl := List.mem_singleton.mp hmem
        exact ⟨id', c, hold c hc, hc, hn⟩
  · exact h.once

/-- A context that is there is released. -/
theorem Released.next {l l' : Association} {ids : List AmfUeId} {w' : List Mark} {id : AmfUeId}
    {c : UeContext} (h : Released l ids l' w') (hid : l'.ues.lookup id = some c) :
    Released l (ids ++ [id]) (l'.erase id) (releaseMark id c :: w') := by
  have hnew : id ∉ ids := by
    intro hmem
    rw [h.kept, if_pos hmem] at hid
    cases hid
  have hc : l.ues.lookup id = some c := by rwa [h.kept, if_neg hnew] at hid
  constructor
  · intro id'
    rw [Association.erase, Keyed.Map.lookup_erase_eq, h.kept]
    by_cases hsame : id' = id
    · rw [if_pos hsame, if_pos (List.mem_append_right _ (List.mem_singleton.mpr hsame))]
    · simp only [List.mem_append, List.mem_singleton, hsame, or_false, if_false]
  · intro n
    rw [List.mem_cons, h.noted]
    constructor
    · rintro (rfl | ⟨id', c', hmem, hc', hn⟩)
      · exact ⟨id, c, List.mem_append_right _ (List.mem_singleton_self _), hc, rfl⟩
      · exact ⟨id', c', List.mem_append_left _ hmem, hc', hn⟩
    · rintro ⟨id', c', hmem, hc', rfl⟩
      rcases List.mem_append.mp hmem with hmem | hmem
      · exact .inr ⟨id', c', hmem, hc', rfl⟩
      · obtain rfl := List.mem_singleton.mp hmem
        rw [hc] at hc'
        cases hc'
        exact .inl rfl
  · refine List.nodup_cons.mpr ⟨fun hmem => ?_, h.once⟩
    obtain ⟨id', c', hmem, -, hmark⟩ := (h.noted _).mp hmem
    obtain rfl := releaseMark_inj hmark
    exact hnew hmem

/-- The SMFs are asked with the contexts left as they are. -/
theorem during_deactivateUp {Q : Unit → Association → Shared → List Mark → Prop} {l : Association}
    {w : List Mark} (hQ : ∀ s, Q () l s w) (sessions : List (Sigma fun _ : UInt8 => SmContext))
    (s : Shared) :
    during outside (fun _ _ _ _ => True) drift
      (Proc.forEach (fun (session : Sigma fun _ : UInt8 => SmContext) => do
        let _ ← Proc.ask (Call.deactivateUp session.2.2 session.2.1)) sessions) Q l s w := by
  induction sessions generalizing s with
  | nil => exact hQ s
  | cons session sessions ih => exact fun _ s' _ _ => ih s'

theorem during_retainUe {l : Association} {w : List Mark} (id : AmfUeId) (c : UeContext) (s : Shared) :
    during outside (fun _ _ _ _ => True) drift (retainUe id c)
      (fun _ l' _ w' => l' = l.erase id ∧ w' = releaseMark id c :: w) l s w := by
  have hunaddressed : ∀ {Q : Unit → Association → Shared → List Mark → Prop}, (∀ s, Q () l s w) →
      during outside (fun _ _ _ _ => True) drift (unaddress c) Q l s w := by
    intro Q hQ
    unfold unaddress
    cases c.suci with
    | none => exact hQ s
    | some supi => exact hQ _
  rw [retainUe, during, Proc.wp_bind]
  refine hunaddressed fun s' => ?_
  cases htmsi : c.gutiTmsi with
  | none => exact fun _ => ⟨rfl, by rw [releaseMark, htmsi]; rfl⟩
  | some tmsi => exact fun _ => ⟨rfl, by rw [releaseMark, htmsi]; rfl⟩

/-- One release. -/
theorem Released.releaseUeContext {l l' : Association} {ids : List AmfUeId} {w' : List Mark}
    (h : Released l ids l' w') (id : AmfUeId) (s : Shared) :
    during outside (fun _ _ _ _ => True) drift (releaseUeContext id)
      (fun _ l' _ w' => Released l (ids ++ [id]) l' w') l' s w' := by
  cases hc : l'.ues.lookup id with
  | none =>
    simp only [Mobility.releaseUeContext, getUe, during, Proc.wp_bind, Proc.wp_look, hc, Proc.wp_pure]
    exact h.again hc
  | some c =>
    simp only [Mobility.releaseUeContext, getUe, during, Proc.wp_bind, Proc.wp_look, hc]
    refine during_deactivateUp (fun s' => ?_) _ s
    simp only [Proc.wp_bind, Proc.wp_look, hc]
    refine during_mono (fun _ l₁ _ w₁ h₁ => ?_) (during_retainUe id c s')
    rw [h₁.1, h₁.2]
    exact h.next hc

/-- One after the other. -/
theorem Released.forEach {l l' : Association} {ids : List AmfUeId} {w' : List Mark}
    (h : Released l ids l' w') (targets : List (AmfUeId × RanUeId)) (s : Shared) :
    during outside (fun _ _ _ _ => True) drift
      (Proc.forEach (fun (target : AmfUeId × RanUeId) => Mobility.releaseUeContext target.1) targets)
      (fun _ l' _ w' => Released l (ids ++ targets.map Prod.fst) l' w') l' s w' := by
  induction targets generalizing ids l' s w' with
  | nil =>
    rw [List.map_nil, List.append_nil]
    exact h
  | cons target targets ih =>
    rw [Proc.forEach, during, Proc.wp_bind]
    refine during_mono (fun _ l₁ s₁ w₁ h₁ => ?_) (h.releaseUeContext target.1 s)
    rw [List.map_cons, ← List.singleton_append, ← List.append_assoc]
    exact ih h₁ s₁

/-- The handler. -/
theorem during_onNgReset {pdu : NgapPdu} {scope : ResetScope} (hparse : parseNgReset pdu = some scope)
    (l : Association) (s : Shared) :
    during outside (fun _ _ _ _ => True) drift (onNgReset pdu)
      (fun ack l' _ w' => Released l ((resetTargets l.ues scope).map Prod.fst) l' w' ∧
        ack = some (ngResetAcknowledge (if scope = .all then [] else resetTargets l.ues scope)))
      l s [] := by
  simp only [onNgReset, hparse, during, Proc.wp_bind, Proc.wp_look]
  refine during_mono (fun _ l' _ w' h => ⟨h, rfl⟩) ?_
  exact (Released.nil l).forEach (resetTargets l.ues scope) s

end Run

/-! ### Exactness -/

/-- What is released is to be what is named, and the answer is to say so. -/
theorem Released.exact_iff {l l' : Association} {ids : List AmfUeId} {w' : List Mark}
    (h : Released l ids l' w') (scope : ResetScope) (ack : NgResetAcknowledge) :
    Exact scope l l' w' (some ack) ↔
      (∀ id c, l.ues.lookup id = some c → (id ∈ ids ↔ scope.Covers id c)) ∧ scope.AcknowledgedBy ack := by
  constructor
  · intro hexact
    constructor
    · intro id c hc
      have hkept := hexact.kept id c
      rw [h.kept, hc] at hkept
      by_cases hmem : id ∈ ids
      · rw [if_pos hmem] at hkept
        have hcovers : scope.Covers id c := by
          by_contra hnot
          cases hkept.mpr ⟨rfl, hnot⟩
        exact ⟨fun _ => hcovers, fun _ => hmem⟩
      · rw [if_neg hmem] at hkept
        have hnot := (hkept.mp rfl).2
        exact ⟨fun h => absurd h hmem, fun h => absurd h hnot⟩
    · obtain ⟨a, ha, hack⟩ := hexact.acknowledged
      cases ha
      exact hack
  · rintro ⟨hids, hack⟩
    constructor
    · intro n
      rw [h.noted]
      constructor
      · rintro ⟨id, c, hmem, hc, hn⟩
        exact ⟨id, c, hc, (hids id c hc).mp hmem, hn⟩
      · rintro ⟨id, c, hc, hcovers, hn⟩
        exact ⟨id, c, (hids id c hc).mpr hcovers, hc, hn⟩
    · exact h.once
    · intro id c
      rw [h.kept]
      by_cases hmem : id ∈ ids
      · rw [if_pos hmem]
        constructor
        · intro hnone
          cases hnone
        · rintro ⟨hc, hcovers⟩
          exact absurd ((hids id c hc).mp hmem) hcovers
      · rw [if_neg hmem]
        exact ⟨fun hc => ⟨hc, fun hcovers => hmem ((hids id c hc).mpr hcovers)⟩, And.left⟩
    · exact ⟨ack, rfl, hack⟩

section Part

variable {ues : Map AmfUeId UeContext} {items : List ConnectionItem}

theorem resetTarget_eq_some {item : ConnectionItem} {target : AmfUeId × RanUeId} :
    resetTarget ues item = some target ↔
      ∃ c, item.1 = some target.1 ∧ ues.lookup target.1 = some c ∧ item.2.getD c.ranUeId = target.2 := by
  obtain ⟨id, r⟩ := target
  simp only [resetTarget, Option.bind_eq_bind, Option.bind_eq_some_iff, Option.pure_def, Option.some.injEq,
    Prod.mk.injEq]
  constructor
  · rintro ⟨_, hid, c, hc, rfl, hr⟩
    exact ⟨c, hid, hc, hr⟩
  · rintro ⟨c, hid, hc, hr⟩
    exact ⟨id, hid, c, hc, rfl, hr⟩

/-- The contexts that are found by an id of the AMF. -/
theorem mem_targets_iff {id : AmfUeId} {c : UeContext} (hc : ues.lookup id = some c) :
    id ∈ (resetTargets ues (.part items)).map Prod.fst ↔ ∃ item ∈ items, item.1 = some id := by
  simp only [resetTargets, List.mem_map, List.mem_filterMap, resetTarget_eq_some]
  constructor
  · rintro ⟨target, ⟨item, hitem, -, hid, -⟩, rfl⟩
    exact ⟨item, hitem, hid⟩
  · rintro ⟨item, hitem, hid⟩
    exact ⟨(id, item.2.getD c.ranUeId), ⟨item, hitem, c, hid, hc, rfl⟩, rfl⟩

/-- An answer with a list has an entry for each target. -/
theorem acknowledgedBy_iff {targets : List (AmfUeId × RanUeId)} :
    (ResetScope.part items).AcknowledgedBy (ngResetAcknowledge targets) ↔
      targets ≠ [] ∧ ∀ item ∈ items, ∃ target ∈ targets, Names (some target.1, some target.2) item := by
  cases targets with
  | nil => simp [ResetScope.AcknowledgedBy, ngResetAcknowledge]
  | cons target targets =>
    constructor
    · rintro ⟨entries, hentries, hnames⟩
      cases hentries
      refine ⟨List.cons_ne_nil _ _, fun item hitem => ?_⟩
      obtain ⟨entry, hentry, hnamed⟩ := hnames item hitem
      obtain ⟨target', htarget, rfl⟩ := List.mem_map.mp hentry
      exact ⟨target', htarget, hnamed⟩
    · rintro ⟨-, hnames⟩
      refine ⟨_, rfl, fun item hitem => ?_⟩
      obtain ⟨target', htarget, hnamed⟩ := hnames item hitem
      exact ⟨_, List.mem_map_of_mem htarget, hnamed⟩

theorem mem_resetTargets {target : AmfUeId × RanUeId} :
    target ∈ resetTargets ues (.part items) ↔ ∃ item ∈ items, ∃ c, item.1 = some target.1 ∧
      ues.lookup target.1 = some c ∧ item.2.getD c.ranUeId = target.2 := by
  simp only [resetTargets, List.mem_filterMap, resetTarget_eq_some]

/-- When the targets of a partial reset are what it names, and name its items. -/
theorem byAmfId_iff :
    ((∀ id c, ues.lookup id = some c → (id ∈ (resetTargets ues (.part items)).map Prod.fst ↔
        ∃ item ∈ items, Matches item id c)) ∧
      resetTargets ues (.part items) ≠ [] ∧
      ∀ item ∈ items, ∃ target ∈ resetTargets ues (.part items),
        Names (some target.1, some target.2) item) ↔ ByAmfId ues items := by
  constructor
  · rintro ⟨htargets, hsome, hnames⟩
    constructor
    · obtain ⟨target, htarget⟩ := List.exists_mem_of_ne_nil _ hsome
      obtain ⟨item, hitem, -, hid, -⟩ := mem_resetTargets.mp htarget
      exact ⟨item, hitem, by rw [hid, Option.isSome_some]⟩
    · intro item hitem id hid
      obtain ⟨target, htarget, hnamed⟩ := hnames item hitem
      obtain ⟨-, -, c, -, hc, -⟩ := mem_resetTargets.mp htarget
      have hsame : target.1 = id := Option.some.inj (hnamed.1 id hid)
      rw [← hsame, hc, Option.isSome_some]
    · intro id c hc hitem
      exact (htargets id c hc).mp ((mem_targets_iff hc).mpr hitem)
    · intro id c hc hitem
      have hmatches : Matches (none, some c.ranUeId) id c :=
        ⟨.inr rfl, by simp, fun r hr => (Option.some.inj hr).symm⟩
      exact (mem_targets_iff hc).mp ((htargets id c hc).mpr ⟨_, hitem, hmatches⟩)
    · intro r hitem
      obtain ⟨target, htarget, hnamed⟩ := hnames _ hitem
      obtain ⟨item, hitem', c, hid, hc, hr⟩ := mem_resetTargets.mp htarget
      have hsame : target.2 = r := Option.some.inj (hnamed.2 r rfl)
      exact ⟨item, hitem', target.1, c, hid, hc, hr.trans hsame⟩
  · intro h
    have hleads : ∀ item ∈ items, ∀ id, item.1 = some id →
        ∃ c : UeContext, (id, item.2.getD c.ranUeId) ∈ resetTargets ues (.part items) := by
      intro item hitem id hid
      obtain ⟨c, hc⟩ := Option.isSome_iff_exists.mp (h.known item hitem id hid)
      exact ⟨c, mem_resetTargets.mpr ⟨item, hitem, c, hid, hc, rfl⟩⟩
    obtain ⟨first, hfirst, hsome⟩ := h.named
    obtain ⟨id, hid⟩ := Option.isSome_iff_exists.mp hsome
    obtain ⟨c, htarget⟩ := hleads first hfirst id hid
    refine ⟨fun id c hc => ?_, List.ne_nil_of_mem htarget, fun item hitem => ?_⟩
    · rw [mem_targets_iff hc]
      refine ⟨h.matched id c hc, fun ⟨item, hitem, hcarries, hamf, hran⟩ => ?_⟩
      cases hid : item.1 with
      | some id' => exact ⟨item, hitem, by rw [hid, hamf id' hid]⟩
      | none =>
        -- with the RAN id alone, which some other item has to make up for
        obtain ⟨r, hr⟩ : ∃ r, item.2 = some r := by
          rw [← Option.isSome_iff_exists]
          simpa [hid] using hcarries
        have hpair : item = (none, some c.ranUeId) := by
          rw [← hran r hr, ← hr, ← hid]
        exact h.found id c hc (hpair ▸ hitem)
    · cases hid : item.1 with
      | some id =>
        obtain ⟨c, htarget⟩ := hleads item hitem id hid
        refine ⟨_, htarget, fun id' hid' => ?_, fun r hr => ?_⟩
        · rw [← hid', hid]
        · rw [hr, Option.getD_some]
      | none =>
        cases hr : item.2 with
        | none => exact ⟨_, htarget, by simp [Names, hid, hr]⟩
        | some r =>
          have hpair : item = (none, some r) := by rw [← hr, ← hid]
          obtain ⟨item', hitem', id', c', hid', hc', hsame⟩ := h.same r (hpair ▸ hitem)
          refine ⟨(id', r), mem_resetTargets.mpr ⟨item', hitem', c', hid', hc', hsame⟩, ?_⟩
          simp [Names, hid, hr]

end Part

/-- A reset of all is exact, and one of a part is if its items go by the AMF's ids. -/
theorem ng_reset_exact_iff {drift : Shared → Shared → Prop} {pdu : NgapPdu} {scope : ResetScope}
    (hparse : parseNgReset pdu = some scope) (l : Association) (s : Shared) :
    during outside (fun _ _ _ _ => True) drift (onNgReset pdu)
      (fun ack l' _ w' => Exact scope l l' w' ack ↔ scope.Sound l.ues) l s [] := by
  refine during_mono (fun ack l' _ w' h => ?_) (during_onNgReset hparse l s)
  obtain ⟨hreleased, rfl⟩ := h
  rw [hreleased.exact_iff]
  cases scope with
  | all =>
      rw [if_pos rfl]
      refine ⟨fun _ => trivial, fun _ => ⟨fun id c hc => ⟨fun _ => trivial, fun _ => ?_⟩, rfl⟩⟩
      have hentry := Keyed.Map.lookup_eq_some_iff.mp hc
      exact List.mem_map.mpr ⟨(id, c.ranUeId), List.mem_map.mpr ⟨_, hentry, rfl⟩, rfl⟩
  | part items =>
      rw [if_neg (by simp), acknowledgedBy_iff]
      exact byAmfId_iff

/-! ### A part of the interface -/

/-- Two UEs, of which the first has a 5G-TMSI. -/
def twoUes : Association :=
  Association.insert 1 { UeContext.new 7 .Registered none 0 with gutiTmsi := some 0xA }
    (Association.insert 2 (UeContext.new 8 .Registered none 0) { tx := 0 })

def resetOfPart (items : List ConnectionItem) : NgapPdu :=
  .ngReset [.cause .unspecified, .resetTypePartOfNgInterface items]

/-- The first is named by both its ids. -/
theorem ng_reset_of_pair :
    during outside (fun _ _ _ _ => True) (fun _ _ => True) (onNgReset (resetOfPart [(some 1, some 7)]))
      (fun ack l' _ w' => Exact (.part [(some 1, some 7)]) twoUes l' w' ack) twoUes {} [] := by
  have hsound : (ResetScope.part [(some 1, some 7)]).Sound twoUes.ues := by
    constructor
    · exact ⟨_, List.mem_singleton_self _, rfl⟩
    · intro item hitem id hid
      cases List.mem_singleton.mp hitem
      cases hid
      rfl
    · intro id c hc hitem
      obtain ⟨item, hitem, hid⟩ := hitem
      cases List.mem_singleton.mp hitem
      cases hid
      cases hc
      exact ⟨_, List.mem_singleton_self _, .inl rfl, fun id h => (Option.some.inj h).symm,
        fun r h => (Option.some.inj h).symm⟩
    · intro id c _ hitem
      cases List.mem_singleton.mp hitem
    · intro r hitem
      cases List.mem_singleton.mp hitem
  exact during_mono (fun _ _ _ _ h => h.mpr hsound) (ng_reset_exact_iff rfl twoUes {})

/-- The first is named by its RAN id: it stays, and the answer is that of a reset of all. -/
theorem ng_reset_by_ran_id :
    ∃ ack l' s' w', Amid outside (fun _ _ _ _ => True) Eq (onNgReset (resetOfPart [(none, some 7)])) twoUes
        {} [] ack l' s' w' ∧
      ack = some { connectionList := none } ∧ ¬ Exact (.part [(none, some 7)]) twoUes l' w' ack := by
  refine ⟨_, _, _, _, .get .ret, rfl, fun hexact => ?_⟩
  have hnamed : (ResetScope.part [(none, some 7)]).Covers 1
      { UeContext.new 7 .Registered none 0 with gutiTmsi := some 0xA } :=
    ⟨_, List.mem_singleton_self _, .inr rfl, fun id h => (by cases h), fun r h => (Option.some.inj h).symm⟩
  exact ((hexact.kept 1 _).mp rfl).2 hnamed

end Radian.Mobility
