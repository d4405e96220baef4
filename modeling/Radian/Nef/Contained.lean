import Radian.Nef.Ownership

/-!
# Contained influence

An AF affects only its own influences, and only within its agreement, in every run that heeds the side condition.

- `Kept` — the invariant; `Kept.record` and `Kept.clear`, what is applied and what is withdrawn.
- `kept_step`, `confined_step` — one event.
- `heeds_of_apart` — the condition on documents as one on the requests.
- `contained`, `not_contained` — every run that heeds it, and one that does not.
-/

open Keyed (Map)

namespace Radian.Nef

open Npcf (AfInfluence)

/-! ### The invariant -/

open World

variable {w w' w₁ : World} {N : Config} {afId : String} {sub : TrafficInfluSub} {applied : Applied}
variable {place q : Place} {reach : Reach}

/-- The place is one where the subscription was applied. -/
def Fits (N : Config) (w : World) (s : Subscription) : Place → Prop
  | .pcf id => s.applied = .pcf id
  | .udr doc => ∃ id, s.applied = .udr id ∧ N.document id = some doc
  | .smf smRef => s.applied = .smf ∧ ∀ session, w.smf.lookup smRef = some session →
      session.supi = s.supi ∧ s.dnn = some session.dnn

theorem fits_record {s : Subscription} :
    Fits N (w.record afId sub applied place reach) s q = Fits N w s q := by
  cases q with
  | pcf id => rfl
  | udr doc => rfl
  | smf smRef => rw [Fits, smf_record, Fits]

structure Kept (N : Config) (slas : Map String AfSla) (w : World) : Prop where
  allowed : Allowed slas w
  separate : Separate N w
  stands : ∀ p m, w.made p = some m → w.content p ≠ none
  fits : ∀ p m i s, w.made p = some m → m.subId = some i → w.subs.lookup i = some s →
    s.afId = m.afId ∧ Fits N w s p
  pcf : ∀ i s id, w.subs.lookup i = some s → s.applied = .pcf id →
    ∃ m, w.made (.pcf id) = some m ∧ m.subId = some i

variable {slas : Map String AfSla}

theorem World.Started.kept (h : w.Started) (N : Config) (slas : Map String AfSla) : Kept N slas w := by
  have hsubs : ∀ i, w.subs.lookup i = none := fun i => by rw [h.subs]; rfl
  refine ⟨⟨fun p hp _ => ?_, fun p c m _ hm => ?_⟩, fun i j s t hi => ?_, fun p m hm => ?_,
    fun p m i s hm => ?_, fun i s id hi => ?_⟩
  · cases p with
    | pcf id =>
      rw [content, h.influences] at hp
      exact absurd rfl hp
    | udr doc =>
      rw [content, h.udr] at hp
      exact absurd rfl hp
    | smf smRef => exact ⟨smRef, rfl⟩
  · cases (h.made p).symm.trans hm
  · cases (hsubs i).symm.trans hi
  · cases (h.made p).symm.trans hm
  · cases (h.made p).symm.trans hm
  · cases (hsubs i).symm.trans hi

/-- What stands in a place, if anything, is within the agreement of whose it is. -/
theorem Allowed.change (h : Allowed slas w) {p : Place}
    (hp : ∀ c, w'.content p = some c → ∃ m, w'.made p = some m ∧
      ∃ sla, slas.lookup m.afId = some sla ∧ sla.Covers c)
    (hothers : ∀ q, q ≠ p → w'.content q = w.content q ∧ w'.made q = w.made q) : Allowed slas w' := by
  refine ⟨fun q hq hnone => ?_, fun q d n hd hn => ?_⟩
  · by_cases hqp : q = p
    · subst hqp
      obtain ⟨c, hc⟩ := Option.ne_none_iff_exists'.mp hq
      obtain ⟨m, hm, -⟩ := hp c hc
      cases hnone.symm.trans hm
    · obtain ⟨hcontent, hmade⟩ := hothers q hqp
      exact h.asked q (hcontent ▸ hq) (hmade ▸ hnone)
  · by_cases hqp : q = p
    · subst hqp
      obtain ⟨m, hm, hcovers⟩ := hp d hd
      cases hm.symm.trans hn
      exact hcovers
    · obtain ⟨hcontent, hmade⟩ := hothers q hqp
      exact h.permitted q d n (hcontent ▸ hd) (hmade ▸ hn)

/-- An influence is applied and recorded: `w₁` is `w` with what now stands in the place. -/
theorem Kept.record (h : Kept N slas w) {c : Content}
    (hsubs : w₁.subs = w.subs) (hmade : w₁.made = w.made) (hasked : w₁.asked = w.asked)
    (hnext : w₁.nextId = w.nextId) (hplace : w₁.content place = some c)
    (hothers : ∀ q, q ≠ place → w₁.content q = w.content q)
    (hsmf : ∀ s p, Fits N w s p → Fits N w₁ s p)
    (hcovers : ∃ sla, slas.lookup afId = some sla ∧ sla.Covers c)
    (hfresh : w.subs.lookup w.newSubId = none) (hunused : ∀ p m, w.made p = some m → m.subId ≠ some w.newSubId)
    (hfits : Fits N w₁ { afId, supi := sub.singleUe.getD "", dnn := sub.dnn, applied } place)
    (hpcf : ∀ id, applied = .pcf id → place = .pcf id)
    (hvacant : ∀ id, place = .pcf id → w.content place = none)
    (hdocument : ∀ id doc, applied = .udr id → N.document id = some doc →
      ∀ i s id', w.subs.lookup i = some s → s.applied = .udr id' → N.document id' = some doc →
        (w.asked i).map target = some (target sub)) :
    Kept N slas (w₁.record afId sub applied place reach) := by
  have hid : w₁.newSubId = w.newSubId := by rw [newSubId, hnext, newSubId]
  have hmade' : (w₁.record afId sub applied place reach).made =
      Function.update w.made place (some { afId, sub, subId := w₁.recordedId reach }) := by
    rw [made_record, hmade]
  have hplace' : (w₁.record afId sub applied place reach).made place =
      some { afId, sub, subId := w₁.recordedId reach } := by
    rw [hmade', Function.update_self]
  have hothers' : ∀ q, q ≠ place →
      (w₁.record afId sub applied place reach).made q = w.made q := fun q hq => by
    rw [hmade', Function.update_of_ne hq]
  -- a subscription is the new one, or was there before and asked for what it asked for
  have hlookup : ∀ i s, (w₁.record afId sub applied place reach).subs.lookup i = some s →
      (w₁.recordedId reach = some i ∧ s.applied = applied ∧
          s = { afId, supi := sub.singleUe.getD "", dnn := sub.dnn, applied } ∧
          (w₁.record afId sub applied place reach).asked i = some sub) ∨
        (i ≠ w.newSubId ∧ w.subs.lookup i = some s ∧
          (w₁.record afId sub applied place reach).asked i = w.asked i) := fun i s hs => by
    rcases lookup_record hs with ⟨-, hrecorded, rfl, hsub⟩ | ⟨hold, hsame⟩
    · exact .inl ⟨hrecorded, rfl, rfl, hsub⟩
    · rw [hsubs] at hold
      have hne : i ≠ w.newSubId := by
        rintro rfl
        rw [hfresh] at hold
        cases hold
      refine .inr ⟨hne, hold, ?_⟩
      rw [hsame (hid ▸ hne), hasked]
  have hrecordedId : ∀ i, w₁.recordedId reach = some i → i = w.newSubId := fun i hi => by
    cases reach <;> cases hi
    exact hid
  refine ⟨h.allowed.change (p := place) (fun c' hc' => ?_)
      fun q hq => ⟨by rw [content_record, hothers q hq], hothers' q hq⟩,
    fun i j s t hi hj id id' doc hs ht hdoc hdoc' => ?_, fun p m hm => ?_, fun p m i s hm hsub hi => ?_,
    fun i s id hi hs => ?_⟩
  · rw [content_record, hplace] at hc'
    cases hc'
    exact ⟨_, hplace', hcovers⟩
  · rcases hlookup i s hi with ⟨-, hsa, -, hsasked⟩ | ⟨-, hiold, hsasked⟩ <;>
      rcases hlookup j t hj with ⟨-, hta, -, htasked⟩ | ⟨-, hjold, htasked⟩
    · rw [hsasked, htasked]
    · rw [hsasked, htasked]
      exact (hdocument id doc (hsa ▸ hs) hdoc j t id' hjold ht hdoc').symm
    · rw [hsasked, htasked]
      exact hdocument id' doc (hta ▸ ht) hdoc' i s id hiold hs hdoc
    · rw [hsasked, htasked]
      exact h.separate i j s t hiold hjold id id' doc hs ht hdoc hdoc'
  · rw [content_record]
    by_cases hp : p = place
    · rw [hp, hplace]
      exact Option.some_ne_none c
    · rw [hothers p hp]
      exact h.stands p m ((hothers' p hp).symm.trans hm)
  · rw [fits_record]
    by_cases hp : p = place
    · subst hp
      cases hplace'.symm.trans hm
      rcases hlookup i s hi with ⟨-, -, rfl, -⟩ | ⟨hne, -, -⟩
      · exact ⟨rfl, hfits⟩
      · exact absurd (hrecordedId i hsub) hne
    · have hold := (hothers' p hp).symm.trans hm
      rcases hlookup i s hi with ⟨hrecorded, -, -, -⟩ | ⟨-, hiold, -⟩
      · exact absurd (hrecordedId i hrecorded ▸ hsub) (hunused p m hold)
      · obtain ⟨haf, hs⟩ := h.fits p m i s hold hsub hiold
        exact ⟨haf, hsmf s p hs⟩
  · rcases hlookup i s hi with ⟨hrecorded, hsa, -, -⟩ | ⟨-, hiold, -⟩
    · rw [← hpcf id (hsa.symm.trans hs)]
      exact ⟨_, hplace', hrecorded⟩
    · obtain ⟨m, hm, hsub⟩ := h.pcf i s id hiold hs
      have hp : .pcf id ≠ place := fun hp => h.stands _ m hm (hp ▸ hvacant id hp.symm)
      exact ⟨m, (hothers' _ hp).trans hm, hsub⟩

/-- A place is cleared, and no subscription counts on it. -/
theorem Kept.clear (h : Kept N slas w) {p : Place} (hsubs : w'.subs = w.subs) (hasked : w'.asked = w.asked)
    (hmade : w'.made = Function.update w.made p none) (hp : w'.content p = none)
    (hothers : ∀ q, q ≠ p → w'.content q = w.content q) (hfits : ∀ s q, Fits N w s q → Fits N w' s q)
    (hpcf : ∀ i s id, w.subs.lookup i = some s → s.applied = .pcf id → .pcf id ≠ p) : Kept N slas w' := by
  have hmade' : ∀ q, q ≠ p → w'.made q = w.made q := fun q hq => by rw [hmade, Function.update_of_ne hq]
  have hold : ∀ q m, w'.made q = some m → q ≠ p ∧ w.made q = some m := fun q m hm => by
    by_cases hq : q = p
    · rw [hq, hmade, Function.update_self] at hm
      cases hm
    · exact ⟨hq, (hmade' q hq).symm.trans hm⟩
  refine ⟨h.allowed.change (p := p) (fun c hc => ?_) fun q hq => ⟨hothers q hq, hmade' q hq⟩, ?_, fun q m hm => ?_,
    fun q m i s hm hsub hi => ?_, fun i s id hi hs => ?_⟩
  · cases hp.symm.trans hc
  · unfold Separate
    rw [hsubs, hasked]
    exact h.separate
  · obtain ⟨hq, hm⟩ := hold q m hm
    rw [hothers q hq]
    exact h.stands q m hm
  · obtain ⟨-, hm⟩ := hold q m hm
    rw [hsubs] at hi
    obtain ⟨haf, hs⟩ := h.fits q m i s hm hsub hi
    exact ⟨haf, hfits s q hs⟩
  · rw [hsubs] at hi
    obtain ⟨m, hm, hsub⟩ := h.pcf i s id hi hs
    exact ⟨m, (hmade' _ (hpcf i s id hi hs)).trans hm, hsub⟩

/-- Nothing that an AF has asked for changes. -/
theorem Kept.aside (h : Kept N slas w) (hsubs : w'.subs = w.subs) (hasked : w'.asked = w.asked)
    (hmade : w'.made = w.made) (hcontent : ∀ q, w.made q ≠ none → w'.content q = w.content q)
    (hothers : ∀ q, (∀ smRef, q ≠ .smf smRef) → w'.content q = w.content q)
    (hfits : ∀ s q, w.made q ≠ none → Fits N w s q → Fits N w' s q) : Kept N slas w' := by
  refine ⟨⟨fun q hq hnone => ?_, fun q c m hc hm => ?_⟩, ?_, fun q m hm => ?_, fun q m i s hm hsub hi => ?_,
    fun i s id hi hs => ?_⟩
  · by_cases hsmf : ∃ smRef, q = .smf smRef
    · exact hsmf
    · rw [hothers q fun smRef hq => hsmf ⟨smRef, hq⟩] at hq
      exact h.allowed.asked q hq (hmade ▸ hnone)
  · rw [hmade] at hm
    rw [hcontent q (hm ▸ Option.some_ne_none m)] at hc
    exact h.allowed.permitted q c m hc hm
  · unfold Separate
    rw [hsubs, hasked]
    exact h.separate
  · rw [hmade] at hm
    rw [hcontent q (hm ▸ Option.some_ne_none m)]
    exact h.stands q m hm
  · rw [hmade] at hm
    rw [hsubs] at hi
    obtain ⟨haf, hs⟩ := h.fits q m i s hm hsub hi
    exact ⟨haf, hfits s q (hm ▸ Option.some_ne_none m) hs⟩
  · rw [hsubs] at hi
    rw [hmade]
    exact h.pcf i s id hi hs

theorem Kept.forget (h : Kept N slas w) (i : String) : Kept N slas { w with subs := w.subs.erase i } := by
  have hold : ∀ j s, (w.subs.erase i).lookup j = some s → w.subs.lookup j = some s := fun j s hj =>
    (Map.of_lookup_erase hj).2
  refine ⟨⟨h.allowed.asked, h.allowed.permitted⟩, fun j k s t hj hk => ?_, h.stands,
    fun p m j s hm hsub hj => ?_,
    fun j s id hj => h.pcf j s id (hold j s hj)⟩
  · exact h.separate j k s t (hold j s hj) (hold k t hk)
  · obtain ⟨haf, hs⟩ := h.fits p m j s hm hsub (hold j s hj)
    refine ⟨haf, ?_⟩
    cases p <;> exact hs

/-! ### What is asked for is within the agreement -/

variable {plan : Config.Accepted} {sla : AfSla}

theorem Permitted.covers_document (h : Permitted sla sub plan) (hgroup : plan.supi = none) :
    sla.Covers (.document (influenceDoc sub plan.trafficPrefix plan.dnai)) := by
  have hues := h.ues
  rw [AfSla.permitsUes, if_pos (h.group hgroup), Bool.and_eq_true, Bool.or_eq_true, List.all_eq_true] at hues
  refine ⟨h.dnn, fun loc hloc => ?_, hues⟩
  cases List.mem_singleton.mp hloc
  exact h.dnai

/-- The UE and the DNN of a request for one UE. -/
theorem Permitted.covers_one (h : Permitted sla sub plan) {supi dnn : String} (hsupi : plan.supi = some supi)
    (hdnn : sub.dnn = some dnn) :
    sla.permitsDnn (some dnn) ∧ AfSla.permits sla.dnais plan.dnai ∧ sla.permitsSupi supi := by
  obtain ⟨hone, hue⟩ := h.single supi hsupi
  have hues := h.ues
  rw [AfSla.permitsUes, if_neg (ne_true_of_eq_false hone), hue] at hues
  exact ⟨hdnn ▸ h.dnn, h.dnai, hues⟩

theorem appSessionReq_influence {supi trafficPrefix dnai : String} {dnn : Option String} {inf : AfInfluence}
    (h : (appSessionReq supi dnn trafficPrefix dnai).influence = some inf) :
    inf.supi = supi ∧ dnn = some inf.dnn ∧ inf.dnai = dnai := by
  cases dnn with
  | none => cases h
  | some dnn =>
    cases h
    exact ⟨rfl, rfl, rfl⟩

theorem permitsDnn_some (h : sla.permitsDnn none) (dnn : String) : sla.permitsDnn (some dnn) := by
  rw [AfSla.permitsDnn, AfSla.permits, Bool.or_eq_true]
  exact .inl h

/-- What a PCF folds in is within the agreement that the document is within. -/
theorem Kept.folded (h : Kept N slas w) : Folded slas w := by
  intro doc data ctx tc hdata hfolded
  have hcontent : w.content (.udr doc) = some (.document data) := by rw [content, hdata, Option.map_some]
  obtain ⟨m, hm⟩ : ∃ m, w.made (.udr doc) = some m := by
    rw [← Option.ne_none_iff_exists']
    intro hnone
    obtain ⟨smRef, hp⟩ := h.allowed.asked _ (hcontent ▸ Option.some_ne_none _) hnone
    cases hp
  obtain ⟨sla, hsla, hdnn, hdnais, hallow, hues⟩ := h.allowed.permitted _ _ m hcontent hm
  simp only [Npcf.groupControl, Option.bind_eq_bind, Option.bind_some] at hfolded
  split at hfolded
  · rename_i happlies
    rw [Npcf.TrafficInfluData.appliesTo, Bool.and_eq_true, Bool.or_eq_true] at happlies
    obtain ⟨hdnnOk, hueOk⟩ := happlies
    rw [Option.bind_eq_some_iff] at hfolded
    obtain ⟨trafficPrefix, -, hfolded⟩ := hfolded
    rw [Option.bind_eq_some_iff] at hfolded
    obtain ⟨loc, hloc, hfolded⟩ := hfolded
    cases hfolded
    refine ⟨m, sla, hm, hsla, ?_, fun loc' hloc' => ?_, hallow, ?_⟩
    · cases hd : data.dnn with
      | none => exact permitsDnn_some (hd ▸ hdnn) ctx.dnn
      | some dnn =>
        rw [hd] at hdnnOk hdnn
        rw [← of_decide_eq_true hdnnOk]
        exact hdnn
    · cases List.mem_singleton.mp hloc'
      exact hdnais loc (List.mem_of_head? hloc)
    · rcases hueOk with hany | hsupi
      · exact .inl hany
      · obtain ⟨supi, hmem, heq⟩ := List.any_eq_true.mp hsupi
        rcases hues with hany | hall
        · exact .inl hany
        · exact .inr (of_decide_eq_true heq ▸ hall supi hmem)
  · cases hfolded

/-! ### Requests to create -/

theorem unharmed_record (hmade : w₁.made = w.made) (hothers : ∀ q, q ≠ place → w₁.content q = w.content q)
    (hq : q ≠ place) : Unharmed w (w₁.record afId sub applied place reach) q := by
  refine ⟨?_, ?_⟩
  · rw [content_record, hothers q hq]
  · rw [made_record, hmade, Function.update_of_ne hq]

theorem kept_createGroup (h : Kept N slas w) (hsla : slas.lookup afId = some sla)
    (hplan : Permitted sla sub plan) (hgroup : plan.supi = none) (hfresh : w.subs.lookup w.newSubId = none)
    (hunused : ∀ p m, w.made p = some m → m.subId ≠ some w.newSubId)
    (hdocument : ∀ doc, N.document (influenceId sub plan.trafficPrefix) = some doc →
      ∀ i s id, w.subs.lookup i = some s → s.applied = .udr id → N.document id = some doc →
        (w.asked i).map target = some (target sub)) : Kept N slas (w.createGroup N afId sub plan reach) := by
  unfold createGroup
  dsimp only
  split
  · cases hdoc : N.document (influenceId sub plan.trafficPrefix) with
    | none => exact h
    | some doc =>
      refine h.record rfl rfl rfl rfl (by rw [content_udr_insert, if_pos rfl])
        (fun q hq => by rw [content_udr_insert, if_neg hq]) (fun s p hs => by cases p <;> exact hs)
        ⟨sla, hsla, hplan.covers_document hgroup⟩ hfresh hunused ⟨_, rfl, hdoc⟩ (fun id hid => ?_)
        (fun id hid => ?_) fun id doc' hid hdoc' => ?_
      · cases hid
      · cases hid
      · cases hid
        exact hdocument doc' hdoc'
  · exact h

theorem confined_createGroup (h : Kept N slas w)
    (hdocument : ∀ doc, N.document (influenceId sub plan.trafficPrefix) = some doc →
      ∀ m, w.made (.udr doc) = some m → m.afId = afId ∧ target m.sub = target sub) (hq : w.content q ≠ none) :
    Unharmed w (w.createGroup N afId sub plan reach) q ∨
      ∃ m, w.made q = some m ∧ m.afId = afId ∧ target m.sub = target sub := by
  unfold createGroup
  dsimp only
  split
  · cases hdoc : N.document (influenceId sub plan.trafficPrefix) with
    | none => exact .inl ⟨rfl, rfl⟩
    | some doc =>
      by_cases hqd : q = .udr doc
      · subst hqd
        cases hm : w.made (.udr doc) with
        | none =>
          obtain ⟨smRef, hp⟩ := h.allowed.asked _ hq hm
          cases hp
        | some m =>
          obtain ⟨haf, htarget⟩ := hdocument doc hdoc m hm
          exact .inr ⟨m, rfl, haf, htarget⟩
      · refine .inl (unharmed_record rfl (fun q hq => ?_) hqd)
        rw [content_udr_insert, if_neg hq]
  · exact .inl ⟨rfl, rfl⟩

theorem content_pcf_eq_none {id : String} (h : w.pcf.influences.lookup id = none) :
    w.content (.pcf id) = none := by
  rw [content, h, Option.map_none]

theorem kept_createAtPcf (h : Kept N slas w) (hsla : slas.lookup afId = some sla)
    (hplan : Permitted sla sub plan) {supi : String} (hsupi : plan.supi = some supi)
    (hfresh : w.subs.lookup w.newSubId = none)
    (hunused : ∀ p m, w.made p = some m → m.subId ≠ some w.newSubId)
    (hvacant : w.pcf.influences.lookup (toString w.pcf.nextId) = none) :
    Kept N slas (w.createAtPcf afId sub plan supi reach) := by
  unfold createAtPcf
  dsimp only
  split
  · rename_i hdone
    obtain ⟨inf, hinf⟩ := Option.isSome_iff_exists.mp hdone.2
    obtain ⟨hue, hdnn, hdnai⟩ := appSessionReq_influence hinf
    have hcovers : sla.Covers (.session inf) := by
      obtain ⟨hpermitsDnn, hpermits, hpermitsSupi⟩ := hplan.covers_one hsupi hdnn
      exact ⟨hpermitsDnn, hdnai ▸ hpermits, hue ▸ hpermitsSupi⟩
    refine h.record rfl rfl rfl rfl (by rw [content_createAppSession hinf, if_pos rfl])
      (fun q hq => by rw [content_createAppSession hinf, if_neg hq]) (fun s p hs => by cases p <;> exact hs)
      ⟨sla, hsla, hcovers⟩ hfresh hunused rfl (fun id hid => ?_) (fun id hid => ?_) fun id doc hid => ?_
    · cases hid
      rfl
    · exact content_pcf_eq_none hvacant
    · cases hid
  · exact h

theorem unharmed_createAtPcf {supi : String}
    (hvacant : w.pcf.influences.lookup (toString w.pcf.nextId) = none) (hq : w.content q ≠ none) :
    Unharmed w (w.createAtPcf afId sub plan supi reach) q := by
  unfold createAtPcf
  dsimp only
  split
  · rename_i hdone
    obtain ⟨inf, hinf⟩ := Option.isSome_iff_exists.mp hdone.2
    refine unharmed_record rfl (fun q hq => ?_) fun hqp => ?_
    · rw [content_createAppSession hinf, if_neg hq]
    · rw [hqp] at hq
      exact hq (content_pcf_eq_none hvacant)
  · exact ⟨rfl, rfl⟩

/-- A session keeps its UE and its DNN. -/
theorem fits_smf_insert {smRef : String} {session session' : SmfSession}
    (hs : w.smf.lookup smRef = some session) (hsupi : session'.supi = session.supi)
    (hdnn : session'.dnn = session.dnn) {s : Subscription} {p : Place} (h : Fits N w s p) :
    Fits N { w with smf := w.smf.insert smRef session' } s p := by
  cases p with
  | pcf id => exact h
  | udr doc => exact h
  | smf r =>
    obtain ⟨happlied, hsame⟩ := h
    refine ⟨happlied, fun session₁ h₁ => ?_⟩
    obtain ⟨hr, rfl⟩ | ⟨-, h₁⟩ := Map.of_lookup_insert h₁
    · rw [hsupi, hdnn]
      exact hsame session (hr ▸ hs)
    · exact hsame session₁ h₁

theorem content_smf_eq_none {smRef : String} {session : SmfSession} (hs : w.smf.lookup smRef = some session)
    (h : session.breakout = none) : w.content (.smf smRef) = none := by
  simp [content, hs, h]

theorem kept_createAtSmf (h : Kept N slas w) (hsla : slas.lookup afId = some sla)
    (hplan : Permitted sla sub plan) {supi : String} (hsupi : plan.supi = some supi) {found : Option String}
    (hfresh : w.subs.lookup w.newSubId = none)
    (hunused : ∀ p m, w.made p = some m → m.subId ≠ some w.newSubId) :
    Kept N slas (w.createAtSmf afId sub plan supi reach found) := by
  unfold createAtSmf
  split
  · exact h
  · rename_i smRef session hsession
    obtain ⟨-, hs, hue, hdnn⟩ := session_eq_some hsession
    split
    · have hcovers : sla.Covers (.breakout session.supi session.dnn plan.trafficPrefix plan.dnai) :=
        hue ▸ hplan.covers_one hsupi hdnn
      refine h.record rfl rfl rfl rfl (by rw [content_smf_insert, if_pos rfl, Option.map_some])
        (fun q hq => by rw [content_smf_insert, if_neg hq])
        (fun s p hp => by refine fits_smf_insert hs ?_ ?_ hp <;> rfl) ⟨sla, hsla, hcovers⟩ hfresh hunused
        ⟨rfl, fun session₁ h₁ => ?_⟩ (fun id hid => ?_) (fun id hid => ?_) fun id doc hid => ?_
      · dsimp only at h₁
        rw [Keyed.Map.lookup_insert_eq, if_pos rfl] at h₁
        cases h₁
        refine ⟨?_, hdnn⟩
        rw [(hplan.single supi hsupi).2]
        exact hue
      · cases hid
      · cases hid
      · cases hid
    · exact h

theorem unharmed_createAtSmf {supi : String} {found : Option String} (hq : w.content q ≠ none) :
    Unharmed w (w.createAtSmf afId sub plan supi reach found) q := by
  unfold createAtSmf
  split
  · exact ⟨rfl, rfl⟩
  · rename_i smRef session hsession
    obtain ⟨-, hs, -, -⟩ := session_eq_some hsession
    split
    · rename_i hfree
      refine unharmed_record rfl (fun q hq => ?_) fun hqp => ?_
      · rw [content_smf_insert, if_neg hq]
      · rw [hqp] at hq
        exact hq (content_smf_eq_none hs hfree.2)
    · exact ⟨rfl, rfl⟩

/-! ### Requests to delete -/

theorem owned_eq_some {subId : String} {s : Subscription} (h : w.owned subId afId = some s) :
    w.subs.lookup subId = some s ∧ s.afId = afId := by
  rw [owned, Option.filter_eq_some_iff] at h
  exact ⟨h.1, beq_iff_eq.mp h.2⟩

/-- What a withdrawal comes to: the places where the subscription was applied are clear, and all else stays. -/
structure Withdrawn (N : Config) (slas : Map String AfSla) (afId subId : String) (w w' : World) : Prop where
  kept : Kept N slas w'
  others : ∀ p, w.content p ≠ none →
    Unharmed w w' p ∨ ∃ m, w.made p = some m ∧ m.afId = afId ∧ m.subId = some subId
  own : ∀ p m, w.made p = some m → m.subId = some subId → w'.content p = none

variable {subId : String} {s : Subscription} {pcf udr smf : Reach} {found : Option String}

theorem withdrawn_clear (h : Kept N slas w) (hs : w.subs.lookup subId = some s) {p : Place}
    (hsubs : w'.subs = w.subs.erase subId) (hasked : w'.asked = w.asked)
    (hmade : w'.made = Function.update w.made p none) (hp : w'.content p = none)
    (hothers : ∀ q, q ≠ p → w'.content q = w.content q) (hfits : ∀ t q, Fits N w t q → Fits N w' t q)
    (hpcf : ∀ id, p = .pcf id → s.applied = .pcf id)
    (hown : w.content p ≠ none → ∃ m, w.made p = some m ∧ m.subId = some subId)
    (honly : ∀ q m, w.made q = some m → m.subId = some subId → q = p) :
    Withdrawn N slas s.afId subId w w' := by
  refine ⟨(h.forget subId).clear hsubs hasked hmade hp hothers (fun t q ht => hfits t q (by cases q <;> exact ht))
    fun i t id hi ht hid => ?_, fun q hq => ?_, fun q m hm hsub => ?_⟩
  · -- no other subscription counts on the session
    obtain ⟨hne, hi⟩ := Map.of_lookup_erase hi
    obtain ⟨m, hm, hsub⟩ := h.pcf i t id hi ht
    obtain ⟨m', hm', hsub'⟩ := h.pcf subId s id hs (hpcf id hid.symm)
    cases hm.symm.trans hm'
    exact hne (Option.mem_unique hsub hsub')
  · by_cases hqp : q = p
    · subst hqp
      obtain ⟨m, hm, hsub⟩ := hown hq
      exact .inr ⟨m, hm, (h.fits q m subId s hm hsub hs).1.symm, hsub⟩
    · exact .inl ⟨hothers q hqp, by rw [hmade, Function.update_of_ne hqp]⟩
  · rw [honly q m hm hsub, hp]

/-- Nothing of the subscription's stands any more. -/
theorem withdrawn_none (h : Kept N slas w) (hnone : ∀ q m, w.made q = some m → m.subId ≠ some subId) :
    Withdrawn N slas afId subId w { w with subs := w.subs.erase subId } :=
  ⟨h.forget subId, fun _ _ => .inl ⟨rfl, rfl⟩, fun q m hm hsub => absurd hsub (hnone q m hm)⟩

theorem withdrawn_pcf (h : Kept N slas w) (hs : w.subs.lookup subId = some s) {id : String}
    (happlied : s.applied = .pcf id) (hdone : pcf.done) :
    Withdrawn N slas s.afId subId w
      (World.withdraw N s pcf udr smf found { w with subs := w.subs.erase subId }) := by
  unfold withdraw
  rw [happlied]
  dsimp only
  rw [if_pos hdone]
  refine withdrawn_clear h hs rfl rfl rfl ?_ (fun q hq => ?_) (fun t q ht => by cases q <;> exact ht)
    (fun id' hid => ?_) (fun _ => h.pcf subId s id hs happlied) fun q m hm hsub => ?_
  · exact (content_deleteAppSession id _).trans (if_pos rfl)
  · exact (content_deleteAppSession id _).trans (if_neg hq)
  · cases hid
    exact happlied
  · have hq := (h.fits q m subId s hm hsub hs).2
    cases q with
    | pcf id' =>
      cases happlied.symm.trans hq
      rfl
    | udr doc =>
      obtain ⟨id', hid, -⟩ := hq
      cases happlied.symm.trans hid
    | smf smRef => cases happlied.symm.trans hq.1

theorem withdrawn_udr (h : Kept N slas w) (hs : w.subs.lookup subId = some s) {id : String}
    (happlied : s.applied = .udr id) (hdone : udr.done)
    (hown : ∀ doc, N.document id = some doc → ∀ m, w.made (.udr doc) = some m → m.subId = some subId) :
    Withdrawn N slas s.afId subId w
      (World.withdraw N s pcf udr smf found { w with subs := w.subs.erase subId }) := by
  have hfits : ∀ q m, w.made q = some m → m.subId = some subId →
      ∃ doc, q = .udr doc ∧ N.document id = some doc := fun q m hm hsub => by
    have hq := (h.fits q m subId s hm hsub hs).2
    cases q with
    | pcf id' => cases happlied.symm.trans hq
    | udr doc =>
      obtain ⟨id', hid, hdoc⟩ := hq
      cases happlied.symm.trans hid
      exact ⟨doc, rfl, hdoc⟩
    | smf smRef => cases happlied.symm.trans hq.1
  unfold withdraw
  rw [happlied]
  dsimp only
  cases hdoc : N.document id with
  | none =>
    refine withdrawn_none h fun q m hm hsub => ?_
    obtain ⟨doc, -, hdoc'⟩ := hfits q m hm hsub
    cases hdoc.symm.trans hdoc'
  | some doc =>
    dsimp only
    rw [if_pos hdone]
    refine withdrawn_clear h hs rfl rfl rfl ?_ (fun q hq => ?_) (fun t q ht => by cases q <;> exact ht)
      (fun id' hid => by cases hid) (fun hstands => ?_) fun q m hm hsub => ?_
    · exact (content_udr_erase doc _).trans (if_pos rfl)
    · exact (content_udr_erase doc _).trans (if_neg hq)
    · cases hm : w.made (.udr doc) with
      | none =>
        obtain ⟨smRef, hp⟩ := h.allowed.asked _ hstands hm
        cases hp
      | some m => exact ⟨m, rfl, hown doc hdoc m hm⟩
    · obtain ⟨doc', rfl, hdoc'⟩ := hfits q m hm hsub
      cases hdoc.symm.trans hdoc'
      rfl

theorem withdrawn_smf (h : Kept N slas w) (hs : w.subs.lookup subId = some s) (happlied : s.applied = .smf)
    (hdone : smf.done)
    (hfound : ∀ smRef m, w.made (.smf smRef) = some m → m.subId = some subId → found = some smRef)
    (hown : ∀ smRef, found = some smRef → w.content (.smf smRef) ≠ none →
      ∃ m, w.made (.smf smRef) = some m ∧ m.subId = some subId) :
    Withdrawn N slas s.afId subId w
      (World.withdraw N s pcf udr smf found { w with subs := w.subs.erase subId }) := by
  have hfits : ∀ q m, w.made q = some m → m.subId = some subId →
      ∃ smRef session, q = .smf smRef ∧ w.smf.lookup smRef = some session ∧
        w.session s.supi s.dnn found = some (smRef, session) := fun q m hm hsub => by
    have hq := (h.fits q m subId s hm hsub hs).2
    cases q with
    | pcf id' => cases happlied.symm.trans hq
    | udr doc =>
      obtain ⟨id', hid, -⟩ := hq
      cases happlied.symm.trans hid
    | smf smRef =>
      have hstands := h.stands _ m hm
      cases hlookup : w.smf.lookup smRef with
      | none =>
        refine absurd ?_ hstands
        rw [content, hlookup]
        rfl
      | some session =>
        refine ⟨smRef, session, rfl, hlookup, ?_⟩
        simp only [World.session, hfound smRef m hm hsub, Option.bind_eq_bind, Option.bind_some, hlookup]
        rw [if_pos (hq.2 session hlookup)]
  unfold withdraw
  rw [happlied]
  dsimp only
  have hsame : World.session s.supi s.dnn found { w with subs := w.subs.erase subId } =
      w.session s.supi s.dnn found := rfl
  rw [hsame]
  cases hsession : w.session s.supi s.dnn found with
  | none =>
    refine withdrawn_none h fun q m hm hsub => ?_
    obtain ⟨smRef, session, -, -, hsession'⟩ := hfits q m hm hsub
    cases hsession.symm.trans hsession'
  | some e =>
    obtain ⟨smRef, session⟩ := e
    obtain ⟨hat, hlookup, -, -⟩ := session_eq_some hsession
    dsimp only
    rw [if_pos hdone]
    refine withdrawn_clear h hs rfl rfl rfl ?_ (fun q hq => ?_)
      (fun t q ht => by refine fits_smf_insert hlookup ?_ ?_ (by cases q <;> exact ht) <;> rfl)
      (fun id' hid => by cases hid) (hown smRef hat) fun q m hm hsub => ?_
    · exact (content_smf_insert smRef _ _).trans (if_pos rfl)
    · exact (content_smf_insert smRef _ _).trans (if_neg hq)
    · obtain ⟨smRef', session', rfl, -, hsession'⟩ := hfits q m hm hsub
      cases hsession.symm.trans hsession'
      rfl

theorem withdrawn_of_withdraws (h : Kept N slas w) (hs : w.subs.lookup subId = some s)
    (hwithdraws : Withdraws N w subId s pcf udr smf found) :
    Withdrawn N slas s.afId subId w
      (World.withdraw N s pcf udr smf found { w with subs := w.subs.erase subId }) := by
  unfold Withdraws at hwithdraws
  cases happlied : s.applied with
  | pcf id =>
    rw [happlied] at hwithdraws
    exact withdrawn_pcf h hs happlied hwithdraws
  | udr id =>
    rw [happlied] at hwithdraws
    exact withdrawn_udr h hs happlied hwithdraws.1 hwithdraws.2
  | smf =>
    rw [happlied] at hwithdraws
    exact withdrawn_smf h hs happlied hwithdraws.1 hwithdraws.2.1 hwithdraws.2.2

/-! ### One event -/

variable {presented : String} {keys : Map String String}

/-- What a request to create comes to. -/
theorem create_cases (N : Config) (w : World) (afId presented : String) (sub : TrafficInfluSub)
    (pcf udr smf : Reach) (found : Option String) :
    w.create N afId presented sub pcf udr smf found = w ∨
      ∃ plan, N.accept afId presented sub = .ok plan ∧
        (plan.supi = none ∧
            w.create N afId presented sub pcf udr smf found = w.createGroup N afId sub plan udr ∨
          ∃ supi, plan.supi = some supi ∧
            (w.create N afId presented sub pcf udr smf found = w.createAtSmf afId sub plan supi smf found ∨
              pcf ≠ .absent ∧
                w.create N afId presented sub pcf udr smf found = w.createAtPcf afId sub plan supi pcf)) := by
  unfold create
  cases N.accept afId presented sub with
  | error refusal => exact .inl rfl
  | ok plan =>
    dsimp only
    refine .inr ⟨plan, rfl, ?_⟩
    cases hsupi : plan.supi with
    | none => exact .inl ⟨rfl, rfl⟩
    | some supi =>
      refine .inr ⟨supi, rfl, ?_⟩
      cases pcf with
      | absent => exact .inl rfl
      | failed => exact .inr ⟨nofun, rfl⟩
      | unanswered => exact .inr ⟨nofun, rfl⟩
      | answered => exact .inr ⟨nofun, rfl⟩

theorem kept_create (hkeys : N.afKeys = some keys) (hslas : N.afSlas = some slas) (h : Kept N slas w)
    (hheeds : Heeds N w (.create afId presented sub pcf udr smf found)) :
    Kept N slas (w.create N afId presented sub pcf udr smf found) := by
  rcases create_cases N w afId presented sub pcf udr smf found with hsame | ⟨plan, hplan, hcases⟩
  · rw [hsame]
    exact h
  · obtain ⟨-, sla, hsla, hpermitted⟩ := accept_permitted hkeys hslas hplan
    obtain ⟨⟨hfresh, hunused⟩, hplace⟩ := hheeds plan hplan
    rcases hcases with ⟨hsupi, hcreate⟩ | ⟨supi, hsupi, hcreate | ⟨hpcf, hcreate⟩⟩
    · rw [hsupi] at hplace
      rw [hcreate]
      exact kept_createGroup h hsla hpermitted hsupi hfresh hunused fun doc hdoc => (hplace doc hdoc).2
    · rw [hcreate]
      exact kept_createAtSmf h hsla hpermitted hsupi hfresh hunused
    · rw [hsupi] at hplace
      rw [hcreate]
      exact kept_createAtPcf h hsla hpermitted hsupi hfresh hunused (hplace hpcf)

theorem confined_create (h : Kept N slas w) (hheeds : Heeds N w (.create afId presented sub pcf udr smf found)) :
    Confined N w (.create afId presented sub pcf udr smf found) := by
  intro q hq
  rcases create_cases N w afId presented sub pcf udr smf found with hsame | ⟨plan, hplan, hcases⟩
  · rw [hsame]
    exact .inl ⟨rfl, rfl⟩
  · obtain ⟨-, hplace⟩ := hheeds plan hplan
    rcases hcases with ⟨hsupi, hcreate⟩ | ⟨supi, hsupi, hcreate | ⟨hpcf, hcreate⟩⟩
    · rw [hsupi] at hplace
      rw [hcreate]
      exact confined_createGroup h (fun doc hdoc => (hplace doc hdoc).1) hq
    · rw [hcreate]
      exact .inl (unharmed_createAtSmf hq)
    · rw [hsupi] at hplace
      rw [hcreate]
      exact .inl (unharmed_createAtPcf (hplace hpcf) hq)

/-- A delete that takes nothing out changes nothing. -/
theorem withdrawn_delete (h : Kept N slas w)
    (hheeds : Heeds N w (.delete afId presented subId pcf udr smf found)) :
    w.delete N afId presented subId pcf udr smf found = w ∧
        ¬ (N.authorizeAf afId presented = .ok () ∧ w.owned subId afId ≠ none) ∨
      Withdrawn N slas afId subId w (w.delete N afId presented subId pcf udr smf found) := by
  unfold delete
  cases hkey : N.authorizeAf afId presented with
  | error refusal => exact .inl ⟨rfl, fun hno => nomatch hno.1⟩
  | ok _ =>
    cases howned : w.owned subId afId with
    | none => exact .inl ⟨rfl, fun hno => hno.2 rfl⟩
    | some s =>
      obtain ⟨hs, haf⟩ := owned_eq_some howned
      exact .inr (haf ▸ withdrawn_of_withdraws h hs (hheeds hkey s howned))

theorem kept_step (hkeys : N.afKeys = some keys) (hslas : N.afSlas = some slas) (e : Event)
    (hheeds : Heeds N w e) (h : Kept N slas w) : Kept N slas (w.step N e) := by
  cases e with
  | create afId presented sub pcf udr smf found => exact kept_create hkeys hslas h hheeds
  | delete afId presented subId pcf udr smf found =>
    rcases withdrawn_delete h hheeds with ⟨hsame, -⟩ | hwithdrawn
    · rw [World.step, hsame]
      exact h
    · exact hwithdrawn.kept
  | smPolicy =>
    refine h.aside rfl rfl rfl (fun q _ => ?_) (fun q _ => ?_) fun s q _ hs => ?_
    · cases q <;> rfl
    · cases q <;> rfl
    · cases q <;> exact hs
  | establish smRef supi dnn =>
    simp only [World.step]
    split
    · exact h
    · rename_i hnone
      rw [Bool.not_eq_true, Option.isSome_eq_false_iff, Option.isNone_iff_eq_none] at hnone
      have hfree : w.content (.smf smRef) = none := by
        rw [content, hnone]
        rfl
      have hunmade : ∀ q, w.made q ≠ none → q ≠ .smf smRef := by
        rintro q hq rfl
        obtain ⟨m, hm⟩ := Option.ne_none_iff_exists'.mp hq
        exact h.stands _ m hm hfree
      refine h.aside rfl rfl rfl (fun q hq => ?_) (fun q hq => ?_) fun s q hq hs => ?_
      · rw [content_smf_insert, if_neg (hunmade q hq)]
      · rw [content_smf_insert, if_neg (hq smRef)]
      · cases q with
        | pcf id => exact hs
        | udr doc => exact hs
        | smf r =>
          refine ⟨hs.1, fun session hsession => hs.2 session ?_⟩
          rwa [Keyed.Map.lookup_insert_eq, if_neg fun hr => hunmade _ hq (congrArg _ hr)] at hsession
  | release smRef =>
    refine h.clear (p := .smf smRef) rfl rfl rfl ?_ (fun q hq => ?_) (fun s q hs => ?_) fun i s id _ _ hp => ?_
    · simp [World.step, content]
    · cases q with
      | pcf id => rfl
      | udr doc => rfl
      | smf r =>
        have hr : r ≠ smRef := fun hr => hq (congrArg _ hr)
        simp [World.step, content, hr]
    · cases q with
      | pcf id => exact hs
      | udr doc => exact hs
      | smf r =>
        exact ⟨hs.1, fun session hsession => hs.2 session (Map.of_lookup_erase hsession).2⟩
    · cases hp
  | breakout smRef route =>
    simp only [World.step]
    cases hm : w.made (.smf smRef) with
    | some m => exact h
    | none =>
      have hne : ∀ q, w.made q ≠ none → q ≠ .smf smRef := by
        rintro q hq rfl
        exact hq hm
      refine h.aside rfl rfl rfl (fun q hq => ?_) (fun q hq => ?_) fun s q hq hs => ?_
      · cases q with
        | pcf id => rfl
        | udr doc => rfl
        | smf r =>
          have hr : r ≠ smRef := fun hr => hne _ hq (congrArg _ hr)
          simp [content, Keyed.Map.lookup_modify, hr]
      · cases q with
        | pcf id => rfl
        | udr doc => rfl
        | smf r => exact absurd rfl (hq r)
      · cases q with
        | pcf id => exact hs
        | udr doc => exact hs
        | smf r =>
          have hr : r ≠ smRef := fun hr => hne _ hq (congrArg _ hr)
          refine ⟨hs.1, fun session hsession => hs.2 session ?_⟩
          rwa [Keyed.Map.lookup_modify, if_neg hr] at hsession

theorem confined_step (e : Event) (h : Kept N slas w) (hheeds : Heeds N w e) : Confined N w e := by
  cases e with
  | create afId presented sub pcf udr smf found => exact confined_create h hheeds
  | delete afId presented subId pcf udr smf found =>
    rcases withdrawn_delete h hheeds with ⟨hsame, hno⟩ | hwithdrawn
    · refine ⟨fun q _ => .inl ?_, fun hkey howned => absurd ⟨hkey, howned⟩ hno⟩
      rw [hsame]
      exact ⟨rfl, rfl⟩
    · exact ⟨hwithdrawn.others, fun _ _ => hwithdrawn.own⟩
  | smPolicy => trivial
  | establish smRef supi dnn => trivial
  | release smRef => trivial
  | breakout smRef route => trivial

/-! ### Requests for different documents -/

/-- A group's influence is asked for, which goes to the document. -/
def Event.Stores (N : Config) (doc afId : String) (sub : TrafficInfluSub) : Event → Prop
  | .create afId' presented sub' _ _ _ _ => afId' = afId ∧ sub' = sub ∧ ∃ plan,
      N.accept afId presented sub = .ok plan ∧ plan.supi = none ∧
        N.document (influenceId sub plan.trafficPrefix) = some doc
  | _ => False

/-- One of the requests stores it. -/
def Stored (N : Config) (es : List Event) (doc afId : String) (sub : TrafficInfluSub) : Prop :=
  ∃ e ∈ es, e.Stores N doc afId sub

/-- What goes to one document is asked for by one AF and for one target. -/
def Apart (N : Config) (es : List Event) : Prop :=
  ∀ doc afId afId' sub sub', Stored N es doc afId sub → Stored N es doc afId' sub' →
    afId' = afId ∧ target sub' = target sub

/-- What `Heeds` asks of the document that an event goes to. -/
def Own (N : Config) (w : World) (e : Event) : Prop :=
  ∀ doc afId sub, e.Stores N doc afId sub →
    (∀ m, w.made (.udr doc) = some m → m.afId = afId ∧ target m.sub = target sub) ∧
      ∀ i s id, w.subs.lookup i = some s → s.applied = .udr id → N.document id = some doc →
        (w.asked i).map target = some (target sub)

/-- What stands in documents, and what subscriptions stored there, comes of the events. -/
structure ComesOf (N : Config) (es : List Event) (w : World) : Prop where
  made : ∀ doc m, w.made (.udr doc) = some m → Stored N es doc m.afId m.sub
  asked : ∀ i s id doc, w.subs.lookup i = some s → s.applied = .udr id → N.document id = some doc →
    ∃ sub ∈ w.asked i, Stored N es doc s.afId sub

namespace ComesOf

variable {es : List Event}

theorem record (h : ComesOf N es w) (hmade : ∀ doc, place = .udr doc → Stored N es doc afId sub)
    (hasked : ∀ id doc, applied = .udr id → N.document id = some doc → Stored N es doc afId sub) :
    ComesOf N es (w.record afId sub applied place reach) := by
  refine ⟨fun doc m hm => ?_, fun i s id doc hi hid hdoc => ?_⟩
  · rw [made_record] at hm
    obtain ⟨hplace, rfl⟩ | ⟨-, hm⟩ := Keyed.of_update_some hm
    · exact hmade doc hplace.symm
    · exact h.made doc m hm
  · cases reach with
    | answered =>
      dsimp only [World.record] at hi ⊢
      obtain ⟨rfl, rfl⟩ | ⟨hne, hi⟩ := Map.of_lookup_insert hi
      · exact ⟨sub, Function.update_self .., hasked id doc hid hdoc⟩
      · rw [Function.update_of_ne hne]
        exact h.asked i s id doc hi hid hdoc
    | _ => exact h.asked i s id doc hi hid hdoc

theorem clear (h : ComesOf N es w) {p : Place} (hmade : w'.made = Function.update w.made p none)
    (hsubs : w'.subs = w.subs) (hasked : w'.asked = w.asked) : ComesOf N es w' := by
  refine ⟨fun doc m hm => ?_, by rw [hsubs, hasked]; exact h.asked⟩
  rw [hmade] at hm
  exact h.made doc m (Keyed.of_update_none hm).2

theorem withdraw (h : ComesOf N es w) (s : Subscription) (pcf udr smf : Reach) (found : Option String) :
    ComesOf N es (w.withdraw N s pcf udr smf found) := by
  unfold World.withdraw
  split <;> split
  all_goals try split
  all_goals first
    | exact h
    | exact h.clear rfl rfl rfl

theorem step (h : ComesOf N es w) {e : Event} (he : e ∈ es) : ComesOf N es (w.step N e) := by
  cases e with
  | create afId presented sub pcf udr smf found =>
    rw [World.step]
    rcases create_cases N w afId presented sub pcf udr smf found with hsame | ⟨plan, hplan, hcases⟩
    · rwa [hsame]
    · rcases hcases with ⟨hsupi, hcreate⟩ | ⟨supi, hsupi, hcreate | ⟨-, hcreate⟩⟩
      · have hstored : ∀ doc, N.document (influenceId sub plan.trafficPrefix) = some doc →
            Stored N es doc afId sub := fun doc hdoc => ⟨_, he, rfl, rfl, plan, hplan, hsupi, hdoc⟩
        rw [hcreate, createGroup]
        split
        · split
          · exact h
          · rename_i doc hdoc
            refine record ⟨h.made, h.asked⟩ (fun doc' hplace => ?_) fun id doc' hid hdoc' => ?_
            · cases hplace
              exact hstored doc hdoc
            · cases hid
              exact hstored doc' hdoc'
        · exact h
      · rw [hcreate, createAtSmf]
        split
        · exact h
        · split
          · exact record ⟨h.made, h.asked⟩ nofun nofun
          · exact h
      · rw [hcreate, createAtPcf]
        split
        · exact record ⟨h.made, h.asked⟩ nofun nofun
        · exact h
  | delete afId presented subId pcf udr smf found =>
    rw [World.step, World.delete]
    split
    · exact h
    · split
      · exact h
      · have hleft : ComesOf N es { w with subs := w.subs.erase subId } :=
          ⟨h.made, fun i s id doc hi => h.asked i s id doc (Map.of_lookup_erase hi).2⟩
        exact hleft.withdraw _ _ _ _ _
  | smPolicy => exact ⟨h.made, h.asked⟩
  | release smRef => exact h.clear (p := .smf smRef) rfl rfl rfl
  | _ =>
    rw [World.step]
    split
    · exact h
    · exact ⟨h.made, h.asked⟩

end ComesOf

/-- Where no group requests of different AFs or for different targets go to one document, `Heeds` need not be asked
of documents. -/
theorem heeds_of_apart (hw : w.Started) {es : List Event} (hapart : Apart N es)
    (hes : Runs.Along (World.step N) (fun w e => Own N w e → Heeds N w e) w es) :
    Runs.Along (World.step N) (Heeds N) w es := by
  have hstart : ComesOf N es w := by
    refine ⟨fun doc m hm => ?_, fun i s id doc hi => ?_⟩
    · cases (hw.made _).symm.trans hm
    · rw [hw.subs] at hi
      cases hi
  refine Runs.along_imp (P := fun w e => e ∈ es ∧ (Own N w e → Heeds N w e)) (fun w e he h => h.step he.1)
    (fun w e h he => he.2 fun doc afId sub hstores => ⟨fun m hm => ?_, fun i s id hi hid hdoc => ?_⟩) hstart
    (Runs.along_and.mpr ⟨Runs.along_of_mem fun _ he => he, hes⟩)
  · exact hapart doc _ _ _ _ ⟨e, he.1, hstores⟩ (h.made doc m hm)
  · obtain ⟨sub', hsub', hstored⟩ := h.asked i s id doc hi hid hdoc
    rw [hsub', Option.map_some, (hapart doc _ _ _ _ ⟨e, he.1, hstores⟩ hstored).2]

/-! ### Every run -/

/-- An AF affects only its own influences, and only within its agreement. -/
theorem contained (hkeys : N.afKeys = some keys) (hslas : N.afSlas = some slas) (hw : w.Started)
    (es : List Event) (hes : Runs.Along (World.step N) (Heeds N) w es) :
    Runs.Along (World.step N) (Confined N) w es ∧ Allowed slas (Runs.run (World.step N) w es) ∧
      Folded slas (Runs.run (World.step N) w es) ∧ Separate N (Runs.run (World.step N) w es) := by
  have hstep : ∀ w e, Heeds N w e → Kept N slas w → Kept N slas (w.step N e) := fun w e hheeds h =>
    kept_step hkeys hslas e hheeds h
  have hkept : Kept N slas (Runs.run (World.step N) w es) :=
    Runs.invariant_along hstep hes (hw.kept N slas)
  refine ⟨?_, hkept.allowed, hkept.folded, hkept.separate⟩
  exact Runs.along_imp hstep (fun w e h hheeds => confined_step e h hheeds) (hw.kept N slas) hes

/-! ### A run that is contained and one that is not -/

def sampleKeys : Map String String := (∅ : Map String String).insert "af-1" "key-1" |>.insert "af-2" "key-2"

/-- Two AFs, each for any UE on a DNN of its own. -/
def sampleSlas : Map String AfSla :=
  (∅ : Map String AfSla).insert "af-1" { dnns := ["internet"], dnais := ["edge-1"], allowGroup := true }
    |>.insert "af-2" { dnns := ["ims"], dnais := ["edge-2"], allowGroup := true }

def sampleConfig : Config := { afKeys := some sampleKeys, afSlas := some sampleSlas }

def sampleWorld : World :=
  { pcf :=
      { config := { perDnn := ∅, default := {} }, udr := true, associations := ∅, nextId := 1
        influences := ∅ } }

/-- An influence on any UE. -/
def anyUe (dnn dnai : String) : TrafficInfluSub :=
  { dnn := some dnn, trafficRoutes := [⟨dnai⟩], trafficPrefix := some "10.0.0.0/8", anyUeInd := true }

/-- The same on another network. -/
def elsewhere : TrafficInfluSub := { anyUe "ims" "edge-2" with trafficPrefix := some "192.168.0.0/16" }

/-- Beside another AF's influence, which stands, one is asked for and given up. -/
def comesAndGoes : List Event :=
  [.create "af-2" "key-2" elsewhere .answered .answered .answered none,
    .create "af-1" "key-1" (anyUe "internet" "edge-1") .answered .answered .answered none,
    .delete "af-1" "key-1" "sub-2" .answered .answered .answered none]

/-- Two AFs ask for one prefix, each on its own DNN. -/
def collides : List Event :=
  [.create "af-1" "key-1" (anyUe "internet" "edge-1") .answered .answered .answered none,
    .create "af-2" "key-2" (anyUe "ims" "edge-2") .answered .answered .answered none]

theorem started_sampleWorld : sampleWorld.Started := ⟨rfl, rfl, rfl, fun _ => rfl⟩

theorem made_elsewhere {p : Place} {m : Made}
    (hm : (Runs.run (World.step sampleConfig) sampleWorld (comesAndGoes.take 1)).made p = some m) :
    p = .udr "any-ue-192_168_0_0_16" ∧ m.subId = some "sub-1" := by
  have hmade : (Runs.run (World.step sampleConfig) sampleWorld (comesAndGoes.take 1)).made =
      Function.update sampleWorld.made (.udr "any-ue-192_168_0_0_16")
        (some ⟨"af-2", elsewhere, some "sub-1"⟩) := rfl
  rw [hmade, Function.update_apply] at hm
  split at hm
  · rename_i hp
    cases hm
    exact ⟨hp, rfl⟩
  · cases hm

theorem contained_sample :
    Runs.Along (World.step sampleConfig) (Confined sampleConfig) sampleWorld comesAndGoes ∧
      Allowed sampleSlas (Runs.run (World.step sampleConfig) sampleWorld comesAndGoes) ∧
        Folded sampleSlas (Runs.run (World.step sampleConfig) sampleWorld comesAndGoes) ∧
          Separate sampleConfig (Runs.run (World.step sampleConfig) sampleWorld comesAndGoes) := by
  refine contained rfl rfl started_sampleWorld comesAndGoes ⟨fun plan hplan => ⟨⟨rfl, nofun⟩, ?_⟩,
    fun plan hplan => ⟨⟨rfl, fun p m hm => ?_⟩, ?_⟩, fun _ s hs => ?_, trivial⟩
  · have hplan' : sampleConfig.accept "af-2" "key-2" elsewhere =
        .ok { trafficPrefix := "192.168.0.0/16", dnai := "edge-2", supi := none } := by decide +kernel
    cases hplan.symm.trans hplan'
    exact fun doc _ => ⟨nofun, fun i s id hi => nomatch hi⟩
  · rw [(made_elsewhere hm).2]
    decide +kernel
  · have hplan' : sampleConfig.accept "af-1" "key-1" (anyUe "internet" "edge-1") =
        .ok { trafficPrefix := "10.0.0.0/8", dnai := "edge-1", supi := none } := by decide +kernel
    cases hplan.symm.trans hplan'
    have hdoc' : sampleConfig.document (influenceId (anyUe "internet" "edge-1") "10.0.0.0/8") =
        some "any-ue-10_0_0_0_8" := by decide +kernel
    intro doc hdoc
    cases hdoc.symm.trans hdoc'
    refine ⟨fun m hm => absurd (made_elsewhere hm).1 (by decide), fun i s id hi hs hid => ?_⟩
    have hi' : (⟨i, s⟩ : Sigma fun _ : String => Subscription) ∈
        [⟨"sub-1", "af-2", "", some "ims", .udr "any-ue-192_168_0_0_16"⟩] := Keyed.Map.lookup_eq_some_iff.mp hi
    cases List.mem_singleton.mp hi'
    cases hs
    exact absurd hid (by decide +kernel)
  · have hs' : (Runs.run (World.step sampleConfig) sampleWorld (comesAndGoes.take 2)).owned "sub-2" "af-1" =
        some ⟨"af-1", "", some "internet", .udr "any-ue-10_0_0_0_8"⟩ := by decide +kernel
    cases hs.symm.trans hs'
    refine ⟨rfl, fun doc hdoc m hm => ?_⟩
    cases hdoc
    have hm' : (Runs.run (World.step sampleConfig) sampleWorld (comesAndGoes.take 2)).made
        (.udr "any-ue-10_0_0_0_8") = some ⟨"af-1", anyUe "internet" "edge-1", some "sub-2"⟩ := by decide +kernel
    cases hm.symm.trans hm'
    rfl

/-- **One document for two.** The second AF's influence replaces the first one's. -/
theorem not_contained : ¬ ∀ es : List Event,
    Runs.Along (World.step sampleConfig) (Confined sampleConfig) sampleWorld es ∧
      Separate sampleConfig (Runs.run (World.step sampleConfig) sampleWorld es) := by
  intro h
  obtain ⟨⟨-, hconfined, -⟩, -⟩ := h collides
  have hbefore : (Runs.run (World.step sampleConfig) sampleWorld (collides.take 1)).content
      (.udr "any-ue-10_0_0_0_8") = some (.document (influenceDoc (anyUe "internet" "edge-1") "10.0.0.0/8"
        "edge-1")) := by decide +kernel
  have hafter : (Runs.run (World.step sampleConfig) sampleWorld collides).content
      (.udr "any-ue-10_0_0_0_8") = some (.document (influenceDoc (anyUe "ims" "edge-2") "10.0.0.0/8"
        "edge-2")) := by decide +kernel
  have hmade : (Runs.run (World.step sampleConfig) sampleWorld (collides.take 1)).made
      (.udr "any-ue-10_0_0_0_8") = some ⟨"af-1", anyUe "internet" "edge-1", some "sub-1"⟩ := by decide +kernel
  rcases hconfined (.udr "any-ue-10_0_0_0_8") (hbefore ▸ Option.some_ne_none _) with
    ⟨hsame, -⟩ | ⟨m, hm, haf, -⟩
  · have hdocs := hafter.symm.trans (hsame.trans hbefore)
    exact absurd (Option.some_inj.mp hdocs) (by decide +kernel)
  · cases hm.symm.trans hmade
    exact absurd haf (by decide)

end Radian.Nef
