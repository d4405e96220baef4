import Radian.Mobility.Custody
import Radian.Proc.Ledger
import Mathlib.Algebra.Group.Prod
import Mathlib.Algebra.Order.Group.Multiset

/-!
# Safekeeping

No run of careful steps loses a context, on any number of associations that hand contexts to each
other, register, release, retain, resume and deregister them.

- `custodyLedger` — what a task holds: the contexts of its association, and the replies it awaits.
- `Minds` — a handler that keeps account of the contexts of its task.
- `custody_kept` — every context is in exactly one place throughout.
- `custody_lost` — without care it is not: a reply that comes too late takes its context with it.
-/

namespace Radian.Mobility

open Amf (AmfUeId Tmsi Channel UeContext Association)
open Security (Bytes)
open Proc (wp)

variable {nh : Bytes → Bytes → Bytes}

/-- What a task holds: the contexts of its association, and the replies it waits for. -/
def custodyLedger (nh : Bytes → Bytes → Bytes) :
    Ledger Association Shared Mark Call (List Mark) (Multiset AmfUeId × Multiset Nat) where
  inv m := Held nh m.1 m.2
  own l e := (l.ues.keys, ((e.map Call.asks).getD [] : List Nat))
  allow := Careful nh
  later w w' := w ⊆ w'

theorem custody_grows : (custodyLedger nh).Grows outside where
  refl := List.Subset.refl
  trans := List.Subset.trans
  mark n _ _ w := List.subset_cons_self n w
  effect e r w := by
    cases e with
    | nextReply asks => exact List.subset_cons_self _ w
    | _ => exact List.Subset.refl w

/-- What is left when a process is through, whatever it held, is what its task holds idle. -/
def Minds (nh : Bytes → Bytes → Bytes) {α : Type} (t : MobilityM α) : Prop :=
  ∀ f l s w, Held nh (f.1 + (l.ues.keys : Multiset AmfUeId)) f.2 s w →
    wp ((custodyLedger nh).reading outside) t
      (fun _ l' s' x => Held nh (x.1.1 + (l'.ues.keys : Multiset AmfUeId)) x.1.2 s' x.2) l s (f, w)

/-! ### Rules -/

section Rules

variable {α β : Type}

theorem minds_pure (a : α) : Minds nh (pure a : MobilityM α) := fun _ _ _ _ h => h

theorem minds_bind {t : MobilityM α} {k : α → MobilityM β} (ht : Minds nh t)
    (hk : ∀ a, Minds nh (k a)) : Minds nh (t >>= k) := by
  intro f l s w h
  rw [Proc.wp_bind]
  refine Proc.wp_mono ((custodyLedger nh).reading_monotone outside) ?_ (ht f l s w h)
  exact fun a l' s' x hx => hk a x.1 l' s' x.2 hx

theorem minds_look (g : Association → Shared → α) : Minds nh (Proc.look g : MobilityM α) :=
  fun _ _ _ _ h => h

theorem minds_changeLocal {g : Association → Association}
    (hg : ∀ l, (g l).ues.keys.Perm l.ues.keys) :
    Minds nh (Proc.changeLocal g : MobilityM Unit) := by
  intro f l s w h
  rw [Proc.wp_changeLocal, Multiset.coe_eq_coe.mpr (hg l)]
  exact h

/-- A section on the tables that handlers share. -/
theorem minds_change {g : Shared → Shared} (hcommands : ∀ s, (g s).commands = s.commands)
    (hreply : ∀ s, (g s).nextReply = s.nextReply)
    (hretained : ∀ s tmsi, ((g s).tables.retained.lookup tmsi).isSome ↔
      (s.tables.retained.lookup tmsi).isSome) : Minds nh (Proc.change g : MobilityM Unit) :=
  fun _ _ s _ h => h.of_same (hcommands s ▸ List.Subset.refl _) (hreply s) (hretained s)

theorem minds_actShared {g : Shared → α × Shared} (hcommands : ∀ s, (g s).2.commands = s.commands)
    (hreply : ∀ s, (g s).2.nextReply = s.nextReply)
    (hretained : ∀ s tmsi, ((g s).2.tables.retained.lookup tmsi).isSome ↔
      (s.tables.retained.lookup tmsi).isSome) : Minds nh (Proc.actShared g : MobilityM α) :=
  fun _ _ s _ h => h.of_same (hcommands s ▸ List.Subset.refl _) (hreply s) (hretained s)

theorem minds_mark {n : Mark} (hn : n.ofCustody = false) : Minds nh (Proc.mark n : MobilityM Unit) :=
  fun _ _ _ _ h _ => h.note hn

/-- A call that waits for no reply. -/
theorem minds_ask {e : Call} (he : ∀ asks, e ≠ .nextReply asks) :
    Minds nh (Proc.ask e : MobilityM e.Answer) := by
  intro f l s w h
  have hown : (custodyLedger nh).own l (some e) =
      ((l.ues.keys : Multiset AmfUeId), (0 : Multiset Nat)) := by
    cases e with
    | nextReply asks => exact absurd rfl (he asks)
    | _ => rfl
  rw [Proc.wp_ask, Ledger.reading_call, hown]
  have hinv : ∀ f' s' w', (custodyLedger nh).inv (f' + ((l.ues.keys : Multiset AmfUeId), 0)) s' w' ↔
      Held nh (f'.1 + (l.ues.keys : Multiset AmfUeId)) f'.2 s' w' := by
    intro f' s' w'
    simp [custodyLedger]
  refine ⟨(hinv f s w).mpr h, fun f' s' w' _ h' r _ => ?_⟩
  have hsame : outside.effect e r w' = w' := by
    cases e with
    | nextReply asks => exact absurd rfl (he asks)
    | _ => rfl
  rw [hsame]
  exact (hinv f' s' w').mp h'

theorem minds_forEach {body : β → MobilityM Unit} (h : ∀ b, Minds nh (body b)) (bs : List β) :
    Minds nh (Proc.forEach body bs) := by
  induction bs with
  | nil => exact minds_pure ()
  | cons b bs ih => exact minds_bind (h b) fun _ => ih

end Rules

/-! ### Helpers -/

theorem minds_getUe (amfUeId : AmfUeId) : Minds nh (getUe amfUeId) := minds_look _

theorem minds_ownTx : Minds nh ownTx := minds_look _

theorem minds_modifyUe (amfUeId : AmfUeId) (g : UeContext → UeContext) :
    Minds nh (modifyUe amfUeId g) :=
  minds_changeLocal fun l => Keyed.Map.keys_modify l.ues amfUeId g

theorem minds_forward (tx : Channel) (pdu : Downlink) : Minds nh (forward tx pdu) := minds_mark rfl

theorem minds_send (pdu : Option Downlink) : Minds nh (send pdu) := by
  cases pdu with
  | none => exact minds_pure ()
  | some pdu => exact minds_mark rfl

theorem minds_address (amfUeId : AmfUeId) (c : UeContext) : Minds nh (address amfUeId c) := by
  unfold address
  refine minds_bind minds_ownTx fun tx => ?_
  cases c.suci with
  | none => exact minds_pure ()
  | some supi => exact minds_change (fun _ => rfl) (fun _ => rfl) fun _ _ => Iff.rfl

theorem minds_fetchSessions (c : UeContext) (psis : List UInt8) :
    Minds nh (fetchSessions c psis) := by
  induction psis with
  | nil => exact minds_pure _
  | cons psi psis ih =>
    unfold fetchSessions
    split
    · exact ih
    · refine minds_bind (minds_ask (by simp)) fun created => ?_
      cases created with
      | none => exact ih
      | some created => exact minds_bind ih fun _ => minds_pure _

theorem minds_repoint (amfUeId : AmfUeId) (session : UInt8 × Fteid) :
    Minds nh (repoint amfUeId session) := by
  unfold repoint
  refine minds_bind (minds_getUe amfUeId) fun c => ?_
  split
  · exact minds_pure _
  · exact minds_ask (by simp)

theorem minds_release (p : PendingHandover) : Minds nh (releaseIndirectForwarding p) := by
  unfold releaseIndirectForwarding
  split
  · exact minds_forEach (fun session => minds_bind (minds_mark rfl) fun _ =>
      minds_bind (minds_ask (by simp)) fun _ => minds_pure _) _
  · exact minds_pure ()

theorem minds_releaseTarget (amfUeId : AmfUeId) (p : PendingHandover) (cause : RadioCause) :
    Minds nh (releaseTarget amfUeId p cause) := by
  unfold releaseTarget
  split
  · exact minds_forward _ _
  · exact minds_pure ()

theorem minds_forwardingPaths (p : PendingHandover) (as : List Admitted) :
    Minds nh (forwardingPaths p as) := by
  induction as with
  | nil => exact minds_pure _
  | cons a as ih =>
    unfold forwardingPaths
    cases a.forwarding with
    | none => exact ih
    | some target =>
      dsimp only
      split
      · exact minds_bind ih fun _ => minds_pure _
      · cases p.session a.psi with
        | none => exact ih
        | some c =>
          refine minds_bind (minds_ask (by simp)) fun ingress => ?_
          cases ingress with
          | none => exact ih
          | some ingress =>
            exact minds_bind (minds_mark rfl) fun _ => minds_bind ih fun _ => minds_pure _

theorem minds_removeHandover (amfUeId : AmfUeId) : Minds nh (removeHandover amfUeId) :=
  minds_actShared (fun _ => rfl) (fun _ => rfl) fun _ _ => Iff.rfl

/-! ### Handovers -/

theorem minds_onHandoverRequired (params : Option HandoverRequired) :
    Minds nh (onHandoverRequired nh params) := by
  cases params with
  | none => exact minds_pure _
  | some req =>
    refine minds_bind (minds_getUe _) fun c => ?_
    cases c with
    | none => exact minds_pure _
    | some c =>
      dsimp only
      cases c.freshPair nh with
      | none => exact minds_pure _
      | some pair =>
        refine minds_bind (minds_look _) fun target => ?_
        cases target with
        | none => exact minds_pure _
        | some targetTx =>
          refine minds_bind (minds_fetchSessions c _) fun sessions =>
            minds_bind minds_ownTx fun tx => minds_bind ?_ fun _ =>
            minds_bind (minds_forward _ _) fun _ => minds_pure _
          exact minds_bind (minds_look _) fun number => minds_bind (minds_mark rfl) fun _ =>
            minds_change (fun _ => rfl) (fun _ => rfl) fun _ _ => Iff.rfl

theorem minds_onHandoverRequestAck (params : Option HandoverRequestAcknowledge) :
    Minds nh (onHandoverRequestAck params) := by
  cases params with
  | none => exact minds_pure _
  | some ack =>
    refine minds_bind (minds_look _) fun pending => ?_
    cases pending with
    | none => exact minds_pure _
    | some p =>
      refine minds_bind (minds_mark rfl) fun _ =>
        minds_bind (minds_change (fun _ => rfl) (fun _ => rfl) fun _ _ => Iff.rfl) fun _ => ?_
      refine minds_bind (minds_forwardingPaths p _) fun paths => ?_
      exact minds_bind (minds_change (fun _ => rfl) (fun _ => rfl) fun _ _ => Iff.rfl) fun _ =>
        minds_bind (minds_mark rfl) fun _ => minds_forward _ _

theorem minds_onHandoverFailure (params : Option HandoverFailure) :
    Minds nh (onHandoverFailure params) := by
  cases params with
  | none => exact minds_pure _
  | some failure =>
    refine minds_bind (minds_removeHandover _) fun p => ?_
    cases p with
    | none => exact minds_pure _
    | some p => exact minds_bind (minds_mark rfl) fun _ => minds_forward _ _

theorem minds_onHandoverCancel (params : Option HandoverCancel) :
    Minds nh (onHandoverCancel params) := by
  cases params with
  | none => exact minds_pure _
  | some cancel =>
    refine minds_bind (minds_removeHandover _) fun p => ?_
    cases p with
    | none => exact minds_pure _
    | some p =>
      exact minds_bind (minds_mark rfl) fun _ =>
        minds_bind (minds_releaseTarget _ p _) fun _ =>
        minds_bind (minds_release p) fun _ => minds_pure _

theorem minds_onTimer (t : Timer) : Minds nh (onTimer t) := by
  refine minds_bind (minds_mark rfl) fun _ =>
    minds_bind (minds_change (fun _ => rfl) (fun _ => rfl) fun _ _ => Iff.rfl) fun _ => ?_
  cases t.kind with
  | prep =>
    refine minds_bind (minds_actShared ?_ ?_ ?_) fun p => ?_
    · intro s
      split <;> (try split) <;> rfl
    · intro s
      split <;> (try split) <;> rfl
    · intro s tmsi
      split <;> (try split) <;> rfl
    · cases p with
      | none => exact minds_pure _
      | some p => exact minds_bind (minds_mark rfl) fun _ => minds_forward _ _
  | overall =>
    refine minds_bind (minds_removeHandover _) fun p => ?_
    cases p with
    | none => exact minds_pure _
    | some p =>
      exact minds_bind (minds_mark rfl) fun _ =>
        minds_bind (minds_releaseTarget _ p _) fun _ => minds_release p

/-! ### Handing over -/

variable {f : Multiset AmfUeId × Multiset Nat} {l : Association} {w : List Mark} {s : Shared}

/-- A call for replies: what this task awaits is what it waits for. -/
theorem reading_nextReply {K : Nat × Option UeContext → Association → Shared →
    (Multiset AmfUeId × Multiset Nat) × List Mark → Prop} {asks : List Nat}
    (h : Held nh (f.1 + (l.ues.keys : Multiset AmfUeId)) (f.2 + (asks : Multiset Nat)) s w)
    (hk : ∀ f' s' w', w ⊆ w' →
      Held nh (f'.1 + (l.ues.keys : Multiset AmfUeId)) (f'.2 + (asks : Multiset Nat)) s' w' →
      ∀ r c, outside.answers (Call.nextReply asks) w' (r, c) = true →
        K (r, c) l s' (f', .received r c :: w')) :
    ((custodyLedger nh).reading outside).call (Call.nextReply asks) K l s (f, w) :=
  ⟨h, fun f' s' w' hlater h' r hr => hk f' s' w' hlater h' r.1 r.2 hr⟩

/-- What a reply is: one of those waited for; and the context that was sent, if one was. -/
theorem answers_nextReply {asks : List Nat} {r : Nat} {c : Option UeContext}
    (h : outside.answers (Call.nextReply asks) w (r, c) = true) :
    r ∈ asks ∧ (∀ c', c = some c' → oneshot r w = .replied (some c')) ∧
      (c = none → ∀ c', oneshot r w ≠ .replied (some c')) := by
  simp only [outside, Bool.and_eq_true, List.contains_eq_mem, decide_eq_true_eq] at h
  refine ⟨h.1, ?_, ?_⟩
  · rintro c' rfl
    have hsent := h.2
    split at hsent
    · rename_i sent hstate
      rw [hstate, ← beq_iff_eq.mp hsent]
    · simp at hsent
  · rintro rfl c' hstate
    have hsent := h.2
    rw [hstate] at hsent
    simp at hsent

/-- Asking leaves this task with a channel more. -/
theorem wp_askUe {ids : Multiset AmfUeId} {asks : Multiset Nat} (h : Held nh ids asks s w)
    (amfUeId : AmfUeId) (tx : Channel) :
    wp ((custodyLedger nh).reading outside) (askUe amfUeId tx)
      (fun r l' s' x => l' = l ∧ x.1 = f ∧ w ⊆ x.2 ∧ .asking r amfUeId ∈ x.2 ∧
        Held nh ids (r ::ₘ asks) s' x.2) l s (f, w) := by
  simp only [askUe, Proc.wp_bind, Proc.wp_actShared, Proc.wp_mark, Ledger.reading_note, Proc.wp_pure]
  exact fun _ => ⟨trivial, trivial, List.subset_cons_self _ w, List.mem_cons_self, h.ask tx amfUeId⟩

theorem wp_askAll {ids : Multiset AmfUeId} {asks : Multiset Nat} (h : Held nh ids asks s w)
    (amfUeId : AmfUeId) (txs : List Channel) :
    wp ((custodyLedger nh).reading outside) (askAll amfUeId txs)
      (fun rs l' s' x => l' = l ∧ x.1 = f ∧ w ⊆ x.2 ∧ (∀ r ∈ rs, .asking r amfUeId ∈ x.2) ∧
        Held nh ids (asks + (rs : Multiset Nat)) s' x.2) l s (f, w) := by
  have hmono := (custodyLedger nh).reading_monotone outside
  induction txs generalizing asks s w with
  | nil =>
    refine ⟨rfl, rfl, List.Subset.refl w, fun r hr => absurd hr List.not_mem_nil, ?_⟩
    rw [Multiset.coe_nil, add_zero]
    exact h
  | cons tx txs ih =>
    simp only [askAll, Proc.wp_bind]
    refine Proc.wp_mono hmono ?_ (wp_askUe (f := f) (l := l) h amfUeId tx)
    rintro r l' s' ⟨f', w'⟩ ⟨rfl, rfl, hw, hasked, h'⟩
    rw [Proc.wp_bind]
    refine Proc.wp_mono hmono ?_ (ih h')
    rintro rs l'' s'' ⟨f'', w''⟩ ⟨rfl, rfl, hw', hall, h''⟩
    refine ⟨rfl, rfl, List.Subset.trans hw hw', ?_, ?_⟩
    · intro r' hr'
      obtain rfl | hr' := List.mem_cons.mp hr'
      · exact hw' hasked
      · exact hall r' hr'
    · rw [Multiset.cons_add, ← Multiset.add_cons] at h''
      exact h''

/-- Of the replies that are awaited the first context, if any; then none is awaited any more. -/
theorem wp_firstTaken {amfUeId : AmfUeId} {n : Nat} {asks : List Nat} (hn : n = asks.length)
    (h : Held nh (f.1 + (l.ues.keys : Multiset AmfUeId)) (f.2 + (asks : Multiset Nat)) s w)
    (hasked : ∀ r ∈ asks, .asking r amfUeId ∈ w) :
    wp ((custodyLedger nh).reading outside) (firstTaken n asks)
      (fun c l' s' x => l' = l ∧
        Held nh ((if c.isSome then {amfUeId} else 0) + (x.1.1 + (l.ues.keys : Multiset AmfUeId)))
          x.1.2 s' x.2) l s (f, w) := by
  induction n generalizing asks f s w with
  | zero =>
    obtain rfl := List.length_eq_zero_iff.mp hn.symm
    refine ⟨rfl, ?_⟩
    rw [Multiset.coe_nil, add_zero] at h
    simpa using h
  | succ n ih =>
    simp only [firstTaken, Proc.wp_bind, Proc.wp_ask]
    refine reading_nextReply h fun f' s' w' hw h' r c hr => ?_
    obtain ⟨hmem, hsome, hnone⟩ := answers_nextReply hr
    have hin : r ∈ f'.2 + (asks : Multiset Nat) := Multiset.mem_add.mpr (.inr hmem)
    have hrest : (f'.2 + (asks : Multiset Nat)).erase r =
        f'.2 + ((asks.erase r : List Nat) : Multiset Nat) := by
      rw [Multiset.erase_add_right_pos _ (Multiset.mem_coe.mpr hmem), Multiset.coe_erase]
    cases c with
    | none =>
      have hmissed := h'.miss hin (hnone rfl)
      rw [hrest] at hmissed
      refine ih ?_ hmissed fun r' hr' => ?_
      · rw [List.length_erase_of_mem hmem]
        omega
      · exact List.mem_cons_of_mem _ (hw (hasked r' (List.mem_of_mem_erase hr')))
    | some c =>
      have hreceived := h'.receive hin (hsome c rfl) (hw (hasked r hmem))
      rw [hrest] at hreceived
      simp only [Proc.wp_bind, Proc.wp_mark, Ledger.reading_note, Proc.wp_pure]
      intro _
      refine ⟨trivial, ?_⟩
      have habandoned := hreceived.abandon fun r' hr' c' => hreceived.carries_none
        (List.mem_cons_of_mem _ (hw (hasked r' (List.mem_of_mem_erase hr')))) c'
      rw [Option.isSome_some, if_pos rfl, Multiset.singleton_add]
      exact habandoned

/-- A context that is entered goes to this task. -/
theorem Held.enter {f : Multiset AmfUeId} {asks : Multiset Nat} {amfUeId : AmfUeId} (c : UeContext)
    (hl : l.ues.lookup amfUeId = none)
    (h : Held nh (amfUeId ::ₘ (f + (l.ues.keys : Multiset AmfUeId))) asks s w) :
    Held nh (f + ((l.insert amfUeId c).ues.keys : Multiset AmfUeId)) asks s w := by
  have hnew : amfUeId ∉ l.ues.keys := AList.lookup_eq_none.mp hl
  have hkeys : (l.insert amfUeId c).ues.keys = amfUeId :: l.ues.keys := by
    rw [Association.insert, AList.keys_insert, List.erase_of_not_mem hnew]
  rw [hkeys, ← Multiset.cons_coe, Multiset.add_cons]
  exact h

/-- A context that is taken out goes from this task. -/
theorem Held.exit {f : Multiset AmfUeId} {asks : Multiset Nat} {amfUeId : AmfUeId} {c : UeContext}
    (hl : l.ues.lookup amfUeId = some c) (h : Held nh (f + (l.ues.keys : Multiset AmfUeId)) asks s w) :
    Held nh (amfUeId ::ₘ (f + ((l.erase amfUeId).ues.keys : Multiset AmfUeId))) asks s w := by
  have hmem : amfUeId ∈ l.ues.keys := AList.lookup_isSome.mp (by simp [hl])
  rw [Association.erase, AList.keys_erase, ← Multiset.add_cons, ← Multiset.coe_erase,
    Multiset.cons_erase (Multiset.mem_coe.mpr hmem)]
  exact h

theorem minds_takeFrom (amfUeId : AmfUeId) (source : Channel) :
    Minds nh (takeFrom amfUeId source) := by
  intro f l s w h
  simp only [takeFrom, getUe, Proc.wp_bind, Proc.wp_look]
  cases hl : l.ues.lookup amfUeId with
  | some c => exact h
  | none =>
    have hmono := (custodyLedger nh).reading_monotone outside
    rw [Proc.wp_bind]
    refine Proc.wp_mono hmono ?_ (wp_askUe (f := f) (l := l) h amfUeId source)
    rintro r l' s' ⟨f', w'⟩ ⟨rfl, rfl, -, hasked, h'⟩
    simp only [Proc.wp_bind, Proc.wp_ask]
    have hasking : Held nh (f'.1 + (l'.ues.keys : Multiset AmfUeId))
        (f'.2 + ([r] : Multiset Nat)) s' w' := by
      rw [← Multiset.cons_coe, Multiset.add_cons, Multiset.coe_nil, add_zero]
      exact h'
    refine reading_nextReply hasking fun f'' s'' w'' hw h'' r' c hr => ?_
    obtain ⟨hmem, hsome, hnone⟩ := answers_nextReply hr
    obtain rfl := List.mem_singleton.mp hmem
    have hin : r' ∈ f''.2 + ([r'] : Multiset Nat) := Multiset.mem_add.mpr (.inr hmem)
    have hrest : (f''.2 + ([r'] : Multiset Nat)).erase r' = f''.2 := by
      rw [Multiset.erase_add_right_pos _ (Multiset.mem_coe.mpr hmem)]
      simp
    cases c with
    | none =>
      have hmissed := h''.miss hin (hnone rfl)
      rw [hrest] at hmissed
      exact hmissed
    | some c =>
      have hreceived := h''.receive hin (hsome c rfl) (hw hasked)
      rw [hrest] at hreceived
      have hobtained := hreceived.obtain (List.mem_cons_of_mem _ (hw hasked))
        ((oneshot_replied (hsome c rfl)).imp fun _ hx => List.mem_cons_of_mem _ hx)
      exact fun _ => hobtained.enter c hl

theorem minds_takeOver (amfUeId : AmfUeId) : Minds nh (takeOver amfUeId) := by
  intro f l s w h
  simp only [takeOver, getUe, Proc.wp_bind, Proc.wp_look]
  cases hl : l.ues.lookup amfUeId with
  | some c => exact h
  | none =>
    have hmono := (custodyLedger nh).reading_monotone outside
    simp only [Proc.wp_bind, Proc.wp_look]
    refine Proc.wp_mono hmono ?_ (wp_askAll (f := f) (l := l) h amfUeId _)
    rintro asks l' s' ⟨f', w'⟩ ⟨rfl, rfl, -, hasked, h'⟩
    rw [Proc.wp_bind]
    refine Proc.wp_mono hmono ?_ (wp_firstTaken rfl h' hasked)
    rintro taken l'' s'' ⟨f'', w''⟩ ⟨rfl, h''⟩
    cases taken with
    | none =>
      rw [Option.isSome_none, if_neg Bool.false_ne_true, zero_add] at h''
      exact h''
    | some c =>
      rw [Option.isSome_some, if_pos rfl, Multiset.singleton_add] at h''
      exact fun hc => (h''.switch hc amfUeId).enter c hl

theorem minds_onHandoverNotify (params : Option HandoverNotify) :
    Minds nh (onHandoverNotify params) := by
  cases params with
  | none => exact minds_pure _
  | some notify =>
    refine minds_bind (minds_removeHandover _) fun p => ?_
    cases p with
    | none => exact minds_pure _
    | some p =>
      refine minds_bind (minds_mark rfl) fun _ =>
        minds_bind (minds_takeFrom _ _) fun here => ?_
      cases here with
      | false => exact minds_mark rfl
      | true =>
        refine minds_bind (minds_getUe _) fun c => ?_
        cases c with
        | none => exact minds_pure _
        | some c =>
          exact minds_bind (minds_modifyUe _ _) fun _ =>
            minds_bind (minds_address _ c) fun _ =>
            minds_bind (minds_mark rfl) fun _ =>
            minds_bind (minds_forEach (fun session =>
              minds_bind (minds_repoint _ session) fun _ => minds_pure _) _) fun _ =>
            minds_release p

theorem minds_switchSessions (amfUeId : AmfUeId) (sessions : List (UInt8 × Fteid)) :
    Minds nh (switchSessions amfUeId sessions) := by
  induction sessions with
  | nil => exact minds_pure _
  | cons session sessions ih =>
    exact minds_bind (minds_repoint amfUeId session) fun _ =>
      minds_bind ih fun _ => minds_pure _

theorem minds_onPathSwitch (params : Option PathSwitchRequest) :
    Minds nh (onPathSwitch nh params) := by
  cases params with
  | none => exact minds_pure _
  | some req =>
    refine minds_bind (minds_takeOver _) fun here => ?_
    cases here with
    | false => exact minds_pure _
    | true =>
      refine minds_bind (minds_getUe _) fun c => ?_
      cases c with
      | none => exact minds_pure _
      | some c =>
        dsimp only
        cases c.freshPair nh with
        | none => exact minds_pure _
        | some pair =>
          exact minds_bind (minds_modifyUe _ _) fun _ =>
            minds_bind (minds_address _ c) fun _ =>
            minds_bind (minds_switchSessions _ _) fun _ => minds_pure _

theorem minds_handleNgap (pdu : Pdu) : Minds nh (handleNgap nh pdu) := by
  cases pdu with
  | handoverRequired params => exact minds_bind (minds_onHandoverRequired params) minds_send
  | handoverRequestAcknowledge params => exact minds_onHandoverRequestAck params
  | handoverFailure params => exact minds_onHandoverFailure params
  | handoverCancel params => exact minds_bind (minds_onHandoverCancel params) minds_send
  | handoverNotify params => exact minds_onHandoverNotify params
  | pathSwitchRequest params => exact minds_bind (minds_onPathSwitch params) minds_send

/-- The owner's side. -/
theorem wp_onTakeUe {cmd : TakeUe} (hcmd : cmd ∈ s.commands)
    (h : Held nh (f.1 + (l.ues.keys : Multiset AmfUeId)) f.2 s w) :
    wp ((custodyLedger nh).reading outside) (onTakeUe cmd)
      (fun _ l' s' x => Held nh (x.1.1 + (l'.ues.keys : Multiset AmfUeId)) x.1.2 s' x.2) l s (f, w) := by
  simp only [onTakeUe, Proc.wp_bind, Proc.wp_act, Proc.wp_mark, Ledger.reading_note]
  cases hl : l.ues.lookup cmd.amfUeId with
  | none =>
    intro _
    have hsame : l.erase cmd.amfUeId = l := by
      rw [Association.erase, Keyed.Map.erase_eq_self hl]
    rw [hsame]
    exact h.refuse cmd
  | some c =>
    intro hawaited _
    exact (h.exit hl).surrender hcmd c hawaited

/-! ### Other duties -/

/-- A context arrives under an id of its own. -/
theorem wp_arrive (h : Held nh (f.1 + (l.ues.keys : Multiset AmfUeId)) f.2 s w) (amfUeId : AmfUeId)
    (c : UeContext) :
    wp ((custodyLedger nh).reading outside) (do Proc.mark (.arriving amfUeId); insertUe amfUeId c)
      (fun _ l' s' x => Held nh (x.1.1 + (l'.ues.keys : Multiset AmfUeId)) x.1.2 s' x.2) l s (f, w) := by
  intro hnew
  have hl : l.ues.lookup amfUeId = none := by
    refine AList.lookup_eq_none.mpr fun hmem => hnew (h.mem_live ?_)
    exact Multiset.mem_add.mpr (.inr (Multiset.mem_coe.mpr hmem))
  exact (h.arrive hnew).enter c hl

theorem minds_nextAmfUeId : Minds nh nextAmfUeId :=
  minds_actShared (fun _ => rfl) (fun _ => rfl) fun _ _ => Iff.rfl

theorem minds_registerUe (c : UeContext) : Minds nh (registerUe c) :=
  minds_bind minds_nextAmfUeId fun amfUeId _ _ _ _ h => wp_arrive h amfUeId c

theorem minds_deregisterUe (amfUeId : AmfUeId) : Minds nh (deregisterUe amfUeId) := by
  intro f l s w h
  simp only [deregisterUe, getUe, Proc.wp_bind, Proc.wp_look]
  cases hl : l.ues.lookup amfUeId with
  | none => exact h
  | some c => exact fun _ => (h.exit hl).leave

theorem wp_unaddress {ids : Multiset AmfUeId} {asks : Multiset Nat} (h : Held nh ids asks s w)
    (c : UeContext) :
    wp ((custodyLedger nh).reading outside) (unaddress c)
      (fun _ l' s' x => l' = l ∧ x = (f, w) ∧ Held nh ids asks s' w) l s (f, w) := by
  unfold unaddress
  cases c.suci with
  | none => exact ⟨rfl, rfl, h⟩
  | some supi => exact ⟨rfl, rfl, h.of_same (List.Subset.refl _) rfl fun _ => Iff.rfl⟩

/-- A context of this task goes to the retained ones, or is dropped. -/
theorem wp_retainUe {amfUeId : AmfUeId} {c : UeContext} (hl : l.ues.lookup amfUeId = some c)
    (h : Held nh (f.1 + (l.ues.keys : Multiset AmfUeId)) f.2 s w) :
    wp ((custodyLedger nh).reading outside) (retainUe amfUeId c)
      (fun _ l' s' x => Held nh (x.1.1 + (l'.ues.keys : Multiset AmfUeId)) x.1.2 s' x.2) l s (f, w) := by
  rw [retainUe, Proc.wp_bind]
  refine Proc.wp_mono ((custodyLedger nh).reading_monotone outside) ?_ (wp_unaddress h c)
  rintro _ l' s' x ⟨rfl, rfl, h'⟩
  cases c.gutiTmsi with
  | none => exact fun _ => (h'.exit hl).leave
  | some tmsi => exact fun hfree => (h'.exit hl).retain _ hfree

theorem minds_releaseUeContext (amfUeId : AmfUeId) : Minds nh (releaseUeContext amfUeId) := by
  refine minds_bind (minds_getUe _) fun c => ?_
  cases c with
  | none => exact minds_pure ()
  | some c =>
    refine minds_bind (minds_forEach (fun session => minds_bind (minds_ask (by simp)) fun _ =>
      minds_pure _) _) fun _ => ?_
    intro f l s w h
    simp only [getUe, Proc.wp_bind, Proc.wp_look]
    cases hl : l.ues.lookup amfUeId with
    | none => exact h
    | some c => exact wp_retainUe hl h

/-- What is taken from the retained ones is noted at once. -/
theorem minds_take {tmsi : Tmsi} {k : UeContext → MobilityM Unit} (hk : ∀ c, Minds nh (k c)) :
    Minds nh (do
      match ← takeRetained tmsi with
      | none => pure ()
      | some c =>
        Proc.mark (.resuming tmsi)
        k c) := by
  intro f l s w h
  simp only [takeRetained, Proc.wp_bind, Proc.wp_actShared]
  cases hc : s.tables.retained.lookup tmsi with
  | none =>
    rw [Keyed.Map.erase_eq_self hc]
    exact h
  | some c =>
    rw [Proc.wp_bind]
    exact fun _ => hk c f l _ _ (h.take tmsi)

theorem minds_resumeUe (tmsi : Tmsi) (givenUp : List SmContext) (become : UeContext → UeContext) :
    Minds nh (resumeUe tmsi givenUp become) := by
  refine minds_take fun c => minds_bind minds_nextAmfUeId fun amfUeId =>
    minds_bind (minds_forEach (fun session => ?_) _) fun _ => ?_
  · -- the side condition rules such a wait out
    exact fun _ _ _ _ _ hinHand => absurd hinHand id
  · exact fun _ _ _ _ h => wp_arrive h amfUeId _

theorem minds_discardRetained (tmsi : Tmsi) : Minds nh (discardRetained tmsi) :=
  minds_take fun _ => minds_pure ()

/-! ### Runs -/

/-- Every duty keeps account of the contexts. -/
theorem minds_body {c : Duty} (hc : c.enabled l s = true)
    (h : Held nh (f.1 + (l.ues.keys : Multiset AmfUeId)) f.2 s w) :
    wp ((custodyLedger nh).reading outside) (c.body nh)
      (fun _ l' s' x => Held nh (x.1.1 + (l'.ues.keys : Multiset AmfUeId)) x.1.2 s' x.2) l s (f, w) := by
  cases c with
  | request r =>
    cases r with
    | ngap pdu => exact minds_handleNgap pdu f l s w h
    | timer t => exact minds_onTimer t f l s w h
    | takeUe cmd => exact wp_onTakeUe (List.mem_of_find?_eq_some (beq_iff_eq.mp hc)) h
  | register c => exact minds_registerUe c f l s w h
  | revise amfUeId c => exact minds_modifyUe amfUeId _ f l s w h
  | deregister amfUeId => exact minds_deregisterUe amfUeId f l s w h
  | tearDown =>
    exact minds_bind (minds_look _) (fun ids => minds_forEach minds_deregisterUe ids) f l s w h
  | release amfUeId => exact minds_releaseUeContext amfUeId f l s w h
  | resume tmsi givenUp c => exact minds_resumeUe tmsi givenUp _ f l s w h
  | amend tmsi c =>
    refine minds_change ?_ ?_ ?_ f l s w h
    · exact fun _ => rfl
    · exact fun _ => rfl
    · intro s tmsi'
      rw [Keyed.Map.lookup_modify]
      split
      · rename_i htmsi
        rw [htmsi, Option.isSome_map]
      · rfl
  | discard tmsi => exact minds_discardRetained tmsi f l s w h
  | administer tables =>
    refine minds_change ?_ ?_ ?_ f l s w h
    · exact fun _ => rfl
    · exact fun _ => rfl
    · exact fun _ _ => Iff.rfl

theorem custody_keeps : (custodyLedger nh).Keeps (custodySystem nh) where
  grows := custody_grows
  fresh l hl := by
    have hkeys : l.ues.keys = [] := List.isEmpty_iff.mp hl
    simp only [custodyLedger, hkeys]
    rfl
  body c f l s w hc h := by
    have hidle : ∀ l f s w, (custodyLedger nh).inv (f + (custodyLedger nh).own l none) s w ↔
        Held nh (f.1 + (l.ues.keys : Multiset AmfUeId)) f.2 s w := by
      intro l f s w
      simp [custodyLedger]
    refine Proc.wp_mono ((custodyLedger nh).reading_monotone outside) ?_
      (minds_body hc ((hidle l f s w).mp h))
    exact fun _ l' s' x hx => (hidle l' x.1 s' x.2).mpr hx

/-- What all tasks together hold: their contexts, and the replies they wait for. -/
theorem custody_total (ts : List (Thread Association Shared Mark Call Call.Answer)) :
    (custodyLedger nh).total ts =
      (↑(ts.flatMap Thread.ids), ↑(ts.flatMap Thread.asks)) := by
  induction ts with
  | nil => rfl
  | cons t ts ih =>
    have hone : (custodyLedger nh).owns t =
        (↑(Thread.ids t), ↑(Thread.asks t)) := by
      cases t <;> rfl
    have hsum : (custodyLedger nh).total (t :: ts) =
        (custodyLedger nh).owns t + (custodyLedger nh).total ts := List.sum_cons
    rw [hsum, hone, ih]
    rfl

/-- **Handing contexts over loses none**, in every run of careful steps. -/
theorem custody_kept {p : HandoverPool} (h : Pool.Reach (custodySystem nh) (Careful nh) startPool p) :
    Custody nh p := by
  have hstart : (custodyLedger nh).Holds (custodySystem nh) startPool :=
    Ledger.holds_empty Held.start
  have hheld := (Ledger.reach custody_keeps hstart h).inv
  rw [custody_total] at hheld
  have hcontexts : (contexts p : Multiset AmfUeId) = (live p.world : Multiset AmfUeId) :=
    hheld.places
  have hperm : (contexts p).Perm (live p.world) := Multiset.coe_eq_coe.mp hcontexts
  refine ⟨hperm.nodup_iff.mpr hheld.once, fun id => hperm.mem_iff, hheld.retained, ?_,
    hheld.channels.refused, hheld.switched⟩
  intro r id hmem
  obtain ⟨c, hc⟩ := exists_undelivered.mp ⟨id, hmem⟩
  have hopen : oneshot r p.world ≠ .closed := by simp [hc]
  have hawaited := (hheld.channels.open_iff r).mp hopen
  exact List.mem_flatMap.mp (Multiset.mem_coe.mp hawaited)

/-! ### A late reply -/

instance decidableCareful (nh : Bytes → Bytes → Bytes) : ∀ n l s w, Decidable (Careful nh n l s w)
  | .replying r _ (some _), _, _, w => inferInstanceAs (Decidable (oneshot r w = .awaited))
  | .replying _ _ none, _, _, _ => .isTrue trivial
  | .switched _ c, _, _, _ => inferInstanceAs (Decidable ((c.freshPair nh).isSome = true))
  | .arriving id, _, _, w => inferInstanceAs (Decidable (id ∉ live w))
  | .idling _ tmsi, _, s, _ => inferInstanceAs (Decidable (s.tables.retained.lookup tmsi = none))
  | .inHand _, _, _, _ => .isFalse id
  | .sending _, _, _, _ | .forwarding .., _, _, _ | .beginning .., _, _, _
  | .acknowledging .., _, _, _ | .tunnel .., _, _, _ | .recorded _, _, _, _ | .firing _, _, _, _
  | .ending .., _, _, _ | .completed _, _, _, _ | .unanswered _, _, _, _ | .releasing .., _, _, _
  | .asking .., _, _, _ | .abandoning _, _, _, _ | .received .., _, _, _ | .obtained .., _, _, _
  | .leaving _, _, _, _ | .resuming _, _, _, _ => .isTrue trivial

def sampleUeContext : UeContext :=
  { UeContext.new 70 .Registered (some "imsi-1") 0 with
    kamf := some [1], nhChain := some ([2], 0) }

abbrev CustodyMove : Type := Pool.Move Association Call Call.Answer Duty

/-- The reply on channel 0 is `c`. -/
def sampleAnswer (c : Option UeContext) : (e : Call) → e.Answer
  | .activateUpConnection .. => none
  | .setupIndirectForwarding .. => none
  | .releaseIndirectForwarding .. => true
  | .updateSmContext .. => true
  | .deactivateUp .. => true
  | .releaseSmContext .. => true
  | .nextReply _ => (0, c)

def sampleTake : CustodyMove :=
  .start 0 (.request (.takeUe { tx := 1, amfUeId := 1, reply := 0 }))

/-- A UE registers on association 1, and a path switch for it arrives on association 2. -/
def sampleSwitchRun : List CustodyMove :=
  [.spawn { tx := 1 }, .spawn { tx := 2 },
    .start 0 (.administer
      { gnbLinks := [{ tacs := [], gnbId := none, tx := 1 }, { tacs := [], gnbId := none, tx := 2 }] }),
    .start 0 (.register sampleUeContext),
    .start 1 (.request (.ngap (.pathSwitchRequest (some
      { amfUeId := 1, newRanUeId := 71, tac := none, sessions := [] }))))]

theorem custody_kept_sample :
    ∃ p, Pool.moves (custodySystem fun _ _ => []) (Careful fun _ _ => [])
        (sampleSwitchRun ++ [sampleTake, .resume 1 (sampleAnswer (some sampleUeContext))]) startPool = some p ∧
      p.threads.map Thread.ids = [[], [1]] ∧ Custody (fun _ _ => []) p := by
  have hrun : (Pool.moves (custodySystem fun _ _ => []) (Careful fun _ _ => [])
      (sampleSwitchRun ++ [sampleTake, .resume 1 (sampleAnswer (some sampleUeContext))]) startPool).map
        (fun p => p.threads.map Thread.ids) = some [[], [1]] := by
    decide +kernel
  obtain ⟨p, hp, hids⟩ := Option.map_eq_some_iff.mp hrun
  exact ⟨p, hp, hids, custody_kept (Pool.reach_moves hp)⟩

/-- The owner is busy for half a second: the path switch fails, and then the owner hands the context
over to nobody. -/
theorem custody_lost :
    ¬ ∀ (nh : Bytes → Bytes → Bytes) (p : HandoverPool),
      Pool.Reach (custodySystem nh) (fun _ _ _ _ => True) startPool p → Custody nh p := by
  intro h
  have hrun : (Pool.moves (custodySystem fun _ _ => []) (fun _ _ _ _ => True)
      (sampleSwitchRun ++ [.resume 1 (sampleAnswer none), sampleTake]) startPool).map
        (fun p => (contexts p, live p.world)) = some ([], [1]) := by
    decide +kernel
  obtain ⟨p, hp, hcontexts⟩ := Option.map_eq_some_iff.mp hrun
  obtain ⟨hnone, hlive⟩ := Prod.mk.inj hcontexts
  have hkept := (h _ p (Pool.reach_moves hp)).kept 1
  rw [hnone, hlive] at hkept
  exact absurd (hkept.mpr List.mem_cons_self) List.not_mem_nil

end Radian.Mobility
