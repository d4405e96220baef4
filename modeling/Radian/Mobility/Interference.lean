import Radian.Mobility.Flights

/-!
# Handovers side by side

- `flightsDiscipline`, `Carries` — the ownership logic over what handlers owe, and its triples.
- `carries_handleNgap` — every handler pays what it owes.
- `handovers_orderly` — in every run of steps that heed it, the handovers are orderly.
-/

namespace Radian.Mobility

open Keyed (Map)
open Amf (AmfUeId RanUeId Channel UeContext Association Tables)
open Security (Bytes)
open Proc (wp)

variable {nh : Bytes → Bytes → Bytes}

/-- What handlers under way owe is what the invariant is about. -/
def flightsDiscipline : Discipline Association Shared Mark (List Mark) (Multiset Debt) where
  inv := Kept
  own _ := 0
  allow := Heeds

/-- From debts `m` a process comes to the debts `P a` for its result `a`. -/
def Carries {α : Type} (m : Multiset Debt) (t : MobilityM α) (P : α → Multiset Debt) : Prop :=
  ∀ f l s w, Kept (f + m) s w →
    wp (flightsDiscipline.sharing outside) t (fun a _ s' x => Kept (x.1 + P a) s' x.2) l s (f, w)

/-! ### Rules -/

section Rules

variable {α β : Type} {m m' : Multiset Debt}

theorem carries_pure (a : α) : Carries m (pure a : MobilityM α) fun _ => m := fun _ _ _ _ h => h

theorem carries_bind {t : MobilityM α} {k : α → MobilityM β} {P : α → Multiset Debt}
    {Q : β → Multiset Debt} (ht : Carries m t P) (hk : ∀ a, Carries (P a) (k a) Q) :
    Carries m (t >>= k) Q := by
  intro f l s w h
  rw [Proc.wp_bind]
  refine Proc.wp_mono (flightsDiscipline.sharing_monotone outside) ?_ (ht f l s w h)
  exact fun a l' s' x hx => hk a x.1 l' s' x.2 hx

theorem carries_look (g : Association → Shared → α) :
    Carries m (Proc.look g : MobilityM α) fun _ => m := fun _ _ _ _ h => h

theorem carries_changeLocal (g : Association → Association) :
    Carries m (Proc.changeLocal g : MobilityM Unit) fun _ => m := fun _ _ _ _ h => h

theorem carries_tables (g : Tables → Tables) :
    Carries m (Proc.change fun s => { s with tables := g s.tables } : MobilityM Unit) fun _ => m :=
  fun _ _ _ _ h => h.tables _

theorem carries_mark {n : Mark} (hflights : n.ofFlights = false) (hasks : n.ofAsks = false) :
    Carries m (Proc.mark n : MobilityM Unit) fun _ => m :=
  fun _ _ _ _ h _ => h.later hflights hasks

/-- A call whose answer leaves no trace, or is a reply that is received. -/
theorem carries_ask (e : Call) : Carries m (Proc.ask e : MobilityM e.Answer) fun _ => m := by
  intro f l s w h
  refine ⟨m, h, fun f' s' w' h' r _ => ?_⟩
  cases e with
  | nextReply asks =>
    obtain ⟨reply, c⟩ := r
    exact h'.later rfl rfl
  | _ => exact h'

/-- The mark by which news is passed on. -/
theorem carries_tell {x : Mark} (hflights : x.ofFlights = false) (hasks : x.ofAsks = false) :
    Carries (.tell x ::ₘ m) (Proc.mark x : MobilityM Unit) fun _ => m :=
  fun _ _ _ _ h _ => (h.later hflights hasks).settle List.mem_cons_self

theorem carries_forEach {body : β → MobilityM Unit} (h : ∀ b, Carries m (body b) fun _ => m)
    (bs : List β) : Carries m (Proc.forEach body bs) fun _ => m := by
  induction bs with
  | nil => exact carries_pure ()
  | cons b bs ih => exact carries_bind (h b) fun _ => ih

end Rules

/-! ### Helpers -/

section Helpers

variable {m : Multiset Debt}

theorem carries_getUe (amfUeId : AmfUeId) : Carries m (getUe amfUeId) fun _ => m := carries_look _

theorem carries_ownTx : Carries m ownTx fun _ => m := carries_look _

theorem carries_forward (tx : Channel) (pdu : Downlink) : Carries m (forward tx pdu) fun _ => m :=
  carries_mark rfl rfl

theorem carries_send (pdu : Option Downlink) : Carries m (send pdu) fun _ => m := by
  cases pdu with
  | none => exact carries_pure ()
  | some pdu => exact carries_mark rfl rfl

theorem carries_address (amfUeId : AmfUeId) (c : UeContext) :
    Carries m (address amfUeId c) fun _ => m := by
  unfold address
  refine carries_bind carries_ownTx fun tx => ?_
  cases c.suci with
  | none => exact carries_pure ()
  | some supi => exact carries_tables _

theorem carries_askUe (amfUeId : AmfUeId) (tx : Channel) :
    Carries m (askUe amfUeId tx) fun reply => .await reply amfUeId ::ₘ m :=
  fun _ _ _ _ h _ => h.ask tx amfUeId

/-- A request whose reply nobody draws conclusions from. -/
theorem carries_asked (amfUeId : AmfUeId) (tx : Channel) : Carries m (askUe amfUeId tx) fun _ => m :=
  fun _ _ _ _ h _ => (h.ask tx amfUeId).forget

theorem carries_fetchSessions (c : UeContext) (psis : List UInt8) :
    Carries m (fetchSessions c psis) fun _ => m := by
  induction psis with
  | nil => exact carries_pure _
  | cons psi psis ih =>
    unfold fetchSessions
    split
    · exact ih
    · refine carries_bind (carries_ask _) fun created => ?_
      cases created with
      | none => exact ih
      | some created => exact carries_bind ih fun _ => carries_pure _

theorem carries_repoint (amfUeId : AmfUeId) (session : UInt8 × Fteid) :
    Carries m (repoint amfUeId session) fun _ => m := by
  unfold repoint
  refine carries_bind (carries_getUe amfUeId) fun c => ?_
  split
  · exact carries_pure _
  · exact carries_ask _

/-- Every tunnel is asked to be released. -/
theorem carries_release (p : PendingHandover) :
    Carries (p.tunnels + m) (releaseIndirectForwarding p) fun _ => m := by
  unfold releaseIndirectForwarding PendingHandover.tunnels
  split
  · induction p.sessions with
    | nil =>
      rw [List.map_nil, Multiset.coe_nil, zero_add]
      exact carries_pure ()
    | cons session sessions ih =>
      refine carries_bind (P := fun _ =>
        (sessions.map fun session => Debt.release p.number session.2 : List Debt) + m) ?_
        fun _ => ih
      intro f l s w h _
      have hpaid : Kept (f + ((sessions.map fun session =>
          Debt.release p.number session.2 : List Debt) + m)) s
          (.releasing p.number session.2 :: w) := by
        refine Kept.release ?_
        rwa [← Multiset.cons_add]
      exact ⟨_, hpaid, fun _ _ _ h' _ _ => h'⟩
  · rw [zero_add]
    exact carries_pure ()

theorem mem_sessions {p : PendingHandover} {psi : UInt8} {c : SmContext}
    (h : p.session psi = some c) : c ∈ p.sessions.map fun session => session.2 := by
  obtain ⟨session, hfind, rfl⟩ := Option.map_eq_some_iff.mp h
  exact List.mem_map.mpr ⟨session, List.mem_of_find?_eq_some hfind, rfl⟩

/-- The tunnels of an acknowledgement belong to the handover it is about. -/
theorem carries_forwardingPaths (p : PendingHandover) (as : List Admitted) :
    Carries (.acknowledge p.number p.sessions ::ₘ m) (forwardingPaths p as) fun _ =>
      .acknowledge p.number p.sessions ::ₘ m := by
  induction as with
  | nil => exact carries_pure _
  | cons a as ih =>
    unfold forwardingPaths
    cases a.forwarding with
    | none => exact ih
    | some target =>
      dsimp only
      split
      · exact carries_bind ih fun _ => carries_pure _
      · cases hc : p.session a.psi with
        | none => exact ih
        | some c =>
          refine carries_bind (carries_ask _) fun ingress => ?_
          cases ingress with
          | none => exact ih
          | some ingress =>
            refine carries_bind (P := fun _ => .acknowledge p.number p.sessions ::ₘ m) ?_
              fun _ => carries_bind ih fun _ => carries_pure _
            intro f l s w h hflight
            have hmem : Debt.acknowledge p.number p.sessions ∈
                f + (.acknowledge p.number p.sessions ::ₘ m) :=
              Multiset.mem_add.mpr (.inr (Multiset.mem_cons_self _ _))
            refine ⟨h.flights.setUp hmem (mem_sessions hc) hflight, ?_⟩
            exact h.asks.of_same (List.Subset.refl _) rfl (List.subset_cons_self _ _)
              (fun x hx hof => (List.mem_cons.mp hx).resolve_left (by rintro rfl; cases hof))
              fun _ _ hm => hm

end Helpers

/-! ### Handlers -/

theorem carries_commandHandover (ack : HandoverRequestAcknowledge) (p : PendingHandover) :
    Carries (.acknowledge p.number p.sessions ::ₘ 0) (commandHandover ack p) fun _ => 0 := by
  refine carries_bind (carries_forwardingPaths p ack.admitted) ?_
  rintro ⟨forwarding, indirectActive⟩
  refine carries_bind (P := fun _ => 0) ?_ fun _ =>
    carries_bind (carries_mark rfl rfl) fun _ => carries_forward _ _
  intro f l s w h
  refine h.acknowledged.revise ack.amfUeId (f := fun p => { p with indirectActive }) (fun id => ?_) rfl
    (List.Subset.refl _) rfl rfl (fun _ => rfl) (fun _ => rfl) fun _ _ hphase => absurd rfl hphase
  exact Keyed.Map.lookup_modify _ _ _ _

theorem carries_onHandoverRequestAck (params : Option HandoverRequestAcknowledge) :
    Carries 0 (onHandoverRequestAck params) fun _ => 0 := by
  intro f l s w h
  cases params with
  | none => exact h
  | some ack =>
    simp only [onHandoverRequestAck, Proc.wp_bind, Proc.wp_look]
    cases hp : s.handovers.lookup ack.amfUeId with
    | none => exact h
    | some p =>
      simp only [Proc.wp_bind, Proc.wp_mark, Proc.wp_change, Discipline.sharing_note]
      intro _
      have hmarked : Kept (f + (.acknowledge p.number p.sessions ::ₘ 0)) s
          (.acknowledging ack.amfUeId p :: w) := (h.later rfl rfl).owe hp
      have hfirst : Kept (f + (.acknowledge p.number p.sessions ::ₘ 0))
          (s.acknowledged ack p) (.acknowledging ack.amfUeId p :: w) := by
        refine hmarked.revise ack.amfUeId (f := fun p => p.acknowledge ack) (fun id => ?_) rfl
          (List.subset_append_left _ _) rfl rfl (fun _ => rfl) (fun _ => rfl) ?_
        · rw [hp]
          exact Keyed.Map.lookup_insert_eq _ _ _ _
        · intro q hq _
          rw [hp, Option.some_inj] at hq
          subst hq
          exact List.mem_append_right _ (List.mem_singleton.mpr rfl)
      exact carries_commandHandover ack p f l _ _ hfirst

theorem carries_beginHandover (amfUeId : AmfUeId) {p : Nat → PendingHandover}
    (hnumber : ∀ n, (p n).number = n) (hphase : ∀ n, (p n).commanded = false) :
    Carries m (beginHandover amfUeId p) fun _ => m := by
  intro f l s w h hfree
  have hbegun := h.begin hfree (hnumber s.begun) (hphase s.begun)
  rw [hnumber] at hbegun
  exact hbegun

theorem carries_onHandoverRequired (params : Option HandoverRequired) :
    Carries 0 (onHandoverRequired nh params) fun _ => 0 := by
  cases params with
  | none => exact carries_pure _
  | some req =>
    refine carries_bind (carries_getUe _) fun c => ?_
    cases c with
    | none => exact carries_pure _
    | some c =>
      dsimp only
      cases c.freshPair nh with
      | none => exact carries_pure _
      | some pair =>
        refine carries_bind (carries_look _) fun target => ?_
        cases target with
        | none => exact carries_pure _
        | some targetTx =>
          refine carries_bind (carries_fetchSessions c _) fun sessions =>
            carries_bind carries_ownTx fun tx =>
            carries_bind (carries_beginHandover _ (fun _ => rfl) fun _ => rfl) fun _ =>
            carries_bind (carries_forward _ _) fun _ => carries_pure _

/-- Who removes a handover outside the timers' own: what follows pays for it. -/
theorem carries_remove {α : Type} {amfUeId : AmfUeId} {how : Ending}
    {k : MobilityM α} {j : PendingHandover → MobilityM α} {P : α → Multiset Debt}
    (hhow : ∀ t, how ≠ .expired t) (hnone : Carries 0 k P)
    (hsome : ∀ p, Carries (p.debts amfUeId how) (j p) P) :
    Carries 0 (do
      match ← removeHandover amfUeId with
      | none => k
      | some p =>
        Proc.mark (.ending amfUeId p how)
        j p) P := by
  intro f l s w h
  simp only [removeHandover, Proc.wp_bind, Proc.wp_actShared]
  cases hp : s.handovers.lookup amfUeId with
  | none =>
    refine hnone f l _ w ?_
    have hsame : s.handovers.erase amfUeId = s.handovers := Keyed.Map.erase_eq_self hp
    rw [hsame]
    exact h
  | some p =>
    simp only [Proc.wp_bind, Proc.wp_mark, Discipline.sharing_note]
    intro htunnels
    refine hsome p f l _ _ ?_
    rw [add_zero] at h
    exact h.finish hp rfl rfl (fun _ ht _ => ht) rfl rfl (fun t ht => absurd ht (hhow t)) htunnels

theorem debts_failed (amfUeId : AmfUeId) (p : PendingHandover) (cause : RadioCause) :
    p.debts amfUeId (.failed cause) =
      .tell (.forwarding p.sourceTx
        (.handoverPreparationFailure amfUeId p.sourceRanUeId cause)) ::ₘ 0 := by
  simp [PendingHandover.debts, news, Ending.releases]

theorem carries_onHandoverFailure (params : Option HandoverFailure) :
    Carries 0 (onHandoverFailure params) fun _ => 0 := by
  cases params with
  | none => exact carries_pure _
  | some failure =>
    refine carries_remove (fun _ => by simp) (carries_pure _) fun p => ?_
    rw [debts_failed]
    exact carries_tell rfl rfl

/-- The answer a handler leaves to be sent. -/
def owed (answer : Option Downlink) : Multiset Debt :=
  answer.elim 0 fun pdu => {.tell (.sending pdu)}

theorem carries_sendOwed (answer : Option Downlink) :
    Carries (owed answer) (send answer) fun _ => 0 := by
  cases answer with
  | none => exact carries_pure _
  | some pdu =>
    intro f l s w h _
    exact (h.later rfl rfl).settle List.mem_cons_self

theorem carries_releaseTarget (amfUeId : AmfUeId) (p : PendingHandover) (cause : RadioCause)
    (m : Multiset Debt) :
    Carries (((releaseNews amfUeId p cause).map Debt.tell : List Debt) + m)
      (releaseTarget amfUeId p cause) fun _ => m := by
  unfold releaseNews releaseTarget
  cases p.targetRanUeId with
  | none =>
    rw [List.map_nil, Multiset.coe_nil, zero_add]
    exact carries_pure _
  | some targetRan =>
    rw [List.map_singleton, Multiset.coe_singleton, Multiset.singleton_add]
    exact carries_tell rfl rfl

theorem debts_cancelled (amfUeId : AmfUeId) (p : PendingHandover) (ranUeId : RanUeId) :
    p.debts amfUeId (.cancelled ranUeId) =
      ((releaseNews amfUeId p .handoverCancelled).map Debt.tell : List Debt) +
        (p.tunnels + owed (some (.handoverCancelAcknowledge amfUeId ranUeId))) := by
  rw [PendingHandover.debts, news, List.map_cons, ← Multiset.cons_coe, ← Multiset.singleton_add,
    add_assoc, add_comm, add_assoc]
  rfl

theorem carries_onHandoverCancel (params : Option HandoverCancel) :
    Carries 0 (onHandoverCancel params) owed := by
  cases params with
  | none => exact fun _ _ _ _ h => h
  | some cancel =>
    refine carries_remove (fun _ => by simp) ?_ fun p => ?_
    · exact fun f l s w h => h.promise _
    · rw [debts_cancelled]
      exact carries_bind (carries_releaseTarget _ _ _ _) fun _ =>
        carries_bind (carries_release p) fun _ _ _ _ _ h => h

/-! ### Handover Notify -/

theorem debts_notified (amfUeId : AmfUeId) (p : PendingHandover) :
    p.debts amfUeId .notified = .tell (.completed p.number) ::ₘ (p.tunnels + 0) := by
  simp [PendingHandover.debts, news, Ending.releases]

/-- The context a notify goes on with is here. -/
theorem carries_takeFrom {m : Multiset Debt} (amfUeId : AmfUeId) (source : Channel) (f : Multiset Debt)
    (l : Association) (s : Shared) (w : List Mark) (h : Kept (f + m) s w) :
    wp (flightsDiscipline.sharing outside) (takeFrom amfUeId source)
      (fun here l' s' x => Kept (x.1 + m) s' x.2 ∧
        (here = true → (l'.ues.lookup amfUeId).isSome = true)) l s (f, w) := by
  simp only [takeFrom, getUe, Proc.wp_bind, Proc.wp_look]
  cases hc : l.ues.lookup amfUeId with
  | some c => exact ⟨h, fun _ => by rw [hc]; rfl⟩
  | none =>
    rw [Proc.wp_bind]
    refine Proc.wp_mono (flightsDiscipline.sharing_monotone outside) ?_
      (carries_askUe amfUeId source f l s w h)
    rintro reply l₁ s₁ ⟨f₁, w₁⟩ h₁
    simp only [Proc.wp_bind, Proc.wp_ask]
    refine ⟨_, h₁, ?_⟩
    rintro f₂ s₂ w₂ h₂ ⟨reply', taken⟩ hanswer
    cases taken with
    | none => exact ⟨(h₂.later rfl rfl).forget, fun hfalse => by cases hfalse⟩
    | some c =>
      have hreplied : ∃ id, .replying reply id (some c) ∈ w₂ := by
        obtain ⟨hmem, hsent⟩ := Bool.and_eq_true_iff.mp hanswer
        obtain rfl : reply' = reply := by simpa using hmem
        cases hstate : oneshot reply' w₂ with
        | replied sent =>
          rw [hstate] at hsent
          obtain rfl : some c = sent := by simpa using hsent
          exact oneshot_replied hstate
        | _ => simp [hstate] at hsent
      have hawait : Debt.await reply amfUeId ∈ f₂ + (.await reply amfUeId ::ₘ m) :=
        Multiset.mem_add.mpr (.inr (Multiset.mem_cons_self _ _))
      intro _
      refine ⟨?_, fun _ => ?_⟩
      · have hreceived : Kept (f₂ + (.await reply amfUeId ::ₘ m)) s₂
            (.received reply' (some c) :: w₂) := h₂.later rfl rfl
        exact (hreceived.handOver hawait
          (hreplied.imp fun _ hx => List.mem_cons_of_mem _ hx)).forget
      · simp [Association.insert]

/-- What a notify does with the context. -/
theorem carries_notified {m : Multiset Debt} (notify : HandoverNotify) (p : PendingHandover)
    (c : UeContext) :
    Carries (.tell (.completed p.number) ::ₘ (p.tunnels + m)) (do
      modifyUe notify.amfUeId (UeContext.arrive notify.targetRanUeId notify.tac (p.nh, p.ncc))
      address notify.amfUeId c
      Proc.mark (.completed p.number)
      Proc.forEach (fun session => do
        let _ ← repoint notify.amfUeId session) p.admitted
      releaseIndirectForwarding p) fun _ => m := by
  refine carries_bind (carries_changeLocal _) fun _ => carries_bind (carries_address _ _) fun _ => ?_
  refine carries_bind (carries_tell rfl rfl) fun _ => ?_
  refine carries_bind (carries_forEach (fun session => ?_) _) fun _ => carries_release p
  exact carries_bind (carries_repoint _ _) fun _ => carries_pure _

theorem carries_onHandoverNotify (params : Option HandoverNotify) :
    Carries 0 (onHandoverNotify params) fun _ => 0 := by
  cases params with
  | none => exact carries_pure _
  | some notify =>
    refine carries_remove (fun _ => by simp) (carries_pure _) fun p => ?_
    rw [debts_notified]
    intro f l s w h
    rw [Proc.wp_bind]
    refine Proc.wp_mono (flightsDiscipline.sharing_monotone outside) ?_
      (carries_takeFrom notify.amfUeId p.sourceTx f l s w h)
    rintro here l' s' ⟨f', w'⟩ ⟨h', hhere⟩
    cases here with
    | false => exact fun hnever => hnever.elim
    | true =>
      obtain ⟨c, hc⟩ := Option.isSome_iff_exists.mp (hhere rfl)
      have hrest := carries_notified (m := 0) notify p c f' l' s' w' h'
      simp only [Proc.wp_bind] at hrest
      simp only [if_true, getUe, Proc.wp_bind, Proc.wp_look, hc]
      exact hrest

/-! ### Timers -/

theorem debts_prep {t : Timer} (hkind : t.kind = .prep) (amfUeId : AmfUeId) (p : PendingHandover) :
    p.debts amfUeId (.expired t) =
      .tell (.forwarding p.sourceTx
        (.handoverPreparationFailure amfUeId p.sourceRanUeId .tngrelocprepExpiry)) ::ₘ 0 := by
  simp [PendingHandover.debts, news, Ending.releases, hkind]

theorem debts_overall {t : Timer} (hkind : t.kind = .overall) (amfUeId : AmfUeId)
    (p : PendingHandover) :
    p.debts amfUeId (.expired t) =
      ((releaseNews amfUeId p .tngrelocoverallExpiry).map Debt.tell : List Debt) +
        (p.tunnels + 0) := by
  simp [PendingHandover.debts, news, Ending.releases, hkind]

/-- The handover a timer ends armed it. -/
theorem Kept.expire {f : Multiset Debt} {s : Shared} {w : List Mark} (h : Kept (f + 0) s w)
    {t : Timer} {p : PendingHandover} (hp : s.handovers.lookup t.amfUeId = some p)
    (hown : p.number = t.armedBy)
    (htunnels : (∃ c, .tunnel p.number c ∈ w) → p.indirectActive = true ∧
      (Ending.expired t).releases = true) :
    Kept (f + p.debts t.amfUeId (.expired t))
      { s with timers := s.timers.erase t, handovers := s.handovers.erase t.amfUeId }
      (.ending t.amfUeId p (.expired t) :: w) := by
  rw [add_zero] at h
  refine h.finish hp rfl rfl (fun t' ht' hne => ?_) rfl rfl ?_ htunnels
  · exact (List.mem_erase_of_ne (by rintro rfl; exact hne rfl)).mpr ht'
  · rintro t' ht'
    cases ht'
    exact hown.symm

theorem carries_onTimer (t : Timer) : Carries 0 (onTimer t) fun _ => 0 := by
  intro f l s w h
  simp only [onTimer, Proc.wp_bind, Proc.wp_mark, Proc.wp_change, Discipline.sharing_note]
  intro hfirst
  have hfired : Kept (f + 0) s (.firing t :: w) := h.later rfl rfl
  cases hkind : t.kind with
  | prep =>
    simp only [expireHandoverPrep, Proc.wp_bind, Proc.wp_actShared]
    cases hp : s.handovers.lookup t.amfUeId with
    | none => exact hfired.fire fun p hp' => by rw [hp] at hp'; cases hp'
    | some p =>
      cases hphase : p.commanded with
      | true =>
        simp only [hphase, if_true]
        refine hfired.fire fun q hq => ?_
        rw [hp, Option.some_inj] at hq
        simp [← hq, hkind, PendingHandover.phase, hphase]
      | false =>
        simp only [hphase, if_false, Bool.false_eq_true]
        intro htunnels
        have hexpired := hfired.expire hp (hfirst p hp) htunnels
        rw [debts_prep hkind] at hexpired
        exact carries_tell rfl rfl f l _ _ hexpired
  | overall =>
    simp only [expireHandoverOverall, removeHandover, Proc.wp_bind, Proc.wp_actShared]
    cases hp : s.handovers.lookup t.amfUeId with
    | none =>
      have hsame : s.handovers.erase t.amfUeId = s.handovers := Keyed.Map.erase_eq_self hp
      rw [hsame]
      exact hfired.fire fun p hp' => by rw [hp] at hp'; cases hp'
    | some p =>
      simp only [Proc.wp_bind, Proc.wp_mark, Discipline.sharing_note]
      intro htunnels
      have hexpired := hfired.expire hp (hfirst p hp) htunnels
      rw [debts_overall hkind] at hexpired
      have hrest := carries_bind (carries_releaseTarget t.amfUeId p .tngrelocoverallExpiry _)
        (fun _ => carries_release p) f l _ _ hexpired
      rw [Proc.wp_bind] at hrest
      exact hrest

/-! ### Contexts -/

theorem carries_onTakeUe {cmd : TakeUe} {f : Multiset Debt} {l : Association} {s : Shared}
    {w : List Mark} (hcmd : cmd ∈ s.commands) (h : Kept (f + 0) s w) :
    wp (flightsDiscipline.sharing outside) (onTakeUe cmd) (fun _ _ s' x => Kept (x.1 + 0) s' x.2) l s
      (f, w) := by
  simp only [onTakeUe, Proc.wp_bind, Proc.wp_act, Proc.wp_mark, Discipline.sharing_note]
  intro _
  cases l.ues.lookup cmd.amfUeId with
  | none =>
    refine Kept.later (n := .replying cmd.reply cmd.amfUeId none) ?_ rfl rfl
    exact ⟨h.flights.of_same rfl rfl (fun _ _ _ ht => ht) (List.Subset.refl w) (fun _ hx _ => hx) rfl
        (fun _ hm => .inr hm) (fun _ _ hm => .inl hm) fun _ _ hm => hm,
      h.asks.of_same (List.erase_subset) rfl (List.Subset.refl w) (fun _ hx _ => hx)
        fun _ _ hm => hm⟩
  | some c =>
    intro _
    refine ⟨?_, h.asks.reply hcmd c⟩
    refine h.flights.of_same rfl rfl (fun _ _ _ ht => ht) ?_ ?_ rfl
      (fun _ hm => .inr hm) (fun _ _ hm => .inl hm) fun _ _ hm => hm
    · exact fun _ hx => List.mem_cons_of_mem _ (List.mem_cons_of_mem _ hx)
    · intro x hx hof
      obtain rfl | hx := List.mem_cons.mp hx
      · cases hof
      obtain rfl | hx := List.mem_cons.mp hx
      · cases hof
      exact hx

theorem carries_askAll (amfUeId : AmfUeId) (txs : List Channel) :
    Carries m (askAll amfUeId txs) fun _ => m := by
  induction txs with
  | nil => exact carries_pure _
  | cons tx txs ih =>
    exact carries_bind (carries_asked amfUeId tx) fun _ => carries_bind ih fun _ => carries_pure _

theorem carries_firstTaken (n : Nat) (asks : List Nat) :
    Carries m (firstTaken n asks) fun _ => m := by
  induction n generalizing asks with
  | zero => exact carries_pure _
  | succ n ih =>
    unfold firstTaken
    refine carries_bind (carries_ask _) ?_
    rintro ⟨reply, taken⟩
    cases taken with
    | none => exact ih _
    | some c => exact carries_bind (carries_mark rfl rfl) fun _ => carries_pure _

theorem carries_takeOver (amfUeId : AmfUeId) : Carries m (takeOver amfUeId) fun _ => m := by
  unfold takeOver
  refine carries_bind (carries_getUe amfUeId) fun here => ?_
  cases here with
  | some _ => exact carries_pure _
  | none =>
    refine carries_bind (carries_look _) fun others => carries_bind (carries_askAll amfUeId others)
      fun asks => carries_bind (carries_firstTaken _ asks) fun taken => ?_
    cases taken with
    | none => exact carries_pure _
    | some c =>
      exact carries_bind (carries_mark rfl rfl) fun _ =>
        carries_bind (carries_changeLocal _) fun _ => carries_pure _

theorem carries_switchSessions (amfUeId : AmfUeId) (sessions : List (UInt8 × Fteid)) :
    Carries m (switchSessions amfUeId sessions) fun _ => m := by
  induction sessions with
  | nil => exact carries_pure _
  | cons session sessions ih =>
    exact carries_bind (carries_repoint amfUeId session) fun _ =>
      carries_bind ih fun _ => carries_pure _

theorem carries_onPathSwitch (params : Option PathSwitchRequest) :
    Carries 0 (onPathSwitch nh params) fun _ => 0 := by
  cases params with
  | none => exact carries_pure _
  | some req =>
    refine carries_bind (carries_takeOver _) fun here => ?_
    cases here with
    | false => exact carries_pure _
    | true =>
      refine carries_bind (carries_getUe _) fun c => ?_
      cases c with
      | none => exact carries_pure _
      | some c =>
        dsimp only
        cases c.freshPair nh with
        | none => exact carries_pure _
        | some pair =>
          exact carries_bind (carries_changeLocal _) fun _ =>
            carries_bind (carries_address _ _) fun _ =>
            carries_bind (carries_switchSessions _ _) fun _ => carries_pure _

/-! ### Runs -/

theorem carries_handleNgap (pdu : Pdu) : Carries 0 (handleNgap nh pdu) fun _ => 0 := by
  cases pdu with
  | handoverRequired params =>
    exact carries_bind (carries_onHandoverRequired params) carries_send
  | handoverRequestAcknowledge params => exact carries_onHandoverRequestAck params
  | handoverFailure params => exact carries_onHandoverFailure params
  | handoverCancel params => exact carries_bind (carries_onHandoverCancel params) carries_sendOwed
  | handoverNotify params => exact carries_onHandoverNotify params
  | pathSwitchRequest params => exact carries_bind (carries_onPathSwitch params) carries_send

/-- No handler leaves a debt. -/
theorem flights_keeps : flightsDiscipline.Keeps (handoverSystem nh) where
  fresh _ _ := rfl
  body c f l s w hc h := by
    cases c with
    | other ues tables => exact h.tables tables
    | request r =>
      cases r with
      | ngap pdu => exact carries_handleNgap pdu f l s w h
      | timer t => exact carries_onTimer t f l s w h
      | takeUe cmd =>
        exact carries_onTakeUe (List.mem_of_find?_eq_some (beq_iff_eq.mp hc)) h

/-- **Handovers of one UE do not interfere**, whatever overlaps and whenever the timers go off, in every
run of steps that heed them. -/
theorem handovers_orderly {p : HandoverPool} (h : Pool.Reach (handoverSystem nh) Heeds startPool p) :
    Orderly p.shared p.world ∧ (p.Quiet → Wound p.world) := by
  have hstart : flightsDiscipline.Holds (handoverSystem nh) startPool :=
    Discipline.holds_empty Kept.start
  constructor
  · obtain ⟨m, -, hkept⟩ := Discipline.reach flights_keeps hstart h
    exact Kept.orderly hkept
  · intro hquiet
    exact Kept.wound (Discipline.reach_idle flights_keeps (fun _ => rfl) hstart h hquiet)

/-! ### A stale timer -/

/-- The number of the handover a tunnel is for. -/
def Mark.tunnelOf : Mark → Option Nat
  | .tunnel number _ => some number
  | _ => none

theorem exists_tunnel {w : List Mark} {n : Nat} :
    (∃ x ∈ w, x.tunnelOf = some n) ↔ ∃ c, .tunnel n c ∈ w := by
  constructor
  · rintro ⟨x, hx, hn⟩
    cases x <;> simp only [Mark.tunnelOf, reduceCtorEq, Option.some.injEq] at hn
    exact ⟨_, hn ▸ hx⟩
  · rintro ⟨c, hc⟩
    exact ⟨_, hc, rfl⟩

instance decidableHeeds : ∀ n l s w, Decidable (Heeds n l s w)
  | .beginning amfUeId _, _, s, _ => inferInstanceAs (Decidable (s.handovers.lookup amfUeId = none))
  | .firing t, _, s, _ =>
      inferInstanceAs (Decidable (∀ p ∈ s.handovers.lookup t.amfUeId, p.number = t.armedBy))
  | .tunnel number _, _, s, _ =>
      decidable_of_iff
        (¬ ∀ amfUeId p, s.handovers.lookup amfUeId = some p → p.number ≠ number)
        (by simp only [Heeds, not_forall, not_not, exists_prop])
  | .ending _ p how, _, _, w =>
      decidable_of_iff
        ((∃ x ∈ w, x.tunnelOf = some p.number) → p.indirectActive = true ∧ how.releases = true)
        (by simp only [Heeds, exists_tunnel])
  | .unanswered _, _, _, _ => .isFalse id
  | .sending _, _, _, _ | .forwarding .., _, _, _ | .acknowledging .., _, _, _ | .recorded _, _, _, _
  | .completed _, _, _, _ | .releasing .., _, _, _ | .asking .., _, _, _ | .replying .., _, _, _
  | .abandoning _, _, _, _ | .received .., _, _, _ | .switched .., _, _, _ | .obtained .., _, _, _
  | .arriving _, _, _, _ | .leaving _, _, _, _ | .idling .., _, _, _ | .resuming _, _, _, _
  | .inHand _, _, _, _ => .isTrue trivial

abbrev HandoverMove : Type := Pool.Move Association Call Call.Answer Active

def sampleUe : UeContext :=
  { ranUeId := 70, state := .Registered, suci := some "imsi-1", kamf := some [1]
    nhChain := some ([2], 0), regProgressAt := 0 }

def sampleRequired : HandoverMove :=
  .start 0 (.request (.ngap (.handoverRequired (some
    { amfUeId := 7, ranUeId := 70, targetGnbId := 22, psis := [], directForwarding := true
      container := [] }))))

def sampleAck : HandoverMove :=
  .start 1 (.request (.ngap (.handoverRequestAcknowledge (some
    { amfUeId := 7, targetRanUeId := 71, admitted := [], container := [] }))))

def sampleCancel : HandoverMove :=
  .start 0 (.request (.ngap (.handoverCancel (some { amfUeId := 7, ranUeId := 70 }))))

/-- The relocation timer the first handover armed. -/
def sampleExpiry : HandoverMove :=
  .start 1 (.request (.timer { kind := .overall, amfUeId := 7, armedBy := 0 }))

/-- Two associations, and UE 7 on the first; its handover to the second is acknowledged. -/
def sampleHandoverRun : List HandoverMove :=
  [.spawn { tx := 1, ues := (∅ : Map AmfUeId UeContext).insert 7 sampleUe }, .spawn { tx := 2 },
    .start 1 (.other ∅ { gnbLinks := [{ tacs := [], gnbId := some 22, tx := 2 }] }),
    sampleRequired, sampleAck]

/-- The number of a handover a timer ends, and that of the one that armed it. -/
def Mark.expiry : Mark → Option (Nat × Nat)
  | .ending _ p (.expired t) => some (p.number, t.armedBy)
  | _ => none

theorem expiry_eq_some {x : Mark} {n armedBy : Nat} (h : x.expiry = some (n, armedBy)) :
    ∃ p t amfUeId, x = .ending amfUeId p (.expired t) ∧ p.number = n ∧ t.armedBy = armedBy := by
  unfold Mark.expiry at h
  split at h
  · cases h
    exact ⟨_, _, _, rfl, rfl, rfl⟩
  · cases h

theorem handovers_orderly_sample :
    ∃ p, Pool.moves (handoverSystem fun _ _ => []) Heeds (sampleHandoverRun ++ [sampleExpiry])
        startPool = some p ∧
      p.world.filterMap Mark.expiry = [(0, 0)] ∧ Orderly p.shared p.world ∧
      (p.Quiet → Wound p.world) := by
  have hrun : (Pool.moves (handoverSystem fun _ _ => []) Heeds (sampleHandoverRun ++ [sampleExpiry])
      startPool).map (fun p => p.world.filterMap Mark.expiry) = some [(0, 0)] := by
    decide +kernel
  obtain ⟨p, hp, hexpiries⟩ := Option.map_eq_some_iff.mp hrun
  exact ⟨p, hp, hexpiries, handovers_orderly (Pool.reach_moves hp)⟩

/-- The first handover is cancelled, a second begins, and the first one's timer ends it. -/
theorem handovers_interfere :
    ¬ ∀ (nh : Bytes → Bytes → Bytes) (p : HandoverPool),
      Pool.Reach (handoverSystem nh) (fun _ _ _ _ => True) startPool p →
        Orderly p.shared p.world ∧ (p.Quiet → Wound p.world) := by
  intro h
  have hrun : (Pool.moves (handoverSystem fun _ _ => []) (fun _ _ _ _ => True)
      (sampleHandoverRun ++ [sampleCancel, sampleRequired, sampleExpiry]) startPool).map
        (fun p => p.world.filterMap Mark.expiry) = some [(1, 0)] := by
    decide +kernel
  obtain ⟨p, hp, hexpiries⟩ := Option.map_eq_some_iff.mp hrun
  have hmem : (1, 0) ∈ p.world.filterMap Mark.expiry := by
    rw [hexpiries]
    exact List.mem_singleton.mpr rfl
  obtain ⟨x, hx, hexpiry⟩ := List.mem_filterMap.mp hmem
  obtain ⟨q, t, id, rfl, hnumber, harmed⟩ := expiry_eq_some hexpiry
  have hown := (h _ p (Pool.reach_moves hp)).1.own id q t hx
  omega

end Radian.Mobility
