import Radian.Amf.AuthorizedQos

/-!
# 5GSM messages of the UE

An UL NAS Transport carries a 5GSM message.  The dispatcher knows one of them, the Release Complete,
and takes every other container for an establishment request.

- `onNetworkModification` — a modification by the network, which the UE answers with such a message.
- `Obeys` — only an establishment request creates an SM context, and no other message moves a session.
- `Recognised` — the containers for which the dispatcher does so.
- `obeys_iff_recognised` — these and no others.
-/

namespace Radian.Amf

open Nas (UlNasTransport)
open Proc (Amid Within during during_iff during_mono)
open Security (Bytes)

variable (F : Functions)

/-! ### A modification by the network -/

structure PduSessionResourceModifyRequest where
  amfUeId : AmfUeId
  ranUeId : RanUeId
  psi : UInt8
  flows : List QosFlow
  sessionAmbrDlBps : Nat
  sessionAmbrUlBps : Nat
  releasedQfis : List UInt8
  nas : Bytes
  deriving DecidableEq, Repr

/-- Command a session's new QoS to the gNB and the UE. -/
def onNetworkModification (m : ModifyPolicy) : AmfM (Option PduSessionResourceModifyRequest) := do
  match ← getUe m.amfUeId with
  | none => return none
  | some c =>
      if (c.smRefs.lookup m.psi).isNone then return none
      else
        match c.sec with
        | none => return none
        | some sec =>
            let cmd := Nas.pduSessionModificationCommand m.psi 0 m.ambrNas m.nasFlows m.releasedQfis
            let (nas, sec) := sec.protectDl F.algorithms F.nas Nas.Sht.INTEGRITY_CIPHERED
              (.dlNasTransport m.psi cmd)
            modifyUe m.amfUeId fun c => { c with sec := some sec }
            return some
              { amfUeId := m.amfUeId, ranUeId := c.ranUeId, psi := m.psi, flows := m.ngapFlows
                sessionAmbrDlBps := m.sessionAmbrDlBps, sessionAmbrUlBps := m.sessionAmbrUlBps
                releasedQfis := m.releasedQfis, nas }

/-! ### What may come of a 5GSM message -/

/-- A PDU Session Establishment Request for a session. -/
def IsEstablishmentRequest (psi : UInt8) (container : Bytes) : Prop :=
  container[0]? = some 0x2e ∧ container[1]? = some psi ∧ container[3]? = some 0xc1

/-- A PDU Session Release Complete. -/
def IsReleaseComplete (container : Bytes) : Prop :=
  container[0]? = some 0x2e ∧ container[3]? = some 0xd4

instance (psi : UInt8) (container : Bytes) : Decidable (IsEstablishmentRequest psi container) :=
  inferInstanceAs (Decidable (_ ∧ _ ∧ _))

instance (container : Bytes) : Decidable (IsReleaseComplete container) :=
  inferInstanceAs (Decidable (_ ∧ _))

/-- The transport brings an establishment request for its session. -/
def Establishes (transport : UlNasTransport) : Prop :=
  ∃ psi, transport.pduSessionId = some psi ∧ IsEstablishmentRequest psi transport.payloadContainer

/-- An active session has its SM context still, or its release was in progress and is completed. -/
def SessionKept (transport : UlNasTransport) (c c' : UeContext) (psi : UInt8) : Prop :=
  c'.smRefs.lookup psi = c.smRefs.lookup psi ∨
    (transport.pduSessionId = some psi ∧ IsReleaseComplete transport.payloadContainer ∧
      psi ∈ c.releasing ∧ c'.smRefs.lookup psi = none)

/-- What the handling of a transport has made of the contexts, and the marks it has passed. -/
structure Obeys (amfUeId : AmfUeId) (transport : UlNasTransport) (l l' : Association)
    (w : List Mark) : Prop where
  created : ∀ id smfBase supi psi dnn snssai pduType,
    .calling id (.createSmContext smfBase supi psi dnn snssai pduType) ∈ w →
      transport.pduSessionId = some psi ∧ IsEstablishmentRequest psi transport.payloadContainer
  kept : ¬ Establishes transport → ∀ c, l.ues.lookup amfUeId = some c →
    ∃ c', l'.ues.lookup amfUeId = some c' ∧
      ∀ psi, (c.smRefs.lookup psi).isSome → SessionKept transport c c' psi

/-- A container with the type of a Release Complete is a 5GSM message or completes no release.  Any
other one is an establishment request for the session of the transport, or it stops before the SMF. -/
def Recognised (amfUeId : AmfUeId) (transport : UlNasTransport) (l : Association) : Prop :=
  ∀ psi c, transport.pduSessionId = some psi → l.ues.lookup amfUeId = some c →
    if Nas.isPduSessionReleaseComplete transport.payloadContainer then
      transport.payloadContainer[0]? = some 0x2e ∨ psi ∉ c.releasing ∨ c.smRefs.lookup psi = none
    else IsEstablishmentRequest psi transport.payloadContainer ∨ c.suci = none ∨
      outsideAllowed transport.sNssai c.allowedNssai = true

/-! ### What the parts of the handler keep -/

section Parts

variable {F} {amfUeId : AmfUeId} {transport : UlNasTransport} {l l' : Association} {w : List Mark}

/-- The context is there still, with the same sessions. -/
def SameSessions (amfUeId : AmfUeId) (l l' : Association) : Prop :=
  ∀ c, l.ues.lookup amfUeId = some c →
    ∃ c', l'.ues.lookup amfUeId = some c' ∧ c'.smRefs = c.smRefs

theorem SameSessions.refl (amfUeId : AmfUeId) (l : Association) : SameSessions amfUeId l l :=
  fun c hc => ⟨c, hc, rfl⟩

theorem SameSessions.trans {l₁ : Association} (h : SameSessions amfUeId l l₁)
    (h' : SameSessions amfUeId l₁ l') : SameSessions amfUeId l l' := by
  intro c hc
  obtain ⟨c₁, hc₁, heq₁⟩ := h c hc
  obtain ⟨c', hc', heq'⟩ := h' c₁ hc₁
  exact ⟨c', hc', heq'.trans heq₁⟩

theorem sameSessions_modify {f : UeContext → UeContext} (hf : ∀ c, (f c).smRefs = c.smRefs)
    (l : Association) : SameSessions amfUeId l (l.modify amfUeId f) := by
  intro c hc
  refine ⟨f c, ?_, hf c⟩
  simp [Association.modify, Keyed.Map.lookup_modify, hc]

/-- With the same sessions and no call, every message is obeyed. -/
theorem SameSessions.obeys (h : SameSessions amfUeId l l') : Obeys amfUeId transport l l' [] where
  created _ _ _ _ _ _ _ hmem := absurd hmem List.not_mem_nil
  kept _ c hc := by
    obtain ⟨c', hc', heq⟩ := h c hc
    exact ⟨c', hc', fun psi _ => Or.inl (by rw [heq])⟩

theorem within_sendSm (psi : UInt8) (container : Bytes) :
    Within (SameSessions amfUeId) (fun _ => False) (sendSm F amfUeId psi container) := by
  refine .bind (.look _) fun ue => ?_
  cases ue with
  | none => exact .pure _
  | some c =>
    cases hsec : c.sec with
    | none => simpa only [hsec] using .pure _
    | some sec =>
      simpa only [hsec] using
        .bind (.changeLocal (sameSessions_modify fun _ => rfl)) fun _ => .pure _

/-- What is sent leaves the sessions and makes no call. -/
theorem during_sendSm (psi : UInt8) (container : Bytes) (s : Tables) :
    during recorder (fun _ _ _ _ => True) anyhow (sendSm F amfUeId psi container)
      (fun _ l' _ w => Obeys amfUeId transport l l' w) l s [] := by
  refine during_mono (fun _ l' _ w h => ?_) (Within.during
    (I := fun l' w => SameSessions amfUeId l l' ∧ w = []) (fun hρ hI => ⟨hI.1.trans hρ, hI.2⟩)
    (fun _ hI => hI) (fun hν _ => hν.elim) (within_sendSm psi container) ⟨.refl amfUeId l, rfl⟩)
  obtain ⟨hsame, rfl⟩ := h
  exact hsame.obeys

/-- What is sent leads somewhere. -/
theorem exists_of_during_sendSm {psi : UInt8} {container : Bytes} {s : Tables}
    {Q : List Downlink → Association → Tables → List Mark → Prop}
    (h : during recorder (fun _ _ _ _ => True) anyhow (sendSm F amfUeId psi container) Q l s w) :
    ∃ dls l', Q dls l' s w := by
  simp only [sendSm, getUe, during, Proc.wp_bind, Proc.wp_look] at h
  rcases hc : l.ues.lookup amfUeId with _ | c
  · rw [hc] at h
    exact ⟨_, _, h⟩
  · rw [hc] at h
    rcases hsec : c.sec with _ | sec
    · simp only [hsec] at h
      exact ⟨_, _, h⟩
    · simp only [hsec] at h
      exact ⟨_, _, h⟩

/-- Every SM context that is asked for is for `psi`. -/
def CreatesFor (psi : UInt8) (n : Mark) : Prop :=
  ∀ id smfBase supi psi' dnn snssai pduType,
    n = .calling id (.createSmContext smfBase supi psi' dnn snssai pduType) → psi' = psi

theorem within_establishSession (supi : String) (psi : UInt8) (dnn : String)
    (snssai : Option Nas.Snssai) (container : Bytes) :
    Within (fun _ _ => True) (CreatesFor psi)
      (establishSession F amfUeId supi psi dnn snssai container) := by
  have hsend : ∀ container, Within (fun _ _ => True) (CreatesFor psi)
      (sendSm F amfUeId psi container) := fun container =>
    (within_sendSm psi container).mono (fun _ _ _ => trivial) (fun _ h => h.elim)
  have hcall : ∀ e, CreatesFor psi (.calling amfUeId e) → Within (fun _ _ => True) (CreatesFor psi)
      (callFor amfUeId e) := fun e h => .bind (.mark h) fun _ => .ask e
  refine .bind (hcall _ fun _ _ _ _ _ _ _ h => nomatch h) fun smf => ?_
  cases smf with
  | none => exact hsend _
  | some smfBase =>
    refine .bind (hcall _ fun _ _ _ _ _ _ _ h => ?_) fun answer => ?_
    · cases h
      rfl
    · cases answer with
      | error e => exact hsend _
      | ok created =>
        refine .bind (.look _) fun ue => ?_
        cases ue with
        | none => exact .pure _
        | some c =>
          refine .bind (.changeLocal fun _ => trivial) fun _ => ?_
          cases hsec : c.sec with
          | none => simpa only [hsec] using .pure _
          | some sec =>
            simpa only [hsec] using .bind (.changeLocal fun _ => trivial) fun _ => .pure _

/-- An establishment request is obeyed, whatever becomes of it. -/
theorem during_establishSession {psi : UInt8} (hpsi : transport.pduSessionId = some psi)
    (hrequest : IsEstablishmentRequest psi transport.payloadContainer) (supi dnn : String)
    (snssai : Option Nas.Snssai) (s : Tables) :
    during recorder (fun _ _ _ _ => True) anyhow
      (establishSession F amfUeId supi psi dnn snssai transport.payloadContainer)
      (fun _ l' _ w => Obeys amfUeId transport l l' w) l s [] := by
  refine during_mono (fun _ l' _ w h => ?_) (Within.during
    (I := fun _ w => ∀ n ∈ w, CreatesFor psi n) (fun _ hI => hI) (fun _ hI => hI)
    (fun hν hI n hn => ?_) (within_establishSession supi psi dnn snssai transport.payloadContainer)
    fun n hn => absurd hn List.not_mem_nil)
  · refine ⟨fun id smfBase supi psi' dnn snssai pduType hmem => ?_, fun hnot => ?_⟩
    · rw [h _ hmem id smfBase supi psi' dnn snssai pduType rfl]
      exact ⟨hpsi, hrequest⟩
    · exact absurd ⟨psi, hpsi, hrequest⟩ hnot
  · rcases List.mem_cons.mp hn with rfl | hn
    · exact hν
    · exact hI n hn

/-- A Release Complete ends a release that is in progress, and nothing else. -/
theorem during_finalizeRelease {psi : UInt8} (hpsi : transport.pduSessionId = some psi)
    (hcomplete : Nas.isPduSessionReleaseComplete transport.payloadContainer = true)
    (h : ∀ c, l.ues.lookup amfUeId = some c →
      transport.payloadContainer[0]? = some 0x2e ∨ psi ∉ c.releasing ∨ c.smRefs.lookup psi = none)
    (s : Tables) :
    during recorder (fun _ _ _ _ => True) anyhow (finalizeRelease amfUeId psi)
      (fun _ l' _ w => Obeys amfUeId transport l l' w) l s [] := by
  simp only [finalizeRelease, getUe, Proc.wp_bind, Proc.wp_look]
  rcases hc : l.ues.lookup amfUeId with _ | c
  · exact (SameSessions.refl amfUeId l).obeys
  · by_cases hreleasing : c.releasing.contains psi = true
    · simp only [if_pos hreleasing]
      have herase : ∀ w, (∀ n ∈ w, ∀ id b su p d sn ty, n ≠ .calling id (.createSmContext b su p d sn ty)) →
          Obeys amfUeId transport l (l.modify amfUeId fun c =>
            { c with smRefs := c.smRefs.erase psi, releasing := c.releasing.filter (· != psi) }) w := by
        intro w hw
        refine ⟨fun id b su p d sn ty hmem => absurd rfl (hw _ hmem id b su p d sn ty), ?_⟩
        intro _ c' hc'
        rw [hc, Option.some_inj] at hc'
        subst hc'
        refine ⟨{ c with smRefs := c.smRefs.erase psi, releasing := c.releasing.filter (· != psi) },
          by simp [Association.modify, Keyed.Map.lookup_modify, hc], fun p hactive => ?_⟩
        rw [SessionKept, Keyed.Map.lookup_erase_eq]
        by_cases hp : p = psi
        · subst hp
          have hmem : p ∈ c.releasing := List.contains_iff_mem.mp hreleasing
          rcases h c hc with hepd | hnot | hnone
          · refine Or.inr ⟨hpsi, ⟨hepd, ?_⟩, hmem, if_pos rfl⟩
            exact beq_iff_eq.mp hcomplete
          · exact absurd hmem hnot
          · rw [hnone] at hactive
            cases hactive
        · exact Or.inl (if_neg hp)
      cases hsm : c.smRefs.lookup psi with
      | none => exact herase [] fun n hn => absurd hn List.not_mem_nil
      | some smRef =>
        intro _ r s₁ _ _
        refine herase _ fun n hn => ?_
        rintro id b su p d sn ty rfl
        cases List.mem_singleton.mp hn
    · simp only [if_neg hreleasing]
      exact (SameSessions.refl amfUeId l).obeys

/-! ### The dispatcher -/

theorem during_onUlNasTransport (h : Recognised amfUeId transport l) (s : Tables) :
    during recorder (fun _ _ _ _ => True) anyhow (onUlNasTransport F amfUeId transport)
      (fun _ l' _ w => Obeys amfUeId transport l l' w) l s [] := by
  have hstay : Obeys amfUeId transport l l [] := (SameSessions.refl amfUeId l).obeys
  unfold onUlNasTransport
  rcases hpsi : transport.pduSessionId with _ | psi
  · exact hstay
  · dsimp only
    by_cases hcomplete : Nas.isPduSessionReleaseComplete transport.payloadContainer = true
    · rw [if_pos hcomplete, during, Proc.wp_bind]
      refine during_mono (fun _ _ _ _ h => h)
        (during_finalizeRelease hpsi hcomplete (fun c hc => ?_) s)
      have hrec := h psi c hpsi hc
      rwa [if_pos hcomplete] at hrec
    · rw [if_neg hcomplete]
      simp only [getUe, Proc.wp_bind, Proc.wp_look]
      rcases hc : l.ues.lookup amfUeId with _ | c
      · exact hstay
      · dsimp only
        rcases hsuci : c.suci with _ | supi
        · exact hstay
        · dsimp only
          have hrec := h psi c hpsi hc
          rw [if_neg hcomplete, hsuci] at hrec
          by_cases houtside : outsideAllowed transport.sNssai c.allowedNssai = true
          · rw [if_pos houtside]
            exact during_sendSm _ _ s
          · rw [if_neg houtside]
            rcases hrec with hrequest | hnone | hout
            · exact during_establishSession hpsi hrequest _ _ _ s
            · cases hnone
            · exact absurd hout houtside

/-- A transport that is not recognised is answered by an execution that does not obey. -/
theorem recognised_of_during (s : Tables)
    (h : during recorder (fun _ _ _ _ => True) anyhow (onUlNasTransport F amfUeId transport)
      (fun _ l' _ w => Obeys amfUeId transport l l' w) l s []) : Recognised amfUeId transport l := by
  intro psi c hpsi hc
  unfold onUlNasTransport at h
  rw [hpsi] at h
  dsimp only at h
  by_cases hcomplete : Nas.isPduSessionReleaseComplete transport.payloadContainer = true
  · rw [if_pos hcomplete]
    rw [if_pos hcomplete] at h
    by_contra hnot
    rw [not_or, not_or, not_not] at hnot
    obtain ⟨hepd, hreleasing, hactive⟩ := hnot
    have hcontains : c.releasing.contains psi = true := List.contains_iff_mem.mpr hreleasing
    obtain ⟨smRef, hsm⟩ := Option.ne_none_iff_exists'.mp hactive
    simp only [finalizeRelease, getUe, Proc.wp_bind, Proc.wp_look, hc, hcontains, hsm, callFor,
      Proc.wp_mark, Proc.wp_ask, modifyUe, Proc.wp_changeLocal, Proc.wp_pure, if_true,
      Proc.interrupted_note, Proc.interrupted_call] at h
    have hobeys := h trivial true s rfl trivial
    -- octet 3 says that this is no establishment request
    have hnotest : ¬ Establishes transport := by
      rintro ⟨_, -, -, -, htype⟩
      rw [Nas.isPduSessionReleaseComplete, htype] at hcomplete
      exact absurd hcomplete (by decide)
    obtain ⟨c', hc', hkept⟩ := hobeys.kept hnotest c hc
    rw [Association.modify, Keyed.Map.lookup_modify, if_pos rfl, hc, Option.map_some,
      Option.some_inj] at hc'
    subst hc'
    rcases hkept psi (by rw [hsm]; rfl) with hsame | ⟨-, hrelease, -⟩
    · rw [Keyed.Map.lookup_erase_eq, if_pos rfl, hsm] at hsame
      cases hsame
    · exact hepd hrelease.1
  · rw [if_neg hcomplete]
    rw [if_neg hcomplete] at h
    by_contra hnot
    rw [not_or, not_or] at hnot
    obtain ⟨hrequest, hidentified, hinside⟩ := hnot
    obtain ⟨supi, hsuci⟩ := Option.ne_none_iff_exists'.mp hidentified
    simp only [getUe, Proc.wp_bind, Proc.wp_look, hc, hsuci, if_neg hinside, establishSession, callFor,
      Proc.wp_mark, Proc.wp_ask, Proc.interrupted_note, Proc.interrupted_call] at h
    -- some SMF is selected, and it refuses
    have hselected := h trivial (some "") s rfl trivial
    simp only [Proc.wp_bind, Proc.wp_mark, Proc.wp_ask, Proc.interrupted_note,
      Proc.interrupted_call] at hselected
    obtain ⟨dls, l', hobeys⟩ :=
      exists_of_during_sendSm (hselected trivial (.error .Other) s rfl trivial)
    exact hrequest (hobeys.created _ _ _ _ _ _ _ List.mem_cons_self).2

end Parts

/-- **Only an establishment request creates a session.** Whatever the network functions answer, and whatever else
happens meanwhile, an UL NAS Transport is obeyed exactly when its container is recognised: a container that is
no Release Complete is an establishment request for the session of the transport, or no SMF is asked; and one
with the type of a Release Complete is a 5GSM message, or there is no release to complete. -/
theorem obeys_iff_recognised (amfUeId : AmfUeId) (transport : UlNasTransport) (l : Association) :
    (∀ s dls l' s' w, Amid recorder (fun _ _ _ _ => True) anyhow
        (dispatchUplinkNas F amfUeId (.ulNasTransport transport)) l s [] dls l' s' w →
      Obeys amfUeId transport l l' w) ↔ Recognised amfUeId transport l := by
  constructor
  · intro h
    exact recognised_of_during {} (during_iff.mpr fun dls l' s' w hexec => h {} dls l' s' w hexec)
  · intro h s dls l' s' w hexec
    exact hexec.sound (during_onUlNasTransport h s)

/-! ### The answer to a modification -/

/-- A modification leaves the sessions of the UE. -/
theorem onNetworkModification_sameSessions (m : ModifyPolicy) {l l' : Association} {s s' : Tables}
    {w w' : List Mark} {sent : Option PduSessionResourceModifyRequest}
    (h : Amid recorder (fun _ _ _ _ => True) anyhow (onNetworkModification F m) l s w sent l' s' w') :
    SameSessions m.amfUeId l l' := by
  have hwithin : Within (SameSessions m.amfUeId) (fun _ => False) (onNetworkModification F m) := by
    refine .bind (.look _) fun ue => ?_
    cases ue with
    | none => exact .pure _
    | some c =>
      dsimp only
      split
      · exact .pure _
      · split
        · exact .pure _
        · exact .bind (.changeLocal (sameSessions_modify fun _ => rfl)) fun _ => .pure _
  exact h.sound (Within.during (I := fun l' _ => SameSessions m.amfUeId l l') (fun hρ hI => hI.trans hρ)
    (fun _ hI => hI) (fun hν _ => hν.elim) hwithin (.refl _ l))

/-- A registered UE with one session, and a modification of it. -/
def oneSession : Association :=
  Association.insert 1
    { UeContext.new 1 .Registered (some "imsi-999700000000001") 0 with
      sec := some (.new [] [] 0 0)
      smRefs := (∅ : Keyed.Map UInt8 (String × String)).insert 5 ("1", "http://smf") } { tx := 0 }

def sampleModification : ModifyPolicy :=
  { amfUeId := 1, psi := 5, ambrNas := Nas.SessionAmbr.TEN_MBPS
    sessionAmbrDlBps := 10000000, sessionAmbrUlBps := 10000000
    ngapFlows := [], nasFlows := [], releasedQfis := [] }

/-- The UE's PDU Session Modification Complete. -/
def modificationComplete : UlNasTransport :=
  { pduSessionId := some 5, payloadContainer := [0x2e, 5, 0, 0xcc], dnn := none, sNssai := none }

/-- The SMF creates whatever context it is asked for. -/
def creatingAnswer : (e : Call) → List Mark → e.Answer
  | .selectSmf .., _ => some "http://smf"
  | .createSmContext .., _ => Except.ok
      { smRef := "2", upN3Teid := 1, upN3Addr := 0, pduAddress := .ipv4 0, pduType := .ipv4
        cause := none, dnsIpv6 := none, snssai := (1, none), ambr := Nas.SessionAmbr.TEN_MBPS
        ngapFlows := [], nasFlows := [] }
  | e, w => sampleAnswer e w

/-- The SM context of session 5. -/
def fifthSession (l : Association) : Option (String × String) :=
  (l.ues.lookup 1).bind fun c => c.smRefs.lookup 5

/-- The UE's answer to a modification of session 5 puts a new SM context in the place of the one that
was modified. -/
theorem modification_answer_replaces :
    ∃ sent l s w dls l' s' w',
      Amid recorder (fun _ _ _ _ => True) anyhow (onNetworkModification sampleFunctions sampleModification)
        oneSession {} [] sent l s w ∧ sent.isSome ∧ fifthSession l = some ("1", "http://smf") ∧
      Amid recorder (fun _ _ _ _ => True) anyhow
        (dispatchUplinkNas sampleFunctions 1 (.ulNasTransport modificationComplete)) l s [] dls l' s' w' ∧
      fifthSession l' = some ("2", "http://smf") ∧ ¬ Obeys 1 modificationComplete l l' w' := by
  have hplay : ∀ {α : Type} (t : AmfM α) (l : Association) (s : Tables),
      let out := Proc.play recorder creatingAnswer t l s []
      Amid recorder (fun _ _ _ _ => True) anyhow t l s [] out.1 out.2.1 out.2.2.1 out.2.2.2 :=
    fun t l s => (Proc.exec_play recorder (fun _ _ => rfl) t l s []).amid (fun _ => trivial)
      fun _ _ _ _ h => h
  refine ⟨_, _, _, _, _, _, _, _, hplay _ oneSession {}, by decide +kernel, by decide +kernel,
    hplay _ _ _, by decide +kernel, fun hobeys => ?_⟩
  have hcall := hobeys.created 1 "http://smf" "imsi-999700000000001" 5 DEFAULT_DNN none none
    (by decide +kernel)
  exact absurd hcall.2 (by decide)

end Radian.Amf
