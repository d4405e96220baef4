import Radian.Amf.Confined
import Radian.Proc.Loop
import Radian.Runs.Basic

/-!
# Service after authentication

Until a UE has answered the Security Mode Command under the keys of its own authentication, a
registration is nothing but an attempt.  While there is no security context the dispatcher takes any
message as it stands, by its type alone.

- `Created`, `Authenticated`, `Secured` — how far a context has come.
- `Guarded` — service only for secured contexts, and nothing moves for a message out of step.
- `InStep`, `Ignored`, `Heeds` — the messages that answer the current step, those that are dropped,
  and the runs in which no other reaches a context that is not secured.
- `guarded_of_heeds` — in those runs service comes after authentication.
-/

namespace Radian.Amf

open Keyed (Map)
open Nas (Nas5gmmMessage NasCodec NasSecurityContext)
open Nas.NasSecurityContext (SameKeys)
open Proc (Amid Loop attemptLoop during during_mono loop_attemptLoop)
open Runs (Since Each)
open Security (Algorithms Bytes)

/-! ### How far a context has come -/

/-- The context under `amfUeId` is a registration's own. -/
def Created (amfUeId : AmfUeId) : List Mark → Prop :=
  Since (fun n => opened n ≠ some amfUeId) fun _ n => n = .created amfUeId

variable (F : Functions)

/-- `sec` is the security context that an accepted RES* leads to. -/
def Derived (kseaf supi : String) (sec : NasSecurityContext) : Prop :=
  ∃ ueSecCap sec₀ smc kamf,
    establishSecurity F kseaf supi ueSecCap = some (sec₀, smc, kamf) ∧ SameKeys sec₀ sec

/-- A RES* of the UE was accepted, and `sec` is derived from that. -/
def Authenticated (amfUeId : AmfUeId) (sec : NasSecurityContext) : List Mark → Prop :=
  Since (fun n => opened n ≠ some amfUeId) fun _ n =>
    ∃ kseaf supi, n = .authenticated amfUeId kseaf supi ∧ Derived F kseaf supi sec

/-- A Security Mode Complete verified under a security context derived from an accepted RES*. -/
def Secured (amfUeId : AmfUeId) : List Mark → Prop :=
  Since (fun n => opened n ≠ some amfUeId) fun past n =>
    ∃ sec, n = .verified amfUeId sec .securityModeComplete ∧ Authenticated F amfUeId sec past

/-- Only a secured context is served. -/
def Lawful (past : List Mark) (n : Mark) : Prop :=
  ∀ amfUeId, service n = some amfUeId → Created amfUeId past → Secured F amfUeId past

/-! ### Messages in and out of step -/

/-- A message in the clear that the context waits for: the answer to its Identity Request or its
Authentication Request. -/
def awaits (c : UeContext) : Nas5gmmMessage → Bool
  | .identityResponse _ => c.state == .IdentityRequested
  | .authenticationResponse _ => c.auth.isSome
  | .authenticationFailure .. => c.auth.isSome
  | _ => false

/-- The PDU is the answer that the context waits for; once it has a security context, that is the
Security Mode Complete. -/
def InStep (c : UeContext) (raw : Bytes) : Prop :=
  match c.sec with
  | some sec => (sec.unprotect F.algorithms F.nas.toCodec raw 0).1 = some .securityModeComplete
  | none => ∃ m ∈ F.nas.decode raw, awaits c m

/-- Of a message in the clear nothing comes: the context does not wait for it, and it is none that
the dispatcher takes from anyone. -/
def ignores (c : UeContext) : Nas5gmmMessage → Bool
  | .identityResponse _ => c.state != .IdentityRequested
  | .authenticationResponse _ => c.auth.isNone && c.pendingRetx.isNone
  | .ulNasTransport transport =>
      transport.pduSessionId.isNone ||
        Nas.isPduSessionReleaseComplete transport.payloadContainer || c.suci.isNone
  | .authenticationFailure .. => false
  | .securityModeComplete => false
  | .registrationComplete => false
  | .deregistrationRequestFromUe _ => false
  | _ => true

/-- The PDU is dropped: it does not verify, it cannot be decoded, or nothing comes of its type. -/
def Ignored (c : UeContext) (raw : Bytes) : Prop :=
  match c.sec with
  | some sec => sec.unprotect F.algorithms F.nas.toCodec raw 0 = (none, sec)
  | none => ∀ m ∈ F.nas.decode raw, ignores c m

/-- What comes in for a context that is created and not secured is in step, or it is dropped. -/
def Heeds : Mark → Association → Tables → List Mark → Prop
  | .uplink amfUeId raw, l, _, w =>
      ∀ c, l.ues.lookup amfUeId = some c → Created amfUeId w → ¬ Secured F amfUeId w →
        InStep F c raw ∨ Ignored F c raw
  | _, _, _, _ => True

/-! ### Runs -/

/-- Every call is answered anyhow, and the marks are recorded. -/
abbrev recorder : Outside Association Tables Mark Call Call.Answer (List Mark) :=
  Proc.recorder Association Tables Mark Call Call.Answer

/-- What other tasks do to the tables. -/
abbrev anyhow : Tables → Tables → Prop := fun _ _ => True

/-- The runs of an association from its start. -/
def Serving (allow : Mark → Association → Tables → List Mark → Prop) (tx : Channel) (s₀ : Tables) :
    Association → Tables → List Mark → Prop :=
  Loop recorder allow (handleNgap F) anyhow { tx } s₀ []

/-- Only secured contexts have been served and are registered, and a message out of step leaves a
context that is not secured, and the tables, as they are. -/
structure Guarded (allow : Mark → Association → Tables → List Mark → Prop) (l : Association)
    (s : Tables) (w : List Mark) : Prop where
  lawful : Each (Lawful F) w
  registered : ∀ amfUeId c, l.ues.lookup amfUeId = some c → c.state = .Registered →
    Created amfUeId w → Secured F amfUeId w
  unmoved : ∀ (msg : UplinkNASTransport) amfUeId c raw l' s' w',
    msg.amfUeNgapId = some amfUeId → msg.nasPdu = some raw → l.ues.lookup amfUeId = some c →
    Created amfUeId w → ¬ Secured F amfUeId w → ¬ InStep F c raw →
    Amid recorder allow anyhow (handleNgap F (.uplinkNas msg)) l s w () l' s' w' →
    l'.ues.lookup amfUeId = some c ∧ s' = s

/-! ### The invariant -/

/-- What is known of a context that is not secured. -/
structure Waiting (amfUeId : AmfUeId) (c : UeContext) (w : List Mark) : Prop where
  state : c.state ≠ .Registered
  sec : ∀ sec, c.sec = some sec → Authenticated F amfUeId sec w
  releasing : c.releasing = []
  deregAttempts : c.deregAttempts = none
  pendingConfigUpdate : c.pendingConfigUpdate = none

structure Checked (l : Association) (w : List Mark) : Prop where
  lawful : Each (Lawful F) w
  waiting : ∀ amfUeId c, l.ues.lookup amfUeId = some c → Created amfUeId w →
    ¬ Secured F amfUeId w → Waiting F amfUeId c w

variable {F}

section Histories

variable {amfUeId : AmfUeId} {n : Mark} {w : List Mark} {sec : NasSecurityContext}

theorem created_cons (h : opened n ≠ some amfUeId) :
    Created amfUeId (n :: w) ↔ Created amfUeId w := by
  constructor
  · rintro (rfl | ⟨-, hw⟩)
    · exact absurd rfl h
    · exact hw
  · exact fun hw => hw.later h

theorem Authenticated.later (hw : Authenticated F amfUeId sec w) (h : opened n ≠ some amfUeId) :
    Authenticated F amfUeId sec (n :: w) := Since.later hw h

theorem Secured.later (hw : Secured F amfUeId w) (h : opened n ≠ some amfUeId) :
    Secured F amfUeId (n :: w) := Since.later hw h

theorem Waiting.later {c : UeContext} (hw : Waiting F amfUeId c w) (h : opened n ≠ some amfUeId) :
    Waiting F amfUeId c (n :: w) :=
  { hw with sec := fun sec hsec => (hw.sec sec hsec).later h }

/-- A context that has just come back is no registration's own. -/
theorem not_created_resumed : ¬ Created amfUeId (.resumed amfUeId :: w) := by
  rintro (hn | ⟨hn, -⟩)
  · cases hn
  · exact hn rfl

end Histories

namespace Checked

variable {amfUeId : AmfUeId} {n : Mark} {l l' : Association} {w : List Mark}

theorem start (tx : Channel) : Checked F { tx } [] where
  lawful := trivial
  waiting _ _ h := by cases h

/-- What holds of a context under another id than the one opened here. -/
theorem waiting_cons (h : Checked F l w) (hn : opened n ≠ some amfUeId) {c : UeContext}
    (hc : l.ues.lookup amfUeId = some c) (hcreated : Created amfUeId (n :: w))
    (hsecured : ¬ Secured F amfUeId (n :: w)) : Waiting F amfUeId c (n :: w) := by
  have hbefore : ¬ Secured F amfUeId w := fun hs => hsecured (hs.later hn)
  exact (h.waiting amfUeId c hc ((created_cons hn).mp hcreated) hbefore).later hn

/-- A mark that opens nothing, and serves only secured contexts. -/
theorem mark (h : Checked F l w) (hopened : opened n = none) (hlawful : Lawful F w n) :
    Checked F l (n :: w) where
  lawful := ⟨hlawful, h.lawful⟩
  waiting amfUeId c hc hcreated hsecured :=
    h.waiting_cons (by simp [hopened]) hc hcreated hsecured

/-- The same contexts, in another order. -/
theorem same (h : Checked F l w) (hl : ∀ id, l'.ues.lookup id = l.ues.lookup id) :
    Checked F l' w where
  lawful := h.lawful
  waiting id c hc := h.waiting id c (hl id ▸ hc)

/-- A change that service does not rest on. -/
theorem barely (h : Checked F l w) (hl : Barely amfUeId l l') : Checked F l' w where
  lawful := h.lawful
  waiting id c hc hcreated hsecured := by
    by_cases hid : id = amfUeId
    · subst hid
      obtain ⟨c₀, hc₀, hlike⟩ := hl.like c hc
      have hw := h.waiting id c₀ hc₀ hcreated hsecured
      exact
        { state := fun hstate => hw.state (hlike.state hstate)
          sec := fun sec hsec => hw.sec sec (hlike.sec ▸ hsec)
          releasing := hlike.releasing.trans hw.releasing
          deregAttempts := hlike.deregAttempts.trans hw.deregAttempts
          pendingConfigUpdate := hlike.pendingConfigUpdate.trans hw.pendingConfigUpdate }
    · rw [hl.only id hid] at hc
      exact h.waiting id c hc hcreated hsecured

/-- A registration goes on to NAS security. -/
theorem secure (h : Checked F l w) {f : UeContext → UeContext}
    (hf : ∀ c, (f c).state ≠ .Registered ∧
      (∀ sec, (f c).sec = some sec → Authenticated F amfUeId sec w) ∧
      (f c).releasing = c.releasing ∧ (f c).deregAttempts = c.deregAttempts ∧
      (f c).pendingConfigUpdate = c.pendingConfigUpdate) : Checked F (l.modify amfUeId f) w where
  lawful := h.lawful
  waiting id c hc hcreated hsecured := by
    rw [Association.modify, Map.lookup_modify] at hc
    split at hc
    · rename_i hid
      subst hid
      obtain ⟨c₀, hc₀, rfl⟩ := Option.map_eq_some_iff.mp hc
      have hw := h.waiting id c₀ hc₀ hcreated hsecured
      obtain ⟨hstate, hsec, hreleasing, hdereg, hconfig⟩ := hf c₀
      exact
        { state := hstate
          sec := hsec
          releasing := hreleasing.trans hw.releasing
          deregAttempts := hdereg.trans hw.deregAttempts
          pendingConfigUpdate := hconfig.trans hw.pendingConfigUpdate }
    · exact h.waiting id c hc hcreated hsecured

/-- Any change of a context that is secured, or no registration's own. -/
theorem settle (h : Checked F l w) (hl : OnlyAt amfUeId l l')
    (hsettled : Created amfUeId w → Secured F amfUeId w) : Checked F l' w where
  lawful := h.lawful
  waiting id c hc hcreated hsecured := by
    by_cases hid : id = amfUeId
    · subst hid
      exact absurd (hsettled hcreated) hsecured
    · rw [hl id hid] at hc
      exact h.waiting id c hc hcreated hsecured

/-- A registration begins. -/
theorem create (h : Checked F l w) {c : UeContext} (hstate : c.state ≠ .Registered)
    (hsec : c.sec = none) (hreleasing : c.releasing = []) (hdereg : c.deregAttempts = none)
    (hconfig : c.pendingConfigUpdate = none) :
    Checked F (l.insert amfUeId c) (.created amfUeId :: w) where
  lawful := ⟨nofun, h.lawful⟩
  waiting id c' hc hcreated hsecured := by
    obtain ⟨-, rfl⟩ | ⟨hid, hc⟩ := Map.of_lookup_insert hc
    · exact ⟨hstate, by simp [hsec], hreleasing, hdereg, hconfig⟩
    · refine h.waiting_cons ?_ hc hcreated hsecured
      rintro ⟨⟩
      exact hid rfl

/-- A context comes back. -/
theorem resume (h : Checked F l w) : Checked F l (.resumed amfUeId :: w) where
  lawful := ⟨nofun, h.lawful⟩
  waiting id c hc hcreated hsecured := by
    by_cases hid : id = amfUeId
    · subst hid
      exact absurd hcreated not_created_resumed
    · refine h.waiting_cons ?_ hc hcreated hsecured
      rintro ⟨⟩
      exact hid rfl

end Checked

/-! ### Handlers keep it -/

section Handlers

variable {α : Type} {amfUeId : AmfUeId} {l l' : Association} {s : Tables} {w : List Mark}
  {allow : Mark → Association → Tables → List Mark → Prop}

/-- What tame handlers do beside a context that waits. -/
theorem Checked.during_tame (h : Checked F l w) {t : AmfM α} (ht : Tame amfUeId t) :
    during recorder allow anyhow t (fun _ l' _ w' => Checked F l' w') l s w := by
  refine ht.during (fun hl h => h.barely hl) (fun _ h => h) (fun {n l s w} hn h => ?_) h
  exact h.mark hn.1 fun id hid => by simp [hn.2] at hid

theorem Checked.during_sendAll (h : Checked F l w) (dls : List Downlink) :
    during recorder allow anyhow (sendAll dls) (fun _ l' _ w' => Checked F l' w') l s w :=
  h.during_tame (tame_sendAll dls : Tame 0 (sendAll dls))

/-- The context under `amfUeId` is secured, or no registration's own. -/
structure Settled (F : Functions) (amfUeId : AmfUeId) (l : Association) (w : List Mark) : Prop where
  checked : Checked F l w
  secured : Created amfUeId w → Secured F amfUeId w

/-- Of such a context a handler may do anything. -/
theorem Settled.during (h : Settled F amfUeId l w) {t : AmfM α} (ht : Confined amfUeId t) :
    Proc.during recorder allow anyhow t (fun _ l' _ w' => Settled F amfUeId l' w') l s w := by
  refine ht.during (fun hl h => ⟨h.checked.settle hl h.secured, h.secured⟩) (fun _ h => h)
    (fun {n l s w} hn h => ⟨h.checked.mark hn.1 fun id hid => ?_, fun hcreated => ?_⟩) h
  · obtain rfl := hn.2 id hid
    exact h.secured
  · have hstays : opened n ≠ some amfUeId := by simp [hn.1]
    exact (h.secured ((created_cons hstays).mp hcreated)).later hstays

/-! #### The first message of a UE -/

theorem during_onInitialUe (h : Checked F l w) (msg : InitialUEMessage) :
    during recorder allow anyhow (onInitialUe F msg amfUeId) (fun _ l' _ w' => Checked F l' w')
      l s w := by
  unfold onInitialUe
  cases msg.ranUeNgapId with
  | none => exact h
  | some ranUeId =>
    simp only [Proc.wp_bind, Proc.wp_look]
    generalize resolve s ((msg.nasPdu.bind F.nas.decode).bind registrationIdentity) = resolved
    obtain ⟨supi, ueSecCap, requestedNssai⟩ := resolved
    cases supi with
    | some supi => exact fun _ => h.create nofun rfl rfl rfl rfl
    | none => exact fun _ => h.create nofun rfl rfl rfl rfl

/-- Reassigning the 5G-GUTI is no matter of the contexts here. -/
theorem during_reallocateGuti {ret : Return} {c : UeContext} {tmsi : Tmsi}
    {Q : UeContext × Tmsi → Association → Tables → List Mark → Prop} (hQ : ∀ a s, Q a l s w) :
    during recorder allow anyhow (reallocateGuti ret amfUeId c tmsi) Q l s w := by
  unfold reallocateGuti
  split
  · cases c.suci with
    | none => exact hQ _ _
    | some supi => exact hQ _ _
  · exact hQ _ _

theorem during_resume (h : Checked F l w) (ranUeId : RanUeId) (tac : Option Nas.Tac) (tmsi : Tmsi)
    (ret : Return) (msg : Nas5gmmMessage) (c : UeContext) :
    during recorder allow anyhow (resume F ranUeId tac tmsi ret msg c)
      (fun _ l' _ w' => Checked F l' w') l s w := by
  simp only [resume, nextAmfUeId, Proc.wp_bind, Proc.wp_actShared, Proc.wp_look]
  refine during_reallocateGuti fun a s' _ => ?_
  have hback : Settled F s.nextAmfUeId l (.resumed s.nextAmfUeId :: w) :=
    ⟨h.resume, fun hcreated => absurd hcreated not_created_resumed⟩
  refine during_mono (fun _ _ _ _ h => h.checked) (hback.during (.bind (.pure ()) fun _ => ?_))
  refine .bind (confined_reconcileSessions _ _) fun c => .bind (confined_insertUe _) fun _ => ?_
  split
  · refine .bind (confined_address _) fun _ => .bind (confined_activateSessions _) fun _ => ?_
    cases a.1.pendingAmPolicy with
    | none => exact .pure _
    | some p => exact .bind (confined_onAmPolicyUpdate _ _ _) fun _ => .pure _
  · refine .bind (confined_activateSessions _) fun _ => ?_
    cases a.1.pendingAmPolicy with
    | none => exact .pure _
    | some p => exact .bind (confined_onAmPolicyUpdate _ _ _) fun _ => .pure _

theorem during_onServiceRequest (h : Checked F l w) (msg : InitialUEMessage) (tmsi : Tmsi) :
    during recorder allow anyhow (onServiceRequest F msg tmsi) (fun _ l' _ w' => Checked F l' w')
      l s w := by
  unfold onServiceRequest
  cases msg.ranUeNgapId with
  | none => exact h
  | some ranUeId =>
    simp only [takeRetained, Proc.wp_bind, Proc.wp_actShared]
    cases s.retained.lookup tmsi with
    | none => exact h
    | some c =>
      dsimp only
      split
      · exact during_resume h _ _ _ _ _ _
      · exact h

theorem during_onInitialUeMessage (h : Checked F l w) (msg : InitialUEMessage) :
    during recorder allow anyhow (onInitialUeMessage F msg) (fun _ l' _ w' => Checked F l' w')
      l s w := by
  unfold onInitialUeMessage
  simp only [Proc.wp_bind, Proc.wp_look]
  cases msg.fivegSTmsi.filter fun tmsi => (s.retained.lookup tmsi).isSome with
  | some tmsi =>
    simp only [Proc.wp_bind]
    exact during_mono (fun dls _ _ _ h => h.during_sendAll dls)
      (during_onServiceRequest h msg tmsi)
  | none =>
    simp only [Proc.wp_bind, Proc.wp_ask, Proc.interrupted_call]
    intro admission s₁ _ _
    split
    · cases msg.ranUeNgapId with
      | none => exact h
      | some ranUeId => exact h.during_sendAll _
    · simp only [nextAmfUeId, Proc.wp_bind, Proc.wp_actShared]
      refine during_mono (fun outcome l s w h => ?_) (during_onInitialUe h msg)
      cases outcome with
      | none => exact h
      | some outcome =>
        refine h.during_tame (.bind (tame_modifyUe fun c => ⟨id, rfl, rfl, rfl, rfl⟩) fun _ =>
          .bind (tame_arm _) fun _ => ?_)
        cases outcome with
        | needIdentity dl => exact tame_sendAll _
        | identified ranUeId supi => exact tame_startAuthentication _ _

/-! #### Messages of a context that waits -/

/-- A change that changes nothing. -/
theorem lookup_modify_self {c : UeContext} {f : UeContext → UeContext}
    (hc : l.ues.lookup amfUeId = some c) (hf : f c = c) (id : AmfUeId) :
    (l.modify amfUeId f).ues.lookup id = l.ues.lookup id := by
  rw [Association.modify, Map.lookup_modify]
  split
  · rename_i hid
    rw [hid, hc, Option.map_some, hf]
  · rfl

/-- Of a message whose type is dropped nothing comes. -/
theorem during_handleUplink_ignored {c : UeContext} {m : Nas5gmmMessage}
    (hc : l.ues.lookup amfUeId = some c) (hw : Waiting F amfUeId c w) (hignored : ignores c m)
    {Q : List Downlink → Association → Tables → List Mark → Prop} {w' : List Mark}
    (hQ : ∀ l', (∀ id, l'.ues.lookup id = l.ues.lookup id) → Q [] l' s w') :
    during recorder allow anyhow (handleUplink F amfUeId m) Q l s w' := by
  have hsame := hQ l fun _ => rfl
  cases m with
  | identityResponse identity =>
    have hstate : c.state ≠ .IdentityRequested := bne_iff_ne.mp hignored
    simp only [handleUplink, dispatchUplinkNas, onIdentityResponse, getUe, Proc.wp_bind,
      Proc.wp_look, hc, hstate, if_true, ne_eq, not_false_eq_true]
    exact hsame
  | authenticationResponse resStar =>
    obtain ⟨hauth, hretx⟩ : c.auth = none ∧ c.pendingRetx = none := by
      simpa [ignores] using hignored
    simp only [handleUplink, completeAuthentication, takePending, Proc.wp_bind, Proc.wp_act, hc,
      Option.bind_some, hauth]
    refine hQ _ (lookup_modify_self hc ?_)
    rw [← hauth, ← hretx]
  | deregistrationAcceptToUe =>
    simp only [handleUplink, dispatchUplinkNas, onDeregistrationAccept, getUe, Proc.wp_bind,
      Proc.wp_look, hc, hw.deregAttempts]
    exact hsame
  | configurationUpdateComplete =>
    refine hQ _ (lookup_modify_self hc ?_)
    rw [← hw.pendingConfigUpdate]
  | ulNasTransport transport =>
    cases hpsi : transport.pduSessionId with
    | none =>
      simp only [handleUplink, dispatchUplinkNas, onUlNasTransport, hpsi]
      exact hsame
    | some psi =>
      simp only [handleUplink, dispatchUplinkNas, onUlNasTransport, hpsi]
      split
      · -- no release of the network's is under way that it could complete
        simp only [finalizeRelease, getUe, Proc.wp_bind, Proc.wp_look, hc, hw.releasing,
          List.contains_nil, Bool.false_eq_true, if_false]
        exact hsame
      · rename_i hcomplete
        have hsuci : c.suci = none := by
          simpa [ignores, hpsi, hcomplete] using hignored
        simp only [getUe, Proc.wp_bind, Proc.wp_look, hc, hsuci]
        exact hsame
  | authenticationFailure cause auts => cases hignored
  | securityModeComplete => cases hignored
  | registrationComplete => cases hignored
  | deregistrationRequestFromUe deregistrationType => cases hignored
  | _ => exact hsame

/-- Of a message that is dropped nothing comes. -/
theorem during_onUplinkNas_ignored {c : UeContext} {msg : UplinkNASTransport} {raw : Bytes}
    (hid : msg.amfUeNgapId = some amfUeId) (hraw : msg.nasPdu = some raw)
    (hc : l.ues.lookup amfUeId = some c) (hw : Waiting F amfUeId c w)
    (hignored : allow (.uplink amfUeId raw) l s w → Ignored F c raw)
    {Q : List Downlink → Association → Tables → List Mark → Prop}
    (hQ : ∀ l', (∀ id, l'.ues.lookup id = l.ues.lookup id) → Q [] l' s (.uplink amfUeId raw :: w)) :
    during recorder allow anyhow (onUplinkNas F msg) Q l s w := by
  simp only [onUplinkNas, hid, getUe, Proc.wp_bind, Proc.wp_look, hc, hraw, Proc.wp_mark,
    Proc.interrupted_note]
  intro hallow
  have hignored := hignored hallow
  unfold Ignored at hignored
  unfold readUplink
  cases hsec : c.sec with
  | some sec =>
    simp only [hsec] at hignored
    simp only [hignored]
    refine hQ _ (lookup_modify_self hc ?_)
    rw [← hsec]
  | none =>
    simp only [hsec] at hignored
    cases hm : F.nas.decode raw with
    | none => exact hQ _ fun _ => rfl
    | some m =>
      exact during_handleUplink_ignored hc hw (hignored m hm) hQ

/-- NAS security is derived from the authentication that has just succeeded. -/
theorem during_secureUe (h : Checked F l w) (kseaf supi : String) :
    during recorder allow anyhow
      (do Proc.mark (.authenticated amfUeId kseaf supi); secureUe F amfUeId kseaf supi)
      (fun _ l' _ w' => Checked F l' w') l s w := by
  have hmarked : Checked F l (.authenticated amfUeId kseaf supi :: w) := h.mark rfl nofun
  simp only [secureUe, getUe, Proc.wp_bind, Proc.wp_mark, Proc.wp_look, Proc.interrupted_note]
  intro _
  split
  · rename_i sec smc kamf c hderived hc
    refine hmarked.secure fun c => ⟨nofun, ?_, rfl, rfl, rfl⟩
    rintro _ ⟨⟩
    exact .inl ⟨kseaf, supi, rfl, _, sec, smc, kamf, hderived, SameKeys.refl sec⟩
  · exact hmarked

theorem during_completeAuthentication (h : Checked F l w) (resStar : Option Bytes) :
    during recorder allow anyhow (completeAuthentication F amfUeId resStar)
      (fun _ l' _ w' => Checked F l' w') l s w := by
  simp only [completeAuthentication, Proc.wp_bind]
  refine during_mono (fun pending l s w h => ?_) (h.during_tame tame_takePending)
  cases pending with
  | none => exact h
  | some pending =>
    cases resStar with
    | none => exact h.during_tame tame_rejectAuthentication
    | some resStar =>
      simp only [Proc.wp_bind]
      refine during_mono (fun outcome l s w h => ?_) (h.during_tame (tame_finish pending resStar))
      split
      · exact during_secureUe h _ _
      · exact h
      · exact h.during_tame tame_rejectAuthentication

/-- A message in step. -/
theorem during_onUplinkNas_inStep {c : UeContext} {msg : UplinkNASTransport} {raw : Bytes}
    (h : Checked F l w) (hid : msg.amfUeNgapId = some amfUeId) (hraw : msg.nasPdu = some raw)
    (hc : l.ues.lookup amfUeId = some c) (hw : Waiting F amfUeId c w) (hstep : InStep F c raw) :
    during recorder allow anyhow (onUplinkNas F msg) (fun _ l' _ w' => Checked F l' w') l s w := by
  have hmarked : Checked F l (.uplink amfUeId raw :: w) := h.mark rfl nofun
  simp only [onUplinkNas, hid, getUe, Proc.wp_bind, Proc.wp_look, hc, hraw, Proc.wp_mark,
    Proc.interrupted_note]
  intro _
  unfold InStep at hstep
  unfold readUplink
  cases hsec : c.sec with
  | none =>
    simp only [hsec] at hstep
    obtain ⟨m, hm, hawaited⟩ := hstep
    simp only [Option.mem_def.mp hm, Proc.wp_pure]
    cases m with
    | identityResponse identity => exact hmarked.during_tame (tame_onIdentityResponse identity)
    | authenticationResponse resStar => exact during_completeAuthentication hmarked resStar
    | authenticationFailure cause auts =>
      exact hmarked.during_tame (tame_onAuthenticationFailure cause auts)
    | _ => cases hawaited
  | some sec =>
    simp only [hsec] at hstep
    have hsecured : Secured F amfUeId
        (.verified amfUeId sec .securityModeComplete :: .uplink amfUeId raw :: w) :=
      .inl ⟨sec, rfl, (hw.sec sec hsec).later nofun⟩
    have hverified := hmarked.mark (n := .verified amfUeId sec .securityModeComplete) rfl nofun
    dsimp only
    generalize sec.unprotect F.algorithms F.nas.toCodec raw 0 = read at hstep ⊢
    obtain ⟨m, sec'⟩ := read
    obtain rfl : m = some .securityModeComplete := hstep
    simp only [modifyUe, Proc.wp_bind, Proc.wp_changeLocal, Proc.wp_mark, Proc.wp_pure,
      Proc.interrupted_note]
    intro _
    have hsettled : Settled F amfUeId (l.modify amfUeId fun c => { c with sec := some sec' })
        (.verified amfUeId sec .securityModeComplete :: .uplink amfUeId raw :: w) :=
      ⟨hverified.settle (onlyAt_modify _ l) fun _ => hsecured, fun _ => hsecured⟩
    exact during_mono (fun _ _ _ _ h => h.checked) (hsettled.during confined_onSecurityModeComplete)

/-- A message of any context. -/
theorem during_onUplinkNas (h : Checked F l w) (msg : UplinkNASTransport) :
    during recorder (Heeds F) anyhow (onUplinkNas F msg) (fun _ l' _ w' => Checked F l' w')
      l s w := by
  cases hid : msg.amfUeNgapId with
  | none =>
    simp only [onUplinkNas, hid]
    exact h
  | some amfUeId =>
    by_cases hopen : Created amfUeId w ∧ ¬ Secured F amfUeId w
    · obtain ⟨hcreated, hsecured⟩ := hopen
      cases hc : l.ues.lookup amfUeId with
      | none =>
        simp only [onUplinkNas, hid, getUe, Proc.wp_bind, Proc.wp_look, hc]
        exact h
      | some c =>
        cases hraw : msg.nasPdu with
        | none =>
          simp only [onUplinkNas, hid, getUe, Proc.wp_bind, Proc.wp_look, hraw]
          exact h
        | some raw =>
          have hw := h.waiting amfUeId c hc hcreated hsecured
          by_cases hstep : InStep F c raw
          · exact during_onUplinkNas_inStep h hid hraw hc hw hstep
          · have hmarked : Checked F l (.uplink amfUeId raw :: w) := h.mark rfl nofun
            refine during_onUplinkNas_ignored hid hraw hc hw (fun hheeds => ?_) fun l' hl' => ?_
            · exact (hheeds c hc hcreated hsecured).resolve_left hstep
            · exact hmarked.same hl'
    · have hsettled : Settled F amfUeId l w :=
        ⟨h, fun hcreated => by_contra fun hs => hopen ⟨hcreated, hs⟩⟩
      refine during_mono (fun _ _ _ _ h => h.checked) (hsettled.during ?_)
      unfold onUplinkNas
      simp only [hid]
      refine .bind (.look _) fun ue => ?_
      split
      · refine .bind (.mark ⟨rfl, nofun⟩) fun _ => .bind (confined_readUplink _ _) fun m => ?_
        cases m with
        | none => exact .pure _
        | some m => exact confined_handleUplink m
      · exact .pure _

theorem during_handleNgap (h : Checked F l w) (q : Input) :
    during recorder (Heeds F) anyhow (handleNgap F q) (fun _ l' _ w' => Checked F l' w') l s w := by
  cases q with
  | initialUe msg => exact during_onInitialUeMessage h msg
  | uplinkNas msg =>
    simp only [handleNgap, Proc.wp_bind]
    exact during_mono (fun dls _ _ _ h => h.during_sendAll dls)
      (during_onUplinkNas h msg)

end Handlers

/-! ### Runs keep it -/

section Serving

variable {tx : Channel} {s₀ s : Tables} {l : Association} {w : List Mark}

theorem Serving.checked (h : Serving F (Heeds F) tx s₀ l s w) : Checked F l w :=
  Loop.invariant (I := fun l _ w => Checked F l w) (fun q _ _ _ h => during_handleNgap h q)
    (fun _ _ _ _ h _ => h) h (.start tx)

/-- **Service after authentication.** In a run in which no message out of step reaches a context
that is not secured, unless it is dropped, only secured contexts are served. -/
theorem guarded_of_heeds (h : Serving F (Heeds F) tx s₀ l s w) : Guarded F (Heeds F) l s w where
  lawful := h.checked.lawful
  registered amfUeId c hc hstate hcreated := by
    by_contra hsecured
    exact (h.checked.waiting amfUeId c hc hcreated hsecured).state hstate
  unmoved msg amfUeId c raw l' s' w' hid hraw hc hcreated hsecured hstep hexec := by
    have hw := h.checked.waiting amfUeId c hc hcreated hsecured
    refine hexec.sound ?_ (Q := fun _ l' s' _ => l'.ues.lookup amfUeId = some c ∧ s' = s)
    simp only [handleNgap, Proc.wp_bind]
    refine during_onUplinkNas_ignored hid hraw hc hw (fun hheeds => ?_) fun l' hl' => ?_
    · exact (hheeds c hc hcreated hsecured).resolve_left hstep
    · exact ⟨(hl' amfUeId).trans hc, rfl⟩

end Serving

/-! #### A registration whose messages are all in step -/

def sampleKamf : Bytes :=
  [0x57, 0x99, 0xc8, 0x3f, 0x63, 0x2b, 0xde, 0xc4, 0xa9, 0x44, 0xad, 0x2a, 0x13, 0xa2, 0xf4, 0x31,
    0x1d, 0x1a, 0xe2, 0x93, 0x5b, 0x73, 0x14, 0x66, 0x2f, 0x87, 0x6b, 0xa5, 0x96, 0x5c, 0x7f, 0x7a]

def sampleKnasInt : Bytes :=
  [0xba, 0xdd, 0x94, 0x9c, 0x69, 0xe2, 0x7d, 0xbf, 0xa0, 0xea, 0x7d, 0xaa, 0x78, 0xf8, 0x43, 0x21]

def sampleRand : Bytes := (List.range 16).map UInt8.ofNat

def sampleResStar : Bytes := List.replicate 16 0x55

/-- Key derivation from the sample's challenge and K_SEAF. -/
def sampleAka : Aka where
  servingNetworkName mcc mnc := "5G:mnc0" ++ mnc ++ ".mcc" ++ mcc ++ ".3gppnetwork.org"
  hxresStar rand resStar :=
    if (rand, resStar) = (sampleRand, sampleResStar) then
      [0x3c, 0x4f, 0x4c, 0x4f, 0x72, 0xb0, 0x48, 0x84, 0xd4, 0x5c, 0x8d, 0xa1, 0xd5, 0x2a, 0x43, 0xd0]
    else []
  kamf kseaf supi _ :=
    if (kseaf, supi) = (List.replicate 32 0x33, "imsi-999700000000001") then sampleKamf else []
  nasKeys kamf nea nia :=
    if (kamf, nea, nia) = (sampleKamf, 0, 2) then
      (sampleKnasInt, [0xbf, 0xbd, 0xd2, 0x37, 0x8d, 0xfc, 0xdc, 0x38, 0x5c, 0x96, 0xee, 0x46, 0x80,
        0xdd, 0xad, 0x50])
    else ([], [])
  kgnb kamf count :=
    if (kamf, count) = (sampleKamf, 0) then
      [0x68, 0x16, 0x6b, 0xf2, 0xe0, 0x66, 0x52, 0x81, 0xf8, 0x56, 0x25, 0xf6, 0x62, 0x48, 0x82, 0x76,
        0x96, 0x58, 0x2f, 0x79, 0x78, 0xb7, 0x4f, 0x66, 0x4a, 0x38, 0xb8, 0x49, 0x27, 0x4b, 0x93, 0x64]
    else []

/-- 128-NIA2 on the first message either way, without ciphering. -/
def sampleNasAlgorithms : Algorithms :=
  .ofStream
    (fun key count bearer direction message nia =>
      if (key, count, bearer, nia) = (sampleKnasInt, 0, 1, 2) then
        if (direction, message) = (0, [0x00, 0x7e, 0x00, 0x5e]) then 0x0d9b38c6
        else if (direction, message) = (1, [0x00, 0x7e, 0x00, 0x5d, 0x02, 0x00, 0x02, 0x80, 0x20]) then
          0xe9c7bca6
        else 0
      else 0)
    (fun _ _ _ _ _ => [])

/-- A Registration Request of `imsi-999700000000001` under the null scheme, with 5G-EA0 and
128-5G-IA2. -/
def sampleRequest : Bytes :=
  [0x7e, 0x00, 0x41, 0x79, 0x00, 0x0d, 0x01, 0x99, 0xf9, 0x07, 0x00, 0x00, 0x00, 0x00, 0x00, 0x00, 0x00,
    0x00, 0x10, 0x2e, 0x02, 0x80, 0x20]

/-- The messages of the sample. -/
def sampleNas : NasCodec where
  encode
    | .authenticationRequest ngksi rand autn =>
        [0x7e, 0x00, 0x56, ngksi, 0x02, 0x00, 0x00, 0x21] ++ rand ++ [0x20, 0x10] ++ autn
    | .securityModeCommand nea nia ngksi cap =>
        [0x7e, 0x00, 0x5d, nea <<< 4 ||| nia, ngksi, 0x02, cap.1, cap.2]
    | _ => []
  decode raw :=
    if raw = sampleRequest then
      some (.registrationRequest
        { registrationType := some .initialRegistration
          mobileIdentity := .suci
            { mcc := [9, 9, 9], mnc := [7, 0, 0x0f], routingIndicator := [0x00, 0x00]
              protectionScheme := 0, homeNwPublicKeyId := 0
              schemeOutput := [0x00, 0x00, 0x00, 0x00, 0x10] }
          ueSecurityCapability := some (0x80, 0x20)
          requestedNssai := none, uplinkDataStatus := none, pduSessionStatus := none })
    else if raw = [0x7e, 0x00, 0x57, 0x2d, 0x10] ++ sampleResStar then
      some (.authenticationResponse (some sampleResStar))
    else if raw = [0x7e, 0x00, 0x5e] then some .securityModeComplete
    else if raw = [0x7e, 0x00, 0x43] then some .registrationComplete
    else none

def sampleFunctions : Functions :=
  { aka := sampleAka, algorithms := sampleNasAlgorithms, nas := sampleNas }

/-- An AUSF that knows the UE, a PCF, and no others. -/
def sampleAnswer : (e : Call) → List Mark → e.Answer
  | .cblAdmit, _ => Admission.disabled
  | .discoverNf nfType, _ =>
      if nfType = "AUSF" then some "http://ausf" else if nfType = "PCF" then some "http://pcf" else none
  | .authenticate .., _ => some
      { authCtxId := "1"
        rand := "000102030405060708090a0b0c0d0e0f"
        autn := "22222222222222222222222222222222"
        hxresStar := "3c4f4c4f72b04884d45c8da1d52a43d0" }
  | .authenticateResync .., _ => none
  | .confirm .., _ => some
      { authResult := "AUTHENTICATION_SUCCESS"
        kseaf := some "3333333333333333333333333333333333333333333333333333333333333333"
        supi := some "imsi-999700000000001" }
  | .getAmData .., _ => none
  | .createAmPolicy .., _ => some ("1", { rfsp := none, ueAmbr := none, servAreaRes := none })
  | .nsSelection .., _ => none
  | .selectSmf .., _ => none
  | .createSmContext .., _ => Except.error CreateSmError.Other
  | .releaseSmContext .., _ => true
  | .activateUpConnection .., _ => none

def sampleRegistration : List Input :=
  [.initialUe
      { ranUeNgapId := some 1, nasPdu := some sampleRequest, fivegSTmsi := none, tac := some 1 },
    .uplinkNas
      { amfUeNgapId := some 1, nasPdu := some ([0x7e, 0x00, 0x57, 0x2d, 0x10] ++ sampleResStar) },
    .uplinkNas
      { amfUeNgapId := some 1
        nasPdu := some [0x7e, 0x04, 0x0d, 0x9b, 0x38, 0xc6, 0x00, 0x7e, 0x00, 0x5e] }]

/-- Every message is in step, or it is dropped. -/
def Orderly (F : Functions) : Mark → Association → Tables → List Mark → Prop
  | .uplink amfUeId raw, l, _, _ => ∀ c ∈ l.ues.lookup amfUeId, InStep F c raw ∨ Ignored F c raw
  | _, _, _, _ => True

theorem heeds_of_orderly {n : Mark} {l : Association} {s : Tables} {w : List Mark}
    (h : Orderly F n l s w) : Heeds F n l s w := by
  cases n with
  | uplink amfUeId raw => exact fun c hc _ _ => h c hc
  | _ => trivial

instance decidableInStep (F : Functions) (c : UeContext) (raw : Bytes) :
    Decidable (InStep F c raw) :=
  match h : c.sec with
  | some sec =>
      decidable_of_iff
        ((sec.unprotect F.algorithms F.nas.toCodec raw 0).1 = some .securityModeComplete)
        (by rw [InStep, h])
  | none => decidable_of_iff (∃ m ∈ F.nas.decode raw, awaits c m) (by rw [InStep, h])

instance decidableIgnored (F : Functions) (c : UeContext) (raw : Bytes) :
    Decidable (Ignored F c raw) :=
  match h : c.sec with
  | some sec =>
      decidable_of_iff (sec.unprotect F.algorithms F.nas.toCodec raw 0 = (none, sec))
        (by rw [Ignored, h])
  | none => decidable_of_iff (∀ m ∈ F.nas.decode raw, ignores c m) (by rw [Ignored, h])

instance decidableOrderly (F : Functions) :
    ∀ (n : Mark) (l : Association) (s : Tables) (w : List Mark), Decidable (Orderly F n l s w)
  | .uplink amfUeId raw, l, _, _ =>
      inferInstanceAs
        (Decidable (∀ c ∈ l.ues.lookup amfUeId, InStep F c raw ∨ Ignored F c raw))
  | .verified .., _, _, _ => .isTrue trivial
  | .created _, _, _, _ => .isTrue trivial
  | .resumed _, _, _, _ => .isTrue trivial
  | .authenticated .., _, _, _ => .isTrue trivial
  | .registered _, _, _, _ => .isTrue trivial
  | .calling .., _, _, _ => .isTrue trivial
  | .spawning .., _, _, _ => .isTrue trivial
  | .sending _, _, _, _ => .isTrue trivial

theorem guarded_sampleRegistration :
    ∃ l s w, (w.any fun n => service n == some 1) = true ∧
      Guarded sampleFunctions (Heeds sampleFunctions) l s w := by
  have hserved : (attemptLoop recorder (Orderly sampleFunctions) sampleAnswer
      (handleNgap sampleFunctions) sampleRegistration { tx := 0 } {} []).any
        (fun e => e.2.2.any fun n => service n == some 1) = true := by
    decide +kernel
  obtain ⟨⟨l, s, w⟩, hrun, hw⟩ := (Option.any_eq_true _ _).mp hserved
  exact ⟨l, s, w, hw, guarded_of_heeds
    (loop_attemptLoop (fun _ _ _ _ => heeds_of_orderly) (fun _ => trivial) hrun)⟩

/-! #### A Registration Complete in the clear -/

instance decidableCreated (amfUeId : AmfUeId) (w : List Mark) : Decidable (Created amfUeId w) :=
  inferInstanceAs
    (Decidable (Since (fun n => opened n ≠ some amfUeId) (fun _ n => n = .created amfUeId) w))

/-- Nothing has verified yet. -/
abbrev Unverified (w : List Mark) : Prop := ∀ n ∈ w, (n matches .verified ..) = false

theorem Unverified.not_secured {F : Functions} {amfUeId : AmfUeId} {w : List Mark}
    (h : Unverified w) : ¬ Secured F amfUeId w := by
  intro hsecured
  obtain ⟨past, n, hn, sec, rfl, -⟩ := hsecured.exists_mem
  cases h _ hn

/-- The UE of the sample answers its Authentication Request with a Registration Complete. -/
def sampleIntrusion : List Input :=
  [.initialUe
      { ranUeNgapId := some 1, nasPdu := some sampleRequest, fivegSTmsi := none, tac := some 1 },
    .uplinkNas { amfUeNgapId := some 1, nasPdu := some [0x7e, 0x00, 0x43] }]

/-- It is registered. -/
theorem registered_sampleIntrusion :
    ¬ ∀ F tx s₀ l s w, Serving F (fun _ _ _ _ => True) tx s₀ l s w →
      Guarded F (fun _ _ _ _ => True) l s w := by
  intro h
  have hregistered : (attemptLoop recorder (fun _ _ _ _ => True) sampleAnswer
      (handleNgap sampleFunctions) sampleIntrusion { tx := 0 } {} []).any
        (fun e => decide ((∃ c ∈ e.1.ues.lookup 1, c.state = .Registered) ∧ Created 1 e.2.2 ∧
          Unverified e.2.2)) = true := by
    decide +kernel
  obtain ⟨⟨l, s, w⟩, hrun, hw⟩ := (Option.any_eq_true _ _).mp hregistered
  obtain ⟨⟨c, hc, hstate⟩, hcreated, hunverified⟩ := of_decide_eq_true hw
  have hguarded := h sampleFunctions 0 {} l s w
    (loop_attemptLoop (fun _ _ _ _ h => h) (fun _ => trivial) hrun)
  exact hunverified.not_secured (hguarded.registered 1 c hc hstate hcreated)

end Radian.Amf