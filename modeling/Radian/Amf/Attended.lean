import Radian.Amf.OutstandingSteps

/-!
# Attended procedures

In runs in which contexts at rest alone go idle or change their association, every procedure has its timer.

- `keeps_startAuthentication`, …, `keeps_onUplinkNas` — authentication.
- `keeps_expiry`, `keeps_handle`, `Running.intact` — all that an association is given to do.
- `releases_expiry`, `deregisters_expiry` — how a procedure comes to its end.
- `timers_attend` — these runs are attended.
- `retained_unattended` — a UE goes idle while it is being deregistered.
-/

namespace Radian.Amf.Outstanding

open Identity (Held Task handle)
open Keyed (Map)
open Nas (Nas5gmmMessage)
open Proc (Amid Deed assured)
open Security (Bytes)

variable {F : Functions} {tx : Channel} {due : Due} {held : Held} {amfUeId : AmfUeId} {c : UeContext}
  {l : Association} {t : Tables} {w : List Mark}

/-! ### Authentication -/

theorem keeps_begin (supi : String) : Keeps tx due due held held (AmfAuth.begin F amfUeId supi) := by
  refine .bind (.callFor _) fun ausf => ?_
  cases ausf with
  | none => exact .pure _
  | some ausfBase =>
    refine .bind (.callFor _) fun ctx => ?_
    cases ctx <;> exact .pure _

theorem keeps_resync (pending : PendingAuth) (supi : String) (auts : Bytes) :
    Keeps tx due due held held (AmfAuth.resync F amfUeId pending supi auts) := by
  refine .bind (.callFor _) fun ctx => ?_
  cases ctx <;> exact .pure _

theorem keeps_finish (pending : PendingAuth) (resStar : Bytes) :
    Keeps tx due due held held (AmfAuth.finish F amfUeId pending resStar) := by
  unfold AmfAuth.finish
  split
  · exact .pure _
  · split
    · exact .pure _
    · refine .bind (.callFor _) fun conf => ?_
      cases conf <;> exact .pure _

/-- The UE of a context that is not registered is challenged. -/
theorem keeps_startAuthentication (hstate : c.state ≠ .Registered) (ranUeId : RanUeId) (supi : String) :
    Keeps tx [] [] (some (amfUeId, c)) none (startAuthentication F amfUeId ranUeId supi) := by
  refine .bind (keeps_begin supi) fun challenge => ?_
  cases challenge with
  | none => exact .done _
  | some challenge =>
    obtain ⟨pending, nasReq⟩ := challenge
    exact .bind (.look _) fun now => .bind (.turn (turns_challenged hstate pending nasReq now)) fun _ =>
      .bind (.arm (.nasRetx .AuthRequest)) fun _ => .drop (.sendAll _)

theorem keeps_abortRegistration (ranUeId : RanUeId) :
    Keeps tx [] [] held none (abortRegistration amfUeId ranUeId) :=
  .bind .removeUe_nil fun _ => .pure _

theorem keeps_onAuthenticationFailure (cause : UInt8) (auts : Option Bytes) :
    Keeps tx [] [] held none (onAuthenticationFailure F amfUeId cause auts) := by
  refine .getUe_bind_nil (.done _) fun c => ?_
  dsimp only
  split
  · rename_i auts pending supi _ _
    split
    · refine .bind (keeps_resync pending supi auts) fun challenge => ?_
      cases challenge with
      | none => exact keeps_abortRegistration _
      | some challenge =>
        exact .bind (.alter fun _ => ⟨rfl, id, rfl, rfl, rfl, rfl⟩) fun _ => .done _
    · exact keeps_abortRegistration _
  · exact keeps_abortRegistration _

theorem keeps_onIdentityResponse (identity : Nas.MobileIdentity) :
    Keeps tx [] [] held none (onIdentityResponse F amfUeId identity) := by
  refine .getUe_bind_nil (.done _) fun c => ?_
  dsimp only
  split
  · exact .done _
  · rename_i hrequested
    have hstate : c.state ≠ .Registered := by
      rw [not_not.mp hrequested]
      decide
    split
    · refine .bind (keeps_begin _) fun challenge => ?_
      cases challenge with
      | none => exact .done _
      | some challenge =>
        obtain ⟨pending, nasReq⟩ := challenge
        have hidentified : ∀ (suci : Option String) area (c : UeContext),
            Alike c { c with suci, registrationArea := area } :=
          fun _ _ _ => ⟨rfl, id, rfl, rfl, rfl, rfl⟩
        refine .bind (.look _) fun area => .bind (.look _) fun now =>
          .bind (.turn ((turns_challenged hstate pending nasReq now).trans (hidentified _ area _).turns))
            fun _ => ?_
        exact .bind (keeps_address _) fun _ => .bind (.arm (.nasRetx .AuthRequest)) fun _ => .done _
    · exact .done _

theorem keeps_takePending : Keeps tx due due held none (takePending amfUeId) := by
  have hauth : ∀ c : UeContext, Alike c { c with auth := none } := fun _ => ⟨rfl, id, rfl, rfl, rfl, rfl⟩
  exact fun _ _ _ h => ⟨Keeps.proper_local, h.revise fun c => (turns_answered c).trans (hauth _).turns⟩

/-- The registration of a UE goes on while it is guarded. -/
theorem assured_secureUe (h : Intact tx [] none l t)
    (hguard : ∀ c, l.ues.lookup amfUeId = some c → Alarm.registrationGuard.job tx amfUeId ∈ t.jobs)
    (kseaf supi : String) :
    assured recorder Heeds (Others tx) Proper (secureUe F amfUeId kseaf supi)
      (fun _ l' t' _ => Intact tx [] none l' t') l t w := by
  rw [secureUe, Proc.assured_bind, getUe, Proc.assured_look]
  dsimp only
  split
  · rename_i sec smc kamf c _ hc
    have hturns : ∀ now, Turns [.registrationGuard, .nasRetx .SecurityModeCommand] c
        { c with
          sec := some sec
          kamf := some kamf
          state := .SecurityMode
          regProgressAt := now
          pendingRetx := some { kind := .SecurityModeCommand, nasBytes := smc, attempts := 1 } } := by
      intro now
      have hkeyed : ∀ c : UeContext, Alike c { c with sec := some sec, kamf := some kamf, regProgressAt := now } :=
        fun _ => ⟨rfl, fun _ => rfl, rfl, rfl, rfl, rfl⟩
      exact ((turns_state .SecurityMode c).trans (hkeyed _).turns).trans
        (turns_retx ⟨.SecurityModeCommand, smc, 1⟩ _)
    have hmodified : ∀ f : UeContext → UeContext,
        Turns [.registrationGuard, .nasRetx .SecurityModeCommand] c (f c) →
          Intact tx [(amfUeId, .nasRetx .SecurityModeCommand)] none (l.modify amfUeId f) t :=
      fun f hf => (Intact.pending ((h.read hc).modify hf) (hguard c hc)).drop
    rw [Proc.assured_bind, Proc.assured_look, Proc.assured_bind]
    refine ⟨Keeps.proper_local, ?_⟩
    exact Keeps.bind (.arm (.nasRetx .SecurityModeCommand)) (fun _ => .done _) _ _ _ (hmodified _ (hturns _))
  · exact h

theorem keeps_rejectAuthentication : Keeps tx [] [] held none (rejectAuthentication F amfUeId) := by
  have hremove : ∀ {held : Held} (dls : List Downlink), Keeps tx [] [] held none (do
      removeUe amfUeId
      return dls) := fun _ => .bind .removeUe_nil fun _ => .pure _
  refine .getUe_bind_nil (hremove _) fun c => ?_
  dsimp only
  split
  · exact .bind (.change (grows_unaddressed _)) fun _ => hremove _
  · exact hremove _

theorem keeps_completeAuthentication (resStar : Option Bytes) :
    Keeps tx [] [] held none (completeAuthentication F amfUeId resStar) := by
  refine .bind keeps_takePending fun pending => ?_
  cases pending with
  | none => exact .pure _
  | some pending =>
    cases resStar with
    | none => exact keeps_rejectAuthentication
    | some resStar =>
      refine .bind (keeps_finish pending resStar) fun outcome => ?_
      dsimp only
      split
      · intro l t w h
        rw [Proc.assured_bind, Proc.assured_mark]
        refine fun hheeds => ⟨trivial, assured_secureUe h (fun c hc => ?_) _ _⟩
        by_cases hstate : c.state = .Registered
        · exact h.channel ▸ hheeds c hc hstate
        · exact (h.timely amfUeId c hc .registrationGuard hstate).resolve_left fun hdue => by cases hdue
      · exact .done _
      · exact keeps_rejectAuthentication

/-! ### Uplink messages -/

theorem keeps_dispatchUplinkNas (m : Nas5gmmMessage) :
    Keeps tx [] [] held none (dispatchUplinkNas F amfUeId m) := by
  unfold dispatchUplinkNas
  split
  · exact keeps_onAuthenticationFailure _ _
  · exact keeps_onIdentityResponse _
  · exact keeps_onDeregistrationAccept
  · exact keeps_onRegistrationComplete
  · exact .bind (.modifyUe turns_configUpdated) fun _ => .done _
  · exact keeps_onUlNasTransport _
  · exact .done _

theorem keeps_handleUplink (m : Nas5gmmMessage) :
    Keeps tx [] [] held none (handleUplink F amfUeId m) := by
  unfold handleUplink
  split
  · exact keeps_completeAuthentication _
  · exact keeps_onSecurityModeComplete
  · exact keeps_onDeregistration _
  · exact keeps_dispatchUplinkNas _

theorem keeps_readUplink (raw : Bytes) (c : UeContext) :
    Keeps tx [] [] held none (readUplink F amfUeId raw c) := by
  unfold readUplink
  split
  · exact .done _
  · refine .bind (.alter (alike_sec _)) fun _ => ?_
    split
    · exact .bind .mark fun _ => .pure _
    · exact .pure _

theorem keeps_onUplinkNas (msg : UplinkNASTransport) : Keeps tx [] [] held none (onUplinkNas F msg) := by
  unfold onUplinkNas
  split
  · exact .done _
  · refine .getUe_bind_nil (.done _) fun c => ?_
    split
    · refine .bind .mark fun _ => .bind (keeps_readUplink _ _) fun m => ?_
      cases m with
      | none => exact .done _
      | some m => exact keeps_handleUplink m
    · exact .done _

/-! ### A new registration -/

/-- Nothing is outstanding for a UE that is taken up, but its registration. -/
theorem Keeps.placeNew {as : List Alarm} {ranUeId : RanUeId} {state : RegState} {suci : Option String}
    {now : Instant} (hc : Turns as (.new ranUeId state suci now) c) :
    Keeps tx due (as.map (Prod.mk amfUeId) ++ (amfUeId, .registrationGuard) :: due) held
      (some (amfUeId, c)) (Amf.insertUe amfUeId c) := by
  have hsound : Sound (.new ranUeId state suci now) := by
    refine ⟨fun hpending => ?_, fun _ hattempts => by cases hattempts⟩
    rcases hpending with hpending | hpending <;> cases hpending
  have hawaits : ∀ a, Awaits c a → a ∈ as ++ [.registrationGuard] := by
    intro a ha
    rcases hc.awaits a ha with hnew | has
    · cases a with
      | registrationGuard => exact List.mem_append_right _ (List.mem_singleton_self _)
      | releaseGuard psi => cases hnew
      | nasRetx kind => cases hnew
      | t3555 => cases hnew
      | t3522 => cases hnew
    · exact List.mem_append_left _ has
  have hplace := @Keeps.place tx due held amfUeId c _ (hc.sound hsound) hawaits
  simpa using hplace

/-- A UE that is taken up is not registered; its registration is to be guarded. -/
theorem Keeps.onInitialUe_bind {α : Type} {held' : Held} {msg : InitialUEMessage}
    {k : Option InitialUeOutcome → AmfM α} (hnone : Keeps tx [] [] none held' (k none))
    (hsome : ∀ outcome c, c.state ≠ .Registered →
      Keeps tx [(amfUeId, .registrationGuard)] [] (some (amfUeId, c)) held' (k (some outcome))) :
    Keeps tx [] [] none held' (onInitialUe F msg amfUeId >>= k) := by
  unfold onInitialUe
  split
  · exact hnone
  · simp only [bind_assoc]
    refine .bind (.look _) fun identity => .bind (.look _) fun now => ?_
    obtain ⟨resolved, ueSecCap, requestedNssai⟩ := identity
    cases resolved with
    | some supi =>
      simp only [bind_assoc]
      refine .bind (.look _) fun area => .bind .mark fun _ => ?_
      have hnew : ∀ {ranUeId}, Turns []
          (.new ranUeId .Identified (some supi) now)
          { UeContext.new ranUeId .Identified (some supi) now with
            replayedUeSecCap := ueSecCap
            requestedNssai
            tac := msg.tac
            registrationArea := area } := Alike.turns ⟨rfl, id, rfl, rfl, rfl, rfl⟩
      have hne : RegState.Identified ≠ .Registered := fun h => by cases h
      refine .bind (.placeNew hnew) fun _ => .bind (keeps_address supi) fun _ =>
        hsome (.identified _ supi) _ ?_
      exact hne
    | none =>
      simp only [bind_assoc]
      refine .bind .mark fun _ => ?_
      have halike : ∀ {ranUeId}, Alike (.new ranUeId .IdentityRequested none now)
          { UeContext.new ranUeId .IdentityRequested none now with
            replayedUeSecCap := ueSecCap
            requestedNssai
            tac := msg.tac } := ⟨rfl, id, rfl, rfl, rfl, rfl⟩
      have hne : RegState.IdentityRequested ≠ .Registered := fun h => by cases h
      refine .bind (.placeNew (halike.turns.trans (turns_retx ⟨.IdentityRequest, _, 1⟩ _))) fun _ =>
        .bind (.arm (.nasRetx .IdentityRequest)) fun _ => hsome (.needIdentity _) _ ?_
      exact hne

theorem keeps_onInitialUeMessage (msg : InitialUEMessage) :
    Keeps tx [] [] none none (onInitialUeMessage F msg) := by
  refine .bind (.look _) fun retained => ?_
  cases retained with
  | some tmsi => exact .bind (keeps_onServiceRequest msg tmsi) fun dls => .sendAll dls
  | none =>
    refine .bind (.ask _) fun admission => ?_
    have hslot : ∀ (slot : Bool) (c : UeContext), Alike c { c with cblSlot := slot } :=
      fun _ c => ⟨rfl, id, rfl, rfl, rfl, rfl⟩
    split
    · split
      · exact .sendAll _
      · exact .pure _
    · refine .bind keeps_nextAmfUeId fun amfUeId => .onInitialUe_bind (.pure _) fun outcome c hstate => ?_
      refine .bind (.turn (hslot _ c).turns) fun _ => .bind (.arm .registrationGuard) fun _ => ?_
      cases outcome with
      | needIdentity dl => exact .drop (.sendAll _)
      | identified ranUeId supi =>
        refine keeps_startAuthentication ?_ ranUeId supi
        exact hstate

/-! ### Everything -/

/-- A timer has run out: its procedure is over, or it is armed again. -/
theorem keeps_expiry (a : Alarm) : Keeps tx [(amfUeId, a)] [] none none (handle F (a.expiry amfUeId)) := by
  cases a with
  | nasRetx kind => exact .bind (keeps_onNasRetxExpiry kind) fun dls => .sendAll dls
  | t3555 => exact .bind keeps_onT3555Expiry fun dls => .sendAll dls
  | t3522 => exact .bind keeps_onT3522Expiry fun dls => .sendAll dls
  | releaseGuard psi => exact .bind (keeps_onReleaseGuardExpiry psi) fun dls => .sendAll dls
  | registrationGuard => exact .bind keeps_onRegistrationGuardExpiry fun dls => .sendAll dls

/-- All that an association does leaves every procedure with its timer. -/
theorem keeps_handle (task : Task) : Keeps tx [] [] none none (handle F task) := by
  have hexpiry : ∀ (a : Alarm) amfUeId, Keeps tx [] [] none none (handle F (a.expiry amfUeId)) :=
    fun a amfUeId l t w h => keeps_expiry a l t w (h.settle fun _ he => by cases he)
  cases task with
  | ngap input =>
    cases input with
    | initialUe msg => exact keeps_onInitialUeMessage msg
    | uplinkNas msg => exact .bind (keeps_onUplinkNas msg) fun dls => .sendAll dls
  | start amfUeId => exact .bind keeps_onNetworkDeregistration fun dls => .sendAll dls
  | t3522Expiry amfUeId => exact hexpiry .t3522 amfUeId
  | t3555Expiry amfUeId => exact hexpiry .t3555 amfUeId
  | nasRetxExpiry amfUeId kind => exact hexpiry (.nasRetx kind) amfUeId
  | modifyPolicy m => exact .bind (keeps_onNetworkModification m) fun _ => .pure _
  | releaseSession amfUeId psis cause =>
    exact .bind (keeps_onNetworkRelease psis cause) fun dls => .sendAll dls
  | releaseGuardExpiry amfUeId psi => exact hexpiry (.releaseGuard psi) amfUeId
  | registrationGuardExpiry amfUeId => exact hexpiry .registrationGuard amfUeId
  | updateSubscribedData amfUeId ueAmbr allowedNssai =>
    exact .bind (keeps_onSdmDataChange ueAmbr allowedNssai) fun dls => .sendAll dls
  | updateAmPolicy amfUeId ueAmbr rfsp areaRestriction =>
    exact .bind (keeps_onAmPolicyUpdate ueAmbr rfsp areaRestriction) fun dls => .sendAll dls

/-- A context at rest is retained. -/
theorem others_retain (hsound : Sound c) (hquiet : c.gutiTmsi.isSome → Quiet c) (t : Tables) (tx : Channel) :
    Others tx t (retain c t) := by
  have hunaddressed : Others tx t (c.suci.elim t fun supi => t.unaddressed supi) := by
    cases c.suci with
    | none => exact (Grows.refl t).others tx
    | some supi => exact (grows_unaddressed supi t).others tx
  unfold retain
  dsimp only
  split
  · rename_i tmsi htmsi
    refine ⟨hunaddressed.jobs, fun hreserve tmsi' c' hc' => ?_⟩
    obtain ⟨-, rfl⟩ | ⟨-, hc'⟩ := Map.of_lookup_insert hc'
    · have hrest := hquiet (by rw [htmsi]; rfl)
      exact ⟨hsound.alike (alike_idle _ c), hrest.alike (alike_idle _ c)⟩
    · exact hunaddressed.reserve hreserve tmsi' c' hc'
  · exact hunaddressed

theorem Running.intact {t₀ : Tables} (hreserve : Reserve t₀) (h : Running F Heeds Quiet tx t₀ l t w) :
    Intact tx [] none l t := by
  induction h with
  | init =>
    have hnone : ∀ id c, ({ tx : Association }).ues.lookup id ≠ some c := fun id c hc => by
      rw [AList.lookup_empty] at hc
      cases hc
    exact ⟨rfl, fun id c hc => absurd hc (hnone id c), fun id c hc => absurd hc (hnone id c), hreserve,
      fun _ _ hheld => by cases hheld⟩
  | serve task _ _ hexec ih => exact hexec.assured (keeps_handle task _ _ _ ih)
  | expire a amfUeId _ _ hexec ih => exact hexec.assured (keeps_expiry a _ _ _ (ih.expired a amfUeId))
  | others _ ht ih => exact ih.others ht
  | alter amfUeId _ hf ih => exact (ih.revise fun c => (hf c).turns)
  | release amfUeId _ hc hquiet ih =>
    exact (ih.erase fun _ he => by cases he).others (others_retain (ih.sound _ _ hc) hquiet _ tx)
  | leave amfUeId _ ih => exact ih.erase fun _ he => by cases he
  | @arrive l t w c amfUeId _ hsound hquiet ih =>
    have hinserted : Intact tx [] none (l.insert amfUeId c) t :=
      (Keeps.placeAtRest hsound hquiet _ _ w ih).2.drop
    cases hc : c.suci with
    | none => exact hinserted
    | some supi => exact hinserted.others ((grows_addressed supi amfUeId tx t).others tx)

/-! ### The end of a procedure -/

section Ends

variable {allow : Mark → Association → Tables → List Mark → Prop} {drift : Tables → Tables → Prop}
  {l' : Association} {t' : Tables} {w' : List Mark}

/-- What a process may do where nothing is asked of it. -/
abbrev Anything : Deed Association Tables Mark → Association → Tables → List Mark → Prop :=
  fun _ _ _ _ => True

/-- When its guard runs out, the release of a session is finalised. -/
theorem releases_expiry {psi : UInt8}
    (h : Amid recorder allow drift (handle F (.releaseGuardExpiry amfUeId psi)) l t w () l' t' w') :
    ∀ c', l'.ues.lookup amfUeId = some c' → psi ∉ c'.releasing := by
  refine h.assured (G := Anything)
    (Q := fun _ l' _ _ => ∀ c', l'.ues.lookup amfUeId = some c' → psi ∉ c'.releasing) ?_
  have hmodified : ∀ l : Association, ∀ c', (l.modify amfUeId fun c =>
      { c with smRefs := c.smRefs.erase psi, releasing := c.releasing.filter (· != psi) }).ues.lookup
        amfUeId = some c' → psi ∉ c'.releasing := by
    intro l c' hc'
    rw [Association.modify, Map.lookup_modify, if_pos rfl] at hc'
    obtain ⟨c, -, rfl⟩ := Option.map_eq_some_iff.mp hc'
    simp
  simp only [handle, onReleaseGuardExpiry, getUe, Proc.assured_bind, Proc.assured_look]
  cases hc : l.ues.lookup amfUeId with
  | none =>
    intro c' hc'
    rw [hc] at hc'
    cases hc'
  | some c =>
    dsimp only
    split
    · rename_i hpsi
      simp only [finalizeRelease, getUe, Proc.assured_bind, Proc.assured_look, hc, hpsi, if_true]
      split
      · exact fun _ => ⟨trivial, fun _ _ _ _ => ⟨trivial, hmodified _⟩⟩
      · exact ⟨trivial, hmodified _⟩
    · rename_i hpsi
      intro c' hc'
      rw [hc] at hc'
      cases hc'
      simpa using hpsi

theorem assured_spawnAmPolicyDelete (amPolicy : Option (String × String))
    {Q : Unit → Association → Tables → List Mark → Prop} (hQ : ∀ t w, Q () l t w) :
    assured recorder allow drift Anything (spawnAmPolicyDelete amfUeId amPolicy) Q l t w := by
  cases amPolicy with
  | none => exact hQ t w
  | some p => exact fun _ => ⟨trivial, trivial, hQ _ _⟩

theorem assured_spawnSdmUnsubscribe (supi : String)
    {Q : Unit → Association → Tables → List Mark → Prop} (hQ : ∀ t w, Q () l t w) :
    assured recorder allow drift Anything (spawnSdmUnsubscribe amfUeId supi) Q l t w := by
  rw [spawnSdmUnsubscribe, Proc.assured_bind, Proc.assured_actShared]
  refine ⟨trivial, ?_⟩
  dsimp only
  cases t.sdmSubs.lookup supi with
  | none => exact hQ _ _
  | some subId => exact fun _ => ⟨trivial, trivial, hQ _ _⟩

/-- A UE that is deregistered implicitly is gone. -/
theorem assured_implicitDeregister {Q : List Downlink → Association → Tables → List Mark → Prop}
    (hc : l.ues.lookup amfUeId = some c) (hQ : ∀ dls t w, Q dls (l.erase amfUeId) t w) :
    assured recorder allow drift Anything (implicitDeregister amfUeId) Q l t w := by
  simp only [implicitDeregister, getUe, Proc.assured_bind, Proc.assured_look, hc]
  cases c.suci with
  | none =>
    dsimp only
    rw [Proc.assured_bind]
    exact assured_spawnAmPolicyDelete _ fun t w => ⟨trivial, hQ _ t w⟩
  | some supi =>
    dsimp only
    rw [Proc.assured_bind, Proc.assured_change, Proc.assured_bind]
    refine ⟨trivial, assured_spawnSdmUnsubscribe supi fun t w => ?_⟩
    simp only [spawnFor, Proc.assured_bind, Proc.assured_mark, Proc.assured_change]
    exact fun _ => ⟨trivial, trivial, assured_spawnAmPolicyDelete _ fun t w => ⟨trivial, hQ _ t w⟩⟩

theorem assured_sendAll (dls : List Downlink) {Q : Unit → Association → Tables → List Mark → Prop}
    (hQ : ∀ w, Q () l t w) : assured recorder allow drift Anything (sendAll dls) Q l t w := by
  unfold sendAll
  induction dls generalizing w with
  | nil => exact hQ w
  | cons dl dls ih =>
    rw [Proc.forEach, Proc.assured_bind, Proc.assured_mark]
    exact fun _ => ⟨trivial, ih⟩

/-- When T3522 runs out, the UE is asked to deregister once more, or is gone. -/
theorem deregisters_expiry (hsound : Sound c) (hc : l.ues.lookup amfUeId = some c) {attempts : Nat}
    (hattempts : c.deregAttempts = some attempts)
    (h : Amid recorder allow drift (handle F (.t3522Expiry amfUeId)) l t w () l' t' w') :
    ∀ c', l'.ues.lookup amfUeId = some c' → c'.deregAttempts = some (attempts + 1) := by
  refine h.assured (G := Anything)
    (Q := fun _ l' _ _ => ∀ c', l'.ues.lookup amfUeId = some c' → c'.deregAttempts = some (attempts + 1)) ?_
  obtain ⟨sec, hsec⟩ := Option.isSome_iff_exists.mp (hsound.secured (.inr (by rw [hattempts]; rfl)))
  have hgone : ∀ c', (l.erase amfUeId).ues.lookup amfUeId = some c' → c'.deregAttempts = some (attempts + 1) :=
    fun c' hc' => absurd rfl (lookup_erase_ne hc')
  simp only [handle, onT3522Expiry, onExpiry, getUe, Proc.assured_bind, Proc.assured_look, hc,
    UeContext.expireT3522, hattempts, hsec]
  by_cases hless : attempts < T3522_MAX_SENDS
  · simp only [if_pos hless, insertUe, Proc.assured_bind, Proc.assured_changeLocal, arm, Proc.assured_look,
      Proc.assured_change, Proc.assured_pure]
    refine ⟨trivial, trivial, assured_sendAll _ fun w c' hc' => ?_⟩
    rw [Association.insert, Map.lookup_insert_eq, if_pos rfl] at hc'
    cases hc'
    rfl
  · simp only [if_neg hless]
    exact assured_implicitDeregister hc fun dls t w => assured_sendAll dls fun w => hgone

end Ends

/-- A timer of one association has run out. -/
theorem others_expired {tx' : Channel} (htx : tx' ≠ tx) (a : Alarm) (amfUeId : AmfUeId) (t : Tables) :
    Others tx' t (expired (a.job tx amfUeId) t) where
  jobs a' id hjob := by
    refine (List.mem_erase_of_ne fun hsame => ?_).mpr hjob
    exact htx (Alarm.job_inj.mp hsame).1
  reserve := id

/-- While the RES* of a registered UE is accepted only when it is guarded, and contexts at rest alone go idle
or change their association, every procedure has its timer. -/
theorem timers_attend {t₀ : Tables} (hreserve : Reserve t₀) (h : Running F Heeds Quiet tx t₀ l t w) :
    Attended F Heeds l t w := by
  have hintact := h.intact hreserve
  have hchannel := hintact.channel
  constructor
  · intro id c hc a ha
    rcases hintact.timely id c hc a ha with hmem | hjob
    · cases hmem
    · rw [hchannel]
      exact hjob
  · exact fun tmsi c hc => (hintact.reserve tmsi c hc).2
  · intro task d l₁ t₁ w₁ hdoes
    rw [hchannel] at hdoes
    exact hdoes.within (keeps_handle task _ _ _ hintact)
  · exact fun a id tx' htx => others_expired htx a id t
  · exact fun id c hc hquiet tx' => others_retain (hintact.sound id c hc) hquiet t tx'
  · exact fun _ _ _ _ _ _ hexec => releases_expiry hexec
  · intro id c attempts hc hattempts
    have hsound := hintact.sound id c hc
    exact ⟨hsound.bounded attempts hattempts, fun _ _ _ _ hexec =>
      deregisters_expiry hsound hc hattempts hexec⟩

/-! #### A deregistration of a registered UE -/

instance decidableHeeds :
    ∀ (n : Mark) (l : Association) (t : Tables) (w : List Mark), Decidable (Heeds n l t w)
  | .authenticated amfUeId _ _, l, t, _ =>
      inferInstanceAs (Decidable (∀ c ∈ l.ues.lookup amfUeId, c.state = .Registered → _ ∈ t.jobs))
  | .created _, _, _, _ => .isTrue trivial
  | .resumed _, _, _, _ => .isTrue trivial
  | .uplink .., _, _, _ => .isTrue trivial
  | .verified .., _, _, _ => .isTrue trivial
  | .registered _, _, _, _ => .isTrue trivial
  | .calling .., _, _, _ => .isTrue trivial
  | .spawning .., _, _, _ => .isTrue trivial
  | .sending _, _, _, _ => .isTrue trivial

/-- What is given to an association by others than its timers. -/
abbrev Unprompted : Type := { task : Task // ∀ (a : Alarm) amfUeId, task ≠ a.expiry amfUeId }

/-- Such tasks one after the other are a run. -/
theorem Running.of_loop {allow : Mark → Association → Tables → List Mark → Prop} {calm : UeContext → Prop}
    {t₀ : Tables}
    (h : Proc.Loop recorder allow (fun task : Unprompted => handle F task.val) (Others tx) { tx } t₀ [] l t w) :
    Running F allow calm tx t₀ l t w := by
  induction h with
  | refl => exact .init
  | serve task _ hexec ih => exact .serve task.val ih task.property hexec
  | drift _ ht ih => exact .others ih ht

def ngapTask (input : Input) : Unprompted := ⟨.ngap input, fun a _ h => by cases a <;> cases h⟩

/-- The UE of the sample registers, and its subscription is withdrawn. -/
def sampleWithdrawal : List Unprompted :=
  sampleRegistration.map ngapTask ++
    [ngapTask (.uplinkNas
        { amfUeNgapId := some 1
          nasPdu := some [0x7e, 0x02, 0x00, 0x00, 0x00, 0x00, 0x01, 0x7e, 0x00, 0x43] }),
      ⟨.start 1, fun a _ h => by cases a <;> cases h⟩]

/-- A UE that has a 5G-TMSI is being deregistered. -/
def Leaving (l : Association) : Prop :=
  ∃ c ∈ l.ues.lookup 1, c.state = .Registered ∧ c.gutiTmsi = some 1 ∧ c.deregAttempts = some 1

instance (l : Association) : Decidable (Leaving l) := inferInstanceAs (Decidable (∃ c ∈ l.ues.lookup 1, _))

/-- Nobody is retained at first. -/
theorem reserve_empty : Reserve {} := fun tmsi c hc => by
  rw [AList.lookup_empty] at hc
  cases hc

theorem others_refl (t : Tables) : Others tx t t := (Grows.refl t).others tx

theorem running_sampleWithdrawal {allow : Mark → Association → Tables → List Mark → Prop}
    (hallow : ∀ n l t w, Heeds n l t w → allow n l t w) (calm : UeContext → Prop) :
    ∃ l t w, Leaving l ∧ Running sampleFunctions allow calm 0 {} l t w := by
  have hserved : (Proc.attemptLoop recorder Heeds sampleAnswer
      (fun task : Unprompted => handle sampleFunctions task.val) sampleWithdrawal { tx := 0 } {} []).any
        (fun e => decide (Leaving e.1)) = true := by
    decide +kernel
  obtain ⟨⟨l, t, w⟩, hrun, hl⟩ := (Option.any_eq_true _ _).mp hserved
  exact ⟨l, t, w, of_decide_eq_true hl, .of_loop (Proc.loop_attemptLoop hallow others_refl hrun)⟩

theorem timers_attend_sampleWithdrawal :
    ∃ l t w, Leaving l ∧ Attended sampleFunctions Heeds l t w := by
  obtain ⟨l, t, w, hleaving, hrun⟩ := running_sampleWithdrawal (fun _ _ _ _ h => h) Quiet
  exact ⟨l, t, w, hleaving, timers_attend reserve_empty hrun⟩

/-! #### Its connection is released -/

theorem lookup_retain {tmsi : Tmsi} (htmsi : c.gutiTmsi = some tmsi) (t : Tables) :
    ∃ now, (retain c t).retained.lookup tmsi = some (c.idle now) := by
  unfold retain
  rw [htmsi]
  exact ⟨_, by rw [Map.lookup_insert_eq, if_pos rfl]⟩

/-- **An idle UE is half deregistered.** Its context is retained with the procedure, which has lost its timer. -/
theorem retained_unattended :
    ¬ ∀ F tx t₀ l t w, Reserve t₀ → Running F (fun _ _ _ _ => True) (fun _ => True) tx t₀ l t w →
      Attended F (fun _ _ _ _ => True) l t w := by
  intro h
  obtain ⟨l, t, w, ⟨c, hc, -, htmsi, hattempts⟩, hrun⟩ :=
    running_sampleWithdrawal (fun _ _ _ _ _ => trivial) fun _ => True
  obtain ⟨now, hretained⟩ := lookup_retain htmsi t
  have hattended := h sampleFunctions 0 {} _ _ w reserve_empty (.release 1 hrun hc fun _ => trivial)
  have hawaits : Awaits (c.idle now) .t3522 := by
    rw [(alike_idle now c).awaits_iff, Awaits, hattempts]
    rfl
  exact hattended.still 1 _ hretained .t3522 hawaits

end Radian.Amf.Outstanding
