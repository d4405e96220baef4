import Radian.Amf.IdentitySteps
import Radian.Ausf.Agreement

/-!
# Bound identities

In runs in which nobody is asked about but by a plain identity, a context keeps the one it has been taken up
under, and that is the one the AUSF confirms.

- `ausf_authenticate`, `ausf_confirm` — the UDM and the AUSF answer as the home network does.
- `Intact.challenge`, `Intact.authenticate`, `keeps_…` — authentication.
- `assured_handle`, `recovers` — all that an association is given to do.
- `identity_bound` — these runs are faithful.
- `concealed_unbound` — a UE with a concealed identity goes by that.
-/

namespace Radian.Amf.Identity

open Keyed (Map)
open Nas (Nas5gmmMessage)
open Proc (assured assured_mono)
open Security (Bytes)
open Subscribers (InMemory)

variable {N : HomeNetwork} {F : Functions} {tx : Channel} {start : Tables} {held : Held}
  {amfUeId : AmfUeId} {c : UeContext} {l : Association} {t : Tables} {w : List Mark}

/-! ### The home network -/

theorem deconceal_plain {supiOrSuci : String} (h : Plain supiOrSuci) :
    N.deconceal supiOrSuci = some supiOrSuci := by
  have hdeconceal : Udm.deconceal N.crypto N.keys supiOrSuci.toList = .ok supiOrSuci.toList := if_pos h
  rw [HomeNetwork.deconceal, hdeconceal, Except.toOption, Option.map_some, String.ofList_toList]

/-- Who is asked about by a plain identity is challenged. -/
theorem subject_of_challenges {ausfBase supiOrSuci : String} {ctx : UeAuthenticationCtx}
    (hplain : Plain supiOrSuci ∨ N.deconceal supiOrSuci = none)
    (h : N.challenges ausfBase supiOrSuci ctx = true) :
    supiOrSuci = (N.subject ausfBase ctx.authCtxId).val := by
  have hsubject := (Bool.and_eq_true_iff.mp h).1
  rcases hplain with hplain | hnone
  · rw [deconceal_plain hplain] at hsubject
    simpa using hsubject
  · rw [hnone] at hsubject
    cases hsubject

variable {pending : PendingAuth}

theorem challenge_eq_some {ausfBase : String} {ctx : UeAuthenticationCtx} {nasReq : Bytes}
    (h : AmfAuth.challenge F ausfBase ctx = some (pending, nasReq)) :
    pending.ausfBase = ausfBase ∧ pending.ctxId = ctx.authCtxId := by
  unfold AmfAuth.challenge at h
  simp only [Option.bind_eq_bind, Option.bind_eq_some_iff] at h
  obtain ⟨rand, -, autn, -, hxres, -, h⟩ := h
  cases h
  exact ⟨rfl, rfl⟩

/-! ### The AUSF and the UDM -/

/-- The contexts of an AUSF are of those whom it has challenged. -/
def Stored (N : HomeNetwork) (ausfBase : String) (ctxs : Ausf.AusfState) : Prop :=
  ∀ ctxId ctx, ctxs.lookup ctxId = some ctx → ctx.supi = (N.subject ausfBase ctxId).val

theorem generateAuthData_ok {M : Aka.Milenage} {deconceal : String → Option String} {rand : Aka.Rand}
    {supiOrSuci snn : String} {g : InMemory Unit} {result : Udm.AuthenticationInfoResult}
    (h : (Udm.generateAuthData M deconceal rand supiOrSuci snn g).1.toOption = some result) :
    deconceal supiOrSuci = some result.supi ∧ ∃ av, result.authenticationVector = .ofVector av := by
  unfold Udm.generateAuthData at h
  split at h
  · cases h
  · rename_i supi hsupi
    split at h
    · cases h
    · split at h
      · rename_i av g' hav
        cases h
        unfold Udm.Udr.generateAv at hav
        split at hav
        · cases hav
        · split at hav
          · cases hav
          · rename_i vector _
            cases hav
            exact ⟨hsupi, vector, rfl⟩
      · cases h
      · cases h

theorem authenticate_ok {K : Aka.Kdf} {info : Ausf.AuthenticationInfo} {resynced : Option Bool}
    {udm : Option Udm.AuthenticationInfoResult} {ctxId : String} {ctxs : Ausf.AusfState}
    {ctx : UeAuthenticationCtx} (h : (Ausf.authenticate K info resynced udm ctxId ctxs).1 = .ok ctx) :
    ∃ result, udm = some result ∧ ctx.authCtxId = ctxId ∧ ctx.rand = result.authenticationVector.rand ∧
      ctx.autn = result.authenticationVector.autn ∧
      (∃ hxres : Octets 16, ctx.hxresStar = hexEncode hxres.val) ∧
      ∃ xresStar kausf mcc mnc, (Ausf.authenticate K info resynced udm ctxId ctxs).2 =
        ctxs.insert ctxId ⟨result.supi, xresStar, kausf, mcc, mnc⟩ := by
  unfold Ausf.authenticate at h ⊢
  split at h
  · cases h
  · rename_i mcc mnc _
    split at h
    · cases h
    · cases h
    all_goals
      split at h
      · cases h
      · rename_i result
        dsimp only at h ⊢
        split at h
        · rename_i rand xresStar kausf _ _ _
          cases h
          exact ⟨result, rfl, rfl, rfl, rfl, ⟨_, rfl⟩, xresStar, kausf, mcc, mnc, rfl⟩
        · cases h

/-- Whom the AUSF challenges, with the UDM's vector, is the subscriber it is asked about. -/
theorem ausf_authenticate (K : Aka.Kdf) {ausfBase ctxId : String} {ctxs : Ausf.AusfState}
    {info : Ausf.AuthenticationInfo} {resynced : Option Bool} {rand : Aka.Rand} {g : InMemory Unit}
    {ctx : UeAuthenticationCtx} (h : Stored N ausfBase ctxs)
    (hdrawn : N.deconceal info.supiOrSuci = some (N.subject ausfBase ctxId).val)
    (hctx : (Ausf.authenticate K info resynced (Udm.generateAuthData N.milenage N.deconceal rand
      info.supiOrSuci info.servingNetworkName g).1.toOption ctxId ctxs).1 = .ok ctx) :
    N.challenges ausfBase info.supiOrSuci ctx = true ∧
      Stored N ausfBase (Ausf.authenticate K info resynced (Udm.generateAuthData N.milenage N.deconceal rand
        info.supiOrSuci info.servingNetworkName g).1.toOption ctxId ctxs).2 := by
  obtain ⟨result, hresult, hid, hrand, hautn, ⟨hxres, hhxres⟩, xresStar, kausf, mcc, mnc, hstored⟩ :=
    authenticate_ok hctx
  obtain ⟨hsupi, av, hav⟩ := generateAuthData_ok hresult
  have hsame : result.supi = (N.subject ausfBase ctxId).val := Option.mem_unique hsupi hdrawn
  constructor
  · simp [HomeNetwork.challenges, hdrawn, hid, hrand, hautn, hhxres, hav, Udm.HeAv.ofVector]
  · rw [hstored]
    intro id ctx' hctx'
    obtain ⟨hsameId, rfl⟩ | ⟨-, hctx'⟩ := Map.of_lookup_insert hctx'
    · rw [hsameId]
      exact hsame
    · exact h id ctx' hctx'

/-- The AUSF confirms whom it has challenged. -/
theorem ausf_confirm (K : Aka.Kdf) {ausfBase : String} {ctxs : Ausf.AusfState} (h : Stored N ausfBase ctxs)
    (reliable : Bool) (ctxId resStar : String) :
    N.answers reliable (.confirm ausfBase ctxId resStar)
        (Ausf.confirm K ctxId resStar ctxs).1.toOption = true ∧
      Stored N ausfBase (Ausf.confirm K ctxId resStar ctxs).2 := by
  unfold Ausf.confirm
  split
  · exact ⟨rfl, h⟩
  · split
    · exact ⟨rfl, h⟩
    · rename_i ctx hctx
      split
      · refine ⟨?_, fun id ctx' hctx' => h id ctx' (Map.of_lookup_erase hctx').2⟩
        simp [HomeNetwork.answers, Except.toOption, h ctxId ctx hctx]
      · exact ⟨rfl, h⟩

/-! ### Authentication -/

/-- A challenge of the UE that is to go by `supi`. -/
abbrev Challenges (N : HomeNetwork) (supi : String) (pending : PendingAuth) : Prop :=
  supi = (N.subject pending.ausfBase pending.ctxId).val

/-- A call for a context, whose answer is one that the home network may give. -/
theorem assured_callFor (h : Intact N F tx held l t w) {e : Call} (he : named (.calling amfUeId e) = none)
    {Q : e.Answer → Association → Tables → List Mark → Prop}
    (hQ : Heeds N (.calling amfUeId e) l t w → ∀ r t' w', N.answers false e r = true →
      Intact N F tx held l t' w' → Q r l t' w') :
    assured (N.outside false) (Heeds N) (Others N F tx) (Proper N F start) (callFor amfUeId e) Q l t w := by
  simp only [callFor, Proc.assured_bind, Proc.assured_mark, Proc.assured_ask]
  refine fun hheeds => ⟨Keeps.proper_mark he, fun r t' hr ht => ?_⟩
  exact hQ hheeds r t' _ hr ((h.mark rfl).others ht)

/-- What comes of asking about `supi`: nothing, or a challenge of the UE that is to go by it. -/
theorem challenge_cases {ausfBase supi : String} {ctx : UeAuthenticationCtx}
    {Q : Option (PendingAuth × Bytes) → Prop} (hsubject : supi = (N.subject ausfBase ctx.authCtxId).val)
    (hnone : Q none)
    (hsome : ∀ pending nasReq, Challenges N supi pending → Q (some (pending, nasReq))) :
    Q (AmfAuth.challenge F ausfBase ctx) := by
  cases hchallenge : AmfAuth.challenge F ausfBase ctx with
  | none => exact hnone
  | some challenge =>
    obtain ⟨pending, nasReq⟩ := challenge
    obtain ⟨hbase, hid⟩ := challenge_eq_some hchallenge
    refine hsome pending nasReq ?_
    rw [Challenges, hbase, hid]
    exact hsubject

variable {supi : String}

theorem assured_begin (h : Intact N F tx held l t w)
    {Q : Option (PendingAuth × Bytes) → Association → Tables → List Mark → Prop}
    (hnone : ∀ t w, Intact N F tx held l t w → Q none l t w)
    (hsome : ∀ pending nasReq t w, Challenges N supi pending → Intact N F tx held l t w →
      Q (some (pending, nasReq)) l t w) :
    assured (N.outside false) (Heeds N) (Others N F tx) (Proper N F start) (AmfAuth.begin F amfUeId supi) Q
      l t w := by
  rw [AmfAuth.begin, Proc.assured_bind]
  refine assured_callFor h rfl fun _ ausf t₁ w₁ _ h₁ => ?_
  cases ausf with
  | none => exact hnone _ _ h₁
  | some ausfBase =>
    dsimp only
    rw [Proc.assured_bind]
    refine assured_callFor h₁ rfl fun hheeds ctx t₂ w₂ hctx h₂ => ?_
    cases ctx with
    | none => exact hnone _ _ h₂
    | some ctx =>
      have hsubject := subject_of_challenges (hheeds.1 supi rfl) hctx
      exact challenge_cases (Q := fun a => Q a l t₂ w₂) hsubject (hnone _ _ h₂)
        fun pending nasReq hchallenges => hsome pending nasReq _ _ hchallenges h₂

theorem assured_resync (h : Intact N F tx held l t w) (hplain : Plain supi) (auts : Bytes)
    {Q : Option (PendingAuth × Bytes) → Association → Tables → List Mark → Prop}
    (hnone : ∀ t w, Intact N F tx held l t w → Q none l t w)
    (hsome : ∀ fresh nasReq t w, Challenges N supi fresh → Intact N F tx held l t w →
      Q (some (fresh, nasReq)) l t w) :
    assured (N.outside false) (Heeds N) (Others N F tx) (Proper N F start)
      (AmfAuth.resync F amfUeId pending supi auts) Q l t w := by
  rw [AmfAuth.resync, Proc.assured_bind]
  refine assured_callFor h rfl fun _ ctx t₁ w₁ hctx h₁ => ?_
  cases ctx with
  | none => exact hnone _ _ h₁
  | some ctx =>
    have hsubject := subject_of_challenges (.inl hplain) (Bool.and_eq_true_iff.mp hctx).2
    exact challenge_cases (Q := fun a => Q a l t₁ w₁) hsubject (hnone _ _ h₁)
      fun fresh nasReq hchallenges => hsome fresh nasReq _ _ hchallenges h₁

/-- The AUSF confirms whom it has challenged. -/
theorem assured_finish (h : Intact N F tx held l t w) {resStar : Bytes}
    {Q : Option AuthOutcome → Association → Tables → List Mark → Prop} (hQ : ∀ outcome t w,
      (∀ kseaf supi, outcome = some ⟨true, kseaf, some supi⟩ → Challenges N supi pending) →
      Intact N F tx held l t w → Q outcome l t w) :
    assured (N.outside false) (Heeds N) (Others N F tx) (Proper N F start)
      (AmfAuth.finish F amfUeId pending resStar) Q l t w := by
  unfold AmfAuth.finish
  split
  · exact hQ _ _ _ (fun _ _ houtcome => by cases houtcome) h
  · split
    · exact hQ _ _ _ (fun _ _ houtcome => by cases houtcome) h
    · rw [Proc.assured_bind]
      refine assured_callFor h rfl fun _ conf t₁ w₁ hconf h₁ => ?_
      cases conf with
      | none => exact hQ _ _ _ (fun _ _ houtcome => by cases houtcome) h₁
      | some conf =>
        refine hQ _ _ _ (fun kseaf supi houtcome => ?_) h₁
        simp only [Option.some.injEq, AuthOutcome.mk.injEq, beq_iff_eq] at houtcome
        obtain ⟨hsuccess, -, hsupi⟩ := houtcome
        simpa [HomeNetwork.answers, hsuccess, hsupi] using hconf

variable {f : UeContext → UeContext}

/-- A context stays with its identity. -/
theorem Intact.renew (h : Intact N F tx (some (amfUeId, c)) l t w) (hsuci : ∀ c, (f c).suci = c.suci)
    (hgenuine : ∀ c', Genuine N F c' → Alike c c' → Genuine N F (f c')) :
    Intact N F tx none (l.modify amfUeId f) t w := by
  obtain ⟨-, -, c', hc', halike⟩ := h.held amfUeId c rfl
  have hnew := hgenuine c' (h.genuine amfUeId c' hc') halike
  refine (h.replace hc' hnew ⟨fun supi hsupi => ?_, hnew.keyed⟩ fun supi hsupi => ?_).drop
  · exact (hsuci c').trans ((h.bound amfUeId c' hc').authenticated supi hsupi)
  · exact (hsuci c').trans (h.entered supi amfUeId c' hsupi hc')

/-- The UE of a context is challenged. -/
theorem Intact.challenge (h : Intact N F tx (some (amfUeId, c)) l t w) (hc : c.suci = some supi)
    (hpending : Challenges N supi pending)
    (hf : ∀ c, (f c).suci = c.suci ∧ (f c).kamf = c.kamf ∧ (f c).auth = some pending ∧
      ((f c).state = .IdentityRequested → c.state = .IdentityRequested)) :
    Intact N F tx none (l.modify amfUeId f) t w := by
  refine h.renew (fun c => (hf c).1) fun c' hgenuine halike => ?_
  obtain ⟨hsuci, hkamf, hauth, hstate⟩ := hf c'
  refine ⟨fun h => hsuci.trans (hgenuine.unidentified (hstate h)), fun pending' hpending' => ?_,
    fun kamf hfkamf => ?_⟩
  · rw [hauth] at hpending'
    cases hpending'
    rw [hsuci, halike.suci, hc, hpending]
  · rw [hsuci]
    exact hgenuine.keyed kamf (hkamf ▸ hfkamf)

theorem keeps_challenge (hc : c.suci = some supi) (hpending : Challenges N supi pending)
    (hf : ∀ c, (f c).suci = c.suci ∧ (f c).kamf = c.kamf ∧ (f c).auth = some pending ∧
      ((f c).state = .IdentityRequested → c.state = .IdentityRequested)) :
    Keeps N F tx start (some (amfUeId, c)) none (modifyUe amfUeId f) :=
  fun _ _ _ h => ⟨Keeps.proper_move (.refl _), h.challenge hc hpending hf⟩

theorem keeps_startAuthentication (hc : c.suci = some supi) (ranUeId : RanUeId) :
    Keeps N F tx start (some (amfUeId, c)) none (startAuthentication F amfUeId ranUeId supi) := by
  intro l t w h
  rw [startAuthentication, Proc.assured_bind]
  refine assured_begin h (fun _ _ h => h.drop) fun pending nasReq t w hpending h => ?_
  have hchallenge : ∀ now, Keeps N F tx start (some (amfUeId, c)) none
      (modifyUe amfUeId (UeContext.challenged pending nasReq now)) :=
    fun now => keeps_challenge hc hpending fun c => ⟨rfl, rfl, rfl, fun h => by cases h⟩
  exact Keeps.bind (.look _) (fun now => .bind (hchallenge now) fun _ => .bind (.arm _) fun _ => .sendAll _)
    l t w h

theorem keeps_abortRegistration (ranUeId : RanUeId) :
    Keeps N F tx start held none (abortRegistration amfUeId ranUeId) :=
  .bind .removeUe fun _ => .pure _

/-- Who is challenged anew is the UE that has been challenged. -/
theorem keeps_onAuthenticationFailure (cause : UInt8) (auts : Option Bytes) :
    Keeps N F tx start held none (onAuthenticationFailure F amfUeId cause auts) := by
  refine .getUe_bind (.done _) fun c => ?_
  dsimp only
  split
  · rename_i auts pending supi hpending hc
    split
    · intro l t w h
      have hsupi : Challenges N supi pending := by
        have hchallenged := (h.held amfUeId c rfl).1.challenged pending hpending
        rw [hc] at hchallenged
        exact Option.some.inj hchallenged
      have hplain : Plain supi := hsupi ▸ (N.subject pending.ausfBase pending.ctxId).property
      rw [Proc.assured_bind]
      refine assured_resync h hplain auts (fun _ _ h => keeps_abortRegistration _ _ _ _ h)
        fun fresh nasReq t w hfresh h => ?_
      have hchallenge : Keeps N F tx start (some (amfUeId, c)) none
          (modifyUe amfUeId fun c => { c with auth := some fresh, resyncAttempted := true }) :=
        keeps_challenge hc hfresh fun c => ⟨rfl, rfl, rfl, id⟩
      exact Keeps.bind hchallenge (fun _ => .pure _) l t w h
    · exact keeps_abortRegistration _
  · exact keeps_abortRegistration _

/-- A UE without an identity has not been authenticated, so that it may be given one. -/
theorem Intact.identify (h : Intact N F tx (some (amfUeId, c)) l t w) (hc : c.suci = none)
    (hpending : Challenges N supi pending)
    (hf : ∀ c, (f c).suci = some supi ∧ (f c).kamf = c.kamf ∧ (f c).auth = some pending ∧
      (f c).state ≠ .IdentityRequested) :
    ∃ c', c'.suci = some supi ∧ Intact N F tx (some (amfUeId, c')) (l.modify amfUeId f) t w := by
  obtain ⟨-, -, c', hc', halike⟩ := h.held amfUeId c rfl
  obtain ⟨hsuci, hkamf, hauth, hstate⟩ := hf c'
  have hnone : c'.suci = none := halike.suci.trans hc
  have hbound := h.bound amfUeId c' hc'
  have hkeyed : KeyedAs F (f c') := by
    intro kamf hfkamf
    obtain ⟨kseaf, supi', -, hsome⟩ := hbound.keyed kamf (hkamf ▸ hfkamf)
    rw [hnone] at hsome
    cases hsome
  refine ⟨f c', hsuci, h.replace hc' ?_ ?_ fun supi' hsupi => ?_⟩
  · refine ⟨fun h => absurd h hstate, fun pending' hpending' => ?_, hkeyed⟩
    rw [hauth] at hpending'
    cases hpending'
    rw [hsuci, hpending]
  · refine ⟨fun supi' hsupi => ?_, hkeyed⟩
    have hsome := hbound.authenticated supi' hsupi
    rw [hnone] at hsome
    cases hsome
  · have hsome := h.entered supi' amfUeId c' hsupi hc'
    rw [hnone] at hsome
    cases hsome

theorem assured_identify (h : Intact N F tx (some (amfUeId, c)) l t w) (hc : c.suci = none)
    (hpending : Challenges N supi pending)
    (hf : ∀ c, (f c).suci = some supi ∧ (f c).kamf = c.kamf ∧ (f c).auth = some pending ∧
      (f c).state ≠ .IdentityRequested) {α : Type} {k : AmfM α}
    (hk : ∀ c', c'.suci = some supi → Keeps N F tx start (some (amfUeId, c')) none k) :
    assured (N.outside false) (Heeds N) (Others N F tx) (Proper N F start) (modifyUe amfUeId f >>= fun _ => k)
      (fun _ l' t' w' => Intact N F tx none l' t' w') l t w := by
  obtain ⟨c', hc', h'⟩ := h.identify hc hpending hf
  rw [Proc.assured_bind]
  exact ⟨Keeps.proper_move (.refl _), hk c' hc' _ _ _ h'⟩

theorem keeps_onIdentityResponse (identity : Nas.MobileIdentity) :
    Keeps N F tx start held none (onIdentityResponse F amfUeId identity) := by
  refine .getUe_bind (.done _) fun c => ?_
  dsimp only
  split
  · exact .done _
  · rename_i hstate
    split
    · intro l t w h
      have hc : c.suci = none := (h.held amfUeId c rfl).1.unidentified (not_not.mp hstate)
      rw [Proc.assured_bind]
      refine assured_begin h (fun _ _ h => h.drop) fun pending nasReq t w hpending h => ?_
      refine assured_identify h hc hpending (fun c => ?_) fun c' hc' =>
        .bind (.address hc') fun _ => .bind (.arm _) fun _ => .done _
      exact ⟨rfl, rfl, rfl, fun h => by cases h⟩
    · exact .done _

/-! ### The answer to a challenge -/

/-- A UE is found to be the one that is challenged. -/
theorem Intact.authenticate (h : Intact N F tx (some (amfUeId, c)) l t w) (hc : c.suci = some supi)
    (kseaf : String) :
    Intact N F tx (some (amfUeId, c)) l t (.authenticated amfUeId kseaf supi :: w) := by
  have hbound : ∀ id c', Bound F id c' w → (id = amfUeId → c'.suci = some supi) →
      Bound F id c' (.authenticated amfUeId kseaf supi :: w) := by
    refine fun id c' hc' hsuci => { hc' with authenticated := fun supi' hsupi => ?_ }
    rcases hsupi with hfound | ⟨-, hsupi⟩
    · cases hfound
      exact hsuci rfl
    · exact hc'.authenticated supi' hsupi
  obtain ⟨hgenuine, hboundc, c₀, hc₀, halike⟩ := h.held amfUeId c rfl
  refine { h with bound := fun id c' hc' => hbound id c' (h.bound id c' hc') ?_, held := ?_ }
  · rintro rfl
    rw [hc₀] at hc'
    cases hc'
    exact halike.suci.trans hc
  · rintro _ _ ⟨⟩
    exact ⟨hgenuine, hbound _ _ hboundc fun _ => hc, c₀, hc₀, halike⟩

/-- The K_AMF is derived for the identity of the context. -/
theorem keeps_key {kseaf : Bytes} (hc : c.suci = some supi)
    (hf : ∀ c, (f c).suci = c.suci ∧ (f c).kamf = some (F.aka.kamf kseaf supi ABBA) ∧ (f c).auth = c.auth ∧
      (f c).state ≠ .IdentityRequested) :
    Keeps N F tx start (some (amfUeId, c)) none (modifyUe amfUeId f) := by
  intro l t w h
  refine ⟨Keeps.proper_move (.refl _), h.renew (fun c => (hf c).1) fun c' hgenuine halike => ?_⟩
  obtain ⟨hsuci, hkamf, hauth, hstate⟩ := hf c'
  refine ⟨fun h => absurd h hstate, fun pending hpending => ?_, fun kamf hfkamf => ?_⟩
  · exact hsuci.trans (hgenuine.challenged pending (hauth ▸ hpending))
  · rw [hkamf] at hfkamf
    cases hfkamf
    exact ⟨kseaf, supi, rfl, hsuci.trans (halike.suci.trans hc)⟩

theorem establishSecurity_eq_some {kseafHex supi : String} {ueSecCap : UInt8 × UInt8}
    {sec : Nas.NasSecurityContext} {smc kamf : Bytes}
    (h : establishSecurity F kseafHex supi ueSecCap = some (sec, smc, kamf)) :
    ∃ kseaf, kamf = F.aka.kamf kseaf supi ABBA := by
  simp only [establishSecurity, Option.bind_eq_bind, Option.bind_eq_some_iff] at h
  obtain ⟨nea, -, nia, -, kseaf, -, h⟩ := h
  cases h
  exact ⟨kseaf, rfl⟩

theorem keeps_secureUe (hc : c.suci = some supi) (kseaf : String) :
    Keeps N F tx start (some (amfUeId, c)) none (secureUe F amfUeId kseaf supi) := by
  intro l t w h
  obtain ⟨-, -, c', hc', halike⟩ := h.held amfUeId c rfl
  have hsuci : c'.suci = some supi := halike.suci.trans hc
  rw [secureUe, Proc.assured_bind, getUe, Proc.assured_look, hc']
  dsimp only
  split
  · rename_i sec smc kamf c₁ hestablished hsome
    cases hsome
    obtain ⟨kseaf, rfl⟩ := establishSecurity_eq_some hestablished
    have hkey : ∀ now, Keeps N F tx start (some (amfUeId, c')) none (modifyUe amfUeId fun c =>
        { c with
          sec := some sec
          kamf := some (F.aka.kamf kseaf supi ABBA)
          state := .SecurityMode
          regProgressAt := now
          pendingRetx := some { kind := .SecurityModeCommand, nasBytes := smc, attempts := 1 } }) :=
      fun now => keeps_key hsuci fun c => ⟨rfl, rfl, rfl, fun h => by cases h⟩
    exact Keeps.bind (.look _) (fun now => .bind (hkey now) fun _ => .bind (.arm _) fun _ => .done _) l t w
      (h.read hc')
  · exact h.drop

theorem keeps_rejectAuthentication :
    Keeps N F tx start held none (rejectAuthentication F amfUeId) := by
  have hremove : ∀ {held : Held} (dls : List Downlink), Keeps N F tx start held none (do
      removeUe amfUeId
      return dls) := fun _ => .bind .removeUe fun _ => .pure _
  refine .getUe_bind (hremove _) fun c => ?_
  dsimp only
  split
  · exact .bind (.change (fewer_unaddressed _)) fun _ => hremove _
  · exact hremove _

theorem lookup_modified (hc : l.ues.lookup amfUeId = some c) :
    (l.modify amfUeId f).ues.lookup amfUeId = some (f c) := by
  rw [Association.modify, Map.lookup_modify, if_pos rfl, hc, Option.map_some]

/-- The challenge that is taken is of the UE that the context is for. -/
theorem assured_takePending (h : Intact N F tx held l t w)
    {Q : Option PendingAuth → Association → Tables → List Mark → Prop}
    (hnone : ∀ l, Intact N F tx none l t w → Q none l t w)
    (hsome : ∀ pending supi c l, c.suci = some supi → Challenges N supi pending →
      Intact N F tx (some (amfUeId, c)) l t w → Q (some pending) l t w) :
    assured (N.outside false) (Heeds N) (Others N F tx) (Proper N F start) (takePending amfUeId) Q l t w := by
  rw [takePending, Proc.assured_act]
  refine ⟨Keeps.proper_move (.refl _), ?_⟩
  have halike : ∀ c : UeContext, Alike c { c with pendingRetx := none, auth := none } :=
    fun c => ⟨rfl, .inr rfl, rfl, id⟩
  have htaken : Intact N F tx none (l.modify amfUeId fun c => { c with pendingRetx := none, auth := none }) t w :=
    (h.modify halike).drop
  dsimp only
  cases hpending : (l.ues.lookup amfUeId).bind (·.auth) with
  | none => exact hnone _ htaken
  | some pending =>
    obtain ⟨c, hc, hauth⟩ := Option.bind_eq_some_iff.mp hpending
    have hsuci : c.suci = some (N.subject pending.ausfBase pending.ctxId).val :=
      (h.genuine amfUeId c hc).challenged pending hauth
    have hread := htaken.read (lookup_modified hc)
    refine hsome pending _ _ _ ?_ rfl hread
    exact hsuci

theorem keeps_completeAuthentication (resStar : Option Bytes) :
    Keeps N F tx start held none (completeAuthentication F amfUeId resStar) := by
  intro l t w h
  rw [completeAuthentication, Proc.assured_bind]
  refine assured_takePending h (fun _ h => h) fun pending supi c l hc hpending h => ?_
  cases resStar with
  | none => exact keeps_rejectAuthentication _ _ _ h
  | some resStar =>
    dsimp only
    rw [Proc.assured_bind]
    refine assured_finish h fun outcome t w hsupi h => ?_
    split
    · rename_i kseaf supi'
      have hsame : supi' = supi := (hsupi _ _ rfl).trans hpending.symm
      rw [Proc.assured_bind, Proc.assured_mark]
      refine fun _ => ⟨Keeps.proper_mark rfl, ?_⟩
      rw [hsame]
      exact keeps_secureUe hc kseaf _ _ _ (h.authenticate hc kseaf)
    · exact h.drop
    · exact keeps_rejectAuthentication _ _ _ h

/-! ### Uplink messages -/

theorem keeps_dispatchUplinkNas (m : Nas5gmmMessage) :
    Keeps N F tx start held none (dispatchUplinkNas F amfUeId m) := by
  unfold dispatchUplinkNas
  split
  · exact keeps_onAuthenticationFailure _ _
  · exact keeps_onIdentityResponse _
  · exact keeps_onDeregistrationAccept
  · exact keeps_onRegistrationComplete
  · exact .bind (.modifyUe fun c => ⟨rfl, .inl rfl, rfl, id⟩) fun _ => .done _
  · exact keeps_onUlNasTransport _
  · exact .done _

theorem keeps_handleUplink (m : Nas5gmmMessage) :
    Keeps N F tx start held none (handleUplink F amfUeId m) := by
  unfold handleUplink
  split
  · exact keeps_completeAuthentication _
  · exact keeps_onSecurityModeComplete
  · exact keeps_onDeregistration _
  · exact keeps_dispatchUplinkNas _

theorem keeps_readUplink (raw : Bytes) (c : UeContext) :
    Keeps N F tx start held held (readUplink F amfUeId raw c) := by
  unfold readUplink
  split
  · exact .pure _
  · refine .bind (.modifyUe fun c => ⟨rfl, .inl rfl, rfl, id⟩) fun _ => ?_
    split
    · exact .bind (.mark rfl rfl) fun _ => .pure _
    · exact .pure _

theorem keeps_onUplinkNas (msg : UplinkNASTransport) :
    Keeps N F tx start held none (onUplinkNas F msg) := by
  unfold onUplinkNas
  split
  · exact .done _
  · refine .getUe_bind (.done _) fun c => ?_
    split
    · refine .bind (.mark rfl rfl) fun _ => .bind (keeps_readUplink _ _) fun m => ?_
      cases m with
      | none => exact .done _
      | some m => exact keeps_handleUplink m
    · exact .done _

/-! ### A new registration -/

/-- Of a UE that has just been taken up nothing is known but what it claims. -/
theorem genuine_new (hauth : c.auth = none) (hkamf : c.kamf = none)
    (hstate : c.state = .IdentityRequested → c.suci = none) : Genuine N F c where
  unidentified := hstate
  challenged pending hpending := by
    rw [hauth] at hpending
    cases hpending
  keyed kamf hsome := by
    rw [hkamf] at hsome
    cases hsome

theorem assured_takeUp (h : Intact N F tx none l t w) (hc : Genuine N F c) {α : Type} {k : AmfM α}
    {Q : α → Association → Tables → List Mark → Prop}
    (hk : ∀ l w, Intact N F tx (some (amfUeId, c)) l t w →
      assured (N.outside false) (Heeds N) (Others N F tx) (Proper N F start) k Q l t w) :
    assured (N.outside false) (Heeds N) (Others N F tx) (Proper N F start)
      (do
        Proc.mark (.created amfUeId)
        insertUe amfUeId c
        k) Q l t w := by
  rw [Proc.assured_bind, Proc.assured_mark]
  refine fun hheeds => ⟨Keeps.proper_mark rfl, ?_⟩
  rw [Proc.assured_bind]
  have hvacant := Vacant.ofMark (n := .created amfUeId) h rfl rfl hheeds.2
  exact ⟨Keeps.proper_move (.refl _), hk _ _ (hvacant.insert hc)⟩

/-- A UE that is taken up has the identity which it claims. -/
theorem assured_onInitialUe (h : Intact N F tx none l t w) (msg : InitialUEMessage)
    {Q : Option InitialUeOutcome → Association → Tables → List Mark → Prop}
    (hnone : Q none l t w)
    (hneed : ∀ dl l t w, Intact N F tx none l t w → Q (some (.needIdentity dl)) l t w)
    (hidentified : ∀ ranUeId supi c l t w, c.suci = some supi → Intact N F tx (some (amfUeId, c)) l t w →
      Q (some (.identified ranUeId supi)) l t w) :
    assured (N.outside false) (Heeds N) (Others N F tx) (Proper N F start) (onInitialUe F msg amfUeId) Q
      l t w := by
  unfold onInitialUe
  split
  · exact hnone
  · rename_i ranUeId _
    simp only [Proc.assured_bind, Proc.assured_look]
    split
    · rename_i supi _
      rw [Proc.assured_bind, Proc.assured_look]
      refine assured_takeUp h ?_ fun l w h => ?_
      · exact genuine_new rfl rfl fun h => by cases h
      · rw [Proc.assured_bind]
        exact assured_mono (fun _ _ _ _ h => hidentified ranUeId supi _ _ _ _ rfl h) (Keeps.address rfl _ _ _ h)
    · refine assured_takeUp h ?_ fun l w h => ?_
      · exact genuine_new rfl rfl fun _ => rfl
      · rw [Proc.assured_bind]
        exact assured_mono (fun _ _ _ _ h => hneed _ _ _ _ h.drop) (Keeps.arm _ _ _ _ h)

theorem assured_onInitialUeMessage (h : Intact N F tx none l t w) (msg : InitialUEMessage) :
    assured (N.outside false) (Heeds N) (Others N F tx) (Proper N F t) (onInitialUeMessage F msg)
      (fun _ l' t' w' => Intact N F tx none l' t' w') l t w := by
  rw [onInitialUeMessage, Proc.assured_bind, Proc.assured_look]
  split
  · rename_i tmsi _
    rw [Proc.assured_bind]
    exact assured_mono (fun dls l t w h => Keeps.sendAll dls l t w h) (assured_onServiceRequest h msg tmsi)
  · refine Keeps.bind (.ask _) (fun admission => ?_) l t w h
    split
    · split
      · exact .sendAll _
      · exact .pure _
    · have hslot : ∀ (slot : Bool) (c : UeContext), Alike c { c with cblSlot := slot } :=
        fun _ c => ⟨rfl, .inl rfl, rfl, id⟩
      refine .bind (.actShared fewer_drawn) fun amfUeId l t w h => ?_
      rw [Proc.assured_bind]
      refine assured_onInitialUe h msg h (fun dl l t w h => ?_) fun ranUeId supi c l t w hc h => ?_
      · exact Keeps.bind (.modifyUe (hslot _)) (fun _ => .bind (.arm _) fun _ => .sendAll _) l t w h
      · exact Keeps.bind (.modifyUe (hslot _))
          (fun _ => .bind (.arm _) fun _ => keeps_startAuthentication hc ranUeId) l t w h

/-! ### Everything -/

/-- All that an association does is proper and leaves every context bound. -/
theorem assured_handle (h : Intact N F tx none l t w) (task : Task) :
    assured (N.outside false) (Heeds N) (Others N F tx) (Proper N F t) (handle F task)
      (fun _ l' t' w' => Intact N F tx none l' t' w') l t w := by
  have hsend : ∀ {p : AmfM (List Downlink)}, Keeps N F tx t none none p →
      assured (N.outside false) (Heeds N) (Others N F tx) (Proper N F t) (p >>= sendAll)
        (fun _ l' t' w' => Intact N F tx none l' t' w') l t w :=
    fun hp => Keeps.bind hp (fun dls => .sendAll dls) l t w h
  cases task with
  | ngap input =>
    cases input with
    | initialUe msg => exact assured_onInitialUeMessage h msg
    | uplinkNas msg => exact hsend (keeps_onUplinkNas msg)
  | start amfUeId => exact hsend keeps_onNetworkDeregistration
  | t3522Expiry amfUeId =>
    exact hsend (keeps_onExpiry fun _ _ _ _ hexpire => alike_expireT3522 hexpire)
  | t3555Expiry amfUeId =>
    exact hsend (keeps_onExpiry fun _ _ _ _ hexpire => alike_expireT3555 hexpire)
  | nasRetxExpiry amfUeId kind =>
    exact hsend (keeps_onExpiry fun _ _ _ _ hexpire => alike_expireNasRetx hexpire)
  | modifyPolicy m => exact Keeps.bind (keeps_onNetworkModification m) (fun _ => .pure _) l t w h
  | releaseSession amfUeId psis cause => exact hsend (keeps_onNetworkRelease psis cause)
  | releaseGuardExpiry amfUeId psi => exact hsend (keeps_onReleaseGuardExpiry psi)
  | registrationGuardExpiry amfUeId => exact hsend keeps_onRegistrationGuardExpiry
  | updateSubscribedData amfUeId ueAmbr allowedNssai =>
    exact hsend (keeps_onSdmDataChange ueAmbr allowedNssai)
  | updateAmPolicy amfUeId ueAmbr rfsp areaRestriction =>
    exact hsend (keeps_onAmPolicyUpdate ueAmbr rfsp areaRestriction)

/-- The answer of a reliable network to a token that it accepts is a challenge of the same UE. -/
theorem answers_resync {ausfBase snn rand auts : String} {supi : Supi} {r : Option UeAuthenticationCtx}
    (htoken : N.resyncs supi.val rand auts = true)
    (hr : N.answers true (.authenticateResync ausfBase supi.val snn rand auts) r = true) :
    ∃ ctx fresh rand autn, r = some ctx ∧ N.subject fresh.ausfBase fresh.ctxId = supi ∧
      AmfAuth.challenge F ausfBase ctx = some (fresh, F.nas.encode (.authenticationRequest 0 rand autn)) := by
  cases r with
  | none => simp [HomeNetwork.answers, htoken, deconceal_plain supi.property] at hr
  | some ctx =>
    have hchallenges : N.challenges ausfBase supi.val ctx = true := (Bool.and_eq_true_iff.mp hr).2
    have hsubject := subject_of_challenges (.inl supi.property) hchallenges
    obtain ⟨⟨hrand, hautn⟩, hhxres⟩ :
        ((hexSized 16 ctx.rand).isSome ∧ (hexSized 16 ctx.autn).isSome) ∧
          (hexSized 16 ctx.hxresStar).isSome := by
      simpa [HomeNetwork.challenges] using (Bool.and_eq_true_iff.mp hchallenges).2
    obtain ⟨rand, hrand⟩ := Option.isSome_iff_exists.mp hrand
    obtain ⟨autn, hautn⟩ := Option.isSome_iff_exists.mp hautn
    obtain ⟨hxres, hhxres⟩ := Option.isSome_iff_exists.mp hhxres
    refine ⟨ctx, ⟨ausfBase, ctx.authCtxId, rand, hxres⟩, rand, autn, rfl, Subtype.ext hsubject.symm, ?_⟩
    simp [AmfAuth.challenge, hrand, hautn, hhxres]

/-- A synch failure is recovered from. -/
theorem recovers {allow : Mark → Association → Tables → List Mark → Prop} (h : Intact N F tx none l t w) :
    Recovers N F allow l t w := by
  intro msg amfUeId c raw pending auts hid hnas hc hsec hauth hresync hdecode htoken dls l' t' w' hexec
  have hsuci : c.suci = some (N.subject pending.ausfBase pending.ctxId).val :=
    (h.genuine amfUeId c hc).challenged pending hauth
  refine hexec.assured (G := fun _ _ _ _ => True)
    (Q := fun dls l' _ _ => Rechallenged N F amfUeId c pending dls l') ?_
  simp only [onUplinkNas, hid, hnas, getUe, Proc.assured_bind, Proc.assured_look, hc, Proc.assured_mark,
    readUplink, hsec, hdecode, Proc.assured_pure, handleUplink, dispatchUplinkNas, onAuthenticationFailure,
    hauth, hsuci, hresync, and_self, if_true, AmfAuth.resync, callFor, Proc.assured_ask]
  refine fun _ => ⟨trivial, fun _ => ⟨trivial, fun r t₁ hr _ => ?_⟩⟩
  obtain ⟨ctx, fresh, rand, autn, rfl, hfresh, hchallenge⟩ := answers_resync (F := F) htoken hr
  dsimp only
  rw [Proc.assured_pure, hchallenge]
  exact ⟨trivial, fresh, rand, autn, hfresh, rfl, lookup_modified hc⟩

theorem Running.intact {t₀ : Tables} (hreserve : Reserve N F t₀) (h : Running N F (Heeds N) tx t₀ l t w) :
    Intact N F tx none l t w := by
  induction h with
  | init =>
    have hnone : ∀ id c, ({ tx : Association }).ues.lookup id ≠ some c := fun id c hc => by
      rw [AList.lookup_empty] at hc
      cases hc
    exact ⟨rfl, fun id c hc => absurd hc (hnone id c), fun id c hc => absurd hc (hnone id c),
      fun _ id c _ hc => absurd hc (hnone id c), hreserve, fun _ _ hheld => by cases hheld⟩
  | serve task _ hexec ih => exact hexec.assured (assured_handle ih task)
  | others _ ht ih => exact ih.others ht
  | alter amfUeId _ hf ih => exact ih.modify hf
  | leave amfUeId _ ih => exact ih.erase
  | @arrive l t w c amfUeId _ hgenuine hbound hentered ih =>
    have hinserted := ih.insert hgenuine hbound (ih.tx.symm ▸ hentered)
    cases hc : c.suci with
    | none => exact hinserted.drop
    | some supi =>
      have hkeeps : Keeps N F tx t (some (amfUeId, c)) (some (amfUeId, c)) (address supi amfUeId) :=
        .address hc
      have haddressed := (hkeeps _ _ _ hinserted).2.drop
      simp only [hinserted.tx] at haddressed
      exact haddressed

/-- While nobody is asked about but by a plain identity, every context is bound to the identity that the
AUSF has confirmed, the UEs are spoken of under these, and a synch failure is recovered from. -/
theorem identity_bound {t₀ : Tables} (hreserve : Reserve N F t₀) (h : Running N F (Heeds N) tx t₀ l t w) :
    Faithful N F (Heeds N) l t w := by
  have hintact := h.intact hreserve
  refine ⟨hintact.bound, hintact.entered, fun task d l₁ t₁ w₁ hdoes => ?_, recovers hintact⟩
  rw [hintact.tx] at hdoes
  exact hdoes.within (assured_handle hintact task)

/-! #### A registration under the null scheme -/

instance decidableUnentered (amfUeId : AmfUeId) (l : Association) (t : Tables) :
    Decidable (Unentered amfUeId l t) :=
  decidable_of_iff (∀ e ∈ t.ueDirectory.entries, e.2 ≠ (amfUeId, l.tx))
    ⟨fun h supi hsupi => h ⟨supi, _⟩ (AList.mem_lookup_iff.mp hsupi) rfl,
      fun h e he hsame => h e.1 (AList.mem_lookup_iff.mpr (hsame ▸ he))⟩

instance decidableFresh :
    ∀ (n : Mark) (l : Association) (t : Tables) (w : List Mark), Decidable (Fresh n l t w)
  | .created amfUeId, l, t, _ => decidableUnentered amfUeId l t
  | .resumed amfUeId, l, t, _ => decidableUnentered amfUeId l t
  | .uplink .., _, _, _ => .isTrue trivial
  | .verified .., _, _, _ => .isTrue trivial
  | .authenticated .., _, _, _ => .isTrue trivial
  | .registered _, _, _, _ => .isTrue trivial
  | .calling .., _, _, _ => .isTrue trivial
  | .spawning .., _, _, _ => .isTrue trivial
  | .sending _, _, _, _ => .isTrue trivial

instance decidableHeeds (N : HomeNetwork) (n : Mark) (l : Association) (t : Tables) (w : List Mark) :
    Decidable (Heeds N n l t w) :=
  inferInstanceAs (Decidable (_ ∧ _))

instance decidableAuthenticatedAs (amfUeId : AmfUeId) (supi : String) (w : List Mark) :
    Decidable (AuthenticatedAs amfUeId supi w) :=
  inferInstanceAs
    (Decidable (Runs.Since (fun n => opened n ≠ some amfUeId) (fun _ n => found n = some (amfUeId, supi)) w))

/-- Messages one after the other are a run. -/
theorem Running.of_loop {allow : Mark → Association → Tables → List Mark → Prop} {t₀ : Tables}
    (h : Proc.Loop (N.outside false) allow (handle F) (Others N F tx) { tx } t₀ [] l t w) :
    Running N F allow tx t₀ l t w := by
  induction h with
  | refl => exact .init
  | serve task _ hexec ih => exact .serve task ih hexec
  | drift _ ht ih => exact .others ih ht

/-- The home network of the UE of the sample. -/
def sampleNetwork : HomeNetwork where
  crypto := Udm.sampleCrypto
  keys := ⟨(∅ : Map UInt8 (Octets 32)).insert 7 (Octets.zero 32), ∅⟩
  milenage := Ausf.sampleMilenage
  store := Ausf.sampleStore
  subject _ _ := ⟨"imsi-999700000000001", by decide⟩

theorem identity_bound_sampleRegistration :
    ∃ l t w, AuthenticatedAs 1 "imsi-999700000000001" w ∧
      Faithful sampleNetwork sampleFunctions (Heeds sampleNetwork) l t w := by
  have hserved : (Proc.attemptLoop (sampleNetwork.outside false) (Heeds sampleNetwork) sampleAnswer
      (handle sampleFunctions) (sampleRegistration.map .ngap) { tx := 0 } {} []).any
        (fun e => decide (AuthenticatedAs 1 "imsi-999700000000001" e.2.2)) = true := by
    decide +kernel
  obtain ⟨⟨l, t, w⟩, hrun, hw⟩ := (Option.any_eq_true _ _).mp hserved
  have hreserve : Reserve sampleNetwork sampleFunctions {} := fun tmsi c hc => by
    rw [AList.lookup_empty] at hc
    cases hc
  exact ⟨l, t, w, of_decide_eq_true hw, identity_bound hreserve
    (.of_loop (Proc.loop_attemptLoop (fun _ _ _ _ h => h) (fun _ => ⟨id, fun _ _ => id⟩) hrun))⟩

/-! #### A concealed identity -/

/-- The identity of the UE of the sample under Profile A. -/
def sampleSuci : Nas.Suci where
  mcc := [9, 9, 9]
  mnc := [7, 0, 0x0f]
  routingIndicator := [0x00, 0x00]
  protectionScheme := 1
  homeNwPublicKeyId := 7
  schemeOutput :=
    Udm.schemeOutput Udm.sampleCrypto Udm.samplePublic.val Udm.sampleShared.val "0000000001".toList

/-- A Registration Request with it. -/
def sampleConcealed : Bytes :=
  [0x7e, 0x00, 0x41, 0x79, 0x00, 0x35, 0x01, 0x99, 0xf9, 0x07, 0x00, 0x00, 0x01, 0x07] ++
    sampleSuci.schemeOutput ++ [0x2e, 0x02, 0x80, 0x20]

def concealedFunctions : Functions :=
  { sampleFunctions with
    nas := { sampleNas with
      decode := fun raw =>
        if raw = sampleConcealed then
          some (.registrationRequest
            { registrationType := some .initialRegistration
              mobileIdentity := .suci sampleSuci
              ueSecurityCapability := some (0x80, 0x20)
              requestedNssai := none, uplinkDataStatus := none, pduSessionStatus := none })
        else sampleNas.decode raw } }

/-- Its challenge is answered. -/
def sampleConcealment : List Input :=
  [.initialUe
      { ranUeNgapId := some 1, nasPdu := some sampleConcealed, fivegSTmsi := none, tac := some 1 },
    .uplinkNas
      { amfUeNgapId := some 1, nasPdu := some ([0x7e, 0x00, 0x57, 0x2d, 0x10] ++ sampleResStar) }]

/-- **A UE goes by its SUCI.** It has been authenticated, and the AUSF has said who it is. -/
theorem concealed_unbound :
    ¬ ∀ N F tx t₀ l t w, Reserve N F t₀ → Running N F Fresh tx t₀ l t w → Faithful N F Fresh l t w := by
  intro h
  have hconcealed : (Proc.attemptLoop (sampleNetwork.outside false) Fresh sampleAnswer
      (handle concealedFunctions) (sampleConcealment.map .ngap) { tx := 0 } {} []).any
        (fun e => decide (AuthenticatedAs 1 "imsi-999700000000001" e.2.2 ∧
          ∃ c ∈ e.1.ues.lookup 1, c.suci ≠ some "imsi-999700000000001")) = true := by
    decide +kernel
  obtain ⟨⟨l, t, w⟩, hrun, hw⟩ := (Option.any_eq_true _ _).mp hconcealed
  obtain ⟨hauthenticated, c, hc, hsuci⟩ := of_decide_eq_true hw
  have hreserve : Reserve sampleNetwork concealedFunctions {} := fun tmsi c hc => by
    rw [AList.lookup_empty] at hc
    cases hc
  have hfaithful := h sampleNetwork concealedFunctions 0 {} l t w hreserve
    (.of_loop (Proc.loop_attemptLoop (fun _ _ _ _ h => h) (fun _ => ⟨id, fun _ _ => id⟩) hrun))
  exact hsuci ((hfaithful.bound 1 c hc).authenticated _ hauthenticated)

end Radian.Amf.Identity
