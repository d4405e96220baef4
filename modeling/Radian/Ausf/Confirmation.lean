import Radian.Udm.AuthData
import Radian.Runs.Basic

/-!
# Authentication contexts

The AUSF's two requests, and what it answers over any sequence of them.

- `AusfState`, `authenticate`, `confirm` — a context is stored, and used.
- `Event`, `step`, `transcript` — requests in any order, and the confirmations that were asked for.
- `SingleUse` — a context yields K_SEAF once, and not after a wrong RES*.
- `singleUse_iff` — exactly when it does.
-/

open Keyed (Map)

namespace Radian.Ausf

open Aka (Kdf)
open Amf (ConfirmationDataResponse UeAuthenticationCtx hexEncode hexSized)
open Udm (AuthenticationInfoResult StatusCode parseSnn)

/-! ### Contexts -/

structure AuthCtx where
  supi : String
  xresStar : Octets 16
  kausf : Octets 32
  mcc : String
  mnc : String
  deriving DecidableEq

abbrev AusfState : Type := Map String AuthCtx

structure ResynchronizationInfo where
  rand : String
  auts : String
  deriving DecidableEq, Repr

structure AuthenticationInfo where
  supiOrSuci : String
  servingNetworkName : String
  resynchronizationInfo : Option ResynchronizationInfo := none
  deriving DecidableEq, Repr

/-- `n` octets from hexadecimal. -/
def parseOctets (n : Nat) (h : String) : Option (Octets n) := (hexSized n h).bind (Octets.ofBytes? n)

@[simp] theorem parseOctets_hexEncode {n : Nat} (bytes : Octets n) :
    parseOctets n (hexEncode bytes.val) = some bytes := by
  rw [parseOctets, Udm.hexSized_hexEncode, Option.bind_some, Octets.ofBytes?_val]

variable (K : Kdf)

/-- Store a context for a fresh vector.  `resynced` and `udm` are the UDM's answers, `none` where a request
fails, and `ctxId` is the id drawn. -/
def authenticate (info : AuthenticationInfo) (resynced : Option Bool) (udm : Option AuthenticationInfoResult)
    (ctxId : String) (ctxs : AusfState) : Except StatusCode UeAuthenticationCtx × AusfState :=
  match parseSnn info.servingNetworkName with
  | none => (.error .badRequest, ctxs)
  | some (mcc, mnc) =>
      match info.resynchronizationInfo.map fun _ => resynced with
      | some none => (.error .badGateway, ctxs)
      | some (some false) => (.error .forbidden, ctxs)
      | some (some true) | none =>
          match udm with
          | none => (.error .internalServerError, ctxs)
          | some result =>
              let av := result.authenticationVector
              match parseOctets 16 av.rand, parseOctets 16 av.xresStar, parseOctets 32 av.kausf with
              | some rand, some xresStar, some kausf =>
                  (.ok
                    { authCtxId := ctxId, rand := av.rand, autn := av.autn
                      hxresStar := hexEncode (Aka.hxresStar K rand xresStar).val },
                    ctxs.insert ctxId { supi := result.supi, xresStar, kausf, mcc, mnc })
              | _, _, _ => (.error .internalServerError, ctxs)

def failure : ConfirmationDataResponse :=
  { authResult := "AUTHENTICATION_FAILURE", supi := none, kseaf := none }

/-- Compare RES* with the context's XRES*; K_SEAF if they are equal, and then the context goes. -/
def confirm (ctxId resStar : String) (ctxs : AusfState) :
    Except StatusCode ConfirmationDataResponse × AusfState :=
  match parseOctets 16 resStar with
  | none => (.error .badRequest, ctxs)
  | some resStar =>
      match ctxs.lookup ctxId with
      | none => (.error .notFound, ctxs)
      | some ctx =>
          if resStar = ctx.xresStar then
            (.ok
              { authResult := "AUTHENTICATION_SUCCESS", supi := some ctx.supi
                kseaf := some (hexEncode (Aka.kseaf K ctx.kausf ctx.mcc ctx.mnc).val) },
              ctxs.erase ctxId)
          else (.ok failure, ctxs)

/-! ### Sequences of requests -/

inductive Event where
  | authenticate (info : AuthenticationInfo) (resynced : Option Bool) (udm : Option AuthenticationInfoResult)
      (ctxId : String)
  | confirm (ctxId resStar : String)

/-- The id that an authentication draws. -/
def Event.draws : Event → Option String
  | .authenticate _ _ _ ctxId => some ctxId
  | .confirm _ _ => none

def step (ctxs : AusfState) : Event → AusfState
  | .authenticate info resynced udm ctxId => (authenticate K info resynced udm ctxId ctxs).2
  | .confirm ctxId resStar => (confirm K ctxId resStar ctxs).2

/-- A RES* that was submitted, and the answer. -/
structure Confirmed where
  ctxId : String
  resStar : String
  answer : Except StatusCode ConfirmationDataResponse

/-- The confirmations asked for, in their order. -/
def transcript : AusfState → List Event → List Confirmed
  | _, [] => []
  | ctxs, .authenticate info resynced udm ctxId :: es =>
      transcript (step K ctxs (.authenticate info resynced udm ctxId)) es
  | ctxs, .confirm ctxId resStar :: es =>
      ⟨ctxId, resStar, (confirm K ctxId resStar ctxs).1⟩ :: transcript (step K ctxs (.confirm ctxId resStar)) es

namespace Confirmed

/-- The answer has K_SEAF. -/
def yields (c : Confirmed) : Bool :=
  match c.answer with
  | .ok response => response.kseaf.isSome
  | .error _ => false

/-- A RES* other than the context's XRES*. -/
def wrong (ctx : AuthCtx) (c : Confirmed) : Bool := (parseOctets 16 c.resStar).any (· ≠ ctx.xresStar)

end Confirmed

/-- A context yields K_SEAF at most once, and never after a wrong RES* was submitted for it. -/
structure SingleUse (ctxId : String) (ctx : AuthCtx) (t : List Confirmed) : Prop where
  once : (t.filter fun c => c.ctxId = ctxId ∧ c.yields).length ≤ 1
  right : ∀ before c after, t = before ++ c :: after → c.ctxId = ctxId → c.yields →
    ∀ b ∈ before, b.ctxId = ctxId → ¬ b.wrong ctx

/-- What is submitted for a context as a RES*. -/
def submissions (ctxId : String) (es : List Event) : List (Octets 16) :=
  es.filterMap fun e =>
    match e with
    | .authenticate .. => none
    | .confirm id resStar => if id = ctxId then parseOctets 16 resStar else none

/-- The first RES* that is submitted for the context is its XRES*, or none is. -/
def FirstRight (ctxId : String) (ctx : AuthCtx) (es : List Event) : Prop :=
  ctx.xresStar ∈ submissions ctxId es → (submissions ctxId es).head? = some ctx.xresStar

/-! ### One request -/

variable {K} {ctxId : String} {ctx : AuthCtx} {ctxs : AusfState}

theorem lookup_authenticate {info : AuthenticationInfo} {resynced : Option Bool}
    {udm : Option AuthenticationInfoResult} {id : String}
    (h : Event.draws (.authenticate info resynced udm id) ≠ some ctxId) :
    (authenticate K info resynced udm id ctxs).2.lookup ctxId = ctxs.lookup ctxId := by
  have hne : ctxId ≠ id := fun heq => h (congrArg some heq.symm)
  unfold authenticate
  split
  · rfl
  · split
    · rfl
    · rfl
    · split
      · rfl
      · dsimp only
        split
        · exact AList.lookup_insert_ne hne
        · rfl
    · split
      · rfl
      · dsimp only
        split
        · exact AList.lookup_insert_ne hne
        · rfl

/-- A confirmation for a context that is there: K_SEAF for its XRES*, and then it is gone. -/
theorem confirm_right {resStar : String} (h : ctxs.lookup ctxId = some ctx)
    (hright : parseOctets 16 resStar = some ctx.xresStar) :
    (⟨ctxId, resStar, (confirm K ctxId resStar ctxs).1⟩ : Confirmed).yields = true ∧
      (confirm K ctxId resStar ctxs).2.lookup ctxId = none := by
  simp only [confirm, hright, h, if_true]
  exact ⟨rfl, AList.lookup_erase ctxId ctxs⟩

/-- Anything else changes nothing and yields nothing. -/
theorem confirm_wrong (K : Kdf) (ctxId resStar : String) (ctxs : AusfState)
    (h : ∀ ctx, ctxs.lookup ctxId = some ctx → parseOctets 16 resStar ≠ some ctx.xresStar) :
    (⟨ctxId, resStar, (confirm K ctxId resStar ctxs).1⟩ : Confirmed).yields = false ∧
      (confirm K ctxId resStar ctxs).2 = ctxs := by
  unfold confirm
  cases hparse : parseOctets 16 resStar with
  | none => exact ⟨rfl, rfl⟩
  | some r =>
    cases hctx : ctxs.lookup ctxId with
    | none => exact ⟨rfl, rfl⟩
    | some ctx =>
      have hne : r ≠ ctx.xresStar := fun heq => h ctx hctx (heq ▸ hparse)
      dsimp only
      rw [if_neg hne]
      exact ⟨rfl, rfl⟩

theorem confirm_ne (K : Kdf) (resStar : String) (h : ctxs.lookup ctxId = some ctx)
    (hne : parseOctets 16 resStar ≠ some ctx.xresStar) :
    (⟨ctxId, resStar, (confirm K ctxId resStar ctxs).1⟩ : Confirmed).yields = false ∧
      (confirm K ctxId resStar ctxs).2.lookup ctxId = some ctx := by
  have hwrong := confirm_wrong K ctxId resStar ctxs fun _ hctx => Option.mem_unique h hctx ▸ hne
  exact ⟨hwrong.1, hwrong.2.symm ▸ h⟩

theorem lookup_confirm_of_ne {id resStar : String} (h : id ≠ ctxId) :
    (confirm K id resStar ctxs).2.lookup ctxId = ctxs.lookup ctxId := by
  unfold confirm
  split
  · rfl
  · split
    · rfl
    · split
      · exact AList.lookup_erase_ne h.symm
      · rfl

/-! ### Any sequence -/

variable {es : List Event}

/-- A context that is gone yields nothing any more. -/
theorem silent_of_gone (h : ctxs.lookup ctxId = none) (hfresh : ∀ e ∈ es, e.draws ≠ some ctxId) :
    ∀ c ∈ transcript K ctxs es, c.ctxId = ctxId → c.yields = false := by
  induction es generalizing ctxs with
  | nil => exact fun c hc => absurd hc List.not_mem_nil
  | cons e es ih =>
    obtain ⟨hfirst, hrest⟩ := List.forall_mem_cons.mp hfresh
    cases e with
    | authenticate info resynced udm id =>
      exact ih ((lookup_authenticate hfirst).trans h) hrest
    | confirm id resStar =>
      intro c hc heq
      by_cases hid : id = ctxId
      · subst hid
        obtain ⟨hsilent, hsame⟩ := confirm_wrong K id resStar ctxs fun ctx hctx => by cases h.symm.trans hctx
        rcases List.mem_cons.mp hc with rfl | hc
        · exact hsilent
        · exact ih ((congrArg (AList.lookup id) hsame).trans h) hrest c hc heq
      · rcases List.mem_cons.mp hc with rfl | hc
        · exact absurd heq hid
        · exact ih ((lookup_confirm_of_ne hid).trans h) hrest c hc heq

theorem submissions_confirm_of_ne {id resStar : String} (h : id ≠ ctxId) :
    submissions ctxId (.confirm id resStar :: es) = submissions ctxId es :=
  List.filterMap_cons_none (if_neg h)

theorem submissions_confirm_none {resStar : String} (h : parseOctets 16 resStar = none) :
    submissions ctxId (.confirm ctxId resStar :: es) = submissions ctxId es :=
  List.filterMap_cons_none ((if_pos rfl).trans h)

theorem submissions_confirm_some {resStar : String} {r : Octets 16} (h : parseOctets 16 resStar = some r) :
    submissions ctxId (.confirm ctxId resStar :: es) = r :: submissions ctxId es :=
  List.filterMap_cons_some ((if_pos rfl).trans h)

/-- A context that is there yields K_SEAF exactly if its XRES* is among what is submitted. -/
theorem yields_iff (h : ctxs.lookup ctxId = some ctx) (hfresh : ∀ e ∈ es, e.draws ≠ some ctxId) :
    (∃ c ∈ transcript K ctxs es, c.ctxId = ctxId ∧ c.yields) ↔ ctx.xresStar ∈ submissions ctxId es := by
  induction es generalizing ctxs with
  | nil => simp [transcript, submissions]
  | cons e es ih =>
    obtain ⟨hfirst, hrest⟩ := List.forall_mem_cons.mp hfresh
    cases e with
    | authenticate info resynced udm id =>
      exact ih ((lookup_authenticate hfirst).trans h) hrest
    | confirm id resStar =>
      rw [transcript, List.exists_mem_cons_iff]
      by_cases hid : id = ctxId
      · subst hid
        cases hparse : parseOctets 16 resStar with
        | none =>
          obtain ⟨hsilent, hkept⟩ := confirm_ne K resStar h (by simp [hparse])
          rw [submissions_confirm_none hparse, ← ih hkept hrest, hsilent]
          simp [step]
        | some r =>
          rw [submissions_confirm_some hparse, List.mem_cons]
          by_cases hr : r = ctx.xresStar
          · obtain ⟨hyields, -⟩ := confirm_right (K := K) h (hr ▸ hparse)
            exact iff_of_true (.inl ⟨rfl, hyields⟩) (.inl hr.symm)
          · obtain ⟨hsilent, hkept⟩ := confirm_ne K resStar h (by simp [hparse, hr])
            rw [← ih hkept hrest, hsilent]
            simp [step, Ne.symm hr]
      · have hsame : (confirm K id resStar ctxs).2.lookup ctxId = ctxs.lookup ctxId := lookup_confirm_of_ne hid
        rw [submissions_confirm_of_ne hid, ← ih (hsame.trans h) hrest]
        simp [step, hid]

/-! ### Single use -/

variable {c : Confirmed} {t : List Confirmed}

theorem SingleUse.nil : SingleUse ctxId ctx [] where
  once := Nat.zero_le 1
  right before c after h := by simp at h

/-- A context that yields nothing in it. -/
theorem SingleUse.of_silent (h : ∀ d ∈ t, d.ctxId = ctxId → d.yields = false) : SingleUse ctxId ctx t where
  once := by
    rw [List.filter_eq_nil_iff.mpr]
    · exact Nat.zero_le 1
    · intro d hd hown
      obtain ⟨hid, hyields⟩ := of_decide_eq_true hown
      exact absurd hyields (by rw [h d hd hid]; decide)
  right before d after ht hid hyields := by
    have hd : d ∈ t := ht ▸ List.mem_append_right before List.mem_cons_self
    exact absurd hyields (by rw [h d hd hid]; decide)

/-- Only its first confirmation yields. -/
theorem SingleUse.cons_right (h : ∀ d ∈ t, d.ctxId = ctxId → d.yields = false) :
    SingleUse ctxId ctx (c :: t) where
  once := by
    have hnil : t.filter (fun c => c.ctxId = ctxId ∧ c.yields) = [] := by
      rw [List.filter_eq_nil_iff]
      intro d hd hown
      obtain ⟨hid, hyields⟩ := of_decide_eq_true hown
      exact absurd hyields (by rw [h d hd hid]; decide)
    rw [List.filter_cons, hnil]
    split
    · exact Nat.le_refl 1
    · exact Nat.zero_le 1
  right before d after ht hid hyields := by
    cases before with
    | nil => exact fun b hb => absurd hb List.not_mem_nil
    | cons b before =>
      obtain ⟨-, ht⟩ := List.cons.inj ht
      have hd : d ∈ t := ht ▸ List.mem_append_right before List.mem_cons_self
      exact absurd hyields (by rw [h d hd hid]; decide)

/-- A confirmation that neither yields nor is wrong makes no difference. -/
theorem singleUse_cons (hsilent : c.ctxId = ctxId → c.yields = false)
    (hfair : c.ctxId = ctxId → c.wrong ctx = false) :
    SingleUse ctxId ctx (c :: t) ↔ SingleUse ctxId ctx t := by
  have hfilter : (c :: t).filter (fun c => c.ctxId = ctxId ∧ c.yields) =
      t.filter fun c => c.ctxId = ctxId ∧ c.yields := by
    rw [List.filter_cons_of_neg]
    intro hown
    obtain ⟨hid, hyields⟩ := of_decide_eq_true hown
    exact absurd hyields (by rw [hsilent hid]; decide)
  constructor
  · intro h
    refine ⟨hfilter ▸ h.once, fun before d after ht hid hyields b hb => ?_⟩
    exact h.right (c :: before) d after (congrArg (c :: ·) ht) hid hyields b (List.mem_cons_of_mem c hb)
  · intro h
    refine ⟨hfilter.symm ▸ h.once, fun before d after ht hid hyields b hb hbid => ?_⟩
    cases before with
    | nil => exact absurd hb List.not_mem_nil
    | cons c' before =>
      obtain ⟨hc, htail⟩ := List.cons.inj ht
      subst hc
      rcases List.mem_cons.mp hb with rfl | hb
      · rw [hfair hbid]
        decide
      · exact h.right before d after htail hid hyields b hb hbid

/-- After a wrong RES* nothing may be yielded. -/
theorem singleUse_cons_wrong (hid : c.ctxId = ctxId) (hwrong : c.wrong ctx) (hsilent : c.yields = false) :
    SingleUse ctxId ctx (c :: t) ↔ ∀ d ∈ t, d.ctxId = ctxId → d.yields = false := by
  constructor
  · intro h d hd hdid
    obtain ⟨before, after, ht⟩ := List.append_of_mem hd
    rw [← Bool.not_eq_true]
    intro hyields
    exact h.right (c :: before) d after (congrArg (c :: ·) ht) hdid hyields c List.mem_cons_self hid hwrong
  · intro h
    refine .of_silent fun d hd hdid => ?_
    rcases List.mem_cons.mp hd with rfl | hd
    · exact hsilent
    · exact h d hd hdid

/-- **Single use.** It is, over any sequence of requests, exactly when the first RES* that is submitted is right
or none is. -/
theorem singleUse_iff (h : ctxs.lookup ctxId = some ctx) (hfresh : ∀ e ∈ es, e.draws ≠ some ctxId) :
    SingleUse ctxId ctx (transcript K ctxs es) ↔ FirstRight ctxId ctx es := by
  induction es generalizing ctxs with
  | nil => exact iff_of_true .nil fun hmem => absurd hmem List.not_mem_nil
  | cons e es ih =>
    obtain ⟨hfirst, hrest⟩ := List.forall_mem_cons.mp hfresh
    cases e with
    | authenticate info resynced udm id =>
      exact ih ((lookup_authenticate hfirst).trans h) hrest
    | confirm id resStar =>
      rw [transcript]
      by_cases hid : id = ctxId
      · subst hid
        cases hparse : parseOctets 16 resStar with
        | none =>
          obtain ⟨hsilent, hkept⟩ := confirm_ne K resStar h (by simp [hparse])
          rw [FirstRight, submissions_confirm_none hparse,
            singleUse_cons (fun _ => hsilent) fun _ => by rw [Confirmed.wrong, hparse]; rfl]
          exact ih hkept hrest
        | some r =>
          rw [FirstRight, submissions_confirm_some hparse, List.head?_cons, Option.some_inj]
          by_cases hr : r = ctx.xresStar
          · obtain ⟨-, hgone⟩ := confirm_right (K := K) h (hr ▸ hparse)
            exact iff_of_true (.cons_right (silent_of_gone hgone hrest)) fun _ => hr
          · obtain ⟨hsilent, hkept⟩ := confirm_ne K resStar h (by simp [hparse, hr])
            have hwrong : (⟨id, resStar, (confirm K id resStar ctxs).1⟩ : Confirmed).wrong ctx := by
              rw [Confirmed.wrong, hparse, Option.any_some]
              exact decide_eq_true hr
            have hyields := yields_iff (K := K) hkept hrest
            rw [singleUse_cons_wrong rfl hwrong hsilent, List.mem_cons]
            constructor
            · rintro hnone (heq | hmem)
              · exact absurd heq.symm hr
              · obtain ⟨c, hc, hcid, hcyields⟩ := hyields.mpr hmem
                exact absurd hcyields (by rw [hnone c hc hcid]; decide)
            · intro hnone d hd hdid
              rw [← Bool.not_eq_true]
              intro hdyields
              exact hr (hnone (.inr (hyields.mp ⟨d, hd, hdid, hdyields⟩)))
      · rw [FirstRight, submissions_confirm_of_ne hid,
          singleUse_cons (fun heq => absurd heq hid) fun heq => absurd heq hid]
        exact ih ((lookup_confirm_of_ne hid).trans h) hrest

end Radian.Ausf
