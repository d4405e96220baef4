import Radian.Amf.Withdrawal

/-!
# Handlers and withdrawals

Run alone, the handlers leave of a context, the directory and the SM contexts what the machine of
withdrawals has after the handler's event.

- `smfs` — the SMFs, as far as it goes for their SM contexts.
- `Agrees` — the association, the tables and the SMFs have what the machine has.
- `Quiet` — the parts of handlers that the machine does not see.
- `starts_callback`, `follows_onNetworkDeregistration` — the withdrawal.
- `follows_onDeregistrationAccept`, …, `follows_establishSession` — the handlers of a connected UE.
- `follows_resume` — the return of an idle one.
-/

namespace Radian.Amf.Withdrawal

open Nas (Nas5gmmMessage Tac)
open Security (Bytes)

variable {F : Functions} {isOpen : Channel → Bool} {supi : String} {k : AmfUeId} {w : World}
variable {l : Association} {t : Tables} {live : List (String × String)}
variable {allow : Mark → Association → Tables → List (String × String) → Prop}

/-- The SMFs, as far as it goes for their SM contexts. -/
def smfs : Outside Association Tables Mark Call Call.Answer (List (String × String)) where
  answers _ _ _ := true
  effect e r live :=
    match e, r with
    | .releaseSmContext smfBase smRef, true => live.filter fun s => s != (smRef, smfBase)
    | .createSmContext smfBase .., .ok created => live ++ [(created.smRef, smfBase)]
    | _, _ => live
  mark _ _ _ live := live

/-- The association, the tables and the SMFs have what the machine has of the context under an id. -/
structure Agrees (supi : String) (k : AmfUeId) (w : World) (l : Association) (t : Tables)
    (live : List (String × String)) : Prop where
  ue : l.ues.lookup k =
    ((w.holdings k).filter fun h => h.place == .connected l.tx).map fun h => h.ctx
  suci : ∀ h, w.holdings k = some h → h.ctx.suci = some supi
  directory : t.ueDirectory.lookup supi = w.directory
  live : live = w.live.map fun s => s.session

/-- The command is for the association that the directory names. -/
theorem starts_callback (hagrees : Agrees supi k w l t live)
    (hopen : ∀ e, w.directory = some e → isOpen e.2 = true) :
    w.callback.starts = w.starts ++ (deregNotify isOpen supi t).2.toList := by
  unfold World.callback deregNotify
  rw [hagrees.directory]
  cases hdirectory : w.directory with
  | none => rfl
  | some e => simp [Option.filter, hopen e hdirectory]

/-- The context is with this association. -/
theorem Agrees.connected (hagrees : Agrees supi k w l t live) {c : UeContext}
    (hc : l.ues.lookup k = some c) :
    ∃ h, w.holdings k = some h ∧ h.place = .connected l.tx ∧ h.ctx = c := by
  have hue := hagrees.ue.symm.trans hc
  obtain ⟨h, hfilter, hctx⟩ := Option.map_eq_some_iff.mp hue
  obtain ⟨hk, hplace⟩ := Option.filter_eq_some_iff.mp hfilter
  exact ⟨h, hk, beq_iff_eq.mp hplace, hctx⟩

/-- The context is not with this association. -/
theorem Agrees.elsewhere (hagrees : Agrees supi k w l t live) (hc : l.ues.lookup k = none) {h : Holding}
    (hk : w.holdings k = some h) : h.place ≠ .connected l.tx := by
  intro hplace
  have hue := hagrees.ue
  simp [hc, hk, hplace] at hue

/-- Whatever releases are answered, nothing else is taken away. -/
theorem before_releaseSessions (sessions : List (String × String))
    (l : Association) (t : Tables) (live : List (String × String)) :
    Proc.before smfs allow (releaseSessions k sessions)
      (fun _ l' t' live' => l' = l ∧ t' = t ∧
        ∃ keep : String × String → Bool, (∀ s ∉ sessions, keep s = true) ∧ live' = live.filter keep)
      l t live := by
  induction sessions generalizing live with
  | nil => exact ⟨rfl, rfl, fun _ => true, fun _ _ => rfl, (List.filter_true live).symm⟩
  | cons s rest ih =>
    simp only [releaseSessions, Proc.forEach, callFor, Proc.before, Proc.wp_bind, Proc.wp_mark,
      Proc.wp_ask, Proc.wp_pure, Proc.sequentially_note, Proc.sequentially_call]
    intro _ answered _
    refine Proc.before_mono ?_ (ih _)
    rintro _ l' t' live' ⟨rfl, rfl, keep, hkeep, rfl⟩
    refine ⟨rfl, rfl, fun e => keep e && (!answered || e != s), ?_, ?_⟩
    · intro e he
      rw [List.mem_cons, not_or] at he
      simp [hkeep e he.2, he.1]
    · cases answered with
      | true => simp [smfs, List.filter_filter]
      | false => simp [smfs]

/-- What is released is what the machine lets go. -/
theorem live_letGo {sessions : List (String × String)} {keep : String × String → Bool}
    (hkeep : ∀ s ∉ sessions, keep s = true) :
    (w.live.map fun s => s.session).filter keep =
      (w.letGo sessions ((w.live.map fun s => s.session).filter keep)).live.map fun s => s.session := by
  refine List.filter_map.trans (congrArg _ (List.filter_congr fun s hs => ?_))
  have hmem : s.session ∈ (w.live.map fun s => s.session).filter keep ↔ keep s.session = true := by
    rw [List.mem_filter, and_iff_right (List.mem_map_of_mem hs)]
  by_cases hsession : s.session ∈ sessions
  · cases hk : keep s.session <;> simp only [hk] at hmem <;> simp [hsession, hmem, hk]
  · simp [hsession, hkeep _ hsession]

theorem follows_onNetworkDeregistration (hagrees : Agrees supi k w l t live) {i : Nat}
    (hi : w.starts[i]? = some (k, l.tx)) :
    Proc.before smfs allow (onNetworkDeregistration F k)
      (fun _ l' t' live' => ∃ failing, Agrees supi k (w.step F (.start i failing)) l' t' live')
      l t live := by
  unfold onNetworkDeregistration getUe
  rw [Proc.before, Proc.wp_bind, Proc.wp_look]
  cases hc : l.ues.lookup k with
  | none =>
    refine ⟨[], ?_⟩
    have hsame : w.step F (.start i []) = { w with starts := w.starts.eraseIdx i } := by
      simp only [World.step, World.start, hi]
      cases hk : w.holdings k with
      | none => rfl
      | some h => exact if_neg (hagrees.elsewhere hc hk)
    rw [hsame]
    exact ⟨hagrees.ue, hagrees.suci, hagrees.directory, hagrees.live⟩
  | some c =>
    obtain ⟨h, hk, hplace, rfl⟩ := hagrees.connected hc
    have hstep : ∀ failing, w.step F (.start i failing) =
        World.deregister F k failing h { w with starts := w.starts.eraseIdx i } := by
      intro failing
      simp only [World.step, World.start, hi, hk]
      exact if_pos hplace
    simp only [hstep, World.deregister]
    split
    · rename_i hattempts
      exact ⟨[], by simpa [hattempts] using
        ⟨hagrees.ue, hagrees.suci, hagrees.directory, hagrees.live⟩⟩
    · rename_i hattempts
      rw [Proc.wp_bind, modifyUe, Proc.wp_changeLocal, Proc.wp_bind]
      refine Proc.before_mono ?_ (before_releaseSessions _ _ t live)
      rintro _ l' t' live' ⟨rfl, rfl, keep, hkeep, rfl⟩
      rw [hagrees.suci h hk, Proc.wp_bind, Proc.wp_change]
      have hlive := live_letGo (w := w) hkeep
      rw [← hagrees.live] at hlive
      have hdirectory : (t'.unaddressed supi).ueDirectory.lookup supi = none := AList.lookup_erase _ _
      cases hsec : h.ctx.sec with
      | none =>
        refine ⟨_, ?_, ?_, hdirectory, hlive⟩
        · simp [World.put, UeContext.deregistering, hsec]
        · simp [World.put, UeContext.deregistering, hsec]
      | some sec =>
        refine ⟨_, ?_, ?_, hdirectory, hlive⟩
        · simp [World.put, UeContext.deregistering, hsec, hc, hplace]
        · simp [World.put, UeContext.deregistering, hsec, hagrees.suci h hk]

theorem Agrees.lookup (hagrees : Agrees supi k w l t live) {h : Holding} (hk : w.holdings k = some h)
    (hat : h.place = .connected l.tx) : l.ues.lookup k = some h.ctx := by
  rw [hagrees.ue, hk]
  simp [hat]

/-- What leaves the contexts, the directory and the SMFs alone. -/
def Quiet {α : Type} (p : AmfM α) : Prop :=
  ∀ (allow : Mark → Association → Tables → List (String × String) → Prop) (l : Association) (t : Tables)
    (live : List (String × String)),
    Proc.before smfs allow p (fun _ l' t' live' =>
      l' = l ∧ t'.ueDirectory = t.ueDirectory ∧ live' = live) l t live

namespace Quiet

variable {α β : Type} {p : AmfM α} {q : α → AmfM β}
variable {Q : β → Association → Tables → List (String × String) → Prop}

theorem before_bind (hp : Quiet p)
    (h : ∀ a t', t'.ueDirectory = t.ueDirectory → Proc.before smfs allow (q a) Q l t' live) :
    Proc.before smfs allow (p >>= q) Q l t live := by
  rw [Proc.before, Proc.wp_bind]
  refine Proc.before_mono ?_ (hp allow l t live)
  rintro a l' t' live' ⟨rfl, ht, rfl⟩
  exact h a t' ht

theorem change {f : Tables → Tables} (h : ∀ t, (f t).ueDirectory = t.ueDirectory) :
    Quiet (Proc.change f : AmfM Unit) := fun _ _ t _ => ⟨rfl, h t, rfl⟩

theorem spawnFor (k : AmfUeId) (j : Job) : Quiet (spawnFor k j) := fun _ _ _ _ _ => ⟨rfl, rfl, rfl⟩

theorem spawnAmPolicyDelete (k : AmfUeId) (amPolicy : Option (String × String)) :
    Quiet (spawnAmPolicyDelete k amPolicy) := by
  cases amPolicy with
  | none => exact fun _ _ _ _ => ⟨rfl, rfl, rfl⟩
  | some e => exact spawnFor k _

theorem spawnSdmUnsubscribe (k : AmfUeId) (supi : String) : Quiet (spawnSdmUnsubscribe k supi) := by
  intro allow l t live
  rw [Amf.spawnSdmUnsubscribe, Proc.before, Proc.wp_bind, Proc.wp_actShared]
  cases t.sdmSubs.lookup supi with
  | none => exact ⟨rfl, rfl, rfl⟩
  | some subId => exact spawnFor k _ allow l _ live

end Quiet

/-- The context is gone, and the directory does not name it any more. -/
theorem Agrees.gone {t' : Tables} {w' : World} {live' : List (String × String)}
    (hholdings : w'.holdings k = none) (ht : t'.ueDirectory.lookup supi = w'.directory)
    (hlive : live' = w'.live.map fun s => s.session) : Agrees supi k w' (l.erase k) t' live' := by
  constructor
  · rw [hholdings, ues_erase]
    rfl
  · rw [hholdings]
    exact fun h hk => nomatch hk
  · exact ht
  · exact hlive

theorem before_dropRegistration {c : UeContext} (hsuci : c.suci = some supi) (forget : Bool)
    (l : Association) (t : Tables) (live : List (String × String)) :
    Proc.before smfs allow (dropRegistration k c forget) (fun _ l' t' live' =>
      l' = l.erase k ∧ t'.ueDirectory = t.ueDirectory.erase supi ∧ live' = live) l t live := by
  have hrest : ∀ t₁ : Tables, t₁.ueDirectory = t.ueDirectory.erase supi →
      Proc.before smfs allow (do
          spawnSdmUnsubscribe k supi
          spawnFor k (.uecmPurge supi)
          removeUe k : AmfM Unit)
        (fun _ l' t' live' =>
          l' = l.erase k ∧ t'.ueDirectory = t.ueDirectory.erase supi ∧ live' = live) l t₁ live := by
    intro t₁ h₁
    refine (Quiet.spawnSdmUnsubscribe k supi).before_bind fun _ t₂ h₂ => ?_
    refine (Quiet.spawnFor k (.uecmPurge supi)).before_bind fun _ t₃ h₃ => ?_
    exact ⟨rfl, h₃.trans (h₂.trans h₁), rfl⟩
  simp only [dropRegistration, hsuci]
  rw [Proc.before, Proc.wp_bind, Proc.wp_change]
  cases forget with
  | true => exact hrest _ rfl
  | false => exact hrest _ rfl

/-- What the machine needs to know of a context, and its identity. -/
def standing (c : UeContext) :
    Keyed.Map UInt8 (String × String) × Option Nat × Option Tmsi × Option String :=
  (c.smRefs, c.deregAttempts, c.gutiTmsi, c.suci)

section Connected

variable {h : Holding}

theorem follows_onDeregistrationAccept (hagrees : Agrees supi k w l t live)
    (hk : w.holdings k = some h) (hat : h.place = .connected l.tx) :
    Proc.before smfs allow (onDeregistrationAccept k)
      (fun _ l' t' live' => Agrees supi k (w.step F (.accept k)) l' t' live') l t live := by
  unfold onDeregistrationAccept getUe
  simp only [World.step, World.accept, World.connected, hk, hat]
  rw [Proc.before, Proc.wp_bind, Proc.wp_look, hagrees.lookup hk hat]
  cases hattempts : h.ctx.deregAttempts with
  | none => simpa [hattempts] using hagrees
  | some n =>
    simp only [hattempts]
    refine (Quiet.spawnAmPolicyDelete k _).before_bind fun _ t₁ h₁ => ?_
    rw [Proc.before, Proc.wp_bind]
    refine Proc.before_mono ?_ (before_dropRegistration (hagrees.suci h hk) true l t₁ live)
    rintro _ l' t' live' ⟨rfl, ht', rfl⟩
    refine Agrees.gone (by simp [World.put]) ?_ hagrees.live
    rw [ht']
    exact AList.lookup_erase _ _

theorem follows_onDeregistration (hagrees : Agrees supi k w l t live)
    (hk : w.holdings k = some h) (hat : h.place = .connected l.tx) (deregistrationType : UInt8) :
    Proc.before smfs allow (onDeregistration F k deregistrationType)
      (fun _ l' t' live' => ∃ failing, Agrees supi k (w.step F (.depart k failing)) l' t' live')
      l t live := by
  have hc := hagrees.lookup hk hat
  unfold onDeregistration getUe
  simp only [World.step, World.depart, hk, hat]
  rw [Proc.before, Proc.wp_bind, Proc.wp_look, hc]
  dsimp only
  rw [Proc.wp_bind, takeSessions, Proc.wp_act]
  simp only [hc]
  rw [Proc.wp_bind]
  refine Proc.before_mono ?_ (before_releaseSessions _ _ t live)
  rintro _ l' t' live' ⟨rfl, rfl, keep, hkeep, rfl⟩
  rw [Proc.wp_bind]
  refine Proc.before_mono ?_ (before_dropRegistration (hagrees.suci h hk) false _ t' _)
  rintro _ l' t₁ live' ⟨rfl, ht₁, rfl⟩
  refine (Quiet.spawnAmPolicyDelete k _).before_bind fun _ t₂ h₂ => ?_
  have hlive := live_letGo (w := w) hkeep
  rw [← hagrees.live] at hlive
  refine ⟨_, Agrees.gone (by simp [World.put]) ?_ hlive⟩
  rw [h₂, ht₁]
  exact AList.lookup_erase _ _

/-- A context that is with this association. -/
theorem Agrees.here {w' : World} {l' : Association} {t' : Tables} {live' : List (String × String)}
    (hk : w'.holdings k = some h) (hat : h.place = .connected l'.tx)
    (hc : l'.ues.lookup k = some h.ctx) (hsuci : h.ctx.suci = some supi)
    (ht : t'.ueDirectory.lookup supi = w'.directory)
    (hlive : live' = w'.live.map fun s => s.session) : Agrees supi k w' l' t' live' := by
  constructor
  · rw [hc, hk]
    simp [hat]
  · intro h' hk'
    rw [hk] at hk'
    cases hk'
    exact hsuci
  · exact ht
  · exact hlive

theorem suci_of_resend {c c' : UeContext} {nas : Bytes} {area : Option AreaRestriction}
    (h : c.expireT3522 F = .resend nas area c') : c'.suci = c.suci := by
  unfold UeContext.expireT3522 at h
  grind

theorem follows_onT3522Expiry (hagrees : Agrees supi k w l t live)
    (hk : w.holdings k = some h) (hat : h.place = .connected l.tx) :
    Proc.before smfs allow (onT3522Expiry F k)
      (fun _ l' t' live' => Agrees supi k (w.step F (.expire k)) l' t' live') l t live := by
  have hc := hagrees.lookup hk hat
  unfold onT3522Expiry onExpiry getUe
  simp only [World.step, World.expire, World.connected, hk, hat]
  rw [Proc.before, Proc.wp_bind, Proc.wp_look, hc]
  cases hexpire : h.ctx.expireT3522 F with
  | stale => simpa [hexpire] using hagrees
  | resend nas area c' =>
    simp only [hexpire, insertUe, arm, Proc.wp_bind, Proc.wp_changeLocal, Proc.wp_look,
      Proc.wp_change, Proc.wp_pure]
    refine Agrees.here (World.put_self _) rfl (ues_insert c' l) ?_ hagrees.directory hagrees.live
    exact (suci_of_resend hexpire).trans (hagrees.suci h hk)
  | exhausted =>
    simp only [hexpire, implicitDeregister, getUe]
    rw [Proc.wp_bind, Proc.wp_look]
    simp only [hc, hagrees.suci h hk]
    refine (Quiet.change fun _ => rfl).before_bind fun _ t₁ h₁ => ?_
    refine (Quiet.spawnSdmUnsubscribe k supi).before_bind fun _ t₂ h₂ => ?_
    refine (Quiet.spawnFor k (.uecmPurge supi)).before_bind fun _ t₃ h₃ => ?_
    refine (Quiet.spawnAmPolicyDelete k _).before_bind fun _ t₄ h₄ => ?_
    refine Agrees.gone (w.put_self none) ?_ hagrees.live
    rw [h₄, h₃, h₂, h₁]
    exact hagrees.directory

/-- The release of one SM context. -/
theorem effect_release {s : String × String} {answered : Bool}
    (hlive : live = w.live.map fun s => s.session) :
    smfs.effect (.releaseSmContext s.2 s.1) answered live =
      (w.letGo [s] (if answered then [] else [s])).live.map fun s => s.session := by
  rw [hlive]
  cases answered with
  | true =>
    refine List.filter_map.trans (congrArg _ (List.filter_congr fun e _ => ?_))
    by_cases he : e.session = s <;> simp [he]
  | false => simp [smfs, World.letGo]

theorem follows_finalizeRelease (hagrees : Agrees supi k w l t live)
    (hk : w.holdings k = some h) (hat : h.place = .connected l.tx) (psi : UInt8) :
    Proc.before smfs allow (finalizeRelease k psi)
      (fun _ l' t' live' => ∃ answered, Agrees supi k (w.step F (.finalize k psi answered)) l' t' live')
      l t live := by
  have hc := hagrees.lookup hk hat
  unfold finalizeRelease getUe
  simp only [World.step, World.finalize, World.connected, hk, hat]
  rw [Proc.before, Proc.wp_bind, Proc.wp_look, hc]
  dsimp only
  by_cases hreleasing : h.ctx.releasing.contains psi = true
  · simp only [if_pos hreleasing]
    cases hlookup : h.ctx.smRefs.lookup psi with
    | none =>
      refine ⟨true, Agrees.here (World.put_self _) rfl ?_ (hagrees.suci h hk) hagrees.directory ?_⟩
      · simp [hc]
      · simpa [World.letGo, World.put] using hagrees.live
    | some s =>
      simp only [callFor, Proc.wp_bind, Proc.wp_mark, Proc.wp_ask, Proc.sequentially_note,
        Proc.sequentially_call]
      intro _ answered _
      refine ⟨answered, Agrees.here (World.put_self _) rfl ?_ (hagrees.suci h hk) hagrees.directory ?_⟩
      · simp [hc]
      · exact effect_release hagrees.live
  · simp only [if_neg hreleasing]
    exact ⟨true, hagrees⟩

/-- Another handler leaves the context as `c`, but for sessions, GUTI and deregistration. -/
theorem Agrees.revise (hk : w.holdings k = some h) {l' : Association} {t' : Tables} {c : UeContext}
    (hc : l'.ues.lookup k = some c) (hat : h.place = .connected l'.tx)
    (hkeeps : c.smRefs = h.ctx.smRefs ∧ c.deregAttempts = h.ctx.deregAttempts ∧
      c.gutiTmsi = h.ctx.gutiTmsi) (hsuci : c.suci = some supi)
    (ht : t'.ueDirectory.lookup supi = w.directory) {live' : List (String × String)}
    (hlive : live' = w.live.map fun s => s.session) :
    Agrees supi k (w.revise k c) l' t' live' := by
  obtain ⟨hrefs, hattempts, hguti⟩ := hkeeps
  have hctx : { c with
      smRefs := h.ctx.smRefs, deregAttempts := h.ctx.deregAttempts, gutiTmsi := h.ctx.gutiTmsi } = c := by
    rw [← hrefs, ← hattempts, ← hguti]
  simp only [World.revise, hk, hctx]
  exact Agrees.here (World.put_self _) hat hc hsuci ht hlive

theorem before_sendSm (hagrees : Agrees supi k w l t live) (hk : w.holdings k = some h)
    (hat : h.place = .connected l.tx) (psi : UInt8) (container : Bytes) :
    Proc.before smfs allow (sendSm F k psi container)
      (fun _ l' t' live' => ∃ c, Agrees supi k (w.step F (.revise k c)) l' t' live') l t live := by
  have hc := hagrees.lookup hk hat
  have hsuci := hagrees.suci h hk
  unfold sendSm getUe
  rw [Proc.before, Proc.wp_bind, Proc.wp_look, hc]
  dsimp only
  cases hsec : h.ctx.sec with
  | none => exact ⟨h.ctx, Agrees.revise hk hc hat ⟨rfl, rfl, rfl⟩ hsuci hagrees.directory hagrees.live⟩
  | some sec =>
    simp only [modifyUe, Proc.wp_bind, Proc.wp_changeLocal, Proc.wp_pure]
    have hafter := fun f => (ues_modify f l).trans (congrArg (Option.map f) hc)
    exact ⟨_, Agrees.revise hk (hafter _) hat ⟨rfl, rfl, rfl⟩ hsuci hagrees.directory hagrees.live⟩

/-- A session that is asked for: an SMF creates its SM context, or nothing comes of it. -/
theorem follows_establishSession (hagrees : Agrees supi k w l t live)
    (hk : w.holdings k = some h) (hat : h.place = .connected l.tx) (psi : UInt8) (dnn : String)
    (snssai : Option Nas.Snssai) (container : Bytes) :
    Proc.before smfs allow (establishSession F k supi psi dnn snssai container)
      (fun _ l' t' live' =>
        (∃ c, Agrees supi k (w.step F (.revise k c)) l' t' live') ∨
        ∃ session c, Agrees supi k (Runs.run (World.step F) w [.establish k psi session, .revise k c])
          l' t' live')
      l t live := by
  have hc := hagrees.lookup hk hat
  have hsuci := hagrees.suci h hk
  unfold establishSession
  simp only [callFor, Proc.before, Proc.wp_bind, Proc.wp_mark, Proc.wp_ask, Proc.sequentially_note,
    Proc.sequentially_call]
  intro _ smf _
  cases smf with
  | none => exact Proc.before_mono (fun _ _ _ _ => .inl) (before_sendSm hagrees hk hat _ _)
  | some smfBase =>
    simp only [Proc.wp_bind, Proc.wp_mark, Proc.wp_ask, Proc.sequentially_note,
      Proc.sequentially_call]
    intro _ answer _
    cases answer with
    | error e => exact Proc.before_mono (fun _ _ _ _ => .inl) (before_sendSm hagrees hk hat _ _)
    | ok created =>
      have hdone : ∀ {l' c}, l'.ues.lookup k = some c → l'.tx = l.tx →
          c.smRefs = h.ctx.smRefs.insert psi (created.smRef, smfBase) ∧
            c.deregAttempts = h.ctx.deregAttempts ∧ c.gutiTmsi = h.ctx.gutiTmsi →
          c.suci = some supi →
          Agrees supi k (Runs.run (World.step F) w
            [.establish k psi (created.smRef, smfBase), .revise k c]) l' t
            (live ++ [(created.smRef, smfBase)]) := by
        intro l' c hc' htx hkeeps hsuci'
        have hsession : (w.step F (.establish k psi (created.smRef, smfBase))).holdings k = some
            { h with ctx := { h.ctx with
              smRefs := h.ctx.smRefs.insert psi (created.smRef, smfBase) } } := by
          simp only [World.step, World.establish, World.connected, hk, hat]
          exact World.put_self _
        refine Agrees.revise hsession hc' (htx ▸ hat) hkeeps hsuci' ?_ ?_
        · simp only [World.step, World.establish, World.connected, hk, hat]
          exact hagrees.directory
        · simp only [World.step, World.establish, World.connected, hk, hat]
          rw [List.map_append, hagrees.live]
          rfl
      have hrecord := fun f => (ues_modify f l).trans (congrArg (Option.map f) hc)
      simp only [setUpSession, getUe, Proc.wp_bind, Proc.wp_look, hc, modifyUe, Proc.wp_changeLocal]
      cases h.ctx.sec with
      | none => exact .inr ⟨_, _, hdone (hrecord _) rfl ⟨rfl, rfl, rfl⟩ hsuci⟩
      | some sec =>
        have hprotect := fun f g => (ues_modify g _).trans (congrArg (Option.map g) (hrecord f))
        exact .inr ⟨_, _, hdone (hprotect _ _) rfl ⟨rfl, rfl, rfl⟩ hsuci⟩

/-- The registration is accepted, and a 5G-GUTI is assigned. -/
theorem follows_acceptRegistration (hagrees : Agrees supi k w l t live)
    (hk : w.holdings k = some h) (hat : h.place = .connected l.tx) {c : UeContext}
    (hc : standing c = standing { h.ctx with gutiTmsi := some (k.setWidth 32) })
    (sec : Nas.NasSecurityContext) (tmsi : Tmsi) (allowed rejected : List Nas.Snssai) :
    Proc.before smfs allow (acceptRegistration F k c sec tmsi allowed rejected)
      (fun _ l' t' live' => ∃ c', Agrees supi k
        (Runs.run (World.step F) w [.securityModeComplete k, .revise k c']) l' t' live') l t live := by
  have hsuci := hagrees.suci h hk
  simp only [standing, Prod.mk.injEq] at hc
  obtain ⟨hrefs, hattempts, hguti, hid⟩ := hc
  have hdone : ∀ (t' : Tables) (c' : UeContext), standing c' = standing c →
      t'.ueDirectory = t.ueDirectory → Agrees supi k
        (Runs.run (World.step F) w [.securityModeComplete k, .revise k c']) (l.insert k c') t' live := by
    intro t' c' hsame ht'
    simp only [standing, Prod.mk.injEq] at hsame
    obtain ⟨hrefs', hattempts', hguti', hid'⟩ := hsame
    refine Agrees.revise (h := { h with ctx := { h.ctx with gutiTmsi := some (k.setWidth 32) } }) ?_
      (ues_insert c' l) hat ⟨hrefs'.trans hrefs, hattempts'.trans hattempts, hguti'.trans hguti⟩
      (hid'.trans (hid.trans hsuci)) ?_ ?_
    · simp only [World.step, World.connected, hk, hat]
      exact World.put_self _
    · simp only [World.step, World.connected, hk, hat]
      exact ht' ▸ hagrees.directory
    · simp only [World.step, World.connected, hk, hat]
      exact hagrees.live
  unfold acceptRegistration
  simp only [hid.trans hsuci, insertUe, arm, Proc.before, Proc.wp_bind, Proc.wp_change]
  cases c.kamf with
  | none => exact ⟨_, hdone _ _ (by simp [standing, hid, hsuci]) rfl⟩
  | some kamf => exact ⟨_, hdone _ _ (by simp [standing, hid, hsuci]) rfl⟩

end Connected

/-! ### Coming back -/

theorem before_pushTrackedConfigUpdate (cuc : Nas5gmmMessage) (area : Option AreaRestriction)
    {c : UeContext} (hc : l.ues.lookup k = some c) :
    Proc.before smfs allow (pushTrackedConfigUpdate F k cuc area)
      (fun _ l' t' live' => l'.tx = l.tx ∧ (l'.ues.lookup k).map standing = some (standing c) ∧
        t'.ueDirectory = t.ueDirectory ∧ live' = live) l t live := by
  unfold pushTrackedConfigUpdate getUe
  rw [Proc.before, Proc.wp_bind, Proc.wp_look, hc]
  cases hsec : c.sec with
  | none => simp [hsec, hc]
  | some sec => simp [hsec, hc, modifyUe, arm, Tables.push, standing]

theorem before_onAmPolicyUpdate (d : PendingAmPolicy) {c : UeContext} (hc : l.ues.lookup k = some c) :
    Proc.before smfs allow (onAmPolicyUpdate F k d.ueAmbr d.rfsp d.areaRestriction)
      (fun _ l' t' live' => l'.tx = l.tx ∧ (l'.ues.lookup k).map standing = some (standing c) ∧
        t'.ueDirectory = t.ueDirectory ∧ live' = live) l t live := by
  unfold onAmPolicyUpdate getUe insertUe
  rw [Proc.before, Proc.wp_bind, Proc.wp_look, hc]
  simp only [Proc.wp_bind, Proc.wp_changeLocal]
  refine Proc.before_mono (fun _ _ _ _ hafter => ?_)
    (before_pushTrackedConfigUpdate _ _ (ues_insert _ l))
  exact hafter

theorem Quiet.activateSessions (k : AmfUeId) (sessions : List (UInt8 × String × String)) :
    Quiet (activateSessions k sessions) := by
  induction sessions with
  | nil => exact fun _ _ _ _ => ⟨rfl, rfl, rfl⟩
  | cons s rest ih =>
    intro allow l t live
    simp only [Amf.activateSessions, callFor, Proc.before, Proc.wp_bind, Proc.wp_mark, Proc.wp_ask,
      Proc.sequentially_note, Proc.sequentially_call]
    intro _ answer _
    cases answer with
    | none => exact ih allow l t live
    | some created =>
      simp only [Proc.wp_bind]
      exact ih allow l t live

theorem before_reconcileSessions (active : Option (List UInt8)) (c : UeContext) (l : Association)
    (t : Tables) (live : List (String × String)) :
    Proc.before smfs allow (reconcileSessions k active c)
      (fun c' l' t' live' => c' = c.reconciled active ∧ l' = l ∧ t' = t ∧
        ∃ keep : String × String → Bool, (∀ s ∉ c.droppedSessions active, keep s = true) ∧
          live' = live.filter keep) l t live := by
  unfold reconcileSessions
  cases active with
  | none => exact ⟨rfl, rfl, rfl, fun _ => true, fun _ _ => rfl, (List.filter_true live).symm⟩
  | some active =>
    rw [Proc.before, Proc.wp_bind]
    refine Proc.before_mono ?_ (before_releaseSessions _ l t live)
    rintro _ l' t' live' ⟨rfl, rfl, keep, hkeep, rfl⟩
    exact ⟨rfl, rfl, rfl, keep, hkeep, rfl⟩

theorem standing_acceptReturn (ret : Return) (tmsi : Tmsi) (c : UeContext) :
    standing (acceptReturn F ret tmsi c).2 = standing c := by
  unfold acceptReturn
  cases c.sec with
  | none => rfl
  | some sec => cases c.kamf <;> rfl

theorem before_reallocateGuti (ret : Return) (c : UeContext) (tmsi : Tmsi) (l : Association)
    (t : Tables) (live : List (String × String)) :
    Proc.before smfs allow (reallocateGuti ret k c tmsi)
      (fun r l' t' live' => r.1 = c.reallocated ret k ∧ l' = l ∧ t'.ueDirectory = t.ueDirectory ∧
        live' = live) l t live := by
  unfold reallocateGuti UeContext.reallocated
  split
  · cases c.suci with
    | none => exact ⟨rfl, rfl, rfl, rfl⟩
    | some supi => exact ⟨rfl, rfl, rfl, rfl⟩
  · exact ⟨rfl, rfl, rfl, rfl⟩

theorem standing_reconciled {c c' : UeContext} (hc : standing c = standing c')
    (active : Option (List UInt8)) :
    standing (c.reconciled active) = standing (c'.reconciled active) := by
  simp only [standing, Prod.mk.injEq] at hc
  obtain ⟨hrefs, hattempts, hguti, hsuci⟩ := hc
  cases active <;> simp [standing, UeContext.reconciled, hrefs, hattempts, hguti, hsuci]

theorem standing_reallocated {c c' : UeContext} (hc : standing c = standing c') (ret : Return)
    (k : AmfUeId) : standing (c.reallocated ret k) = standing (c'.reallocated ret k) := by
  simp only [standing, Prod.mk.injEq] at hc
  obtain ⟨hrefs, hattempts, hguti, hsuci⟩ := hc
  unfold UeContext.reallocated
  split <;> simp [standing, hrefs, hattempts, hguti, hsuci]

theorem droppedSessions_congr {c c' : UeContext} (hc : c.smRefs = c'.smRefs)
    (active : Option (List UInt8)) : c.droppedSessions active = c'.droppedSessions active := by
  cases active <;> simp [UeContext.droppedSessions, hc]

/-- A retained context whose UE's message has verified comes back. -/
theorem follows_resume {k₀ : AmfUeId} {h : Holding} {c : UeContext} (ranUeId : RanUeId)
    (tac : Option Tac) (tmsi : Tmsi) {ret : Return} {msg : Nas5gmmMessage}
    (hretained : w.holdings k₀ = some h) (hat : h.place = .retained)
    (hfree : w.holdings t.nextAmfUeId = none) (hmsg : returnOf msg = some ret)
    (hc : standing c = standing h.ctx) (hsuci : h.ctx.suci = some supi)
    (hlive : live = w.live.map fun s => s.session) :
    Proc.before smfs allow (resume F ranUeId tac tmsi ret msg c)
      (fun _ l' t' live' => ∃ failing c', Agrees supi t.nextAmfUeId
        (Runs.run (World.step F) w [.comeBack k₀ t.nextAmfUeId msg ranUeId tac,
          .resume t.nextAmfUeId l.tx failing, .revise t.nextAmfUeId c']) l' t' live') l t live := by
  have hdone : ∀ {l' : Association} {t' : Tables} {c₁ : UeContext} {keep : String × String → Bool},
      l'.tx = l.tx → l'.ues.lookup t.nextAmfUeId = some c₁ →
      standing c₁ = standing (((h.ctx.comeBack ranUeId tac).reallocated ret t.nextAmfUeId).reconciled
        (pduSessionStatusFromRequest msg)) →
      t'.ueDirectory.lookup supi = some (t.nextAmfUeId, l.tx) →
      (∀ s ∉ h.ctx.droppedSessions (pduSessionStatusFromRequest msg), keep s = true) →
      ∃ failing c', Agrees supi t.nextAmfUeId
        (Runs.run (World.step F) w [.comeBack k₀ t.nextAmfUeId msg ranUeId tac,
          .resume t.nextAmfUeId l.tx failing, .revise t.nextAmfUeId c']) l' t' (live.filter keep) := by
    intro l' t' c₁ keep htx hc₁ hstanding ht' hkeep
    have hsame : (((h.ctx.comeBack ranUeId tac).reallocated ret t.nextAmfUeId).reconciled
        (pduSessionStatusFromRequest msg)).suci = h.ctx.suci := by
      unfold UeContext.reconciled UeContext.reallocated
      split <;> split <;> rfl
    have hdropped : ((h.ctx.comeBack ranUeId tac).reallocated ret t.nextAmfUeId).droppedSessions
        (pduSessionStatusFromRequest msg) = h.ctx.droppedSessions (pduSessionStatusFromRequest msg) := by
      unfold UeContext.reallocated
      split <;> rfl
    refine ⟨live.filter keep, c₁, ?_⟩
    simp only [Runs.run_cons, Runs.run_nil, World.step]
    have hback : ∃ w₁, w.comeBack k₀ t.nextAmfUeId msg ranUeId tac = w₁ ∧
        w₁.holdings t.nextAmfUeId = some { h with
          ctx := (h.ctx.comeBack ranUeId tac).reallocated ret t.nextAmfUeId
          place := .returning ret msg } ∧ w₁.live = w.live := by
      refine ⟨_, rfl, ?_, ?_⟩
      · simp only [World.comeBack, hretained, hfree, hat, hmsg, if_true]
        exact World.put_self _
      · simp only [World.comeBack, hretained, hfree, hat, hmsg, if_true]
        split <;> rfl
    obtain ⟨w₁, hw₁, hk₁, hlive₁⟩ := hback
    rw [hw₁]
    simp only [standing, Prod.mk.injEq] at hstanding
    obtain ⟨hrefs, hattempts, hguti, hid⟩ := hstanding
    refine Agrees.revise (h := { h with
      ctx := ((h.ctx.comeBack ranUeId tac).reallocated ret t.nextAmfUeId).reconciled
        (pduSessionStatusFromRequest msg)
      place := .connected l.tx }) ?_ hc₁ (by rw [htx]) ⟨hrefs, hattempts, hguti⟩ ?_ ?_ ?_
    · simp only [World.resume, hk₁]
      exact World.put_self _
    · exact hid.trans (hsame.trans hsuci)
    · simp only [World.resume, hk₁]
      exact ht'
    · simp only [World.resume, hk₁, hdropped]
      have hletGo := live_letGo (w := w₁) hkeep
      rw [hlive₁, ← hlive] at hletGo
      exact hletGo
  unfold resume nextAmfUeId
  rw [Proc.before, Proc.wp_bind, Proc.wp_actShared, Proc.wp_bind, Proc.wp_look]
  dsimp only
  rw [Proc.wp_bind]
  refine Proc.before_mono ?_ (before_reallocateGuti ret _ tmsi l _ live)
  rintro ⟨c₁, regTmsi⟩ l' t₁ live' ⟨hc₁, rfl, ht₁, rfl⟩
  obtain rfl : c₁ = _ := hc₁
  rw [Proc.wp_bind, Proc.wp_mark]
  intro _
  rw [Proc.wp_bind]
  refine Proc.before_mono ?_ (before_reconcileSessions _ _ l' t₁ live')
  rintro c₁ l' t' live' ⟨hc₁, rfl, rfl, keep, hkeep, rfl⟩
  have hstanding₁ : standing c₁ = standing (((h.ctx.comeBack ranUeId tac).reallocated ret
      t.nextAmfUeId).reconciled (pduSessionStatusFromRequest msg)) := by
    rw [hc₁]
    refine standing_reconciled ?_ _
    refine Eq.trans ?_ (standing_reallocated (c := c.comeBack ranUeId tac) ?_ ret _)
    · unfold UeContext.reallocated
      split <;> rfl
    · simpa [standing, UeContext.comeBack] using hc
  generalize hc₂ : acceptReturn F ret regTmsi c₁ = accepted
  have hstanding₂ := standing_acceptReturn (F := F) ret regTmsi c₁
  rw [hc₂, hstanding₁] at hstanding₂
  have hsuci₂ : accepted.2.suci = some supi := by
    have hsame := congrArg (fun v => v.2.2.2) hstanding₂
    refine hsame.trans (Eq.trans ?_ hsuci)
    simp only [standing, UeContext.reconciled, UeContext.reallocated]
    split <;> split <;> rfl
  simp only [insertUe, address, hsuci₂, Proc.wp_bind, Proc.wp_changeLocal, Proc.wp_look, Proc.wp_change]
  refine Proc.before_mono ?_ (Quiet.activateSessions _ _ allow _ _ _)
  rintro sessions l₂ t₂ live₂ ⟨rfl, ht₂, rfl⟩
  have hdirectory₂ : t₂.ueDirectory.lookup supi = some (t.nextAmfUeId, l'.tx) := by
    rw [ht₂]
    exact AList.lookup_insert _
  have hkeep' : ∀ s ∉ h.ctx.droppedSessions (pduSessionStatusFromRequest msg), keep s = true := by
    intro s hs
    refine hkeep s fun hmem => hs ?_
    refine (droppedSessions_congr ?_ _) ▸ hmem
    refine Eq.trans ?_ (congrArg Prod.fst hc)
    unfold UeContext.reallocated
    split <;> rfl
  split
  · rename_i held _
    rw [Proc.wp_bind]
    refine Proc.before_mono ?_ (before_onAmPolicyUpdate held (ues_insert accepted.2 l'))
    rintro downlinks l₃ t₃ live₃ ⟨htx, hc₃, ht₃, rfl⟩
    obtain ⟨c₃, hlookup, hstanding₃⟩ := Option.map_eq_some_iff.mp hc₃
    exact hdone htx hlookup (hstanding₃.trans hstanding₂) (ht₃ ▸ hdirectory₂) hkeep'
  · exact hdone rfl (ues_insert accepted.2 l') hstanding₂ hdirectory₂ hkeep'

end Radian.Amf.Withdrawal
