import Radian.Amf.Containers
import Radian.Ausf.Confirmation
import Radian.Proc.Deeds
import Radian.Udm.Suci

/-!
# The identity of a UE

A registration takes a UE up under the identity that it claims, and has the AUSF challenge that one.  What
the AUSF says in the end is who the UE is.

- `HomeNetwork`, `network` — the UDM, the UDR and AUSFs.
- `AuthenticatedAs`, `Bound` — who a UE has been found to be, and a context that has this identity.
- `Task`, `handle`, `Running` — all that an association is given to do, and what comes of it.
- `Proper` — under which identity calls, jobs and 5G-TMSIs name a UE.
- `Faithful` — every context is bound to its identity, UEs go by it, and a synch failure is recovered from.
- `Heeds` — the side condition: nobody is challenged but by a plain identity.
- `Intact`, `Keeps` — the invariant, and what the parts of handlers make of it.
-/

namespace Radian.Udm

open Aka (Milenage)
open Ausf (parseOctets)
open Subscribers (InMemory)

variable {J : Type} (M : Milenage)

/-- The UDR verifies a token under the credentials of the subscriber it is addressed to. -/
def Udr.resyncAv (ueId rand auts : String) (g : InMemory J) : Except StatusCode Unit × InMemory J :=
  if (g.credentials.lookup ueId).isNone then (.error .notFound, g)
  else
    match parseOctets 16 rand, parseOctets 14 auts with
    | some rand, some auts =>
        match g.resyncSqn M ueId rand auts with
        | (true, g) => (.ok (), g)
        | (false, g) => (.error .forbidden, g)
    | _, _ => (.error .badRequest, g)

/-- The UDM passes a token on as it has come in. -/
def resync (supi rand auts : String) (g : InMemory J) : Except StatusCode Unit × InMemory J :=
  match Udr.resyncAv M supi rand auts g with
  | (.ok (), g) => (.ok (), g)
  | (.error _, g) => (.error .forbidden, g)

end Radian.Udm

namespace Radian.Amf.Identity

open Keyed (Map)
open Nas (Snssai)
open Proc (Amid Deed Does assured assured_mono)
open Runs (Since)
open Subscribers (InMemory)

/-! ### The home network -/

/-- An identity that is no concealed one. -/
def Plain (supiOrSuci : String) : Prop := "suci-".toList.isPrefixOf supiOrSuci.toList = false

instance (supiOrSuci : String) : Decidable (Plain supiOrSuci) := inferInstanceAs (Decidable (_ = false))

abbrev Supi : Type := { supi : String // Plain supi }

/-- The UDM's and the UDR's data, and whose credentials a challenge has been made of: an AUSF gives no
context id twice. -/
structure HomeNetwork where
  crypto : Udm.SuciCrypto
  keys : Udm.HomeNetworkKeys
  milenage : Aka.Milenage
  store : InMemory Unit
  subject : (ausfBase ctxId : String) → Supi

namespace HomeNetwork

variable (N : HomeNetwork)

def deconceal (supiOrSuci : String) : Option String :=
  (Udm.deconceal N.crypto N.keys supiOrSuci.toList).toOption.map String.ofList

/-- Whether a token is accepted. -/
def resyncs (supiOrSuci rand auts : String) : Bool :=
  (Udm.resync N.milenage supiOrSuci rand auts N.store).1.toOption.isSome

/-- A challenge that can be read, made for this identity. -/
def challenges (ausfBase supiOrSuci : String) (ctx : UeAuthenticationCtx) : Bool :=
  N.deconceal supiOrSuci == some (N.subject ausfBase ctx.authCtxId).val &&
    ((hexSized 16 ctx.rand).isSome && (hexSized 16 ctx.autn).isSome && (hexSized 16 ctx.hxresStar).isSome)

/-- An AUSF challenges the subscriber it is asked about, and confirms whom it has challenged.  A request
may fail; if the network is `reliable`, one with a token fails only where that is refused. -/
def answers (reliable : Bool) : (e : Call) → e.Answer → Bool
  | .authenticate ausfBase supiOrSuci _, some ctx => N.challenges ausfBase supiOrSuci ctx
  | .authenticateResync ausfBase supiOrSuci _ rand auts, some ctx =>
      N.resyncs supiOrSuci rand auts && N.challenges ausfBase supiOrSuci ctx
  | .authenticateResync _ supiOrSuci _ rand auts, none =>
      !(reliable && N.resyncs supiOrSuci rand auts && (N.deconceal supiOrSuci).isSome)
  | .confirm ausfBase ctxId _, some conf =>
      conf.authResult != "AUTHENTICATION_SUCCESS" ||
        conf.supi.all fun supi => supi == (N.subject ausfBase ctxId).val
  | _, _ => true

/-- The home network answers so, all others anyhow, and the marks are recorded. -/
def outside (reliable : Bool) : Outside Association Tables Mark Call Call.Answer (List Mark) where
  answers e _ r := N.answers reliable e r
  effect _ _ w := w
  mark n _ _ w := n :: w

end HomeNetwork

/-! ### Who a UE has been found to be -/

/-- Whose RES* is accepted here. -/
def found : Mark → Option (AmfUeId × String)
  | .authenticated amfUeId _ supi => some (amfUeId, supi)
  | _ => none

/-- A RES* of the UE under `amfUeId` was accepted, as one of `supi`. -/
def AuthenticatedAs (amfUeId : AmfUeId) (supi : String) : List Mark → Prop :=
  Since (fun n => opened n ≠ some amfUeId) fun _ n => found n = some (amfUeId, supi)

/-- The UE that a call or a job for a context is about. -/
def named : Mark → Option (AmfUeId × String)
  | .calling amfUeId (.getAmData _ supi _) => some (amfUeId, supi)
  | .calling amfUeId (.createAmPolicy _ supi _) => some (amfUeId, supi)
  | .calling amfUeId (.createSmContext _ supi ..) => some (amfUeId, supi)
  | .spawning amfUeId (.uecmRegister supi) => some (amfUeId, supi)
  | .spawning amfUeId (.uecmPurge supi) => some (amfUeId, supi)
  | .spawning amfUeId (.sdmSubscribe supi) => some (amfUeId, supi)
  | .spawning amfUeId (.sdmUnsubscribe supi _) => some (amfUeId, supi)
  | _ => none

variable (N : HomeNetwork) (F : Functions)

/-- The identity of a context is that its K_AMF is derived for. -/
def KeyedAs (c : UeContext) : Prop :=
  ∀ kamf, c.kamf = some kamf → ∃ kseaf supi, kamf = F.aka.kamf kseaf supi ABBA ∧ c.suci = some supi

/-- The identity of a context is that which the UE has been authenticated as, now or, as its K_AMF tells,
before. -/
structure Bound (amfUeId : AmfUeId) (c : UeContext) (w : List Mark) : Prop where
  authenticated : ∀ supi, AuthenticatedAs amfUeId supi w → c.suci = some supi
  keyed : KeyedAs F c

/-- A context has an identity once it is identified, and that is the one that is challenged. -/
structure Genuine (c : UeContext) : Prop where
  unidentified : c.state = .IdentityRequested → c.suci = none
  challenged : ∀ pending, c.auth = some pending →
    c.suci = some (N.subject pending.ausfBase pending.ctxId).val
  keyed : KeyedAs F c

/-- `supi` is the identity of the context under `amfUeId`, which is bound to it. -/
def Known (amfUeId : AmfUeId) (supi : String) (l : Association) (w : List Mark) : Prop :=
  ∃ c, l.ues.lookup amfUeId = some c ∧ Bound F amfUeId c w ∧ c.suci = some supi

/-- The retained contexts are genuine. -/
def Reserve (t : Tables) : Prop := ∀ tmsi c, t.retained.lookup tmsi = some c → Genuine N F c

/-- What other tasks do to the tables: they retain genuine contexts, and enter none for this channel. -/
structure Others (tx : Channel) (t t' : Tables) : Prop where
  reserve : Reserve N F t → Reserve N F t'
  entered : ∀ supi amfUeId, t'.ueDirectory.lookup supi = some (amfUeId, tx) →
    t.ueDirectory.lookup supi = some (amfUeId, tx)

/-- A call or a job names the UE of its context.  A 5G-TMSI is assigned to the UE of the context it is
made for, or to that of one which has come back and was retained at the start.  To other tasks is done what
these may do. -/
def Proper (start : Tables) : Deed Association Tables Mark → Association → Tables → List Mark → Prop
  | .mark n, l, _, w => ∀ amfUeId supi, named n = some (amfUeId, supi) → Known F amfUeId supi l w
  | .move _ t', l, t, w =>
      (∀ tmsi supi, t'.gutiDirectory.lookup tmsi = some supi → t.gutiDirectory.lookup tmsi = some supi ∨
        (∃ amfUeId, tmsi = amfUeId.setWidth 32 ∧ Known F amfUeId supi l w) ∨
        ∃ tmsi' c, start.retained.lookup tmsi' = some c ∧ KeyedAs F c ∧ c.suci = some supi) ∧
      ∀ tx, l.tx ≠ tx → Others N F tx t t'

/-- The directory leads from no other identity to a context of the association. -/
def Entered (l : Association) (t : Tables) : Prop :=
  ∀ supi amfUeId c, t.ueDirectory.lookup supi = some (amfUeId, l.tx) → l.ues.lookup amfUeId = some c →
    c.suci = some supi

/-! ### All that an association is given to do -/

/-- What a context is to keep: its identity, its K_AMF, and its challenge unless that is taken. -/
structure Alike (c c' : UeContext) : Prop where
  suci : c'.suci = c.suci
  auth : c'.auth = c.auth ∨ c'.auth = none
  kamf : c'.kamf = c.kamf
  state : c'.state = .IdentityRequested → c.state = .IdentityRequested

/-- NGAP messages, and commands to the task: expiries, and what the network starts. -/
inductive Task where
  | ngap (input : Input)
  | start (amfUeId : AmfUeId)
  | t3522Expiry (amfUeId : AmfUeId)
  | t3555Expiry (amfUeId : AmfUeId)
  | nasRetxExpiry (amfUeId : AmfUeId) (kind : RetxKind)
  | modifyPolicy (m : ModifyPolicy)
  | releaseSession (amfUeId : AmfUeId) (psis : List UInt8) (cause : UInt8)
  | releaseGuardExpiry (amfUeId : AmfUeId) (psi : UInt8)
  | registrationGuardExpiry (amfUeId : AmfUeId)
  | updateSubscribedData (amfUeId : AmfUeId) (ueAmbr : Option UeAmbr) (allowedNssai : Option (List Snssai))
  | updateAmPolicy (amfUeId : AmfUeId) (ueAmbr : FieldUpdate UeAmbr) (rfsp : FieldUpdate Nat)
      (areaRestriction : FieldUpdate AreaRestriction)

def handle : Task → AmfM Unit
  | .ngap input => handleNgap F input
  | .start amfUeId => onNetworkDeregistration F amfUeId >>= sendAll
  | .t3522Expiry amfUeId => onT3522Expiry F amfUeId >>= sendAll
  | .t3555Expiry amfUeId => onT3555Expiry F amfUeId >>= sendAll
  | .nasRetxExpiry amfUeId kind => onNasRetxExpiry amfUeId kind >>= sendAll
  | .modifyPolicy m => do
      let _ ← onNetworkModification F m
  | .releaseSession amfUeId psis cause => onNetworkRelease F amfUeId psis cause >>= sendAll
  | .releaseGuardExpiry amfUeId psi => onReleaseGuardExpiry amfUeId psi >>= sendAll
  | .registrationGuardExpiry amfUeId => onRegistrationGuardExpiry amfUeId >>= sendAll
  | .updateSubscribedData amfUeId ueAmbr allowedNssai =>
      onSdmDataChange F amfUeId ueAmbr allowedNssai >>= sendAll
  | .updateAmPolicy amfUeId ueAmbr rfsp areaRestriction =>
      onAmPolicyUpdate F amfUeId ueAmbr rfsp areaRestriction >>= sendAll

/-- The directory leads from the identity of a context to it. -/
def enter (amfUeId : AmfUeId) (tx : Channel) (suci : Option String) (t : Tables) : Tables :=
  suci.elim t fun supi => t.addressed supi amfUeId tx

/-- The runs of an association from its start.  Messages without NAS change a context in other respects.
Contexts leave to be retained or for another association, and come from others as what they are there. -/
inductive Running (allow : Mark → Association → Tables → List Mark → Prop) (tx : Channel) (t₀ : Tables) :
    Association → Tables → List Mark → Prop where
  | init : Running allow tx t₀ { tx } t₀ []
  | serve {l t w l' t' w'} (task : Task) : Running allow tx t₀ l t w →
      Amid (N.outside false) allow (Others N F tx) (handle F task) l t w () l' t' w' →
      Running allow tx t₀ l' t' w'
  | others {l t w t'} : Running allow tx t₀ l t w → Others N F tx t t' → Running allow tx t₀ l t' w
  | alter {l t w f} (amfUeId : AmfUeId) : Running allow tx t₀ l t w → (∀ c, Alike c (f c)) →
      Running allow tx t₀ (l.modify amfUeId f) t w
  | leave {l t w} (amfUeId : AmfUeId) : Running allow tx t₀ l t w → Running allow tx t₀ (l.erase amfUeId) t w
  | arrive {l t w c} (amfUeId : AmfUeId) : Running allow tx t₀ l t w → Genuine N F c → Bound F amfUeId c w →
      (∀ supi, t.ueDirectory.lookup supi = some (amfUeId, tx) → c.suci = some supi) →
      Running allow tx t₀ (l.insert amfUeId c) (enter amfUeId tx c.suci t) w

/-- The UE of a context is challenged anew. -/
def Rechallenged (amfUeId : AmfUeId) (c : UeContext) (pending : PendingAuth) (dls : List Downlink)
    (l : Association) : Prop :=
  ∃ fresh rand autn, N.subject fresh.ausfBase fresh.ctxId = N.subject pending.ausfBase pending.ctxId ∧
    dls = [.downlinkNasTransport amfUeId c.ranUeId (F.nas.encode (.authenticationRequest 0 rand autn)) none] ∧
    l.ues.lookup amfUeId = some { c with auth := some fresh, resyncAttempted := true }

/-- An Authentication Failure with a token that the home network accepts for the UE it has challenged. -/
def Recovers (allow : Mark → Association → Tables → List Mark → Prop) (l : Association) (t : Tables)
    (w : List Mark) : Prop :=
  ∀ (msg : UplinkNASTransport) amfUeId c raw pending auts, msg.amfUeNgapId = some amfUeId →
    msg.nasPdu = some raw → l.ues.lookup amfUeId = some c → c.sec = none → c.auth = some pending →
    c.resyncAttempted = false →
    F.nas.decode raw = some (.authenticationFailure Nas.GMM_CAUSE_SYNCH_FAILURE (some auts)) →
    N.resyncs (N.subject pending.ausfBase pending.ctxId).val (hexEncode pending.rand) (hexEncode auts) →
    ∀ dls l' t' w', Amid (N.outside true) allow (Others N F l.tx) (onUplinkNas F msg) l t w dls l' t' w' →
      Rechallenged N F amfUeId c pending dls l'

/-- Every context is bound to its identity, the UEs are spoken of under these, and a synch failure is
recovered from. -/
structure Faithful (allow : Mark → Association → Tables → List Mark → Prop) (l : Association) (t : Tables)
    (w : List Mark) : Prop where
  bound : ∀ amfUeId c, l.ues.lookup amfUeId = some c → Bound F amfUeId c w
  entered : Entered l t
  proper : ∀ task d l₁ t₁ w₁,
    Does (N.outside false) allow (Others N F l.tx) (handle F task) l t w d l₁ t₁ w₁ →
      Proper N F t d l₁ t₁ w₁
  recovers : Recovers N F allow l t w

/-- The directory does not lead to a context under an id. -/
def Unentered (amfUeId : AmfUeId) (l : Association) (t : Tables) : Prop :=
  ∀ supi, t.ueDirectory.lookup supi ≠ some (amfUeId, l.tx)

/-- No id is drawn while the directory leads to a context under it. -/
def Fresh : Mark → Association → Tables → List Mark → Prop
  | .created amfUeId, l, t, _ => Unentered amfUeId l t
  | .resumed amfUeId, l, t, _ => Unentered amfUeId l t
  | _, _, _, _ => True

/-- The identity that an AUSF is asked about. -/
def asked : Mark → Option String
  | .calling _ (.authenticate _ supiOrSuci _) => some supiOrSuci
  | _ => none

/-- Besides, the identities that AUSFs are asked about are plain, or the home network cannot read them. -/
def Heeds (n : Mark) (l : Association) (t : Tables) (w : List Mark) : Prop :=
  (∀ supiOrSuci ∈ asked n, Plain supiOrSuci ∨ N.deconceal supiOrSuci = none) ∧ Fresh n l t w

/-! ### The invariant -/

variable {N F}

section Contexts

variable {amfUeId : AmfUeId} {c c' c'' : UeContext} {n : Mark} {w : List Mark}

theorem Alike.refl (c : UeContext) : Alike c c := ⟨rfl, .inl rfl, rfl, id⟩

theorem Alike.trans (h : Alike c c') (h' : Alike c' c'') : Alike c c'' where
  suci := h'.suci.trans h.suci
  auth := by
    rcases h'.auth with hauth | hauth
    · rw [hauth]
      exact h.auth
    · exact .inr hauth
  kamf := h'.kamf.trans h.kamf
  state hstate := h.state (h'.state hstate)

theorem KeyedAs.alike (h : KeyedAs F c) (hc : Alike c c') : KeyedAs F c' := by
  intro kamf hkamf
  rw [hc.kamf] at hkamf
  rw [hc.suci]
  exact h kamf hkamf

theorem Genuine.alike (h : Genuine N F c) (hc : Alike c c') : Genuine N F c' where
  unidentified hstate := hc.suci.trans (h.unidentified (hc.state hstate))
  challenged pending hpending := by
    rcases hc.auth with hauth | hauth
    · exact hc.suci.trans (h.challenged pending (hauth ▸ hpending))
    · rw [hauth] at hpending
      cases hpending
  keyed := h.keyed.alike hc

theorem Bound.alike (h : Bound F amfUeId c w) (hc : Alike c c') : Bound F amfUeId c' w where
  authenticated supi hsupi := hc.suci.trans (h.authenticated supi hsupi)
  keyed := h.keyed.alike hc

theorem AuthenticatedAs.past {supi : String} (hn : found n = none)
    (h : AuthenticatedAs amfUeId supi (n :: w)) : AuthenticatedAs amfUeId supi w := by
  rcases h with hfound | ⟨-, h⟩
  · rw [hn] at hfound
    cases hfound
  · exact h

theorem Bound.mark (h : Bound F amfUeId c w) (hn : found n = none) : Bound F amfUeId c (n :: w) :=
  { h with authenticated := fun supi hsupi => h.authenticated supi (hsupi.past hn) }

end Contexts

/-- A context that a handler has read. -/
abbrev Held : Type := Option (AmfUeId × UeContext)

/-- All contexts are genuine and bound, the directory leads to none but by its identity, and what a handler
has read is still there, but for what was to be taken. -/
structure Intact (N : HomeNetwork) (F : Functions) (tx : Channel) (held : Held) (l : Association)
    (t : Tables) (w : List Mark) : Prop where
  tx : l.tx = tx
  genuine : ∀ amfUeId c, l.ues.lookup amfUeId = some c → Genuine N F c
  bound : ∀ amfUeId c, l.ues.lookup amfUeId = some c → Bound F amfUeId c w
  entered : Entered l t
  reserve : Reserve N F t
  held : ∀ amfUeId c, held = some (amfUeId, c) → Genuine N F c ∧ Bound F amfUeId c w ∧
    ∃ c', l.ues.lookup amfUeId = some c' ∧ Alike c c'

/-- Nothing is new in the tables. -/
structure Fewer (t t' : Tables) : Prop where
  ueDirectory : ∀ supi e, t'.ueDirectory.lookup supi = some e → t.ueDirectory.lookup supi = some e
  gutiDirectory : ∀ tmsi supi, t'.gutiDirectory.lookup tmsi = some supi →
    t.gutiDirectory.lookup tmsi = some supi
  retained : ∀ tmsi c, t'.retained.lookup tmsi = some c → t.retained.lookup tmsi = some c

theorem Fewer.refl (t : Tables) : Fewer t t := ⟨fun _ _ => id, fun _ _ => id, fun _ _ => id⟩

theorem Fewer.others {t t' : Tables} {tx : Channel} (h : Fewer t t') : Others N F tx t t' where
  reserve hreserve tmsi c hc := hreserve tmsi c (h.retained tmsi c hc)
  entered supi amfUeId := h.ueDirectory supi (amfUeId, tx)

theorem fewer_push (j : Job) (t : Tables) : Fewer t (t.push j) :=
  ⟨fun _ _ => id, fun _ _ => id, fun _ _ => id⟩

theorem fewer_unaddressed (supi : String) (t : Tables) : Fewer t (t.unaddressed supi) where
  ueDirectory _ _ h := (Map.of_lookup_erase h).2
  gutiDirectory _ _ := id
  retained _ _ := id

theorem fewer_forgetGutis (supi : String) (t : Tables) : Fewer t (t.forgetGutis supi) where
  ueDirectory _ _ := id
  gutiDirectory _ _ h := (Map.lookup_retain.mp h).1
  retained _ _ := id

namespace Intact

variable {tx : Channel} {held : Held} {l l' : Association} {t t' : Tables} {n : Mark} {w : List Mark}
  {amfUeId : AmfUeId} {c c' : UeContext}

theorem mark (h : Intact N F tx held l t w) (hn : found n = none) : Intact N F tx held l t (n :: w) :=
  { h with
    bound := fun id c hc => (h.bound id c hc).mark hn
    held := fun id c hc => ⟨(h.held id c hc).1, (h.held id c hc).2.1.mark hn, (h.held id c hc).2.2⟩ }

theorem fewer (h : Intact N F tx held l t w) (ht : Fewer t t') : Intact N F tx held l t' w :=
  { h with
    entered := fun supi id c hsupi hc => h.entered supi id c (ht.ueDirectory _ _ hsupi) hc
    reserve := fun tmsi c hc => h.reserve tmsi c (ht.retained _ _ hc) }

theorem others (h : Intact N F tx held l t w) (ht : Others N F tx t t') : Intact N F tx held l t' w :=
  { h with
    entered := fun supi id c hsupi hc => by
      rw [h.tx] at hsupi
      refine h.entered supi id c ?_ hc
      rw [h.tx]
      exact ht.entered supi id hsupi
    reserve := ht.reserve h.reserve }

/-- What has been read is let go. -/
theorem drop (h : Intact N F tx held l t w) : Intact N F tx none l t w :=
  { h with held := fun _ _ hc => by cases hc }

/-- A context is read. -/
theorem read (h : Intact N F tx held l t w) (hc : l.ues.lookup amfUeId = some c) :
    Intact N F tx (some (amfUeId, c)) l t w :=
  { h with
    held := by
      rintro _ _ ⟨⟩
      exact ⟨h.genuine amfUeId c hc, h.bound amfUeId c hc, c, hc, .refl c⟩ }

/-- The identity of what has been read is known. -/
theorem known_of_suci (h : Intact N F tx (some (amfUeId, c)) l t w) {supi : String} (hc : c.suci = some supi) :
    Known F amfUeId supi l w := by
  obtain ⟨-, -, c', hc', halike⟩ := h.held amfUeId c rfl
  exact ⟨c', hc', h.bound amfUeId c' hc', halike.suci.trans hc⟩

/-- A context under another id is as it was. -/
theorem erase (h : Intact N F tx held l t w) : Intact N F tx none (l.erase amfUeId) t w where
  tx := h.tx
  genuine id c hc := h.genuine id c (Map.of_lookup_erase hc).2
  bound id c hc := h.bound id c (Map.of_lookup_erase hc).2
  entered supi id c hsupi hc := h.entered supi id c hsupi (Map.of_lookup_erase hc).2
  reserve := h.reserve
  held _ _ hc := by cases hc

/-- A context changes in other respects. -/
theorem modify (h : Intact N F tx held l t w) {f : UeContext → UeContext} (hf : ∀ c, Alike c (f c)) :
    Intact N F tx held (l.modify amfUeId f) t w := by
  have hold : ∀ id c', (l.modify amfUeId f).ues.lookup id = some c' →
      ∃ c, l.ues.lookup id = some c ∧ Alike c c' := by
    intro id c' hc'
    rw [Association.modify, Map.lookup_modify] at hc'
    split at hc'
    · rename_i hid
      obtain ⟨c, hc, rfl⟩ := Option.map_eq_some_iff.mp hc'
      exact ⟨c, hid ▸ hc, hf c⟩
    · exact ⟨c', hc', .refl c'⟩
  constructor
  · exact h.tx
  · intro id c' hc'
    obtain ⟨c, hc, halike⟩ := hold id c' hc'
    exact (h.genuine id c hc).alike halike
  · intro id c' hc'
    obtain ⟨c, hc, halike⟩ := hold id c' hc'
    exact (h.bound id c hc).alike halike
  · intro supi id c' hsupi hc'
    obtain ⟨c, hc, halike⟩ := hold id c' hc'
    exact halike.suci.trans (h.entered supi id c hsupi hc)
  · exact h.reserve
  · intro id c hheld
    obtain ⟨hgenuine, hbound, c', hc', halike⟩ := h.held id c hheld
    refine ⟨hgenuine, hbound, ?_⟩
    by_cases hid : id = amfUeId
    · subst hid
      refine ⟨f c', ?_, halike.trans (hf c')⟩
      rw [Association.modify, Map.lookup_modify, if_pos rfl, hc', Option.map_some]
    · refine ⟨c', ?_, halike⟩
      rw [Association.modify, Map.lookup_modify, if_neg hid, hc']

/-- A context is put in the place of another, or where the directory does not lead. -/
theorem insert (h : Intact N F tx held l t w) (hgenuine : Genuine N F c) (hbound : Bound F amfUeId c w)
    (hentered : ∀ supi, t.ueDirectory.lookup supi = some (amfUeId, l.tx) → c.suci = some supi) :
    Intact N F tx (some (amfUeId, c)) (l.insert amfUeId c) t w := by
  have hlookup : ∀ id, (l.insert amfUeId c).ues.lookup id =
      if id = amfUeId then some c else l.ues.lookup id := fun id => by
    rw [Association.insert, Map.lookup_insert_eq]
  constructor
  · exact h.tx
  · intro id c' hc'
    rw [hlookup] at hc'
    split at hc'
    · cases hc'
      exact hgenuine
    · exact h.genuine id c' hc'
  · intro id c' hc'
    rw [hlookup] at hc'
    split at hc'
    · rename_i hid
      cases hc'
      exact hid ▸ hbound
    · exact h.bound id c' hc'
  · intro supi id c' hsupi hc'
    rw [hlookup] at hc'
    split at hc'
    · rename_i hid
      cases hc'
      exact hentered supi (hid ▸ hsupi)
    · exact h.entered supi id c' hsupi hc'
  · exact h.reserve
  · rintro _ _ ⟨⟩
    exact ⟨hgenuine, hbound, c, by rw [hlookup, if_pos rfl], .refl c⟩

/-- A context becomes another one. -/
theorem replace (h : Intact N F tx held l t w) {f : UeContext → UeContext}
    (hc : l.ues.lookup amfUeId = some c) (hgenuine : Genuine N F (f c)) (hbound : Bound F amfUeId (f c) w)
    (hentered : ∀ supi, t.ueDirectory.lookup supi = some (amfUeId, l.tx) → (f c).suci = some supi) :
    Intact N F tx (some (amfUeId, f c)) (l.modify amfUeId f) t w := by
  have hlookup : ∀ id, (l.modify amfUeId f).ues.lookup id = (l.insert amfUeId (f c)).ues.lookup id := by
    intro id
    rw [Association.modify, Map.lookup_modify, Association.insert, Map.lookup_insert_eq]
    split
    · rw [hc, Option.map_some]
    · rfl
  have hinserted := h.insert hgenuine hbound hentered
  constructor
  · exact hinserted.tx
  · exact fun id c' hc' => hinserted.genuine id c' (hlookup id ▸ hc')
  · exact fun id c' hc' => hinserted.bound id c' (hlookup id ▸ hc')
  · exact fun supi id c' hsupi hc' => hinserted.entered supi id c' hsupi (hlookup id ▸ hc')
  · exact hinserted.reserve
  · intro id c' hheld
    rw [hlookup id]
    exact hinserted.held id c' hheld

/-- What has been read is put back, changed in other respects. -/
theorem putBack (h : Intact N F tx (some (amfUeId, c)) l t w) (hc : Alike c c') :
    Intact N F tx (some (amfUeId, c')) (l.insert amfUeId c') t w := by
  obtain ⟨hgenuine, hbound, c₀, hc₀, halike⟩ := h.held amfUeId c rfl
  refine h.insert (hgenuine.alike hc) (hbound.alike hc) fun supi hsupi => ?_
  rw [hc.suci, ← halike.suci]
  exact h.entered supi amfUeId c₀ hsupi hc₀

end Intact

/-! ### Parts of handlers -/

/-- All that a part of a handler does is proper, and it leaves what it finds intact. -/
abbrev Keeps {α : Type} (N : HomeNetwork) (F : Functions) (tx : Channel) (start : Tables) (held held' : Held)
    (p : AmfM α) : Prop :=
  ∀ l t w, Intact N F tx held l t w →
    assured (N.outside false) (Heeds N) (Others N F tx) (Proper N F start) p
      (fun _ l' t' w' => Intact N F tx held' l' t' w') l t w

namespace Keeps

variable {α β : Type} {tx : Channel} {start : Tables} {held held' held'' : Held} {amfUeId : AmfUeId}
  {c c' : UeContext}

/-- Where nothing is new in the tables, nothing is assigned, and others lose at most. -/
theorem proper_move {l l' : Association} {t t' : Tables} {w : List Mark} (h : Fewer t t') :
    Proper N F start (.move l' t') l t w :=
  ⟨fun tmsi supi hsupi => .inl (h.gutiDirectory tmsi supi hsupi), fun _ _ => h.others⟩

/-- A mark that names nobody. -/
theorem proper_mark {l : Association} {t : Tables} {n : Mark} {w : List Mark} (h : named n = none) :
    Proper N F start (.mark n) l t w := by
  intro id supi hid
  rw [h] at hid
  cases hid

theorem pure (a : α) : Keeps N F tx start held held (Pure.pure a : AmfM α) := fun _ _ _ h => h

theorem bind {p : AmfM α} {k : α → AmfM β} (hp : Keeps N F tx start held held' p)
    (hk : ∀ a, Keeps N F tx start held' held'' (k a)) : Keeps N F tx start held held'' (p >>= k) := by
  intro l t w h
  rw [Proc.assured_bind]
  exact assured_mono (fun a l t w h => hk a l t w h) (hp l t w h)

/-- What has been read is let go, before or after. -/
theorem drop {p : AmfM α} (hp : Keeps N F tx start held held' p) : Keeps N F tx start held none p :=
  fun l t w h => assured_mono (fun _ _ _ _ h => h.drop) (hp l t w h)

theorem done (a : α) : Keeps N F tx start held none (Pure.pure a : AmfM α) := (pure a).drop

theorem look (f : Association → Tables → α) : Keeps N F tx start held held (Proc.look f : AmfM α) :=
  fun _ _ _ h => h

/-- The context under an id is read. -/
theorem getUe_bind {k : Option UeContext → AmfM β} (hnone : Keeps N F tx start held held' (k none))
    (hsome : ∀ c, Keeps N F tx start (some (amfUeId, c)) held' (k (some c))) :
    Keeps N F tx start held held' (getUe amfUeId >>= k) := by
  intro l t w h
  rw [Proc.assured_bind, getUe, Proc.assured_look]
  cases hc : l.ues.lookup amfUeId with
  | none => exact hnone l t w h
  | some c => exact hsome c l t w (h.read hc)

theorem mark {n : Mark} (hn : found n = none) (hnamed : named n = none) :
    Keeps N F tx start held held (Proc.mark n) :=
  fun _ _ _ h _ => ⟨proper_mark hnamed, h.mark hn⟩

/-- The UE of the context that has been read is named. -/
theorem markAs {n : Mark} {supi : String} (hn : found n = none) (hnamed : named n = some (amfUeId, supi))
    (hc : c.suci = some supi) : Keeps N F tx start (some (amfUeId, c)) (some (amfUeId, c)) (Proc.mark n) := by
  intro l t w h _
  refine ⟨fun id supi' hid => ?_, h.mark hn⟩
  rw [hnamed] at hid
  cases hid
  exact h.known_of_suci hc

theorem ask (e : Call) : Keeps N F tx start held held (Proc.ask e : AmfM e.Answer) :=
  fun _ _ _ h _ _ _ ht => h.others ht

theorem change {f : Tables → Tables} (hf : ∀ t, Fewer t (f t)) :
    Keeps N F tx start held held (Proc.change f) :=
  fun _ t _ h => ⟨proper_move (hf t), h.fewer (hf t)⟩

theorem actShared {f : Tables → α × Tables} (hf : ∀ t, Fewer t (f t).2) :
    Keeps N F tx start held held (Proc.actShared f : AmfM α) :=
  fun _ t _ h => ⟨proper_move (hf t), h.fewer (hf t)⟩

theorem callFor {e : Call} (he : named (.calling amfUeId e) = none) :
    Keeps N F tx start held held (Amf.callFor amfUeId e) :=
  .bind (.mark rfl he) fun _ => .ask e

theorem callForAs {e : Call} {supi : String} (he : named (.calling amfUeId e) = some (amfUeId, supi))
    (hc : c.suci = some supi) :
    Keeps N F tx start (some (amfUeId, c)) (some (amfUeId, c)) (Amf.callFor amfUeId e) :=
  .bind (.markAs rfl he hc) fun _ => .ask e

theorem spawnFor {j : Job} (hj : named (.spawning amfUeId j) = none) :
    Keeps N F tx start held held (Amf.spawnFor amfUeId j) :=
  .bind (.mark rfl hj) fun _ => .change (fewer_push j)

theorem spawnForAs {j : Job} {supi : String} (hj : named (.spawning amfUeId j) = some (amfUeId, supi))
    (hc : c.suci = some supi) :
    Keeps N F tx start (some (amfUeId, c)) (some (amfUeId, c)) (Amf.spawnFor amfUeId j) :=
  .bind (.markAs rfl hj hc) fun _ => .change (fewer_push j)

theorem arm (timer : Channel → Job) : Keeps N F tx start held held (Amf.arm timer) :=
  .bind (.look _) fun _ => .change (fewer_push _)

theorem modifyUe {f : UeContext → UeContext} (hf : ∀ c, Alike c (f c)) :
    Keeps N F tx start held held (Amf.modifyUe amfUeId f) :=
  fun _ _ _ h => ⟨proper_move (.refl _), h.modify hf⟩

theorem insertUe (hc : Alike c c') :
    Keeps N F tx start (some (amfUeId, c)) (some (amfUeId, c')) (Amf.insertUe amfUeId c') :=
  fun _ _ _ h => ⟨proper_move (.refl _), h.putBack hc⟩

theorem removeUe : Keeps N F tx start held none (Amf.removeUe amfUeId) :=
  fun _ _ _ h => ⟨proper_move (.refl _), h.erase⟩

theorem forEach {body : α → AmfM Unit} (h : ∀ a, Keeps N F tx start held held (body a)) (as : List α) :
    Keeps N F tx start held held (Proc.forEach body as) := by
  induction as with
  | nil => exact .pure ()
  | cons a as ih => exact .bind (h a) fun _ => ih

theorem sendAll (dls : List Downlink) : Keeps N F tx start held held (Amf.sendAll dls) :=
  .forEach (fun _ => .mark rfl rfl) dls

/-- A 5G-TMSI is assigned to the UE of the context that has been read. -/
theorem assignGuti {supi : String} (hc : c.suci = some supi) :
    Keeps N F tx start (some (amfUeId, c)) (some (amfUeId, c))
      (Proc.change (Tables.assignGuti supi (amfUeId.setWidth 32))) := by
  intro l t w h
  refine ⟨⟨fun tmsi supi' hsupi => ?_, fun _ _ => ⟨id, fun _ _ => id⟩⟩,
    { h with reserve := h.reserve, entered := h.entered }⟩
  obtain ⟨htmsi, rfl⟩ | ⟨-, hsupi⟩ := Map.of_lookup_insert hsupi
  · exact .inr (.inl ⟨amfUeId, htmsi, h.known_of_suci hc⟩)
  · exact .inl (Map.lookup_retain.mp hsupi).1

/-- The directory leads to the context that has been read. -/
theorem address {supi : String} (hc : c.suci = some supi) :
    Keeps N F tx start (some (amfUeId, c)) (some (amfUeId, c)) (Amf.address supi amfUeId) := by
  intro l t w h
  have hentered : ∀ {supi' : String} {e : AmfUeId × Channel},
      (t.addressed supi amfUeId l.tx).ueDirectory.lookup supi' = some e →
        (supi' = supi ∧ e = (amfUeId, l.tx)) ∨ t.ueDirectory.lookup supi' = some e := by
    intro supi' e he
    obtain ⟨hsame, rfl⟩ | ⟨-, he⟩ := Map.of_lookup_insert he
    · exact .inl ⟨hsame, rfl⟩
    · exact .inr he
  refine ⟨⟨fun _ _ => .inl, fun tx' htx => ⟨id, fun supi' id he => ?_⟩⟩,
    { h with reserve := h.reserve, entered := fun supi' id c' he hc' => ?_ }⟩
  · rcases hentered he with ⟨-, hnew⟩ | hold
    · cases hnew
      exact absurd rfl htx
    · exact hold
  · rcases hentered he with ⟨rfl, hnew⟩ | hold
    · cases hnew
      obtain ⟨c₀, hc₀, -, hsuci⟩ := h.known_of_suci hc
      rw [hc₀] at hc'
      cases hc'
      exact hsuci
    · exact h.entered supi' id c' hold hc'

end Keeps

end Radian.Amf.Identity
