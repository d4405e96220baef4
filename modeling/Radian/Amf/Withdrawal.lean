import Radian.Amf.AmPolicy
import Radian.Mobility.Custody
import Mathlib.Logic.Function.Basic

/-!
# Withdrawn subscribers

One SUPI: its contexts at the AMF wherever they are, its SM contexts at the SMFs, and the withdrawal of
its subscription, which the AMF passes on to the association that the directory names.

- `deregNotify`, `UeContext.deregistering`, `UeContext.reconciled` — what the AMF does.
- `Holding`, `World`, `Event`, `World.step` — the contexts, the commands on their way to associations, and
  what the handlers make of them.
- `Withheld` — no context that has not authenticated since the withdrawal is served, and none of their SM
  contexts stays.
- `Heeds` — the side condition.
- `Kept`, `withheld` — the invariant, and every run that heeds it withholds the service.
-/

namespace Radian.Amf

open Nas (Nas5gmmMessage NasSecurityContext Tac)

variable (F : Functions)

/-! ### The handlers' parts -/

/-- A SUPI's subscription is withdrawn: what the UDR is told, and the command for the association on this
channel, about the context under this id. -/
def deregNotify (isOpen : Channel → Bool) (supi : String) (t : Tables) :
    StatusCode × Option (AmfUeId × Channel) :=
  match (t.ueDirectory.lookup supi).filter fun e => isOpen e.2 with
  | some e => (.noContent, some e)
  | none => (.notFound, none)

namespace UeContext

/-- The SM contexts that a context has on record. -/
def sessions (c : UeContext) : List (String × String) := c.smRefs.entries.map fun e => e.2

/-- A context whose UE has been told to deregister; without NAS security it is dropped. -/
def deregistering (c : UeContext) : Option UeContext :=
  c.sec.map fun sec =>
    { c with
      smRefs := ∅
      sec := some (sec.protectDl F.algorithms F.nas Nas.Sht.INTEGRITY_CIPHERED
        (.deregistrationRequestToUe 0x01)).2
      deregAttempts := some 1 }

/-- The sessions the UE no longer holds. -/
def droppedSessions (active : Option (List UInt8)) (c : UeContext) : List (String × String) :=
  match active with
  | none => []
  | some active => (c.smRefs.entries.filter fun e => !active.contains e.1).map fun e => e.2

/-- Only the sessions are left that the UE still holds. -/
def reconciled (active : Option (List UInt8)) (c : UeContext) : UeContext :=
  match active with
  | none => c
  | some active => { c with smRefs := c.smRefs.retainKeys fun psi => active.contains psi }

/-- An idle UE's context without the sessions that the SMF has had released. -/
def without (psis : List UInt8) (c : UeContext) : UeContext :=
  { c with smRefs := c.smRefs.eraseAll psis }

/-- A registration update reassigns the 5G-GUTI. -/
def reallocated (ret : Return) (amfUeId : AmfUeId) (c : UeContext) : UeContext :=
  if ret.isRegistrationUpdate then { c with gutiTmsi := some (amfUeId.setWidth 32) } else c

/-- The sessions whose user plane comes back: all on a Service Request, those with uplink data else. -/
def reactivated (ret : Return) (msg : Nas5gmmMessage) (c : UeContext) : List (String × String) :=
  let entries := if ret.isRegistrationUpdate
    then c.smRefs.entries.filter fun e => (uplinkDataStatus msg).contains e.1 else c.smRefs.entries
  entries.map fun e => e.2

end UeContext

end Radian.Amf

namespace Radian.Amf.Withdrawal

open Nas (Nas5gmmMessage NasSecurityContext Tac)

variable (F : Functions)

/-! ### The system -/

inductive Place where
  /-- With the association on this channel. -/
  | connected (tx : Channel)
  /-- On its way from one association to another. -/
  | moving
  | retained
  /-- Taken from the retained ones for this message, and with no association yet. -/
  | returning (ret : Return) (msg : Nas5gmmMessage)
  deriving DecidableEq

structure Holding where
  ctx : UeContext
  place : Place
  /-- Whether it has authenticated since the subscription was last withdrawn. -/
  fresh : Bool := false
  deriving DecidableEq

/-- An SM context, and whether it was created for a context that was fresh. -/
structure SmContext where
  session : String × String
  fresh : Bool
  deriving DecidableEq

inductive Service where
  | userPlane (session : String × String)
  | smContext (session : String × String)
  | guti (tmsi : Tmsi)
  deriving DecidableEq

structure World where
  holdings : AmfUeId → Option Holding
  directory : Option (AmfUeId × Channel) := none
  /-- The `Start` commands on their way, each to the association on a channel. -/
  starts : List (AmfUeId × Channel) := []
  /-- The SM contexts at the SMFs. -/
  live : List SmContext := []
  withdrawn : Bool := false
  /-- What contexts have been given that had not authenticated since the withdrawal. -/
  served : List Service := []

/-- What happens.  `failing` are the SM contexts whose release is not answered. -/
inductive Event where
  | callback
  | start (i : Nat) (failing : List (String × String))
  | accept (k : AmfUeId)
  /-- T3522 goes off. -/
  | expire (k : AmfUeId)
  /-- A UE is identified. -/
  | register (k : AmfUeId) (tx : Channel) (ranUeId : RanUeId) (supi : String) (now : Instant)
  /-- The RES* is accepted. -/
  | authenticate (k : AmfUeId) (sec : NasSecurityContext)
  | securityModeComplete (k : AmfUeId)
  /-- An SMF has created an SM context. -/
  | establish (k : AmfUeId) (psi : UInt8) (session : String × String)
  /-- The end of a session release by the network. -/
  | finalize (k : AmfUeId) (psi : UInt8) (answered : Bool)
  /-- AN release. -/
  | release (k : AmfUeId) (now : Instant)
  /-- A message of an idle UE verifies; its context goes under the id `k'`. -/
  | comeBack (k k' : AmfUeId) (msg : Nas5gmmMessage) (ranUeId : RanUeId) (tac : Option Tac)
  /-- The context that comes back is with an association. -/
  | resume (k : AmfUeId) (tx : Channel) (failing : List (String × String))
  /-- Another association takes the context over. -/
  | take (k : AmfUeId)
  | arrive (k : AmfUeId) (tx : Channel) (addressed : Bool)
  /-- The UE deregisters, or an idle UE's context is evicted. -/
  | depart (k : AmfUeId) (failing : List (String × String))
  /-- An SM context of an idle UE is released at the request of its SMF. -/
  | relinquish (session : String × String)
  /-- Sessions so released go from the retained context. -/
  | forget (k : AmfUeId) (psis : List UInt8)
  /-- The context goes, and its sessions are left. -/
  | drop (k : AmfUeId) (unaddressed : Bool)
  /-- Another handler leaves the context as `c`, but for sessions, GUTI and deregistration. -/
  | revise (k : AmfUeId) (c : UeContext)
  deriving DecidableEq

namespace World

/-- Whether a context has not authenticated since the withdrawal. -/
def barred (w : World) (h : Holding) : Bool := w.withdrawn && !h.fresh

def put (k : AmfUeId) (o : Option Holding) (w : World) : World :=
  { w with holdings := Function.update w.holdings k o }

/-- SM contexts are released, but for those whose release fails. -/
def letGo (sessions failing : List (String × String)) (w : World) : World :=
  { w with
    live := w.live.filter fun s => !sessions.contains s.session || failing.contains s.session }

def serve (h : Holding) (services : List Service) (w : World) : World :=
  { w with served := w.served ++ if w.barred h then services else [] }

/-- The subscription is withdrawn, and the AMF has been told. -/
def callback (w : World) : World :=
  { w with
    withdrawn := true
    holdings := fun k => (w.holdings k).map fun h => { h with fresh := false }
    live := w.live.map fun s => { s with fresh := false }
    starts := w.starts ++ w.directory.toList }

/-- The contexts of an association have the UE deregister. -/
def deregister (k : AmfUeId) (failing : List (String × String)) (h : Holding) (w : World) : World :=
  if h.ctx.deregAttempts.isSome then w
  else
    { (w.letGo h.ctx.sessions failing).put k
        ((h.ctx.deregistering F).map fun ctx => { h with ctx }) with
      directory := none }

/-- An association takes a `Start`. -/
def start (i : Nat) (failing : List (String × String)) (w : World) : World :=
  match w.starts[i]? with
  | none => w
  | some (k, tx) =>
      let w := { w with starts := w.starts.eraseIdx i }
      match w.holdings k with
      | none => w
      | some h => if h.place = .connected tx then w.deregister F k failing h else w

/-- An event of a context that is with an association. -/
def connected (k : AmfUeId) (f : Channel → Holding → World → World) (w : World) : World :=
  match w.holdings k with
  | none => w
  | some h =>
      match h.place with
      | .connected tx => f tx h w
      | _ => w

def accept (k : AmfUeId) : World → World :=
  connected k fun _ h w =>
    if h.ctx.deregAttempts.isSome then { w.put k none with directory := none } else w

def expire (k : AmfUeId) : World → World :=
  connected k fun _ h w =>
    match h.ctx.expireT3522 F with
    | .stale => w
    | .resend _ _ ctx => w.put k (some { h with ctx })
    | .exhausted => w.put k none

def register (k : AmfUeId) (tx : Channel) (c : UeContext) (w : World) : World :=
  match w.holdings k with
  | some _ => w
  | none => { w.put k (some { ctx := c, place := .connected tx }) with directory := some (k, tx) }

def establish (k : AmfUeId) (psi : UInt8) (session : String × String) : World → World :=
  connected k fun _ h w =>
    let w := w.serve h [.smContext session]
    { w.put k (some { h with ctx := { h.ctx with smRefs := h.ctx.smRefs.insert psi session } }) with
      live := w.live ++ [{ session, fresh := h.fresh }] }

def finalize (k : AmfUeId) (psi : UInt8) (answered : Bool) : World → World :=
  connected k fun _ h w =>
    if h.ctx.releasing.contains psi then
      let released := (h.ctx.smRefs.lookup psi).toList
      (w.letGo released (if answered then [] else released)).put k
        (some { h with ctx := { h.ctx with
          smRefs := h.ctx.smRefs.erase psi, releasing := h.ctx.releasing.filter (· != psi) } })
    else w

def release (k : AmfUeId) (now : Instant) : World → World :=
  connected k fun _ h w =>
    { w.put k (h.ctx.gutiTmsi.map fun _ => { h with ctx := h.ctx.idle now, place := .retained }) with
      directory := none }

/-- A message that asks for something else has the context dropped. -/
def comeBack (k k' : AmfUeId) (msg : Nas5gmmMessage) (ranUeId : RanUeId) (tac : Option Tac)
    (w : World) : World :=
  match w.holdings k, w.holdings k' with
  | some h, none =>
      if h.place = .retained then
        match returnOf msg with
        | none => w.put k none
        | some ret =>
            let w := if ret.isRegistrationUpdate then w.serve h [.guti (k'.setWidth 32)] else w
            (w.put k none).put k' (some { h with
              ctx := (h.ctx.comeBack ranUeId tac).reallocated ret k'
              place := .returning ret msg })
      else w
  | _, _ => w

def resume (k : AmfUeId) (tx : Channel) (failing : List (String × String)) (w : World) : World :=
  match w.holdings k with
  | none => w
  | some h =>
      match h.place with
      | .returning ret msg =>
          let active := pduSessionStatusFromRequest msg
          let ctx := h.ctx.reconciled active
          let w := w.letGo (h.ctx.droppedSessions active) failing
          let w := w.serve h ((ctx.reactivated ret msg).map .userPlane)
          { w.put k (some { h with ctx, place := .connected tx }) with directory := some (k, tx) }
      | _ => w

def arrive (k : AmfUeId) (tx : Channel) (addressed : Bool) (w : World) : World :=
  match w.holdings k with
  | none => w
  | some h =>
      if h.place = .moving then
        { w.put k (some { h with place := .connected tx }) with
          directory := if addressed then some (k, tx) else w.directory }
      else w

def depart (k : AmfUeId) (failing : List (String × String)) (w : World) : World :=
  match w.holdings k with
  | none => w
  | some h =>
      let left := (w.letGo h.ctx.sessions failing).put k none
      match h.place with
      | .connected _ => { left with directory := none }
      | .retained => left
      | _ => w

def forget (k : AmfUeId) (psis : List UInt8) (w : World) : World :=
  match w.holdings k with
  | none => w
  | some h =>
      if h.place = .retained then w.put k (some { h with ctx := h.ctx.without psis }) else w

def drop (k : AmfUeId) (unaddressed : Bool) (w : World) : World :=
  match w.holdings k with
  | none => w
  | some _ => { w.put k none with directory := if unaddressed then none else w.directory }

def revise (k : AmfUeId) (c : UeContext) (w : World) : World :=
  match w.holdings k with
  | none => w
  | some h =>
      w.put k (some { h with ctx := { c with
        smRefs := h.ctx.smRefs, deregAttempts := h.ctx.deregAttempts
        gutiTmsi := h.ctx.gutiTmsi } })

def step (w : World) : Event → World
  | .callback => w.callback
  | .start i failing => w.start F i failing
  | .accept k => w.accept k
  | .expire k => w.expire F k
  | .register k tx ranUeId supi now => w.register k tx (.new ranUeId .Identified (some supi) now)
  | .authenticate k sec =>
      w.connected k fun _ h w =>
        w.put k (some { h with ctx := { h.ctx with sec := some sec }, fresh := true })
  | .securityModeComplete k =>
      w.connected k fun _ h w =>
        (w.serve h [.guti (k.setWidth 32)]).put k
          (some { h with ctx := { h.ctx with gutiTmsi := some (k.setWidth 32) } })
  | .establish k psi session => w.establish k psi session
  | .finalize k psi answered => w.finalize k psi answered
  | .release k now => w.release k now
  | .comeBack k k' msg ranUeId tac => w.comeBack k k' msg ranUeId tac
  | .resume k tx failing => w.resume k tx failing
  | .take k => w.connected k fun _ h w => w.put k (some { h with place := .moving })
  | .arrive k tx addressed => w.arrive k tx addressed
  | .depart k failing => w.depart k failing
  | .relinquish session => w.letGo [session] []
  | .forget k psis => w.forget k psis
  | .drop k unaddressed => w.drop k unaddressed
  | .revise k c => w.revise k c

/-- Before the withdrawal. -/
structure Started (w : World) : Prop where
  withdrawn : w.withdrawn = false
  served : w.served = []

end World

/-! ### Withholding -/

structure Withheld (w : World) : Prop where
  unserved : w.served = []
  /-- Once the AMF has done with the withdrawal. -/
  released : w.withdrawn = true → w.starts = [] → ∀ s ∈ w.live, s.fresh = true

/-- An SM context that the withdrawal is to have released. -/
def World.Owed (w : World) (session : String × String) : Prop :=
  w.withdrawn = true ∧ { session, fresh := false } ∈ w.live

/-- A withdrawal finds the SM contexts on record, and those all with one context, which is where the
directory says and not deregistering.  That context does not leave, nor get more sessions, while the
command is on its way to it.  The release of an SM context that is to go is answered.  A context that has
not authenticated since is not registered, nor asks for a session or for a registration update. -/
def Heeds (w : World) : Event → Prop
  | .callback =>
      (∀ k h, w.holdings k = some h → h.ctx.smRefs = ∅ ∨
        ∃ tx, w.directory = some (k, tx) ∧ h.place = .connected tx ∧ h.ctx.deregAttempts = none) ∧
      ∀ s ∈ w.live, ∃ k h, w.holdings k = some h ∧ s.session ∈ h.ctx.sessions
  | .start _ failing | .depart _ failing => ∀ s ∈ failing, ¬ w.Owed s
  | .finalize k psi answered => answered = false → ∀ h s, w.holdings k = some h →
      h.ctx.smRefs.lookup psi = some s → ¬ w.Owed s
  | .securityModeComplete k => ∀ h, w.holdings k = some h → w.barred h = false
  | .establish k .. => (∀ h, w.holdings k = some h → w.barred h = false) ∧
      (w.withdrawn = true → ∀ tx, (k, tx) ∉ w.starts)
  | .comeBack k _ msg _ _ => ∀ h ret, w.holdings k = some h → returnOf msg = some ret →
      ret.isRegistrationUpdate = true → w.barred h = false
  | .release k _ | .take k | .drop k _ => w.withdrawn = true → ∀ tx, (k, tx) ∉ w.starts
  | _ => True

/-! ### The invariant -/

namespace World

/-- A `Start` is on its way to the context, and will have it deregistered. -/
def Reached (w : World) (k : AmfUeId) (h : Holding) : Prop :=
  ∃ tx, (k, tx) ∈ w.starts ∧ h.place = .connected tx ∧ h.ctx.deregAttempts = none

/-- After a withdrawal: a context that has not authenticated since has no sessions, or a `Start` is on its
way to it, and so with the contexts that have the SM contexts on record which are to go. -/
structure Covered (w : World) : Prop where
  vacant : ∀ k h, w.holdings k = some h → h.fresh = false → h.ctx.smRefs = ∅ ∨ w.Reached k h
  held : ∀ s ∈ w.live, s.fresh = false →
    ∃ k h, w.holdings k = some h ∧ s.session ∈ h.ctx.sessions ∧ w.Reached k h

structure Kept (w : World) : Prop where
  unserved : w.served = []
  covered : w.withdrawn = true → w.Covered

variable {F} {w w' : World} {k : AmfUeId}

theorem put_self (o : Option Holding) : (w.put k o).holdings k = o := by
  simp [put]

theorem Started.kept (h : w.Started) : w.Kept where
  unserved := h.served
  covered hwithdrawn := by
    rw [h.withdrawn] at hwithdrawn
    cases hwithdrawn

theorem Kept.withholds (h : w.Kept) : Withheld w where
  unserved := h.unserved
  released hwithdrawn hstarts s hs := by
    by_contra hold
    obtain ⟨k, c, -, -, tx, hmem, -⟩ :=
      (h.covered hwithdrawn).held s hs (Bool.eq_false_of_not_eq_true hold)
    rw [hstarts] at hmem
    cases hmem

/-- What happens to one context: it is covered afterwards, and still has what others count on it for. -/
theorem Kept.exchange (hkept : w.Kept) {o : Option Holding} (hserved : w'.served = [])
    (hwithdrawn : w'.withdrawn = w.withdrawn)
    (hholdings : w'.holdings = Function.update w.holdings k o)
    (hreached : ∀ k' h, k' ≠ k → w.Reached k' h → w'.Reached k' h)
    (hlive : w.withdrawn = true → ∀ s ∈ w'.live, s.fresh = false → s ∈ w.live)
    (hvacant : w.withdrawn = true → ∀ h, o = some h → h.fresh = false →
      h.ctx.smRefs = ∅ ∨ w'.Reached k h)
    (hheld : w.withdrawn = true → ∀ h, w.holdings k = some h → w.Reached k h →
      ∀ s ∈ w'.live, s.fresh = false → s.session ∈ h.ctx.sessions →
        ∃ h', o = some h' ∧ s.session ∈ h'.ctx.sessions ∧ w'.Reached k h') : w'.Kept where
  unserved := hserved
  covered hafter := by
    have hbefore : w.withdrawn = true := hwithdrawn.symm.trans hafter
    have hcovered := hkept.covered hbefore
    constructor
    · intro k' h hk' hfresh
      rw [hholdings] at hk'
      by_cases hk : k' = k
      · subst hk
        rw [Function.update_self] at hk'
        exact hvacant hbefore h hk' hfresh
      · rw [Function.update_of_ne hk] at hk'
        exact (hcovered.vacant k' h hk' hfresh).imp_right (hreached k' h hk)
    · intro s hs hfresh
      obtain ⟨k', h, hk', hsession, hreach⟩ := hcovered.held s (hlive hbefore s hs hfresh) hfresh
      by_cases hk : k' = k
      · subst hk
        obtain ⟨h', ho, hsession', hreach'⟩ := hheld hbefore h hk' hreach s hs hfresh hsession
        refine ⟨k', h', ?_, hsession', hreach'⟩
        rw [hholdings, Function.update_self, ho]
      · refine ⟨k', h, ?_, hsession, hreached k' h hk hreach⟩
        rw [hholdings, Function.update_of_ne hk]
        exact hk'

/-- A context without a `Start` on its way to it becomes another: one that is fresh, or has no sessions
unless it had some. -/
theorem Kept.move (hkept : w.Kept) {h : Holding} {o : Option Holding} (hk : w.holdings k = some h)
    (hserved : w'.served = []) (hwithdrawn : w'.withdrawn = w.withdrawn)
    (hholdings : w'.holdings = Function.update w.holdings k o) (hstarts : w'.starts = w.starts)
    (hlive : w.withdrawn = true → ∀ s ∈ w'.live, s.fresh = false → s ∈ w.live)
    (hnot : w.withdrawn = true → ¬ w.Reached k h)
    (hvacant : w.withdrawn = true → ∀ h', o = some h' → h'.fresh = false →
      (h.fresh = false → h.ctx.smRefs = ∅) → h'.ctx.smRefs = ∅) : w'.Kept := by
  refine hkept.exchange hserved hwithdrawn hholdings ?_ hlive ?_ ?_
  · rintro k' h' - ⟨tx, hmem, hplace⟩
    exact ⟨tx, hstarts ▸ hmem, hplace⟩
  · intro hbefore h' ho hfresh
    refine Or.inl (hvacant hbefore h' ho hfresh fun hold => ?_)
    exact ((hkept.covered hbefore).vacant k h hk hold).resolve_right (hnot hbefore)
  · intro hbefore h' hk' hreach
    rw [hk] at hk'
    cases hk'
    exact absurd hreach (hnot hbefore)

/-- A context that stays where it is with the sessions it had, but for some that have been released. -/
theorem Kept.stay (hkept : w.Kept) {h h' : Holding} (hk : w.holdings k = some h)
    (hserved : w'.served = []) (hwithdrawn : w'.withdrawn = w.withdrawn)
    (hholdings : w'.holdings = Function.update w.holdings k (some h')) (hstarts : w'.starts = w.starts)
    (hlive : w.withdrawn = true → ∀ s ∈ w'.live, s.fresh = false → s ∈ w.live)
    (hplace : h'.place = h.place) (hattempts : h'.ctx.deregAttempts = h.ctx.deregAttempts)
    (hfresh : h'.fresh = false → h.fresh = false) (hempty : h.ctx.smRefs = ∅ → h'.ctx.smRefs = ∅)
    (hsessions : w.withdrawn = true → ∀ s ∈ w'.live, s.fresh = false → s.session ∈ h.ctx.sessions →
      s.session ∈ h'.ctx.sessions) : w'.Kept := by
  have hreached : w.Reached k h → w'.Reached k h' := by
    rintro ⟨tx, hmem, hat, hnone⟩
    exact ⟨tx, hstarts ▸ hmem, hplace.trans hat, hattempts.trans hnone⟩
  refine hkept.exchange hserved hwithdrawn hholdings ?_ hlive ?_ ?_
  · rintro k' h₁ - ⟨tx, hmem, hat⟩
    exact ⟨tx, hstarts ▸ hmem, hat⟩
  · rintro hbefore h₁ ⟨⟩ hold
    exact ((hkept.covered hbefore).vacant k h hk (hfresh hold)).imp hempty hreached
  · intro hbefore h₁ hk₁ hreach s hs hold hmem
    rw [hk] at hk₁
    cases hk₁
    exact ⟨h', rfl, hsessions hbefore s hs hold hmem, hreached hreach⟩

theorem barred_eq_false {h : Holding} (hbarred : w.barred h = false) (hwithdrawn : w.withdrawn = true) :
    h.fresh = true := by
  simpa [barred, hwithdrawn] using hbarred

@[simp] theorem serve_holdings (h : Holding) (services : List Service) :
    (w.serve h services).holdings = w.holdings := rfl

@[simp] theorem serve_withdrawn (h : Holding) (services : List Service) :
    (w.serve h services).withdrawn = w.withdrawn := rfl

theorem serve_served {h : Holding} {services : List Service} (hserved : w.served = [])
    (hnone : w.barred h = true → services = []) : (w.serve h services).served = [] := by
  rw [serve, hserved, List.nil_append]
  split
  · rename_i hbarred
    exact hnone hbarred
  · rfl

theorem mem_letGo {sessions failing : List (String × String)} {s : SmContext}
    (hs : s ∈ (w.letGo sessions failing).live) :
    s ∈ w.live ∧ (s.session ∈ sessions → s.session ∈ failing) := by
  obtain ⟨hmem, hkeep⟩ := List.mem_filter.mp hs
  refine ⟨hmem, fun hsession => ?_⟩
  simpa [hsession] using hkeep

/-- What is not owed has been let go. -/
theorem not_mem_letGo {sessions failing : List (String × String)} (hwithdrawn : w.withdrawn = true)
    (hfailing : ∀ s ∈ failing, ¬ w.Owed s) {s : SmContext}
    (hs : s ∈ (w.letGo sessions failing).live) (hold : s.fresh = false) : s.session ∉ sessions := by
  intro hsession
  obtain ⟨hmem, hfail⟩ := mem_letGo hs
  refine hfailing s.session (hfail hsession) ⟨hwithdrawn, ?_⟩
  rw [← hold]
  exact hmem

/-- A handler that finds the context gone, or elsewhere, does nothing. -/
theorem Kept.connected (hkept : w.Kept) {f : Channel → Holding → World → World}
    (h : ∀ tx c, w.holdings k = some c → c.place = .connected tx → (f tx c w).Kept) :
    (w.connected k f).Kept := by
  unfold World.connected
  cases hk : w.holdings k with
  | none => exact hkept
  | some c =>
    dsimp only
    cases hplace : c.place with
    | connected tx => exact h tx c hk hplace
    | _ => exact hkept

theorem not_reached_of_starts {h : Holding} (hstarts : ∀ tx, (k, tx) ∉ w.starts) : ¬ w.Reached k h :=
  fun ⟨tx, hmem, _⟩ => hstarts tx hmem

theorem not_reached_of_place {h : Holding} (hplace : ∀ tx, h.place ≠ .connected tx) :
    ¬ w.Reached k h := fun ⟨tx, _, hat, _⟩ => hplace tx hat

theorem not_reached_of_attempts {h : Holding} (hattempts : h.ctx.deregAttempts ≠ none) :
    ¬ w.Reached k h := fun ⟨_, _, _, hnone⟩ => hattempts hnone

/-! ### The withdrawal -/

theorem Kept.callback (hkept : w.Kept) (hheeds : Heeds w .callback) : w.callback.Kept where
  unserved := hkept.unserved
  covered _ := by
    obtain ⟨hplaces, hrecords⟩ := hheeds
    have hreached : ∀ k h, w.holdings k = some h →
        h.ctx.smRefs = ∅ ∨ w.callback.Reached k { h with fresh := false } := by
      intro k h hk
      refine (hplaces k h hk).imp_right ?_
      rintro ⟨tx, hdirectory, hat, hnone⟩
      refine ⟨tx, List.mem_append_right _ ?_, hat, hnone⟩
      rw [hdirectory]
      exact List.mem_singleton_self _
    constructor
    · intro k h hk _
      obtain ⟨h₀, hk₀, rfl⟩ := Option.map_eq_some_iff.mp hk
      exact hreached k h₀ hk₀
    · intro s hs _
      obtain ⟨s₀, hs₀, rfl⟩ := List.mem_map.mp hs
      obtain ⟨k, h, hk, hsession⟩ := hrecords s₀ hs₀
      refine ⟨k, { h with fresh := false }, ?_, hsession, ?_⟩
      · simp [World.callback, hk]
      · refine (hreached k h hk).resolve_left fun hempty => ?_
        rw [UeContext.sessions, hempty] at hsession
        cases hsession

theorem deregistering_smRefs {c c' : UeContext} (h : c.deregistering F = some c') :
    c'.smRefs = ∅ := by
  obtain ⟨sec, -, rfl⟩ := Option.map_eq_some_iff.mp h
  rfl

theorem Kept.start (hkept : w.Kept) {i : Nat} {failing : List (String × String)}
    (hheeds : Heeds w (.start i failing)) : (w.start F i failing).Kept := by
  unfold World.start
  cases hi : w.starts[i]? with
  | none => exact hkept
  | some e =>
    obtain ⟨k, tx⟩ := e
    dsimp only
    -- the other commands are still on their way
    have hrest : ∀ k' h, (k' ≠ k ∨ h.place ≠ .connected tx) → w.Reached k' h →
        World.Reached { w with starts := w.starts.eraseIdx i } k' h := by
      rintro k' h hother ⟨tx', hmem, hat, hnone⟩
      refine ⟨tx', ?_, hat, hnone⟩
      obtain ⟨j, hj⟩ := List.mem_iff_getElem?.mp hmem
      refine List.mem_eraseIdx_iff_getElem?.mpr ⟨j, ?_, hj⟩
      rintro rfl
      rw [hi] at hj
      cases hj
      exact hother.elim (fun hne => hne rfl) fun hne => hne hat
    have hunchanged : (∀ h, w.holdings k = some h → w.Reached k h → h.place ≠ .connected tx) →
        World.Kept { w with starts := w.starts.eraseIdx i } := by
      intro hnot
      refine hkept.exchange (k := k) (o := w.holdings k) hkept.unserved rfl
        (Function.update_eq_self k w.holdings).symm (fun k' h hne => hrest k' h (.inl hne))
        (fun _ s hs _ => hs) ?_ ?_
      · intro hbefore h hk hfresh
        refine ((hkept.covered hbefore).vacant k h hk hfresh).imp_right fun hreach => ?_
        exact hrest k h (.inr (hnot h hk hreach)) hreach
      · intro _ h hk hreach s _ _ hsession
        exact ⟨h, hk, hsession, hrest k h (.inr (hnot h hk hreach)) hreach⟩
    cases hk : w.holdings k with
    | none => exact hunchanged fun h hk' => by rw [hk] at hk'; cases hk'
    | some h =>
      dsimp only
      split
      · unfold World.deregister
        split
        · rename_i hattempts
          refine hunchanged fun h' hk' hreach => ?_
          rw [hk] at hk'
          cases hk'
          rw [hreach.choose_spec.2.2] at hattempts
          cases hattempts
        · refine hkept.exchange hkept.unserved rfl rfl (fun k' h' hne => hrest k' h' (.inl hne))
            (fun _ s hs _ => (mem_letGo hs).1) ?_ ?_
          · intro _ h' ho _
            obtain ⟨c, hc, rfl⟩ := Option.map_eq_some_iff.mp ho
            exact .inl (deregistering_smRefs hc)
          · intro hbefore h' hk' _ s hs hold hsession
            rw [hk] at hk'
            cases hk'
            exact absurd hsession (not_mem_letGo (w := w) hbefore hheeds hs hold)
      · rename_i hplace
        refine hunchanged fun h' hk' _ => ?_
        rw [hk] at hk'
        cases hk'
        exact hplace

/-! ### The other handlers -/

theorem Kept.accept (hkept : w.Kept) : (w.accept k).Kept := by
  refine hkept.connected fun tx h hk _ => ?_
  split
  · rename_i hattempts
    refine hkept.move hk hkept.unserved rfl rfl rfl (fun _ s hs _ => hs) ?_ ?_
    · exact fun _ => not_reached_of_attempts (Option.isSome_iff_ne_none.mp hattempts)
    · exact fun _ h' ho => nomatch ho
  · exact hkept

/-- What an expiry of T3522 leaves as it was. -/
theorem expireT3522_resend {c c' : UeContext} {nas : Security.Bytes} {area : Option AreaRestriction}
    (h : c.expireT3522 F = .resend nas area c') : c.deregAttempts ≠ none ∧ c'.smRefs = c.smRefs := by
  unfold UeContext.expireT3522 at h
  cases hattempts : c.deregAttempts with
  | none => simp [hattempts] at h
  | some attempts =>
    refine ⟨by simp, ?_⟩
    rw [hattempts] at h
    dsimp only at h
    split at h
    · cases hsec : c.sec with
      | none => simp [hsec] at h
      | some sec =>
        rw [hsec] at h
        cases h
        rfl
    · cases h

theorem expireT3522_exhausted {c : UeContext} (h : c.expireT3522 F = .exhausted) :
    c.deregAttempts ≠ none := by
  intro hnone
  rw [UeContext.expireT3522, hnone] at h
  cases h

theorem Kept.expire (hkept : w.Kept) : (w.expire F k).Kept := by
  refine hkept.connected fun tx h hk _ => ?_
  cases hexpire : h.ctx.expireT3522 F with
  | stale => exact hkept
  | resend nas area c =>
    obtain ⟨hattempts, hrefs⟩ := expireT3522_resend hexpire
    refine hkept.move hk hkept.unserved rfl rfl rfl (fun _ s hs _ => hs) ?_ ?_
    · exact fun _ => not_reached_of_attempts hattempts
    · rintro _ h' ⟨⟩ hfresh hvacant
      exact hrefs.trans (hvacant hfresh)
  | exhausted =>
    refine hkept.move hk hkept.unserved rfl rfl rfl (fun _ s hs _ => hs) ?_ ?_
    · exact fun _ => not_reached_of_attempts (expireT3522_exhausted hexpire)
    · exact fun _ h' ho => nomatch ho

/-- A context that is new. -/
theorem Kept.enter (hkept : w.Kept) {o : Option Holding} (hk : w.holdings k = none)
    (hserved : w'.served = []) (hwithdrawn : w'.withdrawn = w.withdrawn)
    (hholdings : w'.holdings = Function.update w.holdings k o) (hstarts : w'.starts = w.starts)
    (hlive : w'.live = w.live)
    (hvacant : w.withdrawn = true → ∀ h, o = some h → h.fresh = false → h.ctx.smRefs = ∅) :
    w'.Kept := by
  refine hkept.exchange hserved hwithdrawn hholdings ?_ (fun _ s hs _ => hlive ▸ hs) ?_ ?_
  · rintro k' h - ⟨tx, hmem, hplace⟩
    exact ⟨tx, hstarts ▸ hmem, hplace⟩
  · exact fun hbefore h ho hfresh => .inl (hvacant hbefore h ho hfresh)
  · intro _ h hk'
    rw [hk] at hk'
    cases hk'

theorem Kept.register (hkept : w.Kept) {tx : Channel} {c : UeContext} (hc : c.smRefs = ∅) :
    (w.register k tx c).Kept := by
  unfold World.register
  cases hk : w.holdings k with
  | some h => exact hkept
  | none =>
    refine hkept.enter hk hkept.unserved rfl rfl rfl rfl ?_
    rintro _ h ⟨⟩ _
    exact hc

theorem Kept.authenticate (hkept : w.Kept) (sec : NasSecurityContext) :
    (w.step F (.authenticate k sec)).Kept := by
  refine hkept.connected fun tx h hk _ => ?_
  exact hkept.stay hk hkept.unserved rfl rfl rfl (fun _ s hs _ => hs) rfl rfl
    (fun hfresh => nomatch hfresh) id fun _ s _ _ hsession => hsession

theorem Kept.securityModeComplete (hkept : w.Kept) (hheeds : Heeds w (.securityModeComplete k)) :
    (w.step F (.securityModeComplete k)).Kept := by
  simp only [World.step]
  refine hkept.connected fun tx h hk _ => ?_
  refine hkept.stay hk ?_ rfl rfl rfl (fun _ s hs _ => hs) rfl rfl id id
    fun _ s _ _ hsession => hsession
  refine serve_served hkept.unserved fun hbarred => ?_
  rw [hheeds h hk] at hbarred
  cases hbarred

theorem Kept.establish (hkept : w.Kept) {psi : UInt8} {session : String × String}
    (hheeds : Heeds w (.establish k psi session)) : (w.establish k psi session).Kept := by
  obtain ⟨hbarred, hstarts⟩ := hheeds
  refine hkept.connected fun tx h hk _ => ?_
  refine hkept.move hk ?_ rfl rfl rfl ?_ (fun hbefore => not_reached_of_starts (hstarts hbefore)) ?_
  · refine serve_served hkept.unserved fun h' => ?_
    rw [hbarred h hk] at h'
    cases h'
  · intro hbefore s hs hfresh
    obtain hs | hs := List.mem_append.mp hs
    · exact hs
    · obtain rfl := List.mem_singleton.mp hs
      rw [barred_eq_false (hbarred h hk) hbefore] at hfresh
      cases hfresh
  · rintro hbefore h' ⟨⟩ hfresh
    rw [barred_eq_false (hbarred h hk) hbefore] at hfresh
    cases hfresh

/-- What is not released is still on record. -/
theorem mem_sessions_erase {c : UeContext} {psi : UInt8} {session : String × String}
    (hsession : session ∈ c.sessions) (hne : c.smRefs.lookup psi ≠ some session) :
    session ∈ (c.smRefs.erase psi).entries.map fun e => e.2 := by
  obtain ⟨e, he, rfl⟩ := List.mem_map.mp hsession
  have hlookup := Keyed.Map.lookup_eq_some_iff.mpr he
  have hkey : e.1 ≠ psi := by
    rintro rfl
    exact hne hlookup
  refine List.mem_map.mpr ⟨e, Keyed.Map.lookup_eq_some_iff.mp ?_, rfl⟩
  rw [Keyed.Map.lookup_erase_eq, if_neg hkey]
  exact hlookup

theorem Kept.finalize (hkept : w.Kept) {psi : UInt8} {answered : Bool}
    (hheeds : Heeds w (.finalize k psi answered)) : (w.finalize k psi answered).Kept := by
  refine hkept.connected fun tx h hk _ => ?_
  dsimp only
  split
  · refine hkept.stay hk hkept.unserved rfl rfl rfl (fun _ s hs _ => (mem_letGo hs).1) rfl rfl id ?_ ?_
    · intro hempty
      rw [hempty]
      rfl
    · intro hbefore s hs hold hsession
      refine mem_sessions_erase hsession fun hlookup => ?_
      rw [hlookup] at hs
      refine not_mem_letGo hbefore ?_ hs hold (List.mem_singleton_self _)
      intro s' hs'
      cases answered with
      | true => cases hs'
      | false =>
        rw [List.mem_singleton.mp hs']
        exact hheeds rfl h s.session hk hlookup
  · exact hkept

theorem Kept.release (hkept : w.Kept) {now : Instant} (hheeds : Heeds w (.release k now)) :
    (w.release k now).Kept := by
  refine hkept.connected fun tx h hk _ => ?_
  refine hkept.move hk hkept.unserved rfl rfl rfl (fun _ s hs _ => hs)
    (fun hbefore => not_reached_of_starts (hheeds hbefore)) ?_
  intro _ h' ho hfresh hvacant
  obtain ⟨_, -, rfl⟩ := Option.map_eq_some_iff.mp ho
  exact hvacant hfresh

theorem reallocated_smRefs (ret : Return) (k' : AmfUeId) (c : UeContext) :
    (c.reallocated ret k').smRefs = c.smRefs := by
  unfold UeContext.reallocated
  split <;> rfl

theorem Kept.comeBack (hkept : w.Kept) {k' : AmfUeId} {msg : Nas5gmmMessage} {ranUeId : RanUeId}
    {tac : Option Tac} (hheeds : Heeds w (.comeBack k k' msg ranUeId tac)) :
    (w.comeBack k k' msg ranUeId tac).Kept := by
  unfold World.comeBack
  cases hk : w.holdings k with
  | none => exact hkept
  | some h =>
    cases hk' : w.holdings k' with
    | some _ => exact hkept
    | none =>
      dsimp only
      split
      · rename_i hretained
        have hnot : ¬ w.Reached k h := not_reached_of_place fun tx hat => by
          rw [hretained] at hat
          cases hat
        have hgone : (w.put k none).Kept :=
          hkept.move hk hkept.unserved rfl rfl rfl (fun _ s hs _ => hs) (fun _ => hnot)
            fun _ h' ho => nomatch ho
        cases hret : returnOf msg with
        | none => exact hgone
        | some ret =>
          dsimp only
          have hne : k' ≠ k := by
            rintro rfl
            rw [hk] at hk'
            cases hk'
          have hfree : (w.put k none).holdings k' = none := by
            exact (Function.update_of_ne hne none w.holdings).trans hk'
          refine hgone.enter hfree ?_ ?_ ?_ ?_ ?_ ?_ (o := some { h with
            ctx := (h.ctx.comeBack ranUeId tac).reallocated ret k'
            place := .returning ret msg })
          · split
            · rename_i hupdate
              refine serve_served hkept.unserved fun hbarred => ?_
              rw [hheeds h ret hk hret hupdate] at hbarred
              cases hbarred
            · exact hkept.unserved
          · split <;> rfl
          · split <;> rfl
          · split <;> rfl
          · split <;> rfl
          · rintro hbefore h' ⟨⟩ hfresh
            refine (reallocated_smRefs ret k' _).trans ?_
            exact ((hkept.covered hbefore).vacant k h hk hfresh).resolve_right hnot
      · exact hkept

theorem reconciled_smRefs {active : Option (List UInt8)} {c : UeContext} (h : c.smRefs = ∅) :
    (c.reconciled active).smRefs = ∅ := by
  unfold UeContext.reconciled
  cases active with
  | none => exact h
  | some active =>
    dsimp only
    rw [h]
    rfl

theorem Kept.resume (hkept : w.Kept) {tx : Channel} {failing : List (String × String)} :
    (w.resume k tx failing).Kept := by
  unfold World.resume
  cases hk : w.holdings k with
  | none => exact hkept
  | some h =>
    dsimp only
    split
    · rename_i ret msg hplace
      have hnot : ¬ w.Reached k h := not_reached_of_place fun tx hat => by
        rw [hplace] at hat
        cases hat
      have hvacant : w.withdrawn = true → h.fresh = false → h.ctx.smRefs = ∅ := fun hbefore hfresh =>
        ((hkept.covered hbefore).vacant k h hk hfresh).resolve_right hnot
      refine hkept.move hk ?_ rfl rfl rfl (fun _ s hs _ => (mem_letGo hs).1) (fun _ => hnot) ?_
      · refine serve_served hkept.unserved fun hbarred => ?_
        simp only [barred, letGo, Bool.and_eq_true, Bool.not_eq_true'] at hbarred
        have hempty : (h.ctx.reconciled (pduSessionStatusFromRequest msg)).smRefs = ∅ :=
          reconciled_smRefs (hvacant hbarred.1 hbarred.2)
        rw [UeContext.reactivated, hempty]
        split <;> rfl
      · rintro hbefore h' ⟨⟩ hfresh -
        exact reconciled_smRefs (hvacant hbefore hfresh)
    · exact hkept

theorem Kept.take (hkept : w.Kept) (hheeds : Heeds w (.take k)) : (w.step F (.take k)).Kept := by
  refine hkept.connected fun tx h hk _ => ?_
  refine hkept.move hk hkept.unserved rfl rfl rfl (fun _ s hs _ => hs)
    (fun hbefore => not_reached_of_starts (hheeds hbefore)) ?_
  rintro _ h' ⟨⟩ hfresh hvacant
  exact hvacant hfresh

theorem Kept.arrive (hkept : w.Kept) {tx : Channel} {addressed : Bool} :
    (w.arrive k tx addressed).Kept := by
  unfold World.arrive
  cases hk : w.holdings k with
  | none => exact hkept
  | some h =>
    dsimp only
    split
    · rename_i hmoving
      refine hkept.move hk hkept.unserved rfl rfl rfl (fun _ s hs _ => hs) ?_ ?_
      · exact fun _ => not_reached_of_place fun tx hat => by
          rw [hmoving] at hat
          cases hat
      · rintro _ h' ⟨⟩ hfresh hvacant
        exact hvacant hfresh
    · exact hkept

theorem Kept.depart (hkept : w.Kept) {failing : List (String × String)}
    (hheeds : Heeds w (.depart k failing)) : (w.depart k failing).Kept := by
  unfold World.depart
  cases hk : w.holdings k with
  | none => exact hkept
  | some h =>
    have hgone : ((w.letGo h.ctx.sessions failing).put k none).Kept := by
      refine hkept.exchange hkept.unserved rfl rfl (fun _ _ _ hreach => hreach)
        (fun _ s hs _ => (mem_letGo hs).1) (fun _ h' ho => nomatch ho) ?_
      intro hbefore h' hk' _ s hs hold hsession
      rw [hk] at hk'
      cases hk'
      exact absurd hsession (not_mem_letGo hbefore hheeds hs hold)
    dsimp only
    split
    · exact ⟨hgone.unserved, fun hafter => ⟨(hgone.covered hafter).vacant, (hgone.covered hafter).held⟩⟩
    · exact hgone
    · exact hkept

/-- An SM context less changes nothing that the rest counts on. -/
theorem Kept.relinquish (hkept : w.Kept) (session : String × String) : (w.letGo [session] []).Kept :=
  hkept.exchange (k := 0) hkept.unserved rfl (Function.update_eq_self 0 w.holdings).symm
    (fun _ _ _ hreach => hreach) (fun _ _ hs _ => (mem_letGo hs).1)
    (fun hbefore h hk hfresh => (hkept.covered hbefore).vacant 0 h hk hfresh)
    fun _ h hk hreach _ _ _ hsession => ⟨h, hk, hsession, hreach⟩

theorem without_smRefs {c : UeContext} (h : c.smRefs = ∅) (psis : List UInt8) :
    (c.without psis).smRefs = ∅ := by
  rw [UeContext.without, h]
  induction psis with
  | nil => rfl
  | cons psi psis ih => exact ih

theorem Kept.forget (hkept : w.Kept) {psis : List UInt8} : (w.forget k psis).Kept := by
  unfold World.forget
  cases hk : w.holdings k with
  | none => exact hkept
  | some h =>
    dsimp only
    split
    · rename_i hretained
      refine hkept.move hk hkept.unserved rfl rfl rfl (fun _ s hs _ => hs) ?_ ?_
      · exact fun _ => not_reached_of_place fun tx hat => by
          rw [hretained] at hat
          cases hat
      · rintro _ h' ⟨⟩ hfresh hvacant
        exact without_smRefs (hvacant hfresh) psis
    · exact hkept

theorem Kept.drop (hkept : w.Kept) {unaddressed : Bool} (hheeds : Heeds w (.drop k unaddressed)) :
    (w.drop k unaddressed).Kept := by
  unfold World.drop
  cases hk : w.holdings k with
  | none => exact hkept
  | some h =>
    exact hkept.move hk hkept.unserved rfl rfl rfl (fun _ s hs _ => hs)
      (fun hbefore => not_reached_of_starts (hheeds hbefore)) fun _ h' ho => nomatch ho

theorem Kept.revise (hkept : w.Kept) {c : UeContext} : (w.revise k c).Kept := by
  unfold World.revise
  cases hk : w.holdings k with
  | none => exact hkept
  | some h =>
    exact hkept.stay hk hkept.unserved rfl rfl rfl (fun _ s hs _ => hs) rfl rfl id id
      fun _ s _ _ hsession => hsession

/-- One event. -/
theorem Kept.step (hkept : w.Kept) (e : Event) (hheeds : Heeds w e) : (w.step F e).Kept := by
  cases e with
  | callback => exact hkept.callback hheeds
  | start i failing => exact hkept.start hheeds
  | accept k => exact hkept.accept
  | expire k => exact hkept.expire
  | register k tx ranUeId supi now => exact hkept.register rfl
  | authenticate k sec => exact hkept.authenticate sec
  | securityModeComplete k => exact hkept.securityModeComplete hheeds
  | establish k psi session => exact hkept.establish hheeds
  | finalize k psi answered => exact hkept.finalize hheeds
  | release k now => exact hkept.release hheeds
  | comeBack k k' msg ranUeId tac => exact hkept.comeBack hheeds
  | resume k tx failing => exact hkept.resume
  | take k => exact hkept.take hheeds
  | arrive k tx addressed => exact hkept.arrive
  | depart k failing => exact hkept.depart hheeds
  | relinquish session => exact hkept.relinquish session
  | forget k psis => exact hkept.forget
  | drop k unaddressed => exact hkept.drop hheeds
  | revise k c => exact hkept.revise

end World

/-! ### Runs -/

/-- **Service is withheld.** In every run that heeds the side condition, no context of a withdrawn subscriber
is served before it has authenticated anew, and the SM contexts are released once no command is under
way. -/
theorem withheld {F : Functions} {w : World} (h : w.Started) (es : List Event)
    (hheeds : Runs.Along (World.step F) Heeds w es) : Withheld (Runs.run (World.step F) w es) :=
  (Runs.invariant_along (fun _ e hheeds hkept => World.Kept.step hkept e hheeds) hheeds h.kept).withholds

def firstSession : String × String := ("sm-1", "http://smf")

def subscriber : UeContext :=
  { commandedUe with
    state := .Registered, sec := some sampleSec, gutiTmsi := some 1
    smRefs := (∅ : Keyed.Map UInt8 (String × String)).insert 5 firstSession }

/-- A registered UE with a session. -/
def inService : World :=
  { holdings := Function.update (fun _ => none) 1 (some { ctx := subscriber, place := .connected 0 })
    directory := some (1, 0)
    live := [{ session := firstSession, fresh := false }] }

theorem started_inService : inService.Started := ⟨rfl, rfl⟩

def serviceRequest : Nas5gmmMessage :=
  .serviceRequest { ngksi := 0, tmsi := some 1, pduSessionStatus := none }

def mobilityUpdate : Nas5gmmMessage :=
  .registrationRequest
    { registrationType := some .mobilityRegistrationUpdate, mobileIdentity := .guti 1
      ueSecurityCapability := none, requestedNssai := none, uplinkDataStatus := none
      pduSessionStatus := none }

/-- The UE is told to deregister, goes idle instead, and comes back. -/
def comesBack : List Event :=
  [.callback, .start 0 [], .release 1 9, .comeBack 1 2 serviceRequest 7 none, .resume 2 0 []]

theorem withheld_sample :
    Withheld (Runs.run (World.step commandFunctions) inService comesBack) := by
  refine withheld started_inService comesBack ⟨⟨?_, ?_⟩, ?_, ?_, ?_, trivial, trivial⟩
  · intro k h hk
    refine .inr ⟨0, ?_⟩
    by_cases hone : k = 1
    · subst hone
      cases hk
      exact ⟨rfl, rfl, rfl⟩
    · have hnone : inService.holdings k = none :=
        Function.update_of_ne hone _ fun _ => none
      rw [hnone] at hk
      cases hk
  · intro s hs
    obtain rfl := List.mem_singleton.mp hs
    exact ⟨1, _, rfl, List.mem_singleton_self _⟩
  · exact fun _ hs => nomatch hs
  · exact fun _ _ hmem => nomatch hmem
  · rintro h ret - ⟨⟩ hupdate
    cases hupdate

/-- The subscription is withdrawn while the UE is idle. -/
def withdrawnIdle : List Event :=
  [.release 1 9, .callback, .comeBack 1 2 serviceRequest 7 none, .resume 2 0 []]

/-- The UE has been told to deregister, and asks for another session. -/
def withdrawnAsks : List Event := [.callback, .start 0 [], .establish 1 6 ("sm-2", "http://smf")]

/-- The UE has been told to deregister, goes idle instead, and updates its registration. -/
def withdrawnUpdates : List Event :=
  [.callback, .start 0 [], .release 1 9, .comeBack 1 2 mobilityUpdate 7 none, .resume 2 0 []]

/-- The UE goes idle before the command is taken. -/
def withdrawnLate : List Event := [.callback, .release 1 9, .start 0 []]

/-- **Service goes on.** A withdrawn subscriber gets its user plane back when it was idle, and while it is
being deregistered another SM context and another 5G-GUTI; and when it goes idle before the command is
taken its SM contexts stay. -/
theorem not_withheld :
    (¬ ∀ (F : Functions) (w : World) (es : List Event), w.Started → ∀ session,
      .userPlane session ∉ (Runs.run (World.step F) w es).served) ∧
    (¬ ∀ (F : Functions) (w : World) (es : List Event), w.Started → ∀ session,
      .smContext session ∉ (Runs.run (World.step F) w es).served) ∧
    (¬ ∀ (F : Functions) (w : World) (es : List Event), w.Started → ∀ tmsi,
      .guti tmsi ∉ (Runs.run (World.step F) w es).served) ∧
    ¬ ∀ (F : Functions) (w : World) (es : List Event), w.Started →
      (Runs.run (World.step F) w es).withdrawn = true → (Runs.run (World.step F) w es).starts = [] →
        ∀ s ∈ (Runs.run (World.step F) w es).live, s.fresh = true := by
  refine ⟨fun h => ?_, fun h => ?_, fun h => ?_, fun h => ?_⟩
  · exact h commandFunctions inService withdrawnIdle started_inService firstSession
      (List.contains_iff_mem.mp (by decide +kernel))
  · exact h commandFunctions inService withdrawnAsks started_inService ("sm-2", "http://smf")
      (List.contains_iff_mem.mp (by decide +kernel))
  · exact h commandFunctions inService withdrawnUpdates started_inService 2
      (List.contains_iff_mem.mp (by decide +kernel))
  · have hlive : (Runs.run (World.step commandFunctions) inService withdrawnLate).live =
        [{ session := firstSession, fresh := false }] := by decide +kernel
    have hfresh := h commandFunctions inService withdrawnLate started_inService (by decide +kernel)
      (by decide +kernel)
    rw [hlive] at hfresh
    exact absurd (hfresh _ List.mem_cons_self) (by decide)

end Radian.Amf.Withdrawal
