import Radian.Amf.Withdrawal

/-!
# Paging

Where the AMF looks for an idle UE.  The gNBs and the AMF's links to them, the tracking area and the
registration area of each context, connected or retained, and the paging procedures under way.

- `pagingArea`, `pageGnbs` — where a context is paged, and which gNBs an attempt reaches.
- `World`, `Event`, `World.step` — gNBs come and go, UEs register, move, go idle and come back.
- `Found` — registration areas hold the tracking area, and an attempt reaches the gNBs that matter.
- `Heeds` — the side condition.
- `Kept`, `found` — the invariant, and in every run that heeds it the UEs are found.
-/

namespace Radian.Amf

open Keyed (Map)
open Nas (Nas5gmmMessage Tac)
open Security (Bytes)

/-- The tracking area paged when that of the UE is not known. -/
def AMF_TAC : Tac := 1

def T3513_MAX_SENDS : Nat := 3

/-- Where a UE is paged. -/
def UeContext.pagingArea (c : UeContext) : List Tac :=
  if c.registrationArea.isEmpty then c.tac.toList else c.registrationArea

/-- The context of a returning UE with its registration area. -/
def UeContext.relocated (ret : Return) (assigned : List Tac) (c : UeContext) : UeContext :=
  { c with registrationArea := returnArea ret assigned c }

/-- The context `c'`, with its UE where that of `c` is. -/
def UeContext.staying (c' c : UeContext) : UeContext :=
  { c' with tac := c.tac, registrationArea := c.registrationArea }

namespace Tables

/-- What the association on `tx` has for its served areas. -/
def served (t : Tables) (tx : Channel) : List Tac :=
  match t.gnbLinks.find? fun l => l.tx == tx with
  | some link => link.tacs
  | none => []

/-- Change the link of an association. -/
def onLink (tx : Channel) (f : GnbLink → GnbLink) (t : Tables) : Tables :=
  { t with gnbLinks := t.gnbLinks.map fun l => if l.tx == tx then f l else l }

/-- Drop the links to associations that are closed. -/
def sweepLinks (isOpen : Channel → Bool) (t : Tables) : Tables :=
  { t with gnbLinks := t.gnbLinks.filter fun l => isOpen l.tx }

/-- Whether a link's gNB is paged: it serves the area, or has no list yet, or there is no area. -/
def serves (area : List Tac) (l : GnbLink) : Bool :=
  area.isEmpty || l.tacs.isEmpty || l.tacs.any fun tac => area.contains tac

/-- The associations an attempt reaches, each with the TAI List for Paging. -/
def pageGnbs (isOpen : Channel → Bool) (area : List Tac) (t : Tables) :
    List (Channel × List Tac) × Tables :=
  let pageTacs := if area.isEmpty then [AMF_TAC] else area
  (((t.gnbLinks.filter fun l => serves area l && isOpen l.tx).map fun l => (l.tx, pageTacs)),
    t.sweepLinks isOpen)

end Tables

end Radian.Amf

namespace Radian.Amf.Paging

open Keyed (Map)
open Nas (Nas5gmmMessage Tac)
open Security (Bytes)

/-! ### The system -/

/-- A gNB with an association, and what it has told of itself. -/
structure Gnb where
  tacs : List Tac := []
  /-- Whether its NG Setup is complete. -/
  setUp : Bool := false
  deriving DecidableEq

inductive Place where
  | connected (tx : Channel)
  /-- On its way from one association to another. -/
  | moving
  /-- Taken from the retained ones, and with no association yet. -/
  | returning
  deriving DecidableEq

structure Holding where
  ctx : UeContext
  place : Place
  deriving DecidableEq

/-- A paging procedure: its next attempt. -/
structure Page where
  tmsi : Tmsi
  attempt : Nat := 1
  deriving DecidableEq

structure World where
  gnbs : Channel → Option Gnb := fun _ => none
  /-- The links and the retained contexts. -/
  tables : Tables := {}
  /-- The contexts that are not retained. -/
  holdings : AmfUeId → Option Holding := fun _ => none
  pages : List Page := []

inductive Event where
  /-- A gNB associates, on a channel of its own. -/
  | associate (tx : Channel)
  | ngSetup (tx : Channel) (gnbId : Option (BitVec 32)) (tacs : Option (List Tac))
  | ranConfigurationUpdate (tx : Channel) (tacs : Option (List Tac))
  | disconnect (tx : Channel)
  /-- The links to closed associations are dropped. -/
  | sweep
  /-- An Initial UE Message whose sender is identified. -/
  | register (k : AmfUeId) (tx : Channel) (ranUeId : RanUeId) (supi : String) (tac : Option Tac)
      (now : Instant)
  /-- An Initial UE Message whose sender is asked for its identity. -/
  | askIdentity (k : AmfUeId) (tx : Channel) (ranUeId : RanUeId) (tac : Option Tac) (now : Instant)
  | identityResponse (k : AmfUeId) (supi : String)
  /-- AN release. -/
  | release (k : AmfUeId) (now : Instant)
  /-- The message of an idle UE verifies on `tx`; its context goes under the id `k`. -/
  | comeBack (tmsi : Tmsi) (k : AmfUeId) (tx : Channel) (ret : Return) (ranUeId : RanUeId)
      (tac : Option Tac)
  /-- A context comes to an association. -/
  | settle (k : AmfUeId) (tx : Channel)
  /-- Another association takes the context over. -/
  | take (k : AmfUeId)
  /-- Handover Notify or Path Switch Request: the UE is at another gNB. -/
  | arrive (k : AmfUeId) (ranUeId : RanUeId) (tac : Option Tac) (pair : Bytes × Nat)
  | drop (k : AmfUeId)
  /-- An idle UE's context is evicted, or its message does not verify. -/
  | forget (tmsi : Tmsi)
  /-- Another handler leaves the context as `c`, but for where the UE is. -/
  | revise (k : AmfUeId) (c : UeContext)
  | reviseRetained (tmsi : Tmsi) (c : UeContext)
  /-- Paging is asked for. -/
  | page (tmsi : Tmsi)
  /-- The next attempt of a paging procedure. -/
  | attempt (i : Nat)

namespace World

def isOpen (w : World) (tx : Channel) : Bool := (w.gnbs tx).isSome

def onTables (f : Tables → Tables) (w : World) : World := { w with tables := f w.tables }

def put (k : AmfUeId) (o : Option Holding) (w : World) : World :=
  { w with holdings := Function.update w.holdings k o }

/-- Change a context in its place. -/
def onHolding (k : AmfUeId) (f : Holding → World → World) (w : World) : World :=
  match w.holdings k with
  | none => w
  | some h => f h w

def onCtx (k : AmfUeId) (f : UeContext → UeContext) : World → World :=
  onHolding k fun h w => w.put k (some { h with ctx := f h.ctx })

/-- A new context, under an id that is not taken. -/
def create (k : AmfUeId) (tx : Channel) (c : UeContext) (w : World) : World :=
  match w.holdings k with
  | none => w.put k (some { ctx := c, place := .connected tx })
  | some _ => w

def associate (tx : Channel) (w : World) : World :=
  if w.isOpen tx || w.tables.gnbLinks.any fun l => l.tx == tx then w
  else
    { w with
      gnbs := Function.update w.gnbs tx (some {})
      tables := { w.tables with
        gnbLinks := w.tables.gnbLinks ++ [{ tacs := [], gnbId := none, tx }] } }

/-- The NG Setup of a gNB, or a change of its configuration. -/
def configure (tx : Channel) (tacs : Option (List Tac)) (setUp : Bool) (f : GnbLink → GnbLink)
    (w : World) : World :=
  match w.gnbs tx with
  | none => w
  | some g =>
      { w.onTables (Tables.onLink tx f) with
        gnbs := Function.update w.gnbs tx
          (some { tacs := tacs.getD g.tacs, setUp := setUp || g.setUp }) }

def ngSetup (tx : Channel) (gnbId : Option (BitVec 32)) (tacs : Option (List Tac)) : World → World :=
  configure tx tacs true fun l =>
    if tacs.isSome || gnbId.isSome then { l with tacs := tacs.getD l.tacs, gnbId } else l

def ranConfigurationUpdate (tx : Channel) (tacs : Option (List Tac)) : World → World :=
  configure tx tacs false fun l => { l with tacs := tacs.getD l.tacs }

/-- An association ends, and its contexts with it. -/
def disconnect (tx : Channel) (w : World) : World :=
  { w with
    gnbs := Function.update w.gnbs tx none
    holdings := fun k => (w.holdings k).filter fun h => h.place != .connected tx }

def register (k : AmfUeId) (tx : Channel) (ranUeId : RanUeId) (supi : String) (tac : Option Tac)
    (now : Instant) (w : World) : World :=
  w.create k tx { UeContext.new ranUeId .Identified (some supi) now with
    tac, registrationArea := w.tables.registrationAreaFor tac tx }

def askIdentity (k : AmfUeId) (tx : Channel) (ranUeId : RanUeId) (tac : Option Tac) (now : Instant)
    (w : World) : World :=
  w.create k tx { UeContext.new ranUeId .IdentityRequested none now with tac }

def identityResponse (k : AmfUeId) (supi : String) : World → World :=
  onHolding k fun h w =>
    match h.place with
    | .connected tx =>
        if h.ctx.state = .IdentityRequested then
          w.put k (some { h with ctx := { h.ctx with
            suci := some supi, state := .Authenticating
            registrationArea := w.tables.registrationAreaFor h.ctx.tac tx } })
        else w
    | _ => w

def release (k : AmfUeId) (now : Instant) : World → World :=
  onHolding k fun h w =>
    match h.place, h.ctx.gutiTmsi with
    | .connected _, some tmsi =>
        (w.put k none).onTables fun t =>
          { t with retained := t.retained.insert tmsi (h.ctx.idle now) }
    | .connected _, none => w.put k none
    | _, _ => w

def comeBack (tmsi : Tmsi) (k : AmfUeId) (tx : Channel) (ret : Return) (ranUeId : RanUeId)
    (tac : Option Tac) (w : World) : World :=
  match w.tables.retained.lookup tmsi, w.holdings k with
  | some c, none =>
      let c := c.comeBack ranUeId tac
      let c := c.relocated ret (w.tables.registrationAreaFor c.tac tx)
      (w.put k (some { ctx := c.reallocated ret k, place := .returning })).onTables fun t =>
        { t with retained := t.retained.erase tmsi }
  | _, _ => w

def settle (k : AmfUeId) (tx : Channel) : World → World :=
  onHolding k fun h w =>
    match h.place with
    | .connected _ => w
    | _ => w.put k (some { h with place := .connected tx })

def take (k : AmfUeId) : World → World :=
  onHolding k fun h w =>
    match h.place with
    | .connected _ => w.put k (some { h with place := .moving })
    | _ => w

/-- One round of the paging loop: the attempt, if there are any left and the context is still retained. -/
def attempt (i : Nat) (w : World) : List (Channel × List Tac) × World :=
  match w.pages[i]? with
  | none => ([], w)
  | some p =>
      match (w.tables.retained.lookup p.tmsi).filter fun _ => p.attempt ≤ T3513_MAX_SENDS with
      | none => ([], { w with pages := w.pages.eraseIdx i })
      | some c =>
          let (paged, tables) := w.tables.pageGnbs w.isOpen c.pagingArea
          (paged, { w with tables, pages := w.pages.set i { p with attempt := p.attempt + 1 } })

def step (w : World) : Event → World
  | .associate tx => w.associate tx
  | .ngSetup tx gnbId tacs => w.ngSetup tx gnbId tacs
  | .ranConfigurationUpdate tx tacs => w.ranConfigurationUpdate tx tacs
  | .disconnect tx => w.disconnect tx
  | .sweep => w.onTables (Tables.sweepLinks w.isOpen)
  | .register k tx ranUeId supi tac now => w.register k tx ranUeId supi tac now
  | .askIdentity k tx ranUeId tac now => w.askIdentity k tx ranUeId tac now
  | .identityResponse k supi => w.identityResponse k supi
  | .release k now => w.release k now
  | .comeBack tmsi k tx ret ranUeId tac => w.comeBack tmsi k tx ret ranUeId tac
  | .settle k tx => w.settle k tx
  | .take k => w.take k
  | .arrive k ranUeId tac pair => w.onCtx k (UeContext.arrive ranUeId tac pair)
  | .drop k => w.put k none
  | .forget tmsi => w.onTables fun t => { t with retained := t.retained.erase tmsi }
  | .revise k c' => w.onCtx k c'.staying
  | .reviseRetained tmsi c' =>
      w.onTables fun t => { t with retained := t.retained.modify tmsi c'.staying }
  | .page tmsi => { w with pages := w.pages ++ [{ tmsi }] }
  | .attempt i => (w.attempt i).2

/-- No gNB has come and no UE has registered. -/
structure Started (w : World) : Prop where
  gnbs : ∀ tx, w.gnbs tx = none
  holdings : ∀ k, w.holdings k = none
  retained : w.tables.retained = ∅

/-- The contexts there are. -/
def Holds (w : World) (c : UeContext) : Prop :=
  (∃ k h, w.holdings k = some h ∧ h.ctx = c) ∨ ∃ tmsi, w.tables.retained.lookup tmsi = some c

end World

/-! ### Finding the UE -/

structure Found (w : World) : Prop where
  /-- A registration area has at most sixteen entries, and the tracking area is one of them. -/
  areas : ∀ c, w.Holds c → c.registrationArea ≠ [] →
    c.registrationArea.length ≤ 16 ∧ ∀ tac, c.tac = some tac → tac ∈ c.registrationArea
  /-- While its UE is idle, every attempt of a paging procedure reaches every gNB that serves the tracking
  area or is not set up. -/
  paged : ∀ i p, w.pages[i]? = some p → p.attempt ≤ T3513_MAX_SENDS →
    ∀ c, w.tables.retained.lookup p.tmsi = some c → ∀ tx g, w.gnbs tx = some g →
      (∃ tac, c.tac = some tac ∧ tac ∈ g.tacs) ∨ g.setUp = false →
      (tx, if c.pagingArea.isEmpty then [AMF_TAC] else c.pagingArea) ∈ (w.attempt i).1

/-- A tracking area is among the first sixteen of a list, or there is room to append it. -/
def Fits (tac : Option Tac) (served : List Tac) : Prop :=
  ∀ t ∈ tac, t ∈ served.take 16 ∨ t ∉ served ∧ served.length < 16

/-- A tracking area is in a registration area, if there is one. -/
def Within (tac : Option Tac) (area : List Tac) : Prop := area ≠ [] → ∀ t ∈ tac, t ∈ area

/-- The tracking area of a UE that registers is among the first sixteen that its gNB serves, or there is
room for it; so it is for a mobility update, and a Service Request from outside the registration area
finds room there.  A UE that stays outside its registration area is one that has none: after a periodic
update, a handover or a path switch.  No gNB changes its tracking areas before its NG Setup. -/
def Heeds (w : World) : Event → Prop
  | .ranConfigurationUpdate tx tacs => ∀ g ∈ w.gnbs tx, g.setUp = true ∨ tacs.getD [] = []
  | .register _ tx _ _ tac _ => Fits tac (w.tables.served tx)
  | .identityResponse k _ => ∀ h ∈ w.holdings k,
      match h.place with
      | .connected tx => Fits h.ctx.tac (w.tables.served tx)
      | _ => True
  | .comeBack tmsi _ tx ret _ tac => ∀ c ∈ w.tables.retained.lookup tmsi,
      match ret with
      | .mobilityUpdate => Fits (tac <|> c.tac) (w.tables.served tx)
      | .serviceRequest => c.registrationArea.length < 16 ∨ Within (tac <|> c.tac) c.registrationArea
      | .periodicUpdate => Within (tac <|> c.tac) c.registrationArea
  | .arrive k _ tac _ => ∀ h ∈ w.holdings k, Within (tac <|> h.ctx.tac) h.ctx.registrationArea
  | _ => True

-- Over the value there may be: the search would take the instance over all 2 ^ 24 tracking areas.
instance (tac : Option Tac) (served : List Tac) : Decidable (Fits tac served) :=
  Option.decidableForallMem (p := fun t => t ∈ served.take 16 ∨ t ∉ served ∧ served.length < 16) tac

instance (tac : Option Tac) (area : List Tac) : Decidable (Within tac area) :=
  have := Option.decidableForallMem (p := fun t => t ∈ area) tac
  inferInstanceAs (Decidable (area ≠ [] → ∀ t ∈ tac, t ∈ area))

/-! ### The invariant -/

/-- What is to hold of a context. -/
structure Sound (c : UeContext) : Prop where
  length : c.registrationArea.length ≤ 16
  within : Within c.tac c.registrationArea

namespace World

structure Kept (w : World) : Prop where
  held : ∀ k h, w.holdings k = some h → Sound h.ctx
  retained : ∀ tmsi c, w.tables.retained.lookup tmsi = some c → Sound c
  /-- Every gNB has its link. -/
  linked : ∀ tx g, w.gnbs tx = some g → ∃ l ∈ w.tables.gnbLinks, l.tx = tx ∧ l.tacs = g.tacs
  early : ∀ tx g, w.gnbs tx = some g → g.setUp = false → g.tacs = []

variable {w : World}

theorem Started.kept (h : w.Started) : w.Kept where
  held k x hk := by rw [h.holdings] at hk; cases hk
  retained tmsi c hc := by rw [h.retained] at hc; cases hc
  linked tx g hg := by rw [h.gnbs] at hg; cases hg
  early tx g hg := by rw [h.gnbs] at hg; cases hg

/-! ### Areas -/

theorem registrationAreaFor_some (t : Tables) (tac : Tac) (tx : Channel) :
    t.registrationAreaFor (some tac) tx =
      (if (t.served tx).contains tac then t.served tx else t.served tx ++ [tac]).take 16 := rfl

/-- The area that is assigned holds the tracking area exactly when that fits. -/
theorem mem_registrationAreaFor {t : Tables} {tac : Tac} {tx : Channel} :
    tac ∈ t.registrationAreaFor (some tac) tx ↔ Fits (some tac) (t.served tx) := by
  simp only [registrationAreaFor_some, Fits, Option.mem_some_iff, forall_eq']
  by_cases hserved : tac ∈ t.served tx
  · rw [if_pos (by simpa using hserved)]
    exact ⟨.inl, fun h => h.resolve_right fun hout => hout.1 hserved⟩
  · have hnot : tac ∉ (t.served tx).take 16 := fun h => hserved (List.mem_of_mem_take h)
    rw [if_neg (by simpa using hserved), List.take_append]
    rcases Nat.lt_or_ge (t.served tx).length 16 with hroom | hfull
    · have hone : [tac].take (16 - (t.served tx).length) = [tac] :=
        List.take_of_length_le (by simp only [List.length_singleton]; omega)
      rw [hone]
      exact iff_of_true (List.mem_append_right _ (List.mem_singleton_self tac)) (.inr ⟨hserved, hroom⟩)
    · have hnone : 16 - (t.served tx).length = 0 := by omega
      rw [hnone, List.take_zero, List.append_nil]
      exact iff_of_false hnot fun h => h.elim hnot fun hout => by omega

theorem length_registrationAreaFor (t : Tables) (tac : Option Tac) (tx : Channel) :
    (t.registrationAreaFor tac tx).length ≤ 16 := List.length_take_le _ _

theorem within_assigned {t : Tables} {tac : Option Tac} {tx : Channel}
    (hfits : Fits tac (t.served tx)) : Within tac (t.registrationAreaFor tac tx) := by
  rintro _ t rfl
  exact mem_registrationAreaFor.mpr hfits

/-- A Service Request from outside extends the area, when there is room. -/
theorem within_returnArea {c : UeContext} (hroom : c.registrationArea.length < 16 ∨
    Within c.tac c.registrationArea) (assigned : List Tac) :
    Within c.tac (returnArea .serviceRequest assigned c) := by
  intro hne t ht
  have htac : c.tac = some t := ht
  simp only [returnArea, htac] at hne ⊢
  split
  · rename_i hout
    rcases hroom with hroom | hwithin
    · rw [List.take_of_length_le (by simp only [List.length_append, List.length_singleton]; omega)]
      exact List.mem_append_right _ (List.mem_singleton_self t)
    · simp only [Bool.and_eq_true, Bool.not_eq_true', List.isEmpty_eq_false_iff] at hout
      have hin := hwithin hout.1 t ht
      simp [hin] at hout
  · rename_i hin
    simp only [Bool.and_eq_true, Bool.not_eq_true', List.isEmpty_eq_false_iff, not_and,
      Bool.not_eq_false, List.contains_iff_mem] at hin
    rw [if_neg (by simpa using hin)] at hne
    exact hin hne

theorem length_returnArea {c : UeContext} (h : c.registrationArea.length ≤ 16) (ret : Return)
    {assigned : List Tac} (hassigned : assigned.length ≤ 16) :
    (returnArea ret assigned c).length ≤ 16 := by
  unfold returnArea
  split
  · exact hassigned
  · split
    · exact List.length_take_le _ _
    · exact h
  · exact h

/-! ### Steps -/

theorem Kept.put (h : w.Kept) (k : AmfUeId) {o : Option Holding} (ho : ∀ x, o = some x → Sound x.ctx) :
    (w.put k o).Kept where
  held k' x hx := by
    simp only [World.put, Function.update_apply] at hx
    split at hx
    · exact ho x hx
    · exact h.held k' x hx
  retained := h.retained
  linked := h.linked
  early := h.early

theorem Kept.leave (h : w.Kept) (k : AmfUeId) : (w.put k none).Kept := h.put k fun _ hx => nomatch hx

theorem Kept.onCtx (h : w.Kept) (k : AmfUeId) {f : UeContext → UeContext}
    (hf : ∀ x, w.holdings k = some x → Sound (f x.ctx)) : (w.onCtx k f).Kept := by
  simp only [World.onCtx, onHolding]
  cases hk : w.holdings k with
  | none => exact h
  | some x =>
    refine h.put k fun y hy => ?_
    cases hy
    exact hf x hk

theorem sound_staying {c : UeContext} (h : Sound c) (c' : UeContext) : Sound (c'.staying c) :=
  ⟨h.length, h.within⟩

/-- A context as it is, in another place. -/
theorem Kept.place (h : w.Kept) {k : AmfUeId} {x : Holding} (hk : w.holdings k = some x) (place : Place) :
    (w.put k (some { x with place })).Kept := by
  refine h.put k fun y hy => ?_
  cases hy
  exact h.held k x hk

theorem Kept.create (h : w.Kept) (k : AmfUeId) (tx : Channel) {c : UeContext} (hc : Sound c) :
    (w.create k tx c).Kept := by
  unfold World.create
  cases w.holdings k with
  | some x => exact h
  | none =>
    refine h.put k fun y hy => ?_
    cases hy
    exact hc

theorem Kept.retain (h : w.Kept) {m : Map Tmsi UeContext}
    (hm : ∀ tmsi c, m.lookup tmsi = some c → Sound c) :
    Kept (w.onTables fun t => { t with retained := m }) where
  held := h.held
  retained := hm
  linked := h.linked
  early := h.early

theorem Kept.forget (h : w.Kept) (tmsi : Tmsi) :
    Kept (w.onTables fun t => { t with retained := t.retained.erase tmsi }) := by
  refine h.retain fun tmsi' c hc => ?_
  exact h.retained tmsi' c (Map.of_lookup_erase hc).2

theorem sound_idle {c : UeContext} (h : Sound c) (now : Instant) : Sound (c.idle now) :=
  ⟨h.length, h.within⟩

theorem Kept.release (h : w.Kept) (k : AmfUeId) (now : Instant) : (w.release k now).Kept := by
  unfold World.release onHolding
  cases hk : w.holdings k with
  | none => exact h
  | some x =>
    dsimp only
    split
    · rename_i tmsi _ _
      refine (h.leave k).retain fun tmsi' c hc => ?_
      obtain ⟨-, rfl⟩ | ⟨-, hc⟩ := Map.of_lookup_insert hc
      · exact sound_idle (h.held k x hk) now
      · exact h.retained tmsi' c hc
    · exact h.leave k
    · exact h

theorem Kept.settle (h : w.Kept) (k : AmfUeId) (tx : Channel) : (w.settle k tx).Kept := by
  unfold World.settle onHolding
  cases hk : w.holdings k with
  | none => exact h
  | some x =>
    dsimp only
    split
    · exact h
    · exact h.place hk _

theorem Kept.take (h : w.Kept) (k : AmfUeId) : (w.take k).Kept := by
  unfold World.take onHolding
  cases hk : w.holdings k with
  | none => exact h
  | some x =>
    dsimp only
    split
    · exact h.place hk _
    · exact h

theorem Kept.identityResponse (h : w.Kept) (k : AmfUeId) (supi : String)
    (hheeds : Heeds w (.identityResponse k supi)) : (w.identityResponse k supi).Kept := by
  unfold World.identityResponse onHolding
  cases hk : w.holdings k with
  | none => exact h
  | some x =>
    dsimp only
    split
    · rename_i tx htx
      have hfits : Fits x.ctx.tac (w.tables.served tx) := by
        have := hheeds x hk
        rwa [htx] at this
      split
      · refine h.put k fun y hy => ?_
        cases hy
        exact ⟨length_registrationAreaFor .., within_assigned hfits⟩
      · exact h
    · exact h

theorem sound_reallocated {c : UeContext} (h : Sound c) (ret : Return) (k : AmfUeId) :
    Sound (c.reallocated ret k) := by
  unfold UeContext.reallocated
  split <;> exact ⟨h.length, h.within⟩

theorem Kept.comeBack (h : w.Kept) {tmsi : Tmsi} {k : AmfUeId} {tx : Channel} {ret : Return}
    {ranUeId : RanUeId} {tac : Option Tac} (hheeds : Heeds w (.comeBack tmsi k tx ret ranUeId tac)) :
    (w.comeBack tmsi k tx ret ranUeId tac).Kept := by
  unfold World.comeBack
  split
  · rename_i c hc _
    let back := c.comeBack ranUeId tac
    have hback := hheeds c hc
    have hassigned : (w.tables.registrationAreaFor back.tac tx).length ≤ 16 :=
      length_registrationAreaFor ..
    have hsound : Sound (back.relocated ret (w.tables.registrationAreaFor back.tac tx)) := by
      refine ⟨length_returnArea (c := back) (h.retained tmsi c hc).length ret hassigned, ?_⟩
      cases ret with
      | serviceRequest => exact within_returnArea (c := back) hback _
      | mobilityUpdate => exact within_assigned hback
      | periodicUpdate => exact hback
    refine (h.put k fun y hy => ?_).forget tmsi
    cases hy
    exact sound_reallocated hsound ret k
  · exact h

/-! ### gNBs and links -/

theorem Kept.associate (h : w.Kept) (tx : Channel) : (w.associate tx).Kept := by
  unfold World.associate
  split
  · exact h
  · refine ⟨h.held, h.retained, fun tx' g hg => ?_, fun tx' g hg hsetUp => ?_⟩
    · obtain ⟨htx, rfl⟩ | ⟨-, hg⟩ := Keyed.of_update_some hg
      · exact ⟨_, List.mem_append_right _ (List.mem_singleton_self _), htx.symm, rfl⟩
      · obtain ⟨l, hl, hown⟩ := h.linked tx' g hg
        exact ⟨l, List.mem_append_left _ hl, hown⟩
    · obtain ⟨-, rfl⟩ | ⟨-, hg⟩ := Keyed.of_update_some hg
      · rfl
      · exact h.early tx' g hg hsetUp

theorem Kept.configure (h : w.Kept) {tx : Channel} {tacs : Option (List Tac)} {setUp : Bool}
    {f : GnbLink → GnbLink} (hf : ∀ l, (f l).tx = l.tx ∧ (f l).tacs = tacs.getD l.tacs)
    (hsetUp : ∀ g, w.gnbs tx = some g → setUp = true ∨ g.setUp = true ∨ tacs.getD [] = []) :
    (w.configure tx tacs setUp f).Kept := by
  unfold World.configure
  cases hg : w.gnbs tx with
  | none => exact h
  | some g =>
    refine ⟨h.held, h.retained, fun tx' g' hg' => ?_, fun tx' g' hg' hlate => ?_⟩
    · obtain ⟨htx, rfl⟩ | ⟨htx, hg'⟩ := Keyed.of_update_some hg'
      · obtain ⟨l, hl, hown, htacs⟩ := h.linked tx g hg
        refine ⟨f l, List.mem_map.mpr ⟨l, hl, if_pos (by simpa using hown)⟩, ?_, ?_⟩
        · rw [(hf l).1, hown, htx]
        · rw [(hf l).2, htacs]
      · obtain ⟨l, hl, hown, htacs⟩ := h.linked tx' g' hg'
        have hother : (l.tx == tx) = false := beq_eq_false_iff_ne.mpr (hown ▸ htx)
        exact ⟨l, List.mem_map.mpr ⟨l, hl, by rw [hother]; rfl⟩, hown, htacs⟩
    · obtain ⟨-, rfl⟩ | ⟨-, hg'⟩ := Keyed.of_update_some hg'
      · simp only [Bool.or_eq_false_iff] at hlate
        rcases hsetUp g hg with hnow | hbefore | hnone
        · rw [hnow] at hlate
          cases hlate.1
        · rw [hbefore] at hlate
          cases hlate.2
        · cases tacs with
          | none => exact h.early tx g hg hlate.2
          | some tacs => exact hnone
      · exact h.early tx' g' hg' hlate

theorem Kept.disconnect (h : w.Kept) (tx : Channel) : (w.disconnect tx).Kept := by
  have hgnb : ∀ tx' g, (w.disconnect tx).gnbs tx' = some g → w.gnbs tx' = some g := fun tx' g hg =>
    (Keyed.of_update_none hg).2
  refine ⟨fun k x hx => ?_, h.retained, fun tx' g hg => h.linked tx' g (hgnb tx' g hg),
    fun tx' g hg => h.early tx' g (hgnb tx' g hg)⟩
  exact h.held k x (Option.filter_eq_some_iff.mp hx).1

/-- A live gNB keeps its link. -/
theorem Kept.sweep (h : w.Kept) (pages : List Page) :
    Kept { w.onTables (Tables.sweepLinks w.isOpen) with pages } where
  held := h.held
  retained := h.retained
  linked tx g hg := by
    obtain ⟨l, hl, hown, htacs⟩ := h.linked tx g hg
    have hopen : w.isOpen l.tx = true := by rw [hown, isOpen, show w.gnbs tx = some g from hg]; rfl
    exact ⟨l, List.mem_filter.mpr ⟨hl, hopen⟩, hown, htacs⟩
  early := h.early

theorem Kept.pages (h : w.Kept) (pages : List Page) : Kept { w with pages } :=
  ⟨h.held, h.retained, h.linked, h.early⟩

theorem Kept.attempt (h : w.Kept) (i : Nat) : (w.attempt i).2.Kept := by
  unfold World.attempt
  split
  · exact h
  · split
    · exact h.pages _
    · exact h.sweep _

/-- One event. -/
theorem Kept.step (h : w.Kept) (e : Event) (hheeds : Heeds w e) : (w.step e).Kept := by
  cases e with
  | associate tx => exact h.associate tx
  | ngSetup tx gnbId tacs =>
    refine h.configure (fun l => ?_) fun _ _ => .inl rfl
    split
    · exact ⟨rfl, rfl⟩
    · rename_i hnone
      cases tacs with
      | none => exact ⟨rfl, rfl⟩
      | some tacs => exact absurd rfl hnone
  | ranConfigurationUpdate tx tacs =>
    exact h.configure (fun l => ⟨rfl, rfl⟩) fun g hg => .inr (hheeds g hg)
  | disconnect tx => exact h.disconnect tx
  | sweep => exact h.sweep w.pages
  | register k tx ranUeId supi tac now =>
    exact h.create k tx ⟨length_registrationAreaFor .., within_assigned hheeds⟩
  | askIdentity k tx ranUeId tac now => exact h.create k tx ⟨Nat.zero_le _, fun hne => absurd rfl hne⟩
  | identityResponse k supi => exact h.identityResponse k supi hheeds
  | release k now => exact h.release k now
  | comeBack tmsi k tx ret ranUeId tac => exact h.comeBack hheeds
  | settle k tx => exact h.settle k tx
  | take k => exact h.take k
  | arrive k ranUeId tac pair =>
    exact h.onCtx k fun x hx => ⟨(h.held k x hx).length, hheeds x hx⟩
  | drop k => exact h.leave k
  | forget tmsi => exact h.forget tmsi
  | revise k c' => exact h.onCtx k fun x hx => sound_staying (h.held k x hx) c'
  | reviseRetained tmsi c =>
    refine h.retain fun tmsi' c' hc' => ?_
    rw [Map.lookup_modify] at hc'
    split at hc'
    · obtain ⟨old, hold, rfl⟩ := Option.map_eq_some_iff.mp hc'
      exact sound_staying (h.retained _ old hold) c
    · exact h.retained tmsi' c' hc'
  | page tmsi => exact h.pages _
  | attempt i => exact h.attempt i

/-! ### Attempts -/

/-- What an attempt reaches while its UE is idle. -/
theorem attempt_eq {i : Nat} {p : Page} (hp : w.pages[i]? = some p) (hleft : p.attempt ≤ T3513_MAX_SENDS)
    {c : UeContext} (hc : w.tables.retained.lookup p.tmsi = some c) :
    (w.attempt i).1 = (w.tables.pageGnbs w.isOpen c.pagingArea).1 := by
  have hfound : (w.tables.retained.lookup p.tmsi).filter (fun _ => p.attempt ≤ T3513_MAX_SENDS) =
      some c := by
    rw [hc, Option.filter_some, if_pos (decide_eq_true hleft)]
  simp only [World.attempt, hp, hfound]

/-- A context is paged where it was last seen. -/
theorem mem_pagingArea {c : UeContext} (h : Sound c) {tac : Tac} (htac : c.tac = some tac) :
    tac ∈ c.pagingArea := by
  unfold UeContext.pagingArea
  split
  · rw [htac]
    exact List.mem_singleton_self tac
  · rename_i hne
    exact h.within (by simpa using hne) tac htac

theorem Kept.reachable (h : w.Kept) : Found w where
  areas c hc hne := by
    have hsound : Sound c := by
      obtain ⟨k, x, hk, rfl⟩ | ⟨tmsi, hretained⟩ := hc
      · exact h.held k x hk
      · exact h.retained tmsi c hretained
    exact ⟨hsound.length, fun tac htac => hsound.within hne tac htac⟩
  paged i p hp hleft c hc tx g hg hmatters := by
    rw [attempt_eq hp hleft hc]
    obtain ⟨l, hl, hown, htacs⟩ := h.linked tx g hg
    have hopen : w.isOpen l.tx = true := by rw [hown, isOpen, hg]; rfl
    have hserves : Tables.serves c.pagingArea l = true := by
      rcases hmatters with ⟨tac, htac, hin⟩ | hlate
      · have hpaged := mem_pagingArea (h.retained _ c hc) htac
        have hany : (l.tacs.any fun tac => c.pagingArea.contains tac) = true :=
          List.any_eq_true.mpr ⟨tac, htacs ▸ hin, by simpa using hpaged⟩
        rw [Tables.serves, hany, Bool.or_true]
      · have hnone : l.tacs.isEmpty = true := by rw [htacs, h.early tx g hg hlate]; rfl
        rw [Tables.serves, hnone, Bool.or_true, Bool.true_or]
    exact List.mem_map.mpr ⟨l, List.mem_filter.mpr ⟨hl, by simp [hserves, hopen]⟩, by rw [hown]⟩

end World

/-! ### Runs -/

/-- **Idle UEs are found.** In every run whose events heed the side condition, registration areas hold the
tracking areas, and every attempt at paging reaches every gNB that serves the UE's tracking area or is not
set up. -/
theorem found {w : World} (h : w.Started) (es : List Event)
    (hheeds : Runs.Along World.step Heeds w es) : Found (Runs.run World.step w es) :=
  (Runs.invariant_along (fun _ e hheeds hkept => World.Kept.step hkept e hheeds) hheeds h.kept).reachable

/-! ### Runs that find and runs that do not -/

/-- Two gNBs, and a UE that registers at the first. -/
def twoGnbs (second : List Tac) : List Event :=
  [.associate 0, .ngSetup 0 (some 1) (some [1, 2]), .associate 1, .ngSetup 1 (some 2) (some second),
    .register 1 0 1 "imsi-999700000000001" (some 1) 0,
    .revise 1
      { UeContext.new 1 .Registered (some "imsi-999700000000001") 0 with gutiTmsi := some 1 }]

/-- The UE goes idle, is paged and comes back at the second gNB, within its area. -/
def comesBack : List Event :=
  twoGnbs [2, 3] ++
    [.release 1 1, .page 1, .attempt 0, .comeBack 1 2 1 .serviceRequest 2 (some 2), .settle 2 1]

theorem started_empty : ({} : World).Started where
  gnbs _ := rfl
  holdings _ := rfl
  retained := rfl

theorem found_sample : Found (Runs.run World.step {} comesBack) := by
  refine found started_empty comesBack ⟨trivial, trivial, trivial, trivial, ?_, trivial, trivial, trivial,
    trivial, ?_, trivial, trivial⟩
  · change Fits _ _
    decide +kernel
  · intro c hc
    have harea : some c.registrationArea = some [1, 2] :=
      (congrArg (Option.map UeContext.registrationArea) hc).symm.trans (by decide +kernel)
    exact .inl (by rw [Option.some_inj.mp harea]; decide)

/-- The UE moves to the second gNB, outside its area, and goes idle there. -/
def movesOut : List Event :=
  twoGnbs [3] ++
    [.take 1, .settle 1 1, .arrive 1 2 (some 3) ([], 1), .release 1 1, .page 1]

/-- **Lost by a path switch.** After a path switch out of its area the UE is not paged where it went idle. -/
theorem not_found : ¬ ∀ es : List Event, Found (Runs.run World.step {} es) := by
  intro h
  let w := Runs.run World.step {} movesOut
  have hpage : w.pages[0]? = some { tmsi := 1 } := by decide +kernel
  have htac : (w.tables.retained.lookup 1).map UeContext.tac = some (some 3) := by decide +kernel
  have hgnb : w.gnbs 1 = some { tacs := [3], setUp := true } := by decide +kernel
  obtain ⟨c, hc, hcell⟩ := Option.map_eq_some_iff.mp htac
  have hpaged := (h movesOut).paged 0 _ hpage (by decide) c hc 1 _ hgnb
    (.inl ⟨3, hcell, List.mem_singleton_self 3⟩)
  have hreached : (w.attempt 0).1.map Prod.fst = [0] := by decide +kernel
  have hin : 1 ∈ (w.attempt 0).1.map Prod.fst := List.mem_map_of_mem hpaged
  rw [hreached] at hin
  exact absurd hin (by decide)

end Radian.Amf.Paging
