import Radian.Amf.Retransmission
import Radian.Announce.Basic

/-!
# The UE's configuration

The allowed NSSAI and the area restriction of one context, the Configuration Update Commands that carry
them and what has come of these: a command goes over the gNB to the UE and may be lost on either way, a
Complete goes back and may be lost too.  Commands are numbered; nobody looks at the numbers.

- `Command`, `Config` — a command on its way, the state.
- `Event`, `Config.step` — changes, expiries of T3555, deliveries and Completes.
- `CaughtUp` — while no command is outstanding the UE and the gNB have what the AMF has, and a Complete
  has acknowledged the command that it answers.
- `Heeds` — the side condition.
- `Kept`, `caught_up` — the invariant, and every run that heeds it is caught up.
-/

namespace Radian.Amf.ConfigUpdate

open Announce (Line Told Telling hear)
open Nas (Nas5gmmMessage Snssai)

/-! ### The state -/

structure Command where
  number : Nat
  cuc : Nas5gmmMessage
  areaRestriction : Option AreaRestriction
  deriving DecidableEq

/-- The allowed NSSAI in a command: an empty one is left out. -/
def Command.nssai (m : Command) : Option (List Snssai) :=
  match m.cuc with
  | .configurationUpdateCommand allowed _ _ => if allowed.isEmpty then none else some allowed
  | _ => none

structure Config where
  ue : Option UeContext
  /-- How many commands have been pushed. -/
  count : Nat := 0
  /-- The commands on their way, the first sent first. -/
  commands : List Command := []
  /-- The Completes on theirs, by the command they answer. -/
  completes : List Nat := []
  /-- The allowed NSSAI that the UE has last been told. -/
  nssai : Option (List Snssai)
  /-- The area restriction that the gNB has last been sent. -/
  area : Option AreaRestriction
  /-- For each Complete that found a command outstanding, the one it answers and the one it found. -/
  acknowledged : List (Nat × Nat) := []

namespace Config

/-- The command that is outstanding. -/
def outstanding (w : Config) : Option Command :=
  (w.ue.bind fun c => c.pendingConfigUpdate).map fun p =>
    { number := w.count, cuc := p.cuc, areaRestriction := p.areaRestriction }

/-- A context that has changed, and the command that says so, when it can be protected. -/
def announce (F : Functions) (cuc : Nas5gmmMessage) (areaRestriction : Option AreaRestriction)
    (c : UeContext) (w : Config) : Config :=
  match c.sec with
  | none => { w with ue := some c }
  | some sec =>
      { w with
        ue := some
          { c with
            sec := some (sec.protectDl F.algorithms F.nas Nas.Sht.INTEGRITY_CIPHERED cuc).2
            pendingConfigUpdate := some { cuc, areaRestriction, attempts := 1 } }
        count := w.count + 1
        commands := w.commands ++ [{ number := w.count + 1, cuc, areaRestriction }] }

end Config

/-! ### Events -/

/-- How far a command gets. -/
inductive Reach where
  | lost
  | gnb
  | ue
  deriving DecidableEq, Repr

inductive Event where
  | sdmDataChange (ueAmbr : Option UeAmbr) (allowedNssai : Option (List Snssai))
  | amPolicyUpdate (ueAmbr : FieldUpdate UeAmbr) (rfsp : FieldUpdate Nat)
      (areaRestriction : FieldUpdate AreaRestriction)
  | t3555
  /-- The first command on its way. -/
  | deliver (reach : Reach)
  /-- The first Complete on its way. -/
  | complete (arrives : Bool)
  /-- Another handler leaves the context as `c`, but for its configuration. -/
  | revise (c : UeContext)
  | leave
  deriving DecidableEq

variable (F : Functions)

/-- A context after a change, and the command that is pushed for it. -/
def changed (c : UeContext) : Event → UeContext × Option (Nas5gmmMessage × Option AreaRestriction)
  | .sdmDataChange ueAmbr allowedNssai =>
      match (c.changeAmbr ueAmbr).1.changeNssai allowedNssai with
      | (c, none) => (c, none)
      | (c, some narrowed) =>
          (c, some (.configurationUpdateCommand (c.allowedNssai.getD []) narrowed true, none))
  | .amPolicyUpdate ueAmbr rfsp areaRestriction =>
      let c := c.updatePolicy ueAmbr rfsp areaRestriction
      (c, some (.configurationUpdateCommand [] false true, c.areaRestriction))
  | .revise c' =>
      ({ c' with
          allowedNssai := c.allowedNssai, areaRestriction := c.areaRestriction
          pendingConfigUpdate := c.pendingConfigUpdate }, none)
  | _ => (c, none)

namespace Config

/-- A change of the context. -/
def change (e : Event) (w : Config) : Config :=
  match w.ue with
  | none => w
  | some c =>
      match changed c e with
      | (c, none) => { w with ue := some c }
      | (c, some (cuc, areaRestriction)) => w.announce F cuc areaRestriction c

/-- T3555 goes off. -/
def expire (w : Config) : Config :=
  match w.ue with
  | none => w
  | some c =>
      match c.expireT3555 F with
      | .stale => w
      | .resend _ _ c' => { w with ue := some c', commands := w.commands ++ w.outstanding.toList }
      | .exhausted => { w with ue := none }

def deliver (reach : Reach) (w : Config) : Config :=
  match w.commands with
  | [] => w
  | m :: commands =>
      match reach with
      | .lost => { w with commands }
      | .gnb => { w with commands, area := hear Command.areaRestriction m w.area }
      | .ue =>
          { w with
            commands
            area := hear Command.areaRestriction m w.area
            nssai := hear Command.nssai m w.nssai
            completes := w.completes ++ [m.number] }

/-- A Complete clears whatever is outstanding. -/
def complete (arrives : Bool) (w : Config) : Config :=
  match w.completes with
  | [] => w
  | n :: completes =>
      if arrives then
        { w with
          completes
          ue := w.ue.map fun c => { c with pendingConfigUpdate := none }
          acknowledged :=
            if w.outstanding.isSome then (n, w.count) :: w.acknowledged else w.acknowledged }
      else { w with completes }

def step (w : Config) : Event → Config
  | .t3555 => w.expire F
  | .deliver reach => w.deliver reach
  | .complete arrives => w.complete arrives
  | .leave => { w with ue := none }
  | e => w.change F e

/-- The UE and the gNB have what the AMF has, and nothing is on its way. -/
structure Started (w : Config) : Prop where
  pending : ∀ c, w.ue = some c → c.pendingConfigUpdate = none
  nssai : ∀ c, w.ue = some c → w.nssai = c.allowedNssai
  area : ∀ c, w.ue = some c → w.area = c.areaRestriction
  commands : w.commands = []
  completes : w.completes = []
  acknowledged : w.acknowledged = []

end Config

/-! ### Catching up -/

structure CaughtUp (w : Config) : Prop where
  nssai : ∀ c, w.ue = some c → c.pendingConfigUpdate = none → w.nssai = c.allowedNssai
  area : ∀ c, w.ue = some c → c.pendingConfigUpdate = none → w.area = c.areaRestriction
  acknowledged : ∀ a ∈ w.acknowledged, a.1 = a.2

/-- A change that is to be announced finds a security context.  Of the allowed NSSAI and the area
restriction its command carries each one, or the other side has been told it and no other is on its way.
A Complete that finds a command outstanding answers that command. -/
def Heeds (w : Config) (e : Event) : Prop :=
  match e with
  | .complete true => ∀ n completes, w.completes = n :: completes → w.outstanding.isSome → n = w.count
  | e => ∀ c, w.ue = some c → ∀ cuc areaRestriction,
      (changed c e).2 = some (cuc, areaRestriction) →
        let c' := (changed c e).1
        let m : Command := { number := w.count + 1, cuc, areaRestriction }
        c'.sec.isSome ∧
          (m.nssai.isSome ∨ Told Command.nssai c'.allowedNssai w.nssai w.commands) ∧
          (areaRestriction.isSome ∨
            Told Command.areaRestriction c'.areaRestriction w.area w.commands)

/-! ### The invariant -/

namespace Config

/-- The two directions between the AMF and the UE. -/
def line (w : Config) : Line Command :=
  { flight := w.commands, answers := w.completes, count := w.count, outstanding := w.outstanding }

/-- The invariant. -/
structure Kept (w : Config) : Prop where
  ordered : w.line.Ordered Command.number
  nssai : ∀ c, w.ue = some c → Telling Command.number Command.nssai c.allowedNssai w.nssai w.line
  area : ∀ c, w.ue = some c →
    Telling Command.number Command.areaRestriction c.areaRestriction w.area w.line
  acknowledged : ∀ a ∈ w.acknowledged, a.1 = a.2

variable {F} {w : Config} {c : UeContext}

theorem outstanding_eq (hue : w.ue = some c) :
    w.outstanding = c.pendingConfigUpdate.map fun p =>
      { number := w.count, cuc := p.cuc, areaRestriction := p.areaRestriction } := by
  rw [outstanding, hue]
  rfl

theorem Kept.upToDate (h : w.Kept) : CaughtUp w where
  nssai c hue hp := ((h.nssai c hue).quiet (by rw [line, outstanding_eq hue, hp]; rfl)).heard
  area c hue hp := ((h.area c hue).quiet (by rw [line, outstanding_eq hue, hp]; rfl)).heard
  acknowledged := h.acknowledged

/-- What leaves the line and the configuration alone. -/
theorem Kept.revise (h : w.Kept) (hue : w.ue = some c) {c' : UeContext}
    (hpending : c'.pendingConfigUpdate = c.pendingConfigUpdate)
    (hnssai : c'.allowedNssai = c.allowedNssai) (harea : c'.areaRestriction = c.areaRestriction) :
    Kept { w with ue := some c' } := by
  have hline : Config.line { w with ue := some c' } = w.line := by
    have hout : Config.outstanding { w with ue := some c' } = w.outstanding := by
      rw [outstanding_eq hue, ← hpending]
      rfl
    simp only [line, hout]
  constructor
  · exact hline ▸ h.ordered
  · intro c₁ hc₁
    cases hc₁
    rw [hline, hnssai]
    exact h.nssai c hue
  · intro c₁ hc₁
    cases hc₁
    rw [hline, harea]
    exact h.area c hue
  · exact h.acknowledged

theorem Kept.leave (h : w.Kept) : Kept { w with ue := none } where
  ordered := h.ordered.answer (List.Subset.refl _) fun _ hm => nomatch hm
  nssai _ hc := nomatch hc
  area _ hc := nomatch hc
  acknowledged := h.acknowledged

/-! ### Changes -/

theorem changed_of_none {e : Event} {c' : UeContext} (h : changed c e = (c', none)) :
    c'.pendingConfigUpdate = c.pendingConfigUpdate ∧ c'.allowedNssai = c.allowedNssai ∧
      c'.areaRestriction = c.areaRestriction := by
  cases e with
  | sdmDataChange ueAmbr allowedNssai =>
    have hambr : (c.changeAmbr ueAmbr).1.pendingConfigUpdate = c.pendingConfigUpdate ∧
        (c.changeAmbr ueAmbr).1.allowedNssai = c.allowedNssai ∧
        (c.changeAmbr ueAmbr).1.areaRestriction = c.areaRestriction := by
      obtain ⟨_, _, heq⟩ := c.changeAmbr_eq ueAmbr
      rw [heq]
      exact ⟨rfl, rfl, rfl⟩
    simp only [changed, UeContext.changeNssai] at h
    split at h
    · rename_i hsame
      split at hsame
      · cases hsame
        cases h
        exact hambr
      · split at hsame
        · cases hsame
          cases h
          exact hambr
        · cases hsame
    · cases h
  | revise c₁ =>
    cases h
    exact ⟨rfl, rfl, rfl⟩
  | amPolicyUpdate => cases h
  | _ =>
    cases h
    exact ⟨rfl, rfl, rfl⟩

theorem nssai_getD {number : Nat} {allowed : Option (List Snssai)} {narrowed acknowledge : Bool}
    {areaRestriction : Option AreaRestriction} {v : List Snssai}
    (h : Command.nssai ⟨number, .configurationUpdateCommand (allowed.getD []) narrowed acknowledge,
      areaRestriction⟩ = some v) : allowed = some v := by
  cases allowed with
  | none => cases h
  | some slices =>
    simp only [Command.nssai, Option.getD_some] at h
    split at h
    · cases h
    · exact h

/-- What a command carries is current. -/
theorem changed_fits {e : Event} {c' : UeContext} {cuc : Nas5gmmMessage}
    {areaRestriction : Option AreaRestriction}
    (h : changed c e = (c', some (cuc, areaRestriction))) (number : Nat) :
    (∀ v, Command.nssai ⟨number, cuc, areaRestriction⟩ = some v → c'.allowedNssai = some v) ∧
      ∀ v, areaRestriction = some v → c'.areaRestriction = some v := by
  cases e with
  | sdmDataChange ueAmbr allowedNssai =>
    simp only [changed] at h
    split at h
    · cases h
    · cases h
      exact ⟨fun v hv => nssai_getD hv, fun _ hv => (nomatch hv)⟩
  | amPolicyUpdate ueAmbr rfsp area =>
    cases h
    exact ⟨fun _ hv => (nomatch hv), fun _ hv => hv⟩
  | _ => cases h

/-- A command is pushed that carries what the other side has not been told. -/
theorem Kept.announce (h : w.Kept) {c' : UeContext} {cuc : Nas5gmmMessage}
    {areaRestriction : Option AreaRestriction} (hsec : c'.sec.isSome)
    (hnssai : ∀ v, Command.nssai ⟨w.count + 1, cuc, areaRestriction⟩ = some v →
      c'.allowedNssai = some v)
    (harea : ∀ v, areaRestriction = some v → c'.areaRestriction = some v)
    (htold : (Command.nssai ⟨w.count + 1, cuc, areaRestriction⟩).isSome ∨
      Told Command.nssai c'.allowedNssai w.nssai w.commands)
    (hsent : areaRestriction.isSome ∨
      Told Command.areaRestriction c'.areaRestriction w.area w.commands) :
    (w.announce F cuc areaRestriction c').Kept := by
  obtain ⟨sec, hsec⟩ := Option.isSome_iff_exists.mp hsec
  simp only [Config.announce, hsec]
  constructor
  · exact h.ordered.send rfl
  · intro c₁ hc₁
    cases hc₁
    exact Telling.send h.ordered hnssai (htold.imp_left Option.isSome_iff_exists.mp)
  · intro c₁ hc₁
    cases hc₁
    exact Telling.send h.ordered harea (hsent.imp_left Option.isSome_iff_exists.mp)
  · exact h.acknowledged

theorem Kept.change (h : w.Kept) (e : Event)
    (hheeds : ∀ c, w.ue = some c → ∀ cuc areaRestriction,
      (changed c e).2 = some (cuc, areaRestriction) →
        (changed c e).1.sec.isSome ∧
          ((Command.nssai ⟨w.count + 1, cuc, areaRestriction⟩).isSome ∨
            Told Command.nssai (changed c e).1.allowedNssai w.nssai w.commands) ∧
          (areaRestriction.isSome ∨
            Told Command.areaRestriction (changed c e).1.areaRestriction w.area w.commands)) :
    (w.change F e).Kept := by
  unfold Config.change
  cases hue : w.ue with
  | none => exact h
  | some c =>
    dsimp only
    have hheeds := hheeds c hue
    cases hchanged : changed c e with
    | mk c' pushed =>
      rw [hchanged] at hheeds
      cases pushed with
      | none =>
        obtain ⟨hpending, hnssai, harea⟩ := changed_of_none hchanged
        exact h.revise hue hpending hnssai harea
      | some command =>
        obtain ⟨cuc, areaRestriction⟩ := command
        obtain ⟨hsec, htold, hsent⟩ := hheeds cuc areaRestriction rfl
        obtain ⟨hnssai, harea⟩ := changed_fits hchanged (w.count + 1)
        exact h.announce hsec hnssai harea htold hsent

/-! ### Expiries, commands and Completes -/

theorem line_resend (hue : w.ue = some c) {p p' : PendingConfigUpdate}
    (hp : c.pendingConfigUpdate = some p) (c' : UeContext) (hp' : c'.pendingConfigUpdate = some p')
    (hcuc : p'.cuc = p.cuc) (harea : p'.areaRestriction = p.areaRestriction) :
    Config.line
        { w with
          ue := some c'
          commands := w.commands ++ [⟨w.count, p.cuc, p.areaRestriction⟩] } =
      w.line.resend ⟨w.count, p.cuc, p.areaRestriction⟩ := by
  simp [line, Line.resend, outstanding, hue, hp, hp', hcuc, harea]

theorem line_complete (completes : List Nat) (acknowledged : List (Nat × Nat)) :
    Config.line
        { w with
          completes, acknowledged
          ue := w.ue.map fun c => { c with pendingConfigUpdate := none } } =
      { w.line with answers := completes, outstanding := none } := by
  cases hue : w.ue <;> simp [line, outstanding, hue]

theorem Kept.expire (h : w.Kept) : (w.expire F).Kept := by
  unfold Config.expire
  cases hue : w.ue with
  | none => exact h
  | some c =>
    dsimp only
    unfold UeContext.expireT3555
    cases hp : c.pendingConfigUpdate with
    | none => exact h
    | some p =>
      dsimp only
      by_cases hfew : p.attempts < T3555_MAX_SENDS
      · rw [if_pos hfew]
        cases hsec : c.sec with
        | none => exact h
        | some sec =>
          have hout : w.outstanding = some ⟨w.count, p.cuc, p.areaRestriction⟩ := by
            rw [outstanding_eq hue, hp]
            rfl
          dsimp only
          rw [hout]
          have hline := line_resend hue hp
            { c with
              sec := some
                (sec.protectDl F.algorithms F.nas Nas.Sht.INTEGRITY_CIPHERED p.cuc).2
              pendingConfigUpdate := some { p with attempts := p.attempts + 1 } } rfl rfl rfl
          constructor
          · exact hline ▸ h.ordered.resend hout
          · intro c₁ hc₁
            cases hc₁
            exact hline ▸ (h.nssai c hue).resend hout
          · intro c₁ hc₁
            cases hc₁
            exact hline ▸ (h.area c hue).resend hout
          · exact h.acknowledged
      · rw [if_neg hfew]
        exact h.leave

theorem Kept.deliver (h : w.Kept) (reach : Reach) : (w.deliver reach).Kept := by
  unfold Config.deliver
  split
  · exact h
  · rename_i m commands hcommands
    have hanswers : ∀ n ∈ w.completes ++ [m.number], n ∈ w.completes ∨ n = m.number := by
      intro n hn
      exact (List.mem_append.mp hn).imp_right List.mem_singleton.mp
    cases reach with
    | lost =>
      exact ⟨h.ordered.leave hcommands fun _ => Or.inl,
        fun c hc => (h.nssai c hc).lose hcommands (List.Subset.refl _),
        fun c hc => (h.area c hc).lose hcommands (List.Subset.refl _), h.acknowledged⟩
    | gnb =>
      exact ⟨h.ordered.leave hcommands fun _ => Or.inl,
        fun c hc => (h.nssai c hc).lose hcommands (List.Subset.refl _),
        fun c hc => (h.area c hc).deliver h.ordered hcommands fun _ => Or.inl, h.acknowledged⟩
    | ue =>
      exact ⟨h.ordered.leave hcommands hanswers,
        fun c hc => (h.nssai c hc).deliver h.ordered hcommands hanswers,
        fun c hc => (h.area c hc).deliver h.ordered hcommands hanswers, h.acknowledged⟩

theorem Kept.complete (h : w.Kept) (arrives : Bool)
    (hright : arrives = true → ∀ n completes, w.completes = n :: completes → w.outstanding.isSome →
      n = w.count) : (w.complete arrives).Kept := by
  unfold Config.complete
  split
  · exact h
  · rename_i n completes hcompletes
    have hfewer : completes ⊆ w.line.answers := by
      change completes ⊆ w.completes
      rw [hcompletes]
      exact List.subset_cons_self n completes
    split
    · rename_i harrives
      have hanswered : n ∈ w.line.answers := by
        change n ∈ w.completes
        rw [hcompletes]
        exact List.mem_cons_self
      have hcount : w.line.outstanding ≠ none → n = w.line.count := fun hout =>
        hright harrives n completes hcompletes (Option.isSome_iff_ne_none.mpr hout)
      have hline := line_complete (w := w) completes
        (if w.outstanding.isSome then (n, w.count) :: w.acknowledged else w.acknowledged)
      constructor
      · rw [hline]
        exact h.ordered.answer hfewer fun _ hm => (nomatch hm)
      · intro c' hc'
        obtain ⟨c, hc, rfl⟩ := Option.map_eq_some_iff.mp hc'
        rw [hline]
        exact (h.nssai c hc).answer hanswered hcount
      · intro c' hc'
        obtain ⟨c, hc, rfl⟩ := Option.map_eq_some_iff.mp hc'
        rw [hline]
        exact (h.area c hc).answer hanswered hcount
      · intro a ha
        dsimp only at ha
        split at ha
        · rename_i hout
          obtain rfl | ha := List.mem_cons.mp ha
          · exact hright harrives n completes hcompletes hout
          · exact h.acknowledged a ha
        · exact h.acknowledged a ha
    · exact ⟨h.ordered.answer hfewer fun _ hm => hm, fun c hc => (h.nssai c hc).forget hfewer,
        fun c hc => (h.area c hc).forget hfewer, h.acknowledged⟩

theorem Started.kept (h : w.Started) : w.Kept := by
  have hout : w.outstanding = none := by
    cases hue : w.ue with
    | none => rw [outstanding, hue]; rfl
    | some c => rw [outstanding_eq hue, h.pending c hue]; rfl
  have hcommands : w.line.flight = [] := h.commands
  have hcompletes : w.line.answers = [] := h.completes
  have hnone : w.line.outstanding = none := hout
  have htelling : ∀ {α : Type} (view : Command → Option α) (current heard : Option α),
      heard = current → Telling Command.number view current heard w.line := by
    intro α view current heard hheard
    have htold : Told view current heard w.line.flight :=
      ⟨hheard, fun m hm => by rw [hcommands] at hm; cases hm⟩
    constructor
    · exact fun _ => htold
    · exact fun m hm => by rw [hnone] at hm; cases hm
    · exact fun m hm => by rw [hnone] at hm; cases hm
    · exact fun m hm => by rw [hnone] at hm; cases hm
    · exact fun _ => htold
  constructor
  · constructor
    · rw [hcommands]; exact List.Pairwise.nil
    · rw [hcommands]; exact fun _ hm => (nomatch hm)
    · rw [hcompletes]; exact fun _ hm => (nomatch hm)
    · rw [hnone]; exact fun _ hm => (nomatch hm)
  · exact fun c hc => htelling _ _ _ (h.nssai c hc)
  · exact fun c hc => htelling _ _ _ (h.area c hc)
  · rw [h.acknowledged]; exact fun _ hm => (nomatch hm)

/-- One event. -/
theorem Kept.step (h : w.Kept) (e : Event) (hheeds : Heeds w e) : (w.step F e).Kept := by
  cases e with
  | sdmDataChange ueAmbr allowedNssai => exact h.change _ hheeds
  | amPolicyUpdate ueAmbr rfsp areaRestriction => exact h.change _ hheeds
  | t3555 => exact h.expire
  | deliver reach => exact h.deliver reach
  | complete arrives =>
    refine h.complete arrives fun harrives => ?_
    subst harrives
    exact hheeds
  | revise c => exact h.change (F := F) _ hheeds
  | leave => exact h.leave

end Config

/-! ### The handlers -/

section Handlers

/-- What the machine looks at. -/
def configuration (c : UeContext) :
    Option (List Snssai) × Option AreaRestriction × Option PendingConfigUpdate :=
  (c.allowedNssai, c.areaRestriction, c.pendingConfigUpdate)

variable {F : Functions} {amfUeId : AmfUeId} {w : Config}
variable {X : Type} {O : Outside Association Tables Mark Call Call.Answer X}
variable {allow : Mark → Association → Tables → X → Prop} {l : Association} {t : Tables} {x : X}
variable {before : Option (Option (List Snssai) × Option AreaRestriction × Option PendingConfigUpdate)}

/-- What a command that is tracked leaves. -/
theorem before_pushTrackedConfigUpdate (cuc : Nas5gmmMessage) (areaRestriction : Option AreaRestriction)
    {c : UeContext} (hc : l.ues.lookup amfUeId = some c) (w : Config) :
    Proc.before O allow (pushTrackedConfigUpdate F amfUeId cuc areaRestriction)
      (fun _ l' _ _ => (l'.ues.lookup amfUeId).map configuration =
        (w.announce F cuc areaRestriction c).ue.map configuration) l t x := by
  simp only [pushTrackedConfigUpdate, getUe, Proc.wp_bind, Proc.wp_look, hc]
  cases hsec : c.sec with
  | none => simp [Config.announce, hsec, hc]
  | some sec => simp [Config.announce, hsec, hc, modifyUe, arm]

theorem before_nudge (c : UeContext) (h : (l.ues.lookup amfUeId).map configuration = before) :
    Proc.before O allow (nudge F amfUeId c)
      (fun _ l' _ _ => (l'.ues.lookup amfUeId).map configuration = before) l t x := by
  unfold nudge
  cases c.sec with
  | none => exact h
  | some sec =>
    simp only [modifyUe, Proc.wp_bind, Proc.wp_changeLocal, Proc.wp_pure]
    rw [ues_modify, ← h]
    cases l.ues.lookup amfUeId <;> rfl

/-- A release leaves the configuration alone. -/
theorem before_commandReleases (cause : UInt8) (psis : List UInt8)
    (h : (l.ues.lookup amfUeId).map configuration = before) :
    Proc.before O allow (commandReleases F amfUeId cause psis)
      (fun _ l' _ _ => (l'.ues.lookup amfUeId).map configuration = before) l t x := by
  induction psis generalizing l t with
  | nil => exact h
  | cons psi rest ih =>
    simp only [commandReleases, getUe, Proc.wp_bind, Proc.wp_look]
    cases hc : l.ues.lookup amfUeId with
    | none => exact h
    | some c =>
      dsimp only
      split
      · rw [Proc.wp_bind]
        simp only [modifyUe, arm, Proc.wp_bind, Proc.wp_changeLocal, Proc.wp_look, Proc.wp_change]
        refine ih ?_
        rw [ues_modify, hc, ← h, hc]
        rfl
      · exact ih h

theorem before_onNetworkRelease (cause : UInt8) (psis : List UInt8)
    (h : (l.ues.lookup amfUeId).map configuration = before) :
    Proc.before O allow (onNetworkRelease F amfUeId psis cause)
      (fun _ l' _ _ => (l'.ues.lookup amfUeId).map configuration = before) l t x := by
  simp only [onNetworkRelease, getUe, Proc.wp_bind, Proc.wp_look]
  cases l.ues.lookup amfUeId with
  | none => exact h
  | some c =>
    dsimp only
    split
    · exact h
    · exact before_commandReleases cause psis h

/-- Run alone, a handler leaves the configuration that the machine has after an event. -/
def Follows (F : Functions) (amfUeId : AmfUeId) (p : AmfM (List Downlink)) (e : Event)
    (w : Config) : Prop :=
  ∀ {X : Type} (O : Outside Association Tables Mark Call Call.Answer X)
    (allow : Mark → Association → Tables → X → Prop) (l : Association) (t : Tables) (x : X),
    l.ues.lookup amfUeId = w.ue →
      Proc.before O allow p (fun _ l' _ _ => (l'.ues.lookup amfUeId).map configuration =
        (w.step F e).ue.map configuration) l t x

theorem follows_onAmPolicyUpdate (ueAmbr : FieldUpdate UeAmbr) (rfsp : FieldUpdate Nat)
    (areaRestriction : FieldUpdate AreaRestriction) :
    Follows F amfUeId (onAmPolicyUpdate F amfUeId ueAmbr rfsp areaRestriction)
      (.amPolicyUpdate ueAmbr rfsp areaRestriction) w := by
  intro X O allow l t x hue
  simp only [onAmPolicyUpdate, getUe, Config.step, Config.change, ← hue, Proc.wp_bind, Proc.wp_look]
  cases hc : l.ues.lookup amfUeId with
  | none => simpa [hc] using hue.symm.trans hc
  | some c =>
    simp only [changed, Proc.wp_bind, insertUe, Proc.wp_changeLocal]
    exact before_pushTrackedConfigUpdate _ _ (ues_insert _ l) w

theorem follows_onSdmDataChange (ueAmbr : Option UeAmbr) (allowedNssai : Option (List Snssai)) :
    Follows F amfUeId (onSdmDataChange F amfUeId ueAmbr allowedNssai)
      (.sdmDataChange ueAmbr allowedNssai) w := by
  intro X O allow l t x hue
  simp only [onSdmDataChange, getUe, Config.step, Config.change, ← hue, Proc.wp_bind, Proc.wp_look]
  cases hc : l.ues.lookup amfUeId with
  | none => simpa [hc] using hue.symm.trans hc
  | some c =>
    dsimp only
    cases hnssai : (c.changeAmbr ueAmbr).1.changeNssai allowedNssai with
    | mk c' nssaiChanged =>
      have hinsert : ((l.insert amfUeId c').ues.lookup amfUeId).map configuration =
          some (configuration c') := by
        rw [ues_insert]
        rfl
      simp only [changed, hnssai, Proc.wp_bind, insertUe, Proc.wp_changeLocal]
      cases nssaiChanged with
      | none =>
        dsimp only
        split
        · exact hinsert
        · rw [Proc.wp_bind]
          exact before_nudge c' hinsert
      | some narrowed =>
        rw [if_neg (by simp), Proc.wp_bind]
        refine Proc.before_mono (fun _ l₁ t₁ x₁ hpushed => ?_)
          (before_pushTrackedConfigUpdate _ _ (ues_insert c' l) w)
        rw [Proc.wp_bind]
        exact before_onNetworkRelease _ _ hpushed

theorem follows_onT3555Expiry : Follows F amfUeId (onT3555Expiry F amfUeId) .t3555 w := by
  intro X O allow l t x hue
  simp only [onT3555Expiry, onExpiry, getUe, Config.step, Config.expire, ← hue, Proc.wp_bind,
    Proc.wp_look]
  cases hc : l.ues.lookup amfUeId with
  | none => simpa [hc] using hue.symm.trans hc
  | some c =>
    dsimp only
    cases c.expireT3555 F with
    | stale => simp [hc, ← hue]
    | resend nas area c' => simp [insertUe, arm]
    | exhausted =>
      refine Proc.before_mono (fun _ l' _ _ hgone => ?_) (before_implicitDeregister l t x)
      rw [hgone]

theorem follows_configurationUpdateComplete (hcompletes : w.completes ≠ []) :
    Follows F amfUeId (dispatchUplinkNas F amfUeId .configurationUpdateComplete) (.complete true) w := by
  intro X O allow l t x hue
  cases hw : w.completes with
  | nil => exact absurd hw hcompletes
  | cons n completes => simp [dispatchUplinkNas, modifyUe, Config.step, Config.complete, hw, hue]

end Handlers

/-! ### Runs -/

/-- **The configuration catches up.** In every run whose events heed the side condition, the UE and the gNB
have what the AMF has whenever no command is outstanding, and no Complete has been taken for another. -/
theorem caught_up {F : Functions} {w : Config} (h : w.Started) (es : List Event)
    (hheeds : Runs.Along (Config.step F) Heeds w es) : CaughtUp (Runs.run (Config.step F) w es) :=
  (Runs.invariant_along (fun _ e hheeds hkept => Config.Kept.step hkept e hheeds) hheeds
    h.kept).upToDate

/-- A registered UE; everybody has its configuration. -/
def settled : Config :=
  { ue := some
      { commandedUe with
        state := .Registered, sec := some sampleSec, allowedNssai := some [(1, none)]
        areaRestriction := some ([1], []) }
    nssai := some [(1, none)]
    area := some ([1], []) }

theorem started_settled : settled.Started where
  pending := by rintro c ⟨⟩; rfl
  nssai := by rintro c ⟨⟩; rfl
  area := by rintro c ⟨⟩; rfl
  commands := rfl
  completes := rfl
  acknowledged := rfl

def narrow : Event := .sdmDataChange none (some [(2, none)])

def restrict : Event := .amPolicyUpdate .keep .keep (.set ([2], []))

/-- The first command is lost between the gNB and the UE, the second is acknowledged. -/
def oneChange : List Event := [narrow, .deliver .gnb, .t3555, .deliver .ue, .complete true]

theorem caught_up_sample :
    CaughtUp (Runs.run (Config.step commandFunctions) settled oneChange) := by
  refine caught_up started_settled oneChange ⟨?_, ?_, ?_, ?_, ?_, trivial⟩
  · rintro c ⟨⟩ cuc area ⟨⟩
    exact ⟨rfl, Or.inl rfl, Or.inr ⟨rfl, fun m hm => nomatch hm⟩⟩
  · rintro c - cuc area ⟨⟩
  · rintro c - cuc area ⟨⟩
  · rintro c - cuc area ⟨⟩
  · rintro n completes ⟨⟩ -
    rfl

/-- The command with the NSSAI is lost, the next one takes its place and is acknowledged. -/
def narrowLost : List Event := [narrow, .deliver .lost, restrict, .deliver .ue, .complete true]

/-- The same, the other way round. -/
def restrictLost : List Event := [restrict, .deliver .lost, narrow, .deliver .ue, .complete true]

/-- A command is sent twice and acknowledged twice, the second time after the next has been pushed. -/
def twoCompletes : List Event :=
  [narrow, .deliver .ue, .t3555, .deliver .ue, .complete true, restrict, .complete true]

/-- **Left behind.** A command that takes the place of one that is lost leaves the UE without the NSSAI, or
the gNB without the area restriction, and a Complete that comes again acknowledges another command. -/
theorem not_caught_up :
    (¬ ∀ (F : Functions) (w : Config) (es : List Event), w.Started → ∀ c,
      (Runs.run (Config.step F) w es).ue = some c → c.pendingConfigUpdate = none →
        (Runs.run (Config.step F) w es).nssai = c.allowedNssai) ∧
    (¬ ∀ (F : Functions) (w : Config) (es : List Event), w.Started → ∀ c,
      (Runs.run (Config.step F) w es).ue = some c → c.pendingConfigUpdate = none →
        (Runs.run (Config.step F) w es).area = c.areaRestriction) ∧
    ¬ ∀ (F : Functions) (w : Config) (es : List Event), w.Started →
      ∀ a ∈ (Runs.run (Config.step F) w es).acknowledged, a.1 = a.2 := by
  refine ⟨fun h => ?_, fun h => ?_, fun h => ?_⟩
  · have hnssai := h commandFunctions settled narrowLost started_settled _ rfl rfl
    exact absurd hnssai (by decide +kernel)
  · have harea := h commandFunctions settled restrictLost started_settled _ rfl rfl
    exact absurd harea (by decide +kernel)
  · have hsame := h commandFunctions settled twoCompletes started_settled (1, 2)
      (List.contains_iff_mem.mp (by decide +kernel))
    exact absurd hsame (by decide)

end Radian.Amf.ConfigUpdate
