import Radian.Amf.Retransmission
import Radian.Relay.Basic

/-!
# Changes of the AM policy

One AM policy association: the PCF decides anew, and tells the AMF what is different.  The AMF passes
that to the association that holds the UE's context, or keeps it with the context of an idle UE.

- `PolicyUpdate`, `PolicyAssociation.diff` — the partial update between two decisions.
- `readUpdate`, `amPolicyNotify` — what the AMF makes of one.
- `Place`, `World`, `Event`, `World.step` — the context on its way between associations and the retained
  store, the updates at the PCF, the notifications and the commands, one await at a time.
- `Agreed` — the context has the policy that the PCF has stored once nothing is under way, and the
  deltas have been applied in the order in which they were computed.
- `Answered`, `Heeds` — what is promised of the notifications, and the side condition.
- `Kept`, `agreed` — the invariant, and every run that heeds it agrees.
-/

namespace Radian.Amf

open Relay (Leads Accounted)

/-! ### Partial updates -/

/-- The delta that carries `prev` to `next`. -/
def FieldUpdate.diff {T : Type} [DecidableEq T] (prev next : Option T) : FieldUpdate T :=
  if prev = next then .keep
  else match next with
    | some v => .set v
    | none => .clear

theorem FieldUpdate.apply_diff {T : Type} [DecidableEq T] (prev next : Option T) :
    (FieldUpdate.diff prev next).apply prev = next := by
  unfold FieldUpdate.diff
  split
  · rename_i hsame
    exact hsame
  · cases next <;> rfl

/-- The body of an UpdateNotify. -/
structure PolicyUpdate where
  rfsp : FieldUpdate Nat := .keep
  ueAmbr : FieldUpdate (String × String) := .keep
  servAreaRes : FieldUpdate ServiceAreaRestriction := .keep
  deriving DecidableEq, Repr

/-- What carries a decision to the next; `none` when they are the same. -/
def PolicyAssociation.diff (prev next : PolicyAssociation) : Option PolicyUpdate :=
  let update : PolicyUpdate :=
    { rfsp := .diff prev.rfsp next.rfsp
      ueAmbr := .diff prev.ueAmbr next.ueAmbr
      servAreaRes := .diff prev.servAreaRes next.servAreaRes }
  if update = {} then none else some update

namespace FieldUpdate

variable {T U : Type}

/-- A value that cannot be read is refused. -/
def read (f : T → Option U) : FieldUpdate T → Option (FieldUpdate U)
  | .keep => some .keep
  | .clear => some .clear
  | .set v => (f v).map .set

/-- A value that cannot be read is none. -/
def readOrClear (f : T → Option U) : FieldUpdate T → FieldUpdate U
  | .keep => .keep
  | .clear => .clear
  | .set v =>
      match f v with
      | some u => .set u
      | none => .clear

variable [DecidableEq T] {f : T → Option U} {prev next : Option T}

theorem apply_read_diff {u : FieldUpdate U} (h : (diff prev next).read f = some u) :
    u.apply (prev.bind f) = next.bind f := by
  unfold diff at h
  by_cases hsame : prev = next
  · rw [if_pos hsame] at h
    cases h
    rw [hsame]
    rfl
  · rw [if_neg hsame] at h
    cases next with
    | none =>
      cases h
      rfl
    | some v =>
      obtain ⟨w, hw, rfl⟩ := Option.map_eq_some_iff.mp h
      exact hw.symm

theorem apply_readOrClear_diff : ((diff prev next).readOrClear f).apply (prev.bind f) = next.bind f := by
  unfold diff
  by_cases hsame : prev = next
  · rw [if_pos hsame, hsame]
    rfl
  · rw [if_neg hsame]
    cases next with
    | none => rfl
    | some v =>
      dsimp only [readOrClear, Option.bind_some]
      cases f v <;> rfl

theorem diff_eq_keep : diff prev next = .keep ↔ prev = next := by
  unfold diff
  by_cases hsame : prev = next
  · simp [hsame]
  · rw [if_neg hsame]
    cases next <;> simp [hsame]

end FieldUpdate

/-- The delta in a notification; `none` for a UE-AMBR that cannot be read. -/
def readUpdate (policy : PolicyUpdate) : Option PendingAmPolicy :=
  (policy.ueAmbr.read ambrToBps).map fun ueAmbr =>
    { ueAmbr, rfsp := policy.rfsp
      areaRestriction := policy.servAreaRes.readOrClear areaRestrictionTacs }

/-! ### Notifications -/

inductive StatusCode where
  | noContent
  | accepted
  | badRequest
  | notFound
  deriving DecidableEq, Repr

/-- What a notification comes to. -/
structure Notified where
  status : StatusCode
  /-- The command for the association on this channel, about the context under this id. -/
  command : Option (Channel × AmfUeId × PendingAmPolicy) := none
  /-- The 5G-TMSI that is paged. -/
  paging : Option Tmsi := none
  tables : Tables

/-- An UpdateNotify for a SUPI: to the association, or else to the retained context. -/
def amPolicyNotify (isOpen : Channel → Bool) (supi : String) (policy : PolicyUpdate) (t : Tables) :
    Notified :=
  match readUpdate policy with
  | none => { status := .badRequest, tables := t }
  | some delta =>
      match (t.ueDirectory.lookup supi).filter fun e => isOpen e.2 with
      | some (amfUeId, tx) =>
          { status := .noContent, command := some (tx, amfUeId, delta), tables := t }
      | none =>
          match t.retained.find? fun c => c.suci == some supi with
          | some (tmsi, _) =>
              { status := .accepted
                paging := some tmsi
                tables := { t with
                  retained := t.retained.modify tmsi fun c =>
                    { c with pendingAmPolicy := some delta } } }
          | none => { status := .notFound, tables := t }

/-! ### The policy of a context -/

/-- The UE-AMBR of the PCF, the RFSP index and the area restriction. -/
abbrev Policy : Type := Option UeAmbr × Option Nat × Option AreaRestriction

def UeContext.policy (c : UeContext) : Policy := (c.pcfUeAmbr, c.rfsp, c.areaRestriction)

/-- What a decision says to the AMF. -/
def PolicyAssociation.policy (d : PolicyAssociation) : Policy :=
  (d.ueAmbr.bind ambrToBps, d.rfsp, d.servAreaRes.bind areaRestrictionTacs)

def PendingAmPolicy.act (d : PendingAmPolicy) (v : Policy) : Policy :=
  (d.ueAmbr.apply v.1, d.rfsp.apply v.2.1, d.areaRestriction.apply v.2.2)

/-- A context after a delta. -/
def UeContext.applyPolicy (d : PendingAmPolicy) (c : UeContext) : UeContext :=
  c.updatePolicy d.ueAmbr d.rfsp d.areaRestriction

theorem diff_eq_some {prev next : PolicyAssociation} {update : PolicyUpdate}
    (h : prev.diff next = some update) :
    update =
      { rfsp := .diff prev.rfsp next.rfsp
        ueAmbr := .diff prev.ueAmbr next.ueAmbr
        servAreaRes := .diff prev.servAreaRes next.servAreaRes } := by
  simp only [PolicyAssociation.diff] at h
  split at h
  · cases h
  · exact (Option.some_inj.mp h).symm

/-- **A delta fits its base.** -/
theorem act_readUpdate_diff {prev next : PolicyAssociation} {update : PolicyUpdate}
    (hdiff : prev.diff next = some update) {d : PendingAmPolicy} (hread : readUpdate update = some d) :
    d.act prev.policy = next.policy := by
  rw [diff_eq_some hdiff] at hread
  obtain ⟨ueAmbr, hambr, rfl⟩ := Option.map_eq_some_iff.mp hread
  have hambr := FieldUpdate.apply_read_diff hambr
  have hrfsp := FieldUpdate.apply_diff prev.rfsp next.rfsp
  exact Prod.ext hambr (Prod.ext hrfsp FieldUpdate.apply_readOrClear_diff)

/-- Decisions that differ have a delta between them. -/
theorem diff_of_ne {prev next : PolicyAssociation} (hne : next ≠ prev) :
    ∃ update, prev.diff next = some update := by
  simp only [PolicyAssociation.diff]
  split
  · rename_i hsame
    simp only [PolicyUpdate.mk.injEq, FieldUpdate.diff_eq_keep] at hsame
    obtain ⟨hrfsp, hambr, harea⟩ := hsame
    refine absurd ?_ hne
    cases prev
    cases next
    simp_all
  · exact ⟨_, rfl⟩

end Radian.Amf

namespace Radian.Amf.AmPolicy

open Relay (Leads Accounted)

/-! ### The system -/

/-- Where the context is. -/
inductive Place where
  /-- With the association that the directory names. -/
  | connected (c : UeContext)
  /-- Taken over by another association, while the directory still names the first. -/
  | moving (c : UeContext)
  | idle (c : UeContext)
  /-- Taken out of the retained store, and not in the directory yet. -/
  | returning (c : UeContext) (held : Option PendingAmPolicy)
  /-- In the directory, while the handler that resumes it is not done. -/
  | resuming (c : UeContext) (held : Option PendingAmPolicy)
  deriving DecidableEq

namespace Place

def ue : Place → UeContext
  | connected c | moving c | idle c | returning c _ | resuming c _ => c

/-- The delta that awaits the UE's return. -/
def held : Place → Option PendingAmPolicy
  | connected _ | moving _ => none
  | idle c => c.pendingAmPolicy
  | returning _ held | resuming _ held => held

/-- Whether a notification finds an association. -/
def addressed : Place → Bool
  | connected _ | moving _ | resuming .. => true
  | idle _ | returning .. => false

end Place

structure World where
  /-- The decision that the PCF has stored. -/
  stored : PolicyAssociation
  /-- The updates at the PCF that await the decision, by the decision they found. -/
  updates : List PolicyAssociation := []
  /-- The notifications on their way to the AMF. -/
  notices : List PolicyUpdate := []
  place : Place
  /-- How often the UE's context has come to an association. -/
  connection : Nat := 0
  /-- The commands to associations, each for a connection. -/
  queue : List (Nat × PendingAmPolicy) := []
  /-- The deltas that have been computed, and those that have been applied. -/
  computed : List PolicyUpdate := []
  applied : List PendingAmPolicy := []

inductive Event where
  /-- An update begins. -/
  | trigger
  /-- An update goes on with a decision. -/
  | decide (i : Nat) (fresh : PolicyAssociation)
  /-- A notification reaches the AMF. -/
  | notify (i : Nat)
  /-- An association takes the first command. -/
  | process
  | release
  | comeBack
  | address
  /-- The handler that resumes the context is done. -/
  | settle
  /-- Another association takes the context over. -/
  | take
  | arrive
  /-- Another handler leaves the context as `c`, but for the policy. -/
  | revise (c : UeContext)
  deriving DecidableEq

namespace World

/-- The update stores the decision, and tells the AMF what is different. -/
def decide (i : Nat) (fresh : PolicyAssociation) (w : World) : World :=
  match w.updates[i]? with
  | none => w
  | some prev =>
      let w := { w with updates := w.updates.eraseIdx i }
      if fresh = prev then w
      else
        match prev.diff fresh with
        | none => { w with stored := fresh }
        | some delta =>
            { w with
              stored := fresh
              notices := w.notices ++ [delta]
              computed := w.computed ++ [delta] }

/-- The AMF has read a delta. -/
def accept (d : PendingAmPolicy) (w : World) : World :=
  match w.place with
  | .idle c => { w with place := .idle { c with pendingAmPolicy := some d } }
  | .returning .. => w
  | .connected _ | .moving _ | .resuming .. => { w with queue := w.queue ++ [(w.connection, d)] }

def notify (i : Nat) (w : World) : World :=
  match w.notices[i]? with
  | none => w
  | some policy =>
      let w := { w with notices := w.notices.eraseIdx i }
      match readUpdate policy with
      | none => w
      | some d => w.accept d

/-- A command that does not find the context is dropped; one that finds its handler at work waits. -/
def process (w : World) : World :=
  match w.queue with
  | [] => w
  | (connection, d) :: queue =>
      match w.place with
      | .connected c =>
          if connection = w.connection then
            { w with queue, place := .connected (c.applyPolicy d), applied := w.applied ++ [d] }
          else { w with queue }
      | .resuming .. => if connection = w.connection then w else { w with queue }
      | _ => { w with queue }

/-- What the handler that resumes the context does last. -/
def settle (w : World) : World :=
  match w.place with
  | .resuming c held =>
      { w with
        place := .connected (held.elim c fun d => c.applyPolicy d)
        applied := w.applied ++ held.toList }
  | _ => w

/-- The context goes from place to place. -/
def move (w : World) : Event → World
  | .release =>
      match w.place with
      | .connected c => { w with place := .idle c }
      | _ => w
  | .comeBack =>
      match w.place with
      | .idle c => { w with place := .returning { c with pendingAmPolicy := none } c.pendingAmPolicy }
      | _ => w
  | .address =>
      match w.place with
      | .returning c held => { w with place := .resuming c held, connection := w.connection + 1 }
      | _ => w
  | .take =>
      match w.place with
      | .connected c => { w with place := .moving c }
      | _ => w
  | .arrive =>
      match w.place with
      | .moving c => { w with place := .connected c, connection := w.connection + 1 }
      | _ => w
  | _ => w

end World

/-- Another handler has been at work on the context. -/
def Place.revise (c' : UeContext) : Place → Place
  | .connected c => .connected (keep c)
  | .moving c => .moving (keep c)
  | .idle c => .idle (keep c)
  | .returning c held => .returning (keep c) held
  | .resuming c held => .resuming (keep c) held
where
  keep (c : UeContext) : UeContext :=
    { c' with
      pcfUeAmbr := c.pcfUeAmbr, rfsp := c.rfsp, areaRestriction := c.areaRestriction
      pendingAmPolicy := c.pendingAmPolicy }

namespace World

def step (w : World) : Event → World
  | .trigger => { w with updates := w.updates ++ [w.stored] }
  | .decide i fresh => w.decide i fresh
  | .notify i => w.notify i
  | .process => w.process
  | .settle => w.settle
  | .revise c => { w with place := w.place.revise c }
  | e => w.move e

/-- The deltas that the AMF has accepted and not applied yet. -/
def waiting (w : World) : List PendingAmPolicy := w.place.held.toList ++ w.queue.map fun e => e.2

/-- A registered UE, and a PCF that has decided once. -/
structure Started (w : World) : Prop where
  place : ∃ c, w.place = .connected c ∧ c.policy = w.stored.policy ∧ c.pendingAmPolicy = none
  updates : w.updates = []
  notices : w.notices = []
  queue : w.queue = []
  computed : w.computed = []
  applied : w.applied = []

end World

/-! ### Agreement -/

structure Agreed (w : World) : Prop where
  policy : ∀ c, w.place = .connected c → w.notices = [] → w.queue = [] → c.policy = w.stored.policy
  /-- No delta is lost, and none overtakes another. -/
  lossless : Accounted (w.computed.map readUpdate) w.applied w.waiting (w.notices.map readUpdate)

/-- Every notification is answered 202 or 204. -/
def Answered (w : World) : Event → Prop
  | .notify i => ∀ policy, w.notices[i]? = some policy →
      (readUpdate policy).isSome ∧ ∀ c held, w.place ≠ .returning c held
  | _ => True

/-- An update that has another decision finds the one stored that it began with.  Notifications arrive in
their order, none while the context is taken over, and an idle UE's finds no delta that is held.  The
context does not leave an association that has a command for it. -/
def Heeds (w : World) : Event → Prop
  | .decide i fresh => ∀ prev, w.updates[i]? = some prev → fresh ≠ prev → prev = w.stored
  | .notify i => w.notices[i]? ≠ none →
      i = 0 ∧ (∀ c, w.place ≠ .moving c) ∧ ∀ c, w.place = .idle c → c.pendingAmPolicy = none
  | .release | .take => ∀ c, w.place = .connected c → w.queue = []
  | _ => True

/-! ### The invariant -/

namespace World

structure Kept (w : World) : Prop where
  leads : Leads PendingAmPolicy.act w.place.ue.policy
    (w.waiting.map some ++ w.notices.map readUpdate) w.stored.policy
  lossless : Accounted (w.computed.map readUpdate) w.applied w.waiting (w.notices.map readUpdate)
  /-- Every command is for the connection the context has. -/
  present : ∀ e ∈ w.queue, e.1 = w.connection
  queue : w.place.addressed = false ∨ (∃ c, w.place = .moving c) → w.queue = []
  /-- Only an idle UE's context holds a delta. -/
  free : (∀ c, w.place ≠ .idle c) → w.place.ue.pendingAmPolicy = none

variable {w : World}

theorem Kept.agrees (h : w.Kept) : Agreed w where
  policy c hplace hnotices hqueue := by
    have hleads := h.leads
    simp only [waiting, hplace, hnotices, hqueue] at hleads
    exact hleads
  lossless := h.lossless

/-- What leaves the policy, the deltas and the place alone. -/
theorem Kept.same (h : w.Kept) (updates : List PolicyAssociation) : Kept { w with updates } :=
  ⟨h.leads, h.lossless, h.present, h.queue, h.free⟩

theorem Kept.decide (h : w.Kept) {i : Nat} {fresh : PolicyAssociation}
    (hheeds : Heeds w (.decide i fresh)) : (w.decide i fresh).Kept := by
  unfold World.decide
  cases hprev : w.updates[i]? with
  | none => exact h
  | some prev =>
    dsimp only
    by_cases hsame : fresh = prev
    · rw [if_pos hsame]
      exact h.same _
    · rw [if_neg hsame]
      obtain rfl : prev = w.stored := hheeds prev hprev hsame
      obtain ⟨delta, hdelta⟩ := diff_of_ne hsame
      rw [hdelta]
      constructor
      · have hsnoc := h.leads.snoc fun d hd => act_readUpdate_diff hdelta hd
        rw [List.append_assoc] at hsnoc
        rw [List.map_append]
        exact hsnoc
      · rw [List.map_append, List.map_append]
        exact h.lossless.send
      · exact h.present
      · exact h.queue
      · exact h.free

/-- A delta that the AMF has read waits behind the others. -/
theorem Kept.accept (h : w.Kept) {policy : PolicyUpdate} {notices : List PolicyUpdate}
    (hnotices : w.notices = policy :: notices) {d : PendingAmPolicy} (hread : readUpdate policy = some d)
    (hmoving : ∀ c, w.place ≠ .moving c) (hreturning : ∀ c held, w.place ≠ .returning c held)
    (hidle : ∀ c, w.place = .idle c → c.pendingAmPolicy = none) :
    (World.accept d { w with notices }).Kept := by
  have hwaiting : (World.accept d { w with notices }).waiting = w.waiting ++ [d] := by
    cases hplace : w.place with
    | connected c => simp [World.accept, waiting, hplace, Place.held]
    | moving c => exact absurd hplace (hmoving c)
    | idle c =>
      have hqueue : w.queue = [] := h.queue (.inl (by rw [hplace]; rfl))
      simp [World.accept, waiting, hplace, Place.held, hidle c hplace, hqueue]
    | returning c held => exact absurd hplace (hreturning c held)
    | resuming c held => simp [World.accept, waiting, hplace, Place.held]
  have hsame : (World.accept d { w with notices }).place.ue.policy = w.place.ue.policy ∧
      (World.accept d { w with notices }).stored = w.stored ∧
      (World.accept d { w with notices }).notices = notices ∧
      (World.accept d { w with notices }).computed = w.computed ∧
      (World.accept d { w with notices }).applied = w.applied := by
    unfold World.accept
    cases hplace : w.place <;> simp [Place.ue, UeContext.policy]
  obtain ⟨hpolicy, hstored, hrest, hcomputed, happlied⟩ := hsame
  have hleads := h.leads
  have hlossless := h.lossless
  rw [hnotices, List.map_cons, hread] at hleads hlossless
  constructor
  · rw [hpolicy, hwaiting, hrest, hstored, List.map_append, List.append_assoc]
    exact hleads
  · rw [hcomputed, happlied, hwaiting, hrest]
    exact hlossless.arrive
  · intro e he
    have hpresent : e ∈ w.queue ++ [(w.connection, d)] → e.1 = w.connection := fun hmem => by
      obtain hmem | hmem := List.mem_append.mp hmem
      · exact h.present e hmem
      · rw [List.mem_singleton.mp hmem]
    unfold World.accept at he ⊢
    cases hplace : w.place with
    | connected c =>
      simp only [hplace] at he ⊢
      exact hpresent he
    | moving c => exact absurd hplace (hmoving c)
    | idle c =>
      simp only [hplace] at he ⊢
      exact h.present e he
    | returning c held => exact absurd hplace (hreturning c held)
    | resuming c held =>
      simp only [hplace] at he ⊢
      exact hpresent he
  · unfold World.accept
    cases hplace : w.place with
    | connected c => simp [Place.addressed]
    | moving c => exact absurd hplace (hmoving c)
    | idle c => exact fun _ => h.queue (.inl (by rw [hplace]; rfl))
    | returning c held => exact absurd hplace (hreturning c held)
    | resuming c held => simp [Place.addressed]
  · have hfree := h.free
    unfold World.accept
    cases hplace : w.place with
    | connected c => simpa [hplace, Place.ue] using hfree
    | moving c => exact absurd hplace (hmoving c)
    | idle c => simp
    | returning c held => exact absurd hplace (hreturning c held)
    | resuming c held => simpa [hplace, Place.ue] using hfree

theorem Kept.notify (h : w.Kept) {i : Nat} (hanswered : Answered w (.notify i))
    (hheeds : Heeds w (.notify i)) : (w.notify i).Kept := by
  unfold World.notify
  cases hpolicy : w.notices[i]? with
  | none => exact h
  | some policy =>
    obtain ⟨rfl, hmoving, hidle⟩ := hheeds (by rw [hpolicy]; simp)
    obtain ⟨hread, hreturning⟩ := hanswered policy hpolicy
    obtain ⟨d, hd⟩ := Option.isSome_iff_exists.mp hread
    dsimp only
    rw [hd]
    cases hnotices : w.notices with
    | nil => rw [hnotices] at hpolicy; cases hpolicy
    | cons first notices =>
      rw [hnotices] at hpolicy
      cases hpolicy
      exact h.accept hnotices hd hmoving hreturning hidle

theorem Kept.process (h : w.Kept) : w.process.Kept := by
  unfold World.process
  cases hqueue : w.queue with
  | nil => exact h
  | cons e queue =>
    obtain ⟨connection, d⟩ := e
    have hhere : connection = w.connection :=
      h.present (connection, d) (hqueue ▸ List.mem_cons_self)
    have hgone : ∀ {P : Prop}, (w.place.addressed = false ∨ ∃ c, w.place = .moving c) → P := by
      intro P hplace
      rw [h.queue hplace] at hqueue
      cases hqueue
    dsimp only
    cases hplace : w.place with
    | connected c =>
      dsimp only
      rw [if_pos hhere]
      have hleads := h.leads
      have hlossless := h.lossless
      simp only [waiting, hplace, hqueue] at hleads hlossless
      constructor
      · exact hleads
      · exact hlossless.apply
      · exact fun e he => h.present e (hqueue ▸ List.mem_cons_of_mem _ he)
      · rintro (hidle | ⟨c', hmoving⟩)
        · cases hidle
        · cases hmoving
      · intro _
        have hfree := h.free
        simp only [hplace] at hfree
        exact hfree fun c' => by simp
    | moving c => exact hgone (.inr ⟨c, hplace⟩)
    | idle c => exact hgone (.inl (by rw [hplace]; rfl))
    | returning c held => exact hgone (.inl (by rw [hplace]; rfl))
    | resuming c held =>
      dsimp only
      rw [if_pos hhere]
      exact h

theorem Kept.settle (h : w.Kept) : w.settle.Kept := by
  unfold World.settle
  cases hplace : w.place with
  | resuming c held =>
    have hleads := h.leads
    have hlossless := h.lossless
    have hfree := h.free
    simp only [hplace] at hfree
    have hnone : c.pendingAmPolicy = none := hfree fun c' => by simp
    cases held with
    | none =>
      simp only [waiting, hplace] at hleads hlossless
      constructor
      · exact hleads
      · simpa [waiting, Place.held] using hlossless
      · exact h.present
      · rintro (hidle | ⟨c', hmoving⟩)
        · cases hidle
        · cases hmoving
      · exact fun _ => hnone
    | some d =>
      simp only [waiting, hplace] at hleads hlossless
      constructor
      · exact hleads
      · exact hlossless.apply
      · exact h.present
      · rintro (hidle | ⟨c', hmoving⟩)
        · cases hidle
        · cases hmoving
      · exact fun _ => hnone
  | _ => exact h

/-- A context that leaves its association leaves no command behind. -/
theorem Kept.move (h : w.Kept) (e : Event) (hheeds : Heeds w e) : (w.move e).Kept := by
  have hleads := h.leads
  have hlossless := h.lossless
  have hfree := h.free
  cases e with
  | release =>
    simp only [World.move]
    cases hplace : w.place with
    | connected c =>
      have hqueue : w.queue = [] := hheeds c hplace
      simp only [waiting, hplace, hqueue] at hleads hlossless hfree
      have hnone : c.pendingAmPolicy = none := hfree fun c' => by simp
      constructor
      · simpa [waiting, Place.held, Place.ue, hnone, hqueue] using hleads
      · simpa [waiting, Place.held, hnone, hqueue] using hlossless
      · exact h.present
      · exact fun _ => hqueue
      · exact fun hidle => absurd rfl (hidle c)
    | _ => exact h
  | comeBack =>
    simp only [World.move]
    cases hplace : w.place with
    | idle c =>
      simp only [waiting, hplace] at hleads hlossless
      constructor
      · exact hleads
      · exact hlossless
      · exact h.present
      · exact fun _ => h.queue (.inl (by rw [hplace]; rfl))
      · exact fun _ => rfl
    | _ => exact h
  | address =>
    simp only [World.move]
    cases hplace : w.place with
    | returning c held =>
      have hqueue : w.queue = [] := h.queue (.inl (by rw [hplace]; rfl))
      simp only [waiting, hplace] at hleads hlossless hfree
      constructor
      · exact hleads
      · exact hlossless
      · intro e he
        rw [hqueue] at he
        cases he
      · rintro (hidle | ⟨c', hmoving⟩)
        · cases hidle
        · cases hmoving
      · exact fun _ => hfree fun c' => by simp
    | _ => exact h
  | take =>
    simp only [World.move]
    cases hplace : w.place with
    | connected c =>
      have hqueue : w.queue = [] := hheeds c hplace
      simp only [waiting, hplace] at hleads hlossless hfree
      constructor
      · exact hleads
      · exact hlossless
      · exact h.present
      · exact fun _ => hqueue
      · exact fun _ => hfree fun c' => by simp
    | _ => exact h
  | arrive =>
    simp only [World.move]
    cases hplace : w.place with
    | moving c =>
      have hqueue : w.queue = [] := h.queue (.inr ⟨c, hplace⟩)
      simp only [waiting, hplace] at hleads hlossless hfree
      constructor
      · exact hleads
      · exact hlossless
      · intro e he
        rw [hqueue] at he
        cases he
      · exact fun _ => hqueue
      · exact fun _ => hfree fun c' => by simp
    | _ => exact h
  | _ => exact h

theorem Kept.revise (h : w.Kept) (c' : UeContext) : Kept { w with place := w.place.revise c' } := by
  have hleads := h.leads
  have hlossless := h.lossless
  have hqueue := h.queue
  have hfree := h.free
  cases hplace : w.place <;> simp only [waiting, hplace] at hleads hlossless hqueue hfree
  all_goals constructor
  all_goals first
    | exact hleads
    | exact hlossless
    | exact h.present
    | (simp [Place.revise, Place.addressed]; done)
    | simpa [Place.revise, Place.addressed] using hqueue
    | simpa [Place.revise, Place.revise.keep, Place.ue] using hfree

/-- One event. -/
theorem Kept.step (h : w.Kept) (e : Event) (hanswered : Answered w e) (hheeds : Heeds w e) :
    (w.step e).Kept := by
  cases e with
  | trigger => exact h.same _
  | decide i fresh => exact h.decide hheeds
  | notify i => exact h.notify hanswered hheeds
  | process => exact h.process
  | settle => exact h.settle
  | revise c => exact h.revise c
  | release => exact h.move .release hheeds
  | comeBack => exact h.move .comeBack hheeds
  | address => exact h.move .address hheeds
  | take => exact h.move .take hheeds
  | arrive => exact h.move .arrive hheeds

theorem Started.kept (h : w.Started) : w.Kept := by
  obtain ⟨c, hplace, hpolicy, hnone⟩ := h.place
  have hwaiting : w.waiting = [] := by
    simp [waiting, hplace, Place.held, h.queue]
  constructor
  · rw [hwaiting, h.notices, hplace]
    exact hpolicy
  · rw [hwaiting, h.notices, h.computed, h.applied]
    exact ⟨rfl⟩
  · rw [h.queue]
    exact fun _ he => (nomatch he)
  · exact fun _ => h.queue
  · rw [hplace]
    exact fun _ => hnone

end World

/-! ### Runs -/

/-- **Agreement.** In every run whose notifications are answered and whose events heed the side condition,
the context has the PCF's policy whenever nothing is under way, and every delta is applied, in order. -/
theorem agreed {w : World} (h : w.Started) (es : List Event)
    (hanswered : Runs.Along World.step Answered w es) (hheeds : Runs.Along World.step Heeds w es) :
    Agreed (Runs.run World.step w es) := by
  have hboth := Runs.along_and.mpr ⟨hanswered, hheeds⟩
  exact (Runs.invariant_along (fun _ _ hevent hkept => hkept.step _ hevent.1 hevent.2) hboth
    h.kept).agrees

/-! ### The handler -/

/-- The tables have the context of a SUPI in its place. -/
def Stands (isOpen : Channel → Bool) (supi : String) (t : Tables) : Place → Prop
  | .connected _ | .moving _ | .resuming .. =>
      ∃ e, (t.ueDirectory.lookup supi).filter (fun e => isOpen e.2) = some e
  | .idle c => (t.ueDirectory.lookup supi).filter (fun e => isOpen e.2) = none ∧
      ∃ tmsi, (t.retained.find? fun c => c.suci == some supi) = some (tmsi, c)
  | .returning .. => (t.ueDirectory.lookup supi).filter (fun e => isOpen e.2) = none ∧
      (t.retained.find? fun c => c.suci == some supi) = none

section Handler

variable {isOpen : Channel → Bool} {supi : String} {t : Tables} {w : World} {i : Nat}
variable {policy : PolicyUpdate}

/-- A notification that is answered 202 or 204. -/
theorem answered_iff (hstands : Stands isOpen supi t w.place) (hpolicy : w.notices[i]? = some policy) :
    Answered w (.notify i) ↔ (amPolicyNotify isOpen supi policy t).status = .noContent ∨
      (amPolicyNotify isOpen supi policy t).status = .accepted := by
  simp only [Answered, hpolicy, Option.some_inj, amPolicyNotify]
  cases hread : readUpdate policy with
  | none => simp [hread]
  | some d =>
    cases hplace : w.place with
    | idle c =>
      obtain ⟨hnone, tmsi, hfind⟩ := hplace ▸ hstands
      simp [hread, hnone, hfind]
    | returning c held =>
      obtain ⟨hnone, hfind⟩ := hplace ▸ hstands
      simp [hnone, hfind]
    | _ =>
      obtain ⟨e, he⟩ := hplace ▸ hstands
      simp [hread, he]

/-- Its command goes behind the others. -/
theorem queue_notify (hstands : Stands isOpen supi t w.place) (hpolicy : w.notices[i]? = some policy) :
    (w.notify i).queue = w.queue ++
      ((amPolicyNotify isOpen supi policy t).command.map fun e => (w.connection, e.2.2)).toList := by
  simp only [World.notify, hpolicy, amPolicyNotify]
  cases hread : readUpdate policy with
  | none => simp
  | some d =>
    cases hplace : w.place with
    | idle c =>
      obtain ⟨hnone, tmsi, hfind⟩ := hplace ▸ hstands
      simp [World.accept, hnone, hfind]
    | returning c held =>
      obtain ⟨hnone, hfind⟩ := hplace ▸ hstands
      simp [World.accept, hnone, hfind]
    | _ =>
      obtain ⟨e, he⟩ := hplace ▸ hstands
      simp [World.accept, he]

/-- A delta for an idle UE is kept with its context. -/
theorem stands_notify (hstands : Stands isOpen supi t w.place) (hpolicy : w.notices[i]? = some policy) :
    Stands isOpen supi (amPolicyNotify isOpen supi policy t).tables (w.notify i).place := by
  simp only [World.notify, hpolicy, amPolicyNotify]
  cases hread : readUpdate policy with
  | none => exact hstands
  | some d =>
    cases hplace : w.place with
    | idle c =>
      obtain ⟨hnone, tmsi, hfind⟩ := hplace ▸ hstands
      simp only [World.accept, hnone, hfind]
      have hsupi := (Keyed.Map.find?_eq_some hfind).2
      exact ⟨hnone, tmsi, Keyed.Map.find?_modify hfind hsupi⟩
    | returning c held =>
      obtain ⟨hnone, hfind⟩ := hplace ▸ hstands
      simp only [World.accept, hnone, hfind]
      exact ⟨hnone, hfind⟩
    | _ =>
      obtain ⟨e, he⟩ := hplace ▸ hstands
      simp only [World.accept, he]
      exact ⟨e, he⟩

end Handler

/-! ### Runs that agree and runs that do not -/

/-- A registered UE without a policy. -/
def plain : World :=
  { stored := { rfsp := none, ueAmbr := none, servAreaRes := none }
    place := .connected { commandedUe with state := .Registered } }

theorem started_plain : plain.Started :=
  ⟨⟨_, rfl, rfl, rfl⟩, rfl, rfl, rfl, rfl, rfl⟩

def steered : PolicyAssociation := { rfsp := some 3, ueAmbr := none, servAreaRes := none }

def fenced : PolicyAssociation :=
  { steered with servAreaRes := some { restrictionType := "ALLOWED_AREAS", tacs := ["000001"] } }

def back : List Event := [.comeBack, .address, .settle]

/-- One change while the UE is idle. -/
def oneHeld : List Event := [.release, .trigger, .decide 0 steered, .notify 0] ++ back

theorem agreed_sample : Agreed (Runs.run World.step plain oneHeld) := by
  refine agreed started_plain oneHeld ?_ ?_
  · refine ⟨trivial, trivial, trivial, ?_, trivial, trivial, trivial, trivial⟩
    rintro policy ⟨⟩
    exact ⟨rfl, fun _ _ hplace => nomatch hplace⟩
  · refine ⟨fun _ _ => rfl, trivial, ?_, ?_, trivial, trivial, trivial, trivial⟩
    · rintro prev ⟨⟩ -
      rfl
    · intro _
      refine ⟨rfl, fun _ hplace => (nomatch hplace), ?_⟩
      rintro c ⟨⟩
      rfl

/-- Two changes of different attributes while the UE is idle. -/
def twoHeld : List Event :=
  [.release, .trigger, .decide 0 steered, .notify 0, .trigger, .decide 0 fenced, .notify 0] ++ back

/-- The connection is released before the association has taken the command. -/
def oneDropped : List Event :=
  [.trigger, .decide 0 steered, .notify 0, .release, .process] ++ back

theorem answered_twoHeld : Runs.Along World.step Answered plain twoHeld := by
  refine ⟨trivial, trivial, trivial, ?_, trivial, trivial, ?_, trivial, trivial, trivial, trivial⟩
  all_goals
    rintro policy ⟨⟩
    exact ⟨rfl, fun _ _ hplace => nomatch hplace⟩

theorem answered_oneDropped : Runs.Along World.step Answered plain oneDropped := by
  refine ⟨trivial, trivial, ?_, trivial, trivial, trivial, trivial, trivial, trivial⟩
  rintro policy ⟨⟩
  exact ⟨rfl, fun _ _ hplace => nomatch hplace⟩

/-- **Disagreement.** The second delta that is held takes the place of the first, and a command that no
longer finds the context is dropped; all notifications have been answered 202 or 204. -/
theorem not_agreed :
    (¬ ∀ (w : World) (es : List Event), w.Started → Runs.Along World.step Answered w es →
      ∀ c, (Runs.run World.step w es).place = .connected c → (Runs.run World.step w es).notices = [] →
        (Runs.run World.step w es).queue = [] →
          c.policy = (Runs.run World.step w es).stored.policy) ∧
    ¬ ∀ (w : World) (es : List Event), w.Started → Runs.Along World.step Answered w es →
      Accounted ((Runs.run World.step w es).computed.map readUpdate)
        (Runs.run World.step w es).applied (Runs.run World.step w es).waiting
        ((Runs.run World.step w es).notices.map readUpdate) := by
  constructor
  · intro h
    have hpolicy := h plain twoHeld started_plain answered_twoHeld _ rfl rfl rfl
    exact absurd hpolicy (by decide +kernel)
  · intro h
    have hlossless := (h plain oneDropped started_plain answered_oneDropped).sent
    exact absurd hlossless (by decide +kernel)

end Radian.Amf.AmPolicy
