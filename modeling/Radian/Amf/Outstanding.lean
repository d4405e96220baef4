import Radian.Amf.Identity
import Radian.Mobility.Custody

/-!
# Outstanding procedures

A procedure that waits for the UE is kept alive by a timer.  The timer is a task of its own, which knows the
association and the id that it was armed for.

- `Alarm`, `Awaits` — the timers, and the procedures they are for.
- `Timely`, `Still` — every procedure has its timer, and idle UEs have none.
- `Running` — all that an association is given to do, the expiries among it.
- `Attended` — the procedures come to an end.
- `Heeds`, `Quiet` — the side conditions: nobody goes back to registering with no guard left, and contexts at
  rest alone go idle or change their association.
- `Intact`, `Keeps` — the invariant, and what the parts of handlers make of it.
-/

namespace Radian.Amf.Outstanding

open Identity (Held Task handle enter)
open Keyed (Map)
open Proc (Amid Deed Does assured assured_mono)

/-! ### Timers and procedures -/

/-- The timers of a context. -/
inductive Alarm where
  | nasRetx (kind : RetxKind)
  | t3555
  | t3522
  | releaseGuard (psi : UInt8)
  | registrationGuard
  deriving DecidableEq, Repr

namespace Alarm

/-- An armed timer. -/
def job (tx : Channel) (amfUeId : AmfUeId) : Alarm → Job
  | nasRetx kind => .nasRetx tx amfUeId kind
  | t3555 => .t3555 tx amfUeId
  | t3522 => .t3522 tx amfUeId
  | releaseGuard psi => .releaseGuard tx amfUeId psi
  | registrationGuard => .registrationGuard tx amfUeId

/-- What it posts to its association. -/
def expiry (amfUeId : AmfUeId) : Alarm → Task
  | nasRetx kind => .nasRetxExpiry amfUeId kind
  | t3555 => .t3555Expiry amfUeId
  | t3522 => .t3522Expiry amfUeId
  | releaseGuard psi => .releaseGuardExpiry amfUeId psi
  | registrationGuard => .registrationGuardExpiry amfUeId

theorem job_inj {tx tx' : Channel} {amfUeId amfUeId' : AmfUeId} {a a' : Alarm} :
    a.job tx amfUeId = a'.job tx' amfUeId' ↔ tx = tx' ∧ amfUeId = amfUeId' ∧ a = a' := by
  cases a <;> cases a' <;> simp [job]

end Alarm

/-- A context has a procedure outstanding that this timer is for. -/
def Awaits (c : UeContext) : Alarm → Prop
  | .nasRetx kind => c.pendingRetx.map (·.kind) = some kind
  | .t3555 => c.pendingConfigUpdate.isSome
  | .t3522 => c.deregAttempts.isSome
  | .releaseGuard psi => psi ∈ c.releasing
  | .registrationGuard => c.state ≠ .Registered

/-- No procedure is outstanding. -/
def Quiet (c : UeContext) : Prop := ∀ a, ¬ Awaits c a

/-- Every procedure has its timer, on the context's association and under its id. -/
def Timely (l : Association) (t : Tables) : Prop :=
  ∀ amfUeId c, l.ues.lookup amfUeId = some c → ∀ a, Awaits c a → a.job l.tx amfUeId ∈ t.jobs

/-- The contexts of idle UEs have no procedure outstanding. -/
def Still (t : Tables) : Prop := ∀ tmsi c, t.retained.lookup tmsi = some c → Quiet c

/-- Commands and requests are sent under NAS security, and a request to deregister a number of times at
most. -/
structure Sound (c : UeContext) : Prop where
  secured : c.pendingConfigUpdate.isSome ∨ c.deregAttempts.isSome → c.sec.isSome
  bounded : ∀ attempts, c.deregAttempts = some attempts → attempts ≤ T3522_MAX_SENDS

/-- The retained contexts are at rest. -/
def Reserve (t : Tables) : Prop := ∀ tmsi c, t.retained.lookup tmsi = some c → Sound c ∧ Quiet c

/-- What tasks do to the tables, as the association on this channel sees it: its timers run on, and what is
retained is at rest. -/
structure Others (tx : Channel) (t t' : Tables) : Prop where
  jobs : ∀ (a : Alarm) amfUeId, a.job tx amfUeId ∈ t.jobs → a.job tx amfUeId ∈ t'.jobs
  reserve : Reserve t → Reserve t'

/-- What is done to the tables is what tasks may do, for whichever association. -/
def Proper : Deed Association Tables Mark → Association → Tables → List Mark → Prop
  | .move _ t', _, t, _ => ∀ tx, Others tx t t'
  | .mark _, _, _, _ => True

/-! ### All that an association is given to do -/

/-- What a context is to keep: its procedures and its NAS security. -/
structure Alike (c c' : UeContext) : Prop where
  state : c'.state = c.state
  sec : c.sec.isSome → c'.sec.isSome
  pendingRetx : c'.pendingRetx = c.pendingRetx
  pendingConfigUpdate : c'.pendingConfigUpdate = c.pendingConfigUpdate
  deregAttempts : c'.deregAttempts = c.deregAttempts
  releasing : c'.releasing = c.releasing

/-- A timer has run out. -/
def expired (j : Job) (t : Tables) : Tables := { t with jobs := t.jobs.erase j }

/-- A context whose N2 connection is released is retained by its 5G-TMSI, or dropped when it has none. -/
def retain (c : UeContext) (t : Tables) : Tables :=
  let t := c.suci.elim t fun supi => t.unaddressed supi
  match c.gutiTmsi with
  | some tmsi => { t with retained := t.retained.insert tmsi (c.idle t.clock) }
  | none => t

/-- The runs of an association from its start.  Expiries come from timers alone.  Messages without NAS
change a context in other respects.  A context that is `calm` may be retained, or come from another
association as what it is there. -/
inductive Running (F : Functions) (allow : Mark → Association → Tables → List Mark → Prop)
    (calm : UeContext → Prop) (tx : Channel) (t₀ : Tables) :
    Association → Tables → List Mark → Prop where
  | init : Running F allow calm tx t₀ { tx } t₀ []
  | serve {l t w l' t' w'} (task : Task) : Running F allow calm tx t₀ l t w →
      (∀ (a : Alarm) amfUeId, task ≠ a.expiry amfUeId) →
      Amid recorder allow (Others tx) (handle F task) l t w () l' t' w' → Running F allow calm tx t₀ l' t' w'
  | expire {l t w l' t' w'} (a : Alarm) (amfUeId : AmfUeId) : Running F allow calm tx t₀ l t w →
      a.job tx amfUeId ∈ t.jobs →
      Amid recorder allow (Others tx) (handle F (a.expiry amfUeId)) l (expired (a.job tx amfUeId) t) w
        () l' t' w' →
      Running F allow calm tx t₀ l' t' w'
  | others {l t w t'} : Running F allow calm tx t₀ l t w → Others tx t t' → Running F allow calm tx t₀ l t' w
  | alter {l t w f} (amfUeId : AmfUeId) : Running F allow calm tx t₀ l t w → (∀ c, Alike c (f c)) →
      Running F allow calm tx t₀ (l.modify amfUeId f) t w
  | release {l t w c} (amfUeId : AmfUeId) : Running F allow calm tx t₀ l t w →
      l.ues.lookup amfUeId = some c → (c.gutiTmsi.isSome → calm c) →
      Running F allow calm tx t₀ (l.erase amfUeId) (retain c t) w
  | leave {l t w} (amfUeId : AmfUeId) : Running F allow calm tx t₀ l t w →
      Running F allow calm tx t₀ (l.erase amfUeId) t w
  | arrive {l t w c} (amfUeId : AmfUeId) : Running F allow calm tx t₀ l t w → Sound c → calm c →
      Running F allow calm tx t₀ (l.insert amfUeId c) (enter amfUeId tx c.suci t) w

/-- Every procedure has its timer, idle UEs have none outstanding, and nothing that is done here changes this
elsewhere.  When its guard runs out the release of a session is finalised; when T3522 runs out, a
deregistration is, or has been asked for once more, which happens a number of times at most. -/
structure Attended (F : Functions) (allow : Mark → Association → Tables → List Mark → Prop) (l : Association)
    (t : Tables) (w : List Mark) : Prop where
  timely : Timely l t
  still : Still t
  proper : ∀ task d l₁ t₁ w₁, Does recorder allow (Others l.tx) (handle F task) l t w d l₁ t₁ w₁ →
    Proper d l₁ t₁ w₁
  spares : ∀ (a : Alarm) amfUeId tx, tx ≠ l.tx → Others tx t (expired (a.job l.tx amfUeId) t)
  retains : ∀ amfUeId c, l.ues.lookup amfUeId = some c → (c.gutiTmsi.isSome → Quiet c) →
    ∀ tx, Others tx t (retain c t)
  releases : ∀ amfUeId psi t l' t' w',
    Amid recorder allow (Others l.tx) (handle F (.releaseGuardExpiry amfUeId psi)) l t w () l' t' w' →
    ∀ c', l'.ues.lookup amfUeId = some c' → psi ∉ c'.releasing
  deregisters : ∀ amfUeId c attempts, l.ues.lookup amfUeId = some c → c.deregAttempts = some attempts →
    attempts ≤ T3522_MAX_SENDS ∧ ∀ t l' t' w',
      Amid recorder allow (Others l.tx) (handle F (.t3522Expiry amfUeId)) l t w () l' t' w' →
      ∀ c', l'.ues.lookup amfUeId = some c' → c'.deregAttempts = some (attempts + 1)

/-- The RES* of a registered UE is accepted only while the guard of its registration still runs. -/
def Heeds : Mark → Association → Tables → List Mark → Prop
  | .authenticated amfUeId _ _, l, t, _ =>
      ∀ c ∈ l.ues.lookup amfUeId, c.state = .Registered → .registrationGuard l.tx amfUeId ∈ t.jobs
  | _, _, _, _ => True

/-! ### The invariant -/

section Contexts

variable {c c' c'' : UeContext} {a : Alarm}

/-- One context becomes another one that is sound, and comes to await nothing but these timers. -/
structure Turns (as : List Alarm) (c c' : UeContext) : Prop where
  sound : Sound c → Sound c'
  awaits : ∀ a, Awaits c' a → Awaits c a ∨ a ∈ as

theorem Alike.refl (c : UeContext) : Alike c c := ⟨rfl, id, rfl, rfl, rfl, rfl⟩

theorem Alike.trans (h : Alike c c') (h' : Alike c' c'') : Alike c c'' where
  state := h'.state.trans h.state
  sec hsec := h'.sec (h.sec hsec)
  pendingRetx := h'.pendingRetx.trans h.pendingRetx
  pendingConfigUpdate := h'.pendingConfigUpdate.trans h.pendingConfigUpdate
  deregAttempts := h'.deregAttempts.trans h.deregAttempts
  releasing := h'.releasing.trans h.releasing

theorem Alike.awaits_iff (h : Alike c c') : Awaits c' a ↔ Awaits c a := by
  cases a <;>
    simp only [Awaits, h.state, h.pendingRetx, h.pendingConfigUpdate, h.deregAttempts, h.releasing]

theorem Sound.alike (h : Sound c) (hc : Alike c c') : Sound c' where
  secured hpending := hc.sec (h.secured (hc.pendingConfigUpdate ▸ hc.deregAttempts ▸ hpending))
  bounded attempts hattempts := h.bounded attempts (hc.deregAttempts.symm.trans hattempts)

theorem Quiet.alike (h : Quiet c) (hc : Alike c c') : Quiet c' := fun a ha => h a (hc.awaits_iff.mp ha)

theorem Alike.turns (h : Alike c c') : Turns [] c c' where
  sound hc := hc.alike h
  awaits _ ha := .inl (h.awaits_iff.mp ha)

theorem alike_idle (now : Instant) (c : UeContext) : Alike c (c.idle now) := ⟨rfl, id, rfl, rfl, rfl, rfl⟩

end Contexts

/-- Timers that are still to be armed. -/
abbrev Due : Type := List (AmfUeId × Alarm)

/-- Every context is sound and has its timers, but for those that are due; idle UEs are at rest; and what a
handler has read is still there. -/
structure Intact (tx : Channel) (due : Due) (held : Held) (l : Association) (t : Tables) : Prop where
  channel : l.tx = tx
  sound : ∀ amfUeId c, l.ues.lookup amfUeId = some c → Sound c
  timely : ∀ amfUeId c, l.ues.lookup amfUeId = some c → ∀ a, Awaits c a →
    (amfUeId, a) ∈ due ∨ a.job tx amfUeId ∈ t.jobs
  reserve : Reserve t
  held : ∀ amfUeId c, held = some (amfUeId, c) → l.ues.lookup amfUeId = some c

/-- Jobs are spawned, and nothing is retained. -/
structure Grows (t t' : Tables) : Prop where
  jobs : ∀ j ∈ t.jobs, j ∈ t'.jobs
  retained : ∀ tmsi c, t'.retained.lookup tmsi = some c → t.retained.lookup tmsi = some c

theorem Grows.refl (t : Tables) : Grows t t := ⟨fun _ => id, fun _ _ => id⟩

theorem Grows.others {t t' : Tables} (h : Grows t t') (tx : Channel) : Others tx t t' where
  jobs _ _ := h.jobs _
  reserve hreserve tmsi c hc := hreserve tmsi c (h.retained tmsi c hc)

theorem grows_push (j : Job) (t : Tables) : Grows t (t.push j) :=
  ⟨fun _ hj => List.mem_append_left _ hj, fun _ _ => id⟩

theorem lookup_erase_ne {l : Association} {amfUeId id : AmfUeId} {c : UeContext}
    (hc : (l.erase amfUeId).ues.lookup id = some c) : id ≠ amfUeId := by
  rintro rfl
  rw [Association.erase, Map.lookup_erase_eq, if_pos rfl] at hc
  cases hc

namespace Intact

variable {tx : Channel} {due due' : Due} {held : Held} {l : Association} {t t' : Tables}
  {amfUeId : AmfUeId} {a : Alarm} {c c' : UeContext}

theorem others (h : Intact tx due held l t) (ht : Others tx t t') : Intact tx due held l t' :=
  { h with
    timely := fun id c hc a ha => (h.timely id c hc a ha).imp_right (ht.jobs a id)
    reserve := ht.reserve h.reserve }

/-- What has been read is let go. -/
theorem drop (h : Intact tx due held l t) : Intact tx due none l t :=
  { h with held := fun _ _ hc => by cases hc }

/-- A context is read. -/
theorem read (h : Intact tx due held l t) (hc : l.ues.lookup amfUeId = some c) :
    Intact tx due (some (amfUeId, c)) l t :=
  { h with
    held := by
      rintro _ _ ⟨⟩
      exact hc }

theorem sound_held (h : Intact tx due (some (amfUeId, c)) l t) : Sound c :=
  h.sound amfUeId c (h.held amfUeId c rfl)

/-- Nothing is due for a procedure that is not outstanding. -/
theorem settle (h : Intact tx due held l t)
    (hdue : ∀ e ∈ due, e ∈ due' ∨ ∀ c, l.ues.lookup e.1 = some c → ¬ Awaits c e.2) :
    Intact tx due' held l t :=
  { h with
    timely := fun id c hc a ha => by
      rcases h.timely id c hc a ha with hmem | hjob
      · rcases hdue _ hmem with hmem | hnot
        · exact .inl hmem
        · exact absurd ha (hnot c hc)
      · exact .inr hjob }

/-- A timer is armed. -/
theorem arm (h : Intact tx ((amfUeId, a) :: due) held l t) :
    Intact tx due held l (t.push (a.job tx amfUeId)) where
  channel := h.channel
  sound := h.sound
  timely id c hc a' ha' := by
    rcases h.timely id c hc a' ha' with hmem | hjob
    · rcases List.mem_cons.mp hmem with heq | hmem
      · cases heq
        exact .inr (List.mem_append_right _ (List.mem_singleton_self _))
      · exact .inl hmem
    · exact .inr (List.mem_append_left _ hjob)
  reserve := h.reserve
  held := h.held

/-- A timer that is due still runs. -/
theorem pending (h : Intact tx ((amfUeId, a) :: due) held l t) (hjob : a.job tx amfUeId ∈ t.jobs) :
    Intact tx due held l t :=
  { h with
    timely := fun id c hc a' ha' => by
      rcases h.timely id c hc a' ha' with hmem | hjob'
      · rcases List.mem_cons.mp hmem with heq | hmem
        · cases heq
          exact .inr hjob
        · exact .inl hmem
      · exact .inr hjob' }

/-- A timer has run out. -/
theorem expired (h : Intact tx [] none l t) (a : Alarm) (amfUeId : AmfUeId) :
    Intact tx [(amfUeId, a)] none l (expired (a.job tx amfUeId) t) where
  channel := h.channel
  sound := h.sound
  timely id c hc a' ha' := by
    rcases h.timely id c hc a' ha' with hmem | hjob
    · cases hmem
    · by_cases hsame : a'.job tx id = a.job tx amfUeId
      · obtain ⟨-, rfl, rfl⟩ := Alarm.job_inj.mp hsame
        exact .inl (List.mem_singleton_self _)
      · exact .inr ((List.mem_erase_of_ne hsame).mpr hjob)
  reserve := h.reserve
  held _ _ hc := by cases hc

/-- A context goes, and all that is due for it. -/
theorem erase (h : Intact tx due held l t) (hdue : ∀ e ∈ due, e ∈ due' ∨ e.1 = amfUeId) :
    Intact tx due' none (l.erase amfUeId) t where
  channel := h.channel
  sound id c hc := h.sound id c (Map.of_lookup_erase hc).2
  timely id c hc a ha := by
    rcases h.timely id c (Map.of_lookup_erase hc).2 a ha with hmem | hjob
    · rcases hdue _ hmem with hmem | hid
      · exact .inl hmem
      · exact absurd hid (lookup_erase_ne hc)
    · exact .inr hjob
  reserve := h.reserve
  held _ _ hc := by cases hc

/-- A context becomes another one, or is new there. -/
theorem insert {as : List Alarm} (h : Intact tx due held l t) (hsound : Sound c)
    (hawaits : ∀ a, Awaits c a → (amfUeId, a) ∈ due ∨ a.job tx amfUeId ∈ t.jobs ∨ a ∈ as) :
    Intact tx (as.map (Prod.mk amfUeId) ++ due) (some (amfUeId, c)) (l.insert amfUeId c) t := by
  have hlookup : ∀ id, (l.insert amfUeId c).ues.lookup id =
      if id = amfUeId then some c else l.ues.lookup id := fun id => by
    rw [Association.insert, Map.lookup_insert_eq]
  constructor
  · exact h.channel
  · intro id c' hc'
    rw [hlookup] at hc'
    split at hc'
    · cases hc'
      exact hsound
    · exact h.sound id c' hc'
  · intro id c' hc' a ha
    rw [hlookup] at hc'
    split at hc'
    · rename_i hid
      cases hc'
      subst hid
      rcases hawaits a ha with hmem | hjob | has
      · exact .inl (List.mem_append_right _ hmem)
      · exact .inr hjob
      · exact .inl (List.mem_append_left _ (List.mem_map_of_mem has))
    · exact (h.timely id c' hc' a ha).imp_left (List.mem_append_right _)
  · exact h.reserve
  · rintro _ _ ⟨⟩
    rw [hlookup, if_pos rfl]

/-- What has been read is put back, changed. -/
theorem putBack {as : List Alarm} (h : Intact tx due (some (amfUeId, c)) l t) (hc : Turns as c c') :
    Intact tx (as.map (Prod.mk amfUeId) ++ due) (some (amfUeId, c')) (l.insert amfUeId c') t := by
  refine h.insert (hc.sound h.sound_held) fun a ha => ?_
  rcases hc.awaits a ha with hold | hnew
  · exact (h.timely amfUeId c (h.held amfUeId c rfl) a hold).imp_right .inl
  · exact .inr (.inr hnew)

/-- A context is changed where it is, in the same way. -/
theorem modify {as : List Alarm} {f : UeContext → UeContext} (h : Intact tx due (some (amfUeId, c)) l t)
    (hc : Turns as c (f c)) :
    Intact tx (as.map (Prod.mk amfUeId) ++ due) (some (amfUeId, f c)) (l.modify amfUeId f) t := by
  have hlookup : ∀ id, (l.modify amfUeId f).ues.lookup id = (l.insert amfUeId (f c)).ues.lookup id := by
    intro id
    rw [Association.modify, Map.lookup_modify, Association.insert, Map.lookup_insert_eq]
    split
    · rw [h.held amfUeId c rfl, Option.map_some]
    · rfl
  have hput := h.putBack hc
  constructor
  · exact hput.channel
  · exact fun id c' hc' => hput.sound id c' (hlookup id ▸ hc')
  · exact fun id c' hc' => hput.timely id c' (hlookup id ▸ hc')
  · exact hput.reserve
  · exact fun id c' hheld => (hlookup id).trans (hput.held id c' hheld)

theorem alter {f : UeContext → UeContext} (h : Intact tx due (some (amfUeId, c)) l t)
    (hc : Turns [] c (f c)) : Intact tx due (some (amfUeId, f c)) (l.modify amfUeId f) t := h.modify hc

/-- A context, if there is one, changes and comes to await nothing. -/
theorem revise {f : UeContext → UeContext} (h : Intact tx due held l t) (hf : ∀ c, Turns [] c (f c)) :
    Intact tx due none (l.modify amfUeId f) t := by
  cases hc : l.ues.lookup amfUeId with
  | some c => exact ((h.read hc).modify (hf c)).drop
  | none =>
    have hlookup : ∀ id, (l.modify amfUeId f).ues.lookup id = l.ues.lookup id := by
      intro id
      rw [Association.modify, Map.lookup_modify]
      split
      · rename_i hid
        rw [hid, hc, Option.map_none]
      · rfl
    constructor
    · exact h.channel
    · exact fun id c' hc' => h.sound id c' ((hlookup id).symm.trans hc')
    · exact fun id c' hc' => h.timely id c' ((hlookup id).symm.trans hc')
    · exact h.reserve
    · exact fun _ _ hheld => by cases hheld

end Intact

/-! ### Parts of handlers -/

/-- All that a part of a handler does is proper, and it leaves what it finds intact. -/
abbrev Keeps {α : Type} (tx : Channel) (due due' : Due) (held held' : Held) (p : AmfM α) : Prop :=
  ∀ l t w, Intact tx due held l t →
    assured recorder Heeds (Others tx) Proper p (fun _ l' t' _ => Intact tx due' held' l' t') l t w

namespace Keeps

variable {α β : Type} {tx : Channel} {due due' due'' : Due} {held held' held'' : Held} {amfUeId : AmfUeId}
  {c c' : UeContext}

/-- Where the tables are as they were. -/
theorem proper_local {l l' : Association} {t : Tables} {w : List Mark} : Proper (.move l' t) l t w :=
  (Grows.refl t).others

theorem pure (a : α) : Keeps tx due due held held (Pure.pure a : AmfM α) := fun _ _ _ h => h

theorem bind {p : AmfM α} {k : α → AmfM β} (hp : Keeps tx due due' held held' p)
    (hk : ∀ a, Keeps tx due' due'' held' held'' (k a)) : Keeps tx due due'' held held'' (p >>= k) := by
  intro l t w h
  rw [Proc.assured_bind]
  exact assured_mono (fun a l t w h => hk a l t w h) (hp l t w h)

/-- What has been read is let go. -/
theorem drop {p : AmfM α} (hp : Keeps tx due due' held held' p) : Keeps tx due due' held none p :=
  fun l t w h => assured_mono (fun _ _ _ _ h => h.drop) (hp l t w h)

theorem done (a : α) : Keeps tx due due held none (Pure.pure a : AmfM α) := (pure a).drop

theorem look (f : Association → Tables → α) : Keeps tx due due held held (Proc.look f : AmfM α) :=
  fun _ _ _ h => h

/-- The context under an id is read; where there is none, nothing is due for it. -/
theorem getUe_bind {k : Option UeContext → AmfM β} (hdue : ∀ e ∈ due, e ∈ due'' ∨ e.1 = amfUeId)
    (hnone : Keeps tx due'' due' held held' (k none))
    (hsome : ∀ c, Keeps tx due due' (some (amfUeId, c)) held' (k (some c))) :
    Keeps tx due due' held held' (getUe amfUeId >>= k) := by
  intro l t w h
  rw [Proc.assured_bind, getUe, Proc.assured_look]
  cases hc : l.ues.lookup amfUeId with
  | some c => exact hsome c l t w (h.read hc)
  | none =>
    refine hnone l t w (h.settle fun e he => (hdue e he).imp_right fun hid c hsome => ?_)
    rw [hid, hc] at hsome
    cases hsome

theorem getUe_bind_nil {k : Option UeContext → AmfM β} (hnone : Keeps tx [] [] held held' (k none))
    (hsome : ∀ c, Keeps tx [] [] (some (amfUeId, c)) held' (k (some c))) :
    Keeps tx [] [] held held' (getUe amfUeId >>= k) :=
  getUe_bind (fun _ he => by cases he) hnone hsome

/-- The context that has been read is sound. -/
theorem sound {p : AmfM α}
    (hp : Sound c → Keeps tx due due' (some (amfUeId, c)) held' p) :
    Keeps tx due due' (some (amfUeId, c)) held' p :=
  fun l t w h => hp h.sound_held l t w h

/-- Nothing is due for a procedure that is not outstanding. -/
theorem settle {p : AmfM α} {a : Alarm} (hc : ¬ Awaits c a)
    (hp : Keeps tx due due' (some (amfUeId, c)) held' p) :
    Keeps tx ((amfUeId, a) :: due) due' (some (amfUeId, c)) held' p := by
  intro l t w h
  refine hp l t w (h.settle fun e he => ?_)
  rcases List.mem_cons.mp he with rfl | he
  · refine .inr fun c' hc' => ?_
    rw [h.held amfUeId c rfl] at hc'
    cases hc'
    exact hc
  · exact .inl he

theorem mark {n : Mark} : Keeps tx due due held held (Proc.mark n) := fun _ _ _ h _ => ⟨trivial, h⟩

theorem ask (e : Call) : Keeps tx due due held held (Proc.ask e : AmfM e.Answer) :=
  fun _ _ _ h _ _ _ ht => h.others ht

theorem change {f : Tables → Tables} (hf : ∀ t, Grows t (f t)) :
    Keeps tx due due held held (Proc.change f) :=
  fun _ t _ h => ⟨(hf t).others, h.others ((hf t).others tx)⟩

theorem actShared {f : Tables → α × Tables} (hf : ∀ t, Grows t (f t).2) :
    Keeps tx due due held held (Proc.actShared f : AmfM α) :=
  fun _ t _ h => ⟨(hf t).others, h.others ((hf t).others tx)⟩

theorem callFor (e : Call) : Keeps tx due due held held (Amf.callFor amfUeId e) :=
  .bind .mark fun _ => .ask e

theorem spawnFor (j : Job) : Keeps tx due due held held (Amf.spawnFor amfUeId j) :=
  .bind .mark fun _ => .change (grows_push j)

theorem arm (a : Alarm) :
    Keeps tx ((amfUeId, a) :: due) due held held (Amf.arm fun tx => a.job tx amfUeId) := by
  intro l t w h
  rw [Amf.arm, Proc.assured_bind, Proc.assured_look, Proc.assured_change, h.channel]
  exact ⟨(grows_push _ t).others, h.arm⟩

theorem modifyUe {f : UeContext → UeContext} (hf : ∀ c, Turns [] c (f c)) :
    Keeps tx due due held none (Amf.modifyUe amfUeId f) :=
  fun _ _ _ h => ⟨proper_local, h.revise hf⟩

/-- A context, if there is one, changes in other respects. -/
theorem alter {f : UeContext → UeContext} (hf : ∀ c, Alike c (f c)) :
    Keeps tx due due held none (Amf.modifyUe amfUeId f) :=
  .modifyUe fun c => (hf c).turns

/-- What has been read changes. -/
theorem turn {f : UeContext → UeContext} {as : List Alarm} (hc : Turns as c (f c)) :
    Keeps tx due (as.map (Prod.mk amfUeId) ++ due) (some (amfUeId, c)) (some (amfUeId, f c))
      (Amf.modifyUe amfUeId f) :=
  fun _ _ _ h => ⟨proper_local, h.modify hc⟩

theorem insertUe {as : List Alarm} (hc : Turns as c c') :
    Keeps tx due (as.map (Prod.mk amfUeId) ++ due) (some (amfUeId, c)) (some (amfUeId, c'))
      (Amf.insertUe amfUeId c') :=
  fun _ _ _ h => ⟨proper_local, h.putBack hc⟩

/-- A context is taken up under an id. -/
theorem place {as : List Alarm} (hsound : Sound c) (hawaits : ∀ a, Awaits c a → a ∈ as) :
    Keeps tx due (as.map (Prod.mk amfUeId) ++ due) held (some (amfUeId, c)) (Amf.insertUe amfUeId c) :=
  fun _ _ _ h => ⟨proper_local, h.insert hsound fun a ha => .inr (.inr (hawaits a ha))⟩

theorem placeAtRest (hsound : Sound c) (hquiet : Quiet c) :
    Keeps tx due due held (some (amfUeId, c)) (Amf.insertUe amfUeId c) :=
  @place tx due held amfUeId c [] hsound fun a ha => absurd ha (hquiet a)

theorem removeUe (hdue : ∀ e ∈ due, e ∈ due' ∨ e.1 = amfUeId) :
    Keeps tx due due' held none (Amf.removeUe amfUeId) :=
  fun _ _ _ h => ⟨proper_local, h.erase hdue⟩

theorem removeUe_nil : Keeps tx [] [] held none (Amf.removeUe amfUeId) :=
  removeUe fun _ he => by cases he

theorem forEach {body : α → AmfM Unit} (h : ∀ a, Keeps tx due due held held (body a)) (as : List α) :
    Keeps tx due due held held (Proc.forEach body as) := by
  induction as with
  | nil => exact .pure ()
  | cons a as ih => exact .bind (h a) fun _ => ih

theorem sendAll (dls : List Downlink) : Keeps tx due due held held (Amf.sendAll dls) :=
  .forEach (fun _ => .mark) dls

end Keeps

end Radian.Amf.Outstanding
