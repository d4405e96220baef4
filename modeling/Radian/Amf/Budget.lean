import Radian.Amf.Retransmission
import Mathlib.Logic.Function.Basic
import Mathlib.Data.List.Nodup

/-!
# The retransmission budget

One UE's context on one association, its timers, and the time.  Messages that are sent until they are
answered are numbered, and what has been sent and answered is recorded; no handler looks at it.

- `Tracked`, `Armed`, `Watch` — a message that is held for retransmission, a timer asleep, the state.
- `Event`, `Watch.step` — what the handlers make of it, and what the timers do.
- `Budgeted` — nobody is evicted before the message that is outstanding has been sent five times, a
  whole interval apart and without an answer, and what T3560 sends is the challenge that is pending.
- `Heeds` — the side condition.
- `Kept`, `budgeted` — the invariant, and every run that heeds it is budgeted.
- `Follows` — what the handlers leave of the context is what the machine has.
-/

namespace Radian.Amf.Budget

open Nas (Nas5gmmMessage NasSecurityContext)
open Security (Bytes)

/-! ### The state -/

/-- Where a context holds a message for retransmission: `pendingRetx` or `pendingConfigUpdate`. -/
inductive Slot where
  | registration
  | configuration
  deriving DecidableEq, Repr

/-- The message a slot held as its `number`-th. -/
structure Tracked where
  slot : Slot
  number : Nat
  deriving DecidableEq, Repr

inductive Alarm where
  | nasRetx (kind : RetxKind)
  | t3555
  | registrationGuard
  deriving DecidableEq, Repr

/-- A timer asleep.  What it was armed for it does not know. -/
structure Armed where
  alarm : Alarm
  due : Instant
  message : Option Tracked
  deriving DecidableEq, Repr

/-- An eviction: when the message that was outstanding had been sent, newest first, and whether it had
been answered. -/
structure Eviction where
  sent : List Instant
  answered : Bool
  deriving DecidableEq, Repr

structure Watch where
  now : Instant
  ue : Option UeContext
  timers : List Armed
  /-- How many messages each slot has held. -/
  count : Slot → Nat := fun _ => 0
  sends : List (Tracked × Instant) := []
  answered : List Tracked := []
  evictions : List Eviction := []
  /-- What T3560 has sent again of a challenge, beside the authentication pending at the time. -/
  resent : List (Bytes × Option PendingAuth) := []

namespace Watch

/-- The message a slot held last. -/
def current (w : Watch) (slot : Slot) : Tracked := { slot, number := w.count slot }

/-- When a message has been sent, newest first. -/
def times (w : Watch) (m : Tracked) : List Instant :=
  (w.sends.filter fun s => s.1 == m).map fun s => s.2

/-! ### Messages -/

/-- The message of a slot goes out, and its timer is armed. -/
def transmit (interval : Nat) (alarm : Alarm) (slot : Slot) (w : Watch) : Watch :=
  { w with
    sends := (w.current slot, w.now) :: w.sends
    timers := { alarm, due := w.now + interval, message := some (w.current slot) } :: w.timers }

/-- A new message goes into a slot, and out. -/
def begin (interval : Nat) (alarm : Alarm) (slot : Slot) (c : UeContext) (w : Watch) : Watch :=
  transmit interval alarm slot
    { w with ue := some c, count := Function.update w.count slot (w.count slot + 1) }

def revise (f : UeContext → UeContext) (w : Watch) : Watch := { w with ue := w.ue.map f }

/-- The kind of registration message that is outstanding. -/
def outstanding (w : Watch) : Option RetxKind := w.ue.bind fun c => c.pendingRetx.map fun p => p.kind

/-- A registration message goes out, of a context that is otherwise `f` of what it was. -/
def request (interval : Nat) (kind : RetxKind) (nasBytes : Bytes) (f : UeContext → UeContext)
    (w : Watch) : Watch :=
  match w.ue with
  | none => w
  | some c =>
      w.begin interval (.nasRetx kind) .registration
        { f c with pendingRetx := some { kind, nasBytes, attempts := 1 } }

/-- The UE has answered a message of this kind. -/
def heard (kind : RetxKind) (w : Watch) : Watch :=
  if w.outstanding = some kind then
    { w with answered := w.current .registration :: w.answered }
  else w

/-- A Configuration Update Command goes out, when there is a security context. -/
def push (F : Functions) (interval : Nat) (cuc : Nas5gmmMessage)
    (areaRestriction : Option AreaRestriction) (w : Watch) : Watch :=
  match w.ue with
  | none => w
  | some c =>
      match c.sec with
      | none => w
      | some sec =>
          w.begin interval .t3555 .configuration
            { c with
              sec := some (sec.protectDl F.algorithms F.nas Nas.Sht.INTEGRITY_CIPHERED cuc).2
              pendingConfigUpdate := some { cuc, areaRestriction, attempts := 1 } }

/-! ### Timers -/

def evict (sent : List Instant) (answered : Bool) (w : Watch) : Watch :=
  { w with ue := none, evictions := { sent, answered } :: w.evictions }

/-- A retransmission timer goes off. -/
def expire (interval : Nat) (alarm : Alarm) (slot : Slot) (expire : UeContext → Expiry)
    (w : Watch) : Watch :=
  match w.ue with
  | none => w
  | some c =>
      match expire c with
      | .stale => w
      | .resend nas _ c' =>
          transmit interval alarm slot
            { w with
              ue := some c'
              resent := if alarm = .nasRetx .AuthRequest then (nas, c.auth) :: w.resent
                else w.resent }
      | .exhausted => w.evict (w.times (w.current slot)) (w.answered.contains (w.current slot))

/-- The registration guard goes off. -/
def guardExpiry (w : Watch) : Watch :=
  match w.ue with
  | none => w
  | some c =>
      if c.state = .Registered then w
      else if c.stalled w.now then
        match c.pendingRetx with
        | some _ =>
            w.evict (w.times (w.current .registration))
              (w.answered.contains (w.current .registration))
        | none => w.evict [] false
      else
        let left := max 1 (REGISTRATION_GUARD_SECS - (w.now - c.regProgressAt))
        { w with
          timers := { alarm := .registrationGuard, due := w.now + left, message := none } ::
            w.timers }

/-- A timer that is due goes off, at once or later. -/
def fire (F : Functions) (interval : Nat) (t : Armed) (w : Watch) : Watch :=
  if t ∈ w.timers ∧ t.due ≤ w.now then
    let w := { w with timers := w.timers.erase t }
    match t.alarm with
    | .nasRetx kind => w.expire interval t.alarm .registration (UeContext.expireNasRetx kind)
    | .t3555 => w.expire interval t.alarm .configuration (UeContext.expireT3555 F)
    | .registrationGuard => w.guardExpiry
  else w

end Watch

/-! ### Events -/

/-- What happens to the context.  An answer of the UE may come late, again or never. -/
inductive Event where
  | pass (time : Nat)
  | identityRequest (nasBytes : Bytes)
  /-- With what the AUSF answers, if it is asked and does. -/
  | identityResponse (answer : Option (String × UeAuthenticationCtx))
  | startAuthentication (answer : Option (String × UeAuthenticationCtx))
  | authenticationResponse
  | authenticationFailure (answer : Option (String × UeAuthenticationCtx))
  | securityModeCommand (sec : NasSecurityContext) (kamf smc : Bytes)
  | securityModeComplete
  /-- The context is `c` otherwise. -/
  | registrationAccept (nasBytes : Bytes) (c : UeContext)
  | registrationComplete
  | push (cuc : Nas5gmmMessage) (areaRestriction : Option AreaRestriction)
  | configurationUpdateComplete
  /-- Another handler leaves the context as `c`, but for what is outstanding. -/
  | revise (c : UeContext)
  | leave
  | fire (t : Armed)
  deriving DecidableEq

variable (F : Functions) (interval : Nat)

/-- The challenge in what the AUSF answers. -/
def challengeOf (answer : Option (String × UeAuthenticationCtx)) : Option (PendingAuth × Bytes) :=
  answer.bind fun a => AmfAuth.challenge F a.1 a.2

namespace Watch

/-- An Authentication Request goes out, when there is a challenge. -/
def challenge (answer : Option (String × UeAuthenticationCtx)) (w : Watch) : Watch :=
  match challengeOf F answer with
  | none => w
  | some (pending, nasReq) =>
      w.request interval .AuthRequest nasReq (UeContext.challenged pending nasReq w.now)

/-- The UE's first failure to synchronise is answered with a fresh challenge, if there is one. -/
def resync (answer : Option (String × UeAuthenticationCtx)) (w : Watch) : Option PendingAuth := do
  let c ← w.ue
  let _ ← c.auth
  if c.resyncAttempted then none else (challengeOf F answer).map fun challenge => challenge.1

def step (w : Watch) : Event → Watch
  | .pass time => { w with now := w.now + time }
  | .identityRequest nasBytes => w.request interval .IdentityRequest nasBytes id
  | .identityResponse answer =>
      if (w.ue.map fun c => c.state) = some .IdentityRequested then
        (w.heard .IdentityRequest).challenge F interval answer
      else w
  | .startAuthentication answer => w.challenge F interval answer
  | .authenticationResponse =>
      (w.heard .AuthRequest).revise fun c => { c with pendingRetx := none, auth := none }
  | .authenticationFailure answer =>
      match w.resync F answer with
      | none => { w.heard .AuthRequest with ue := none }
      | some fresh =>
          (w.heard .AuthRequest).revise fun c =>
            { c with auth := some fresh, resyncAttempted := true }
  | .securityModeCommand sec kamf smc =>
      w.request interval .SecurityModeCommand smc fun c =>
        { c with sec := some sec, kamf := some kamf, state := .SecurityMode, regProgressAt := w.now }
  | .securityModeComplete =>
      (w.heard .SecurityModeCommand).revise fun c => { c with pendingRetx := none }
  | .registrationAccept nasBytes c' =>
      w.request interval .RegistrationAccept nasBytes fun c =>
        { c' with pendingConfigUpdate := c.pendingConfigUpdate, auth := c.auth }
  | .registrationComplete =>
      (w.heard .RegistrationAccept).revise fun c =>
        { c with state := .Registered, pendingRetx := none, cblSlot := false }
  | .push cuc areaRestriction => w.push F interval cuc areaRestriction
  | .configurationUpdateComplete =>
      let w := match w.ue.bind fun c => c.pendingConfigUpdate with
        | some _ => { w with answered := w.current .configuration :: w.answered }
        | none => w
      w.revise fun c => { c with pendingConfigUpdate := none }
  | .revise c' =>
      w.revise fun c =>
        { c' with
          pendingRetx := c.pendingRetx, pendingConfigUpdate := c.pendingConfigUpdate
          auth := c.auth }
  | .leave => { w with ue := none }
  | .fire t => w.fire F interval t

/-- A context without anything outstanding; its registration guard may be armed. -/
structure Started (w : Watch) : Prop where
  retx : ∀ c, w.ue = some c → c.pendingRetx = none
  config : ∀ c, w.ue = some c → c.pendingConfigUpdate = none
  timers : ∀ t ∈ w.timers, t.message = none
  sends : w.sends = []
  answered : w.answered = []
  evictions : w.evictions = []
  resent : w.resent = []

end Watch

/-! ### The budget -/

/-- These bytes carry the challenge that this authentication waits for the answer to. -/
def Challenges (nas : Bytes) (auth : Option PendingAuth) : Prop :=
  ∃ pending ausfBase ctx, auth = some pending ∧
    AmfAuth.challenge F ausfBase ctx = some (pending, nas)

/-- The message has been sent five times, an interval apart at least, and has not been answered. -/
structure Spent (e : Eviction) : Prop where
  sends : e.sent.length = NAS_RETX_MAX_SENDS
  apart : e.sent.Pairwise fun later earlier => earlier + interval ≤ later
  unanswered : e.answered = false

structure Budgeted (w : Watch) : Prop where
  spent : ∀ e ∈ w.evictions, Spent interval e
  challenge : ∀ r ∈ w.resent, Challenges F r.1 r.2

/-- A retransmission timer that finds a message outstanding was armed for that message, and the UE has not
answered a registration message that one finds.  The registration guard finds progress, or a message that
its timer has sent four times again and that has not been answered. -/
def Heeds (w : Watch) : Event → Prop
  | .fire t => t ∈ w.timers → t.due ≤ w.now → ∀ c, w.ue = some c →
      match t.alarm with
      | .nasRetx kind => ∀ p, c.pendingRetx = some p → p.kind = kind →
          t.message = some (w.current .registration) ∧ w.current .registration ∉ w.answered
      | .t3555 => ∀ p, c.pendingConfigUpdate = some p →
          t.message = some (w.current .configuration)
      | .registrationGuard => c.state ≠ .Registered → c.stalled w.now = true →
          ∃ p, c.pendingRetx = some p ∧ NAS_RETX_MAX_SENDS ≤ p.attempts ∧
            w.current .registration ∉ w.answered
  | _ => True

/-! ### The invariant -/

namespace Watch

/-- No message has a number yet to come, and no two timers are armed for one message. -/
structure Numbered (w : Watch) : Prop where
  sends : ∀ s ∈ w.sends, s.1.number ≤ w.count s.1.slot
  answered : ∀ m ∈ w.answered, m.number ≤ w.count m.slot
  timers : ∀ m ∈ w.timers.filterMap Armed.message, m.number ≤ w.count m.slot
  alone : (w.timers.filterMap Armed.message).Nodup

/-- The message in a slot has been sent `attempts` times, an interval apart, and its timer is not due
before the interval is over. -/
structure Accounted (w : Watch) (slot : Slot) (attempts : Nat) : Prop where
  sends : (w.times (w.current slot)).length = attempts
  apart : (w.times (w.current slot)).Pairwise fun later earlier => earlier + interval ≤ later
  due : ∀ t ∈ w.timers, t.message = some (w.current slot) →
    ∀ time ∈ w.times (w.current slot), time + interval ≤ t.due
  few : attempts ≤ NAS_RETX_MAX_SENDS

/-- The invariant.  A registration message may be outstanding that has been answered, and then another
challenge may be pending. -/
structure Kept (w : Watch) : Prop where
  numbered : w.Numbered
  registration : ∀ c p, w.ue = some c → c.pendingRetx = some p →
    w.Accounted interval .registration p.attempts
  configuration : ∀ c p, w.ue = some c → c.pendingConfigUpdate = some p →
    w.Accounted interval .configuration p.attempts ∧ w.current .configuration ∉ w.answered
  challenge : ∀ c p, w.ue = some c → c.pendingRetx = some p → p.kind = .AuthRequest →
    w.current .registration ∉ w.answered → Challenges F p.nasBytes c.auth
  budgeted : Budgeted F interval w

variable {F interval} {w w' : Watch} {slot : Slot}

theorem Started.kept (h : Started w) : w.Kept F interval where
  numbered :=
    { sends := by simp [h.sends]
      answered := by simp [h.answered]
      timers := by
        have hnone : w.timers.filterMap Armed.message = [] := by
          rw [List.filterMap_eq_nil_iff]
          exact h.timers
        simp [hnone]
      alone := by
        have hnone : w.timers.filterMap Armed.message = [] := by
          rw [List.filterMap_eq_nil_iff]
          exact h.timers
        simp [hnone] }
  configuration c p hc hp := by
    rw [h.config c hc] at hp
    cases hp
  budgeted := ⟨by simp [h.evictions], by simp [h.resent]⟩
  registration c p hc hp := by
    rw [h.retx c hc] at hp
    cases hp
  challenge c p hc hp := by
    rw [h.retx c hc] at hp
    cases hp

/-- What is accounted for stays so where no more is sent or armed in its slot. -/
theorem Accounted.congr {attempts : Nat} (h : w.Accounted interval slot attempts)
    (hcount : w'.count slot = w.count slot) (hsends : w'.sends = w.sends)
    (htimers : w'.timers ⊆ w.timers) : w'.Accounted interval slot attempts := by
  have hcurrent : w'.current slot = w.current slot := by rw [current, current, hcount]
  have htimes : w'.times (w.current slot) = w.times (w.current slot) := by rw [times, times, hsends]
  constructor
  · rw [hcurrent, htimes]
    exact h.sends
  · rw [hcurrent, htimes]
    exact h.apart
  · rw [hcurrent, htimes]
    exact fun t ht => h.due t (htimers ht)
  · exact h.few

/-- Without a context there is nothing to account for. -/
theorem Kept.of_none (hnumbered : w.Numbered) (hbudgeted : Budgeted F interval w) (hue : w.ue = none) :
    w.Kept F interval := by
  refine ⟨hnumbered, fun c p hc => ?_, fun c p hc => ?_, fun c p hc => ?_, hbudgeted⟩
  · rw [hue] at hc
    cases hc
  · rw [hue] at hc
    cases hc
  · rw [hue] at hc
    cases hc

/-! ### Transmissions -/

/-- A message that has not been put into its slot yet has not been sent. -/
theorem Numbered.times_nil (h : w.Numbered) {m : Tracked} (hm : w.count m.slot < m.number) :
    w.times m = [] := by
  rw [times, List.map_eq_nil_iff, List.filter_eq_nil_iff]
  intro s hs hsame
  rw [beq_iff_eq] at hsame
  have hle := h.sends s hs
  rw [hsame] at hle
  omega

theorem times_transmit (alarm : Alarm) (m : Tracked) :
    (w.transmit interval alarm slot).times m =
      if m = w.current slot then w.now :: w.times m else w.times m := by
  by_cases hm : m = w.current slot
  · simp [times, transmit, hm]
  · have hne : ¬ w.current slot = m := fun h => hm h.symm
    simp [times, transmit, hm, hne]

/-- What a transmission leaves of the other slot. -/
theorem Accounted.transmit_other {attempts : Nat} {other : Slot} (hne : other ≠ slot)
    (h : w.Accounted interval other attempts) (alarm : Alarm) :
    (w.transmit interval alarm slot).Accounted interval other attempts := by
  have hcurrent : (w.transmit interval alarm slot).current other = w.current other := rfl
  have hdistinct : w.current other ≠ w.current slot := fun hsame =>
    hne (congrArg Tracked.slot hsame)
  have htimes : (w.transmit interval alarm slot).times (w.current other) =
      w.times (w.current other) := by
    rw [times_transmit, if_neg hdistinct]
  constructor
  · rw [hcurrent, htimes]
    exact h.sends
  · rw [hcurrent, htimes]
    exact h.apart
  · rw [hcurrent, htimes]
    intro t ht hmessage
    obtain rfl | ht := List.mem_cons.mp ht
    · exact absurd (Option.some_inj.mp hmessage).symm hdistinct
    · exact h.due t ht hmessage
  · exact h.few

/-- The message of a slot goes out when no timer is armed for it any more. -/
theorem Accounted.transmit {attempts : Nat} (h : w.Accounted interval slot attempts)
    (hfew : attempts < NAS_RETX_MAX_SENDS) (alarm : Alarm)
    (hnow : ∀ time ∈ w.times (w.current slot), time + interval ≤ w.now)
    (hidle : w.current slot ∉ w.timers.filterMap Armed.message) :
    (w.transmit interval alarm slot).Accounted interval slot (attempts + 1) := by
  have htimes : (w.transmit interval alarm slot).times (w.current slot) =
      w.now :: w.times (w.current slot) := by
    rw [times_transmit, if_pos rfl]
  have hcurrent : (w.transmit interval alarm slot).current slot = w.current slot := rfl
  constructor
  · rw [hcurrent, htimes, List.length_cons, h.sends]
  · rw [hcurrent, htimes]
    exact List.pairwise_cons.mpr ⟨hnow, h.apart⟩
  · rw [hcurrent, htimes]
    intro t ht hmessage time htime
    obtain rfl | ht := List.mem_cons.mp ht
    · obtain rfl | htime := List.mem_cons.mp htime
      · exact le_rfl
      · exact (hnow time htime).trans (Nat.le_add_right _ _)
    · exact absurd (List.mem_filterMap.mpr ⟨t, ht, hmessage⟩) hidle
  · exact hfew

theorem Numbered.transmit (h : w.Numbered) (alarm : Alarm)
    (hidle : w.current slot ∉ w.timers.filterMap Armed.message) :
    (w.transmit interval alarm slot).Numbered := by
  constructor
  · intro s hs
    obtain rfl | hs := List.mem_cons.mp hs
    · exact le_rfl
    · exact h.sends s hs
  · exact h.answered
  · intro m hm
    obtain rfl | hm := List.mem_cons.mp hm
    · exact le_rfl
    · exact h.timers m hm
  · exact List.nodup_cons.mpr ⟨hidle, h.alone⟩

/-! ### New messages -/

/-- With the number of the next message in a slot, the rest as it was. -/
theorem Numbered.next (h : w.Numbered) (ue : Option UeContext) (slot : Slot) :
    Numbered { w with ue, count := Function.update w.count slot (w.count slot + 1) } := by
  have hle : ∀ m : Tracked, m.number ≤ w.count m.slot →
      m.number ≤ Function.update w.count slot (w.count slot + 1) m.slot := by
    intro m hm
    by_cases hslot : m.slot = slot
    · rw [hslot] at hm
      rw [hslot, Function.update_self]
      omega
    · rw [Function.update_of_ne hslot]
      exact hm
  exact ⟨fun s hs => hle s.1 (h.sends s hs), fun m hm => hle m (h.answered m hm),
    fun m hm => hle m (h.timers m hm), h.alone⟩

/-- A message that is new in its slot is accounted for. -/
theorem Numbered.begin (h : w.Numbered) (alarm : Alarm) (slot : Slot) (c : UeContext) :
    (w.begin interval alarm slot c).Numbered ∧
      (w.begin interval alarm slot c).Accounted interval slot 1 ∧
        (w.begin interval alarm slot c).current slot ∉ w.answered := by
  let fresh : Watch :=
    { w with ue := some c, count := Function.update w.count slot (w.count slot + 1) }
  have hnumber : (fresh.current slot).number = w.count slot + 1 := Function.update_self _ _ _
  have hnew : ∀ m : Tracked, m.number ≤ w.count m.slot → m ≠ fresh.current slot := by
    rintro m hm rfl
    have hslot : (fresh.current slot).slot = slot := rfl
    rw [hnumber, hslot] at hm
    omega
  have htimes : fresh.times (fresh.current slot) = [] := by
    refine h.times_nil (m := fresh.current slot) ?_
    rw [hnumber]
    exact Nat.lt_succ_self _
  have hidle : fresh.current slot ∉ fresh.timers.filterMap Armed.message :=
    fun hmem => hnew _ (h.timers _ hmem) rfl
  have hempty : fresh.Accounted interval slot 0 := by
    constructor
    · rw [htimes]
      rfl
    · rw [htimes]
      exact List.Pairwise.nil
    · rw [htimes]
      exact fun _ _ _ _ hmem => absurd hmem List.not_mem_nil
    · exact Nat.zero_le _
  refine ⟨(h.next (some c) slot).transmit alarm hidle,
    hempty.transmit (by decide) alarm (fun time htime => ?_) hidle,
    fun hmem => hnew _ (h.answered _ hmem) rfl⟩
  rw [htimes] at htime
  cases htime

/-- The other slot is left alone. -/
theorem Accounted.begin_other {attempts : Nat} {other : Slot} (hne : other ≠ slot)
    (h : w.Accounted interval other attempts) (alarm : Alarm) (c : UeContext) :
    (w.begin interval alarm slot c).Accounted interval other attempts := by
  let fresh : Watch :=
    { w with ue := some c, count := Function.update w.count slot (w.count slot + 1) }
  have hold : fresh.Accounted interval other attempts :=
    h.congr (Function.update_of_ne hne _ _) rfl (List.Subset.refl _)
  exact hold.transmit_other hne alarm

theorem current_begin_other {other : Slot} (hne : other ≠ slot) (alarm : Alarm) (c : UeContext) :
    (w.begin interval alarm slot c).current other = w.current other :=
  congrArg (Tracked.mk other) (Function.update_of_ne hne _ _)

/-- A registration message goes out, whatever was outstanding before. -/
theorem Kept.request (h : w.Kept F interval) (kind : RetxKind) (nasBytes : Bytes)
    {f : UeContext → UeContext}
    (hconfig : ∀ c, w.ue = some c → (f c).pendingConfigUpdate = c.pendingConfigUpdate)
    (hchallenge : ∀ c, w.ue = some c → kind = .AuthRequest → Challenges F nasBytes (f c).auth) :
    (w.request interval kind nasBytes f).Kept F interval := by
  cases hue : w.ue with
  | none =>
    rw [Watch.request, hue]
    exact h
  | some c =>
    have hunfold : w.request interval kind nasBytes f =
        w.begin interval (.nasRetx kind) .registration
          { f c with pendingRetx := some { kind, nasBytes, attempts := 1 } } := by
      rw [Watch.request, hue]
    rw [hunfold]
    obtain ⟨hnumbered, hfresh, -⟩ := h.numbered.begin (.nasRetx kind) .registration
      { f c with pendingRetx := some { kind, nasBytes, attempts := 1 } }
    refine ⟨hnumbered, ?_, ?_, ?_, ⟨h.budgeted.spent, h.budgeted.challenge⟩⟩
    · intro c' p hc' hp
      cases hc'
      cases hp
      exact hfresh
    · intro c' p hc' hp
      cases hc'
      obtain ⟨hold, hanswered⟩ := h.configuration c p hue ((hconfig c hue).symm.trans hp)
      refine ⟨hold.begin_other (by decide) _ _, ?_⟩
      rw [current_begin_other (by decide)]
      exact hanswered
    · intro c' p hc' hp hkind _
      cases hc'
      cases hp
      exact hchallenge c hue hkind

theorem revise_eq_some {f : UeContext → UeContext} {c' : UeContext}
    (h : (w.revise f).ue = some c') : ∃ c, w.ue = some c ∧ f c = c' := Option.map_eq_some_iff.mp h

/-- A handler that keeps what is outstanding, or is done with it, and what it waits for. -/
theorem Kept.revise (h : w.Kept F interval) {f : UeContext → UeContext}
    (hretx : ∀ c, w.ue = some c → ∀ p, (f c).pendingRetx = some p → c.pendingRetx = some p)
    (hconfig : ∀ c, w.ue = some c → (f c).pendingConfigUpdate = c.pendingConfigUpdate)
    (hauth : ∀ c p, w.ue = some c → (f c).pendingRetx = some p → p.kind = .AuthRequest →
      w.current .registration ∉ w.answered → (f c).auth = c.auth) : (w.revise f).Kept F interval where
  numbered := ⟨h.numbered.sends, h.numbered.answered, h.numbered.timers, h.numbered.alone⟩
  registration c' p hc' hp := by
    obtain ⟨c, hc, rfl⟩ := revise_eq_some hc'
    exact (h.registration c p hc (hretx c hc p hp)).congr rfl rfl (List.Subset.refl _)
  configuration c' p hc' hp := by
    obtain ⟨c, hc, rfl⟩ := revise_eq_some hc'
    rw [hconfig c hc] at hp
    obtain ⟨hold, hanswered⟩ := h.configuration c p hc hp
    exact ⟨hold.congr rfl rfl (List.Subset.refl _), hanswered⟩
  challenge c' p hc' hp hkind hanswered := by
    obtain ⟨c, hc, rfl⟩ := revise_eq_some hc'
    rw [hauth c p hc hp hkind hanswered]
    exact h.challenge c p hc (hretx c hc p hp) hkind hanswered
  budgeted := ⟨h.budgeted.spent, h.budgeted.challenge⟩

/-- Nothing is left to account for in the registration slot. -/
theorem Kept.settle (h : w.Kept F interval) {f : UeContext → UeContext}
    (hretx : ∀ c, (f c).pendingRetx = none)
    (hconfig : ∀ c, (f c).pendingConfigUpdate = c.pendingConfigUpdate) : (w.revise f).Kept F interval := by
  refine h.revise (fun c _ p hp => ?_) (fun c _ => hconfig c) fun c p _ hp => ?_
  · rw [hretx c] at hp
    cases hp
  · rw [hretx c] at hp
    cases hp

/-- An answer to a registration message. -/
theorem Kept.heard (h : w.Kept F interval) (kind : RetxKind) : (w.heard kind).Kept F interval := by
  unfold Watch.heard
  split
  · refine ⟨⟨h.numbered.sends, fun m hm => ?_, h.numbered.timers, h.numbered.alone⟩, ?_, ?_, ?_,
      ⟨h.budgeted.spent, h.budgeted.challenge⟩⟩
    · obtain rfl | hm := List.mem_cons.mp hm
      · exact le_rfl
      · exact h.numbered.answered m hm
    · exact fun c p hc hp => (h.registration c p hc hp).congr rfl rfl (List.Subset.refl _)
    · intro c p hc hp
      obtain ⟨hold, hanswered⟩ := h.configuration c p hc hp
      refine ⟨hold.congr rfl rfl (List.Subset.refl _), fun hm => ?_⟩
      obtain hslot | hm := List.mem_cons.mp hm
      · cases congrArg Tracked.slot hslot
      · exact hanswered hm
    · exact fun c p _ _ _ hanswered => absurd List.mem_cons_self hanswered
  · exact h

theorem heard_ue (kind : RetxKind) : (w.heard kind).ue = w.ue := by
  unfold Watch.heard
  split <;> rfl

/-- What is outstanding has been answered. -/
theorem answered_heard {kind : RetxKind} (h : w.outstanding = some kind) :
    (w.heard kind).current .registration ∈ (w.heard kind).answered := by
  rw [Watch.heard, if_pos h]
  exact List.mem_cons_self

/-- A Configuration Update Command goes out, whatever was outstanding before. -/
theorem Kept.push (h : w.Kept F interval) (cuc : Nas5gmmMessage)
    (areaRestriction : Option AreaRestriction) :
    (w.push F interval cuc areaRestriction).Kept F interval := by
  cases hue : w.ue with
  | none =>
    rw [Watch.push, hue]
    exact h
  | some c =>
    cases hsec : c.sec with
    | none =>
      simp only [Watch.push, hue, hsec]
      exact h
    | some sec =>
      simp only [Watch.push, hue, hsec]
      obtain ⟨hnumbered, hfresh⟩ := h.numbered.begin .t3555 .configuration
        { c with
          sec := some (sec.protectDl F.algorithms F.nas Nas.Sht.INTEGRITY_CIPHERED cuc).2
          pendingConfigUpdate := some { cuc, areaRestriction, attempts := 1 } }
      refine ⟨hnumbered, ?_, ?_, ?_, ⟨h.budgeted.spent, h.budgeted.challenge⟩⟩
      · intro c' p hc' hp
        cases hc'
        exact (h.registration c p hue hp).begin_other (by decide) _ _
      · intro c' p hc' hp
        cases hc'
        cases hp
        exact hfresh
      · intro c' p hc' hp hkind hanswered
        cases hc'
        rw [current_begin_other (by decide)] at hanswered
        exact h.challenge c p hue hp hkind hanswered

/-! ### Timers -/

/-- A timer that has gone off is gone, and no other is armed for its message. -/
theorem Kept.erase (h : w.Kept F interval) (t : Armed) :
    Kept F interval { w with timers := w.timers.erase t } where
  numbered :=
    { sends := h.numbered.sends
      answered := h.numbered.answered
      timers := fun m hm => h.numbered.timers m ((List.erase_sublist.filterMap _).subset hm)
      alone := h.numbered.alone.sublist (List.erase_sublist.filterMap _) }
  registration c p hc hp := (h.registration c p hc hp).congr rfl rfl List.erase_subset
  configuration c p hc hp :=
    (h.configuration c p hc hp).imp_left fun hold => hold.congr rfl rfl List.erase_subset
  challenge := h.challenge
  budgeted := ⟨h.budgeted.spent, h.budgeted.challenge⟩

theorem Numbered.not_armed (h : w.Numbered) {t : Armed} (ht : t ∈ w.timers) {m : Tracked}
    (hm : t.message = some m) : m ∉ (w.timers.erase t).filterMap Armed.message := by
  have hperm := (List.perm_cons_erase ht).filterMap Armed.message
  rw [List.filterMap_cons_some hm] at hperm
  exact (List.nodup_cons.mp (hperm.nodup_iff.mp h.alone)).1

/-- The message of a slot goes out once more. -/
theorem Kept.resend (h : w.Kept F interval) {c c' : UeContext} (hue : w.ue = some c)
    {attempts : Nat} (hslot : w.Accounted interval slot attempts)
    (hfew : attempts < NAS_RETX_MAX_SENDS) {alarm : Alarm} {nas : Bytes}
    (hnow : ∀ time ∈ w.times (w.current slot), time + interval ≤ w.now)
    (hidle : w.current slot ∉ w.timers.filterMap Armed.message)
    (hretx : ∀ p', c'.pendingRetx = some p' → ∃ p, c.pendingRetx = some p ∧ p'.kind = p.kind ∧
      p'.nasBytes = p.nasBytes ∧ p'.attempts = if slot = .registration then attempts + 1 else p.attempts)
    (hconfig : ∀ p', c'.pendingConfigUpdate = some p' → ∃ p, c.pendingConfigUpdate = some p ∧
      p'.attempts = if slot = .configuration then attempts + 1 else p.attempts)
    (hauth : c'.auth = c.auth) (hresent : alarm = .nasRetx .AuthRequest → Challenges F nas c.auth) :
    (Watch.transmit interval alarm slot
      { w with
        ue := some c'
        resent := if alarm = .nasRetx .AuthRequest then (nas, c.auth) :: w.resent
          else w.resent }).Kept F interval := by
  let w' : Watch :=
    { w with
      ue := some c'
      resent := if alarm = .nasRetx .AuthRequest then (nas, c.auth) :: w.resent else w.resent }
  have hsame : ∀ {other attempts}, w.Accounted interval other attempts →
      w'.Accounted interval other attempts :=
    fun hold => hold.congr rfl rfl (List.Subset.refl _)
  have hnumbered : w'.Numbered :=
    ⟨h.numbered.sends, h.numbered.answered, h.numbered.timers, h.numbered.alone⟩
  have hsent := (hsame hslot).transmit hfew alarm hnow hidle
  refine ⟨hnumbered.transmit alarm hidle, ?_, ?_, ?_, h.budgeted.spent, fun r hr => ?_⟩
  · intro c₁ p' hc₁ hp'
    cases hc₁
    obtain ⟨p, hp, -, -, hattempts⟩ := hretx p' hp'
    by_cases hself : slot = .registration
    · rw [hattempts, if_pos hself]
      exact hself ▸ hsent
    · rw [hattempts, if_neg hself]
      exact (hsame (h.registration c p hue hp)).transmit_other (Ne.symm hself) alarm
  · intro c₁ p' hc₁ hp'
    cases hc₁
    obtain ⟨p, hp, hattempts⟩ := hconfig p' hp'
    obtain ⟨hold, hanswered⟩ := h.configuration c p hue hp
    refine ⟨?_, hanswered⟩
    by_cases hself : slot = .configuration
    · rw [hattempts, if_pos hself]
      exact hself ▸ hsent
    · rw [hattempts, if_neg hself]
      exact (hsame hold).transmit_other (Ne.symm hself) alarm
  · intro c₁ p' hc₁ hp' hkind hanswered
    cases hc₁
    obtain ⟨p, hp, hkinds, hbytes, -⟩ := hretx p' hp'
    rw [hauth, hbytes]
    exact h.challenge c p hue hp (hkinds.symm.trans hkind) hanswered
  · by_cases halarm : alarm = .nasRetx .AuthRequest
    · have hresents : w'.resent = (nas, c.auth) :: w.resent := if_pos halarm
      obtain rfl | hr := List.mem_cons.mp (hresents ▸ hr)
      · exact hresent halarm
      · exact h.budgeted.challenge r hr
    · have hresents : w'.resent = w.resent := if_neg halarm
      exact h.budgeted.challenge r (hresents ▸ hr)

/-- Whoever is evicted after five transmissions is evicted within the budget. -/
theorem Kept.evict (h : w.Kept F interval) {attempts : Nat}
    (hslot : w.Accounted interval slot attempts) (hmany : NAS_RETX_MAX_SENDS ≤ attempts)
    (hanswered : w.current slot ∉ w.answered) :
    (w.evict (w.times (w.current slot)) (w.answered.contains (w.current slot))).Kept F interval := by
  refine Kept.of_none ?_ ⟨fun e he => ?_, h.budgeted.challenge⟩ rfl
  · exact ⟨h.numbered.sends, h.numbered.answered, h.numbered.timers, h.numbered.alone⟩
  · obtain rfl | he := List.mem_cons.mp he
    · refine ⟨hslot.sends.trans (le_antisymm hslot.few hmany), hslot.apart, ?_⟩
      rw [Bool.eq_false_iff, ne_eq, List.contains_iff_mem]
      exact hanswered
    · exact h.budgeted.spent e he

/-- T3570, T3560 or T3550 goes off for the message that is outstanding. -/
theorem Kept.expireNasRetx (h : w.Kept F interval) (kind : RetxKind)
    (harmed : ∀ c p, w.ue = some c → c.pendingRetx = some p → p.kind = kind →
      w.current .registration ∉ w.timers.filterMap Armed.message ∧
        (∀ time ∈ w.times (w.current .registration), time + interval ≤ w.now) ∧
          w.current .registration ∉ w.answered) :
    (w.expire interval (.nasRetx kind) .registration (UeContext.expireNasRetx kind)).Kept F
      interval := by
  unfold Watch.expire
  cases hue : w.ue with
  | none => exact h
  | some c =>
    dsimp only
    unfold UeContext.expireNasRetx
    cases hp : c.pendingRetx with
    | none => exact h
    | some p =>
      dsimp only
      by_cases hkind : p.kind = kind
      · rw [if_neg (not_not_intro hkind)]
        have hslot := h.registration c p hue hp
        obtain ⟨hidle, hnow, hanswered⟩ := harmed c p hue hp hkind
        by_cases hmany : p.attempts ≥ NAS_RETX_MAX_SENDS
        · rw [if_pos hmany]
          exact h.evict hslot hmany hanswered
        · rw [if_neg hmany]
          refine h.resend hue hslot (Nat.lt_of_not_le hmany) hnow hidle ?_ ?_ rfl ?_
          · intro p' hp'
            cases hp'
            exact ⟨p, hp, rfl, rfl, rfl⟩
          · exact fun p' hp' => ⟨p', hp', rfl⟩
          · intro halarm
            cases halarm
            exact h.challenge c p hue hp hkind hanswered
      · rw [if_pos hkind]
        exact h

/-- T3555 goes off for the command that is outstanding. -/
theorem Kept.expireT3555 (h : w.Kept F interval)
    (harmed : ∀ c p, w.ue = some c → c.pendingConfigUpdate = some p →
      w.current .configuration ∉ w.timers.filterMap Armed.message ∧
        ∀ time ∈ w.times (w.current .configuration), time + interval ≤ w.now) :
    (w.expire interval .t3555 .configuration (UeContext.expireT3555 F)).Kept F interval := by
  unfold Watch.expire
  cases hue : w.ue with
  | none => exact h
  | some c =>
    dsimp only
    unfold UeContext.expireT3555
    cases hp : c.pendingConfigUpdate with
    | none => exact h
    | some p =>
      dsimp only
      obtain ⟨hslot, hanswered⟩ := h.configuration c p hue hp
      obtain ⟨hidle, hnow⟩ := harmed c p hue hp
      by_cases hmany : p.attempts < T3555_MAX_SENDS
      · rw [if_pos hmany]
        cases hsec : c.sec with
        | none => exact h
        | some sec =>
          refine h.resend hue hslot hmany hnow hidle ?_ ?_ rfl ?_
          · exact fun p' hp' => ⟨p', hp', rfl, rfl, rfl⟩
          · intro p' hp'
            cases hp'
            exact ⟨p, hp, rfl⟩
          · exact fun halarm => by cases halarm
      · rw [if_neg hmany]
        exact h.evict hslot (Nat.le_of_not_lt hmany) hanswered

/-- A guard is armed for no message. -/
theorem Kept.armGuard (h : w.Kept F interval) (due : Instant) :
    Kept F interval
      { w with timers := { alarm := .registrationGuard, due, message := none } :: w.timers } := by
  have hsame : ∀ {slot attempts}, w.Accounted interval slot attempts →
      Accounted interval
        { w with timers := { alarm := .registrationGuard, due, message := none } :: w.timers } slot
        attempts := by
    intro slot attempts hold
    refine ⟨hold.sends, hold.apart, fun t ht hmessage => ?_, hold.few⟩
    obtain rfl | ht := List.mem_cons.mp ht
    · cases hmessage
    · exact hold.due t ht hmessage
  refine ⟨?_, ?_, ?_, h.challenge, ⟨h.budgeted.spent, h.budgeted.challenge⟩⟩
  · exact ⟨h.numbered.sends, h.numbered.answered, h.numbered.timers, h.numbered.alone⟩
  · exact fun c p hc hp => hsame (h.registration c p hc hp)
  · exact fun c p hc hp => (h.configuration c p hc hp).imp_left hsame

/-- The registration guard goes off. -/
theorem Kept.guardExpiry (h : w.Kept F interval)
    (hspent : ∀ c, w.ue = some c → c.state ≠ .Registered → c.stalled w.now = true →
      ∃ p, c.pendingRetx = some p ∧ NAS_RETX_MAX_SENDS ≤ p.attempts ∧
        w.current .registration ∉ w.answered) :
    w.guardExpiry.Kept F interval := by
  unfold Watch.guardExpiry
  cases hue : w.ue with
  | none => exact h
  | some c =>
    dsimp only
    split
    · exact h
    · rename_i hstate
      split
      · rename_i hstalled
        obtain ⟨p, hp, hmany, hanswered⟩ := hspent c hue hstate hstalled
        rw [hp]
        exact h.evict (h.registration c p hue hp) hmany hanswered
      · rw [← hue]
        exact h.armGuard _

/-- A timer goes off that was armed for what it finds. -/
theorem Kept.fire (h : w.Kept F interval) (t : Armed) (hheeds : Heeds w (.fire t)) :
    (w.fire F interval t).Kept F interval := by
  unfold Watch.fire
  by_cases hdue : t ∈ w.timers ∧ t.due ≤ w.now
  · rw [if_pos hdue]
    have hheeds := hheeds hdue.1 hdue.2
    have hrest := h.erase t
    dsimp only
    cases halarm : t.alarm with
    | nasRetx kind =>
      refine hrest.expireNasRetx kind fun c p hc hp hkind => ?_
      obtain ⟨hmessage, hanswered⟩ : t.message = some (w.current .registration) ∧
          w.current .registration ∉ w.answered := by
        have hfound := hheeds c hc
        rw [halarm] at hfound
        exact hfound p hp hkind
      exact ⟨h.numbered.not_armed hdue.1 hmessage, fun time htime =>
        ((h.registration c p hc hp).due t hdue.1 hmessage time htime).trans hdue.2, hanswered⟩
    | t3555 =>
      refine hrest.expireT3555 fun c p hc hp => ?_
      have hmessage : t.message = some (w.current .configuration) := by
        have hfound := hheeds c hc
        rw [halarm] at hfound
        exact hfound p hp
      exact ⟨h.numbered.not_armed hdue.1 hmessage, fun time htime =>
        ((h.configuration c p hc hp).1.due t hdue.1 hmessage time htime).trans hdue.2⟩
    | registrationGuard =>
      refine hrest.guardExpiry fun c hc => ?_
      have hfound := hheeds c hc
      rw [halarm] at hfound
      exact hfound
  · rw [if_neg hdue]
    exact h

/-! ### Runs -/

theorem Kept.leave (h : w.Kept F interval) : Kept F interval { w with ue := none } :=
  Kept.of_none ⟨h.numbered.sends, h.numbered.answered, h.numbered.timers, h.numbered.alone⟩
    ⟨h.budgeted.spent, h.budgeted.challenge⟩ rfl

theorem Kept.pass (h : w.Kept F interval) (now : Instant) : Kept F interval { w with now } where
  numbered := ⟨h.numbered.sends, h.numbered.answered, h.numbered.timers, h.numbered.alone⟩
  registration c p hc hp := (h.registration c p hc hp).congr rfl rfl (List.Subset.refl _)
  configuration c p hc hp :=
    (h.configuration c p hc hp).imp_left fun hold => hold.congr rfl rfl (List.Subset.refl _)
  challenge := h.challenge
  budgeted := ⟨h.budgeted.spent, h.budgeted.challenge⟩

/-- What carries a challenge is pending. -/
theorem Kept.challenged (h : w.Kept F interval) (answer : Option (String × UeAuthenticationCtx)) :
    (w.challenge F interval answer).Kept F interval := by
  unfold Watch.challenge
  cases hchallenge : challengeOf F answer with
  | none => exact h
  | some challenge =>
    refine h.request .AuthRequest challenge.2 (fun _ _ => rfl) fun c _ _ => ?_
    obtain ⟨⟨ausfBase, ctx⟩, -, hauth⟩ := Option.bind_eq_some_iff.mp hchallenge
    exact ⟨challenge.1, ausfBase, ctx, rfl, hauth⟩

/-- Nothing is left to account for in the other slot, whatever has been answered there. -/
theorem Kept.updated (h : w.Kept F interval) {answered : List Tracked} (hold : w.answered ⊆ answered)
    (hanswered : ∀ m ∈ answered, m = w.current .configuration ∨ m ∈ w.answered) :
    Kept F interval
      (Watch.revise (fun c => { c with pendingConfigUpdate := none }) { w with answered }) := by
  refine ⟨⟨h.numbered.sends, fun m hm => ?_, h.numbered.timers, h.numbered.alone⟩, ?_, ?_, ?_,
    ⟨h.budgeted.spent, h.budgeted.challenge⟩⟩
  · obtain rfl | hm := hanswered m hm
    · exact le_rfl
    · exact h.numbered.answered m hm
  · intro c' p hc' hp
    obtain ⟨c, hc, rfl⟩ := revise_eq_some hc'
    exact (h.registration c p hc hp).congr rfl rfl (List.Subset.refl _)
  · intro c' p hc' hp
    obtain ⟨c, -, rfl⟩ := revise_eq_some hc'
    cases hp
  · intro c' p hc' hp hkind hout
    obtain ⟨c, hc, rfl⟩ := revise_eq_some hc'
    exact h.challenge c p hc hp hkind fun hin => hout (hold hin)

theorem Kept.configurationUpdateComplete (h : w.Kept F interval) :
    (w.step F interval .configurationUpdateComplete).Kept F interval := by
  unfold Watch.step
  dsimp only
  split
  · refine h.updated (List.subset_cons_self _ _) fun m hm => ?_
    exact List.mem_cons.mp hm
  · exact h.updated (List.Subset.refl _) fun m hm => Or.inr hm

/-- A challenge that another replaces has been answered. -/
theorem Kept.authenticationFailure (h : w.Kept F interval)
    (answer : Option (String × UeAuthenticationCtx)) :
    (w.step F interval (.authenticationFailure answer)).Kept F interval := by
  have hheard := h.heard .AuthRequest
  cases hfresh : w.resync F answer with
  | none =>
    simp only [Watch.step, hfresh]
    exact hheard.leave
  | some fresh =>
    simp only [Watch.step, hfresh]
    refine hheard.revise (fun _ _ _ hp => hp) (fun _ _ => rfl) fun c p hc hp hkind hanswered => ?_
    refine absurd (answered_heard ?_) hanswered
    rw [heard_ue] at hc
    have hp : c.pendingRetx = some p := hp
    rw [outstanding, hc, Option.bind_some, hp, Option.map_some, hkind]

theorem Kept.identityResponse (h : w.Kept F interval)
    (answer : Option (String × UeAuthenticationCtx)) :
    (w.step F interval (.identityResponse answer)).Kept F interval := by
  unfold Watch.step
  dsimp only
  split
  · exact (h.heard .IdentityRequest).challenged answer
  · exact h

/-- One event. -/
theorem Kept.step (h : w.Kept F interval) (e : Event) (hheeds : Heeds w e) :
    (w.step F interval e).Kept F interval := by
  cases e with
  | pass time => exact h.pass _
  | identityRequest nasBytes =>
    exact h.request .IdentityRequest nasBytes (fun _ _ => rfl) fun _ _ hkind => by cases hkind
  | identityResponse answer => exact h.identityResponse answer
  | startAuthentication answer => exact h.challenged answer
  | authenticationResponse => exact (h.heard .AuthRequest).settle (fun _ => rfl) fun _ => rfl
  | authenticationFailure answer => exact h.authenticationFailure answer
  | securityModeCommand sec kamf smc =>
    exact h.request .SecurityModeCommand smc (fun _ _ => rfl) fun _ _ hkind => by cases hkind
  | securityModeComplete =>
    exact (h.heard .SecurityModeCommand).settle (fun _ => rfl) fun _ => rfl
  | registrationAccept nasBytes c' =>
    exact h.request .RegistrationAccept nasBytes (fun _ _ => rfl) fun _ _ hkind => by cases hkind
  | registrationComplete =>
    exact (h.heard .RegistrationAccept).settle (fun _ => rfl) fun _ => rfl
  | push cuc areaRestriction => exact h.push cuc areaRestriction
  | configurationUpdateComplete => exact h.configurationUpdateComplete
  | revise c' => exact h.revise (fun _ _ _ hp => hp) (fun _ _ => rfl) fun _ _ _ _ _ _ => rfl
  | leave => exact h.leave
  | fire t => exact h.fire t hheeds

end Watch

/-! ### The handlers -/

section Handlers

variable {F : Functions} {interval : Nat} {amfUeId : AmfUeId}

/-- Run alone, a handler leaves the context that the machine has. -/
def Follows (amfUeId : AmfUeId) (p : AmfM (List Downlink)) (f : Watch → Watch) : Prop :=
  ∀ {X : Type} (O : Outside Association Tables Mark Call Call.Answer X)
    (allow : Mark → Association → Tables → X → Prop) (w : Watch) (l : Association) (t : Tables) (x : X),
    l.ues.lookup amfUeId = w.ue → t.clock = w.now →
      Proc.before O allow p (fun _ l' _ _ => l'.ues.lookup amfUeId = (f w).ue) l t x

variable {X : Type} {O : Outside Association Tables Mark Call Call.Answer X}
variable {allow : Mark → Association → Tables → X → Prop}

theorem follows_onExpiry (expire : UeContext → Expiry) (timer : Channel → Job) (alarm : Alarm)
    (slot : Slot) :
    Follows amfUeId (onExpiry amfUeId expire timer) (Watch.expire interval alarm slot expire) := by
  intro X O allow w l t x hue _
  unfold onExpiry getUe Watch.expire
  rw [Proc.before, Proc.wp_bind, Proc.wp_look, ← hue]
  cases hc : l.ues.lookup amfUeId with
  | none => exact hc.trans (hc.symm.trans hue)
  | some c =>
    dsimp only
    cases expire c with
    | stale => exact hue
    | resend nas area c' => simp [Watch.transmit, insertUe, arm]
    | exhausted => exact before_implicitDeregister l t x

theorem follows_pushTrackedConfigUpdate (cuc : Nas5gmmMessage)
    (areaRestriction : Option AreaRestriction) :
    Follows amfUeId (pushTrackedConfigUpdate F amfUeId cuc areaRestriction)
      (Watch.push F interval cuc areaRestriction) := by
  intro X O allow w l t x hue _
  unfold pushTrackedConfigUpdate getUe Watch.push
  rw [Proc.before, Proc.wp_bind, Proc.wp_look, ← hue]
  cases hc : l.ues.lookup amfUeId with
  | none => exact hc.trans (hc.symm.trans hue)
  | some c =>
    dsimp only
    cases c.sec with
    | none => exact hue
    | some sec => simp [hc, Watch.begin, Watch.transmit, modifyUe, arm]

theorem guardExpiry_ue {w : Watch} {c : UeContext} (hue : w.ue = some c) :
    w.guardExpiry.ue = if c.state ≠ .Registered ∧ c.stalled w.now = true then none else some c := by
  simp only [Watch.guardExpiry, hue]
  by_cases hstate : c.state = .Registered
  · simp [hstate, hue]
  · by_cases hstalled : c.stalled w.now = true
    · rw [if_neg hstate, if_pos hstalled, if_pos ⟨hstate, hstalled⟩]
      cases c.pendingRetx <;> rfl
    · simp [hstate, hstalled]

theorem follows_onRegistrationGuardExpiry :
    Follows amfUeId (onRegistrationGuardExpiry amfUeId) Watch.guardExpiry := by
  intro X O allow w l t x hue hnow
  unfold onRegistrationGuardExpiry getUe
  rw [Proc.before, Proc.wp_bind, Proc.wp_look]
  cases hc : l.ues.lookup amfUeId with
  | none =>
    have hw : w.ue = none := hue.symm.trans hc
    have hnone : w.guardExpiry.ue = none := by
      rw [Watch.guardExpiry, hw]
      exact hw
    rw [hnone]
    exact hc
  | some c =>
    rw [guardExpiry_ue (hue.symm.trans hc), ← hnow]
    dsimp only
    by_cases hstate : c.state = .Registered
    · rw [if_pos hstate, if_neg fun hboth => hboth.1 hstate]
      exact hc
    · rw [if_neg hstate, Proc.wp_bind, Proc.wp_look]
      by_cases hstalled : c.stalled t.clock = true
      · rw [if_pos hstalled, if_pos ⟨hstate, hstalled⟩]
        cases c.suci with
        | none => exact before_removeUe
        | some supi => exact before_bind_of_forall fun _ _ _ _ => before_removeUe
      · rw [if_neg hstalled, if_neg fun hboth => hstalled hboth.2]
        simpa [arm] using hc

theorem follows_configurationUpdateComplete :
    Follows amfUeId (dispatchUplinkNas F amfUeId .configurationUpdateComplete)
      (Watch.step F interval · .configurationUpdateComplete) := by
  intro X O allow w l t x hue _
  have hunfold : (w.step F interval .configurationUpdateComplete).ue =
      w.ue.map fun c => { c with pendingConfigUpdate := none } := by
    simp only [Watch.step, Watch.revise]
    split <;> rfl
  rw [hunfold]
  simp [dispatchUplinkNas, modifyUe, hue]

theorem authenticationFailure_ue {w : Watch} {answer : Option (String × UeAuthenticationCtx)} :
    (w.step F interval (.authenticationFailure answer)).ue =
      match w.resync F answer with
      | none => none
      | some fresh => w.ue.map fun c => { c with auth := some fresh, resyncAttempted := true } := by
  simp only [Watch.step]
  cases w.resync F answer with
  | none => rfl
  | some fresh =>
    dsimp only [Watch.revise]
    rw [Watch.heard_ue]

/-- What the AUSF does not answer ends the registration. -/
theorem resync_of_no_challenge {w : Watch} {answer : Option (String × UeAuthenticationCtx)}
    (hanswer : challengeOf F answer = none) : w.resync F answer = none := by
  simp [Watch.resync, hanswer]

/-- An Authentication Failure is one event of the machine, whatever the AUSF answers. -/
theorem before_onAuthenticationFailure (cause : UInt8) (auts : Option Bytes) {w : Watch}
    {l : Association} {t : Tables} {x : X} (hue : l.ues.lookup amfUeId = w.ue) :
    Proc.before O allow (onAuthenticationFailure F amfUeId cause auts)
      (fun _ l' _ _ => ∃ answer, l'.ues.lookup amfUeId =
        (w.step F interval (.authenticationFailure answer)).ue) l t x := by
  have hgone : (w.step F interval (.authenticationFailure none)).ue = none := by
    rw [authenticationFailure_ue, resync_of_no_challenge rfl]
  have habort : ∀ ranUeId l t x, Proc.before O allow (abortRegistration amfUeId ranUeId)
      (fun _ l' _ _ => ∃ answer, l'.ues.lookup amfUeId =
        (w.step F interval (.authenticationFailure answer)).ue) l t x :=
    fun _ l _ _ => ⟨none, (ues_erase l).trans hgone.symm⟩
  unfold onAuthenticationFailure getUe
  rw [Proc.before, Proc.wp_bind, Proc.wp_look]
  cases hc : l.ues.lookup amfUeId with
  | none => exact ⟨none, hc.trans hgone.symm⟩
  | some c =>
    dsimp only
    split
    · rename_i auts pending supi hauth hsuci
      split
      · rename_i hrecoverable
        unfold AmfAuth.resync callFor
        simp only [Proc.wp_bind, Proc.wp_mark, Proc.wp_ask, Proc.sequentially_note,
          Proc.sequentially_call]
        intro _ answer _
        cases answer with
        | none => exact habort c.ranUeId l t x
        | some ctx =>
          cases hchallenge : AmfAuth.challenge F pending.ausfBase ctx with
          | none =>
            dsimp only
            rw [hchallenge]
            exact habort c.ranUeId l t x
          | some challenge =>
            dsimp only
            rw [hchallenge]
            have hfresh : w.resync F (some (pending.ausfBase, ctx)) = some challenge.1 := by
              simp [Watch.resync, challengeOf, ← hue, hc, hauth, hrecoverable.2, hchallenge]
            refine ⟨some (pending.ausfBase, ctx), ?_⟩
            rw [authenticationFailure_ue, hfresh, ← hue]
            exact ues_modify _ l
      · exact habort c.ranUeId l t x
    · exact habort c.ranUeId l t x

end Handlers

/-! ### The budget of a run -/

/-- **The retransmission budget.** In every run whose events heed the side condition, whoever is evicted
had been sent the message that was outstanding five times, and every challenge that went out again was
the one pending. -/
theorem budgeted {F : Functions} {interval : Nat} {w : Watch} (h : w.Started) (es : List Event)
    (hheeds : Runs.Along (Watch.step F interval) Heeds w es) :
    Budgeted F interval (Runs.run (Watch.step F interval) w es) :=
  (Runs.invariant_along (fun _ e hheeds hkept => Watch.Kept.step hkept e hheeds) hheeds h.kept).budgeted

/-- A registered UE at rest. -/
def quiet : Watch :=
  { now := 0, ue := some { commandedUe with state := .Registered, sec := some sampleSec }, timers := [] }

theorem started_quiet : quiet.Started where
  retx := by rintro c ⟨⟩; rfl
  config := by rintro c ⟨⟩; rfl
  timers := by rintro t ⟨⟩
  sends := rfl
  answered := rfl
  evictions := rfl
  resent := rfl

def command : Event := .push (.configurationUpdateCommand [] false true) none

def t3555 (due : Instant) (number : Nat) : Armed :=
  { alarm := .t3555, due, message := some ⟨.configuration, number⟩ }

/-- A command, sent again once and answered. -/
def answeredCommand : List Event :=
  [command, .pass 6, .fire (t3555 6 1), .configurationUpdateComplete]

theorem budgeted_sample :
    Budgeted commandFunctions 6 (Runs.run (Watch.step commandFunctions 6) quiet answeredCommand) :=
  budgeted started_quiet answeredCommand
    ⟨trivial, trivial, fun _ _ _ _ _ _ => rfl, trivial, trivial⟩

/-- A second command, one second after the first: the timer of the first sends it again too. -/
def twoCommands : List Event :=
  [command, .pass 1, command, .pass 5, .fire (t3555 6 1), .pass 1, .fire (t3555 7 2),
    .pass 5, .fire (t3555 12 2), .pass 1, .fire (t3555 13 2), .pass 5, .fire (t3555 18 2)]

/-- An answer of the AUSF with this RAND. -/
def answerOf (rand : String) : Option (String × UeAuthenticationCtx) :=
  some ("", { rand, autn := rand, hxresStar := rand, authCtxId := "" })

def firstRand : String := "00000000000000000000000000000000"
def secondRand : String := "11111111111111111111111111111111"

/-- The UE fails to synchronise, and T3560 goes off for the first challenge. -/
def twoChallenges : List Event :=
  [.startAuthentication (answerOf firstRand), .authenticationFailure (answerOf secondRand), .pass 6,
    .fire { alarm := .nasRetx .AuthRequest, due := 6, message := some ⟨.registration, 1⟩ }]

/-- What carries a challenge is its Authentication Request. -/
theorem encode_of_challenges {nas : Bytes} {pending : PendingAuth}
    (h : Challenges commandFunctions nas (some pending)) :
    ∃ autn, sampleNas.encode (.authenticationRequest NGKSI pending.rand autn) = nas := by
  obtain ⟨_, ausfBase, ctx, hsome, hchallenge⟩ := h
  cases hsome
  simp only [AmfAuth.challenge, Option.bind_eq_bind, Option.bind_eq_some_iff, Option.pure_def,
    Option.some.injEq, Prod.mk.injEq] at hchallenge
  obtain ⟨rand, -, autn, -, hxres, -, rfl, hnas⟩ := hchallenge
  exact ⟨autn, hnas⟩

/-- **Out of budget.** Two commands a second apart use up one budget between them, and T3560 goes on with
a challenge that resynchronisation has replaced. -/
theorem not_budgeted :
    ¬ (∀ (F : Functions) (interval : Nat) (w : Watch) (es : List Event), w.Started →
      ∀ e ∈ (Runs.run (Watch.step F interval) w es).evictions, Spent interval e) ∧
    ¬ ∀ (F : Functions) (interval : Nat) (w : Watch) (es : List Event), w.Started →
      ∀ r ∈ (Runs.run (Watch.step F interval) w es).resent, Challenges F r.1 r.2 := by
  constructor
  · intro h
    have hevictions : (Runs.run (Watch.step commandFunctions 6) quiet twoCommands).evictions =
        [{ sent := [13, 12, 7, 6, 1], answered := false }] := by decide +kernel
    have hspent := h commandFunctions 6 quiet twoCommands started_quiet
    rw [hevictions] at hspent
    exact absurd (hspent _ List.mem_cons_self).apart (by decide)
  · intro h
    have hresent : (Runs.run (Watch.step commandFunctions 6) quiet twoChallenges).resent =
        [(sampleNas.encode (.authenticationRequest NGKSI (List.replicate 16 0) (List.replicate 16 0)),
          some ⟨"", "", List.replicate 16 0x11, List.replicate 16 0x11⟩)] := by decide +kernel
    have hchallenges := h commandFunctions 6 quiet twoChallenges started_quiet
    rw [hresent] at hchallenges
    obtain ⟨autn, hnas⟩ := encode_of_challenges (hchallenges _ List.mem_cons_self)
    have hfirst : some (0x11 : UInt8) = some 0 := congrArg (fun nas => nas[8]?) hnas
    exact absurd hfirst (by decide)

end Radian.Amf.Budget
