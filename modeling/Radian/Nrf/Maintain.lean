import Radian.Nrf.Discovery

/-!
# Keeping a registration alive

The task with which every network function keeps itself registered, against an NRF that expires
registrations, answers anybody else in between and may lose its state, over a network that loses
requests and answers.

- `Upkeep.own` — the next request of the task: a heartbeat, and a registration after a heartbeat that
  was not answered with success.
- `Upkeep.Own` — the entry under the instance's id is the instance's own.
- `Upkeep.Until` — the entry is good until some time, whatever else happens.
- `maintained` — two requests in a row that get through make the instance discoverable, for as long
  after the first as registrations live.
-/

namespace Radian.Nrf

open Keyed (Map)
open Sbi (Jose)

/-- A network function: its profile and the certificate it presents. -/
structure Instance where
  profile : NfProfile
  cert : Option String

/-- What the task does next when it wakes: a heartbeat, or a registration since the heartbeat failed. -/
inductive Phase where
  | beating | registering
  deriving DecidableEq, Repr

/-- What becomes of a request. -/
inductive Passage where
  | answered | requestLost | answerLost
  deriving DecidableEq, Repr

/-- The NRF, and where the task of `register_and_maintain` is in its loop. -/
structure Upkeep (SigningKey : Type) where
  store : NrfStore SigningKey
  now : Nat
  phase : Phase

inductive Turn where
  /-- Somebody else calls the NRF. -/
  | other (a : Arrival)
  /-- The task sends its next request. -/
  | own (delay : Nat) (passage : Passage)
  /-- The NRF loses its state. -/
  | restart (delay : Nat)

def Turn.delay : Turn → Nat
  | .other a => a.delay
  | .own delay _ => delay
  | .restart delay => delay

/-- The time that the turns take. -/
def spent (turns : List Turn) : Nat := (turns.map Turn.delay).sum

/-- Others neither register nor deregister the instance. -/
def Turn.Leaves (nf : Instance) : Turn → Prop
  | .other { call := .request (.register id _), .. } => id ≠ nf.profile.nfInstanceId
  | .other { call := .request (.deregister id), .. } => id ≠ nf.profile.nfInstanceId
  | _ => True

def Turn.Keeps : Turn → Prop
  | .restart _ => False
  | _ => True

section Loop

variable {SigningKey VerifyingKey : Type} (J : Jose SigningKey VerifyingKey) (upper : String → String)
  (nf : Instance)

namespace Upkeep

/-- A heartbeat.  The task registers next, unless it is told of success. -/
def beat (u : Upkeep SigningKey) (passage : Passage) : Upkeep SigningKey :=
  if passage = .requestLost then { u with phase := .registering }
  else
    let r := u.store.heartbeat u.now nf.profile.nfInstanceId
    { u with
      store := r.2
      phase := match r.1, passage with
        | .noContent, .answered => .beating
        | _, _ => .registering }

/-- A registration.  However it goes, the task sleeps next. -/
def registerAgain (u : Upkeep SigningKey) (passage : Passage) : Upkeep SigningKey :=
  if passage = .requestLost then { u with phase := .beating }
  else
    { u with
      store := (u.store.register u.now nf.profile.nfInstanceId nf.cert nf.profile).2
      phase := .beating }

/-- The next request of the task. -/
def own (u : Upkeep SigningKey) (passage : Passage) : Upkeep SigningKey :=
  match u.phase with
  | .beating => u.beat nf passage
  | .registering => u.registerAgain nf passage

def step (u : Upkeep SigningKey) (t : Turn) : Upkeep SigningKey :=
  let u := { u with now := u.now + t.delay }
  match t with
  | .other a => { u with store := (World.dispatch J upper u.store u.now a.cert a.call).2 }
  | .own _ passage => u.own nf passage
  | .restart _ => { u with store := { u.store with entries := ∅ } }

end Upkeep

/-! ### What a call does to an entry -/

/-- The entry under `id` stays, or is heard of, or goes when it has expired; none is new. -/
structure Touched (now : Nat) (id : String) (s s' : NrfStore SigningKey) : Prop where
  timer : s'.heartbeatTimer = s.heartbeatTimer
  kept : ∀ x, s.entries.lookup id = some x → s.alive now x = true →
    ∃ seen, (seen = x.lastSeen ∨ seen = now) ∧
      s'.entries.lookup id = some { x with lastSeen := seen }
  old : ∀ x', s'.entries.lookup id = some x' → ∃ x, s.entries.lookup id = some x ∧
    x'.profile = x.profile ∧ x'.certFp = x.certFp ∧ (x'.lastSeen = x.lastSeen ∨ x'.lastSeen = now)

namespace Touched

variable {now : Nat} {id : String} {s s' : NrfStore SigningKey}

/-- What leaves the entry alone. -/
theorem of_lookup (htimer : s'.heartbeatTimer = s.heartbeatTimer)
    (h : s'.entries.lookup id = s.entries.lookup id) : Touched now id s s' where
  timer := htimer
  kept x hx _ := ⟨x.lastSeen, .inl rfl, h.trans hx⟩
  old x hx := ⟨x, h ▸ hx, rfl, rfl, .inl rfl⟩

theorem purgeStale (now : Nat) (id : String) (s : NrfStore SigningKey) :
    Touched now id s (s.purgeStale now) where
  timer := rfl
  kept x hx halive := ⟨x.lastSeen, .inl rfl, World.lookup_purgeStale.mpr ⟨hx, halive⟩⟩
  old x hx := ⟨x, (World.lookup_purgeStale.mp hx).1, rfl, rfl, .inl rfl⟩

/-- A heartbeat, whoever sends it and for whomever. -/
theorem heartbeat (now : Nat) (id : String) (s : NrfStore SigningKey) (id' : String) :
    Touched now id s (s.heartbeat now id').2 where
  timer := by
    rw [NrfStore.heartbeat]
    split <;> rfl
  kept x hx halive := by
    have hx' := World.lookup_purgeStale.mpr ⟨hx, halive⟩
    rw [World.heartbeat_lookup]
    split
    next hid => exact ⟨now, .inr rfl, by rw [← hid, hx', Option.map_some]⟩
    next => exact ⟨x.lastSeen, .inl rfl, hx'⟩
  old x hx := by
    rw [World.heartbeat_lookup] at hx
    split at hx
    next hid =>
      obtain ⟨y, hy, rfl⟩ := Option.map_eq_some_iff.mp hx
      exact ⟨y, hid ▸ (World.lookup_purgeStale.mp hy).1, rfl, rfl, .inr rfl⟩
    next => exact ⟨x, (World.lookup_purgeStale.mp hx).1, rfl, rfl, .inl rfl⟩

/-- A call of somebody else who neither registers nor deregisters the instance. -/
theorem dispatch (J : Jose SigningKey VerifyingKey) (upper : String → String) (now : Nat)
    (s : NrfStore SigningKey) {a : Arrival} {nf : Instance} (h : (Turn.other a).Leaves nf) :
    Touched now nf.profile.nfInstanceId s (World.dispatch J upper s now a.cert a.call).2 := by
  obtain ⟨delay, cert, call⟩ := a
  cases call with
  | request r =>
    cases r with
    | register id profile =>
      have hne : nf.profile.nfInstanceId ≠ id := Ne.symm h
      by_cases hown : ∀ x, s.entries.lookup id = some x → ∀ c, x.certFp = some c → cert = some c
      · refine of_lookup ?_ ?_ <;>
          rw [World.dispatch, World.register_of_own now profile hown]
        rw [Map.lookup_insert_eq, if_neg hne]
      · push Not at hown
        obtain ⟨x, hx, c, hc, hcert⟩ := hown
        refine of_lookup ?_ ?_ <;> rw [World.dispatch, World.register_of_bound now profile hx hc hcert]
    | heartbeat id => exact heartbeat now _ s id
    | deregister id =>
      refine of_lookup rfl ?_
      have hne : nf.profile.nfInstanceId ≠ id := Ne.symm h
      exact (Map.lookup_erase_eq s.entries id nf.profile.nfInstanceId).trans (if_neg hne)
    | accessToken wall req =>
      have hsame : ∀ s' : NrfStore SigningKey, s' = s ∨ s' = s.purgeStale now →
          Touched now nf.profile.nfInstanceId s s' := by
        rintro s' (rfl | rfl)
        · exact of_lookup rfl rfl
        · exact purgeStale now _ s
      exact hsame _ (World.accessToken_store J upper s now wall cert req)
  | list => exact purgeStale now _ s
  | discover q => exact purgeStale now _ s

end Touched

/-! ### The instance's own entry -/

namespace Upkeep

variable {J upper nf}

/-- Whatever is registered under the instance's id is its own registration. -/
def Own (nf : Instance) (u : Upkeep SigningKey) : Prop :=
  ∀ x, u.store.entries.lookup nf.profile.nfInstanceId = some x →
    x.profile = World.stored u.store nf.profile.nfInstanceId nf.profile ∧ x.certFp = nf.cert ∧
      x.lastSeen ≤ u.now

/-- The registration is good until `until`. -/
def Until (nf : Instance) (limit : Nat) (u : Upkeep SigningKey) : Prop :=
  ∃ x, u.store.entries.lookup nf.profile.nfInstanceId = some x ∧
    x.profile = World.stored u.store nf.profile.nfInstanceId nf.profile ∧
    x.certFp = nf.cert ∧ x.lastSeen ≤ u.now ∧ limit ≤ x.lastSeen + u.store.ttl

variable {u u' : Upkeep SigningKey} {limit : Nat}

theorem stored_congr {s s' : NrfStore SigningKey} (h : s'.heartbeatTimer = s.heartbeatTimer)
    (id : String) (profile : NfProfile) : World.stored s' id profile = World.stored s id profile := by
  rw [World.stored, World.stored, h]

/-- A call that only touches the entry keeps it the instance's own. -/
theorem Own.touched (h : u.Own nf) (hnow : u.now ≤ u'.now)
    (ht : Touched u'.now nf.profile.nfInstanceId u.store u'.store) : u'.Own nf := by
  intro x' hx'
  obtain ⟨x, hx, hprofile, hcert, hseen⟩ := ht.old x' hx'
  obtain ⟨hstored, hown, hpast⟩ := h x hx
  refine ⟨?_, hcert.trans hown, ?_⟩
  · rw [hprofile, hstored, stored_congr ht.timer]
  · rcases hseen with hseen | hseen
    · exact hseen.le.trans (hpast.trans hnow)
    · exact hseen.le

/-- Before its time is up, no such call ends the registration. -/
theorem Until.touched (h : u.Until nf limit) (hnow : u.now ≤ u'.now) (hlimit : u'.now ≤ limit)
    (ht : Touched u'.now nf.profile.nfInstanceId u.store u'.store) : u'.Until nf limit := by
  obtain ⟨x, hx, hstored, hown, hpast, hgood⟩ := h
  have halive : u.store.alive u'.now x = true := by
    rw [NrfStore.alive, decide_eq_true_iff]
    omega
  obtain ⟨seen, hseen, hx'⟩ := ht.kept x hx halive
  have httl : u'.store.ttl = u.store.ttl := congrArg (2 * ·) ht.timer
  refine ⟨{ x with lastSeen := seen }, hx', ?_, hown, ?_, ?_⟩
  · rw [stored_congr ht.timer]
    exact hstored
  · show seen ≤ u'.now
    omega
  · show limit ≤ seen + u'.store.ttl
    omega

theorem Until.own (h : u.Until nf limit) : ∀ x, u.store.entries.lookup nf.profile.nfInstanceId = some x →
    ∀ c, x.certFp = some c → nf.cert = some c := by
  obtain ⟨x, hx, -, hcert, -⟩ := h
  intro y hy c hc
  obtain rfl : x = y := Option.mem_unique hx hy
  exact hcert.symm.trans hc

/-- The instance registers: its entry is fresh. -/
theorem registered (hown : ∀ x, u.store.entries.lookup nf.profile.nfInstanceId = some x →
    ∀ c, x.certFp = some c → nf.cert = some c)
    (hstore : u'.store = (u.store.register u.now nf.profile.nfInstanceId nf.cert nf.profile).2)
    (hnow : u'.now = u.now) : u'.Own nf ∧ u'.Until nf (u'.now + u'.store.ttl) := by
  rw [World.register_of_own u.now nf.profile hown] at hstore
  have hlookup : ∀ x, u'.store.entries.lookup nf.profile.nfInstanceId = some x ↔
      ⟨World.stored u.store nf.profile.nfInstanceId nf.profile, u.now, nf.cert⟩ = x := by
    intro x
    rw [hstore, Map.lookup_insert_eq, if_pos rfl, Option.some_inj]
  have htimer : u'.store.heartbeatTimer = u.store.heartbeatTimer := by rw [hstore]
  refine ⟨?_, _, (hlookup _).mpr rfl, (stored_congr htimer _ _).symm, rfl, hnow.ge, ?_⟩
  · intro x hx
    obtain rfl := (hlookup x).mp hx
    exact ⟨(stored_congr htimer _ _).symm, rfl, hnow.ge⟩
  · show u'.now + u'.store.ttl ≤ u.now + u'.store.ttl
    rw [hnow]

/-- The next request of the task: it is lost on the way, or it is a heartbeat, or a registration. -/
theorem own_cases (nf : Instance) (u : Upkeep SigningKey) (passage : Passage) :
    (u.own nf passage).now = u.now ∧
      ((u.own nf passage).store = u.store ∨
        (u.own nf passage).store = (u.store.heartbeat u.now nf.profile.nfInstanceId).2 ∨
        (u.own nf passage).store =
          (u.store.register u.now nf.profile.nfInstanceId nf.cert nf.profile).2) := by
  cases hphase : u.phase with
  | beating =>
    simp only [own, hphase, beat]
    split
    next => exact ⟨rfl, .inl rfl⟩
    next => exact ⟨rfl, .inr (.inl rfl)⟩
  | registering =>
    simp only [own, hphase, registerAgain]
    split
    next => exact ⟨rfl, .inl rfl⟩
    next => exact ⟨rfl, .inr (.inr rfl)⟩

@[simp] theorem step_now (t : Turn) : (u.step J upper nf t).now = u.now + t.delay := by
  cases t with
  | other a => rfl
  | own delay passage => exact (own_cases nf { u with now := u.now + delay } passage).1
  | restart delay => rfl

theorem run_now (turns : List Turn) (u : Upkeep SigningKey) :
    (Runs.run (step J upper nf) u turns).now = u.now + spent turns := by
  induction turns generalizing u with
  | nil => rfl
  | cons t turns ih =>
    rw [Runs.run_cons, ih, step_now, spent, spent, List.map_cons, List.sum_cons, add_assoc]

theorem Own.certs (h : u.Own nf) : ∀ x, u.store.entries.lookup nf.profile.nfInstanceId = some x →
    ∀ c, x.certFp = some c → nf.cert = some c :=
  fun x hx _ hc => (h x hx).2.1.symm.trans hc

theorem Own.own (h : u.Own nf) (passage : Passage) : (u.own nf passage).Own nf := by
  obtain ⟨hnow, hsame | hbeat | hregister⟩ := own_cases nf u passage
  · exact h.touched hnow.ge (.of_lookup (by rw [hsame]) (by rw [hsame]))
  · refine h.touched hnow.ge ?_
    rw [hbeat, hnow]
    exact .heartbeat u.now _ u.store _
  · exact (registered h.certs hregister hnow).1

theorem Own.step (h : u.Own nf) {t : Turn} (hleaves : t.Leaves nf) : (u.step J upper nf t).Own nf := by
  have hwait : ({ u with now := u.now + t.delay } : Upkeep SigningKey).Own nf :=
    h.touched (Nat.le_add_right _ _) (.of_lookup rfl rfl)
  cases t with
  | other a => exact hwait.touched le_rfl (.dispatch J upper _ _ hleaves)
  | own delay passage => exact hwait.own passage
  | restart delay => exact fun x hx => nomatch hx

theorem Until.mono (h : u.Until nf limit) {limit' : Nat} (hle : limit' ≤ limit) :
    u.Until nf limit' := by
  obtain ⟨x, hx, hstored, hcert, hpast, hgood⟩ := h
  exact ⟨x, hx, hstored, hcert, hpast, hle.trans hgood⟩

theorem Until.le (h : u.Until nf limit) : limit ≤ u.now + u.store.ttl := by
  obtain ⟨x, -, -, -, hpast, hgood⟩ := h
  omega

/-- Before its time is up, no request of the instance itself ends the registration, answered or not. -/
theorem Until.own_step (h : u.Until nf limit) (hlimit : u.now ≤ limit) (passage : Passage) :
    (u.own nf passage).Until nf limit := by
  obtain ⟨hnow, hsame | hbeat | hregister⟩ := own_cases nf u passage
  · exact h.touched hnow.ge (hnow.trans_le hlimit) (.of_lookup (by rw [hsame]) (by rw [hsame]))
  · refine h.touched hnow.ge (hnow.trans_le hlimit) ?_
    rw [hbeat, hnow]
    exact .heartbeat u.now _ u.store _
  · have hfresh := (registered h.own hregister hnow).2
    have htimer : (u.own nf passage).store.ttl = u.store.ttl := by
      rw [hregister, World.register_of_own u.now nf.profile h.own]
      rfl
    refine hfresh.mono ?_
    rw [hnow, htimer]
    exact h.le

theorem Until.step (h : u.Until nf limit) {t : Turn} (hleaves : t.Leaves nf) (hkeeps : t.Keeps)
    (hlimit : u.now + t.delay ≤ limit) : (u.step J upper nf t).Until nf limit := by
  have hwait : ({ u with now := u.now + t.delay } : Upkeep SigningKey).Until nf limit :=
    h.touched (Nat.le_add_right _ _) hlimit (.of_lookup rfl rfl)
  cases t with
  | other a => exact hwait.touched le_rfl hlimit (.dispatch J upper _ _ hleaves)
  | own delay passage => exact hwait.own_step hlimit passage
  | restart delay => exact hkeeps.elim

theorem Until.run {turns : List Turn} (h : u.Until nf limit) (hleaves : ∀ t ∈ turns, t.Leaves nf)
    (hkeeps : ∀ t ∈ turns, t.Keeps) (hlimit : u.now + spent turns ≤ limit) :
    (Runs.run (Upkeep.step J upper nf) u turns).Until nf limit := by
  induction turns generalizing u with
  | nil => exact h
  | cons t turns ih =>
    rw [spent, List.map_cons, List.sum_cons] at hlimit
    have hnext : (u.step J upper nf t).Until nf limit :=
      h.step (hleaves t List.mem_cons_self) (hkeeps t List.mem_cons_self) (by omega)
    refine ih hnext (fun t ht => hleaves t (List.mem_cons_of_mem _ ht))
      (fun t ht => hkeeps t (List.mem_cons_of_mem _ ht)) ?_
    rw [step_now, spent]
    omega

theorem Own.run {turns : List Turn} (h : u.Own nf) (hleaves : ∀ t ∈ turns, t.Leaves nf) :
    (Runs.run (Upkeep.step J upper nf) u turns).Own nf :=
  Runs.invariant_along (P := fun _ t => t.Leaves nf) (fun _ _ hleaves h => h.step hleaves)
    (Runs.along_of_mem hleaves) h

/-- A request that is answered: the registration is fresh, or the task registers next. -/
theorem Own.answered (h : u.Own nf) :
    (u.own nf .answered).Until nf (u.now + u.store.ttl) ∨
      u.phase = .beating ∧ (u.own nf .answered).phase = .registering := by
  cases hphase : u.phase with
  | registering =>
    left
    have hstore : (u.own nf .answered).store =
        (u.store.register u.now nf.profile.nfInstanceId nf.cert nf.profile).2 := by
      rw [Upkeep.own, hphase]
      rfl
    have hnow := (own_cases nf u .answered).1
    have hfresh := (registered h.certs hstore hnow).2
    have httl : (u.own nf .answered).store.ttl = u.store.ttl := by
      rw [hstore, World.register_of_own u.now nf.profile h.certs]
      rfl
    rwa [hnow, httl] at hfresh
  | beating =>
    have hown : u.own nf .answered = u.beat nf .answered := by rw [Upkeep.own, hphase]
    rw [hown, beat, if_neg (by decide)]
    cases hx : (u.store.purgeStale u.now).entries.lookup nf.profile.nfInstanceId with
    | none =>
      right
      simp only [NrfStore.heartbeat, hx, and_self]
    | some x =>
      left
      obtain ⟨hstored, hcert, -⟩ := h x (World.lookup_purgeStale.mp hx).1
      simp only [NrfStore.heartbeat, hx]
      refine ⟨{ x with lastSeen := u.now }, ?_, hstored, hcert, le_rfl, le_rfl⟩
      exact (Map.lookup_insert_eq ..).trans (if_pos rfl)

/-- Until its time is up, the instance is found by every discovery that its profile meets. -/
theorem Until.discovered (h : u.Until nf limit) (wait : Nat) (hlimit : u.now + wait ≤ limit)
    (q : DiscoveryQuery)
    (hq : q.selects (World.stored u.store nf.profile.nfInstanceId nf.profile) = true) :
    World.stored u.store nf.profile.nfInstanceId nf.profile ∈
      (u.store.discover (u.now + wait) q).1 := by
  obtain ⟨x, hx, hstored, -, -, hgood⟩ := h
  refine NrfStore.mem_discover.mpr ⟨⟨_, x, hx, ?_, hstored⟩, hq⟩
  rw [NrfStore.alive, decide_eq_true_iff]
  omega

/-- No call of others moves the task along, or changes the settings of the NRF. -/
theorem run_others (arrivals : List Arrival) (u : Upkeep SigningKey)
    (hleaves : ∀ a ∈ arrivals, (Turn.other a).Leaves nf) :
    (Runs.run (Upkeep.step J upper nf) u (arrivals.map .other)).phase = u.phase ∧
      (Runs.run (Upkeep.step J upper nf) u (arrivals.map .other)).store.heartbeatTimer =
        u.store.heartbeatTimer := by
  induction arrivals generalizing u with
  | nil => exact ⟨rfl, rfl⟩
  | cons a arrivals ih =>
    obtain ⟨hphase, htimer⟩ := ih (u.step J upper nf (.other a))
      fun a ha => hleaves a (List.mem_cons_of_mem _ ha)
    have hcall := Touched.dispatch J upper (u.now + a.delay) u.store
      (hleaves a List.mem_cons_self)
    exact ⟨hphase, htimer.trans hcall.timer⟩

theorem own_timer (nf : Instance) (u : Upkeep SigningKey) (passage : Passage) :
    (u.own nf passage).store.heartbeatTimer = u.store.heartbeatTimer := by
  obtain ⟨-, hsame | hbeat | hregister⟩ := own_cases nf u passage
  · rw [hsame]
  · rw [hbeat]
    exact (Touched.heartbeat u.now nf.profile.nfInstanceId u.store _).timer
  · rw [hregister, NrfStore.register]
    split
    next => split <;> rfl
    next => rfl

theorem run_timer (turns : List Turn) (u : Upkeep SigningKey) (hleaves : ∀ t ∈ turns, t.Leaves nf) :
    (Runs.run (Upkeep.step J upper nf) u turns).store.heartbeatTimer = u.store.heartbeatTimer := by
  refine Runs.invariant_along
    (I := fun u' : Upkeep SigningKey => u'.store.heartbeatTimer = u.store.heartbeatTimer)
    (P := fun _ (t : Turn) => t.Leaves nf) (fun u' t hleaves htimer => ?_) (Runs.along_of_mem hleaves)
    rfl
  cases t with
  | other a => exact (Touched.dispatch J upper _ u'.store hleaves).timer.trans htimer
  | own delay passage => exact (own_timer nf _ passage).trans htimer
  | restart delay => exact htimer

theorem round_mem {between : List Arrival} {d : Nat}
    (hleaves : ∀ a ∈ between, (Turn.other a).Leaves nf) :
    ∀ t ∈ between.map Turn.other ++ [.own d .answered], t.Leaves nf ∧ t.Keeps := by
  intro t ht
  rcases List.mem_append.mp ht with ht | ht
  · obtain ⟨a, ha, rfl⟩ := List.mem_map.mp ht
    exact ⟨hleaves a ha, trivial⟩
  · obtain rfl := List.mem_singleton.mp ht
    exact ⟨trivial, trivial⟩

/-- Two requests of the task that are answered, with calls of others in between, leave a registration
that is good for as long after the first as registrations live. -/
theorem Own.round (h : u.Own nf) {between : List Arrival} {d : Nat}
    (hleaves : ∀ a ∈ between, (Turn.other a).Leaves nf)
    (htime : spent (between.map .other) + d ≤ u.store.ttl) :
    (Runs.run (Upkeep.step J upper nf) (u.own nf .answered)
      (between.map .other ++ [.own d .answered])).Until nf (u.now + u.store.ttl) := by
  have hfirst := own_cases nf u .answered
  have hall := round_mem (d := d) hleaves
  rcases h.answered with hfresh | ⟨-, hphase⟩
  · -- the heartbeat was answered, and nothing that comes before its time is up undoes that
    refine hfresh.run (fun t ht => (hall t ht).1) (fun t ht => (hall t ht).2) ?_
    rw [hfirst.1, spent, List.map_append, List.sum_append]
    exact Nat.add_le_add_left htime u.now
  · -- the heartbeat failed, so the second request is a registration
    rw [Runs.run_append]
    have hothers : (Runs.run (Upkeep.step J upper nf) (u.own nf .answered)
        (between.map .other)).phase = _ ∧ _ := run_others between (u.own nf .answered) hleaves
    obtain ⟨hstill, htimer⟩ := hothers
    have hown : (Runs.run (Upkeep.step J upper nf) (u.own nf .answered)
        (between.map .other)).Own nf :=
      (h.own .answered).run fun t ht => (hall t (List.mem_append_left _ ht)).1
    have hnow : (Runs.run (Upkeep.step J upper nf) (u.own nf .answered)
        (between.map .other)).now = _ := run_now (between.map .other) (u.own nf .answered)
    rw [hfirst.1] at hnow
    have httl : (Runs.run (Upkeep.step J upper nf) (u.own nf .answered)
        (between.map .other)).store.ttl = u.store.ttl :=
      congrArg (2 * ·) (htimer.trans (own_timer nf u .answered))
    revert hown hnow httl hstill
    generalize Runs.run (Upkeep.step J upper nf) (u.own nf .answered) (between.map .other) = v
    intro hstill hown hnow httl
    have hwait : ({ v with now := v.now + d } : Upkeep SigningKey).Own nf :=
      hown.touched (Nat.le_add_right _ _) (.of_lookup rfl rfl)
    rcases hwait.answered with hfresh | ⟨hbeating, -⟩
    · refine hfresh.mono ?_
      show u.now + u.store.ttl ≤ v.now + d + v.store.ttl
      omega
    · rw [hstill, hphase] at hbeating
      cases hbeating

end Upkeep

end Loop

open Upkeep in
/-- **A registration is maintained.** Whatever happened before, in whatever state the NRF and the task
are: once two requests in a row of the task are answered, every discovery that the instance's profile
meets finds it, for as long after the first of them as registrations live, unless the NRF loses its
state again.  Requests may be lost before and after, and others may call in between. -/
theorem maintained {SigningKey VerifyingKey : Type} (J : Jose SigningKey VerifyingKey)
    (upper : String → String) (nf : Instance) (u : Upkeep SigningKey) (hown : u.Own nf)
    (before rest : List Turn) (between : List Arrival) (d₁ d₂ wait : Nat)
    (hbefore : ∀ t ∈ before, t.Leaves nf) (hbetween : ∀ a ∈ between, (Turn.other a).Leaves nf)
    (hrest : ∀ t ∈ rest, t.Leaves nf ∧ t.Keeps)
    (htime : spent (between.map .other) + d₂ + spent rest + wait ≤ u.store.ttl)
    (q : DiscoveryQuery)
    (hq : q.selects (World.stored u.store nf.profile.nfInstanceId nf.profile) = true) :
    let u' := Runs.run (step J upper nf) u
      (before ++ .own d₁ .answered :: (between.map .other ++ [.own d₂ .answered]) ++ rest)
    World.stored u.store nf.profile.nfInstanceId nf.profile ∈
      (u'.store.discover (u'.now + wait) q).1 := by
  intro u'
  obtain ⟨v, hv⟩ : ∃ v, Runs.run (step J upper nf) u before = v := ⟨_, rfl⟩
  obtain ⟨w, hw⟩ : ∃ w, Runs.run (step J upper nf) (v.step J upper nf (.own d₁ .answered))
    (between.map .other ++ [.own d₂ .answered]) = w := ⟨_, rfl⟩
  have hend : u' = Runs.run (step J upper nf) w rest := by
    show Runs.run (step J upper nf) u _ = _
    rw [Runs.run_append, Runs.run_append, hv, Runs.run_cons, hw]
  have hstart : v.Own nf := hv ▸ hown.run hbefore
  have htimer : v.store.heartbeatTimer = u.store.heartbeatTimer := hv ▸ run_timer before u hbefore
  have httl : v.store.ttl = u.store.ttl := congrArg (2 * ·) htimer
  have hwake : ({ v with now := v.now + d₁ } : Upkeep SigningKey).Own nf :=
    hstart.touched (Nat.le_add_right _ _) (.of_lookup rfl rfl)
  have hround : w.Until nf (v.now + d₁ + v.store.ttl) :=
    hw ▸ hwake.round hbetween (show spent (between.map .other) + d₂ ≤ v.store.ttl by omega)
  have hnow : w.now = v.now + d₁ + (spent (between.map .other) + d₂) := by
    rw [← hw, run_now, step_now, spent, List.map_append, List.sum_append]
    rfl
  have hlast : u'.Until nf (v.now + d₁ + v.store.ttl) :=
    hend ▸ hround.run (fun t ht => (hrest t ht).1) (fun t ht => (hrest t ht).2) (by omega)
  have hnow' : u'.now = w.now + spent rest := by rw [hend, run_now]
  have hsame : World.stored u'.store nf.profile.nfInstanceId nf.profile =
      World.stored u.store nf.profile.nfInstanceId nf.profile := by
    refine stored_congr (Eq.trans ?_ htimer) _ _
    rw [hend, run_timer rest w fun t ht => (hrest t ht).1, ← hw,
      run_timer _ _ fun t ht => (round_mem hbetween t ht).1]
    exact own_timer nf { v with now := v.now + d₁ } .answered
  rw [← hsame] at hq ⊢
  exact hlast.discovered wait (by omega) q hq

def sampleInstance : Instance :=
  { profile := { smfProfile with nfInstanceId := "smf-1" }, cert := some "cert-a" }

/-- The NRF restarts, the next heartbeat is answered but fails, and the task registers again, while
somebody lists the instances. -/
def sampleRound : List Turn :=
  [.own 0 .answered, .own 0 .answered, .restart 1, .own (10 * 10 ^ 9) .answered,
    .other { delay := 1, call := .list }, .own 5 .answered, .own (10 * 10 ^ 9) .requestLost]

theorem maintained_after_restart :
    World.stored ({} : NrfStore UInt8) "smf-1" sampleInstance.profile ∈
      ((Runs.run (Upkeep.step Sbi.sampleJose String.toUpper sampleInstance)
        { store := {}, now := 0, phase := .beating } sampleRound).store.discover
          (20 * 10 ^ 9 + 10) { targetNfType := "smf" }).1 :=
  maintained Sbi.sampleJose String.toUpper sampleInstance
    { store := {}, now := 0, phase := .beating } nofun
    [.own 0 .answered, .own 0 .answered, .restart 1] [.own (10 * 10 ^ 9) .requestLost]
    [{ delay := 1, call := .list }] (10 * 10 ^ 9) 5 3 (by simp [Turn.Leaves]) (by simp [Turn.Leaves])
    (by simp [Turn.Leaves, Turn.Keeps]) (by decide) { targetNfType := "smf" } (by decide +kernel)

end Radian.Nrf
